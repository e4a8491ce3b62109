import ModalCursor.Session
/-!
# ModalCursor.Session.Transcript

The **transcript** of a run of keys has one line for each command that was executed and each sequence that was
rejected. The **summary** of a session shows its position, pending keys, jump mark and marks.
-/

namespace ModalCursor.Session

/-- The transcript's line for a key, from the session before it. Keys that finish nothing have no line. -/
def transcriptLine (s : Session) (key : Char) : String :=
  let typed := String.ofList (s.pending ++ [key])
  match s.feed key with
  | (after, .executed c) =>
      typed ++ " " ++ c.action.text ++ " -> " ++ after.cursor.position.text ++ "\n"
  | (_, .rejected) => typed ++ " rejected\n"
  | _ => ""

/-- Feeds one key, and adds its line to what is shown so far if a transcript is asked for. -/
def replayKey (trace : Bool) (run : Session × String) (key : Char) : Session × String :=
  let (s, shown) := run
  ((s.feed key).1, if trace then shown ++ s.transcriptLine key else shown)

/-- Feeds the keys and gives the session after them, with their transcript if it is asked for. -/
def replay (s : Session) (keys : Keys) (trace : Bool) : Session × String :=
  keys.foldl (replayKey trace) (s, "")

/-- The jump mark's position, or a dash. -/
def jumpText (j : JumpMark) : String :=
  match j.saved with
  | some p => p.text
  | none => "-"

/-- The marks in alphabetical order, or a dash. -/
def marksText (m : Marks) : String :=
  match m.toList with
  | [] => "-"
  | marks => String.intercalate ", " (marks.map fun (name, p) => name.toString ++ " " ++ p.text)

/-- The line of pending keys. Without any there is no line. -/
def pendingLine (keys : Keys) : String :=
  match keys with
  | [] => ""
  | _ => "pending " ++ String.ofList keys ++ "\n"

/-- What a session has come to. -/
def summary (s : Session) : String :=
  "cursor  " ++ s.cursor.position.text ++ "\n" ++ pendingLine s.pending
    ++ "jump    " ++ jumpText s.cursor.jump ++ "\n"
    ++ "marks   " ++ marksText s.cursor.marks ++ "\n"

end ModalCursor.Session
