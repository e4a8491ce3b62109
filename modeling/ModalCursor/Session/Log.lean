import ModalCursor.Session
/-!
# ModalCursor.Session.Log

The **log records** of a session: what it reports when it starts, at each key, on a restart and when its buffer
is replaced. Records follow from the session and the key alone.
-/

namespace ModalCursor

/-- How detailed a record is. -/
inductive Level
  /-- Something happened to the session. -/
  | debug
  /-- A detail on the way. -/
  | trace
  deriving DecidableEq, Repr

def Level.name : Level → String
  | debug => "DEBUG"
  | trace => "TRACE"

structure Record where
  level : Level
  message : String
  deriving DecidableEq, Repr

/-- The record as a line of a log: the level, then the message. -/
def Record.text (r : Record) : String := r.level.name ++ " " ++ r.message

namespace Session

/-- A new session reports its position and the number of rows. -/
def startRecords (s : Session) : List Record :=
  [⟨.debug, "session start at " ++ s.cursor.position.text ++ " over "
    ++ toString s.buffer.rowCount ++ " lines"⟩]

/-- A restarted session reports its position. -/
def restartRecords (s : Session) : List Record :=
  [⟨.debug, "restart at " ++ s.cursor.position.text⟩]

/-- A session over a replaced buffer reports the number of rows, then the restart. -/
def replaceRecords (s : Session) : List Record :=
  ⟨.debug, "buffer replaced, " ++ toString s.buffer.rowCount ++ " lines"⟩ :: s.restartRecords

/-- A mark under a name that no mark can have is reported. -/
def markRecords : Action → List Record
  | .setMark name =>
      if isMarkName name then [] else [⟨.trace, "ignoring mark name " ++ quotedChar name⟩]
  | _ => []

/-- What feeding a key reports, from the session before it: the key itself, then a rejection or an execution. -/
def keyRecords (s : Session) (key : Char) : List Record :=
  let typed := quotedText (s.pending ++ [key])
  let (after, outcome) := s.feed key
  ⟨.trace, "key " ++ quotedChar key ++ ", pending " ++ quotedText s.pending⟩ ::
    match outcome with
    | .ignored | .pending => []
    | .rejected => [⟨.debug, "rejected " ++ typed⟩]
    | .executed c =>
        markRecords c.action ++
          [⟨.debug, typed ++ " " ++ c.text ++ " -> " ++ after.cursor.position.text⟩]

def keysRecords (s : Session) : Keys → List Record
  | [] => []
  | key :: keys => s.keyRecords key ++ (s.feed key).1.keysRecords keys

end Session

end ModalCursor
