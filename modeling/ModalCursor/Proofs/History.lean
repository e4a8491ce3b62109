import ModalCursor.Proofs.Reachable
/-!
# ModalCursor.Proofs.History

**What a session remembers of its commands.** `Session.executed` lists the commands executed over a run of
operations, each with the session it was executed in. The list begins anew with every restart and every
replacement of the buffer that succeeds, as the session does.

A relation between the session and this list that commands keep (`KeptByCommands`) holds after any operations:
one operation keeps it, and so does a run.

The marks and the jump mark are slots that some commands fill with the position they start from. For every such
slot (`SavesOrigin`), after any operations it holds where the last command that fills it was executed
(`SavesOrigin.performAll_start`).

The jump mark is filled by the commands that jump (`Executed.jumps`). Whether one does is read off the session in
which it is executed. The way back swaps two positions, but the one that it leaves behind is its own origin, so it
fills the slot like any other jump.
-/

namespace ModalCursor

/-- A command that was executed, with the session just before. -/
structure Executed where
  before : Session
  command : Command
  deriving DecidableEq

/-- Where the cursor was when the command was executed. -/
def Executed.origin (e : Executed) : Position := e.before.cursor.position

/-- Where the last of the commands that `saves` picks was executed. -/
def lastOrigin (saves : Executed → Bool) (done : List Executed) : Option Position :=
  (done.filter saves).getLast?.map Executed.origin

@[simp] theorem lastOrigin_nil (saves : Executed → Bool) : lastOrigin saves [] = none := rfl

/-- A command that is picked is the last one, and any other changes nothing. -/
theorem lastOrigin_concat (saves : Executed → Bool) (done : List Executed) (e : Executed) :
    lastOrigin saves (done ++ [e]) = if saves e then some e.origin else lastOrigin saves done := by
  cases he : saves e with
  | true => simp [lastOrigin, List.filter_append, he]
  | false => simp [lastOrigin, List.filter_append, he]

namespace Session

/-- The commands executed since the session last began, after one operation more. -/
def executedAfter (s : Session) (done : List Executed) : Operation → List Executed
  | .key key =>
      match (s.feed key).2 with
      | .executed c => done ++ [⟨s, c⟩]
      | _ => done
  | .restart => []
  | .replace t =>
      match (s.replaceBuffer t).2 with
      | .ok () => []
      | .error _ => done

/-- The commands executed since the session last began, after more operations in order. -/
def executedFrom (s : Session) (done : List Executed) : List Operation → List Executed
  | [] => done
  | op :: ops => (s.perform op).executedFrom (s.executedAfter done op) ops

/-- The commands that operations execute, since the last of them that begins the session anew. -/
def executed (s : Session) (ops : List Operation) : List Executed := s.executedFrom [] ops

end Session

/-! ### What commands keep -/

/-- A relation between a session and the commands executed since it last began, which a new session is in without
commands, which does not depend on the pending keys, and which every command keeps. -/
structure KeptByCommands (rel : Session → List Executed → Prop) : Prop where
  start : ∀ b o, rel (.start b o) []
  typed : ∀ s done pending, rel s done → rel { s with pending := pending } done
  execute : ∀ s done c, rel s done → rel (s.execute c) (done ++ [⟨s, c⟩])

namespace KeptByCommands

variable {rel : Session → List Executed → Prop} {s : Session} {done : List Executed}

theorem feed (h : KeptByCommands rel) (hs : rel s done) (key : Char) :
    rel (s.feed key).1 (s.executedAfter done (.key key)) := by
  rw [Session.executedAfter]
  have hstep := s.keyStep key
  generalize s.feed key = r at *
  cases hstep with
  | ignored _ => exact hs
  | pending _ | rejected _ _ => exact h.typed s done _ hs
  | executed _ => exact h.execute s done _ hs

theorem perform (h : KeptByCommands rel) (hs : rel s done) (op : Operation) :
    rel (s.perform op) (s.executedAfter done op) := by
  cases op with
  | key key => exact h.feed hs key
  | restart => exact h.start s.buffer s.settings
  | replace t =>
      rw [Session.perform, Session.executedAfter, Session.replaceBuffer]
      cases Buffer.ofText t with
      | error e => exact hs
      | ok b => exact h.start b s.settings

theorem performAll (h : KeptByCommands rel) (hs : rel s done) (ops : List Operation) :
    rel (s.performAll ops) (s.executedFrom done ops) := by
  induction ops generalizing s done with
  | nil => exact hs
  | cons op ops ih => exact ih (h.perform hs op)

theorem performAll_start (h : KeptByCommands rel) (b : Buffer) (o : Settings) (ops : List Operation) :
    rel ((Session.start b o).performAll ops) ((Session.start b o).executed ops) :=
  h.performAll (h.start b o) ops

end KeptByCommands

/-! ### Slots that commands fill -/

/-- A slot of the cursor that is empty at first and is filled only by the commands that `saves` picks, with the
position they are executed at. -/
structure SavesOrigin (slot : Cursor → Option Position) (saves : Executed → Bool) : Prop where
  start : ∀ p, slot (.start p) = none
  execute : ∀ s c, slot (s.execute c).cursor =
    if saves ⟨s, c⟩ then some s.cursor.position else slot s.cursor

namespace SavesOrigin

variable {slot : Cursor → Option Position} {saves : Executed → Bool} {s : Session}

theorem keptByCommands (h : SavesOrigin slot saves) :
    KeptByCommands fun s done => slot s.cursor = lastOrigin saves done where
  start := fun _ _ => h.start _
  typed := fun _ _ _ hs => hs
  execute := by
    intro s done c hs
    rw [h.execute, lastOrigin_concat, hs]
    rfl

/-- A key that executes no command that fills the slot leaves it as it is. -/
theorem feed_kept (h : SavesOrigin slot saves) {key : Char}
    (hkey : ∀ c, (s.feed key).2 = .executed c → saves ⟨s, c⟩ = false) :
    slot (s.feed key).1.cursor = slot s.cursor := by
  have hstep := s.keyStep key
  generalize s.feed key = r at *
  cases hstep with
  | ignored _ | pending _ | rejected _ _ => rfl
  | @executed c _ => simp [h.execute, hkey c rfl]

/-- The slot holds where the last command that fills it was executed. -/
theorem performAll_start (h : SavesOrigin slot saves) (b : Buffer) (o : Settings) (ops : List Operation) :
    slot ((Session.start b o).performAll ops).cursor = lastOrigin saves ((Session.start b o).executed ops) :=
  h.keptByCommands.performAll_start b o ops

end SavesOrigin

/-! ### The jump mark -/

/-- The command jumps, in the session that it is executed in. -/
def Executed.jumps (e : Executed) : Bool := e.before.cursor.jumps e.command

theorem savesOrigin_jump : SavesOrigin (fun cursor => cursor.jump.saved) Executed.jumps where
  start := fun _ => rfl
  execute := by
    intro s c
    have hrun : (s.execute c).cursor.jump = (s.cursor.run s.buffer c).jump := rfl
    rw [hrun, Cursor.run_jump_saved]
    rfl

/-- **The jump mark is the last jump's origin.** Whatever is done to a session, its jump mark is the position from
which the last command that jumped was executed, of those since the session was last begun anew, and it is empty if
none jumped. A key that executes no such command leaves it as it is. -/
theorem Session.jump_is_last_origin (b : Buffer) (o : Settings) (ops : List Operation) :
    let s := (start b o).performAll ops
    s.cursor.jump.saved = lastOrigin Executed.jumps ((start b o).executed ops) ∧
      ∀ key, (∀ c, (s.feed key).2 = .executed c → Executed.jumps ⟨s, c⟩ = false) →
        (s.feed key).1.cursor.jump.saved = s.cursor.jump.saved := by
  intro s
  exact ⟨savesOrigin_jump.performAll_start b o ops, fun _ => savesOrigin_jump.feed_kept⟩

/-- The way back from the last row leaves the last row in the jump mark, and a way back to nowhere leaves nothing. -/
example :
    let s := Session.start (.ofWhole ['a', '\n', 'b']) { startRow := 0 }
    lastOrigin Executed.jumps (s.executed [.key 'G', .key '\x27', .key '\x27']) = some ⟨1, 0⟩ ∧
      lastOrigin Executed.jumps (s.executed [.key '\x27', .key '\x27']) = none := by decide

end ModalCursor
