import ModalCursor.Buffer.Load
import ModalCursor.Command.Reading
import ModalCursor.Cursor
import ModalCursor.Settings
/-!
# ModalCursor.Session

A **session** runs keys over a buffer. It collects keys until they read as a command, executes the command, and
then settles the column:

* after a vertical action the column is the *wanted* column, or the row's last one if the row is shorter;
* after any other action the column is brought onto the row and becomes the wanted column.

Each executed command leaves the settled position in the *trail*, which keeps the newest positions only.
-/

namespace ModalCursor

/-- What a single key did. -/
inductive Outcome
  /-- The key is none that a command can start with, and no target was awaited. Nothing changed. -/
  | ignored
  /-- The key was added to the pending keys. -/
  | pending
  /-- The pending keys can no longer make a command and were dropped. -/
  | rejected
  /-- The pending keys made this command, which was executed. -/
  | executed (c : Command)
  deriving DecidableEq, Repr

/-- A buffer under a cursor, the keys typed so far, and the session's memory. -/
structure Session where
  buffer : Buffer
  settings : Settings
  cursor : Cursor
  /-- Keys typed towards a command. -/
  pending : Keys
  /-- The column that vertical motions return to. -/
  want : Nat
  /-- Positions after executed commands, oldest first. -/
  trail : List Position
  deriving DecidableEq

/-- The last `n` elements of a list. -/
def keepLast {α : Type} (n : Nat) (l : List α) : List α := l.drop (l.length - n)

theorem length_keepLast {α : Type} (n : Nat) (l : List α) :
    (keepLast n l).length = min n l.length := by
  rw [keepLast, List.length_drop]
  omega

namespace Session

/-! ### Starting -/

/-- The settings' start row, brought into the text, at its first column or in its middle. -/
def startPosition (b : Buffer) (o : Settings) : Position :=
  let row := min o.startRow b.lastRow
  ⟨row, if o.startCentered then b.rowLength row / 2 else 0⟩

/-- A session in which no key has been typed. -/
def start (b : Buffer) (o : Settings) : Session :=
  let p := startPosition b o
  { buffer := b, settings := o, cursor := .start p, pending := [], want := p.col, trail := [] }

/-- Back to the start over the same buffer, with no marks, pending keys or trail. -/
def restart (s : Session) : Session :=
  let p := startPosition s.buffer s.settings
  { s with cursor := .start p, pending := [], want := p.col, trail := [] }

/-- Goes over to the buffer of another text, restarted, and tells whether that could be done. A text with no row to
show is refused, and the session goes on as it was. -/
def replaceBuffer (s : Session) (t : Text) : Session × Except BufferError Unit :=
  match Buffer.ofText t with
  | .ok b => ({ s with buffer := b }.restart, .ok ())
  | .error e => (s, .error e)

/-! ### Keys -/

/-- Where the cursor comes to rest after an action that took it to `p`. -/
def settledAt (s : Session) (a : Action) (p : Position) : Position :=
  p.withCol (min (if a.isVertical then s.want else p.col) (s.buffer.lastCol p.row))

/-- Executes a command: moves the cursor, settles the column, extends the trail and drops the pending keys. -/
def execute (s : Session) (c : Command) : Session :=
  let moved := s.cursor.run s.buffer c
  let position := s.settledAt c.action moved.position
  { s with
    cursor := moved.moveTo position
    pending := []
    want := if c.action.isVertical then s.want else position.col
    trail := keepLast s.settings.trailLength (s.trail ++ [position]) }

/-- The key is taken up, because a command can start with it or a target is awaited. -/
def takes (s : Session) (key : Char) : Bool := isMotionKey key || awaitsTarget s.pending

/-- Feeds one key. -/
def feed (s : Session) (key : Char) : Session × Outcome :=
  if s.takes key then
    let typed := s.pending ++ [key]
    match Reading.ofKeys typed with
    | .incomplete _ => ({ s with pending := typed }, .pending)
    | .invalid => ({ s with pending := [] }, .rejected)
    | .complete c => (s.execute c, .executed c)
  else (s, .ignored)

/-- Feeds keys in order, and gives the session and the outcome after each. -/
def history (s : Session) : Keys → List (Session × Outcome)
  | [] => []
  | key :: keys => s.feed key :: (s.feed key).1.history keys

/-- The session after all keys. -/
def feedAll (s : Session) (keys : Keys) : Session :=
  keys.foldl (fun t key => (t.feed key).1) s

/-- The outcomes of keys fed in order. -/
def outcomes (s : Session) (keys : Keys) : List Outcome := (s.history keys).map Prod.snd

/-! ### Feeding one by one -/

@[simp] theorem feedAll_nil (s : Session) : s.feedAll [] = s := rfl

@[simp] theorem feedAll_cons (s : Session) (key : Char) (keys : Keys) :
    s.feedAll (key :: keys) = (s.feed key).1.feedAll keys := rfl

theorem feedAll_append (s : Session) (first second : Keys) :
    s.feedAll (first ++ second) = (s.feedAll first).feedAll second :=
  List.foldl_append

@[simp] theorem outcomes_nil (s : Session) : s.outcomes [] = [] := rfl

@[simp] theorem outcomes_cons (s : Session) (key : Char) (keys : Keys) :
    s.outcomes (key :: keys) = (s.feed key).2 :: (s.feed key).1.outcomes keys := rfl

/-- Keys never change the buffer or the settings. -/
theorem feed_buffer_settings (s : Session) (key : Char) :
    (s.feed key).1.buffer = s.buffer ∧ (s.feed key).1.settings = s.settings := by
  rw [feed]
  by_cases ht : s.takes key
  · rw [if_pos ht]
    cases h : Reading.ofKeys (s.pending ++ [key]) <;> simp [h, execute]
  · rw [if_neg ht]
    exact ⟨rfl, rfl⟩

theorem feedAll_buffer_settings (s : Session) (keys : Keys) :
    (s.feedAll keys).buffer = s.buffer ∧ (s.feedAll keys).settings = s.settings := by
  induction keys generalizing s with
  | nil => exact ⟨rfl, rfl⟩
  | cons key keys ih =>
      obtain ⟨hbuffer, hsettings⟩ := s.feed_buffer_settings key
      obtain ⟨hbuffer', hsettings'⟩ := ih (s.feed key).1
      rw [feedAll_cons]
      exact ⟨hbuffer'.trans hbuffer, hsettings'.trans hsettings⟩

end Session

end ModalCursor
