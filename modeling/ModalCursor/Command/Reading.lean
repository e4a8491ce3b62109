import ModalCursor.Command
import ModalCursor.Text.Numeral
/-!
# ModalCursor.Command.Reading

**Reading keys as a command.** A command is typed as an optional count, a key, and for some keys a target:

* `j k h l w e b { }` and `f F t T` with a target are motions, repeated by the count;
* `^` and `$` move on the row and drop the count;
* `0` alone goes to the row's start; after another digit it belongs to the count;
* `gg` and `G` go to the first and the last row, or with a count to the row it names;
* `m`, the apostrophe and the back-quote take the name of a mark; two apostrophes return to the last jump.

Keys that do not make a command yet are either *incomplete*, so that more keys can complete them, or *invalid*,
so that none can.
-/

namespace ModalCursor

/-- Keys in the order in which they were typed. -/
abbrev Keys := Text

/-- What a run of keys amounts to. -/
inductive Reading
  /-- More keys can make it a command. The count is what has been typed of it. -/
  | incomplete (count : Option Nat)
  /-- No further key can make it a command. -/
  | invalid
  /-- It is this command. -/
  | complete (c : Command)
  deriving DecidableEq, Repr

/-! ### Single keys and keys with a target -/

/-- The motion of a single key. -/
def Motion.ofKey? : Char → Option Motion
  | 'j' => some .down
  | 'k' => some .up
  | 'h' => some .left
  | 'l' => some .right
  | 'w' => some .wordNext
  | 'e' => some .wordEnd
  | 'b' => some .wordPrev
  | '{' => some .paragraphUp
  | '}' => some .paragraphDown
  | _ => none

/-- The action of a single key, the keys that go to a row apart. -/
def Action.ofKey? : Char → Option Action
  | '^' => some .firstNonBlank
  | '$' => some .lineEnd
  | key => (Motion.ofKey? key).map .move

/-- The action of a key with its target. -/
def Action.ofTarget? (key target : Char) : Option Action :=
  match key with
  | 'f' => some (.move (.search .findForward target))
  | 'F' => some (.move (.search .findBackward target))
  | 't' => some (.move (.search .tillForward target))
  | 'T' => some (.move (.search .tillBackward target))
  | 'm' => some (.setMark target)
  | '\x27' => some (if target = '\x27' then .jumpPrevLine else .jumpToMarkLine target)
  | '\x60' => some (.jumpToMark target)
  | _ => none

/-- The keys that take the next key as their target, whatever it is. -/
def takesTarget (key : Char) : Bool :=
  "fFtTm\x27\x60".toList.contains key

/-- The command of an action: motions take the count, at least one; other actions drop it. -/
def Action.counted (a : Action) (count : Option Nat) : Command :=
  ⟨a, if a.isRepeatable then some (max 1 (count.getD 1)) else none⟩

/-- To the row that the count names, or where `other` goes without one. -/
def Command.toRow (count : Option Nat) (other : Action) : Command :=
  match count with
  | some n => ⟨.goto, some n⟩
  | none => ⟨other, none⟩

/-! ### Whole commands -/

namespace Reading

/-- A key that names a whole action, or is invalid. -/
def ofAction? (count : Option Nat) : Option Action → Reading
  | some a => .complete (a.counted count)
  | none => .invalid

/-- A count followed by one key. -/
def ofKey (count : Option Nat) (key : Char) : Reading :=
  if key = 'G' then .complete (Command.toRow count .last)
  else if key = 'g' ∨ takesTarget key then .incomplete count
  else ofAction? count (Action.ofKey? key)

/-- A count followed by two keys. -/
def ofPair (count : Option Nat) (key target : Char) : Reading :=
  if key = 'g' ∧ target = 'g' then .complete (Command.toRow count .first)
  else ofAction? count (Action.ofTarget? key target)

/-- The count that leading digits make. -/
def count? (digits : Keys) : Option Nat :=
  if digits = [] then none else some (Numeral.saturating digits)

/-- The count typed first, and the keys after it. -/
def ofCounted (digits rest : Keys) : Reading :=
  match rest with
  | [] => if digits = ['0'] then .complete ⟨.lineStart, none⟩ else .incomplete (count? digits)
  | [key] => ofKey (count? digits) key
  | [key, target] => ofPair (count? digits) key target
  | _ => .invalid

/-- Reads a run of keys. -/
def ofKeys (keys : Keys) : Reading :=
  ofCounted (keys.takeWhile Char.isDigit) (keys.dropWhile Char.isDigit)

end Reading

/-! ### Which keys are listened to -/

/-- The keys end in one that takes a target, so the next key is taken whatever it is. -/
def awaitsTarget (keys : Keys) : Bool :=
  match keys.dropWhile Char.isDigit with
  | [key] => takesTarget key
  | _ => false

/-- The key can start a command. -/
def isMotionKey (key : Char) : Bool :=
  key.isDigit || "jkhlgGweb^$fFtT\x7b\x7dm\x27\x60".toList.contains key

end ModalCursor
