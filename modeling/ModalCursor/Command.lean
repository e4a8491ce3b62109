import ModalCursor.Motion
import ModalCursor.Text.Quoted
/-!
# ModalCursor.Command

A **command** is an action and an optional count. Actions are the counted motions, jumps to a row, moves on the
row that ignore a count, and everything that has to do with marks.
-/

namespace ModalCursor

/-- What a command does. -/
inductive Action
  | move (m : Motion)
  | first
  | last
  /-- To the row that the count names, counted from one. -/
  | goto
  /-- To the first ink of the row. -/
  | firstNonBlank
  | lineStart
  | lineEnd
  /-- Names the position. -/
  | setMark (name : Char)
  /-- To the named position. -/
  | jumpToMark (name : Char)
  /-- To the first ink of the named position's row. -/
  | jumpToMarkLine (name : Char)
  /-- To the first ink of the row that the last jump left. -/
  | jumpPrevLine
  deriving DecidableEq, Repr

/-- An action and the count typed before it. -/
structure Command where
  action : Action
  count : Option Nat
  deriving DecidableEq, Repr

/-! ### Names -/

def Search.name : Search → String
  | findForward => "find_forward"
  | findBackward => "find_backward"
  | tillForward => "till_forward"
  | tillBackward => "till_backward"

def Motion.name : Motion → String
  | down => "down"
  | up => "up"
  | left => "left"
  | right => "right"
  | wordNext => "word_next"
  | wordEnd => "word_end"
  | wordPrev => "word_prev"
  | search way _ => way.name
  | paragraphUp => "paragraph_up"
  | paragraphDown => "paragraph_down"

namespace Action

/-- The action's name in messages. -/
def name : Action → String
  | move m => m.name
  | first => "first"
  | last => "last"
  | goto => "goto"
  | firstNonBlank => "first_non_blank"
  | lineStart => "line_start"
  | lineEnd => "line_end"
  | setMark _ => "set_mark"
  | jumpToMark _ => "jump_to_mark"
  | jumpToMarkLine _ => "jump_to_mark_line"
  | jumpPrevLine => "jump_prev_line"

/-- The character that was typed as the action's target. -/
def target? : Action → Option Char
  | move (.search _ ch) => some ch
  | setMark ch | jumpToMark ch | jumpToMarkLine ch => some ch
  | _ => none

/-! ### Classes of actions -/

/-- Repeated by a count. -/
def isRepeatable : Action → Bool
  | move _ => true
  | _ => false

/-- Goes from row to row and leaves the column to be restored. -/
def isVertical : Action → Bool
  | move m => m.isVertical
  | first | last | goto => true
  | _ => false

/-- Leaves the position it came from in the jump mark. The way back, `jumpPrevLine`, swaps instead. -/
def isJump : Action → Bool
  | move m => m.isJump
  | first | last | goto | jumpToMark _ | jumpToMarkLine _ => true
  | _ => false

/-! ### Written forms -/

/-- The name, and the target in quotes where there is one. -/
def textWith (hidden : Char → Bool) (a : Action) : String :=
  match a.target? with
  | none => a.name
  | some ch => a.name ++ " " ++ String.ofList (Quoted.charWith hidden ch)

/-- The action as messages show it. -/
def text (a : Action) : String := a.textWith isHidden

end Action

namespace Command

/-- How often a counted motion is repeated: once without a count and for a count of zero. -/
def times (c : Command) : Nat := max 1 (c.count.getD 1)

/-- The count and a multiplication sign where there is a count, then the action. -/
def textWith (hidden : Char → Bool) (c : Command) : String :=
  match c.count with
  | none => c.action.textWith hidden
  | some n => toString n ++ "×" ++ c.action.textWith hidden

def text (c : Command) : String := c.textWith isHidden

end Command

end ModalCursor
