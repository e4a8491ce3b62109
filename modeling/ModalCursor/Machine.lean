import ModalCursor.Cursor
import ModalCursor.Text.Numeral
/-!
# ModalCursor.Machine

**A machine that checks its steps.** Its words hold the numbers up to a largest one. It walks along a row one column
at a time and reads one character after the other, and it stops with a fault at an index past the end of the row, at a
difference below the least number, and at a sum above the largest. A subtraction that stays at zero by itself cannot
fail and is not checked.

The motions over natural numbers take runs from the front or the end of a row, and have no such steps to check. Here
they are once more, written with loops. In a session the column is one of its row, and so below the largest number. A
cursor from elsewhere may have any column that a word holds, and then a motion that looks at the next column finds a
fault at the largest. Everywhere else both are the same (`ModalCursor.Proofs.NoFaults`).
-/

namespace ModalCursor

/-- Why a step cannot be made. -/
inductive Fault
  /-- The row has no character at the index. -/
  | noCharacter
  /-- The difference is below the least number. -/
  | tooSmall
  /-- The sum is above the largest number. -/
  | tooLarge
  deriving DecidableEq, Repr

/-- What passes goes on with its result. -/
@[simp] theorem Fault.ok_bind {α β : Type} (a : α) (next : α → Except Fault β) : (Except.ok a >>= next) = next a := rfl

/-- The character at an index. -/
def Row.read (r : Row) (i : Nat) : Except Fault Char :=
  match r[i]? with
  | some ch => .ok ch
  | none => .error .noCharacter

/-- Passes if `n` can be taken from `m`. -/
def checkDifference (m n : Nat) : Except Fault Unit := if n ≤ m then .ok () else .error .tooSmall

/-- Words hold the numbers from zero to `largest`. -/
structure Machine where
  largest : Nat
  deriving DecidableEq, Repr

namespace Machine

/-- Words of 64 bits. -/
def word64 : Machine := ⟨Numeral.largest⟩

/-- Passes if a word holds the sum. -/
def checkSum (M : Machine) (m n : Nat) : Except Fault Unit := if m + n ≤ M.largest then .ok () else .error .tooLarge

/-! ### Signed words -/

/-- A signed word holds half as many numbers above zero, and one more below. -/
def largestSigned (M : Machine) : Nat := M.largest / 2

/-- A number in a signed word, which holds no larger one. -/
def signed (M : Machine) (n : Nat) : Int := min n M.largestSigned

/-- Passes if a signed word holds the difference. -/
def checkSigned (M : Machine) (m n : Int) : Except Fault Unit :=
  if m - n < -M.largestSigned - 1 then .error .tooSmall
  else if M.largestSigned < m - n then .error .tooLarge
  else .ok ()

/-! ### Neighbouring rows and columns -/

def down (M : Machine) (total row : Nat) : Except Fault Nat := do
  M.checkSum row 1
  return Rows.down total row

def right (M : Machine) (r : Row) (col : Nat) : Except Fault Nat := do
  M.checkSum col 1
  return r.right col

/-! ### Loops -/

/-- To the right while there is a further column and the character at the column, or `ahead` of it, satisfies `p`. -/
def scanRight (M : Machine) (r : Row) (p : Char → Bool) (ahead col : Nat) : Except Fault Nat := do
  M.checkSum col 1
  if col + 1 < r.length then
    if p (← r.read (col + ahead)) then M.scanRight r p ahead (col + 1) else return col
  else return col
termination_by r.length - col

/-- Down from a number while it is not zero and the test goes on. -/
def descend (test : Nat → Except Fault Bool) (n : Nat) : Except Fault Nat := do
  if 0 < n then
    if ← test n then
      checkDifference n 1
      descend test (n - 1)
    else return n
  else return n

/-- Up from a number while it is below `stop` and the test goes on. -/
def ascend (M : Machine) (stop : Nat) (test : Nat → Bool) (n : Nat) : Except Fault Nat := do
  if n < stop then
    if test n then
      M.checkSum n 1
      M.ascend stop test (n + 1)
    else return n
  else return n

/-- To the left while there is a column before and the character at the column, or `back` of it, satisfies `p`. -/
def scanLeft (r : Row) (p : Char → Bool) (back : Nat) (col : Nat) : Except Fault Nat :=
  descend (fun c => do
    checkDifference c back
    return p (← r.read (c - back))) col

/-! ### Words on a row -/

/-- Where a scan stopped, and whether it came to the edge of its row there. -/
structure Landing where
  col : Nat
  atEdge : Bool
  deriving DecidableEq, Repr

/-- Where a scan to the right stopped. -/
def land (M : Machine) (r : Row) (col : Nat) : Except Fault Landing := do
  M.checkSum col 1
  return ⟨col, r.length ≤ col + 1⟩

def toNextStart (M : Machine) (r : Row) (col : Nat) : Except Fault Landing := do
  let blank ← M.scanRight r isInk 0 col
  M.land r (← M.scanRight r isBlank 0 blank)

def toNextWord (M : Machine) (r : Row) (col : Nat) : Except Fault Landing := do
  M.land r (← M.scanRight r isBlank 0 (← M.right r col))

def toPrevWord (r : Row) (col : Nat) : Except Fault Landing := do
  let stop ← scanLeft r isBlank 0 (min col r.lastCol - 1)
  return ⟨stop, stop == 0⟩

def wordEndFrom (M : Machine) (r : Row) (col : Nat) : Except Fault Nat := M.scanRight r isInk 1 col

def wordStartFrom (r : Row) (col : Nat) : Except Fault Nat := scanLeft r isInk 1 col

def rowNextWordStart (M : Machine) (r : Row) (col : Nat) : Except Fault Nat := do
  return (← M.toNextStart r col).col

def rowNextWordEnd (M : Machine) (r : Row) (col : Nat) : Except Fault Nat := do
  M.wordEndFrom r (← M.toNextWord r col).col

def rowPrevWordStart (r : Row) (col : Nat) : Except Fault Nat := do
  wordStartFrom r (← toPrevWord r col).col

/-! ### Words in a text -/

def nextWordStart (M : Machine) (b : Buffer) (p : Position) : Except Fault Position := do
  let landing ← M.toNextStart (b.row p.row) p.col
  if landing.atEdge ∧ p.row < b.lastRow then
    M.checkSum p.row 1
    return ⟨p.row + 1, (b.row (p.row + 1)).firstInk⟩
  else return p.withCol landing.col

def nextWordEnd (M : Machine) (b : Buffer) (p : Position) : Except Fault Position := do
  let landing ← M.toNextWord (b.row p.row) p.col
  if landing.atEdge ∧ p.row < b.lastRow then
    M.checkSum p.row 1
    let next := b.row (p.row + 1)
    if next = [] then return ⟨p.row + 1, 0⟩
    else return ⟨p.row + 1, ← M.wordEndFrom next next.firstInk⟩
  else return p.withCol (← M.wordEndFrom (b.row p.row) landing.col)

def prevWordStart (b : Buffer) (p : Position) : Except Fault Position := do
  let landing ← toPrevWord (b.row p.row) p.col
  if landing.atEdge ∧ 0 < p.row then
    checkDifference p.row 1
    let prev := b.row (p.row - 1)
    return ⟨p.row - 1, ← wordStartFrom prev prev.lastCol⟩
  else return p.withCol (← wordStartFrom (b.row p.row) landing.col)

/-! ### Paragraphs and searches -/

def paragraphUp (b : Buffer) (row : Nat) : Except Fault Nat := do
  if row = 0 then return 0
  else
    checkDifference row 1
    descend (fun n => return !b.isBreak n) (row - 1)

def paragraphDown (M : Machine) (b : Buffer) (row : Nat) : Except Fault Nat := do
  M.checkSum row 1
  return min (← M.ascend b.lastRow (fun n => !b.isBreak n) (row + 1)) b.lastRow

/-- A search stays on the column that it does not find anything from. -/
def search (M : Machine) (r : Row) (ch : Char) (col : Nat) : Search → Except Fault Nat
  | .findForward => do
      M.checkSum col 1
      return r.findForward ch col
  | .findBackward => return r.findBackward ch col
  | .tillForward => do
      M.checkSum col 1
      let found := r.findForward ch col
      if found = col then return col
      else
        checkDifference found 1
        return found - 1
  | .tillBackward => do
      let found := r.findBackward ch col
      if found = col then return col
      else
        M.checkSum found 1
        return found + 1

/-! ### Motions and commands -/

/-- A motion's single step. -/
def step (M : Machine) (b : Buffer) (p : Position) : Motion → Except Fault Position
  | .down => do return p.withRow (← M.down b.rowCount p.row)
  | .up => return p.withRow (Rows.up p.row)
  | .left => return p.withCol (Row.left p.col)
  | .right => do return p.withCol (← M.right (b.row p.row) p.col)
  | .wordNext => M.nextWordStart b p
  | .wordEnd => M.nextWordEnd b p
  | .wordPrev => prevWordStart b p
  | .search way ch => do return p.withCol (← M.search (b.row p.row) ch p.col way)
  | .paragraphUp => do return p.withRow (← paragraphUp b p.row)
  | .paragraphDown => do return p.withRow (← M.paragraphDown b p.row)

/-- The motion repeated `n` times, or until it no longer moves. -/
def run (M : Machine) (b : Buffer) (m : Motion) (n : Nat) (p : Position) : Except Fault Position :=
  settleM (fun q => M.step b q m) n p

/-- A jump to the row before `number`, counted from zero. -/
def jumpBefore (M : Machine) (b : Buffer) (s : Cursor) (number : Nat) : Except Fault Cursor := do
  M.checkSigned (M.signed number) 1
  return s.jumpTo (s.position.withRow (Rows.goTo b.rowCount (M.signed number - 1)))

/-- Executes a command. What neither takes an index nor adds or subtracts has nothing to check. -/
def execute (M : Machine) (b : Buffer) (c : Command) (s : Cursor) : Except Fault Cursor := do
  match c.action with
  | .move m =>
      let q ← M.run b m c.times s.position
      return if m.isJump then s.jumpTo q else s.moveTo q
  | .last => M.jumpBefore b s b.rowCount
  | .goto => M.jumpBefore b s (c.count.getD 1)
  | _ => return s.run b c

/-! ### What a machine can count -/

/-- The machine counts the rows of the text in signed words, and the characters of each row in words. -/
def Counts (M : Machine) (b : Buffer) : Prop :=
  b.rowCount ≤ M.largestSigned ∧ ∀ row ∈ b.rows, row.length ≤ M.largest

/-- Both coordinates are below the largest number of a word. The text need not have such a row or column. -/
def Holds (M : Machine) (p : Position) : Prop := p.row < M.largest ∧ p.col < M.largest

instance (M : Machine) (b : Buffer) : Decidable (M.Counts b) :=
  inferInstanceAs (Decidable (b.rowCount ≤ M.largestSigned ∧ ∀ row ∈ b.rows, row.length ≤ M.largest))

instance (M : Machine) (p : Position) : Decidable (M.Holds p) :=
  inferInstanceAs (Decidable (p.row < M.largest ∧ p.col < M.largest))

end Machine

end ModalCursor
