import ModalCursor.Settings.Document
import ModalCursor.Text.Lines
import ModalCursor.Text.Numeral
/-!
# ModalCursor.Settings.LineFormat

**A format for settings documents, line by line.** It is the one that the program uses (`Document.format`), and reads as
much of TOML as settings need. Their values are integers and booleans. No table, array, string, date or fraction is a
value of theirs, so every document that is accepted consists of lines of three kinds: blank, comment, and `key = value`.
This module reads those, and refuses everything else as malformed:

* a key is bare, in double quotes with escapes, or in single quotes without;
* an integer is decimal with an optional sign, or has one of the marks `0x`, `0o`, `0b`; single underscores may
  stand between digits, and a decimal integer has no leading zeros;
* a comment starts at a number sign and runs to the end of the line, without control characters but tabs;
* a byte-order mark before the first line is skipped.
-/

namespace ModalCursor.Document

/-! ### Characters -/

/-- Blank within a line. -/
def isGap (c : Char) : Bool := c == ' ' || c == '\t'

/-- Allowed in comments and quoted keys: not a control character, tabs apart. -/
def isVisible (c : Char) : Bool := c == '\t' || (' ' ≤ c && c != '\x7f')

/-- Allowed in a key without quotes. -/
def isBare (c : Char) : Bool := c.isAlphanum || c == '_' || c == '-'

/-- The value of a hexadecimal digit. -/
def hexDigit? (c : Char) : Option Nat :=
  if '0' ≤ c ∧ c ≤ '9' then some (c.toNat - '0'.toNat)
  else if 'a' ≤ c ∧ c ≤ 'f' then some (c.toNat - 'a'.toNat + 10)
  else if 'A' ≤ c ∧ c ≤ 'F' then some (c.toNat - 'A'.toNat + 10)
  else none

/-- The value of a run of hexadecimal digits, one at least. -/
def hex? : Text → Option Nat
  | [] => none
  | digits => digits.foldlM (fun n d => (hexDigit? d).map (16 * n + ·)) 0

/-- The character with a code point written in hexadecimal, unless it is no character's. -/
def charAt? (digits : Text) : Option Char := do
  let n ← hex? digits
  if n.isValidChar then some (Char.ofNat n) else none

/-! ### Keys -/

/-- The rest of a double-quoted key after its opening quote: the key, and what follows the closing quote. -/
def quotedKey? : Text → Option (Text × Text)
  | '"' :: rest => some ([], rest)
  | '\\' :: 'b' :: rest => (quotedKey? rest).map fun (k, r) => ('\x08' :: k, r)
  | '\\' :: 't' :: rest => (quotedKey? rest).map fun (k, r) => ('\t' :: k, r)
  | '\\' :: 'n' :: rest => (quotedKey? rest).map fun (k, r) => ('\n' :: k, r)
  | '\\' :: 'f' :: rest => (quotedKey? rest).map fun (k, r) => ('\x0c' :: k, r)
  | '\\' :: 'r' :: rest => (quotedKey? rest).map fun (k, r) => ('\r' :: k, r)
  | '\\' :: 'e' :: rest => (quotedKey? rest).map fun (k, r) => ('\x1b' :: k, r)
  | '\\' :: '"' :: rest => (quotedKey? rest).map fun (k, r) => ('"' :: k, r)
  | '\\' :: '\\' :: rest => (quotedKey? rest).map fun (k, r) => ('\\' :: k, r)
  | '\\' :: 'x' :: a :: b :: rest => do
      let c ← charAt? [a, b]
      (quotedKey? rest).map fun (k, r) => (c :: k, r)
  | '\\' :: 'u' :: a :: b :: c :: d :: rest => do
      let c ← charAt? [a, b, c, d]
      (quotedKey? rest).map fun (k, r) => (c :: k, r)
  | '\\' :: 'U' :: a :: b :: c :: d :: e :: f :: g :: h :: rest => do
      let c ← charAt? [a, b, c, d, e, f, g, h]
      (quotedKey? rest).map fun (k, r) => (c :: k, r)
  | '\\' :: _ => none
  | c :: rest => if isVisible c then (quotedKey? rest).map fun (k, r) => (c :: k, r) else none
  | [] => none

/-- The rest of a single-quoted key after its opening quote. -/
def literalKey? (t : Text) : Option (Text × Text) :=
  match t.dropWhile (· != '\x27') with
  | _ :: rest =>
      let key := t.takeWhile (· != '\x27')
      if key.all isVisible then some (key, rest) else none
  | [] => none

/-- A key at the start of a line, and what follows it. -/
def key? : Text → Option (Text × Text)
  | '"' :: rest => quotedKey? rest
  | '\x27' :: rest => literalKey? rest
  | t =>
      match t.takeWhile isBare with
      | [] => none
      | key => some (key, t.dropWhile isBare)

/-! ### Values -/

/-- The digits of a number, without the single underscores between them. One digit at least. -/
def ungroup? (isDigit : Char → Bool) : Text → Option Text
  | [] => none
  | [c] => if isDigit c then some [c] else none
  | c :: '_' :: rest => if isDigit c then (ungroup? isDigit rest).map (c :: ·) else none
  | c :: rest => if isDigit c then (ungroup? isDigit rest).map (c :: ·) else none

/-- A digit below `base`, for bases up to ten. -/
def isDigitBelow (base : Nat) (c : Char) : Bool := c.isDigit && c.toNat - '0'.toNat < base

/-- A decimal number without its sign. -/
def decimal? (t : Text) : Option Nat :=
  match ungroup? Char.isDigit t with
  | none => none
  | some ['0'] => some 0
  | some ('0' :: _) => none
  | some digits => some (Nat.ofDigitChars 10 digits 0)

def integer? : Text → Option Int
  | '+' :: t => (decimal? t).map fun n => (n : Int)
  | '-' :: t => (decimal? t).map fun n => -(n : Int)
  | '0' :: 'x' :: t => do
      let digits ← ungroup? (fun c => (hexDigit? c).isSome) t
      (hex? digits).map fun n => (n : Int)
  | '0' :: 'o' :: t =>
      (ungroup? (isDigitBelow 8) t).map fun digits => (Nat.ofDigitChars 8 digits 0 : Int)
  | '0' :: 'b' :: t =>
      (ungroup? (isDigitBelow 2) t).map fun digits => (Nat.ofDigitChars 2 digits 0 : Int)
  | t => (decimal? t).map fun n => (n : Int)

def value? (t : Text) : Option Value :=
  if t = "true".toList then some (.boolean true)
  else if t = "false".toList then some (.boolean false)
  else (integer? t).map .integer

/-! ### Lines -/

/-- Nothing but blanks, or a comment. -/
def isRemark (t : Text) : Bool :=
  match t.dropWhile isGap with
  | [] => true
  | '#' :: comment => comment.all isVisible
  | _ => false

/-- A line that gives a key a value. -/
def entry? (t : Text) : Option Entry := do
  let (key, rest) ← key? (t.dropWhile isGap)
  match rest.dropWhile isGap with
  | '=' :: rest =>
      let rest := rest.dropWhile isGap
      let isValue := fun c => !isGap c && c != '#'
      let value ← value? (rest.takeWhile isValue)
      if isRemark (rest.dropWhile isValue) then some ⟨key, value⟩ else none
  | _ => none

/-- The entries of lines, in order, or none when a line is malformed. -/
def entries? : List Text → Option (List Entry)
  | [] => some []
  | line :: lines =>
      if isRemark line then entries? lines
      else do
        let entry ← entry? line
        (entries? lines).map (entry :: ·)

/-- Skips a byte-order mark. -/
def skipMark : Text → Text
  | '\ufeff' :: t => t
  | t => t

/-- The entries of a document, if no key comes twice. -/
def table? (t : Text) : Option Table := do
  let entries ← entries? (Text.lines (skipMark t))
  if (entries.map Entry.key).Nodup then some entries else none

/-! ### Records -/

/-- The number that a field without a sign takes. -/
def Value.number? : Value → Option Nat
  | integer n => if 0 ≤ n ∧ n ≤ Numeral.largest then some n.toNat else none
  | boolean _ => none

def Value.switch? : Value → Option Bool
  | integer _ => none
  | boolean b => some b

/-- The value of one field: what the field takes of the value that the table has for it, or the declared default. -/
def field? {α : Type} (d : Declaration) (table : Table) (s : Setting) (take : Value → Option α)
    (default : Settings → α) : Option α :=
  match table.find? fun e => e.key = s.key with
  | some e => take e.value
  | none => d.defaults.map default

/-- The key is that of a field. -/
def isKnown (key : Text) : Bool := [Setting.startRow, .centered, .trailLength].any fun s => s.key == key

def fill? (d : Declaration) (table : Table) : Option Settings := do
  let startRow ← field? d table .startRow Value.number? Settings.startRow
  let startCentered ← field? d table .centered Value.switch? Settings.startCentered
  let trailLength ← field? d table .trailLength Value.number? Settings.trailLength
  if d.refusesUnknown && table.any fun e => !isKnown e.key then none
  else some { startRow, startCentered, trailLength }

/-- The format that the program reads its settings in. -/
def format : Format := { table?, fill? }

end ModalCursor.Document
