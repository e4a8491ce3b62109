import ModalCursor.Text.Extending
import ModalCursor.Text.Ignorable
import ModalCursor.Text.Unprintable
import ModalCursor.Text
/-!
# ModalCursor.Text.Quoted

Characters and texts **in quotes**, as transcripts and log records show them. Everything that would not show
as itself is escaped:

* the null character, tab, line feed, carriage return, backslash and the quote in use have short escapes;
* a *hidden* character is written by its code point, in lower-case hexadecimal, as in `\u{200b}`;
* every other character stands for itself.

Which characters are hidden is a parameter of the general functions. `isHidden` is the set that messages use.
-/

namespace ModalCursor

/-- An ASCII character from the space to the tilde, all of which show as themselves. -/
def isPlain (c : Char) : Bool := ' ' ≤ c && c ≤ '~'

/-- A character that does not show as itself: it is unprintable, shows nothing, or joins the character before
it. -/
def isHidden (c : Char) : Bool :=
  !isPlain c && (isExtending c || isIgnorable c || isUnprintable c)

namespace Quoted

/-- The escape of a character by its code point. -/
def codeEscape (c : Char) : Text :=
  "\\u\x7b".toList ++ Nat.toDigits 16 c.toNat ++ "\x7d".toList

/-- A character as it is written between two of the quotes `quote`. -/
def escape (hidden : Char → Bool) (quote c : Char) : Text :=
  if c = '\x00' then ['\\', '0']
  else if c = '\t' then ['\\', 't']
  else if c = '\n' then ['\\', 'n']
  else if c = '\r' then ['\\', 'r']
  else if c = '\\' ∨ c = quote then ['\\', c]
  else if hidden c then codeEscape c
  else [c]

/-- One character in single quotes. -/
def charWith (hidden : Char → Bool) (c : Char) : Text :=
  '\'' :: escape hidden '\'' c ++ ['\'']

/-- A text in double quotes. -/
def textWith (hidden : Char → Bool) (t : Text) : Text :=
  '"' :: t.flatMap (escape hidden '"') ++ ['"']

end Quoted

/-- One character in single quotes, for messages. -/
def quotedChar (c : Char) : String := String.ofList (Quoted.charWith isHidden c)

/-- A text in double quotes, for messages. -/
def quotedText (t : Text) : String := String.ofList (Quoted.textWith isHidden t)

end ModalCursor
