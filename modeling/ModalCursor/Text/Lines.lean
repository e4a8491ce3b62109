import ModalCursor.Text
/-!
# ModalCursor.Text.Lines

The **lines** of a script or a document. A line ends at a line feed, and one carriage return right before the
line feed belongs to the ending. A carriage return elsewhere is an ordinary character.
-/

namespace ModalCursor.Text

/-- The lines of a text without their endings. A text that ends in a line feed has an empty last line. -/
def lines : Text → List Text
  | [] => [[]]
  | '\r' :: '\n' :: rest => [] :: lines rest
  | '\n' :: rest => [] :: lines rest
  | c :: rest => (lines rest).modifyHead (c :: ·)

/-- The text as one run of characters, without its line endings. -/
def unbroken (t : Text) : Text := (lines t).flatten

end ModalCursor.Text
