import ModalCursor.Text
/-!
# ModalCursor.Folder

**Reading text files.** A reader gives the text at a path or the reason why there is none. `Folder.read` is the
reader of a folder held in memory.

Paths are relative to the folder. A path that leads through a file as if it were a folder fails, also when only
a slash follows the file's name. What lies outside the folder is not known: names there are not found.
-/

namespace ModalCursor

/-- The name of a file, with the names of the folders that lead to it. -/
abbrev Path := Text

/-- Why a file gives no text. -/
inductive ReadFailure
  /-- Nothing has this name. -/
  | notFound
  /-- The path names a folder. -/
  | isFolder
  /-- The path leads through something that is no folder. -/
  | notFolder
  /-- The file's bytes are no UTF-8. -/
  | notText
  deriving DecidableEq, Repr

def ReadFailure.message : ReadFailure → String
  | notFound => "No such file or directory (os error 2)"
  | isFolder => "Is a directory (os error 21)"
  | notFolder => "Not a directory (os error 20)"
  | notText => "stream did not contain valid UTF-8"

def ReadFailure.messageAt (why : ReadFailure) (path : Path) : String :=
  "cannot read " ++ String.ofList path ++ ": " ++ why.message

/-- Gives the text at a path. -/
abbrev Reader := Path → Except ReadFailure Text

/-- The text that bytes encode in UTF-8. -/
def decodeText (bytes : ByteArray) : Except ReadFailure Text :=
  match String.fromUTF8? bytes with
  | some s => .ok s.toList
  | none => .error .notText

/-- What a name in a folder stands for. -/
inductive Entry
  | file (bytes : ByteArray)
  /-- A folder with nothing in it. -/
  | folder

/-- The names in a folder and what they stand for. -/
structure Folder where
  entries : List (Path × Entry)

namespace Folder

/-- A place that a path has led to. -/
inductive Place
  /-- The folder itself. -/
  | here
  /-- A folder above it, of which nothing is known. -/
  | outside
  | inside
  | file (bytes : ByteArray)

/-- The place called `name` as seen from another place. -/
def enter (d : Folder) (name : Path) : Place → Except ReadFailure Place
  | .file _ => .error .notFolder
  | .here =>
      if name = [] ∨ name = ['.'] then .ok .here
      else if name = ['.', '.'] then .ok .outside
      else
        match d.entries.lookup name with
        | some (.file bytes) => .ok (.file bytes)
        | some .folder => .ok .inside
        | none => .error .notFound
  | .inside =>
      if name = [] ∨ name = ['.'] then .ok .inside
      else if name = ['.', '.'] then .ok .here
      else .error .notFound
  | .outside =>
      if name = [] ∨ name = ['.'] ∨ name = ['.', '.'] then .ok .outside else .error .notFound

/-- The names of a path, between its slashes. -/
def names : Path → List Path
  | [] => [[]]
  | '/' :: rest => [] :: names rest
  | c :: rest => (names rest).modifyHead (c :: ·)

/-- The text of the file that a path leads to. -/
def read (d : Folder) (path : Path) : Except ReadFailure Text := do
  let start := if path.head? = some '/' then Place.outside else Place.here
  if path = [] then throw .notFound
  match ← (names path).foldlM (fun place name => d.enter name place) start with
  | .file bytes => decodeText bytes
  | _ => throw .isFolder

end Folder

end ModalCursor
