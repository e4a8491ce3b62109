import ModalCursor.CommandLine
import ModalCursor.Settings.LineFormat
/-!
# ModalCursor.Main

The program: it reads the files that its arguments name, and shows the answer. Everything else is decided by
`Answer.ofArgs`.
-/

namespace ModalCursor.Main

/-- The reason behind a failed read. Something of the wrong kind is a folder in place of a file if the system's
code says so, and else a file in place of a folder. Failures without a reason of their own count as a missing
file. -/
def failureOf : IO.Error → ReadFailure
  | .inappropriateType _ code _ => if code = 21 then .isFolder else .notFolder
  | _ => .notFound

/-- Reads a file from disk. -/
def readFile (path : Path) : IO (Except ReadFailure Text) := do
  try
    return decodeText (← IO.FS.readBinFile (String.ofList path))
  catch e =>
    return .error (failureOf e)

/-- The files that the arguments name. -/
def filesOf (args : List Text) : List Path :=
  match CommandLine.ofArgs args with
  | .ok l => l.config.toList ++ l.plain.head?.toList ++ l.script.toList
  | .error _ => []

/-- Answers the arguments and gives the code to end with. -/
def answer (args : List Text) : IO UInt32 := do
  let texts ← (filesOf args).mapM fun path => return (path, ← readFile path)
  let reader : Reader := fun path => (texts.lookup path).getD (.error .notFound)
  let a := Answer.ofArgs args Document.format reader
  for r in a.log do
    IO.eprintln r.text
  if let some line := a.complaint then
    IO.eprint line
  IO.print a.out
  return a.exit.toUInt32

end ModalCursor.Main

def main (args : List String) : IO UInt32 :=
  ModalCursor.Main.answer (args.map String.toList)
