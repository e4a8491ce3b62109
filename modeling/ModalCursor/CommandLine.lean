import ModalCursor.Drill
import ModalCursor.Session.Log
/-!
# ModalCursor.CommandLine

The **command line** of the drill: options, the text file, then any number of keys.

Arguments are read from left to right. Options stand anywhere before a `--`; short ones can be written together,
and a value follows its option directly, after an equals sign, or as the next argument, where it must not look
like an option. `--set` can be given often, every other option once. The names of files are not empty. The first
fault, or the first request for the version or for help, ends the reading.
-/

namespace ModalCursor

/-- The options that take a value. -/
inductive ValueOption
  | script
  | config
  | set
  deriving DecidableEq, Repr

/-- The options that take none. -/
inductive FlagOption
  | trace
  | verbose
  /-- Show the version and do nothing else. -/
  | version
  /-- Show how to use the program and do nothing else. -/
  | help
  deriving DecidableEq, Repr

inductive AnyOption
  | value (o : ValueOption)
  | flag (o : FlagOption)
  deriving DecidableEq, Repr

/-- Why the arguments ask for no drill. -/
inductive Stop
  | usage
  | version
  | help
  deriving DecidableEq, Repr

/-- What has been read of the arguments. -/
structure CommandLine where
  /-- Arguments that belong to no option. -/
  plain : List Text := []
  script : Option Path := none
  config : Option Path := none
  overrides : List Text := []
  trace : Bool := false
  verbose : Bool := false
  /-- The option whose value is the next argument. -/
  waiting : Option ValueOption := none
  /-- Every further argument belongs to no option. -/
  ended : Bool := false
  deriving DecidableEq, Repr

namespace CommandLine

/-! ### Options -/

/-- The option with a long name. -/
def long? (name : Text) : Option AnyOption :=
  if name = "script".toList then some (.value .script)
  else if name = "config".toList then some (.value .config)
  else if name = "set".toList then some (.value .set)
  else if name = "trace".toList then some (.flag .trace)
  else if name = "verbose".toList then some (.flag .verbose)
  else if name = "version".toList then some (.flag .version)
  else if name = "help".toList then some (.flag .help)
  else none

def short? : Char → Option AnyOption
  | 's' => some (.value .script)
  | 'c' => some (.value .config)
  | 'o' => some (.value .set)
  | 'v' => some (.flag .verbose)
  | 'V' => some (.flag .version)
  | 'h' => some (.flag .help)
  | _ => none

/-- Gives an option its value. A file's name is not empty and given once. -/
def give (l : CommandLine) (o : ValueOption) (value : Text) : Except Stop CommandLine :=
  match o with
  | .script =>
      if value = [] ∨ l.script.isSome then .error .usage
      else .ok { l with script := some value, waiting := none }
  | .config =>
      if value = [] ∨ l.config.isSome then .error .usage
      else .ok { l with config := some value, waiting := none }
  | .set => .ok { l with overrides := l.overrides ++ [value], waiting := none }

/-- Raises a flag, which is done once. -/
def raise (l : CommandLine) : FlagOption → Except Stop CommandLine
  | .trace => if l.trace then .error .usage else .ok { l with trace := true }
  | .verbose => if l.verbose then .error .usage else .ok { l with verbose := true }
  | .version => .error .version
  | .help => .error .help

/-- Adds an argument that belongs to no option. The first names the text file and is not empty. -/
def addPlain (l : CommandLine) (arg : Text) : Except Stop CommandLine :=
  if l.plain = [] ∧ arg = [] then .error .usage else .ok { l with plain := l.plain ++ [arg] }

/-! ### Arguments -/

/-- An argument after two dashes: an option's name, and its value after an equals sign. -/
def readLong (l : CommandLine) (arg : Text) : Except Stop CommandLine :=
  let name := arg.takeWhile (· != '=')
  match long? name, arg.dropWhile (· != '=') with
  | some (.value o), _ :: value => l.give o value
  | some (.value o), [] => .ok { l with waiting := some o }
  | some (.flag o), [] => l.raise o
  | some (.flag _), _ :: _ => .error .usage
  | none, _ => .error .usage

/-- An argument after one dash: short options, of which one with a value is the last. -/
def readShort (l : CommandLine) : Text → Except Stop CommandLine
  | [] => .ok l
  | c :: rest =>
      match short? c with
      | some (.flag o) => do (← l.raise o).readShort rest
      | some (.value o) =>
          match rest with
          | [] => .ok { l with waiting := some o }
          | '=' :: value => l.give o value
          | value => l.give o value
      | none => .error .usage

/-- An argument looks like an option: it starts with a dash and is not a dash alone. -/
def looksLikeOption : Text → Bool
  | '-' :: _ :: _ => true
  | _ => false

/-- Reads one more argument. -/
def readArg (l : CommandLine) (arg : Text) : Except Stop CommandLine :=
  if l.ended then l.addPlain arg
  else
    match l.waiting with
    | some o => if looksLikeOption arg then .error .usage else l.give o arg
    | none =>
        match arg with
        | ['-', '-'] => .ok { l with ended := true }
        | '-' :: '-' :: option => l.readLong option
        | '-' :: c :: options => l.readShort (c :: options)
        | plain => l.addPlain plain

/-- The drill that the arguments describe, once all are read. -/
def drill (l : CommandLine) : Except Stop Drill :=
  match l.waiting, l.plain with
  | none, text :: keys =>
      .ok { text, keys, script := l.script, config := l.config,
            overrides := l.overrides, trace := l.trace }
  | _, _ => .error .usage

def ofArgs (args : List Text) : Except Stop CommandLine := args.foldlM readArg {}

end CommandLine

/-! ### The program's answer -/

/-- What the program shows and the code it ends with. -/
structure Answer where
  exit : Nat
  out : String := ""
  /-- The line that names what went wrong. -/
  complaint : Option String := none
  /-- What is logged on request. -/
  log : List Record := []
  deriving DecidableEq, Repr

namespace Answer

def version : String := "n-drill 0.1.0\n"

def usage : String := "Usage: n-drill [OPTIONS] <TEXT_FILE> [KEYS]...\n"

/-- The answer where no drill is asked for. Faulty arguments end with code two. -/
def ofStop : Stop → Answer
  | .usage => { exit := 2, complaint := some usage }
  | .version => { exit := 0, out := version }
  | .help => { exit := 0, out := usage }

/-- The log of a drill: the session's start and every finished sequence of keys. -/
def logOf (d : Drill) (f : Document.Format) (read : Reader) : List Record :=
  match d.prepare f read with
  | .ok (session, keys) =>
      (session.startRecords ++ session.keysRecords keys).filter fun r => r.level = .debug
  | .error _ => []

/-- The answer of a drill. One that fails ends with code one. -/
def ofDrill (d : Drill) (f : Document.Format) (read : Reader) (verbose : Bool) : Answer :=
  let log := if verbose then logOf d f read else []
  match d.run f read with
  | .ok out => { exit := 0, out, log }
  | .error e => { exit := 1, complaint := some ("n-drill: " ++ e.message ++ "\n"), log }

def ofArgs (args : List Text) (f : Document.Format) (read : Reader) : Answer :=
  match CommandLine.ofArgs args with
  | .error stop => ofStop stop
  | .ok l =>
      match l.drill with
      | .error stop => ofStop stop
      | .ok d => ofDrill d f read l.verbose

end Answer

end ModalCursor
