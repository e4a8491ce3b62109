import ModalCursor.Settings
import ModalCursor.Settings.Error
import ModalCursor.Text.Numeral
import ModalCursor.Text.WhiteSpace
/-!
# ModalCursor.Settings.Directive

**Changing settings by arguments** such as `startrow=4`, `nocentered` or `ce!`. An argument is first read as a
directive, without a look at whether its name is known; applying the directive then accepts or refuses it. A
refused argument changes nothing.
-/

namespace ModalCursor

/-- What an argument asks for. -/
inductive Directive
  /-- `name`: switch on. -/
  | on (name : Text)
  /-- `noname`: switch off. -/
  | off (name : Text)
  /-- `name!`: switch over. -/
  | toggle (name : Text)
  /-- `name=value`: give a value. -/
  | assign (name value : Text)
  deriving DecidableEq, Repr

namespace Setting

/-- The names of a setting in arguments: the full one and its abbreviation. -/
def names : Setting → List Text
  | startRow => ["startrow".toList, "sr".toList]
  | centered => ["centered".toList, "ce".toList]
  | trailLength => ["traillen".toList, "tl".toList]

/-- The setting with this name in arguments. -/
def named? (name : Text) : Option Setting :=
  [startRow, centered, trailLength].find? fun s => s.names.contains name

/-- The name belongs to a setting that is on or off. -/
def isSwitch (name : Text) : Bool := named? name == some centered

end Setting

namespace Directive

/-- Reads an argument. A value follows the first equals sign; without one, an exclamation mark at the end
switches over, and `no` before the name of a switch turns it off. -/
def ofArg (arg : Text) : Directive :=
  let arg := arg.trim
  match arg.dropWhile (· != '=') with
  | _ :: value => .assign (Text.trim (arg.takeWhile (· != '='))) (Text.trim value)
  | [] =>
      if arg.getLast? = some '!' then .toggle arg.dropLast
      else
        match arg with
        | 'n' :: 'o' :: name => if Setting.isSwitch name then .off name else .on arg
        | _ => .on arg

end Directive

/-- The value of a switch: `true` or `false` and nothing else. -/
def switchValue? (t : Text) : Option Bool :=
  if t = "true".toList then some true
  else if t = "false".toList then some false
  else none

namespace Settings

/-- Gives a setting the value that a text writes, or none if the text is no such value. -/
def assign? (o : Settings) (value : Text) : Setting → Option Settings
  | .startRow => (Numeral.number? value).map fun n => { o with startRow := n }
  | .centered => (switchValue? value).map fun b => { o with startCentered := b }
  | .trailLength => (Numeral.number? value).map fun n => { o with trailLength := n }

/-- Changes the switch with this name by `f`. -/
def switch (o : Settings) (name : Text) (f : Bool → Bool) : Except SettingsError Settings :=
  match Setting.named? name with
  | none => .error (.unknown name)
  | some .centered => .ok { o with startCentered := f o.startCentered }
  | some _ => .error (.notBoolean name)

def obey (o : Settings) : Directive → Except SettingsError Settings
  | .on name => o.switch name fun _ => true
  | .off name => o.switch name fun _ => false
  | .toggle name => o.switch name fun b => !b
  | .assign name value =>
      match Setting.named? name with
      | none => .error (.unknown name)
      | some s =>
          match o.assign? value s with
          | some changed => .ok changed
          | none => .error (.invalidValue name value)

/-- Carries out the directive that an argument writes. -/
def apply (o : Settings) (arg : Text) : Except SettingsError Settings :=
  o.obey (Directive.ofArg arg)

/-- Carries out arguments in order. The first refusal ends it. -/
def applyAll (o : Settings) (args : List Text) : Except SettingsError Settings :=
  args.foldlM apply o

end Settings

end ModalCursor
