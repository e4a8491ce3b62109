import ModalCursor.Settings.Directive
import ModalCursor.Settings.Document
import Mathlib.Data.List.TakeWhile
/-!
# ModalCursor.Proofs.Arguments

**Which arguments change the settings, and how.** `Change.Written` is the grammar of arguments, in the words of what is
written: a switch's name alone, with `no` before it or an exclamation mark after it, or a name and a value around the
first equals sign. An argument is accepted if it is written so, and then one setting changes. What the others are refused
for can be read off them as well.

An argument is first read as a directive, and there is one way to do so (`Directive.Form`). A directive then asks for a
change or is refused without a look at the settings (`Directive.change`), so that applying it is making the change
(`Settings.apply_eq`). Settings that are changed in place see no difference: a refusal comes before anything is written.
-/

namespace ModalCursor

/-! ### The grammar of arguments -/

/-- The setting goes by this name in arguments. -/
def Setting.Called : Setting → Text → Prop
  | startRow, name => name = "startrow".toList ∨ name = "sr".toList
  | centered, name => name = "centered".toList ∨ name = "ce".toList
  | trailLength, name => name = "traillen".toList ∨ name = "tl".toList

/-- The text writes the number: in decimal digits, one at least, with or without one plus sign before them. The number
fits a word of 64 bits. -/
def Numeral.Writes (t : Text) (n : Nat) : Prop :=
  ∃ digits : Text, (t = digits ∨ t = '+' :: digits) ∧ digits ≠ [] ∧ (∀ d ∈ digits, '0' ≤ d ∧ d ≤ '9') ∧
    n = Nat.ofDigitChars 10 digits 0 ∧ n ≤ largest

/-- What an accepted argument does. -/
inductive Change
  | startRow (n : Nat)
  | trailLength (n : Nat)
  | centered (on : Bool)
  /-- Off becomes on, and on becomes off. -/
  | flip
  deriving DecidableEq, Repr

namespace Change

/-- The setting that changes. -/
def setting : Change → Setting
  | startRow _ => .startRow
  | trailLength _ => .trailLength
  | centered _ | flip => .centered

def apply (o : Settings) : Change → Settings
  | startRow n => { o with startRow := n }
  | trailLength n => { o with trailLength := n }
  | centered on => { o with startCentered := on }
  | flip => { o with startCentered := !o.startCentered }

/-- The text is a value for the setting, which makes the change. -/
inductive Gives : Setting → Text → Change → Prop
  | startRow {value : Text} {n : Nat} (hvalue : Numeral.Writes value n) : Gives .startRow value (startRow n)
  | trailLength {value : Text} {n : Nat} (hvalue : Numeral.Writes value n) : Gives .trailLength value (trailLength n)
  | yes : Gives .centered "true".toList (centered true)
  | no : Gives .centered "false".toList (centered false)

/-- An argument without white space around it writes the change. -/
inductive Written : Text → Change → Prop
  | on {name : Text} (hname : Setting.centered.Called name) : Written name (centered true)
  | off {name : Text} (hname : Setting.centered.Called name) : Written ("no".toList ++ name) (centered false)
  | flip {name : Text} (hname : Setting.centered.Called name) : Written (name ++ "!".toList) flip
  | assign {left right : Text} {s : Setting} {c : Change} (hfirst : '=' ∉ left) (hname : s.Called left.trim)
      (hvalue : Gives s right.trim c) : Written (left ++ "=".toList ++ right) c

end Change

/-- An argument is the name of a number, alone or with an exclamation mark, as if it were a switch. -/
def MistakesForSwitch (a name : Text) : Prop :=
  (Setting.startRow.Called name ∨ Setting.trailLength.Called name) ∧ (a = name ∨ a = name ++ "!".toList)

/-- An argument gives a setting a value, which may be none of its values. -/
def GivesValue (a name value : Text) : Prop :=
  ∃ left right, a = left ++ "=".toList ++ right ∧ '=' ∉ left ∧ name = left.trim ∧ value = right.trim ∧
    ∃ s : Setting, s.Called name

/-- The value of a setting. -/
def Settings.value (o : Settings) : Setting → Document.Value
  | .startRow => .integer o.startRow
  | .centered => .boolean o.startCentered
  | .trailLength => .integer o.trailLength

/-- A change leaves the other settings alone. -/
theorem Change.apply_value {c : Change} {s : Setting} (h : s ≠ c.setting) (o : Settings) :
    (c.apply o).value s = o.value s := by
  cases c <;> cases s <;> first | rfl | exact absurd rfl h

/-! ### Names and values -/

namespace Setting

variable {s : Setting} {name : Text}

theorem called_iff : s.Called name ↔ name ∈ s.names := by
  cases s <;> simp [Called, names]

theorem named?_eq_some_iff : named? name = some s ↔ s.Called name := by
  constructor
  · intro h
    have hname := List.find?_some h
    exact called_iff.mpr (List.contains_iff_mem.mp hname)
  · intro h
    cases s <;> rcases h with rfl | rfl <;> rfl

theorem named?_eq_none_iff : named? name = none ↔ ∀ s : Setting, ¬ s.Called name := by
  rw [Option.eq_none_iff_forall_ne_some]
  exact forall_congr' fun s => not_congr named?_eq_some_iff

theorem isSwitch_iff : isSwitch name = true ↔ centered.Called name := by
  rw [isSwitch, beq_iff_eq, named?_eq_some_iff]

end Setting

namespace Numeral

variable {t : Text} {n : Nat}

theorem isDigit_iff {d : Char} : d.isDigit = true ↔ '0' ≤ d ∧ d ≤ '9' := by
  rw [Char.isDigit, Bool.and_eq_true, decide_eq_true_eq, decide_eq_true_eq]
  rfl

theorem digits?_eq_some_iff : digits? t = some n ↔
    t ≠ [] ∧ (∀ d ∈ t, '0' ≤ d ∧ d ≤ '9') ∧ n = Nat.ofDigitChars 10 t 0 ∧ n ≤ largest := by
  simp only [digits?, List.all_eq_true, isDigit_iff, Option.ite_none_right_eq_some, Option.some.injEq]
  constructor
  · rintro ⟨⟨hne, hdigits, hle⟩, rfl⟩
    exact ⟨hne, hdigits, rfl, hle⟩
  · rintro ⟨hne, hdigits, rfl, hle⟩
    exact ⟨⟨hne, hdigits, hle⟩, rfl⟩

theorem number?_eq_some_iff : number? t = some n ↔ Writes t n := by
  unfold number?
  split
  · next rest =>
      rw [digits?_eq_some_iff]
      constructor
      · intro h
        exact ⟨rest, Or.inr rfl, h⟩
      · rintro ⟨digits, rfl | hplus, hdigits⟩
        · -- A plus sign is no digit.
          have hsign := hdigits.2.1 '+' List.mem_cons_self
          exact absurd hsign.1 (by decide)
        · obtain rfl : rest = digits := List.tail_eq_of_cons_eq hplus
          exact hdigits
  · next hplus =>
      rw [digits?_eq_some_iff]
      constructor
      · intro h
        exact ⟨t, Or.inl rfl, h⟩
      · rintro ⟨digits, rfl | hsign, hdigits⟩
        · exact hdigits
        · exact absurd hsign (hplus digits)

end Numeral

/-! ### Reading a directive -/

namespace Text

variable {left right t : Text}

theorem takeWhile_equals (h : '=' ∉ left) : (left ++ "=".toList ++ right).takeWhile (· != '=') = left := by
  rw [List.append_assoc, List.takeWhile_append_of_pos]
  · exact List.append_nil left
  · intro ch hch
    exact bne_iff_ne.mpr fun heq => h (heq ▸ hch)

theorem dropWhile_equals (h : '=' ∉ left) :
    (left ++ "=".toList ++ right).dropWhile (· != '=') = '=' :: right := by
  rw [List.append_assoc, List.dropWhile_append_of_pos]
  · rfl
  · intro ch hch
    exact bne_iff_ne.mpr fun heq => h (heq ▸ hch)

theorem dropWhile_eq_nil (h : '=' ∉ t) : t.dropWhile (· != '=') = [] :=
  List.dropWhile_eq_nil_iff.mpr fun _ hch => bne_iff_ne.mpr fun heq => h (heq ▸ hch)

end Text

namespace Directive

/-- How an argument without white space around it is read. -/
inductive Form : Text → Directive → Prop
  | assign {left right : Text} (hfirst : '=' ∉ left) :
      Form (left ++ "=".toList ++ right) (assign left.trim right.trim)
  | toggle {name : Text} (hname : '=' ∉ name) : Form (name ++ "!".toList) (toggle name)
  | off {name : Text} (hname : Setting.centered.Called name) : Form ("no".toList ++ name) (off name)
  | on {name : Text} (hname : '=' ∉ name) (hlast : name.getLast? ≠ some '!')
      (hno : ∀ rest, name = "no".toList ++ rest → ¬ Setting.centered.Called rest) : Form name (on name)

variable {arg a : Text} {d : Directive}

theorem Form.ofArg_eq (h : Form a d) (ha : arg.trim = a) : ofArg arg = d := by
  unfold ofArg
  rw [ha]
  cases h with
  | assign hfirst => simp only [Text.takeWhile_equals hfirst, Text.dropWhile_equals hfirst]
  | toggle hname => simp [Text.dropWhile_eq_nil, hname]
  | off hname => rcases hname with rfl | rfl <;> rfl
  | on hname hlast hno =>
      simp only [Text.dropWhile_eq_nil hname, if_neg hlast]
      split
      · next rest =>
          rw [if_neg]
          rw [Setting.isSwitch_iff]
          exact hno rest rfl
      · rfl

theorem Form.total (a : Text) : ∃ d, Form a d := by
  by_cases hequals : '=' ∈ a
  · obtain ⟨left, right, rfl, hfirst⟩ := List.eq_append_cons_of_mem hequals
    rw [List.append_cons]
    exact ⟨_, .assign hfirst⟩
  · by_cases hlast : a.getLast? = some '!'
    · obtain ⟨name, rfl⟩ := List.getLast?_eq_some_iff.mp hlast
      exact ⟨_, .toggle fun hmem => hequals (List.mem_append_left _ hmem)⟩
    · by_cases hno : ∃ rest, a = "no".toList ++ rest ∧ Setting.centered.Called rest
      · obtain ⟨rest, rfl, hrest⟩ := hno
        exact ⟨_, .off hrest⟩
      · exact ⟨_, .on hequals hlast fun rest ha hrest => hno ⟨rest, ha, hrest⟩⟩

theorem form_ofArg (arg : Text) : Form arg.trim (ofArg arg) := by
  obtain ⟨d, hd⟩ := Form.total arg.trim
  rwa [hd.ofArg_eq rfl]

/-! ### What a directive asks for -/

/-- The change that gives a setting the value of a text. -/
def changeTo? (value : Text) : Setting → Option Change
  | .startRow => (Numeral.number? value).map .startRow
  | .centered => (switchValue? value).map .centered
  | .trailLength => (Numeral.number? value).map .trailLength

/-- A change of the switch with this name. -/
def switching (name : Text) (c : Change) : Except SettingsError Change :=
  match Setting.named? name with
  | none => .error (.unknown name)
  | some .centered => .ok c
  | some _ => .error (.notBoolean name)

/-- The change that a directive asks for, or why it is refused. -/
def change : Directive → Except SettingsError Change
  | on name => switching name (.centered true)
  | off name => switching name (.centered false)
  | toggle name => switching name .flip
  | assign name value =>
      match Setting.named? name with
      | none => .error (.unknown name)
      | some s =>
          match changeTo? value s with
          | some c => .ok c
          | none => .error (.invalidValue name value)

variable {name value : Text} {c : Change} {s : Setting} {e : SettingsError}

theorem switching_of_called (h : Setting.centered.Called name) (c : Change) : switching name c = .ok c := by
  rw [switching, Setting.named?_eq_some_iff.mpr h]

theorem switching_of_number (h : Setting.startRow.Called name ∨ Setting.trailLength.Called name) (c : Change) :
    switching name c = .error (.notBoolean name) := by
  rcases h with h | h <;> rw [switching, Setting.named?_eq_some_iff.mpr h]

theorem switching_of_unknown (h : ∀ s : Setting, ¬ s.Called name) (c : Change) :
    switching name c = .error (.unknown name) := by
  rw [switching, Setting.named?_eq_none_iff.mpr h]

/-- A name is that of the switch, that of a number, or unknown. -/
theorem switching_cases (name : Text) (c : Change) :
    (Setting.centered.Called name ∧ switching name c = .ok c) ∨
      ((Setting.startRow.Called name ∨ Setting.trailLength.Called name) ∧
        switching name c = .error (.notBoolean name)) ∨
      ((∀ s : Setting, ¬ s.Called name) ∧ switching name c = .error (.unknown name)) := by
  cases hname : Setting.named? name with
  | none =>
      have hunknown := Setting.named?_eq_none_iff.mp hname
      exact Or.inr (Or.inr ⟨hunknown, switching_of_unknown hunknown c⟩)
  | some s =>
      have hcalled := Setting.named?_eq_some_iff.mp hname
      cases s with
      | centered => exact Or.inl ⟨hcalled, switching_of_called hcalled c⟩
      | startRow => exact Or.inr (Or.inl ⟨Or.inl hcalled, switching_of_number (Or.inl hcalled) c⟩)
      | trailLength => exact Or.inr (Or.inl ⟨Or.inr hcalled, switching_of_number (Or.inr hcalled) c⟩)

theorem changeTo?_eq_some_iff : changeTo? value s = some c ↔ Change.Gives s value c := by
  constructor
  · intro h
    cases s with
    | startRow =>
        obtain ⟨n, hn, rfl⟩ := Option.map_eq_some_iff.mp h
        exact .startRow (Numeral.number?_eq_some_iff.mp hn)
    | trailLength =>
        obtain ⟨n, hn, rfl⟩ := Option.map_eq_some_iff.mp h
        exact .trailLength (Numeral.number?_eq_some_iff.mp hn)
    | centered =>
        obtain ⟨on, hon, rfl⟩ := Option.map_eq_some_iff.mp h
        unfold switchValue? at hon
        split at hon
        · next htrue =>
            cases hon
            exact htrue ▸ .yes
        · split at hon
          · next hfalse =>
              cases hon
              exact hfalse ▸ .no
          · cases hon
  · intro h
    cases h with
    | startRow hvalue | trailLength hvalue => rw [changeTo?, Numeral.number?_eq_some_iff.mpr hvalue, Option.map_some]
    | yes | no => rfl

/-- A known name with a value is a change or an invalid value. -/
theorem change_assign_cases (h : s.Called name) (value : Text) :
    (∃ c, Change.Gives s value c ∧ (assign name value).change = .ok c) ∨
      ((∀ c, ¬ Change.Gives s value c) ∧ (assign name value).change = .error (.invalidValue name value)) := by
  have hnamed := Setting.named?_eq_some_iff.mpr h
  cases hc : changeTo? value s with
  | some c =>
      refine Or.inl ⟨c, changeTo?_eq_some_iff.mp hc, ?_⟩
      simp only [change, hnamed, hc]
  | none =>
      refine Or.inr ⟨fun c hgives => ?_, ?_⟩
      · rw [changeTo?_eq_some_iff.mpr hgives] at hc
        cases hc
      · simp only [change, hnamed, hc]

/-! ### Verdicts -/

/-- The name that a directive is about. -/
def subject : Directive → Text
  | on name | off name | toggle name | assign name _ => name

theorem change_of_unknown (h : ∀ s : Setting, ¬ s.Called d.subject) : d.change = .error (.unknown d.subject) := by
  cases d with
  | on name | off name | toggle name => exact switching_of_unknown h _
  | assign name value =>
      have hnamed : Setting.named? name = none := Setting.named?_eq_none_iff.mpr h
      simp only [change, hnamed, subject]

/-- What becomes of an argument without white space around it. -/
inductive Verdict : Text → Except SettingsError Change → Prop
  | accepted {a : Text} {c : Change} (hwritten : Change.Written a c) : Verdict a (.ok c)
  | notBoolean {a name : Text} (hmistakes : MistakesForSwitch a name) : Verdict a (.error (.notBoolean name))
  /-- A known name with a value that the setting does not take. -/
  | invalidValue {left right : Text} {s : Setting} (hfirst : '=' ∉ left) (hname : s.Called left.trim)
      (hvalue : ∀ c, ¬ Change.Gives s right.trim c) :
      Verdict (left ++ "=".toList ++ right) (.error (.invalidValue left.trim right.trim))
  /-- Anything with another name. -/
  | unknown {a : Text} {d : Directive} (hform : Form a d) (hname : ∀ s : Setting, ¬ s.Called d.subject) :
      Verdict a (.error (.unknown d.subject))

theorem Form.verdict (h : Form a d) : Verdict a d.change := by
  by_cases hunknown : ∀ s : Setting, ¬ s.Called d.subject
  · rw [change_of_unknown hunknown]
    exact .unknown h hunknown
  · cases h with
    | @assign left right hfirst =>
        obtain ⟨s, hname⟩ : ∃ s : Setting, s.Called left.trim := by simpa [subject] using hunknown
        rcases change_assign_cases hname right.trim with ⟨c, hgives, hc⟩ | ⟨hgives, hc⟩
        · rw [hc]
          exact .accepted (.assign hfirst hname hgives)
        · rw [hc]
          exact .invalidValue hfirst hname hgives
    | @toggle name _ =>
        rcases switching_cases name .flip with ⟨hname, hc⟩ | ⟨hname, hc⟩ | ⟨hname, -⟩
        · rw [change, hc]
          exact .accepted (.flip hname)
        · rw [change, hc]
          exact .notBoolean ⟨hname, Or.inr rfl⟩
        · exact absurd hname hunknown
    | off hname =>
        rw [change, switching_of_called hname]
        exact .accepted (.off hname)
    | @on name _ _ _ =>
        rcases switching_cases a (.centered true) with ⟨hname, hc⟩ | ⟨hname, hc⟩ | ⟨hname, -⟩
        · rw [change, hc]
          exact .accepted (.on hname)
        · rw [change, hc]
          exact .notBoolean ⟨hname, Or.inl rfl⟩
        · exact absurd hname hunknown

/-- A name of a setting is read as a directive about it, alone as well as with an exclamation mark. -/
theorem form_of_called (h : s.Called name) : Form name (on name) ∧ Form (name ++ "!".toList) (toggle name) := by
  have hplain : '=' ∉ name ∧ name.getLast? ≠ some '!' ∧ name.head? ≠ some 'n' := by
    cases s <;> rcases h with rfl | rfl <;> decide
  obtain ⟨hequals, hlast, hhead⟩ := hplain
  refine ⟨.on hequals hlast ?_, .toggle hequals⟩
  rintro rest rfl
  exact absurd rfl hhead

/-- Every verdict is that of a directive. -/
theorem Verdict.form {verdict : Except SettingsError Change} (h : Verdict a verdict) :
    ∃ d, Form a d ∧ d.change = verdict := by
  cases h with
  | unknown hform hname => exact ⟨_, hform, change_of_unknown hname⟩
  | @invalidValue left right s hfirst hname hvalue =>
      refine ⟨_, .assign hfirst, ?_⟩
      rcases change_assign_cases hname right.trim with ⟨c, hgives, -⟩ | ⟨-, hc⟩
      · exact absurd hgives (hvalue c)
      · exact hc
  | notBoolean hmistakes =>
      obtain ⟨hname, ha⟩ := hmistakes
      have hforms : Form _ (on _) ∧ Form _ (toggle _) := hname.elim form_of_called form_of_called
      rcases ha with rfl | rfl
      · exact ⟨_, hforms.1, switching_of_number hname _⟩
      · exact ⟨_, hforms.2, switching_of_number hname _⟩
  | @accepted _ c hwritten =>
      cases hwritten with
      | on hname => exact ⟨_, (form_of_called hname).1, switching_of_called hname _⟩
      | off hname => exact ⟨_, .off hname, switching_of_called hname _⟩
      | flip hname => exact ⟨_, (form_of_called hname).2, switching_of_called hname _⟩
      | @assign left right s _ hfirst hname hvalue =>
          refine ⟨_, .assign hfirst, ?_⟩
          rw [change, Setting.named?_eq_some_iff.mpr hname]
          simp only [changeTo?_eq_some_iff.mpr hvalue]

theorem verdict_ok_iff : Verdict a (.ok c) ↔ Change.Written a c := by
  constructor
  · intro h
    cases h with
    | accepted hwritten => exact hwritten
  · exact .accepted

theorem verdict_notBoolean_iff : Verdict a (.error (.notBoolean name)) ↔ MistakesForSwitch a name := by
  constructor
  · intro h
    cases h with
    | notBoolean hmistakes => exact hmistakes
  · exact .notBoolean

/-- The verdict on an argument is that of its grammar. -/
theorem change_ofArg_eq_iff {verdict : Except SettingsError Change} :
    (ofArg arg).change = verdict ↔ Verdict arg.trim verdict := by
  constructor
  · rintro rfl
    exact (form_ofArg arg).verdict
  · intro h
    obtain ⟨d, hform, hchange⟩ := h.form
    rw [hform.ofArg_eq rfl, hchange]

/-- There is one verdict on an argument. -/
theorem Verdict.unique {x y : Except SettingsError Change} (hx : Verdict arg.trim x) (hy : Verdict arg.trim y) : x = y :=
  (change_ofArg_eq_iff.mpr hx).symm.trans (change_ofArg_eq_iff.mpr hy)

theorem verdict_invalidValue_iff :
    Verdict arg.trim (.error (.invalidValue name value)) ↔
      GivesValue arg.trim name value ∧ ¬ ∃ c, Change.Written arg.trim c := by
  constructor
  · intro h
    refine ⟨?_, ?_⟩
    · generalize arg.trim = a at h
      cases h with
      | invalidValue hfirst hname _ => exact ⟨_, _, rfl, hfirst, rfl, rfl, _, hname⟩
    · rintro ⟨c, hwritten⟩
      exact nomatch h.unique (.accepted hwritten)
  · rintro ⟨⟨left, right, ha, hfirst, rfl, rfl, s, hname⟩, hnone⟩
    rw [ha] at hnone ⊢
    exact .invalidValue hfirst hname fun c hgives => hnone ⟨c, .assign hfirst hname hgives⟩

/-- What is neither accepted nor refused for another reason has a name that no setting has. -/
theorem exists_verdict_unknown_iff :
    (∃ name, (∀ s : Setting, ¬ s.Called name) ∧ Verdict arg.trim (.error (.unknown name))) ↔
      (¬ ∃ c, Change.Written arg.trim c) ∧ (∀ name, ¬ MistakesForSwitch arg.trim name) ∧
        ∀ name value, ¬ GivesValue arg.trim name value := by
  constructor
  · rintro ⟨name, -, h⟩
    have hnone : ¬ ∃ c, Change.Written arg.trim c := by
      rintro ⟨c, hwritten⟩
      exact nomatch h.unique (.accepted hwritten)
    refine ⟨hnone, fun _ hmistakes => ?_, fun _ _ hgives => ?_⟩
    · exact nomatch h.unique (.notBoolean hmistakes)
    · exact nomatch h.unique (verdict_invalidValue_iff.mpr ⟨hgives, hnone⟩)
  · rintro ⟨hnone, hmistakes, hgives⟩
    have h : Verdict arg.trim (ofArg arg).change := change_ofArg_eq_iff.mp rfl
    generalize (ofArg arg).change = verdict at h
    generalize arg.trim = a at *
    cases h with
    | accepted hwritten => exact absurd ⟨_, hwritten⟩ hnone
    | notBoolean hmistake => exact absurd hmistake (hmistakes _)
    | invalidValue hfirst hname _ => exact absurd ⟨_, _, rfl, hfirst, rfl, rfl, _, hname⟩ (hgives _ _)
    | unknown hform hname => exact ⟨_, hname, .unknown hform hname⟩

end Directive

namespace Settings

variable {o : Settings}

/-! ### Making the change -/

theorem switch_eq (o : Settings) (name : Text) {f : Bool → Bool} {c : Change}
    (hc : c.apply o = { o with startCentered := f o.startCentered }) :
    o.switch name f = (Directive.switching name c).map (Change.apply o) := by
  unfold switch Directive.switching
  cases Setting.named? name with
  | none => rfl
  | some s =>
      cases s with
      | centered => exact congrArg Except.ok hc.symm
      | startRow | trailLength => rfl

/-- What a directive asks for does not depend on the settings that it changes. -/
theorem obey_eq (o : Settings) (d : Directive) : o.obey d = d.change.map (Change.apply o) := by
  cases d with
  | on name => exact switch_eq o name (f := fun _ => true) (c := .centered true) rfl
  | off name => exact switch_eq o name (f := fun _ => false) (c := .centered false) rfl
  | toggle name => exact switch_eq o name (f := fun on => !on) (c := .flip) rfl
  | assign name value =>
      unfold obey Directive.change
      dsimp only
      cases Setting.named? name with
      | none => rfl
      | some s =>
          cases s with
          | centered =>
              simp only [assign?, Directive.changeTo?]
              cases switchValue? value <;> rfl
          | startRow | trailLength =>
              simp only [assign?, Directive.changeTo?]
              cases Numeral.number? value <;> rfl

theorem apply_eq (o : Settings) (arg : Text) :
    o.apply arg = (Directive.ofArg arg).change.map (Change.apply o) :=
  obey_eq o _

/-- An argument is refused with the same error by all settings. -/
theorem apply_eq_error_iff {arg : Text} {e : SettingsError} :
    o.apply arg = .error e ↔ Directive.Verdict arg.trim (.error e) := by
  rw [apply_eq, ← Directive.change_ofArg_eq_iff]
  cases (Directive.ofArg arg).change <;> simp [Except.map]

theorem apply_eq_ok_iff {arg : Text} {changed : Settings} :
    o.apply arg = .ok changed ↔ ∃ c, Change.Written arg.trim c ∧ changed = c.apply o := by
  rw [apply_eq]
  simp only [← Directive.verdict_ok_iff, ← Directive.change_ofArg_eq_iff]
  cases (Directive.ofArg arg).change <;> simp [Except.map, eq_comm]

/-! ### Changing in place -/

/-- Changes settings in place. What has been written before a refusal stays. -/
abbrev InPlace := ExceptT SettingsError (StateM Settings)

/-- The value, or a refusal if there is none. -/
def orRefuse {α : Type} (e : SettingsError) : Option α → InPlace α
  | some a => pure a
  | none => throw e

def switchInPlace (name : Text) (f : Bool → Bool) : InPlace Unit := do
  match ← orRefuse (.unknown name) (Setting.named? name) with
  | .centered => modify fun o => { o with startCentered := f o.startCentered }
  | .startRow | .trailLength => throw (.notBoolean name)

def assignInPlace (name value : Text) : InPlace Unit := do
  match ← orRefuse (.unknown name) (Setting.named? name) with
  | .startRow =>
      let n ← orRefuse (.invalidValue name value) (Numeral.number? value)
      modify fun o => { o with startRow := n }
  | .centered =>
      let on ← orRefuse (.invalidValue name value) (switchValue? value)
      modify fun o => { o with startCentered := on }
  | .trailLength =>
      let n ← orRefuse (.invalidValue name value) (Numeral.number? value)
      modify fun o => { o with trailLength := n }

/-- Carries out the directive that an argument writes, one write after the other. -/
def applyInPlace (arg : Text) : InPlace Unit :=
  match Directive.ofArg arg with
  | .on name => switchInPlace name fun _ => true
  | .off name => switchInPlace name fun _ => false
  | .toggle name => switchInPlace name fun on => !on
  | .assign name value => assignInPlace name value

/-- The outcome of a change in place: the settings changed, or as they were. -/
def outcome (o : Settings) : Except SettingsError Settings → Except SettingsError Unit × Settings
  | .ok changed => (.ok (), changed)
  | .error e => (.error e, o)

theorem switchInPlace_run (o : Settings) (name : Text) (f : Bool → Bool) :
    (switchInPlace name f).run.run o = o.outcome (o.switch name f) := by
  unfold switchInPlace switch
  cases Setting.named? name with
  | none => rfl
  | some s => cases s <;> rfl

theorem assignInPlace_run (o : Settings) (name value : Text) :
    (assignInPlace name value).run.run o = o.outcome (o.obey (.assign name value)) := by
  unfold assignInPlace obey
  dsimp only
  cases Setting.named? name with
  | none => rfl
  | some s =>
      cases s with
      | centered =>
          simp only [assign?]
          cases switchValue? value <;> rfl
      | startRow | trailLength =>
          simp only [assign?]
          cases Numeral.number? value <;> rfl

theorem applyInPlace_run (o : Settings) (arg : Text) :
    (applyInPlace arg).run.run o = o.outcome (o.apply arg) := by
  unfold applyInPlace apply
  cases Directive.ofArg arg with
  | on name | off name | toggle name => exact switchInPlace_run o name _
  | assign name value => exact assignInPlace_run o name value

/-! ### All arguments -/

/-- **Exactly the grammar of arguments is accepted, and one setting changes.** Let `a` be an argument without the white
space around it. Settings accept it just when it writes a change, and become what they are after the change, with all
other settings as they were. It is refused as no switch just when it is the name of a number, alone or with an
exclamation mark, and for its value just when it gives a known name a value without writing a change. Everything else is
refused for a name that no setting has. Settings that are changed in place end with the same outcome, and after a refusal
they are as they were. -/
theorem arguments_change_settings (o : Settings) (arg : Text) :
    let a := arg.trim
    (∀ changed, o.apply arg = .ok changed ↔
        ∃ c, Change.Written a c ∧ changed = c.apply o ∧ ∀ s, s ≠ c.setting → changed.value s = o.value s) ∧
      (∀ name, o.apply arg = .error (.notBoolean name) ↔ MistakesForSwitch a name) ∧
      (∀ name value, o.apply arg = .error (.invalidValue name value) ↔
        GivesValue a name value ∧ ¬ ∃ c, Change.Written a c) ∧
      ((∃ name, (∀ s : Setting, ¬ s.Called name) ∧ o.apply arg = .error (.unknown name)) ↔
        (¬ ∃ c, Change.Written a c) ∧ (∀ name, ¬ MistakesForSwitch a name) ∧ ∀ name value, ¬ GivesValue a name value) ∧
      (applyInPlace arg).run.run o =
        match o.apply arg with
        | .ok changed => (.ok (), changed)
        | .error e => (.error e, o) := by
  intro a
  refine ⟨?accepted, ?notBoolean, ?invalidValue, ?unknown, ?inPlace⟩
  case accepted =>
    intro changed
    rw [apply_eq_ok_iff]
    constructor
    · rintro ⟨c, hwritten, rfl⟩
      exact ⟨c, hwritten, rfl, fun s hs => Change.apply_value hs o⟩
    · rintro ⟨c, hwritten, hchanged, -⟩
      exact ⟨c, hwritten, hchanged⟩
  case notBoolean =>
    intro name
    rw [apply_eq_error_iff, Directive.verdict_notBoolean_iff]
  case invalidValue =>
    intro name value
    rw [apply_eq_error_iff, Directive.verdict_invalidValue_iff]
  case unknown =>
    simp only [apply_eq_error_iff]
    exact Directive.exists_verdict_unknown_iff
  case inPlace =>
    rw [applyInPlace_run]
    cases o.apply arg <;> rfl

end Settings

end ModalCursor
