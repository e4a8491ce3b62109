import ModalCursor.Drill
import ModalCursor.Proofs.LineEndings
import ModalCursor.Proofs.Overrides
import ModalCursor.Settings.LineFormat
/-!
# ModalCursor.Proofs.Drills

**A drill goes through stages.** Each is something that it needs and may fail to get: the settings of its file, the
change that an argument makes, the text, the script. If a stage fails, the drill ends with the error of the first that
does (`Drill.Stops`), and otherwise it reports on what they gave it (`Drill.Gets`). A computation that fails in this way
is said to go through its stages (`Drill.GoesThrough`), and two of them, one after the other, go through the stages of
both. So each stage is looked at alone.

The keys of a script are those of its lines, so they could just as well be given as arguments, and it does not matter
how keys are divided over arguments.
-/

namespace ModalCursor

/-! ### Computations that may fail -/

section Except

variable {ε ε' α β : Type} {x : Except ε α} {f : α → Except ε β} {g : ε → ε'}

theorem bind_eq_ok_iff {b : β} : x.bind f = .ok b ↔ ∃ a, x = .ok a ∧ f a = .ok b := by
  cases x <;> simp [Except.bind]

theorem mapError_eq_ok_iff {a : α} : x.mapError g = .ok a ↔ x = .ok a := by
  cases x <;> simp [Except.mapError]

theorem mapError_eq_error_iff {e' : ε'} : x.mapError g = .error e' ↔ ∃ e, x = .error e ∧ g e = e' := by
  cases x <;> simp [Except.mapError]

theorem mapError_bind (x : Except ε α) (f : α → Except ε β) (g : ε → ε') :
    (x.bind f).mapError g = x.mapError g >>= fun a => (f a).mapError g := by
  cases x <;> rfl

end Except

/-! ### Files as bytes -/

theorem decodeText_utf8Encode (t : Text) : decodeText t.utf8Encode = .ok t := by
  have hdecode : String.fromUTF8? t.utf8Encode = some (String.ofList t) := by
    rw [String.fromUTF8?, dif_pos ByteArray.isValidUTF8_utf8Encode]
    exact congrArg some (String.toByteArray_inj.mp String.toByteArray_ofList.symm)
  rw [decodeText, hdecode]
  exact congrArg Except.ok String.toList_ofList

theorem decodeText_of_not_utf8Encode {bytes : ByteArray} (h : ∀ t : Text, bytes ≠ t.utf8Encode) :
    decodeText bytes = .error .notText := by
  have hinvalid : ¬ bytes.IsValidUTF8 := by
    rintro ⟨t, ht⟩
    exact h t ht
  rw [decodeText, String.fromUTF8?, dif_neg hinvalid]

/-- The bytes at each path, or the reason why there are none. -/
abbrev Disk := Path → Except ReadFailure ByteArray

namespace Disk

variable {disk : Disk} {path : Path} {t : Text} {why : ReadFailure}

/-- Reads files as text. -/
def reader (disk : Disk) : Reader := fun path => (disk path).bind decodeText

/-- The file holds this text. -/
def Holds (disk : Disk) (path : Path) (t : Text) : Prop := disk path = .ok t.utf8Encode

/-- There is no text at the path, for this reason. -/
inductive Lacks (disk : Disk) (path : Path) : ReadFailure → Prop
  | unreadable {why : ReadFailure} (h : disk path = .error why) : Lacks disk path why
  | notText {bytes : ByteArray} (h : disk path = .ok bytes) (hbytes : ∀ t : Text, bytes ≠ t.utf8Encode) :
      Lacks disk path .notText

theorem Holds.reader_eq (h : disk.Holds path t) : disk.reader path = .ok t := by
  rw [reader, show disk path = _ from h]
  exact decodeText_utf8Encode t

theorem Lacks.reader_eq (h : disk.Lacks path why) : disk.reader path = .error why := by
  cases h with
  | unreadable h => rw [reader, h, Except.bind]
  | notText h hbytes => rw [reader, h, Except.bind, decodeText_of_not_utf8Encode hbytes]

/-- A path has a text, or there is a reason why it has none. -/
theorem holds_or_lacks (disk : Disk) (path : Path) :
    (∃ t, disk.Holds path t) ∨ ∃ why, disk.Lacks path why := by
  cases h : disk path with
  | error why => exact Or.inr ⟨why, .unreadable h⟩
  | ok bytes =>
      by_cases hbytes : ∃ t : Text, bytes = t.utf8Encode
      · obtain ⟨t, rfl⟩ := hbytes
        exact Or.inl ⟨t, h⟩
      · exact Or.inr ⟨.notText, .notText h (not_exists.mp hbytes)⟩

theorem reader_eq_ok_iff : disk.reader path = .ok t ↔ disk.Holds path t := by
  refine ⟨fun h => ?_, Holds.reader_eq⟩
  rcases disk.holds_or_lacks path with ⟨u, hu⟩ | ⟨why, hwhy⟩
  · rw [hu.reader_eq] at h
    exact Except.ok.inj h ▸ hu
  · rw [hwhy.reader_eq] at h
    nomatch h

theorem reader_eq_error_iff : disk.reader path = .error why ↔ disk.Lacks path why := by
  refine ⟨fun h => ?_, Lacks.reader_eq⟩
  rcases disk.holds_or_lacks path with ⟨u, hu⟩ | ⟨why, hwhy⟩
  · rw [hu.reader_eq] at h
    nomatch h
  · rw [hwhy.reader_eq] at h
    exact Except.error.inj h ▸ hwhy

/-- A text that is read and then worked on, where `name` names the failure to read it. -/
def withText {ε α : Type} (disk : Disk) (path : Path) (name : ReadFailure → ε) (next : Text → Except ε α) :
    Except ε α :=
  ((disk.reader path).mapError name).bind next

variable {ε α : Type} {name : ReadFailure → ε} {next : Text → Except ε α} {e : ε} {a : α}

theorem withText_eq_error_iff : disk.withText path name next = .error e ↔
    (∃ why, disk.Lacks path why ∧ e = name why) ∨ ∃ t, disk.Holds path t ∧ next t = .error e := by
  simp only [withText, ← reader_eq_ok_iff, ← reader_eq_error_iff]
  cases disk.reader path <;> simp [Except.mapError, Except.bind, eq_comm]

theorem withText_eq_ok_iff : disk.withText path name next = .ok a ↔ ∃ t, disk.Holds path t ∧ next t = .ok a := by
  simp only [withText, ← reader_eq_ok_iff]
  cases disk.reader path <;> simp [Except.mapError, Except.bind]

end Disk

/-- A folder is read as a disk is, so what holds of drills over a disk holds of drills over a folder. -/
theorem Folder.exists_disk (d : Folder) : ∃ disk : Disk, disk.reader = d.read := by
  have hpath (path : Path) : ∃ bytes : Except ReadFailure ByteArray, bytes.bind decodeText = d.read path := by
    rw [read]
    dsimp only
    -- Where the path leads to is all that matters.
    generalize (names path).foldlM (fun place name => d.enter name place) _ = place
    by_cases hempty : path = []
    · exact ⟨.error .notFound, by rw [if_pos hempty]; rfl⟩
    · rw [if_neg hempty]
      cases place with
      | error why => exact ⟨.error why, rfl⟩
      | ok place =>
          cases place with
          | file bytes => exact ⟨.ok bytes, rfl⟩
          | here | outside | inside => exact ⟨.error .isFolder, rfl⟩
  exact ⟨fun path => (hpath path).choose, funext fun path => (hpath path).choose_spec⟩

namespace Drill

/-! ### Stages -/

/-- Something that a drill needs and may fail to get. -/
inductive Stage
  /-- The settings that a file gives. -/
  | config (path : Path)
  /-- The change that an argument makes to settings. -/
  | override (arg : Text)
  | text (path : Path)
  | script (path : Path)
  deriving DecidableEq, Repr

/-- The stages of a drill in the order in which it goes through them. -/
def stages (d : Drill) : List Stage :=
  (d.config.toList.map .config ++ d.overrides.map .override) ++ ([.text d.text] ++ d.script.toList.map .script)

/-- The stage fails with this error. -/
inductive Stage.Fails (format : Document.Format) (disk : Disk) : Stage → DrillError → Prop
  | noConfig {path : Path} {why : ReadFailure} (h : disk.Lacks path why) :
      Fails format disk (.config path) (.settings (.unreadable path why))
  /-- The file's text is no settings document. -/
  | malformed {path : Path} {t : Text} (h : disk.Holds path t) (hrefused : format.read? t = none) :
      Fails format disk (.config path) (.settings .malformed)
  | refused {arg : Text} {e : SettingsError} (h : Directive.Verdict arg.trim (.error e)) :
      Fails format disk (.override arg) (.settings e)
  | noText {path : Path} {why : ReadFailure} (h : disk.Lacks path why) :
      Fails format disk (.text path) (.buffer (.unreadable path why))
  /-- The text has nothing but characters of line endings. -/
  | empty {path : Path} {t : Text} (h : disk.Holds path t) (hempty : ∀ ch ∈ t, ch = '\n' ∨ ch = '\r') :
      Fails format disk (.text path) (.buffer .empty)
  | noScript {path : Path} {why : ReadFailure} (h : disk.Lacks path why) :
      Fails format disk (.script path) (.script path why)

/-- The stage does not fail. -/
def Stage.Passes (format : Document.Format) (disk : Disk) (stage : Stage) : Prop := ∀ e, ¬ stage.Fails format disk e

/-- Some stage fails, and the first that does fails with this error. -/
inductive Stops (format : Document.Format) (disk : Disk) : List Stage → DrillError → Prop
  | here {stage : Stage} {rest : List Stage} {e : DrillError} (h : stage.Fails format disk e) :
      Stops format disk (stage :: rest) e
  | later {stage : Stage} {rest : List Stage} {e : DrillError} (h : stage.Passes format disk)
      (hrest : Stops format disk rest e) : Stops format disk (stage :: rest) e

variable {format : Document.Format} {disk : Disk} {d : Drill} {path : Path} {stage : Stage} {xs ys : List Stage}
  {e : DrillError}

theorem not_stops_nil : ¬ Stops format disk [] e := nofun

theorem stops_cons_iff :
    Stops format disk (stage :: xs) e ↔
      stage.Fails format disk e ∨ (stage.Passes format disk ∧ Stops format disk xs e) := by
  constructor
  · intro h
    cases h with
    | here h => exact Or.inl h
    | later h hrest => exact Or.inr ⟨h, hrest⟩
  · rintro (h | ⟨h, hrest⟩)
    · exact .here h
    · exact .later h hrest

theorem stops_singleton_iff : Stops format disk [stage] e ↔ stage.Fails format disk e := by
  rw [stops_cons_iff, or_iff_left fun h => not_stops_nil h.2]

theorem stops_append_iff :
    Stops format disk (xs ++ ys) e ↔
      Stops format disk xs e ∨ ((∀ stage ∈ xs, stage.Passes format disk) ∧ Stops format disk ys e) := by
  induction xs with
  | nil => simp [not_stops_nil]
  | cons stage xs ih =>
      rw [List.cons_append, stops_cons_iff, stops_cons_iff, ih, List.forall_mem_cons, and_or_left, or_assoc, and_assoc]

theorem passes_iff_not_stops : (∀ stage ∈ xs, stage.Passes format disk) ↔ ∀ e, ¬ Stops format disk xs e := by
  induction xs with
  | nil => simp [not_stops_nil]
  | cons stage xs ih =>
      simp only [List.forall_mem_cons, stops_cons_iff, ih, not_or, forall_and, not_and]
      exact and_congr_right fun hpasses => ⟨fun h e _ => h e, fun h e => h e hpasses⟩

/-! ### Going through stages -/

/-- The computation fails just when one of the stages does, and with the error of the first. -/
structure GoesThrough {α : Type} (format : Document.Format) (disk : Disk) (stages : List Stage)
    (x : Except DrillError α) : Prop where
  error_iff : ∀ e, x = .error e ↔ Stops format disk stages e

section GoesThrough

variable {α β : Type} {x : Except DrillError α} {f : α → Except DrillError β}

theorem GoesThrough.ok (a : α) : GoesThrough format disk [] (.ok a) := ⟨fun _ => ⟨nofun, nofun⟩⟩

theorem GoesThrough.single (h : ∀ e, x = .error e ↔ stage.Fails format disk e) : GoesThrough format disk [stage] x :=
  ⟨fun e => (h e).trans stops_singleton_iff.symm⟩

/-- Nothing fails just when there is a result. -/
theorem GoesThrough.passes_iff (h : GoesThrough format disk xs x) :
    (∀ stage ∈ xs, stage.Passes format disk) ↔ ∃ a, x = .ok a := by
  simp only [passes_iff_not_stops, ← h.error_iff]
  cases x <;> simp

/-- Two computations go through their stages one after the other. -/
theorem GoesThrough.bind (h : GoesThrough format disk xs x) (hf : ∀ a, GoesThrough format disk ys (f a)) :
    GoesThrough format disk (xs ++ ys) (x >>= f) := by
  constructor
  intro e
  rw [stops_append_iff, h.passes_iff, ← h.error_iff]
  cases x with
  | error _ => simp [Bind.bind, Except.bind]
  | ok a => simpa [Bind.bind, Except.bind] using (hf a).error_iff e

/-- What is made of the result at the end does not fail. -/
theorem GoesThrough.map (h : GoesThrough format disk xs x) (g : α → β) :
    GoesThrough format disk xs (x >>= fun a => pure (g a)) := by
  constructor
  intro e
  rw [← h.error_iff]
  cases x <;> simp [Bind.bind, Except.bind, Pure.pure, Except.pure]

/-! ### The stages of a drill -/

theorem load_settings_eq (format : Document.Format) (disk : Disk) (path : Path) :
    Settings.load format disk.reader path =
      disk.withText path (.unreadable path) (Settings.ofDocument format) := by
  rw [Settings.load, Disk.withText]
  cases disk.reader path <;> rfl

theorem load_buffer_eq (disk : Disk) (path : Path) :
    Buffer.load disk.reader path = disk.withText path (.unreadable path) Buffer.ofText := by
  rw [Buffer.load, Disk.withText]
  cases disk.reader path <;> rfl

theorem scriptKeys_eq (d : Drill) (disk : Disk) : d.scriptKeys disk.reader =
    match d.script with
    | none => .ok []
    | some path => disk.withText path (.script path) fun t => .ok t.unbroken := by
  rw [scriptKeys]
  cases d.script with
  | none => rfl
  | some path =>
      simp only [Disk.withText]
      cases disk.reader path <;> rfl

theorem goesThrough_config (path : Path) :
    GoesThrough format disk [.config path] ((Settings.load format disk.reader path).mapError .settings) := by
  refine .single fun e => ?_
  rw [mapError_eq_error_iff, load_settings_eq]
  simp only [Disk.withText_eq_error_iff, Settings.ofDocument_eq_error_iff]
  constructor
  · rintro ⟨_, ⟨why, h, rfl⟩ | ⟨t, h, rfl, hrefused⟩, rfl⟩
    · exact .noConfig h
    · exact .malformed h hrefused
  · intro h
    cases h with
    | noConfig h => exact ⟨_, Or.inl ⟨_, h, rfl⟩, rfl⟩
    | malformed h hrefused => exact ⟨_, Or.inr ⟨_, h, rfl, hrefused⟩, rfl⟩

theorem goesThrough_text (path : Path) :
    GoesThrough format disk [.text path] ((Buffer.load disk.reader path).mapError .buffer) := by
  refine .single fun e => ?_
  rw [mapError_eq_error_iff, load_buffer_eq]
  simp only [Disk.withText_eq_error_iff, Buffer.ofText_eq_error_iff]
  constructor
  · rintro ⟨_, ⟨why, h, rfl⟩ | ⟨t, h, rfl, hempty⟩, rfl⟩
    · exact .noText h
    · exact .empty h hempty
  · intro h
    cases h with
    | noText h => exact ⟨_, Or.inl ⟨_, h, rfl⟩, rfl⟩
    | empty h hempty => exact ⟨_, Or.inr ⟨_, h, rfl, hempty⟩, rfl⟩

theorem goesThrough_script (d : Drill) :
    GoesThrough format disk (d.script.toList.map .script) (d.scriptKeys disk.reader) := by
  rw [scriptKeys_eq]
  cases d.script with
  | none => exact .ok []
  | some path =>
      refine .single fun e => Disk.withText_eq_error_iff.trans ⟨?_, fun h => ?_⟩
      · rintro (⟨why, h, rfl⟩ | ⟨t, -, ht⟩)
        · exact .noScript h
        · nomatch ht
      · cases h with
        | noScript h => exact Or.inl ⟨_, h, rfl⟩

theorem goesThrough_override (o : Settings) (arg : Text) :
    GoesThrough format disk [.override arg] ((o.apply arg).mapError .settings) := by
  refine .single fun e => ?_
  simp only [mapError_eq_error_iff, Settings.apply_eq_error_iff]
  constructor
  · rintro ⟨e, h, rfl⟩
    exact .refused h
  · intro h
    cases h with
    | refused h => exact ⟨_, h, rfl⟩

theorem goesThrough_overrides (o : Settings) (args : List Text) :
    GoesThrough format disk (args.map .override) ((o.applyAll args).mapError .settings) := by
  induction args generalizing o with
  | nil => exact .ok o
  | cons arg args ih =>
      rw [Settings.applyAll_cons, mapError_bind]
      -- The others are applied to settings that the first has changed, and fail as they would with any.
      exact (goesThrough_override o arg).bind ih

/-- The settings to which the arguments are applied. -/
def baseSettings (d : Drill) (format : Document.Format) (read : Reader) : Except SettingsError Settings :=
  match d.config with
  | some path => Settings.load format read path
  | none => .ok Settings.default

theorem loadSettings_eq (d : Drill) (read : Reader) :
    d.loadSettings format read = (d.baseSettings format read).bind fun base => base.applyAll d.overrides := by
  rw [loadSettings, baseSettings]
  cases d.config <;> rfl

theorem goesThrough_settings (d : Drill) :
    GoesThrough format disk (d.config.toList.map .config ++ d.overrides.map .override)
      ((d.loadSettings format disk.reader).mapError .settings) := by
  rw [loadSettings_eq, mapError_bind]
  refine GoesThrough.bind ?_ fun base => goesThrough_overrides base d.overrides
  rw [baseSettings]
  cases d.config with
  | none => exact .ok _
  | some path => exact goesThrough_config path

theorem goesThrough_prepare (d : Drill) : GoesThrough format disk d.stages (d.prepare format disk.reader) :=
  d.goesThrough_settings.bind fun _ => (goesThrough_text d.text).bind fun _ => d.goesThrough_script.map _

theorem goesThrough_run (d : Drill) : GoesThrough format disk d.stages (d.run format disk.reader) :=
  d.goesThrough_prepare.map _

end GoesThrough

/-! ### What the stages give -/

/-- The settings of the file, or the default ones without one. -/
inductive GivesSettings (format : Document.Format) (disk : Disk) : Option Path → Settings → Prop
  | default : GivesSettings format disk none Settings.default
  | file {path : Path} {t : Text} {o : Settings} (h : disk.Holds path t) (hread : format.read? t = some o) :
      GivesSettings format disk (some path) o

/-- The keys of the script, or none without one. -/
inductive GivesKeys (disk : Disk) : Option Path → Keys → Prop
  | none : GivesKeys disk none []
  | file {path : Path} {t : Text} (h : disk.Holds path t) : GivesKeys disk (some path) t.unbroken

/-- A drill whose stages give it these settings, this buffer and these keys. -/
structure Gets (format : Document.Format) (disk : Disk) (d : Drill) (o : Settings) (b : Buffer) (keys : Keys) :
    Prop where
  /-- The settings are changed by the arguments from left to right. -/
  settings : ∃ base changes, GivesSettings format disk d.config base ∧
    List.Forall₂ (fun arg c => Change.Written arg.trim c) d.overrides changes ∧ o = changes.foldl Change.apply base
  buffer : ∃ t, disk.Holds d.text t ∧ Buffer.ofText? t = some b
  /-- The keys of the arguments come before those of the script. -/
  keys : ∃ scripted, GivesKeys disk d.script scripted ∧ keys = d.keys.flatten ++ scripted

theorem baseSettings_eq_ok_iff {o : Settings} :
    d.baseSettings format disk.reader = .ok o ↔ GivesSettings format disk d.config o := by
  rw [baseSettings]
  generalize d.config = config
  cases config with
  | none =>
      refine ⟨fun h => Except.ok.inj h ▸ .default, fun h => ?_⟩
      cases h
      rfl
  | some path =>
      simp only [load_settings_eq, Disk.withText_eq_ok_iff, Settings.ofDocument_eq_ok_iff]
      refine ⟨fun ⟨t, h, hread⟩ => .file h hread, fun h => ?_⟩
      cases h with
      | file h hread => exact ⟨_, h, hread⟩

theorem scriptKeys_eq_ok_iff {keys : Keys} : d.scriptKeys disk.reader = .ok keys ↔ GivesKeys disk d.script keys := by
  rw [scriptKeys_eq]
  generalize d.script = script
  cases script with
  | none =>
      refine ⟨fun h => Except.ok.inj h ▸ .none, fun h => ?_⟩
      cases h
      rfl
  | some path =>
      simp only [Disk.withText_eq_ok_iff, Except.ok.injEq]
      refine ⟨fun ⟨t, h, ht⟩ => ht ▸ .file h, fun h => ?_⟩
      cases h with
      | file h => exact ⟨_, h, rfl⟩

theorem loadSettings_eq_ok_iff {o : Settings} : d.loadSettings format disk.reader = .ok o ↔
    ∃ base changes, GivesSettings format disk d.config base ∧
      List.Forall₂ (fun arg c => Change.Written arg.trim c) d.overrides changes ∧
      o = changes.foldl Change.apply base := by
  simp only [loadSettings_eq, bind_eq_ok_iff, baseSettings_eq_ok_iff, Settings.applyAll_eq_ok_iff,
    exists_and_left]

theorem load_buffer_eq_ok_iff {b : Buffer} :
    Buffer.load disk.reader path = .ok b ↔ ∃ t, disk.Holds path t ∧ Buffer.ofText? t = some b := by
  simp only [load_buffer_eq, Disk.withText_eq_ok_iff, Buffer.ofText_eq_ok_iff]

theorem prepare_eq_ok_iff {s : Session} {keys : Keys} :
    d.prepare format disk.reader = .ok (s, keys) ↔ ∃ o b, d.Gets format disk o b keys ∧ s = Session.start b o := by
  simp only [prepare, Bind.bind, bind_eq_ok_iff, mapError_eq_ok_iff, loadSettings_eq_ok_iff, load_buffer_eq_ok_iff,
    scriptKeys_eq_ok_iff, Pure.pure, Except.pure, Except.ok.injEq, Prod.mk.injEq]
  constructor
  · rintro ⟨o, hsettings, b, hbuffer, scripted, hscript, rfl, rfl⟩
    exact ⟨o, b, ⟨hsettings, hbuffer, scripted, hscript, rfl⟩, rfl⟩
  · rintro ⟨o, b, ⟨hsettings, hbuffer, scripted, hscript, rfl⟩, rfl⟩
    exact ⟨o, hsettings, b, hbuffer, scripted, hscript, rfl, rfl⟩

theorem Gets.run_eq {o : Settings} {b : Buffer} {keys : Keys} (h : d.Gets format disk o b keys) :
    d.run format disk.reader = .ok (d.report (Session.start b o) keys) := by
  rw [run, prepare_eq_ok_iff.mpr ⟨o, b, h, rfl⟩]
  rfl

theorem exists_gets (h : ∀ stage ∈ d.stages, stage.Passes format disk) : ∃ o b keys, d.Gets format disk o b keys := by
  obtain ⟨⟨s, keys⟩, hprepare⟩ := d.goesThrough_prepare.passes_iff.mp h
  obtain ⟨o, b, hgets, -⟩ := prepare_eq_ok_iff.mp hprepare
  exact ⟨o, b, keys, hgets⟩

/-! ### Keys and where they come from -/

theorem unbroken_of_laidOut {t : Text} {ls : List Text} (h : Text.LaidOut ls t) (hls : ∀ line ∈ ls, line.IsLine) :
    t.unbroken = ls.flatten := by
  rw [Text.unbroken]
  rcases h.lines_eq hls with hlines | hlines <;> simp [hlines]

theorem run_with_keys (ks : List Keys) (hks : ks.flatten = d.keys.flatten) (read : Reader) :
    ({ d with keys := ks } : Drill).run format read = d.run format read := by
  simp only [run, prepare, loadSettings, scriptKeys, report, hks]

theorem run_without_script {t : Text} {ks : List Keys} (hscript : d.script = some path) (h : disk.Holds path t)
    (hks : ks.flatten = d.keys.flatten ++ t.unbroken) :
    ({ d with keys := ks, script := none } : Drill).run format disk.reader = d.run format disk.reader := by
  simp only [run, prepare, loadSettings, report, scriptKeys, hscript, h.reader_eq, hks, Bind.bind, Except.bind,
    List.append_nil]

/-- **A drill goes through stages, and does not ask where keys come from.** Keys can be divided over arguments in any
way; and those of a script, whose lines end in line feeds or in carriage returns with line feeds, except that the last
may have no ending, can follow them as arguments of their own. The stages are the settings file, the arguments that
change settings from left to right, the text, and the script. If one fails, the drill ends with the error of the first
that does, and never else. If none fails they give settings, a buffer and keys, and the drill's answer is the transcript
of the keys, if it was asked for, and the summary of the session after them. All this does not depend on the format that
settings files are written in. -/
theorem run_in_stages (format : Document.Format) (disk : Disk) (d : Drill) :
    (∀ ks, ks.flatten = d.keys.flatten →
        ({ d with keys := ks } : Drill).run format disk.reader = d.run format disk.reader) ∧
      (∀ path t ls ks, d.script = some path → disk.Holds path t → Text.LaidOut ls t → (∀ line ∈ ls, line.IsLine) →
        ks.flatten = d.keys.flatten ++ ls.flatten →
        ({ d with keys := ks, script := none } : Drill).run format disk.reader = d.run format disk.reader) ∧
      (∀ e, d.run format disk.reader = .error e ↔ Stops format disk d.stages e) ∧
      ((∀ stage ∈ d.stages, stage.Passes format disk) → ∃ o b keys, d.Gets format disk o b keys) ∧
      ∀ o b keys, d.Gets format disk o b keys →
        let (after, shown) := (Session.start b o).replay keys d.trace
        d.run format disk.reader = .ok (shown ++ after.summary) := by
  refine ⟨fun ks hks => run_with_keys ks hks _, ?script, d.goesThrough_run.error_iff, exists_gets,
    fun o b keys h => h.run_eq⟩
  case script =>
    intro path t ls ks hscript hholds hlaid hlines hks
    rw [← unbroken_of_laidOut hlaid hlines] at hks
    exact run_without_script hscript hholds hks

/-- A command that begins in the arguments and ends in a script, and an argument that is refused before a script is
missed. -/
theorem run_in_stages_straddling :
    let disk : Disk := fun path =>
      if path = ['t'] then .ok "abcb\n".toList.utf8Encode
      else if path = ['s'] then .ok "b\r\nmx\n".toList.utf8Encode
      else .error .notFound
    let d : Drill :=
      { text := ['t'], keys := [['2'], ['f']], script := some ['s'], config := none
        overrides := ["sr=0".toList, "noce".toList], trace := true }
    let out : String :=
      "2fb find_forward 'b' -> 1:4\nmx set_mark 'x' -> 1:4\ncursor  1:4\njump    -\nmarks   x 1:4\n"
    d.run Document.format disk.reader = .ok out ∧
      ({ d with keys := ["2fbmx".toList], script := none } : Drill).run Document.format disk.reader = .ok out ∧
      ({ d with script := some ['u'], overrides := ["sr=0".toList, "so=3".toList] } : Drill).run Document.format
        disk.reader = .error (.settings (.unknown "so".toList)) := by
  intro disk d out
  have hscript : disk.Holds ['s'] "b\r\nmx\n".toList := rfl
  have hgets : d.Gets Document.format disk { startRow := 0, startCentered := false } (.ofWhole "abcb".toList)
      "2fbmx".toList := by
    have happly : Settings.default.applyAll d.overrides = .ok { startRow := 0, startCentered := false } := by decide
    obtain ⟨changes, hall, ho⟩ := Settings.applyAll_eq_ok_iff.mp happly
    exact ⟨⟨_, changes, .default, hall, ho⟩, ⟨_, rfl, by decide⟩, _, .file hscript, by decide⟩
  obtain ⟨-, hkeys, -, -, hgives⟩ := run_in_stages Document.format disk d
  have hrun : d.run Document.format disk.reader = .ok out := (hgives _ _ _ hgets).trans (by decide)
  refine ⟨hrun, ?_, ?_⟩
  · have hlaid : Text.LaidOut [['b'], ['m', 'x']] "b\r\nmx\n".toList := .pair ['b'] (.lineFeed ['m', 'x'] .nil)
    have hlines : ∀ line ∈ [['b'], ['m', 'x']], Text.IsLine line := by simp [Text.IsLine]
    exact (hkeys ['s'] _ _ _ rfl hscript hlaid hlines (by decide)).trans hrun
  · obtain ⟨-, -, hstops, -⟩ := run_in_stages Document.format disk
      { d with script := some ['u'], overrides := ["sr=0".toList, "so=3".toList] }
    have haccepted : Settings.default.apply "sr=0".toList = .ok { startRow := 0 } := by decide
    have hrefused : Settings.default.apply "so=3".toList = .error (.unknown "so".toList) := by decide
    refine (hstops _).mpr (.later ?_ (.here (.refused (Settings.apply_eq_error_iff.mp hrefused))))
    intro e h
    cases h with
    | refused h => exact nomatch haccepted.symm.trans (Settings.apply_eq_error_iff.mpr h)

end Drill

end ModalCursor
