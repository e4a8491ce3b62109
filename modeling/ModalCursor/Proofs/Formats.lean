import ModalCursor.Proofs.Arguments
import ModalCursor.Proofs.LineEndings
import ModalCursor.Settings.LineFormat
import Mathlib.Data.List.Nodup
/-!
# ModalCursor.Proofs.Formats

**What a format is expected to do.** Each of its two parts is expected to do what is known of it in general, and knows
nothing of the other. The first reads lines `key = value` as TOML has them: as the table of these entries, whose order
does not count, and in which no key comes twice (`Format.ReadsTables`). The second fills records as their type declares
it: given fields have their values, missing ones those of the default, and unknown keys are refused where the
declaration says so (`Format.FillsRecords`). Which settings a document gives is not among these expectations.

The program's own format lives up to them (`format_readsTables`, `format_fillsRecords`). Its reading has two steps:
lines are found again (`Text.LaidOut.lines_eq`), and each is one entry (`Document.entry?_line`).
-/

namespace ModalCursor

namespace Document

/-! ### Lines -/

/-- A value as documents write it: a number in decimal, with a minus sign if it is below zero, or `true` or `false`. -/
def Value.text : Value → Text
  | integer (.ofNat n) => Nat.toDigits 10 n
  | integer (.negSucc n) => '-' :: Nat.toDigits 10 (n + 1)
  | boolean true => "true".toList
  | boolean false => "false".toList

/-- The line that gives a key a value. -/
def line (key value : Text) : Text := key ++ " = ".toList ++ value

/-- The line for an entry. -/
def Entry.line (e : Entry) : Text := Document.line e.key e.value.text

/-- Letters, digits, underscores and hyphens only, as in a key without quotes. -/
def IsBareKey (key : Text) : Prop := ∀ c ∈ key, isBare c = true

instance (key : Text) : Decidable (IsBareKey key) := List.decidableBAll (isBare · = true) key

/-- A boolean, or a number without a sign that a word of 64 bits holds. -/
def Value.Fits : Value → Prop
  | integer n => 0 ≤ n ∧ n ≤ Numeral.largest
  | boolean _ => True

end Document

/-- The numbers fit a word of 64 bits. -/
structure Settings.Fits (o : Settings) : Prop where
  startRow_le : o.startRow ≤ Numeral.largest
  trailLength_le : o.trailLength ≤ Numeral.largest

/-- The setting can have this value. -/
def Setting.Holds (s : Setting) (v : Document.Value) : Prop := ∃ o : Settings, o.Fits ∧ o.value s = v

theorem Settings.Fits.value {o : Settings} (h : o.Fits) (s : Setting) : (o.value s).Fits := by
  cases s with
  | startRow => exact ⟨Int.natCast_nonneg _, Int.ofNat_le.mpr h.startRow_le⟩
  | centered => trivial
  | trailLength => exact ⟨Int.natCast_nonneg _, Int.ofNat_le.mpr h.trailLength_le⟩

namespace Document

/-! ### What is expected -/

/-- Texts are read as TOML, as far as lines are concerned that give a bare key a number or a boolean. -/
structure Format.ReadsTables (f : Format) : Prop where
  /-- If such lines are read at all, it is as the table of their entries, in some order, and no key comes twice. -/
  entries_of_lines : ∀ {entries table : Table} {t : Text}, Text.LaidOut (entries.map Entry.line) t →
    (∀ e ∈ entries, IsBareKey e.key) → f.table? t = some table →
      table.Perm entries ∧ (entries.map Entry.key).Nodup
  /-- They are read if every key has a character, none comes twice, and all values fit. -/
  exists_table : ∀ {entries : Table} {t : Text}, Text.LaidOut (entries.map Entry.line) t →
    (∀ e ∈ entries, IsBareKey e.key ∧ e.key ≠ [] ∧ e.value.Fits) → (entries.map Entry.key).Nodup →
      ∃ table, f.table? t = some table

/-- Records are filled as they are declared, from tables in which no key comes twice. -/
structure Format.FillsRecords (f : Format) : Prop where
  /-- With defaults for what is missing, values that their fields can have give a record. -/
  exists_record : ∀ {d : Declaration} {base : Settings} {table : Table}, d.defaults = some base →
    (table.map Entry.key).Nodup → (∀ e ∈ table, ∃ s : Setting, e.key = s.key ∧ s.Holds e.value) →
      ∃ o, f.fill? d table = some o
  /-- A given field has its value. -/
  value_of_mem : ∀ {d : Declaration} {table : Table} {o : Settings} {e : Entry} {s : Setting},
    f.fill? d table = some o → (table.map Entry.key).Nodup → e ∈ table → e.key = s.key → o.value s = e.value
  /-- A missing field has its default. -/
  value_of_missing : ∀ {d : Declaration} {base : Settings} {table : Table} {o : Settings} {s : Setting},
    f.fill? d table = some o → d.defaults = some base → (∀ e ∈ table, e.key ≠ s.key) → o.value s = base.value s
  /-- A key of no field is refused, if the declaration says so. -/
  refuses_unknown : ∀ {d : Declaration} {table : Table} {e : Entry}, d.refusesUnknown = true → e ∈ table →
    (∀ s : Setting, e.key ≠ s.key) → f.fill? d table = none

variable {key value t : Text} {n : Nat} {c : Char}

/-! ### Values -/

theorem ungroup?_of_digits (hne : t ≠ []) (h : ∀ d ∈ t, d.isDigit = true) : ungroup? Char.isDigit t = some t := by
  fun_induction ungroup? Char.isDigit t with
  | case1 => exact absurd rfl hne
  | case2 => rfl
  | case4 => exact absurd (h '_' (by simp)) (by decide)
  | case3 c hc | case5 c _ hc | case7 c _ _ _ hc => exact absurd (h c List.mem_cons_self) hc
  | case6 c rest hrest _ _ ih =>
      rw [ih hrest fun d hd => h d (List.mem_cons_of_mem _ hd), Option.map_some]

theorem decimal?_toDigits (n : Nat) : decimal? (Nat.toDigits 10 n) = some n := by
  have hvalue : Nat.ofDigitChars 10 (Nat.toDigits 10 n) 0 = n := Nat.ofDigitChars_ten_toDigits
  unfold decimal?
  rw [ungroup?_of_digits Nat.toDigits_ne_nil (isDigit_toDigits n)]
  split
  · next h => nomatch h
  · next h =>
      rw [Option.some.inj h] at hvalue
      rw [← hvalue]
      rfl
  · next rest hzero h =>
      -- Only the number zero starts with this digit.
      have hhead : (Nat.toDigits 10 n).head? = some '0' := by rw [Option.some.inj h, List.head?_cons]
      cases n with
      | zero => exact absurd (List.cons.inj (Option.some.inj h)).2.symm hzero
      | succ n => exact absurd hhead (head?_toDigits (Nat.succ_pos n))
  · next h => rw [← Option.some.inj h, hvalue]

theorem integer?_of_digits (h : ∀ d ∈ t, d.isDigit = true) : integer? t = (decimal? t).map fun n => (n : Int) := by
  unfold integer?
  split
  · next t => exact absurd (h '+' (by simp)) (by decide)
  · next t => exact absurd (h '-' (by simp)) (by decide)
  · next t => exact absurd (h 'x' (by simp)) (by decide)
  · next t => exact absurd (h 'o' (by simp)) (by decide)
  · next t => exact absurd (h 'b' (by simp)) (by decide)
  · rfl

theorem integer?_text (n : Int) : integer? (Value.integer n).text = some n := by
  cases n with
  | ofNat n =>
      have hplain : integer? (Value.integer (.ofNat n)).text = (decimal? (Nat.toDigits 10 n)).map fun m => (m : Int) :=
        integer?_of_digits (isDigit_toDigits n)
      rw [hplain, decimal?_toDigits]
      rfl
  | negSucc n =>
      have hminus : integer? (Value.integer (.negSucc n)).text =
          (decimal? (Nat.toDigits 10 (n + 1))).map fun m => -(m : Int) := rfl
      rw [hminus, decimal?_toDigits]
      rfl

theorem value?_text (v : Value) : value? v.text = some v := by
  cases v with
  | boolean b => cases b <;> rfl
  | integer n =>
      have hread := integer?_text n
      unfold value?
      split
      · next h =>
          rw [h] at hread
          nomatch hread
      · split
        · next h =>
            rw [h] at hread
            nomatch hread
        · rw [hread, Option.map_some]

/-! ### Lines -/

theorem isBare_ne {d : Char} (h : isBare c = true) (hd : isBare d = false) : c ≠ d := by
  rintro rfl
  rw [hd] at h
  nomatch h

theorem isGap_of_isBare (h : isBare c = true) : isGap c = false := by
  rw [isGap, Bool.or_eq_false_iff, beq_eq_false_iff_ne, beq_eq_false_iff_ne]
  exact ⟨isBare_ne h (by decide), isBare_ne h (by decide)⟩

theorem isBare_of_isDigit (h : c.isDigit = true) : isBare c = true := by
  simp [isBare, Char.isAlphanum, h]

/-- The characters of a value could as well be those of a key. -/
theorem isBareKey_text (v : Value) : IsBareKey v.text := by
  cases v with
  | boolean b => cases b <;> decide
  | integer n =>
      have hdigits (m : Nat) : IsBareKey (Nat.toDigits 10 m) := fun d hd => isBare_of_isDigit (isDigit_toDigits m d hd)
      cases n with
      | ofNat n => exact hdigits n
      | negSucc n => exact List.forall_mem_cons.mpr ⟨by decide, hdigits (n + 1)⟩

theorem IsBareKey.append_isLine (h : IsBareKey key) (hvalue : value.IsLine) : (key ++ value).IsLine := by
  refine .append (fun hmem => ?_) (fun hmem => ?_) hvalue
  · exact isBare_ne (h _ hmem) (by decide) rfl
  · exact isBare_ne (h _ hmem) (by decide) rfl

theorem isLine_text (v : Value) : v.text.IsLine := by
  have htext := (isBareKey_text v).append_isLine .nil
  rwa [List.append_nil] at htext

theorem isLine_line (h : IsBareKey key) (hvalue : value.IsLine) : (line key value).IsLine := by
  rw [line, List.append_assoc]
  exact h.append_isLine (.append (by decide) (by decide) hvalue)

/-- The first character of a line is the key's. -/
theorem line_eq_cons (h : IsBareKey key) (hne : key ≠ []) (value : Text) :
    ∃ c rest, line key value = c :: rest ∧ isBare c = true := by
  cases key with
  | nil => exact absurd rfl hne
  | cons c key => exact ⟨c, _, rfl, h c List.mem_cons_self⟩

theorem dropWhile_isGap_line (h : IsBareKey key) (hne : key ≠ []) (value : Text) :
    (line key value).dropWhile isGap = line key value := by
  obtain ⟨c, rest, hline, hc⟩ := line_eq_cons h hne value
  rw [hline]
  exact List.dropWhile_cons_of_neg (by simp [isGap_of_isBare hc])

/-- A key that needs no quotes is read up to the blank after it. -/
theorem key?_line (h : IsBareKey key) (hne : key ≠ []) (value : Text) :
    key? ((line key value).dropWhile isGap) = some (key, " = ".toList ++ value) := by
  have htake : (line key value).takeWhile isBare = key := by
    rw [line, List.append_assoc, List.takeWhile_append_of_pos h]
    exact List.append_nil key
  have hdrop : (line key value).dropWhile isBare = " = ".toList ++ value := by
    rw [line, List.append_assoc, List.dropWhile_append_of_pos h]
    rfl
  obtain ⟨c, rest, hline, hc⟩ := line_eq_cons h hne value
  rw [dropWhile_isGap_line h hne]
  unfold key?
  split
  · next heq => exact absurd (List.cons.inj (hline.symm.trans heq)).1 (isBare_ne hc (by decide))
  · next heq => exact absurd (List.cons.inj (hline.symm.trans heq)).1 (isBare_ne hc (by decide))
  · rw [htake, hdrop]
    cases key with
    | nil => exact absurd rfl hne
    | cons => rfl

/-- Part of a value, and neither blank nor the start of a comment. -/
def isValuePart (c : Char) : Bool := !isGap c && c != '#'

theorem isValuePart_of_isBare (h : isBare c = true) : isValuePart c = true := by
  simp [isValuePart, isGap_of_isBare h, isBare_ne h (d := '#') (by decide)]

/-- What a line gives its key is what is read after the equals sign. -/
theorem entry?_line_eq (h : IsBareKey key) (hne : key ≠ []) (value : Text) :
    entry? (line key value) =
      (value? ((value.dropWhile isGap).takeWhile isValuePart)).bind fun v =>
        if isRemark ((value.dropWhile isGap).dropWhile isValuePart) then some ⟨key, v⟩ else none := by
  unfold entry?
  rw [key?_line h hne]
  rfl

theorem entry?_line (h : IsBareKey key) (hne : key ≠ []) (v : Value) :
    entry? (line key v.text) = some ⟨key, v⟩ := by
  have hgap : v.text.dropWhile isGap = v.text := by
    rw [List.dropWhile_eq_self_iff]
    intro hlength
    exact Bool.eq_false_iff.mp (isGap_of_isBare (isBareKey_text v _ (List.getElem_mem hlength)))
  have hpart : ∀ c ∈ v.text, isValuePart c = true := fun c hc => isValuePart_of_isBare (isBareKey_text v c hc)
  rw [entry?_line_eq h hne, hgap, List.takeWhile_eq_self_iff.mpr hpart, List.dropWhile_eq_nil_iff.mpr hpart,
    value?_text]
  rfl

/-- A line without a key is no entry, and with one it is no other. -/
theorem entry?_line_eq_some {e e' : Entry} (h : IsBareKey e.key) (he : entry? e.line = some e') : e' = e := by
  by_cases hne : e.key = []
  · rw [Entry.line, hne] at he
    nomatch he
  · rw [Entry.line, entry?_line h hne] at he
    exact (Option.some.inj he).symm

theorem isRemark_line (h : IsBareKey key) (value : Text) : isRemark (line key value) = false := by
  by_cases hne : key = []
  · subst hne
    rfl
  · obtain ⟨c, rest, hline, hc⟩ := line_eq_cons h hne value
    unfold isRemark
    rw [dropWhile_isGap_line h hne]
    split
    · next heq => nomatch hline.symm.trans heq
    · next heq => exact absurd (List.cons.inj (hline.symm.trans heq)).1 (isBare_ne hc (by decide))
    · rfl

/-! ### Tables -/

/-- An empty line at the end changes nothing. -/
theorem entries?_append_blank (ls : List Text) : entries? (ls ++ [[]]) = entries? ls := by
  induction ls with
  | nil => rfl
  | cons l ls ih => rw [List.cons_append, entries?, entries?, ih]

/-- A line that gives a key a value is one entry for this key, or none. -/
theorem entries?_line (h : IsBareKey key) (value : Text) (ls : List Text) :
    entries? (line key value :: ls) = entry? (line key value) >>= fun e => (entries? ls).map (e :: ·) := by
  rw [entries?, isRemark_line h]
  rfl

theorem entries?_lines {entries : Table} (h : ∀ e ∈ entries, IsBareKey e.key ∧ e.key ≠ []) :
    entries? (entries.map Entry.line) = some entries := by
  induction entries with
  | nil => rfl
  | cons e entries ih =>
      rw [List.forall_mem_cons] at h
      rw [List.map_cons, Entry.line, entries?_line h.1.1, entry?_line h.1.1 h.1.2, ih h.2]
      rfl

theorem entries?_lines_eq_some {entries table : Table} (h : ∀ e ∈ entries, IsBareKey e.key)
    (hread : entries? (entries.map Entry.line) = some table) : table = entries := by
  induction entries generalizing table with
  | nil => exact (Option.some.inj hread).symm
  | cons e entries ih =>
      rw [List.forall_mem_cons] at h
      rw [List.map_cons, Entry.line, entries?_line h.1, Option.bind_eq_bind, Option.bind_eq_some_iff] at hread
      obtain ⟨first, hfirst, hrest⟩ := hread
      obtain ⟨rest, hentries, rfl⟩ := Option.map_eq_some_iff.mp hrest
      rw [entry?_line_eq_some h.1 hfirst, ih h.2 hentries]

theorem skipMark_line_append (h : IsBareKey key) (value u : Text) :
    skipMark (line key value ++ u) = line key value ++ u := by
  unfold skipMark
  split
  · next heq =>
      -- Neither a key nor the blank after it starts with a mark.
      cases key with
      | nil => exact absurd (List.cons.inj heq).1 (by decide)
      | cons c key => exact absurd (List.cons.inj heq).1 (isBare_ne (h c List.mem_cons_self) (by decide))
  · rfl

/-- A text without a mark at the start of its first line has none. -/
theorem skipMark_laidOut {ls : List Text} (h : Text.LaidOut ls t) (hls : ∀ l ∈ ls, ∀ u, skipMark (l ++ u) = l ++ u) :
    skipMark t = t := by
  cases h with
  | nil => rfl
  | last =>
      have hline := hls t List.mem_cons_self []
      rwa [List.append_nil] at hline
  | lineFeed l | pair l =>
      rw [List.append_assoc]
      exact hls l List.mem_cons_self _

/-- Lines that give keys values are found again, and then read one after the other. -/
theorem entries?_laidOut {entries : Table} (h : Text.LaidOut (entries.map Entry.line) t)
    (hkeys : ∀ e ∈ entries, IsBareKey e.key) :
    entries? (Text.lines (skipMark t)) = entries? (entries.map Entry.line) := by
  have hlines : ∀ l ∈ entries.map Entry.line, Text.IsLine l :=
    List.forall_mem_map.mpr fun e he => isLine_line (hkeys e he) (isLine_text e.value)
  have hmark : skipMark t = t :=
    skipMark_laidOut h <| List.forall_mem_map.mpr fun e he => skipMark_line_append (hkeys e he) e.value.text
  rw [hmark]
  rcases h.lines_eq hlines with hread | hread
  · rw [hread]
  · rw [hread, entries?_append_blank]

theorem table?_eq_some_iff {table : Table} :
    table? t = some table ↔ entries? (Text.lines (skipMark t)) = some table ∧ (table.map Entry.key).Nodup := by
  simp only [table?, Option.bind_eq_bind, Option.bind_eq_some_iff, Option.ite_none_right_eq_some, Option.some.injEq]
  constructor
  · rintro ⟨entries, hread, hkeys, rfl⟩
    exact ⟨hread, hkeys⟩
  · rintro ⟨hread, hkeys⟩
    exact ⟨table, hread, hkeys, rfl⟩

theorem format_readsTables : format.ReadsTables where
  entries_of_lines := by
    intro entries table t hlaid hbare hread
    obtain ⟨hentries, hkeys⟩ := table?_eq_some_iff.mp hread
    rw [entries?_laidOut hlaid hbare] at hentries
    obtain rfl := entries?_lines_eq_some hbare hentries
    exact ⟨List.Perm.refl _, hkeys⟩
  exists_table := by
    intro entries t hlaid hlines hkeys
    refine ⟨entries, table?_eq_some_iff.mpr ⟨?_, hkeys⟩⟩
    rw [entries?_laidOut hlaid fun e he => (hlines e he).1]
    exact entries?_lines fun e he => ⟨(hlines e he).1, (hlines e he).2.1⟩

/-! ### Records -/

theorem Value.number?_eq_some_iff {v : Value} : v.number? = some n ↔ v = .integer n ∧ n ≤ Numeral.largest := by
  cases v with
  | boolean b => simp [Value.number?]
  | integer i =>
      rw [Value.number?, Option.ite_none_right_eq_some, Option.some.injEq, Value.integer.injEq]
      omega

theorem Value.switch?_eq_some_iff {v : Value} {b : Bool} : v.switch? = some b ↔ v = .boolean b := by
  cases v <;> simp [Value.switch?]

theorem isKnown_eq_true_iff : isKnown key = true ↔ ∃ s : Setting, key = s.key := by
  simp only [isKnown, List.any_eq_true, beq_iff_eq]
  constructor
  · rintro ⟨s, -, hs⟩
    exact ⟨s, hs.symm⟩
  · rintro ⟨s, hs⟩
    exact ⟨s, by cases s <;> simp, hs.symm⟩

section Fields

variable {α : Type} {d : Declaration} {table : Table} {e : Entry} {s : Setting} {take : Value → Option α}
  {default : Settings → α} {o base : Settings}

/-- The value that the table has for a key is the only one. -/
theorem field?_of_mem (hkeys : (table.map Entry.key).Nodup) (he : e ∈ table) (hkey : e.key = s.key) :
    field? d table s take default = take e.value := by
  rw [field?]
  cases hfound : table.find? fun e => e.key = s.key with
  | none =>
      have hmissing := List.find?_eq_none.mp hfound e he
      simp [hkey] at hmissing
  | some e' =>
      have hsame : e'.key = s.key := by simpa using List.find?_some hfound
      rw [List.inj_on_of_nodup_map hkeys (List.mem_of_find?_eq_some hfound) he (hsame.trans hkey.symm)]

theorem field?_of_missing (h : ∀ e ∈ table, e.key ≠ s.key) :
    field? d table s take default = d.defaults.map default := by
  have hnone : (table.find? fun e => e.key = s.key) = none := by simpa using h
  rw [field?, hnone]

theorem fill?_eq_some_iff : fill? d table = some o ↔
    field? d table .startRow Value.number? Settings.startRow = some o.startRow ∧
      field? d table .centered Value.switch? Settings.startCentered = some o.startCentered ∧
      field? d table .trailLength Value.number? Settings.trailLength = some o.trailLength ∧
      (d.refusesUnknown = true → ∀ e ∈ table, isKnown e.key = true) := by
  have hunknown : ¬ (d.refusesUnknown && table.any fun e => !isKnown e.key) = true ↔
      (d.refusesUnknown = true → ∀ e ∈ table, isKnown e.key = true) := by simp
  simp only [fill?, Option.bind_eq_bind, Option.bind_eq_some_iff, Option.ite_none_left_eq_some, hunknown,
    Option.some.injEq]
  constructor
  · rintro ⟨row, hrow, centered, hcentered, trail, htrail, hkeys, rfl⟩
    exact ⟨hrow, hcentered, htrail, hkeys⟩
  · rintro ⟨hrow, hcentered, htrail, hkeys⟩
    exact ⟨_, hrow, _, hcentered, _, htrail, hkeys, rfl⟩

/-- A field of which the table has nothing but values that it can have takes one, or its default. -/
theorem exists_field (s : Setting) (take : Value → Option α) (default : Settings → α) (hbase : d.defaults = some base)
    (hkeys : (table.map Entry.key).Nodup) (htake : ∀ e ∈ table, e.key = s.key → ∃ a, take e.value = some a) :
    ∃ a, field? d table s take default = some a := by
  by_cases hmem : ∃ e ∈ table, e.key = s.key
  · obtain ⟨e, he, hkey⟩ := hmem
    rw [field?_of_mem hkeys he hkey]
    exact htake e he hkey
  · rw [field?_of_missing (by simpa using hmem), hbase]
    exact ⟨_, rfl⟩

end Fields

end Document

theorem Setting.key_injective : Function.Injective Setting.key := by
  intro s r h
  cases s <;> cases r <;> first | rfl | exact absurd h (by decide)

namespace Document

/-- The value of an entry for a field is one that the field can have. -/
theorem holds_of_known {e : Entry} {s : Setting} (h : ∃ r : Setting, e.key = r.key ∧ r.Holds e.value)
    (hkey : e.key = s.key) : s.Holds e.value := by
  obtain ⟨r, hr, hholds⟩ := h
  rwa [Setting.key_injective (hkey.symm.trans hr)]

theorem format_fillsRecords : format.FillsRecords where
  exists_record := by
    intro d base table hbase hkeys hknown
    obtain ⟨row, hrow⟩ := exists_field .startRow Value.number? Settings.startRow hbase hkeys fun e he hkey => by
      obtain ⟨o, ho, hvalue⟩ := holds_of_known (hknown e he) hkey
      exact ⟨o.startRow, Value.number?_eq_some_iff.mpr ⟨hvalue.symm, ho.startRow_le⟩⟩
    obtain ⟨centered, hcentered⟩ := exists_field .centered Value.switch? Settings.startCentered hbase hkeys
      fun e he hkey => by
        obtain ⟨o, -, hvalue⟩ := holds_of_known (hknown e he) hkey
        exact ⟨o.startCentered, Value.switch?_eq_some_iff.mpr hvalue.symm⟩
    obtain ⟨trail, htrail⟩ := exists_field .trailLength Value.number? Settings.trailLength hbase hkeys
      fun e he hkey => by
        obtain ⟨o, ho, hvalue⟩ := holds_of_known (hknown e he) hkey
        exact ⟨o.trailLength, Value.number?_eq_some_iff.mpr ⟨hvalue.symm, ho.trailLength_le⟩⟩
    refine ⟨⟨row, centered, trail⟩, fill?_eq_some_iff.mpr ⟨hrow, hcentered, htrail, fun _ e he => ?_⟩⟩
    obtain ⟨s, hs, -⟩ := hknown e he
    exact isKnown_eq_true_iff.mpr ⟨s, hs⟩
  value_of_mem := by
    intro d table o e s hfill hkeys he hkey
    obtain ⟨hrow, hcentered, htrail, -⟩ := fill?_eq_some_iff.mp hfill
    cases s with
    | startRow =>
        rw [field?_of_mem hkeys he hkey] at hrow
        exact (Value.number?_eq_some_iff.mp hrow).1.symm
    | centered =>
        rw [field?_of_mem hkeys he hkey] at hcentered
        exact (Value.switch?_eq_some_iff.mp hcentered).symm
    | trailLength =>
        rw [field?_of_mem hkeys he hkey] at htrail
        exact (Value.number?_eq_some_iff.mp htrail).1.symm
  value_of_missing := by
    intro d base table o s hfill hbase hmissing
    obtain ⟨hrow, hcentered, htrail, -⟩ := fill?_eq_some_iff.mp hfill
    cases s with
    | startRow =>
        rw [field?_of_missing hmissing, hbase] at hrow
        exact congrArg (fun n : Nat => Value.integer n) (Option.some.inj hrow).symm
    | centered =>
        rw [field?_of_missing hmissing, hbase] at hcentered
        exact congrArg Value.boolean (Option.some.inj hcentered).symm
    | trailLength =>
        rw [field?_of_missing hmissing, hbase] at htrail
        exact congrArg (fun n : Nat => Value.integer n) (Option.some.inj htrail).symm
  refuses_unknown := by
    intro d table e hd he hunknown
    refine Option.eq_none_iff_forall_ne_some.mpr fun o hfill => ?_
    obtain ⟨-, -, -, hknown⟩ := fill?_eq_some_iff.mp hfill
    obtain ⟨s, hs⟩ := isKnown_eq_true_iff.mp (hknown hd e he)
    exact hunknown s hs

end Document

end ModalCursor
