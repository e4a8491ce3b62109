import ModalCursor.Command.Reading
import Mathlib.Data.List.Basic
import Mathlib.Data.List.TakeWhile
/-!
# ModalCursor.Proofs.Prefixes

**Readings one key at a time.** A session reads its pending keys again at every key, so what matters about
`Reading.ofKeys` is how the reading of `keys ++ [key]` follows from that of `keys`.

* `Shape` sorts runs of keys by what stands after the count, with the reading of each shape.
* `Reading.incomplete_of_snoc`: a run that is not invalid has only incomplete runs before it, `0` apart.
* `Reading.listened_of_snoc`: every key of such a run is one that a session takes up.
* `Keys.Unfinished` says in plain terms which keys can stand pending; they are the incomplete runs that do not
  begin with `0`.
-/

namespace ModalCursor

/-- A possibly empty run of decimal digits. -/
def IsCount (keys : Keys) : Prop := ∀ d ∈ keys, d.isDigit = true

/-- A key that is no command alone: it takes a target, or waits for its double. -/
def needsAnother (key : Char) : Bool := "gfFtTm\x27\x60".toList.contains key

/-- Keys that can stand pending: a count that does not begin with `0`, possibly empty, and after it at most one
key, which needs another. -/
def Keys.Unfinished (keys : Keys) : Prop :=
  ∃ count rest : Keys, keys = count ++ rest ∧ IsCount count ∧ count.head? ≠ some '0' ∧
    (rest = [] ∨ ∃ key, needsAnother key = true ∧ rest = [key])

theorem needsAnother_iff {key : Char} :
    needsAnother key = true ↔ key = 'g' ∨ takesTarget key = true := by
  simp [needsAnother, takesTarget]

theorem isDigit_of_needsAnother {key : Char} (h : needsAnother key = true) : key.isDigit = false := by
  have hall : "gfFtTm\x27\x60".toList.all (fun k => !k.isDigit) = true := by decide
  simpa using List.all_eq_true.mp hall key (List.contains_iff_mem.mp h)

/-! ### Single keys and pairs -/

theorem isMotionKey_of_isDigit {key : Char} (h : key.isDigit = true) : isMotionKey key = true := by
  simp [isMotionKey, h]

theorem isMotionKey_of_needsAnother {key : Char} (h : needsAnother key = true) :
    isMotionKey key = true := by
  have hall : "gfFtTm\x27\x60".toList.all isMotionKey = true := by decide
  exact List.all_eq_true.mp hall key (List.contains_iff_mem.mp h)

theorem Action.isMotionKey_of_ofKey? {key : Char} {a : Action} (h : Action.ofKey? key = some a) :
    isMotionKey key = true := by
  unfold Action.ofKey? Motion.ofKey? at h
  split at h
  · rfl
  · rfl
  · split at h <;> first | rfl | simp at h

theorem Action.takesTarget_of_ofTarget? {key target : Char} {a : Action}
    (h : Action.ofTarget? key target = some a) : takesTarget key = true := by
  unfold Action.ofTarget? at h
  split at h <;> first | rfl | simp at h

namespace Reading

/-- A key after a count is incomplete just when it needs another key, and then the count is kept. -/
theorem ofKey_eq_incomplete_iff {count n : Option Nat} {key : Char} :
    ofKey count key = .incomplete n ↔ needsAnother key = true ∧ n = count := by
  rw [needsAnother_iff, ofKey]
  by_cases hG : key = 'G'
  · subst hG
    simp [takesTarget]
  · by_cases hopen : key = 'g' ∨ takesTarget key = true
    · rw [if_neg hG, if_pos hopen, Reading.incomplete.injEq]
      exact ⟨fun h => ⟨hopen, h.symm⟩, fun h => h.2.symm⟩
    · rw [if_neg hG, if_neg hopen]
      cases Action.ofKey? key <;> simp [ofAction?, hopen]

theorem isMotionKey_of_ofKey {count : Option Nat} {key : Char} (h : ofKey count key ≠ .invalid) :
    isMotionKey key = true := by
  rw [ofKey] at h
  by_cases hG : key = 'G'
  · subst hG
    rfl
  · by_cases hopen : key = 'g' ∨ takesTarget key = true
    · exact isMotionKey_of_needsAnother (needsAnother_iff.mpr hopen)
    · rw [if_neg hG, if_neg hopen] at h
      cases ha : Action.ofKey? key with
      | none => simp [ha, ofAction?] at h
      | some a => exact Action.isMotionKey_of_ofKey? ha

/-- Two keys after a count are a command or invalid, never a beginning. -/
theorem ofPair_ne_incomplete {count n : Option Nat} {key target : Char} :
    ofPair count key target ≠ .incomplete n := by
  rw [ofPair]
  split
  · simp
  · cases Action.ofTarget? key target <;> simp [ofAction?]

/-- Two keys after a count that are a command are a double `g`, or a key and its target. -/
theorem eq_g_or_takesTarget_of_ofPair {count : Option Nat} {key target : Char}
    (h : ofPair count key target ≠ .invalid) :
    (key = 'g' ∧ target = 'g') ∨ takesTarget key = true := by
  rw [ofPair] at h
  split at h
  · next hgg => exact Or.inl hgg
  · cases ha : Action.ofTarget? key target with
    | none => simp [ha, ofAction?] at h
    | some a => exact Or.inr (Action.takesTarget_of_ofTarget? ha)

/-! ### The shapes of a run of keys -/

/-- What follows the count decides how a run of keys is read. -/
theorem ofKeys_append {count rest : Keys} (hcount : IsCount count)
    (hrest : ∀ key ∈ rest.head?, key.isDigit = false) :
    ofKeys (count ++ rest) = ofCounted count rest := by
  have htake : rest.takeWhile Char.isDigit = [] := by
    cases rest with
    | nil => rfl
    | cons key rest => simp [hrest key (by simp)]
  have hdrop : rest.dropWhile Char.isDigit = rest := by
    cases rest with
    | nil => rfl
    | cons key rest => simp [hrest key (by simp)]
  rw [ofKeys, List.takeWhile_append_of_pos hcount, List.dropWhile_append_of_pos hcount, htake, hdrop,
    List.append_nil]

/-- The four forms that a run of keys can have: a count alone, or one, two or more keys after it. -/
inductive Shape : Keys → Prop
  | count {count : Keys} (hcount : IsCount count) : Shape count
  | key {count : Keys} {key : Char} (hcount : IsCount count) (hkey : key.isDigit = false) :
      Shape (count ++ [key])
  | pair {count : Keys} {key target : Char} (hcount : IsCount count) (hkey : key.isDigit = false) :
      Shape (count ++ [key, target])
  | long {count : Keys} {key target extra : Char} {more : Keys} (hcount : IsCount count)
      (hkey : key.isDigit = false) : Shape (count ++ key :: target :: extra :: more)

theorem shape (keys : Keys) : Shape keys := by
  have hcount : IsCount (keys.takeWhile Char.isDigit) := fun d hd => List.mem_takeWhile_imp hd
  have hrest := List.head?_dropWhile_not Char.isDigit keys
  have hsplit := List.takeWhile_append_dropWhile (p := Char.isDigit) (l := keys)
  generalize keys.takeWhile Char.isDigit = count at *
  generalize keys.dropWhile Char.isDigit = rest at *
  subst hsplit
  match rest with
  | [] =>
      rw [List.append_nil]
      exact .count hcount
  | [key] => exact .key hcount hrest
  | [key, target] => exact .pair hcount hrest
  | key :: target :: extra :: more => exact .long hcount hrest

theorem ofKeys_count {count : Keys} (hcount : IsCount count) :
    ofKeys count = if count = ['0'] then .complete ⟨.lineStart, none⟩ else .incomplete (count? count) := by
  have h := @ofKeys_append count [] hcount (by simp)
  rw [List.append_nil] at h
  exact h

theorem ofKeys_key {count : Keys} {key : Char} (hcount : IsCount count) (hkey : key.isDigit = false) :
    ofKeys (count ++ [key]) = ofKey (count? count) key :=
  ofKeys_append hcount (by simpa using hkey)

theorem ofKeys_pair {count : Keys} {key target : Char} (hcount : IsCount count)
    (hkey : key.isDigit = false) : ofKeys (count ++ [key, target]) = ofPair (count? count) key target :=
  ofKeys_append hcount (by simpa using hkey)

theorem ofKeys_long {count : Keys} {key target extra : Char} {more : Keys} (hcount : IsCount count)
    (hkey : key.isDigit = false) : ofKeys (count ++ key :: target :: extra :: more) = .invalid :=
  ofKeys_append hcount (by simpa using hkey)

/-- A count grows by a digit; any other key ends it. -/
theorem ofKeys_count_snoc {count : Keys} (hcount : IsCount count) (key : Char) :
    (key.isDigit = true ∧ IsCount (count ++ [key])) ∨
      (key.isDigit = false ∧ ofKeys (count ++ [key]) = ofKey (count? count) key) := by
  cases hkey : key.isDigit with
  | true =>
      refine Or.inl ⟨rfl, fun d hd => ?_⟩
      rcases List.mem_append.mp hd with hd | hd
      · exact hcount d hd
      · rw [List.mem_singleton.mp hd]
        exact hkey
  | false => exact Or.inr ⟨rfl, ofKeys_key hcount hkey⟩

/-! ### One key more -/

/-- No key can follow two keys after a count. -/
theorem ofKeys_pair_snoc {count more : Keys} {key target extra : Char} (hcount : IsCount count)
    (hkey : key.isDigit = false) : ofKeys (count ++ key :: target :: more ++ [extra]) = .invalid := by
  rw [List.append_assoc, List.cons_append, List.cons_append]
  cases more with
  | nil => exact ofKeys_long hcount hkey
  | cons _ _ => exact ofKeys_long hcount hkey

/-- Invert a run that is not invalid at its last key: before it stands a count, or a count and a first key with
which it makes a pair. -/
theorem snoc_inv {keys : Keys} {key : Char} (h : ofKeys (keys ++ [key]) ≠ .invalid) :
    IsCount keys ∨
      ∃ count first, IsCount count ∧ first.isDigit = false ∧ keys = count ++ [first] ∧
        ((first = 'g' ∧ key = 'g') ∨ takesTarget first = true) := by
  cases shape keys with
  | count hcount => exact Or.inl hcount
  | @key count first hcount hfirst =>
      rw [List.append_assoc, List.singleton_append, ofKeys_pair hcount hfirst] at h
      exact Or.inr ⟨count, first, hcount, hfirst, rfl, eq_g_or_takesTarget_of_ofPair h⟩
  | pair hcount hfirst => exact absurd (ofKeys_pair_snoc hcount hfirst) h
  | long hcount hfirst => exact absurd (ofKeys_pair_snoc hcount hfirst) h

/-- Before the last key of a run that is not invalid, the run was incomplete. The only command that can go on is
`0`, which a further key turns into a count. -/
theorem incomplete_of_snoc {keys : Keys} {key : Char} (h : ofKeys (keys ++ [key]) ≠ .invalid)
    (hzero : keys ≠ ['0']) : ∃ n, ofKeys keys = .incomplete n := by
  rcases snoc_inv h with hcount | ⟨count, first, hcount, hfirst, rfl, hpair⟩
  · rw [ofKeys_count hcount, if_neg hzero]
    exact ⟨_, rfl⟩
  · have hopen : needsAnother first = true := by
      rcases hpair with ⟨hg, -⟩ | htarget
      · exact needsAnother_iff.mpr (Or.inl hg)
      · exact needsAnother_iff.mpr (Or.inr htarget)
    rw [ofKeys_key hcount hfirst]
    exact ⟨_, ofKey_eq_incomplete_iff.mpr ⟨hopen, rfl⟩⟩

/-- The last key of a run that is not invalid can start a command, or the keys before it take a target. -/
theorem listened_of_snoc {keys : Keys} {key : Char} (h : ofKeys (keys ++ [key]) ≠ .invalid) :
    isMotionKey key = true ∨ awaitsTarget keys = true := by
  rcases snoc_inv h with hcount | ⟨count, first, hcount, hfirst, rfl, hpair⟩
  · rcases ofKeys_count_snoc hcount key with ⟨hdigit, -⟩ | ⟨-, hread⟩
    · exact Or.inl (isMotionKey_of_isDigit hdigit)
    · rw [hread] at h
      exact Or.inl (isMotionKey_of_ofKey h)
  · rcases hpair with ⟨-, hg⟩ | htarget
    · subst hg
      exact Or.inl rfl
    · -- A target can be any character, so only the keys before it tell that it is listened to.
      refine Or.inr ?_
      rw [awaitsTarget, List.dropWhile_append_of_pos hcount]
      simpa [hfirst] using htarget

end Reading

/-! ### Pending keys -/

namespace Keys.Unfinished

theorem nil : Keys.Unfinished [] :=
  ⟨[], [], rfl, by simp [IsCount], by simp, Or.inl rfl⟩

theorem isMotionKey_of_mem {keys : Keys} (h : keys.Unfinished) : ∀ key ∈ keys, isMotionKey key = true := by
  obtain ⟨count, rest, rfl, hcount, -, hrest⟩ := h
  rw [List.forall_mem_append]
  refine ⟨fun key hkey => isMotionKey_of_isDigit (hcount key hkey), ?_⟩
  rcases hrest with rfl | ⟨key, hkey, rfl⟩
  · nofun
  · simpa using isMotionKey_of_needsAnother hkey

/-- Unfinished keys are the incomplete ones that do not begin with `0`. -/
theorem iff_incomplete {keys : Keys} :
    keys.Unfinished ↔ keys.head? ≠ some '0' ∧ ∃ n, Reading.ofKeys keys = .incomplete n := by
  constructor
  · rintro ⟨count, rest, rfl, hcount, hzero, rfl | ⟨key, hkey, rfl⟩⟩
    · rw [List.append_nil, Reading.ofKeys_count hcount, if_neg (fun h => hzero (by rw [h]; rfl))]
      exact ⟨hzero, _, rfl⟩
    · have hdigit := isDigit_of_needsAnother hkey
      rw [Reading.ofKeys_key hcount hdigit]
      refine ⟨?_, _, Reading.ofKey_eq_incomplete_iff.mpr ⟨hkey, rfl⟩⟩
      cases count with
      | nil =>
          rintro h
          obtain rfl : key = '0' := by simpa using h
          simp at hdigit
      | cons d count => simpa using hzero
  · rintro ⟨hzero, n, hn⟩
    cases Reading.shape keys with
    | count hcount => exact ⟨keys, [], (List.append_nil keys).symm, hcount, hzero, Or.inl rfl⟩
    | @key count key hcount hkey =>
        rw [Reading.ofKeys_key hcount hkey] at hn
        refine ⟨count, [key], rfl, hcount, fun h => hzero ?_,
          Or.inr ⟨key, (Reading.ofKey_eq_incomplete_iff.mp hn).1, rfl⟩⟩
        cases count with
        | nil => simp at h
        | cons d count => simpa using h
    | pair hcount hkey =>
        rw [Reading.ofKeys_pair hcount hkey] at hn
        exact absurd hn Reading.ofPair_ne_incomplete
    | long hcount hkey =>
        rw [Reading.ofKeys_long hcount hkey] at hn
        simp at hn

theorem incomplete {keys : Keys} (h : keys.Unfinished) : ∃ n, Reading.ofKeys keys = .incomplete n :=
  (iff_incomplete.mp h).2

/-- The keys before the last of a run that is not invalid are unfinished, if they do not begin with `0`. -/
theorem of_snoc {keys : Keys} {key : Char} (h : Reading.ofKeys (keys ++ [key]) ≠ .invalid)
    (hzero : keys.head? ≠ some '0') : keys.Unfinished :=
  iff_incomplete.mpr ⟨hzero, Reading.incomplete_of_snoc h fun h0 => hzero (by rw [h0]; rfl)⟩

/-- Unfinished keys that stay incomplete with one key more stay unfinished: `0` alone is a command, so no count
comes to begin with it. -/
theorem snoc {keys : Keys} {key : Char} {n : Option Nat} (h : keys.Unfinished)
    (hn : Reading.ofKeys (keys ++ [key]) = .incomplete n) : (keys ++ [key]).Unfinished := by
  refine iff_incomplete.mpr ⟨?_, n, hn⟩
  cases keys with
  | nil =>
      intro hzero
      obtain rfl : key = '0' := by simpa using hzero
      simp [Reading.ofKeys, Reading.ofCounted] at hn
  | cons first keys => simpa using (iff_incomplete.mp h).1

/-- What has been typed of unfinished keys at any earlier time is unfinished. -/
theorem of_prefix {keys earlier : Keys} (h : keys.Unfinished) (hearlier : earlier <+: keys) :
    earlier.Unfinished := by
  have of_count : ∀ count : Keys, IsCount count → count.head? ≠ some '0' → earlier <+: count →
      earlier.Unfinished := by
    intro count hcount hzero hpre
    refine ⟨earlier, [], (List.append_nil _).symm, fun d hd => hcount d (hpre.subset hd), ?_, Or.inl rfl⟩
    cases earlier with
    | nil => simp
    | cons d earlier =>
        obtain ⟨more, rfl⟩ := hpre
        simpa using hzero
  obtain ⟨count, rest, rfl, hcount, hzero, rfl | ⟨key, hkey, rfl⟩⟩ := h
  · exact of_count count hcount hzero (by simpa using hearlier)
  · rcases List.prefix_concat_iff.mp hearlier with rfl | hpre
    · exact ⟨count, [key], rfl, hcount, hzero, Or.inr ⟨key, hkey, rfl⟩⟩
    · exact of_count count hcount hzero hpre

/-- What has been typed of a command before its last key is unfinished. The exception is a count that begins with
`0`: its first key is a command already. -/
theorem of_complete {keys earlier : Keys} {c : Command} (hread : Reading.ofKeys keys = .complete c)
    (hzero : keys.head? = some '0' → keys = ['0']) (hearlier : earlier <+: keys) (hne : earlier ≠ keys) :
    earlier.Unfinished := by
  obtain rfl | ⟨typed, key, rfl⟩ := List.eq_nil_or_concat' keys
  · exact absurd (List.prefix_nil.mp hearlier) hne
  · have hvalid : Reading.ofKeys (typed ++ [key]) ≠ .invalid := by simp [hread]
    have htyped : Keys.Unfinished typed := by
      refine of_snoc hvalid fun h0 => ?_
      -- A `0` in front would be the whole run, and then nothing is left before the last key.
      have hwhole := hzero (by simp [h0])
      cases typed with
      | nil => simp at h0
      | cons first typed => simp at hwhole
    rcases List.prefix_concat_iff.mp hearlier with hall | hpre
    · exact absurd hall hne
    · exact htyped.of_prefix hpre

end Keys.Unfinished

end ModalCursor
