import ModalCursor.Proofs.Counts
/-!
# ModalCursor.Proofs.Grammar

**Which keys are a command.** `Spells keys c` is the grammar of commands, written down without reference to how
keys are read: `0` alone, or a count and then one of the phrases of `Phrase`. The count is a run of digits of any
length, and its value is the decimal one, held at the largest number of 64 bits.

`Reading.ofKeys` accepts exactly this language. Soundness goes through the two tables of keys, `Action.ofKey?` and
`Action.ofTarget?`: every entry is a phrase (`Phrase.of_ofKey?`, `Phrase.of_ofTarget?`). Completeness goes through
the phrases, each of which is read as its command (`Phrase.ofKeys_eq`).
-/

namespace ModalCursor

/-- The value of a run of decimal digits, at most the largest number of 64 bits. -/
def Keys.number (digits : Keys) : Nat := min (Nat.ofDigitChars 10 digits 0) (UInt64.size - 1)

/-- The keys that end a command after the digits of its count. -/
inductive Phrase (count : Keys) : Keys → Command → Prop
  /-- A motion is repeated by the count, once at least. -/
  | motion (m : Motion) : Phrase count m.keys ⟨.move m, some (max 1 count.number)⟩
  | firstNonBlank : Phrase count ['^'] ⟨.firstNonBlank, none⟩
  | lineEnd : Phrase count ['$'] ⟨.lineEnd, none⟩
  | last (hnone : count = []) : Phrase count ['G'] ⟨.last, none⟩
  | first (hnone : count = []) : Phrase count ['g', 'g'] ⟨.first, none⟩
  /-- With a count, even one of zero, both go to the row that it names. -/
  | goto {rest : Keys} (hsome : count ≠ []) (hrest : rest = ['G'] ∨ rest = ['g', 'g']) :
      Phrase count rest ⟨.goto, some count.number⟩
  | setMark (name : Char) : Phrase count ['m', name] ⟨.setMark name, none⟩
  | jumpToMark (name : Char) : Phrase count ['\x60', name] ⟨.jumpToMark name, none⟩
  | jumpToMarkLine (name : Char) (hname : name ≠ '\x27') :
      Phrase count ['\x27', name] ⟨.jumpToMarkLine name, none⟩
  | jumpPrevLine : Phrase count ['\x27', '\x27'] ⟨.jumpPrevLine, none⟩

/-- The keys spell the command. -/
def Spells (keys : Keys) (c : Command) : Prop :=
  (keys = ['0'] ∧ c = ⟨.lineStart, none⟩) ∨
    ∃ count rest, keys = count ++ rest ∧ IsCount count ∧ Phrase count rest c

/-! ### Counts -/

namespace Reading

/-- Holding a count digit by digit at the largest number gives its true value, held there. -/
theorem count?_of_ne_nil {digits : Keys} (h : digits ≠ []) : count? digits = some digits.number := by
  rw [count?, if_neg h, Numeral.saturating_eq_min]
  rfl

end Reading

theorem Action.counted_move (m : Motion) (digits : Keys) :
    (Action.move m).counted (Reading.count? digits) = ⟨.move m, some (max 1 digits.number)⟩ := by
  rcases eq_or_ne digits [] with rfl | hsome
  · rfl
  · rw [Reading.count?_of_ne_nil hsome]
    rfl

/-! ### The tables of keys -/

theorem Motion.keys_of_ofKey? {key : Char} {m : Motion} (h : Motion.ofKey? key = some m) : m.keys = [key] := by
  unfold Motion.ofKey? at h
  split at h <;> cases h <;> rfl

namespace Phrase

variable {count rest : Keys} {key target : Char} {a : Action} {c : Command}

/-- A single key's action, with the count before it. -/
theorem of_ofKey? (h : Action.ofKey? key = some a) :
    Phrase count [key] (a.counted (Reading.count? count)) := by
  unfold Action.ofKey? at h
  split at h
  · cases h
    exact .firstNonBlank
  · cases h
    exact .lineEnd
  · obtain ⟨m, hm, rfl⟩ := Option.map_eq_some_iff.mp h
    rw [Action.counted_move, ← Motion.keys_of_ofKey? hm]
    exact .motion m

/-- The action of a key and its target. Two apostrophes are the only pair whose target decides the action. -/
theorem of_ofTarget? (h : Action.ofTarget? key target = some a) :
    Phrase count [key, target] (a.counted (Reading.count? count)) := by
  have hsearch : ∀ way : Search,
      Phrase count [way.key, target] ((Action.move (.search way target)).counted (Reading.count? count)) := by
    intro way
    rw [Action.counted_move]
    exact .motion (.search way target)
  unfold Action.ofTarget? at h
  split at h
  · cases h
    exact hsearch .findForward
  · cases h
    exact hsearch .findBackward
  · cases h
    exact hsearch .tillForward
  · cases h
    exact hsearch .tillBackward
  · cases h
    exact .setMark target
  · by_cases htarget : target = '\x27'
    · rw [if_pos htarget] at h
      cases h
      rw [htarget]
      exact .jumpPrevLine
    · rw [if_neg htarget] at h
      cases h
      exact .jumpToMarkLine target htarget
  · cases h
    exact .jumpToMark target
  · cases h

theorem toRow_last : Phrase count ['G'] (Command.toRow (Reading.count? count) .last) := by
  rcases eq_or_ne count [] with rfl | hsome
  · exact .last rfl
  · rw [Reading.count?_of_ne_nil hsome]
    exact .goto hsome (Or.inl rfl)

theorem toRow_first : Phrase count ['g', 'g'] (Command.toRow (Reading.count? count) .first) := by
  rcases eq_or_ne count [] with rfl | hsome
  · exact .first rfl
  · rw [Reading.count?_of_ne_nil hsome]
    exact .goto hsome (Or.inr rfl)

/-! ### Reading what the grammar has -/

/-- A phrase after a count is read as its command. -/
theorem ofKeys_eq (hcount : IsCount count) (h : Phrase count rest c) :
    Reading.ofKeys (count ++ rest) = .complete c := by
  cases h with
  | motion m => rw [Reading.ofKeys_motion hcount, Action.counted_move]
  | firstNonBlank | lineEnd => exact Reading.ofKeys_key hcount rfl
  | last hnone | first hnone =>
      subst hnone
      rfl
  | goto hsome hrest =>
      rcases hrest with rfl | rfl
      · rw [Reading.ofKeys_key hcount rfl, Reading.count?_of_ne_nil hsome]
        rfl
      · rw [Reading.ofKeys_pair hcount rfl, Reading.count?_of_ne_nil hsome]
        rfl
  | setMark | jumpToMark | jumpPrevLine => exact Reading.ofKeys_pair hcount rfl
  | jumpToMarkLine name hname =>
      rw [Reading.ofKeys_pair hcount rfl]
      simp [Reading.ofPair, Reading.ofAction?, Action.ofTarget?, hname, Action.counted, Action.isRepeatable]

end Phrase

/-- No phrase begins with `0`, so the count decides whether the whole does. -/
theorem Phrase.head?_ne_zero {count rest : Keys} {c : Command} (h : Phrase count rest c) :
    rest.head? ≠ some '0' := by
  cases h with
  | motion m =>
      cases m with
      | search way ch => cases way <;> simp [Motion.keys, Search.key]
      | _ => simp [Motion.keys]
  | goto _ hrest => rcases hrest with rfl | rfl <;> simp
  | _ => simp

theorem Spells.ofKeys_eq {keys : Keys} {c : Command} (h : Spells keys c) : Reading.ofKeys keys = .complete c := by
  rcases h with ⟨rfl, rfl⟩ | ⟨count, rest, rfl, hcount, hphrase⟩
  · rfl
  · exact hphrase.ofKeys_eq hcount

/-! ### Typing a phrase -/

section Typing

variable {count rest keys : Keys} {c : Command} {s : Session}

theorem Phrase.head?_append_ne_zero (hzero : count.head? ≠ some '0') (h : Phrase count rest c) :
    (count ++ rest).head? ≠ some '0' := by
  cases count with
  | nil => exact h.head?_ne_zero
  | cons d count => simpa using hzero

/-- Typed without pending keys, a phrase executes its command at the last key. -/
theorem Phrase.feedAll_eq (hcount : IsCount count) (hzero : count.head? ≠ some '0') (h : Phrase count rest c)
    (hpending : s.pending = []) : s.feedAll (count ++ rest) = s.execute c := by
  have hread := h.ofKeys_eq hcount
  exact (Session.feedAll_of_complete hpending hread fun h0 => absurd h0 (h.head?_append_ne_zero hzero)).1

/-- Until then the keys only become pending. -/
theorem Phrase.feedAll_earlier (hcount : IsCount count) (hzero : count.head? ≠ some '0') (h : Phrase count rest c)
    (hpending : s.pending = []) (hearlier : keys <+: count ++ rest) (hne : keys ≠ count ++ rest) :
    s.feedAll keys = { s with pending := keys } := by
  have hread := h.ofKeys_eq hcount
  have hunfinished : (s.pending ++ keys).Unfinished := by
    rw [hpending]
    exact .of_complete hread (fun h0 => absurd h0 (h.head?_append_ne_zero hzero)) hearlier hne
  rw [(Session.feedAll_of_unfinished hunfinished).1, hpending, List.nil_append]

/-- A phrase without a count. -/
theorem Phrase.feedAll_uncounted (h : Phrase [] keys c) (hpending : s.pending = []) :
    s.feedAll keys = s.execute c :=
  h.feedAll_eq (by simp [IsCount]) (by simp) hpending

end Typing

/-! ### Only what the grammar has -/

namespace Reading

variable {count : Keys} {key target : Char} {c : Command}

/-- Invert the reading of an action: there was one, and the command is that action with the count. -/
theorem ofAction?_inv {n : Option Nat} {a? : Option Action} (h : ofAction? n a? = .complete c) :
    ∃ a, a? = some a ∧ c = a.counted n := by
  cases a? with
  | none => simp [ofAction?] at h
  | some a =>
      cases h
      exact ⟨a, rfl, rfl⟩

theorem phrase_of_ofKey (h : ofKey (count? count) key = .complete c) : Phrase count [key] c := by
  rw [ofKey] at h
  split at h
  · next hG =>
      cases h
      rw [hG]
      exact .toRow_last
  · split at h
    · simp at h
    · obtain ⟨a, ha, rfl⟩ := ofAction?_inv h
      exact .of_ofKey? ha

theorem phrase_of_ofPair (h : ofPair (count? count) key target = .complete c) :
    Phrase count [key, target] c := by
  rw [ofPair] at h
  split at h
  · next hgg =>
      cases h
      rw [hgg.1, hgg.2]
      exact .toRow_first
  · obtain ⟨a, ha, rfl⟩ := ofAction?_inv h
    exact .of_ofTarget? ha

theorem spells_of_ofKeys {keys : Keys} (h : ofKeys keys = .complete c) : Spells keys c := by
  cases shape keys with
  | count hcount =>
      rw [ofKeys_count hcount] at h
      split at h
      · next hzero =>
          cases h
          exact Or.inl ⟨hzero, rfl⟩
      · simp at h
  | @key count key hcount hkey =>
      rw [ofKeys_key hcount hkey] at h
      exact Or.inr ⟨count, [key], rfl, hcount, phrase_of_ofKey h⟩
  | @pair count key target hcount hkey =>
      rw [ofKeys_pair hcount hkey] at h
      exact Or.inr ⟨count, [key, target], rfl, hcount, phrase_of_ofPair h⟩
  | long hcount hkey =>
      rw [ofKeys_long hcount hkey] at h
      simp at h

/-- What is incomplete shows the count that its leading digits make. -/
theorem count_of_incomplete {digits rest : Keys} {n : Option Nat}
    (h : ofCounted digits rest = .incomplete n) : n = count? digits := by
  match rest with
  | [] =>
      rw [ofCounted] at h
      split at h
      · simp at h
      · cases h
        rfl
  | [key] => exact (ofKey_eq_incomplete_iff.mp h).2
  | [key, target] => exact absurd h ofPair_ne_incomplete
  | key :: target :: extra :: more => simp [ofCounted] at h

/-- **Exactly the grammar is read.** Keys are read as a command just when they spell it. As long as they are
incomplete, the count shown is that of the leading digits: none without digits, and otherwise their value, held at
the largest number of 64 bits. -/
theorem ofKeys_reads_grammar (keys : Keys) :
    (∀ c, ofKeys keys = .complete c ↔ Spells keys c) ∧
      ∀ n, ofKeys keys = .incomplete n →
        n = if keys.takeWhile Char.isDigit = [] then none
          else some (Keys.number (keys.takeWhile Char.isDigit)) := by
  refine ⟨fun c => ⟨spells_of_ofKeys, Spells.ofKeys_eq⟩, fun n hn => ?_⟩
  rw [count_of_incomplete hn]
  split
  · next hnone =>
      rw [hnone]
      rfl
  · next hsome => exact count?_of_ne_nil hsome

/-- The count stays where it is held, however many digits are typed. -/
example : ofKeys "99999999999999999999G".toList = .complete ⟨.goto, some 18446744073709551615⟩ := by decide

end Reading

end ModalCursor
