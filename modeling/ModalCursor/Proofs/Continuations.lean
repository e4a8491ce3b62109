import ModalCursor.Proofs.Prefixes
/-!
# ModalCursor.Proofs.Continuations

**What can still become of keys.** A session waits on incomplete keys, drops invalid ones and executes complete
ones, so each reading is a promise about every run of keys that may follow:

* from invalid keys no command can come any more (`Reading.invalid_append`);
* incomplete keys are one key away from a command (`Reading.complete_of_incomplete`);
* after a command nothing can follow, `0` apart, which a further key makes the beginning of a count
  (`Reading.invalid_append_of_complete`).

The first and the last are `incomplete_of_snoc` taken key by key along what follows.
-/

namespace ModalCursor

theorem ne_g_of_takesTarget {key : Char} (h : takesTarget key = true) : key ≠ 'g' := by
  rintro rfl
  simp [takesTarget] at h

/-- A key that takes a target makes an action with every target. -/
theorem Action.exists_ofTarget? {key : Char} (h : takesTarget key = true) (target : Char) :
    ∃ a, Action.ofTarget? key target = some a := by
  simp only [takesTarget, List.contains_eq_mem, String.reduceToList, List.mem_cons, List.not_mem_nil, or_false,
    decide_eq_true_eq] at h
  rcases h with rfl | rfl | rfl | rfl | rfl | rfl | rfl <;> exact ⟨_, rfl⟩

namespace Reading

variable {keys more : Keys} {key : Char} {n : Option Nat} {c : Command}

/-- With its target, a key that takes one is a command, whatever the target is. -/
theorem ofPair_of_takesTarget (h : takesTarget key = true) (count : Option Nat) (target : Char) :
    ∃ c, ofPair count key target = .complete c := by
  have hg : ¬ (key = 'g' ∧ target = 'g') := fun hgg => ne_g_of_takesTarget h hgg.1
  obtain ⟨a, ha⟩ := Action.exists_ofTarget? h target
  rw [ofPair, if_neg hg, ha]
  exact ⟨_, rfl⟩

/-! ### Nothing follows -/

theorem ne_invalid_of_snoc (h : ofKeys (keys ++ [key]) ≠ .invalid) : ofKeys keys ≠ .invalid := by
  rcases eq_or_ne keys ['0'] with rfl | hzero
  · simp [ofKeys, ofCounted]
  · obtain ⟨n, hn⟩ := incomplete_of_snoc h hzero
    simp [hn]

/-- Invalid keys stay invalid, whatever is typed after them. -/
theorem invalid_append (h : ofKeys keys = .invalid) (more : Keys) : ofKeys (keys ++ more) = .invalid := by
  induction more generalizing keys with
  | nil => rwa [List.append_nil]
  | cons key more ih =>
      have hfirst : ofKeys (keys ++ [key]) = .invalid := by
        by_contra hne
        exact ne_invalid_of_snoc hne h
      rw [List.append_cons]
      exact ih hfirst

/-- A command other than `0` is no beginning of anything longer. -/
theorem invalid_append_of_complete (h : ofKeys keys = .complete c) (hzero : keys ≠ ['0']) (hmore : more ≠ []) :
    ofKeys (keys ++ more) = .invalid := by
  obtain ⟨key, more, rfl⟩ := List.exists_cons_of_ne_nil hmore
  have hfirst : ofKeys (keys ++ [key]) = .invalid := by
    by_contra hne
    -- Keys that one key more does not make invalid are incomplete, and these are complete.
    obtain ⟨n, hn⟩ := incomplete_of_snoc hne hzero
    simp [hn] at h
  rw [List.append_cons]
  exact invalid_append hfirst more

/-! ### A command follows -/

/-- Incomplete keys need only one key more: a motion after a count, the second `g`, or any target. -/
theorem complete_of_incomplete (h : ofKeys keys = .incomplete n) :
    ∃ key c, ofKeys (keys ++ [key]) = .complete c := by
  cases shape keys with
  | count hcount => exact ⟨'j', _, ofKeys_key hcount rfl⟩
  | @key count first hcount hfirst =>
      rw [ofKeys_key hcount hfirst] at h
      simp only [List.append_assoc, List.singleton_append, ofKeys_pair hcount hfirst]
      rcases needsAnother_iff.mp (ofKey_eq_incomplete_iff.mp h).1 with rfl | htakes
      · exact ⟨'g', _, rfl⟩
      · exact ⟨'x', ofPair_of_takesTarget htakes _ 'x'⟩
  | pair hcount hkey =>
      rw [ofKeys_pair hcount hkey] at h
      exact absurd h ofPair_ne_incomplete
  | long hcount hkey =>
      rw [ofKeys_long hcount hkey] at h
      simp at h

theorem eq_invalid_iff (keys : Keys) :
    ofKeys keys = .invalid ↔ ∀ more c, ofKeys (keys ++ more) ≠ .complete c := by
  constructor
  · intro h more c hc
    simp [invalid_append h more] at hc
  · intro h
    cases hread : ofKeys keys with
    | invalid => rfl
    | incomplete n =>
        obtain ⟨key, c, hc⟩ := complete_of_incomplete hread
        exact absurd hc (h [key] c)
    | complete c =>
        -- A command is already there with nothing typed after it.
        refine absurd ?_ (h [] c)
        rwa [List.append_nil]

theorem incomplete_iff (keys : Keys) :
    (∃ n, ofKeys keys = .incomplete n) ↔
      (∀ c, ofKeys keys ≠ .complete c) ∧ ∃ more c, more ≠ [] ∧ ofKeys (keys ++ more) = .complete c := by
  constructor
  · rintro ⟨n, hn⟩
    obtain ⟨key, c, hc⟩ := complete_of_incomplete hn
    exact ⟨fun c => by simp [hn], [key], c, List.cons_ne_nil _ _, hc⟩
  · rintro ⟨hnone, more, c, -, hc⟩
    cases hread : ofKeys keys with
    | incomplete n => exact ⟨n, rfl⟩
    | invalid => simp [invalid_append hread more] at hc
    | complete d => exact absurd hread (hnone d)

/-- **Readings tell what can follow.** Keys are invalid just when no run of keys after them makes a command, the
empty run included. They are incomplete just when they are no command themselves and some run of keys after them
makes one. And keys that are a command other than `0` are invalid with any further key. -/
theorem ofKeys_tells_what_follows (keys : Keys) :
    (ofKeys keys = .invalid ↔ ∀ more c, ofKeys (keys ++ more) ≠ .complete c) ∧
      ((∃ n, ofKeys keys = .incomplete n) ↔
        (∀ c, ofKeys keys ≠ .complete c) ∧ ∃ more c, more ≠ [] ∧ ofKeys (keys ++ more) = .complete c) ∧
      ((∃ c, ofKeys keys = .complete c) → keys ≠ ['0'] →
        ∀ more, more ≠ [] → ofKeys (keys ++ more) = .invalid) := by
  refine ⟨eq_invalid_iff keys, incomplete_iff keys, ?_⟩
  intro hcomplete hzero more hmore
  obtain ⟨c, hc⟩ := hcomplete
  exact invalid_append_of_complete hc hzero hmore

end Reading

end ModalCursor
