import ModalCursor.Proofs.Continuations
import ModalCursor.Proofs.Reachable
/-!
# ModalCursor.Proofs.Listening

**Which keys a session takes up.** Before keys are read they pass a filter of two tables: `isMotionKey`, the keys
that a command can start with, and `awaitsTarget`, the pending keys after which any key is taken. Both tables say
what the reading says:

* after a count, the motion keys are the ones that do not make the keys invalid (`isMotionKey_iff_after_count`);
* a target is awaited where every key completes a command (`awaitsTarget_iff`).

So the filter never holds back a key that the reading could use. The one case that the filter lets through and the
reading refuses is a motion key after a lone `g` (`Session.feed_eq_rejected_iff`).
-/

namespace ModalCursor

/-! ### The keys that a command can start with -/

/-- Every motion key is a digit, an action by itself, or waits for another key. -/
theorem isMotionKey_cases {key : Char} (h : isMotionKey key = true) :
    key.isDigit = true ∨ key = 'G' ∨ needsAnother key = true ∨ ∃ a, Action.ofKey? key = some a := by
  have hall : "jkhlgGweb^$fFtT\x7b\x7dm\x27\x60".toList.all
      (fun k => k = 'G' || needsAnother k || (Action.ofKey? k).isSome) = true := by decide
  rw [isMotionKey, Bool.or_eq_true, List.contains_iff_mem] at h
  rcases h with hdigit | hmem
  · exact Or.inl hdigit
  · have hkey := List.all_eq_true.mp hall key hmem
    simp only [Bool.or_eq_true, decide_eq_true_eq, Option.isSome_iff_exists, or_assoc] at hkey
    exact Or.inr hkey

namespace Reading

variable {keys count : Keys} {key : Char} {n : Option Nat}

theorem ofKey_ne_invalid (h : isMotionKey key = true) (hdigit : key.isDigit = false) :
    ofKey n key ≠ .invalid := by
  rcases isMotionKey_cases h with hd | rfl | hneeds | ⟨a, ha⟩
  · simp [hdigit] at hd
  · simp [ofKey]
  · rw [ofKey_eq_incomplete_iff.mpr ⟨hneeds, rfl⟩]
    simp
  · rw [ofKey, ha]
    split
    · simp
    · split <;> simp [ofAction?]

/-- After a count, in particular after none, the motion keys are the ones that do not make the keys invalid. -/
theorem isMotionKey_iff_after_count (hcount : IsCount count) (key : Char) :
    isMotionKey key = true ↔ ofKeys (count ++ [key]) ≠ .invalid := by
  rcases ofKeys_count_snoc hcount key with ⟨hdigit, hlonger⟩ | ⟨hdigit, hread⟩
  · have hvalid : ofKeys (count ++ [key]) ≠ .invalid := by
      rw [ofKeys_count hlonger]
      split <;> simp
    exact ⟨fun _ => hvalid, fun _ => isMotionKey_of_isDigit hdigit⟩
  · rw [hread]
    exact ⟨fun h => ofKey_ne_invalid h hdigit, isMotionKey_of_ofKey⟩

/-! ### The keys after which a target is awaited -/

theorem awaitsTarget_count (hcount : IsCount count) : awaitsTarget count = false := by
  have hnone : count.dropWhile Char.isDigit = [] := List.dropWhile_eq_nil_iff.mpr hcount
  rw [awaitsTarget, hnone]

/-- Invert the wait for a target: there is a count, and a key that takes one. -/
theorem awaitsTarget_inv (h : awaitsTarget keys = true) :
    ∃ count key, IsCount count ∧ key.isDigit = false ∧ takesTarget key = true ∧ keys = count ++ [key] := by
  unfold awaitsTarget at h
  split at h
  · next key hrest =>
      have hkey : key.isDigit = false := isDigit_of_needsAnother (needsAnother_iff.mpr (Or.inr h))
      refine ⟨keys.takeWhile Char.isDigit, key, fun d hd => List.mem_takeWhile_imp hd, hkey, h, ?_⟩
      rw [← hrest, List.takeWhile_append_dropWhile]
  · simp at h

/-- A target is awaited just where any key completes a command. -/
theorem awaitsTarget_iff (keys : Keys) :
    awaitsTarget keys = true ↔ ∀ target, ∃ c, ofKeys (keys ++ [target]) = .complete c := by
  constructor
  · intro h target
    obtain ⟨count, key, hcount, hkey, htakes, rfl⟩ := awaitsTarget_inv h
    rw [List.append_assoc, List.singleton_append, ofKeys_pair hcount hkey]
    exact ofPair_of_takesTarget htakes _ target
  · intro h
    -- No command starts with `x`, so only a wait for a target can make it complete one.
    obtain ⟨c, hc⟩ := h 'x'
    have hvalid : ofKeys (keys ++ ['x']) ≠ .invalid := by simp [hc]
    rcases listened_of_snoc hvalid with hmotion | hawaits
    · simp [isMotionKey] at hmotion
    · exact hawaits

/-! ### Pending keys that one key more makes invalid -/

/-- After two keys of which the first needs the other, only a `g` without its double is invalid. -/
theorem ofPair_eq_invalid_iff (h : needsAnother key = true) (n : Option Nat) (target : Char) :
    ofPair n key target = .invalid ↔ key = 'g' ∧ target ≠ 'g' := by
  rcases needsAnother_iff.mp h with rfl | htakes
  · by_cases htarget : target = 'g'
    · simp [ofPair, htarget]
    · simp [ofPair, htarget, Action.ofTarget?, ofAction?]
  · obtain ⟨c, hc⟩ := ofPair_of_takesTarget htakes n target
    simp [hc, ne_g_of_takesTarget htakes]

end Reading

/-- Unfinished keys are made invalid in two ways: by a key other than `g` after a `g`, and after a count by a key
that no command starts with. -/
theorem Keys.Unfinished.snoc_eq_invalid_iff {keys : Keys} {key : Char} (h : keys.Unfinished) :
    Reading.ofKeys (keys ++ [key]) = .invalid ↔
      (keys.getLast? = some 'g' ∧ key ≠ 'g') ∨ (IsCount keys ∧ isMotionKey key = false) := by
  obtain ⟨count, rest, rfl, hcount, -, rfl | ⟨first, hneeds, rfl⟩⟩ := h
  · have hlast : count.getLast? ≠ some 'g' := by
      intro hg
      have hdigit := hcount 'g' (List.mem_of_getLast? hg)
      simp at hdigit
    have hmotion : Reading.ofKeys (count ++ [key]) = .invalid ↔ isMotionKey key = false := by
      rw [← Bool.not_eq_true, Reading.isMotionKey_iff_after_count hcount, not_not]
    rw [List.append_nil, hmotion]
    simp [hlast, hcount]
  · have hdigit := isDigit_of_needsAnother hneeds
    have hnot : ¬ IsCount (count ++ [first]) := by
      intro hall
      simp [hall first (by simp)] at hdigit
    rw [List.append_assoc, List.singleton_append, Reading.ofKeys_pair hcount hdigit,
      Reading.ofPair_eq_invalid_iff hneeds]
    simp [hnot]

/-! ### Sessions -/

namespace Session

variable {s : Session} {key : Char}

theorem feed_of_ignored (h : (s.feed key).2 = .ignored) :
    (s.feed key).1 = s ∧ Reading.ofKeys (s.pending ++ [key]) = .invalid := by
  have hstep := s.keyStep key
  generalize s.feed key = r at *
  cases hstep with
  | ignored hdeaf =>
      refine ⟨rfl, ?_⟩
      by_contra hvalid
      simp [takes_of_ne_invalid hvalid] at hdeaf
  | _ => simp at h

/-- A key is rejected if it is taken up and the pending keys come to nothing with it. -/
theorem feed_eq_rejected_iff_takes (s : Session) (key : Char) :
    (s.feed key).2 = .rejected ↔
      s.takes key = true ∧ Reading.ofKeys (s.pending ++ [key]) = .invalid := by
  have hstep := s.keyStep key
  generalize s.feed key = r at *
  cases hstep with
  | ignored hdeaf => simp [hdeaf]
  | pending hread => simp [hread]
  | rejected htakes hread => simp [htakes, hread]
  | executed hread => simp [hread]

/-- In a sound session only a motion key other than `g` after a `g` is rejected: after a count what is taken up is
never invalid, and a target is never refused. -/
theorem Sound.feed_eq_rejected_iff (h : s.Sound) (key : Char) :
    (s.feed key).2 = .rejected ↔
      s.pending.getLast? = some 'g' ∧ isMotionKey key = true ∧ key ≠ 'g' := by
  rw [feed_eq_rejected_iff_takes, takes, Bool.or_eq_true, h.pending_unfinished.snoc_eq_invalid_iff]
  constructor
  · rintro ⟨htakes, ⟨hlast, hkey⟩ | ⟨hcount, hkey⟩⟩
    · refine ⟨hlast, ?_, hkey⟩
      rcases htakes with hmotion | hawaits
      · exact hmotion
      · -- The key before would have to be a `g` and to take a target.
        obtain ⟨count, first, -, -, htarget, hpending⟩ := Reading.awaitsTarget_inv hawaits
        rw [hpending, List.getLast?_concat, Option.some.injEq] at hlast
        exact absurd hlast (ne_g_of_takesTarget htarget)
    · simp [hkey, Reading.awaitsTarget_count hcount] at htakes
  · rintro ⟨hlast, hmotion, hkey⟩
    exact ⟨Or.inl hmotion, Or.inl ⟨hlast, hkey⟩⟩

/-- **The filter and the reading agree.** A key can start a command just when it is not invalid by itself, and a
target is awaited just when every key completes a command. So a key is ignored, and the session left as it was,
only if the pending keys are invalid with it; and a key is rejected just when it is a motion key other than `g`
and a `g` stands before it. -/
theorem filter_agrees_with_reading {s : Session} (hs : s.Reachable) (key : Char) :
    (∀ k, isMotionKey k = true ↔ Reading.ofKeys [k] ≠ .invalid) ∧
      (∀ keys, awaitsTarget keys = true ↔
        ∀ target, ∃ c, Reading.ofKeys (keys ++ [target]) = .complete c) ∧
      ((s.feed key).2 = .ignored →
        (s.feed key).1 = s ∧ Reading.ofKeys (s.pending ++ [key]) = .invalid) ∧
      ((s.feed key).2 = .rejected ↔
        s.pending.getLast? = some 'g' ∧ isMotionKey key = true ∧ key ≠ 'g') := by
  have hnone : IsCount [] := by simp [IsCount]
  exact ⟨Reading.isMotionKey_iff_after_count hnone, Reading.awaitsTarget_iff, feed_of_ignored,
    hs.sound.feed_eq_rejected_iff key⟩

/-- After `2g` a motion key is rejected, and a key that is none is ignored and leaves the `2g` standing. -/
theorem filter_agrees_with_reading_g :
    let s := (start (.ofWhole ['a', '\n', 'b']) {}).performAll [.key '2', .key 'g']
    (s.feed 'k').2 = .rejected ∧ (s.feed 'x').1 = s := by
  intro s
  have hs : s.Reachable := (Reachable.start _ _).performAll _
  obtain ⟨-, -, -, hrejected⟩ := filter_agrees_with_reading hs 'k'
  obtain ⟨-, -, hignored, -⟩ := filter_agrees_with_reading hs 'x'
  exact ⟨hrejected.mpr (by decide), (hignored (by decide)).1⟩

end Session

end ModalCursor
