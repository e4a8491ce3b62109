/-!
# ModalCursor.Text

The two kinds of text in this library. What is **taken apart** (rows, keys, arguments, documents) is a
list of characters; what is **only written out** (messages, transcripts, summaries) is a `String`.
-/

namespace ModalCursor

/-- Text that is read character by character. -/
abbrev Text := List Char

namespace Text

/-- The text without the longest end whose characters all satisfy `p`. -/
def dropEndWhile (p : Char → Bool) (t : Text) : Text :=
  (t.reverse.dropWhile p).reverse

/-- What is dropped from the end is a run of characters that satisfy `p`. -/
theorem exists_append_dropEndWhile (p : Char → Bool) (t : Text) :
    ∃ tail : Text, t = dropEndWhile p t ++ tail ∧ ∀ c ∈ tail, p c = true := by
  refine ⟨(t.reverse.takeWhile p).reverse, ?_, ?_⟩
  · rw [dropEndWhile, ← List.reverse_append, List.takeWhile_append_dropWhile, List.reverse_reverse]
  · intro c hc
    exact List.all_eq_true.mp (List.all_takeWhile (p := p) (l := t.reverse)) c (List.mem_reverse.mp hc)

/-- What is left does not end with a character that satisfies `p`. -/
theorem getLast?_dropEndWhile {p : Char → Bool} {t : Text} {c : Char} (h : (dropEndWhile p t).getLast? = some c) :
    p c = false := by
  rw [dropEndWhile, List.getLast?_reverse] at h
  have hstop := List.head?_dropWhile_not p t.reverse
  rw [h] at hstop
  exact hstop

/-- Nothing is left exactly when every character satisfies `p`. -/
theorem dropEndWhile_eq_nil_iff (p : Char → Bool) (t : Text) :
    dropEndWhile p t = [] ↔ ∀ c ∈ t, p c = true := by
  have drop_nil : ∀ u : Text, u.dropWhile p = [] ↔ ∀ c ∈ u, p c = true := by
    intro u
    induction u with
    | nil => simp
    | cons c u ih => by_cases h : p c <;> simp [h, ih]
  simp [dropEndWhile, drop_nil]

/-! ### The run at the front

A run of characters, or of the members of any other list, such as rows. -/

section Run

variable {α : Type} {p : α → Bool} {t : List α} {i : Nat} {c : α}

/-- The members of the run come first. -/
theorem getElem?_eq_run_append (p : α → Bool) (t : List α) (i : Nat) :
    t[i]? = (t.takeWhile p ++ t.dropWhile p)[i]? := by
  rw [List.takeWhile_append_dropWhile]

theorem getElem?_of_lt_takeWhile (h : i < (t.takeWhile p).length) : ∃ c, t[i]? = some c ∧ p c = true := by
  rw [getElem?_eq_run_append p, List.getElem?_append_left h]
  exact ⟨_, List.getElem?_eq_getElem h, List.all_eq_true.mp List.all_takeWhile _ (List.getElem_mem h)⟩

/-- The member that ends the run, if there is one, does not satisfy `p`. -/
theorem not_of_getElem?_takeWhile (h : t[(t.takeWhile p).length]? = some c) : p c = false := by
  rw [getElem?_eq_run_append p, List.getElem?_append_right (Nat.le_refl _), Nat.sub_self,
    ← List.head?_eq_getElem?] at h
  have hstop := List.head?_dropWhile_not p t
  rw [h] at hstop
  exact hstop

/-- A run at the front can be told from what follows it, if that does not go on with the run. -/
theorem run_append_inj {xs ys u : List α} (hxs : ∀ a ∈ xs, p a = true) (hys : ∀ a ∈ ys, p a = true)
    (ht : ∀ a ∈ t.head?, p a = false) (hu : ∀ a ∈ u.head?, p a = false) (h : xs ++ t = ys ++ u) :
    xs = ys ∧ t = u := by
  have htake {zs v : List α} (hzs : ∀ a ∈ zs, p a = true) (hv : ∀ a ∈ v.head?, p a = false) :
      (zs ++ v).takeWhile p = zs := by
    rw [List.takeWhile_append_of_pos hzs]
    cases v with
    | nil => exact List.append_nil zs
    | cons a v => rw [List.takeWhile_cons_of_neg (by simp [hv a rfl]), List.append_nil]
  have hrun : xs = ys := by rw [← htake hxs ht, h, htake hys hu]
  subst hrun
  exact ⟨rfl, List.append_cancel_left h⟩

end Run

/-! ### The run at the end -/

section EndRun

variable {α : Type} {p : α → Bool} {t : List α} {i : Nat} {c : α}

theorem getElem?_of_le_endRun (hle : t.length ≤ i + (t.reverse.takeWhile p).length) (hlt : i < t.length) :
    ∃ c, t[i]? = some c ∧ p c = true := by
  have hrun : t.length - 1 - i < (t.reverse.takeWhile p).length := by omega
  obtain ⟨c, hc, hp⟩ := getElem?_of_lt_takeWhile hrun
  rw [List.getElem?_reverse (by omega), show t.length - 1 - (t.length - 1 - i) = i by omega] at hc
  exact ⟨c, hc, hp⟩

/-- The member before the run, if there is one, does not satisfy `p`. -/
theorem not_of_getElem?_endRun (hstop : i + 1 + (t.reverse.takeWhile p).length = t.length) (h : t[i]? = some c) :
    p c = false := by
  refine not_of_getElem?_takeWhile (t := t.reverse) ?_
  rw [List.getElem?_reverse (by omega), ← h]
  congr 1
  omega

end EndRun

end Text

end ModalCursor
