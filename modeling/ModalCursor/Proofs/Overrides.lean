import ModalCursor.Proofs.Arguments
import Mathlib.Data.List.Forall2
import Mathlib.Logic.Function.Iterate
/-!
# ModalCursor.Proofs.Overrides

**Arguments in a row.** Whether settings accept an argument does not depend on what they are, so a list of arguments is
accepted if each of them is, and fails at the first that is not. Accepted arguments are a list of changes, made one after
the other (`Settings.applyAll_eq_ok_iff`), and what these lead to is said for each setting apart (`Change.Leads`): a
number is the one that was given last, and the switch is where it was last put, turned over as often as it was flipped
since. Only changes of the same setting see in which order they come.
-/

namespace ModalCursor

namespace Change

variable {changes : List Change} {c d : Change} {s : Setting}

/-! ### Changes in a row -/

/-- Changes of different settings may be made in any order. -/
theorem apply_comm (h : c.setting ≠ d.setting) (o : Settings) : d.apply (c.apply o) = c.apply (d.apply o) := by
  cases c <;> cases d <;> first | rfl | exact absurd rfl h

/-- The settings that changes lead to, one after the other. -/
structure Leads (o : Settings) (changes : List Change) (changed : Settings) : Prop where
  row_given : ∀ before n after, changes = before ++ startRow n :: after → (∀ c ∈ after, c.setting ≠ .startRow) →
    changed.startRow = n
  row_kept : (∀ c ∈ changes, c.setting ≠ .startRow) → changed.startRow = o.startRow
  trail_given : ∀ before n after, changes = before ++ trailLength n :: after →
    (∀ c ∈ after, c.setting ≠ .trailLength) → changed.trailLength = n
  trail_kept : (∀ c ∈ changes, c.setting ≠ .trailLength) → changed.trailLength = o.trailLength
  switch_given : ∀ before on after, changes = before ++ centered on :: after → (∀ v, centered v ∉ after) →
    changed.startCentered = not^[after.count flip] on
  switch_kept : (∀ v, centered v ∉ changes) → changed.startCentered = not^[changes.count flip] o.startCentered

/-- Changes leave a setting alone that none of them is about. -/
theorem foldl_value (h : ∀ c ∈ changes, c.setting ≠ s) (o : Settings) :
    (changes.foldl apply o).value s = o.value s := by
  induction changes generalizing o with
  | nil => rfl
  | cons c changes ih =>
      rw [List.forall_mem_cons] at h
      rw [List.foldl_cons, ih h.2, apply_value h.1.symm]

theorem foldl_startRow (h : ∀ c ∈ changes, c.setting ≠ .startRow) (o : Settings) :
    (changes.foldl apply o).startRow = o.startRow :=
  Int.ofNat.inj (Document.Value.integer.inj (foldl_value h o))

theorem foldl_trailLength (h : ∀ c ∈ changes, c.setting ≠ .trailLength) (o : Settings) :
    (changes.foldl apply o).trailLength = o.trailLength :=
  Int.ofNat.inj (Document.Value.integer.inj (foldl_value h o))

/-- A switch that is not put anywhere is turned over by every flip. -/
theorem foldl_startCentered (h : ∀ v, centered v ∉ changes) (o : Settings) :
    (changes.foldl apply o).startCentered = not^[changes.count flip] o.startCentered := by
  induction changes generalizing o with
  | nil => rfl
  | cons c changes ih =>
      have hrest : ∀ v, centered v ∉ changes := fun v hv => h v (List.mem_cons_of_mem _ hv)
      rw [List.foldl_cons, ih hrest]
      cases c with
      | flip => rw [List.count_cons_self, Function.iterate_succ_apply, apply]
      | centered v => exact absurd List.mem_cons_self (h v)
      | startRow | trailLength => simp [apply]

theorem leads_foldl (o : Settings) (changes : List Change) : Leads o changes (changes.foldl apply o) where
  row_given := by
    rintro before n after rfl hafter
    rw [List.foldl_append, List.foldl_cons, foldl_startRow hafter, apply]
  row_kept h := foldl_startRow h o
  trail_given := by
    rintro before n after rfl hafter
    rw [List.foldl_append, List.foldl_cons, foldl_trailLength hafter, apply]
  trail_kept h := foldl_trailLength h o
  switch_given := by
    rintro before on after rfl hafter
    rw [List.foldl_append, List.foldl_cons, foldl_startCentered hafter, apply]
  switch_kept h := foldl_startCentered h o

end Change

namespace Settings

variable {o changed : Settings} {arg : Text} {args : List Text} {e : SettingsError}

/-! ### Arguments in a row -/

/-- Settings accept the argument. -/
def Accepts (o : Settings) (arg : Text) : Prop := ∃ changed, o.apply arg = .ok changed

/-- What one setting accepts, all do. -/
theorem accepts_iff : o.Accepts arg ↔ ∃ c, Change.Written arg.trim c := by
  simp only [Accepts, apply_eq_ok_iff]
  constructor
  · rintro ⟨_, c, hwritten, -⟩
    exact ⟨c, hwritten⟩
  · rintro ⟨c, hwritten⟩
    exact ⟨_, c, hwritten, rfl⟩

theorem applyAll_cons (o : Settings) (arg : Text) (args : List Text) :
    o.applyAll (arg :: args) = (o.apply arg).bind fun changed => changed.applyAll args :=
  List.foldlM_cons

theorem applyAll_append (o : Settings) (xs ys : List Text) :
    o.applyAll (xs ++ ys) = (o.applyAll xs).bind fun changed => changed.applyAll ys :=
  List.foldlM_append

theorem apply_of_written {c : Change} (h : Change.Written arg.trim c) (o : Settings) : o.apply arg = .ok (c.apply o) :=
  apply_eq_ok_iff.mpr ⟨c, h, rfl⟩

/-- Accepted arguments are changes made in a row. -/
theorem applyAll_eq_ok_iff : o.applyAll args = .ok changed ↔
    ∃ changes, List.Forall₂ (fun arg c => Change.Written arg.trim c) args changes ∧
      changed = changes.foldl Change.apply o := by
  induction args generalizing o with
  | nil =>
      simp only [List.forall₂_nil_left_iff, exists_eq_left, List.foldl_nil]
      exact ⟨fun h => (Except.ok.inj h).symm, fun h => congrArg Except.ok h.symm⟩
  | cons arg args ih =>
      rw [applyAll_cons]
      constructor
      · intro h
        cases hfirst : o.apply arg with
        | error e => simp [hfirst, Except.bind] at h
        | ok next =>
            obtain ⟨c, hwritten, rfl⟩ := apply_eq_ok_iff.mp hfirst
            rw [hfirst] at h
            obtain ⟨changes, hrest, rfl⟩ := ih.mp h
            exact ⟨c :: changes, .cons hwritten hrest, rfl⟩
      · rintro ⟨changes, hall, rfl⟩
        obtain ⟨c, rest, hwritten, hrest, rfl⟩ := List.forall₂_cons_left_iff.mp hall
        rw [apply_of_written hwritten]
        exact ih.mpr ⟨rest, hrest, rfl⟩

/-- There is a change for each argument in a list just when each is written as one. -/
theorem exists_forall₂_written_iff (args : List Text) :
    (∃ changes, List.Forall₂ (fun arg c => Change.Written arg.trim c) args changes) ↔
      ∀ arg ∈ args, ∃ c, Change.Written arg.trim c := by
  induction args with
  | nil => simp
  | cons arg args ih =>
      rw [List.forall_mem_cons, ← ih]
      constructor
      · rintro ⟨_, hall⟩
        obtain ⟨c, rest, hwritten, hrest, -⟩ := List.forall₂_cons_left_iff.mp hall
        exact ⟨⟨c, hwritten⟩, rest, hrest⟩
      · rintro ⟨⟨c, hwritten⟩, rest, hrest⟩
        exact ⟨c :: rest, .cons hwritten hrest⟩

theorem exists_applyAll_eq_ok_iff :
    (∃ changed, o.applyAll args = .ok changed) ↔ ∀ arg ∈ args, o.Accepts arg := by
  simp only [applyAll_eq_ok_iff, accepts_iff, ← exists_forall₂_written_iff]
  constructor
  · rintro ⟨_, changes, hall, -⟩
    exact ⟨changes, hall⟩
  · rintro ⟨changes, hall⟩
    exact ⟨_, changes, hall, rfl⟩

/-- The first argument that is not accepted ends it. -/
theorem applyAll_eq_error_iff : o.applyAll args = .error e ↔
    ∃ before arg after, args = before ++ arg :: after ∧ (∀ a ∈ before, o.Accepts a) ∧ o.apply arg = .error e := by
  constructor
  · intro h
    induction args generalizing o with
    | nil => nomatch h
    | cons arg args ih =>
        rw [applyAll_cons] at h
        cases hfirst : o.apply arg with
        | error _ =>
            rw [hfirst] at h
            exact ⟨[], arg, args, rfl, nofun, hfirst.trans h⟩
        | ok next =>
            rw [hfirst] at h
            obtain ⟨before, refused, after, rfl, hbefore, hrefused⟩ := ih h
            -- The verdicts were those of the settings after the first change.
            simp only [accepts_iff, apply_eq_error_iff] at hbefore hrefused
            refine ⟨arg :: before, refused, after, rfl, ?_, apply_eq_error_iff.mpr hrefused⟩
            rw [List.forall_mem_cons]
            exact ⟨⟨next, hfirst⟩, fun a ha => accepts_iff.mpr (hbefore a ha)⟩
  · rintro ⟨before, refused, after, rfl, hbefore, hrefused⟩
    obtain ⟨next, hnext⟩ := exists_applyAll_eq_ok_iff.mpr hbefore
    have herror : next.apply refused = .error e := apply_eq_error_iff.mpr (apply_eq_error_iff.mp hrefused)
    rw [applyAll_append, hnext]
    exact (applyAll_cons next refused after).trans (congrArg (Except.bind · _) herror)

/-- Two arguments for different settings may change places. -/
theorem applyAll_swap {x y : Text} {c d : Change} (hx : Change.Written x.trim c) (hy : Change.Written y.trim d)
    (h : c.setting ≠ d.setting) (o : Settings) (before after : List Text) :
    o.applyAll (before ++ x :: y :: after) = o.applyAll (before ++ y :: x :: after) := by
  have hpair (p : Settings) : p.applyAll (x :: y :: after) = p.applyAll (y :: x :: after) := by
    simp only [applyAll_cons, apply_of_written hx, apply_of_written hy, Except.bind, Change.apply_comm h]
  simp only [applyAll_append, hpair]

/-- **Arguments in a row change the settings as if each setting had arguments of its own.** Whether an argument is
accepted, and the error if it is not, are the same for all settings. So a list of arguments is accepted just when each
of its members is, and otherwise fails with the error of the first that is not. The arguments of an accepted list write
changes, and these lead to the number that was given last, or leave it as it was; and to the switch where it was last
put, or as it was, turned over by every flip since. Two neighbours that are accepted and change different settings may
change places. -/
theorem overrides_in_order (o : Settings) (args : List Text) :
    (∀ (p : Settings) (arg : Text), (o.Accepts arg ↔ p.Accepts arg) ∧
        ∀ e, o.apply arg = .error e ↔ p.apply arg = .error e) ∧
      ((∃ changed, o.applyAll args = .ok changed) ↔ ∀ arg ∈ args, o.Accepts arg) ∧
      (∀ e, o.applyAll args = .error e ↔
        ∃ before arg after, args = before ++ arg :: after ∧ (∀ a ∈ before, o.Accepts a) ∧ o.apply arg = .error e) ∧
      (∀ changed, o.applyAll args = .ok changed →
        ∃ changes, List.Forall₂ (fun arg c => Change.Written arg.trim c) args changes ∧
          Change.Leads o changes changed) ∧
      ∀ before x y after c d, args = before ++ x :: y :: after → Change.Written x.trim c → Change.Written y.trim d →
        c.setting ≠ d.setting → o.applyAll (before ++ y :: x :: after) = o.applyAll args := by
  refine ⟨?independent, exists_applyAll_eq_ok_iff, fun e => applyAll_eq_error_iff, ?changes, ?swap⟩
  case independent =>
    intro p arg
    rw [accepts_iff, accepts_iff]
    exact ⟨Iff.rfl, fun e => apply_eq_error_iff.trans apply_eq_error_iff.symm⟩
  case changes =>
    intro changed h
    obtain ⟨changes, hall, rfl⟩ := applyAll_eq_ok_iff.mp h
    exact ⟨changes, hall, Change.leads_foldl o changes⟩
  case swap =>
    rintro before x y after c d rfl hx hy h
    exact (applyAll_swap hx hy h o before after).symm

end Settings

end ModalCursor
