import ModalCursor.Position
/-!
# ModalCursor.Marks

**Marks** are positions saved under a lower-case ASCII letter, and the **jump mark** is the position that the
last jump left. Setting a mark under any other name changes nothing.
-/

namespace ModalCursor

/-- The names that a mark can have. -/
def isMarkName (name : Char) : Bool := 'a' ≤ name && name ≤ 'z'

/-- The names of marks in alphabetical order. -/
def markNames : List Char := "abcdefghijklmnopqrstuvwxyz".toList

/-- A position for each letter, or none. -/
structure Marks where
  slots : Vector (Option Position) 26
  deriving DecidableEq

namespace Marks

def empty : Marks := ⟨Vector.replicate 26 none⟩

/-- The place of a name among the letters. -/
def slot (name : Char) : Nat := name.toNat - 'a'.toNat

/-- The position saved under a name. -/
def get? (m : Marks) (name : Char) : Option Position :=
  if isMarkName name then m.slots[slot name]?.join else none

/-- Saves a position under a name. Other names than letters are ignored. -/
def set (m : Marks) (name : Char) (p : Position) : Marks :=
  if isMarkName name then ⟨m.slots.setIfInBounds (slot name) (some p)⟩ else m

/-- The marks that are set, in alphabetical order. -/
def toList (m : Marks) : List (Char × Position) :=
  markNames.filterMap fun name => (m.get? name).map (name, ·)

/-! ### Saving and reading back -/

theorem isMarkName_iff {name : Char} :
    isMarkName name = true ↔ 97 ≤ name.toNat ∧ name.toNat ≤ 122 := by
  simp only [isMarkName, Bool.and_eq_true, decide_eq_true_eq]
  exact Iff.rfl

theorem slot_lt {name : Char} (h : isMarkName name = true) : slot name < 26 := by
  have := isMarkName_iff.mp h
  have ha : 'a'.toNat = 97 := rfl
  rw [slot]
  omega

theorem slot_inj {a b : Char} (ha : isMarkName a = true) (hb : isMarkName b = true)
    (h : slot a = slot b) : a = b := by
  have hna := isMarkName_iff.mp ha
  have hnb := isMarkName_iff.mp hb
  have h97 : 'a'.toNat = 97 := rfl
  rw [slot, slot] at h
  exact Char.toNat_inj.mp (by omega)

@[simp] theorem get?_empty (name : Char) : empty.get? name = none := by
  by_cases h : isMarkName name
  · have := slot_lt h
    simp [get?, empty, h, this]
  · simp [get?, h]

/-- After saving, the name holds the position if it is a mark's name, and every other name what it held. -/
theorem get?_set (m : Marks) (name : Char) (p : Position) (x : Char) :
    (m.set name p).get? x = if x = name ∧ isMarkName name then some p else m.get? x := by
  by_cases hname : isMarkName name
  · by_cases hx : x = name
    · subst hx
      simp [get?, set, hname, slot_lt hname]
    · by_cases hmark : isMarkName x
      · have hslot : slot name ≠ slot x := fun h => hx (slot_inj hname hmark h).symm
        simp [get?, set, hname, hx, hmark, hslot]
      · simp [get?, hx, hmark]
  · simp [set, hname]

/-! ### The list of marks -/

theorem mem_markNames {name : Char} (h : isMarkName name = true) : name ∈ markNames := by
  have hletters : ∀ i : Fin 26, Char.ofNat (97 + i) ∈ markNames := by decide
  have hrange := isMarkName_iff.mp h
  have hletter := hletters ⟨name.toNat - 97, by omega⟩
  have hname : 97 + (name.toNat - 97) = name.toNat := by omega
  rwa [hname, Char.ofNat_toNat] at hletter

theorem isMarkName_of_get? {m : Marks} {name : Char} {p : Position} (h : m.get? name = some p) :
    isMarkName name = true := by
  rw [get?] at h
  split at h
  · assumption
  · simp at h

/-- The list has the marks that are set, each with its position. -/
theorem mem_toList_iff {m : Marks} {name : Char} {p : Position} :
    (name, p) ∈ m.toList ↔ m.get? name = some p := by
  rw [toList, List.mem_filterMap]
  constructor
  · rintro ⟨x, -, hx⟩
    obtain ⟨q, hq, heq⟩ := Option.map_eq_some_iff.mp hx
    rw [Prod.mk.injEq] at heq
    rw [← heq.1, ← heq.2]
    exact hq
  · intro h
    exact ⟨name, mem_markNames (isMarkName_of_get? h), by rw [h]; rfl⟩

/-- The list is in alphabetical order, and no name comes twice. -/
theorem toList_pairwise (m : Marks) : m.toList.Pairwise fun a b => a.1 < b.1 := by
  have hsorted : markNames.Pairwise (· < ·) := by decide
  refine List.Pairwise.filterMap _ ?_ hsorted
  intro a b hab x hx y hy
  obtain ⟨_, -, rfl⟩ := Option.map_eq_some_iff.mp hx
  obtain ⟨_, -, rfl⟩ := Option.map_eq_some_iff.mp hy
  exact hab

end Marks

/-! ### The jump mark -/

/-- The position that the last jump left, if there was one. -/
structure JumpMark where
  saved : Option Position
  deriving DecidableEq, Repr

namespace JumpMark

def empty : JumpMark := ⟨none⟩

/-- A jump that left `origin`, whatever was saved before. -/
def record (_ : JumpMark) (origin : Position) : JumpMark := ⟨some origin⟩

/-- The way back: the saved position, and the mark with `current` in its place. Without a saved position
nothing happens. -/
def swap (j : JumpMark) (current : Position) : Option Position × JumpMark :=
  (j.saved, ⟨j.saved.map fun _ => current⟩)

end JumpMark

end ModalCursor
