import ModalCursor.Text.Lines
/-!
# ModalCursor.Proofs.LineEndings

**Lines are read back from the text that they are laid out as**, whatever their endings are: a line feed, or a carriage
return with a line feed. The last line may have none. If it has one, the text has one more line, and this is empty.
-/

namespace ModalCursor.Text

variable {line u t : Text} {ls : List Text} {c : Char}

/-- A text that can be a line: no character of it belongs to an ending, whatever comes after it. -/
def IsLine (line : Text) : Prop := '\n' ∉ line ∧ line.getLast? ≠ some '\r'

/-- The lines one after the other, each with its ending, make the text. The last line may have none. -/
inductive LaidOut : List Text → Text → Prop
  | nil : LaidOut [] []
  | last (line : Text) : LaidOut [line] line
  | lineFeed {ls : List Text} {t : Text} (line : Text) (hrest : LaidOut ls t) :
      LaidOut (line :: ls) (line ++ "\n".toList ++ t)
  | pair {ls : List Text} {t : Text} (line : Text) (hrest : LaidOut ls t) :
      LaidOut (line :: ls) (line ++ "\r\n".toList ++ t)

theorem IsLine.nil : IsLine [] := ⟨nofun, nofun⟩

theorem IsLine.tail (h : IsLine (c :: line)) : IsLine line := by
  refine ⟨fun hmem => h.1 (List.mem_cons_of_mem _ hmem), fun hlast => h.2 ?_⟩
  rw [List.getLast?_cons, hlast, Option.getD_some]

theorem IsLine.append (hfeed : '\n' ∉ t) (hreturn : '\r' ∉ t) (h : IsLine line) : IsLine (t ++ line) := by
  refine ⟨fun hmem => (List.mem_append.mp hmem).elim hfeed h.1, fun hlast => ?_⟩
  rw [List.getLast?_append, Option.or_eq_some_iff] at hlast
  rcases hlast with hlast | ⟨-, hlast⟩
  · exact h.2 hlast
  · exact hreturn (List.mem_of_getLast? hlast)

theorem lines_cons_of_ne (hfeed : c ≠ '\n') (hpair : c = '\r' → u.head? ≠ some '\n') :
    lines (c :: u) = (lines u).modifyHead (c :: ·) := by
  rw [lines.eq_def]
  split
  · next h => nomatch h
  · next h =>
      obtain ⟨rfl, rfl⟩ := List.cons.inj h
      exact absurd rfl (hpair rfl)
  · next h => exact absurd (List.cons.inj h).1 hfeed
  · next h =>
      obtain ⟨rfl, rfl⟩ := List.cons.inj h
      rfl

/-- A line ends where an ending comes first in what follows it. -/
theorem lines_append (h : IsLine line) (hu : lines u = [] :: ls) : lines (line ++ u) = line :: ls := by
  induction line with
  | nil => exact hu
  | cons c line ih =>
      rw [List.cons_append, lines_cons_of_ne, ih h.tail, List.modifyHead_cons]
      · rintro rfl
        exact h.1 List.mem_cons_self
      · rintro rfl
        cases line with
        | nil => exact absurd rfl h.2
        | cons d line =>
            intro hd
            obtain rfl : d = '\n' := Option.some.inj hd
            exact h.1 (List.mem_cons_of_mem _ List.mem_cons_self)

/-- The lines of a text are those that it was laid out from, and an empty one if the last has an ending. -/
theorem LaidOut.lines_eq (h : LaidOut ls t) (hls : ∀ line ∈ ls, IsLine line) :
    lines t = ls ∨ lines t = ls ++ [[]] := by
  induction h with
  | nil => exact Or.inr rfl
  | last line =>
      have hline := lines_append (hls line List.mem_cons_self) (u := []) rfl
      rw [List.append_nil] at hline
      exact Or.inl hline
  | @lineFeed ls t line _ ih | @pair ls t line _ ih =>
      rw [List.forall_mem_cons] at hls
      rw [List.append_assoc, lines_append hls.1 rfl]
      exact (ih hls.2).imp (congrArg (line :: ·)) (congrArg (line :: ·))

end ModalCursor.Text
