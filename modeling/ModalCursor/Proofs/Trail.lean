import ModalCursor.Proofs.History
import ModalCursor.Proofs.Renewal
/-!
# ModalCursor.Proofs.Trail

**The trail is a window on the history.** Each command that is executed brings the cursor to rest somewhere
(`Executed.landing`), with its column settled. The trail has the last of these positions, as many as the settings let
it keep, and all of them as long as there are no more.

Positions are dropped one at a time, as commands come in, and nothing that was dropped is needed later: the end of a
window that was moved on is the end of the whole (`keepLast_concat`).
-/

namespace ModalCursor

/-! ### Windows -/

theorem keepLast_suffix {α : Type} (n : Nat) (l : List α) : keepLast n l <:+ l :=
  List.drop_suffix _ l

@[simp] theorem keepLast_nil {α : Type} (n : Nat) : keepLast n ([] : List α) = [] :=
  List.drop_nil

/-- A window moves on as if it had the whole list before it. -/
theorem keepLast_concat {α : Type} (n : Nat) (l : List α) (a : α) :
    keepLast n (keepLast n l ++ [a]) = keepLast n (l ++ [a]) := by
  cases n with
  | zero => simp [keepLast]
  | succ n =>
      -- The element that comes in takes one place, and the rest of the window is left for the list.
      have hlast : ∀ m : List α, keepLast (n + 1) (m ++ [a]) = keepLast n m ++ [a] := by
        intro m
        rw [keepLast, keepLast, List.length_append, List.length_singleton, Nat.add_sub_add_right,
          List.drop_append_of_le_length (Nat.sub_le _ _)]
      have hagain : keepLast n (keepLast (n + 1) l) = keepLast n l := by
        rw [keepLast, length_keepLast, keepLast, keepLast, List.drop_drop]
        congr 1
        omega
      rw [hlast, hlast, hagain]

/-! ### Landings -/

/-- Where the cursor came to rest after the command. -/
def Executed.landing (e : Executed) : Position := (e.before.execute e.command).cursor.position

namespace Session

variable {s : Session} {key : Char} {c : Command}

theorem landing_of_executed (h : (s.feed key).2 = .executed c) :
    Executed.landing ⟨s, c⟩ = (s.feed key).1.cursor.position := by
  rw [feed_of_complete (ofKeys_of_executed h)]
  rfl

theorem landing_eq_settledAt (s : Session) (c : Command) :
    Executed.landing ⟨s, c⟩ = s.settledAt c.action (s.cursor.run s.buffer c).position := rfl

/-! ### The trail -/

theorem keptByCommands_trail :
    KeptByCommands fun s done => s.trail = keepLast s.settings.trailLength (done.map Executed.landing) where
  start := fun _ _ => (keepLast_nil _).symm
  typed := fun _ _ _ hs => hs
  execute := by
    intro s done c hs
    have htrail : (s.execute c).trail =
        keepLast s.settings.trailLength (s.trail ++ [Executed.landing ⟨s, c⟩]) := rfl
    have hsettings : (s.execute c).settings = s.settings := rfl
    rw [htrail, hsettings, hs, keepLast_concat, List.map_append, List.map_singleton]

theorem feed_trail_of_not_executed (h : ∀ c, (s.feed key).2 ≠ .executed c) : (s.feed key).1.trail = s.trail := by
  have hstep := s.keyStep key
  generalize s.feed key = r at *
  cases hstep with
  | ignored _ | pending _ | rejected _ _ => rfl
  | @executed c _ => exact absurd rfl (h c)

/-- **The trail is a window on the history.** After any operations the trail has the last positions at which a
command brought the cursor to rest, of those executed since the session was last begun anew, oldest first: as many as
the settings say, or all if there are fewer. Such a position is the one after the column was settled, and a key that
executes no command adds none. -/
theorem trail_is_window (b : Buffer) (o : Settings) (ops : List Operation) :
    let s := (start b o).performAll ops
    let landings := ((start b o).executed ops).map Executed.landing
    s.trail <:+ landings ∧ s.trail.length = min landings.length o.trailLength ∧
      ∀ key,
        (∀ c, (s.feed key).2 = .executed c →
          Executed.landing ⟨s, c⟩ = (s.feed key).1.cursor.position ∧
            Executed.landing ⟨s, c⟩ = s.settledAt c.action (s.cursor.run s.buffer c).position) ∧
        ((∀ c, (s.feed key).2 ≠ .executed c) → (s.feed key).1.trail = s.trail) := by
  intro s landings
  have hsettings : s.settings = o := (start b o).performAll_settings ops
  have htrail : s.trail = keepLast o.trailLength landings := by
    rw [← hsettings]
    exact keptByCommands_trail.performAll_start b o ops
  refine ⟨?_, ?_, fun key => ⟨?_, feed_trail_of_not_executed⟩⟩
  · rw [htrail]
    exact keepLast_suffix _ _
  · rw [htrail, length_keepLast, Nat.min_comm]
  · intro c hc
    exact ⟨landing_of_executed hc, landing_eq_settledAt s c⟩

/-- Of three commands the trail of two positions has lost the first. A key that is not listened to and a pair that is
no command have left nothing, and neither does a count. -/
theorem trail_is_window_two :
    let ops : List Operation := [.key '$', .key 'j', .key 'x', .key 'g', .key 'j', .key 'k']
    let s := (start (.ofWhole ['a', 'b', '\n', 'c']) ⟨0, false, 2⟩).performAll ops
    s.trail <:+ [⟨0, 1⟩, ⟨1, 0⟩, ⟨0, 1⟩] ∧ s.trail.length = 2 ∧ (s.feed '3').1.trail = s.trail := by
  intro ops s
  obtain ⟨hsuffix, hlength, hkeys⟩ := trail_is_window (.ofWhole ['a', 'b', '\n', 'c']) ⟨0, false, 2⟩ ops
  have hlandings : ((start (.ofWhole ['a', 'b', '\n', 'c']) ⟨0, false, 2⟩).executed ops).map Executed.landing =
      [⟨0, 1⟩, ⟨1, 0⟩, ⟨0, 1⟩] := by decide
  have hcount : (s.feed '3').2 = .pending := by decide
  rw [hlandings] at hsuffix hlength
  refine ⟨hsuffix, hlength, (hkeys '3').2 ?_⟩
  intro c
  rw [hcount]
  exact Outcome.noConfusion

end Session

end ModalCursor
