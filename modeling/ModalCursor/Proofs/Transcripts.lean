import ModalCursor.Proofs.Grammar
import ModalCursor.Proofs.Listening
import ModalCursor.Proofs.Segments
import ModalCursor.Proofs.WrittenForms
/-!
# ModalCursor.Proofs.Transcripts

**How many lines a transcript has.** Every sequence of keys that is executed or rejected has its line, which shows the
keys as they were typed. A target can be any character, a line feed too, and then its key breaks the line that it is
shown on. The action after the keys never does: it has the target in quotes, where a line feed is escaped. So a
transcript has as many line feeds as sequences were finished, and one more for each command with a line feed as its
target (`Session.transcript_line_feeds`).

A line feed can only be typed as a target: it is no motion key, and so neither part of a count nor of pending keys.
-/

namespace ModalCursor

namespace Outcome

/-- The key finished a sequence of keys. -/
def isFinished : Outcome → Bool
  | executed _ | rejected => true
  | ignored | pending => false

/-- The key executed a command that has a line feed as its target. -/
def hasLineFeed : Outcome → Bool
  | executed c => c.action.target? == some '\n'
  | _ => false

end Outcome

/-! ### The last key of a command -/

/-- The last key of a phrase is the target, or the phrase has none and ends in a motion key. -/
theorem Phrase.getLast?_cases {count rest : Keys} {c : Command} (h : Phrase count rest c) :
    ∃ key, rest.getLast? = some key ∧
      (c.action.target? = some key ∨ (c.action.target? = none ∧ isMotionKey key = true)) := by
  cases h with
  | motion m =>
      cases m with
      | search way ch => exact ⟨ch, rfl, Or.inl rfl⟩
      | _ => exact ⟨_, rfl, Or.inr ⟨rfl, rfl⟩⟩
  | goto _ hrest => rcases hrest with rfl | rfl <;> exact ⟨_, rfl, Or.inr ⟨rfl, rfl⟩⟩
  | setMark | jumpToMark | jumpToMarkLine => exact ⟨_, rfl, Or.inl rfl⟩
  | _ => exact ⟨_, rfl, Or.inr ⟨rfl, rfl⟩⟩

/-- The last key of a command is its target, or the command has none and ends in a motion key. -/
theorem Reading.target_cases {keys : Keys} {key : Char} {c : Command} (h : ofKeys (keys ++ [key]) = .complete c) :
    c.action.target? = some key ∨ (c.action.target? = none ∧ isMotionKey key = true) := by
  rcases spells_of_ofKeys h with ⟨hzero, rfl⟩ | ⟨count, rest, hkeys, -, hphrase⟩
  · obtain rfl : key = '0' := by simpa using congrArg List.getLast? hzero
    exact Or.inr ⟨rfl, rfl⟩
  · obtain ⟨last, hlast, hcases⟩ := hphrase.getLast?_cases
    have hkey : key = last := by simpa [hlast] using congrArg List.getLast? hkeys
    exact hkey ▸ hcases

/-! ### Segments -/

/-- The line of a segment has the line feeds of its keys, and the one at its end. -/
theorem Segment.count_line (g : Segment) : g.line.toList.count '\n' = g.keys.count '\n' + 1 := by
  obtain ⟨keys, ending⟩ := g
  cases ending with
  | rejected =>
      have hrest : " rejected\n".toList.count '\n' = 1 := by decide
      simp only [line, String.toList_append, String.toList_ofList, List.count_append, hrest]
  | executed c p =>
      have haction : c.action.text.toList.count '\n' = 0 := List.count_eq_zero.mpr (c.action.not_mem_textWith isHidden)
      have hposition : p.text.toList.count '\n' = 0 :=
        List.count_eq_zero.mpr (Position.not_mem_text (by decide) (by decide))
      have hblank : " ".toList.count '\n' = 0 := by decide
      have harrow : " -> ".toList.count '\n' = 0 := by decide
      have hfeed : "\n".toList.count '\n' = 1 := by decide
      simp only [line, String.toList_append, String.toList_ofList, List.count_append, haction, hposition, hblank,
        harrow, hfeed, Nat.add_zero]

namespace Session

variable {s : Session} {key : Char} {keys : Keys}

/-- Of the keys of a segment only the last can be a line feed, as the target of the command that it ends. -/
theorem Sound.count_segment? (h : s.Sound) (key : Char) :
    ((s.segment? key).toList.flatMap Segment.keys).count '\n' = [(s.feed key).2].countP Outcome.hasLineFeed ∧
      (s.segment? key).toList.length = [(s.feed key).2].countP Outcome.isFinished := by
  have hpending : s.pending.count '\n' = 0 :=
    List.count_eq_zero.mpr fun hmem => absurd (h.pending_unfinished.isMotionKey_of_mem _ hmem) (by decide)
  have hrejected := h.feed_eq_rejected_iff key
  rw [segment?]
  have hstep := s.keyStep key
  generalize s.feed key = r at *
  cases hstep with
  | ignored _ | pending _ => exact ⟨rfl, rfl⟩
  | rejected _ _ =>
      -- A target is never rejected, so the key is a motion key.
      have hkey : key ≠ '\n' := by
        rintro rfl
        exact absurd (hrejected.mp rfl).2.1 (by decide)
      exact ⟨by simp [hpending, hkey, Outcome.hasLineFeed], rfl⟩
  | @executed c hread =>
      have htarget : c.action.target? = some '\n' ↔ key = '\n' := by
        rcases Reading.target_cases hread with htarget | ⟨hnone, hmotion⟩
        · rw [htarget, Option.some.injEq]
        · have hkey : key ≠ '\n' := by
            rintro rfl
            exact absurd hmotion (by decide)
          simp [hnone, hkey]
      refine ⟨?_, rfl⟩
      by_cases hkey : key = '\n' <;> simp [hpending, hkey, Outcome.hasLineFeed, htarget]

/-! ### Runs of keys -/

theorem Sound.count_segments (h : s.Sound) (keys : Keys) :
    ((s.segments keys).flatMap Segment.keys).count '\n' = (s.outcomes keys).countP Outcome.hasLineFeed ∧
      (s.segments keys).length = (s.outcomes keys).countP Outcome.isFinished := by
  induction keys generalizing s with
  | nil => exact ⟨rfl, rfl⟩
  | cons key keys ih =>
      obtain ⟨hfeeds, hnumber⟩ := h.count_segment? key
      obtain ⟨hfeeds', hnumber'⟩ := ih (h.feed key)
      rw [segments_cons, outcomes_cons, ← List.singleton_append, List.countP_append, List.countP_append,
        List.flatMap_append, List.count_append, List.length_append]
      exact ⟨congrArg₂ _ hfeeds hfeeds', congrArg₂ _ hnumber hnumber'⟩

theorem count_join_lines (gs : List Segment) :
    (String.join (gs.map Segment.line)).toList.count '\n' = gs.length + (gs.flatMap Segment.keys).count '\n' := by
  induction gs with
  | nil => rfl
  | cons g gs ih =>
      rw [List.map_cons, String.join_cons, String.toList_append, List.count_append, ih, g.count_line, List.flatMap_cons,
        List.count_append, List.length_cons]
      omega

/-- **A transcript has one line for each finished sequence, unless a target is a line feed.** Its line feeds are as many
as the keys that executed a command or were rejected, and one more for every command that was executed with a line feed
as its target. So there is exactly one line for each just when no such command was. -/
theorem transcript_line_feeds {s : Session} (hs : s.Reachable) (keys : Keys) :
    (s.replay keys true).2.toList.count '\n' =
        (s.outcomes keys).countP Outcome.isFinished + (s.outcomes keys).countP Outcome.hasLineFeed ∧
      ((s.replay keys true).2.toList.count '\n' = (s.outcomes keys).countP Outcome.isFinished ↔
        ∀ c, .executed c ∈ s.outcomes keys → c.action.target? ≠ some '\n') := by
  obtain ⟨hfeeds, hnumber⟩ := hs.sound.count_segments keys
  have hcount : (s.replay keys true).2.toList.count '\n' =
      (s.outcomes keys).countP Outcome.isFinished + (s.outcomes keys).countP Outcome.hasLineFeed := by
    rw [replay_eq, if_pos rfl, count_join_lines, hfeeds, hnumber]
  refine ⟨hcount, ?_⟩
  rw [hcount, Nat.add_eq_left, List.countP_eq_zero]
  constructor
  · intro h c hc htarget
    exact h _ hc (by simp [Outcome.hasLineFeed, htarget])
  · intro h o ho
    cases o with
    | executed c => simpa [Outcome.hasLineFeed] using h c ho
    | _ => simp [Outcome.hasLineFeed]

/-- A search for a line feed is one command on two lines. -/
theorem transcript_line_feeds_search :
    (start (.ofWhole ['a', 'b']) {}).outcomes ['f', '\n', 'l'] =
        [.pending, .executed ⟨.move (.search .findForward '\n'), some 1⟩, .executed ⟨.move .right, some 1⟩] ∧
      ((start (.ofWhole ['a', 'b']) {}).replay ['f', '\n', 'l'] true).2.toList.count '\n' = 3 := by
  have houtcomes : (start (.ofWhole ['a', 'b']) {}).outcomes ['f', '\n', 'l'] =
      [.pending, .executed ⟨.move (.search .findForward '\n'), some 1⟩, .executed ⟨.move .right, some 1⟩] := by
    decide
  refine ⟨houtcomes, ?_⟩
  rw [(transcript_line_feeds (Reachable.start (.ofWhole ['a', 'b']) {}) ['f', '\n', 'l']).1, houtcomes]
  rfl

/-- It is not so that every transcript has one line for each sequence of keys that was finished. -/
theorem not_one_line_per_sequence :
    ¬ ∀ s : Session, s.Reachable → ∀ keys,
      (s.replay keys true).2.toList.count '\n' = (s.outcomes keys).countP Outcome.isFinished := by
  intro h
  exact absurd (h _ (Reachable.start (.ofWhole ['a', 'b']) {}) ['f', '\n']) (by decide)

end Session

end ModalCursor
