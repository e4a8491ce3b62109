import ModalCursor.Proofs.Reachable
import ModalCursor.Session.Transcript
/-!
# ModalCursor.Proofs.Segments

**No key is lost, doubled or moved.** A run of keys falls into segments: each ends at a key that executes a
command or is rejected, and begins with what was pending there. Set one after the other, with the keys that are
still pending at the end, the segments are the keys that were heard.

Every fact is shown for one key first, with `Session.segment?` for the segment that the key ends and
`Session.heard` for what is heard of it, and then for a run by putting its keys together.
-/

namespace ModalCursor

/-- How a segment ends. -/
inductive Ending
  /-- A command is executed and brings the cursor to a position. -/
  | executed (c : Command) (p : Position)
  /-- The keys are dropped. -/
  | rejected
  deriving DecidableEq, Repr

/-- The reading of keys that end like this. -/
def Ending.reading : Ending → Reading
  | executed c _ => .complete c
  | rejected => .invalid

/-- Keys typed from one clearing of the pending keys to the next. -/
structure Segment where
  keys : Keys
  ending : Ending
  deriving DecidableEq, Repr

namespace Segment

/-- The segment's line in a transcript. -/
def line (g : Segment) : String :=
  match g.ending with
  | .executed c p => String.ofList g.keys ++ " " ++ c.action.text ++ " -> " ++ p.text ++ "\n"
  | .rejected => String.ofList g.keys ++ " rejected\n"

/-- A segment is read as it ended, and at no key before its last could it have ended. -/
structure Exact (g : Segment) : Prop where
  reading : Reading.ofKeys g.keys = g.ending.reading
  earlier : ∀ typed, typed <+: g.keys → typed ≠ g.keys → ∃ n, Reading.ofKeys typed = .incomplete n

end Segment

namespace Session

variable {s : Session} {key : Char} {keys : Keys}

/-- The segment that a key ends, if it ends one. -/
def segment? (s : Session) (key : Char) : Option Segment :=
  match s.feed key with
  | (after, .executed c) => some ⟨s.pending ++ [key], .executed c after.cursor.position⟩
  | (_, .rejected) => some ⟨s.pending ++ [key], .rejected⟩
  | _ => none

/-- The segments of a run of keys, in order. -/
def segments (s : Session) : Keys → List Segment
  | [] => []
  | key :: keys => (s.segment? key).toList ++ (s.feed key).1.segments keys

/-- The keys of a run that are not ignored. -/
def heard (s : Session) (keys : Keys) : Keys :=
  ((keys.zip (s.outcomes keys)).filter fun x => x.2 ≠ .ignored).map Prod.fst

theorem segments_cons (s : Session) (key : Char) (keys : Keys) :
    s.segments (key :: keys) = (s.segment? key).toList ++ (s.feed key).1.segments keys := rfl

theorem heard_singleton (s : Session) (key : Char) :
    s.heard [key] = if (s.feed key).2 = .ignored then [] else [key] := by
  by_cases h : (s.feed key).2 = .ignored <;> simp [heard, h]

/-- What is heard of a run is what is heard of its first key, and then of the others. -/
theorem heard_cons (s : Session) (key : Char) (keys : Keys) :
    s.heard (key :: keys) = s.heard [key] ++ (s.feed key).1.heard keys := by
  rw [heard_singleton]
  by_cases h : (s.feed key).2 = .ignored <;> simp [heard, outcomes_cons, h]

/-! ### Keys -/

theorem segment?_append_pending (s : Session) (key : Char) :
    (s.segment? key).toList.flatMap Segment.keys ++ (s.feed key).1.pending = s.pending ++ s.heard [key] := by
  rw [segment?, heard_singleton]
  have hstep := s.keyStep key
  generalize s.feed key = r at *
  cases hstep with
  | ignored _ => simp
  | pending _ => simp
  | rejected _ _ => simp
  | executed _ => simp [execute]

theorem segments_append_pending (s : Session) (keys : Keys) :
    (s.segments keys).flatMap Segment.keys ++ (s.feedAll keys).pending = s.pending ++ s.heard keys := by
  induction keys generalizing s with
  | nil => simp [segments, heard]
  | cons key keys ih =>
      calc (s.segments (key :: keys)).flatMap Segment.keys ++ (s.feedAll (key :: keys)).pending
          = (s.segment? key).toList.flatMap Segment.keys ++
              (((s.feed key).1.segments keys).flatMap Segment.keys ++ ((s.feed key).1.feedAll keys).pending) := by
            rw [segments_cons, List.flatMap_append, List.append_assoc, feedAll_cons]
        _ = (s.segment? key).toList.flatMap Segment.keys ++
              (s.feed key).1.pending ++ (s.feed key).1.heard keys := by
            rw [ih, List.append_assoc]
        _ = s.pending ++ s.heard (key :: keys) := by
            rw [segment?_append_pending, heard_cons s key keys, List.append_assoc]

/-! ### Readings -/

/-- Before the key that ends a segment stand the pending keys, and these can always go on. -/
theorem Sound.segment?_exact (h : s.Sound) {g : Segment} (hg : s.segment? key = some g) : g.Exact := by
  -- The two endings have the same keys, so what stands before the last is shown once.
  have earlier : ∀ typed, typed <+: s.pending ++ [key] → typed ≠ s.pending ++ [key] →
      ∃ n, Reading.ofKeys typed = .incomplete n := by
    intro typed hprefix hne
    rcases List.prefix_concat_iff.mp hprefix with hall | hpending
    · exact absurd hall hne
    · exact (h.pending_unfinished.of_prefix hpending).incomplete
  rw [segment?] at hg
  have hstep := s.keyStep key
  generalize s.feed key = r at *
  cases hstep with
  | rejected _ hread =>
      cases hg
      exact ⟨hread, earlier⟩
  | executed hread =>
      cases hg
      exact ⟨hread, earlier⟩
  | _ => simp at hg

theorem Sound.segments_exact (h : s.Sound) : ∀ g ∈ s.segments keys, g.Exact := by
  induction keys generalizing s with
  | nil => simp [segments]
  | cons key keys ih =>
      intro g hg
      rcases List.mem_append.mp (s.segments_cons key keys ▸ hg) with hfirst | hlater
      · exact h.segment?_exact (Option.mem_toList.mp hfirst)
      · exact ih (h.feed key) g hlater

/-! ### Ignored keys -/

theorem feedAll_heard_singleton (s : Session) (key : Char) : s.feedAll (s.heard [key]) = (s.feed key).1 := by
  rw [heard_singleton]
  split
  · next hignored =>
      have hstep := s.keyStep key
      generalize s.feed key = r at *
      cases hstep with
      | ignored _ => rfl
      | _ => simp at hignored
  · rfl

theorem outcomes_heard_singleton (s : Session) (key : Char) :
    s.outcomes (s.heard [key]) = [(s.feed key).2].filter (· ≠ .ignored) := by
  rw [heard_singleton]
  by_cases h : (s.feed key).2 = .ignored <;> simp [h]

/-- Without the ignored keys the session is the same, and so are the other outcomes. -/
theorem feedAll_heard (s : Session) (keys : Keys) : s.feedAll (s.heard keys) = s.feedAll keys := by
  induction keys generalizing s with
  | nil => rfl
  | cons key keys ih => rw [heard_cons, feedAll_append, feedAll_heard_singleton, ih, feedAll_cons]

theorem outcomes_heard (s : Session) (keys : Keys) :
    s.outcomes (s.heard keys) = (s.outcomes keys).filter (· ≠ .ignored) := by
  induction keys generalizing s with
  | nil => rfl
  | cons key keys ih =>
      rw [heard_cons, outcomes_append, feedAll_heard_singleton, outcomes_heard_singleton, ih, ← List.filter_append,
        List.singleton_append, outcomes_cons]

/-! ### Transcripts -/

theorem transcriptLine_eq (s : Session) (key : Char) :
    s.transcriptLine key = String.join ((s.segment? key).toList.map Segment.line) := by
  rw [transcriptLine, segment?]
  have hstep := s.keyStep key
  generalize s.feed key = r at *
  cases hstep with
  | ignored _ => rfl
  | pending _ => rfl
  | rejected _ _ => simp [Segment.line]
  | executed _ => simp [Segment.line]

/-- A replay feeds the keys, and what it shows grows by the line of each segment. -/
theorem foldl_replayKey (s : Session) (keys : Keys) (trace : Bool) (shown : String) :
    keys.foldl (replayKey trace) (s, shown) =
      (s.feedAll keys, if trace then shown ++ String.join ((s.segments keys).map Segment.line) else shown) := by
  induction keys generalizing s shown with
  | nil => simp [segments]
  | cons key keys ih =>
      rw [List.foldl_cons, replayKey, ih, feedAll_cons, segments_cons, List.map_append, String.join_append,
        transcriptLine_eq]
      cases trace with
      | true => simp [String.append_assoc]
      | false => rfl

theorem replay_eq (s : Session) (keys : Keys) (trace : Bool) :
    s.replay keys trace =
      (s.feedAll keys, if trace then String.join ((s.segments keys).map Segment.line) else "") := by
  rw [replay, foldl_replayKey, String.empty_append]

/-- **Keys are conserved.** Over any keys, the segments and then the keys left pending are what was pending before
and then the keys that were not ignored, in order. Each segment is read as the command it executed, or as invalid
if it was rejected, and everything typed of it before its last key is incomplete. Without the ignored keys the
session and the other outcomes are the same. A replay with a transcript shows the lines of the segments in order,
and with or without one it ends in the session that the keys lead to. -/
theorem keys_conserved {s : Session} (hs : s.Reachable) (keys : Keys) :
    (s.segments keys).flatMap Segment.keys ++ (s.feedAll keys).pending = s.pending ++ s.heard keys ∧
      (∀ g ∈ s.segments keys, g.Exact) ∧
      s.feedAll (s.heard keys) = s.feedAll keys ∧
      s.outcomes (s.heard keys) = (s.outcomes keys).filter (· ≠ .ignored) ∧
      (s.replay keys true).2 = String.join ((s.segments keys).map Segment.line) ∧
      ∀ trace, (s.replay keys trace).1 = s.feedAll keys := by
  refine ⟨s.segments_append_pending keys, hs.sound.segments_exact, s.feedAll_heard keys, s.outcomes_heard keys,
    ?_, fun trace => ?_⟩
  · rw [replay_eq]
    rfl
  · rw [replay_eq]

/-- A key that is ignored, a command, a rejection and a beginning. -/
theorem keys_conserved_mixed :
    ((start (.ofWhole ['a', '\n', 'b']) {}).replay ['x', '2', 'k', 'g', 'k', 'd', '3', 'f'] true).2 =
        "2k up -> 1:1\ngk rejected\n" ∧
      (start (.ofWhole ['a', '\n', 'b']) {}).heard ['x', '2', 'k', 'g', 'k', 'd', '3', 'f'] =
        ['2', 'k', 'g', 'k', '3', 'f'] := by
  obtain ⟨hkeys, -, -, -, hshown, -⟩ :=
    keys_conserved (Reachable.start (.ofWhole ['a', '\n', 'b']) {}) ['x', '2', 'k', 'g', 'k', 'd', '3', 'f']
  refine ⟨hshown.trans ?_, hkeys.symm.trans ?_⟩
  · decide
  · decide

end Session

end ModalCursor
