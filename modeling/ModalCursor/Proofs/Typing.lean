import ModalCursor.Proofs.Prefixes
import ModalCursor.Session
import Mathlib.Data.List.Basic
/-!
# ModalCursor.Proofs.Typing

**Keys typed one by one.** `Session.KeyStep` is everything that one key can do to a session. From it follows what
a run of keys does: keys that stay unfinished only add up, and the last key of a command executes it, just as if
the whole run had been read at once.
-/

namespace ModalCursor.Session

variable {s : Session} {key : Char} {keys : Keys} {c : Command}

/-! ### One key -/

/-- Everything that feeding one key can do, with the reading that decides it. -/
inductive KeyStep (s : Session) (key : Char) : Session × Outcome → Prop
  /-- The key is not listened to, and nothing changes. -/
  | ignored (hdeaf : s.takes key = false) : KeyStep s key (s, .ignored)
  /-- The key joins the pending ones. -/
  | pending {n : Option Nat} (hread : Reading.ofKeys (s.pending ++ [key]) = .incomplete n) :
      KeyStep s key ({ s with pending := s.pending ++ [key] }, .pending)
  /-- The pending keys are dropped together with the key. -/
  | rejected (htakes : s.takes key = true) (hread : Reading.ofKeys (s.pending ++ [key]) = .invalid) :
      KeyStep s key ({ s with pending := [] }, .rejected)
  /-- The key ends a command, which is executed. -/
  | executed {c : Command} (hread : Reading.ofKeys (s.pending ++ [key]) = .complete c) :
      KeyStep s key (s.execute c, .executed c)

theorem keyStep (s : Session) (key : Char) : KeyStep s key (s.feed key) := by
  rw [feed]
  cases htakes : s.takes key with
  | false => exact .ignored htakes
  | true =>
      rw [if_pos rfl]
      dsimp only
      cases hread : Reading.ofKeys (s.pending ++ [key]) with
      | incomplete n => exact .pending hread
      | invalid => exact .rejected htakes hread
      | complete c => exact .executed hread

/-- A key with which the pending keys are not invalid is never ignored. -/
theorem takes_of_ne_invalid (h : Reading.ofKeys (s.pending ++ [key]) ≠ .invalid) :
    s.takes key = true := by
  rw [takes, Bool.or_eq_true]
  exact Reading.listened_of_snoc h

theorem feed_of_incomplete {n : Option Nat}
    (hread : Reading.ofKeys (s.pending ++ [key]) = .incomplete n) :
    s.feed key = ({ s with pending := s.pending ++ [key] }, .pending) := by
  rw [feed, if_pos (takes_of_ne_invalid (by simp [hread]))]
  simp only [hread]

theorem feed_of_complete (hread : Reading.ofKeys (s.pending ++ [key]) = .complete c) :
    s.feed key = (s.execute c, .executed c) := by
  rw [feed, if_pos (takes_of_ne_invalid (by simp [hread]))]
  simp only [hread]

theorem ofKeys_of_executed (h : (s.feed key).2 = .executed c) :
    Reading.ofKeys (s.pending ++ [key]) = .complete c := by
  have hstep := s.keyStep key
  generalize s.feed key = r at *
  cases hstep with
  | executed hread =>
      cases h
      exact hread
  | _ => simp at h

theorem pending_of_pending (h : (s.feed key).2 = .pending) :
    (s.feed key).1.pending = s.pending ++ [key] := by
  have hstep := s.keyStep key
  generalize s.feed key = r at *
  cases hstep with
  | pending _ => rfl
  | _ => simp at h

/-! ### Runs of keys -/

theorem outcomes_append (s : Session) (first second : Keys) :
    s.outcomes (first ++ second) = s.outcomes first ++ (s.feedAll first).outcomes second := by
  induction first generalizing s with
  | nil => rfl
  | cons key first ih =>
      rw [List.cons_append, outcomes_cons, outcomes_cons, List.cons_append, ih, feedAll_cons]

/-- Keys that stay unfinished add up, and nothing else happens. -/
theorem feedAll_of_unfinished (h : (s.pending ++ keys).Unfinished) :
    s.feedAll keys = { s with pending := s.pending ++ keys } ∧
      s.outcomes keys = List.replicate keys.length .pending := by
  induction keys generalizing s with
  | nil => simp
  | cons key keys ih =>
      rw [List.append_cons] at h
      have hearlier : (s.pending ++ [key]).Unfinished := h.of_prefix (List.prefix_append _ _)
      obtain ⟨n, hread⟩ := hearlier.incomplete
      obtain ⟨hsession, houtcomes⟩ := ih (s := { s with pending := s.pending ++ [key] }) h
      rw [feedAll_cons, outcomes_cons, feed_of_incomplete hread, hsession, houtcomes,
        List.append_assoc, List.singleton_append]
      exact ⟨rfl, rfl⟩

/-- A command typed key by key is executed at its last key, as it is read when it is whole. The exception is a
count that begins with `0`: its first key is a command already. -/
theorem feedAll_of_complete (hpending : s.pending = []) (hread : Reading.ofKeys keys = .complete c)
    (hzero : keys.head? = some '0' → keys = ['0']) :
    s.feedAll keys = s.execute c ∧
      s.outcomes keys = List.replicate (keys.length - 1) .pending ++ [.executed c] := by
  obtain rfl | ⟨typed, key, rfl⟩ := List.eq_nil_or_concat' keys
  · simp [Reading.ofKeys, Reading.ofCounted] at hread
  · have hunfinished : Keys.Unfinished typed :=
      .of_complete hread hzero (List.prefix_append _ _) (by simp)
    have hstart : (s.pending ++ typed).Unfinished := by rwa [hpending]
    obtain ⟨hsession, houtcomes⟩ := feedAll_of_unfinished hstart
    rw [hpending, List.nil_append] at hsession
    have hlast : (s.feedAll typed).feed key = (s.execute c, .executed c) := by
      rw [hsession, feed_of_complete (s := { s with pending := typed }) hread]
      rfl
    rw [feedAll_append, outcomes_append, feedAll_cons, outcomes_cons, hlast, houtcomes]
    simp

/-- As long as every key stays pending, the pending keys are all keys so far. -/
theorem pending_feedAll_of_outcomes {n : Nat} (h : s.outcomes keys = List.replicate n .pending) :
    (s.feedAll keys).pending = s.pending ++ keys := by
  induction keys generalizing s n with
  | nil => simp
  | cons key keys ih =>
      cases n with
      | zero => simp at h
      | succ n =>
          rw [outcomes_cons, List.replicate_succ, List.cons.injEq] at h
          rw [feedAll_cons, ih h.2, pending_of_pending h.1, List.append_assoc, List.singleton_append]

/-- A run whose keys are all pending up to a last one that executes a command reads as that command. -/
theorem ofKeys_of_outcomes {n : Nat} (hpending : s.pending = [])
    (h : s.outcomes keys = List.replicate n .pending ++ [.executed c]) :
    Reading.ofKeys keys = .complete c := by
  obtain rfl | ⟨typed, key, rfl⟩ := List.eq_nil_or_concat' keys
  · simp at h
  · rw [outcomes_append] at h
    obtain ⟨htyped, hlast⟩ := List.append_inj' h rfl
    have hread := ofKeys_of_executed (s := s.feedAll typed) (List.singleton_inj.mp hlast)
    rwa [pending_feedAll_of_outcomes htyped, hpending, List.nil_append] at hread

/-- **Typing agrees with reading.** In a session without pending keys, a run of keys that reads as a command, and
does not begin with `0` unless it is `0`, is pending at every key but the last, which executes the command and
leaves nothing pending. Conversely, a run of keys with such outcomes reads as the command it executed. -/
theorem typing_agrees_with_reading {s : Session} (hpending : s.pending = []) (keys : Keys) (c : Command) :
    (Reading.ofKeys keys = .complete c → (keys.head? = some '0' → keys = ['0']) →
      s.outcomes keys = List.replicate (keys.length - 1) .pending ++ [.executed c] ∧
        (s.feedAll keys).pending = []) ∧
    ∀ n, s.outcomes keys = List.replicate n .pending ++ [.executed c] →
      Reading.ofKeys keys = .complete c := by
  constructor
  · intro hread hzero
    obtain ⟨hsession, houtcomes⟩ := feedAll_of_complete hpending hread hzero
    refine ⟨houtcomes, ?_⟩
    rw [hsession]
    rfl
  · intro n houtcomes
    exact ofKeys_of_outcomes hpending houtcomes

theorem typing_agrees_with_reading_goto :
    (start (.ofWhole ['a', '\n', 'b']) {}).outcomes ['1', '2', 'g', 'g'] =
        [.pending, .pending, .pending, .executed ⟨.goto, some 12⟩] ∧
      Reading.ofKeys ['1', '2', 'g', 'g'] = .complete ⟨.goto, some 12⟩ := by
  obtain ⟨hforward, hback⟩ :=
    @typing_agrees_with_reading (start (.ofWhole ['a', '\n', 'b']) {}) rfl ['1', '2', 'g', 'g'] ⟨.goto, some 12⟩
  have houtcomes := (hforward (by decide) (by decide)).1
  exact ⟨houtcomes, hback 3 houtcomes⟩

end ModalCursor.Session
