import ModalCursor.Proofs.Reachable
/-!
# ModalCursor.Proofs.Renewal

**A session begun anew.** After any history, with keys half typed, marks set and a trail behind it, a restart makes a
session what a new one over its buffer is, and so does a new text over the buffer of that text. Nothing of the past is
left but the settings, which no operation changes.

A text of line endings only has no buffer. Whether it has one is found out first, so a replacement that fails leaves
all of the session as it was.
-/

namespace ModalCursor

namespace Session

variable {s : Session} {t : Text} {b : Buffer} {e : BufferError}

/-! ### Replacing the buffer -/

theorem replaceBuffer_of_error (h : Buffer.ofText t = .error e) : s.replaceBuffer t = (s, .error e) := by
  simp only [replaceBuffer, h]

theorem replaceBuffer_of_ok (h : Buffer.ofText t = .ok b) :
    s.replaceBuffer t = (start b s.settings, .ok ()) := by
  simp only [replaceBuffer, h, restart_eq_start]

/-! ### The settings stay -/

theorem perform_settings (s : Session) (op : Operation) : (s.perform op).settings = s.settings := by
  cases op with
  | key key => exact (s.feed_buffer_settings key).2
  | restart => rfl
  | replace t =>
      rw [perform]
      cases h : Buffer.ofText t with
      | ok b =>
          rw [replaceBuffer_of_ok h]
          rfl
      | error e => rw [replaceBuffer_of_error h]

theorem performAll_settings (s : Session) (ops : List Operation) : (s.performAll ops).settings = s.settings := by
  induction ops generalizing s with
  | nil => rfl
  | cons op ops ih => exact (ih (s.perform op)).trans (s.perform_settings op)

/-- **A session begun anew is a new one.** Whatever was done to a session, its settings are those that it was made
with, and a restart makes it a new session over its buffer. A text with nothing but line endings is refused as empty,
and nothing of the session changes; any other text is taken, and makes it a new session over the buffer of that text,
in which all later keys do what they do in a new session. -/
theorem begins_anew (b : Buffer) (o : Settings) (ops : List Operation) (t : Text) :
    let s := (start b o).performAll ops
    s.settings = o ∧
      s.restart = start s.buffer s.settings ∧
      ((∀ ch ∈ t, ch = '\n' ∨ ch = '\r') → s.replaceBuffer t = (s, .error .empty)) ∧
      ((∃ ch ∈ t, ch ≠ '\n' ∧ ch ≠ '\r') →
        ∃ b', Buffer.ofText t = .ok b' ∧
          s.replaceBuffer t = (start b' s.settings, .ok ()) ∧
          ∀ keys, (s.replaceBuffer t).1.outcomes keys = (start b' s.settings).outcomes keys) := by
  intro s
  refine ⟨(start b o).performAll_settings ops, restart_eq_start s, ?_, ?_⟩
  · intro hends
    exact replaceBuffer_of_error (Buffer.ofText_eq_error_iff.mpr ⟨rfl, hends⟩)
  · intro hother
    obtain ⟨b', hb'⟩ := Buffer.exists_ofText hother
    have hreplaced : s.replaceBuffer t = (start b' s.settings, .ok ()) := replaceBuffer_of_ok hb'
    refine ⟨b', hb', hreplaced, ?_⟩
    intro keys
    rw [hreplaced]

/-- With a mark set, a jump made and a count half typed, a text of line endings changes nothing, and one with a letter
makes the next key what it is in a new session. -/
theorem begins_anew_half_typed :
    let s := (start (.ofWhole ['a', 'b', '\n', 'c']) {}).performAll [.key 'm', .key 'x', .key 'G', .key '3']
    s.pending = ['3'] ∧ s.replaceBuffer ['\n', '\r'] = (s, .error .empty) ∧
      ∃ b', Buffer.ofText ['d', '\n'] = .ok b' ∧ s.replaceBuffer ['d', '\n'] = (start b' s.settings, .ok ()) := by
  intro s
  obtain ⟨-, -, hempty, -⟩ := begins_anew (.ofWhole ['a', 'b', '\n', 'c']) {}
    [.key 'm', .key 'x', .key 'G', .key '3'] ['\n', '\r']
  obtain ⟨-, -, -, hother⟩ := begins_anew (.ofWhole ['a', 'b', '\n', 'c']) {}
    [.key 'm', .key 'x', .key 'G', .key '3'] ['d', '\n']
  obtain ⟨b', hb', hreplaced, -⟩ := hother ⟨'d', by simp, by decide, by decide⟩
  exact ⟨by decide, hempty (by simp), b', hb', hreplaced⟩

end Session

end ModalCursor
