import ModalCursor.Proofs.LineEndings
import ModalCursor.Proofs.Reachable
import ModalCursor.Proofs.WrittenForms
import ModalCursor.Session.Transcript
/-!
# ModalCursor.Proofs.Summaries

**A summary tells what it shows.** Two sessions have the same summary just when they have the same position, pending
keys, jump mark and marks. It does not matter over which buffers and with which settings they run, and neither what they
went through.

A summary is lines, each of which is found again because no line holds a line feed (`Text.ended_inj`). For the pending
keys this is so because of what can stand pending. Which line is which follows from their number. The marks are on one
line with commas between them, and no mark is written with a comma.
-/

namespace ModalCursor

namespace Text

variable {c : Char} {sep line : Text} {xs ys ls : List Text}

/-! ### Lines that all end in a line feed -/

/-- The lines one after the other, each with a line feed at its end. -/
def ended (ls : List Text) : Text := ls.flatMap (· ++ ['\n'])

theorem lines_ended (h : ∀ line ∈ ls, line.IsLine) : lines (ended ls) = ls ++ [[]] := by
  induction ls with
  | nil => rfl
  | cons line ls ih =>
      rw [List.forall_mem_cons] at h
      have hrest : lines ('\n' :: ended ls) = [] :: (ls ++ [[]]) := by rw [lines, ih h.2]
      rw [ended, List.flatMap_cons, List.append_assoc]
      exact lines_append h.1 hrest

theorem ended_inj (hxs : ∀ line ∈ xs, line.IsLine) (hys : ∀ line ∈ ys, line.IsLine) (h : ended xs = ended ys) :
    xs = ys := by
  have hlines := lines_ended hxs
  rw [h, lines_ended hys] at hlines
  exact (List.append_cancel_right hlines).symm

theorem isLine_of_isPlain (h : ∀ c ∈ line, isPlain c = true) : line.IsLine :=
  ⟨fun hfeed => absurd (h _ hfeed) (by decide), fun hlast => absurd (h _ (List.mem_of_getLast? hlast)) (by decide)⟩

/-! ### Texts with a separator between them -/

theorem intercalate_cons (sep x : Text) (xs : List Text) :
    sep.intercalate (x :: xs) = x ++ xs.flatMap (sep ++ ·) := by
  induction xs generalizing x with
  | nil => simp
  | cons y xs ih => rw [List.intercalate_cons_cons, ih, List.flatMap_cons, List.append_assoc, List.append_assoc]

/-- A text can be told from those that each follow a separator, if it does not hold the separator's first character. -/
theorem separated_append_inj {x y : Text} (hx : c ∉ x) (hy : c ∉ y)
    (h : x ++ xs.flatMap ((c :: sep) ++ ·) = y ++ ys.flatMap ((c :: sep) ++ ·)) :
    x = y ∧ xs.flatMap ((c :: sep) ++ ·) = ys.flatMap ((c :: sep) ++ ·) := by
  have hrun {z : Text} (hz : c ∉ z) : ∀ a ∈ z, (a != c) = true := by
    intro a ha
    rw [bne_iff_ne]
    rintro rfl
    exact hz ha
  have hstop (zs : List Text) : ∀ a ∈ (zs.flatMap ((c :: sep) ++ ·)).head?, (a != c) = false := by
    cases zs with
    | nil => nofun
    | cons z zs => simp
  exact run_append_inj (hrun hx) (hrun hy) (hstop xs) (hstop ys) h

theorem separated_inj (hxs : ∀ x ∈ xs, c ∉ x) (hys : ∀ y ∈ ys, c ∉ y)
    (h : xs.flatMap ((c :: sep) ++ ·) = ys.flatMap ((c :: sep) ++ ·)) : xs = ys := by
  induction xs generalizing ys with
  | nil =>
      cases ys with
      | nil => rfl
      | cons y ys => simp at h
  | cons x xs ih =>
      cases ys with
      | nil => simp at h
      | cons y ys =>
          rw [List.forall_mem_cons] at hxs hys
          rw [List.flatMap_cons, List.flatMap_cons, List.append_assoc, List.append_assoc,
            List.append_cancel_left_eq] at h
          obtain ⟨rfl, hrest⟩ := separated_append_inj hxs.1 hys.1 h
          rw [ih hxs.2 hys.2 hrest]

/-- Texts are found again from what they are joined to, if none holds the separator's first character. -/
theorem intercalate_inj {x y : Text} (hxs : ∀ z ∈ x :: xs, c ∉ z) (hys : ∀ z ∈ y :: ys, c ∉ z)
    (h : (c :: sep).intercalate (x :: xs) = (c :: sep).intercalate (y :: ys)) : x :: xs = y :: ys := by
  rw [List.forall_mem_cons] at hxs hys
  rw [intercalate_cons, intercalate_cons] at h
  obtain ⟨rfl, hrest⟩ := separated_append_inj hxs.1 hys.1 h
  rw [separated_inj hxs.2 hys.2 hrest]

theorem mem_intercalate {x : Text} (h : c ∈ sep.intercalate (x :: xs)) : c ∈ sep ∨ ∃ t ∈ x :: xs, c ∈ t := by
  rw [intercalate_cons, List.mem_append, List.mem_flatMap] at h
  rcases h with hx | ⟨y, hy, hc⟩
  · exact Or.inr ⟨x, List.mem_cons_self, hx⟩
  · exact (List.mem_append.mp hc).imp id fun hc => ⟨y, List.mem_cons_of_mem _ hy, hc⟩

end Text

/-! ### Plain characters -/

theorem isPlain_of_isMotionKey {key : Char} (h : isMotionKey key = true) : isPlain key = true := by
  have hall : "jkhlgGweb^$fFtT\x7b\x7dm\x27\x60".toList.all isPlain = true := by decide
  rw [isMotionKey, Bool.or_eq_true, List.contains_iff_mem] at h
  exact h.elim isPlain_of_isDigit (List.all_eq_true.mp hall key)

theorem isPlain_of_isMarkName {name : Char} (h : isMarkName name = true) : isPlain name = true := by
  have hall : markNames.all isPlain = true := by decide
  exact List.all_eq_true.mp hall name (Marks.mem_markNames h)

theorem Position.isPlain_of_mem_text {p : Position} {c : Char} (h : c ∈ p.text.toList) : isPlain c = true := by
  rcases Position.mem_text h with hdigit | rfl
  · exact isPlain_of_isDigit hdigit
  · rfl

/-! ### The marks -/

namespace Marks

variable {m n : Marks}

/-- Marks are listed alike when every name has the same position. -/
theorem toList_eq_iff : m.toList = n.toList ↔ ∀ name, m.get? name = n.get? name := by
  constructor
  · intro h name
    apply Option.ext
    intro p
    rw [← mem_toList_iff, ← mem_toList_iff, h]
  · intro h
    rw [toList, toList]
    exact congrArg (markNames.filterMap ·) (funext fun name => by rw [h])

/-- A mark as a summary shows it. -/
def entryText (entry : Char × Position) : Text := entry.1 :: ' ' :: entry.2.text.toList

theorem entryText_injective : Function.Injective entryText := by
  intro e f h
  obtain ⟨hname, hrest⟩ := List.cons.inj h
  exact Prod.ext hname (Position.text_injective (String.toList_inj.mp (List.cons.inj hrest).2))

theorem isMarkName_of_mem_toList {entry : Char × Position} (h : entry ∈ m.toList) : isMarkName entry.1 = true :=
  isMarkName_of_get? (mem_toList_iff.mp h)

theorem isPlain_of_mem_entryText {entry : Char × Position} (h : entry ∈ m.toList) :
    ∀ c ∈ entryText entry, isPlain c = true := by
  rw [entryText, List.forall_mem_cons, List.forall_mem_cons]
  exact ⟨isPlain_of_isMarkName (isMarkName_of_mem_toList h), rfl, fun _ => Position.isPlain_of_mem_text⟩

theorem comma_not_mem_entryText {entry : Char × Position} (h : entry ∈ m.toList) : ',' ∉ entryText entry := by
  intro hcomma
  rw [entryText, List.mem_cons, List.mem_cons] at hcomma
  rcases hcomma with hname | hblank | hposition
  · exact absurd (hname ▸ isMarkName_of_mem_toList h) (by decide)
  · exact absurd hblank (by decide)
  · exact Position.not_mem_text (by decide) (by decide) hposition

end Marks

namespace Session

variable {s t : Session}

/-! ### The line of marks -/

theorem toList_marksText (m : Marks) :
    (marksText m).toList =
      if m.toList = [] then ['-'] else [',', ' '].intercalate (m.toList.map Marks.entryText) := by
  rw [marksText]
  generalize m.toList = entries
  cases entries with
  | nil => rfl
  | cons e entries =>
      have hentry : (fun entry : Char × Position => (entry.1.toString ++ " " ++ entry.2.text).toList) =
          Marks.entryText := by
        funext entry
        simp [Marks.entryText]
      rw [if_neg nofun, String.toList_intercalate, List.map_map, ← hentry]
      rfl

/-- No mark is as short as the dash. -/
theorem dash_ne_intercalate (e : Char × Position) (entries : List (Char × Position)) :
    ['-'] ≠ [',', ' '].intercalate ((e :: entries).map Marks.entryText) := by
  rw [List.map_cons, Text.intercalate_cons, Marks.entryText]
  simp

/-- Marks that are shown alike are listed alike. -/
theorem marksText_inj {m n : Marks} (h : (marksText m).toList = (marksText n).toList) : m.toList = n.toList := by
  have hcomma (m : Marks) : ∀ z ∈ m.toList.map Marks.entryText, ',' ∉ z :=
    List.forall_mem_map.mpr fun _ => Marks.comma_not_mem_entryText
  have hm := hcomma m
  have hn := hcomma n
  rw [toList_marksText, toList_marksText] at h
  cases hms : m.toList with
  | nil =>
      cases hns : n.toList with
      | nil => rfl
      | cons e entries =>
          rw [hms, hns, if_pos rfl, if_neg nofun] at h
          exact absurd h (dash_ne_intercalate e entries)
  | cons e entries =>
      cases hns : n.toList with
      | nil =>
          rw [hms, hns, if_pos rfl, if_neg nofun] at h
          exact absurd h.symm (dash_ne_intercalate e entries)
      | cons e' entries' =>
          rw [hms, hns, if_neg nofun, if_neg nofun] at h
          rw [hms] at hm
          rw [hns] at hn
          exact List.map_injective_iff.mpr Marks.entryText_injective (Text.intercalate_inj hm hn h)

theorem isPlain_of_mem_marksText {m : Marks} : ∀ c ∈ (marksText m).toList, isPlain c = true := by
  intro c hc
  rw [toList_marksText] at hc
  cases hms : m.toList with
  | nil =>
      rw [hms, if_pos rfl, List.mem_singleton] at hc
      exact hc ▸ rfl
  | cons e entries =>
      rw [hms, if_neg nofun, List.map_cons] at hc
      have hseparator : [',', ' '].all isPlain = true := by decide
      rcases Text.mem_intercalate hc with hc | ⟨z, hz, hc⟩
      · exact List.all_eq_true.mp hseparator c hc
      · obtain ⟨entry, hentry, rfl⟩ := List.mem_map.mp (List.map_cons ▸ hz)
        exact Marks.isPlain_of_mem_entryText (hms ▸ hentry) c hc

/-! ### The jump mark -/

theorem jumpText_inj {j k : JumpMark} (h : jumpText j = jumpText k) : j = k := by
  have hdash (p : Position) : p.text ≠ "-" := by
    intro hp
    have hmem : '-' ∈ p.text.toList := hp ▸ List.mem_singleton_self '-'
    exact Position.not_mem_text (by decide) (by decide) hmem
  obtain ⟨_ | p⟩ := j <;> obtain ⟨_ | q⟩ := k
  · rfl
  · exact absurd h.symm (hdash q)
  · exact absurd h (hdash p)
  · rw [Position.text_injective h]

theorem isPlain_of_mem_jumpText {j : JumpMark} : ∀ c ∈ (jumpText j).toList, isPlain c = true := by
  obtain ⟨_ | p⟩ := j
  · have hdash : "-".toList.all isPlain = true := by decide
    exact List.all_eq_true.mp hdash
  · exact fun _ => Position.isPlain_of_mem_text

/-! ### The lines of a summary -/

/-- The line of pending keys, if there are any. -/
def pendingLines (keys : Keys) : List Text := if keys = [] then [] else ["pending ".toList ++ keys]

/-- The lines of a summary, without their endings. -/
def summaryLines (s : Session) : List Text :=
  ("cursor  ".toList ++ s.cursor.position.text.toList) :: pendingLines s.pending ++
    ["jump    ".toList ++ (jumpText s.cursor.jump).toList, "marks   ".toList ++ (marksText s.cursor.marks).toList]

theorem pendingLines_injective : Function.Injective pendingLines := by
  intro keys keys' h
  rw [pendingLines, pendingLines] at h
  split at h <;> split at h
  · next hkeys hkeys' => rw [hkeys, hkeys']
  · simp at h
  · simp at h
  · exact List.append_cancel_left (List.singleton_inj.mp h)

theorem toList_pendingLine (keys : Keys) : (pendingLine keys).toList = Text.ended (pendingLines keys) := by
  cases keys with
  | nil => rfl
  | cons key keys => simp [pendingLine, pendingLines, Text.ended]

theorem toList_summary (s : Session) : s.summary.toList = Text.ended s.summaryLines := by
  have hfeed : "\n".toList = ['\n'] := rfl
  -- The equation of `summary` takes long to derive, and is not needed elsewhere.
  delta summary summaryLines
  simp only [String.toList_append, toList_pendingLine, hfeed, Text.ended, List.flatMap_cons, List.flatMap_append,
    List.flatMap_nil, List.append_assoc, List.append_nil, List.cons_append]

theorem length_summaryLines (s : Session) : s.summaryLines.length = if s.pending = [] then 3 else 4 := by
  by_cases h : s.pending = [] <;> simp [summaryLines, pendingLines, h]

/-- Every character of a summary shows as itself, apart from the line feeds. -/
theorem Sound.isPlain_summaryLines (h : s.Sound) : ∀ line ∈ s.summaryLines, ∀ c ∈ line, isPlain c = true := by
  have hcursor : "cursor  ".toList.all isPlain = true := by decide
  have hpending : "pending ".toList.all isPlain = true := by decide
  have hjump : "jump    ".toList.all isPlain = true := by decide
  have hmarks : "marks   ".toList.all isPlain = true := by decide
  rw [List.all_eq_true] at hcursor hpending hjump hmarks
  have hkeys : ∀ line ∈ pendingLines s.pending, ∀ c ∈ line, isPlain c = true := by
    intro line hline
    rw [pendingLines] at hline
    split at hline
    · nomatch hline
    · rw [List.mem_singleton.mp hline, List.forall_mem_append]
      exact ⟨hpending, fun key hkey => isPlain_of_isMotionKey (h.pending_unfinished.isMotionKey_of_mem key hkey)⟩
  simp only [summaryLines, List.cons_append, List.forall_mem_cons, List.forall_mem_append, List.not_mem_nil,
    false_implies, implies_true, and_true]
  exact ⟨⟨hcursor, fun _ => Position.isPlain_of_mem_text⟩, hkeys, ⟨hjump, isPlain_of_mem_jumpText⟩,
    hmarks, isPlain_of_mem_marksText⟩

theorem Sound.isLine_summaryLines (h : s.Sound) : ∀ line ∈ s.summaryLines, line.IsLine :=
  fun line hline => Text.isLine_of_isPlain (h.isPlain_summaryLines line hline)

theorem summaryLines_eq_iff :
    s.summaryLines = t.summaryLines ↔
      s.cursor.position = t.cursor.position ∧ s.pending = t.pending ∧ s.cursor.jump = t.cursor.jump ∧
        ∀ name, s.cursor.marks.get? name = t.cursor.marks.get? name := by
  rw [← Marks.toList_eq_iff]
  constructor
  · intro h
    obtain ⟨hcursor, hrest⟩ := List.cons.inj h
    obtain ⟨hpending, hend⟩ := List.append_inj' hrest rfl
    obtain ⟨hjump, hmarks⟩ := List.cons.inj hend
    exact ⟨Position.text_injective (String.toList_inj.mp (List.append_cancel_left hcursor)),
      pendingLines_injective hpending, jumpText_inj (String.toList_inj.mp (List.append_cancel_left hjump)),
      marksText_inj (List.append_cancel_left (List.singleton_inj.mp hmarks))⟩
  · rintro ⟨hcursor, hpending, hjump, hmarks⟩
    rw [summaryLines, summaryLines, hcursor, hpending, hjump, marksText, marksText, hmarks]

/-- **A summary tells what it shows.** For sessions that came about in any way, over any buffers and with any settings,
the summaries are the same just when the sessions have the same position, pending keys and jump mark, and every name has
the same mark. A summary has three lines, or four when keys are pending. -/
theorem summary_faithful {s t : Session} (hs : s.Reachable) (ht : t.Reachable) :
    (s.summary = t.summary ↔
      s.cursor.position = t.cursor.position ∧ s.pending = t.pending ∧ s.cursor.jump = t.cursor.jump ∧
        ∀ name, s.cursor.marks.get? name = t.cursor.marks.get? name) ∧
      ∃ ls : List Text, ls.length = (if s.pending = [] then 3 else 4) ∧ (∀ line ∈ ls, '\n' ∉ line) ∧
        s.summary.toList = ls.flatMap (· ++ ['\n']) := by
  have hlines := hs.sound.isLine_summaryLines
  constructor
  · rw [← summaryLines_eq_iff, ← String.toList_inj, toList_summary, toList_summary]
    exact ⟨Text.ended_inj hlines ht.sound.isLine_summaryLines, congrArg Text.ended⟩
  · exact ⟨s.summaryLines, s.length_summaryLines, fun line hline => (hlines line hline).1, s.toList_summary⟩

/-- Two sessions over different texts come to the same, and another key makes them differ. -/
theorem summary_faithful_two_texts :
    let s := (start (.ofWhole ['a', 'b', '\n', ' ', 'c']) {}).performAll [.key 'm', .key 'x', .key '2']
    let t := (start (.ofWhole ['a', '\n', 'b', 'c', '\n', 'd', 'e']) {}).performAll
      [.key 'k', .key 'm', .key 'x', .key '2']
    s.summary = t.summary ∧ s.summary ≠ (t.feed 'g').1.summary ∧
      ∃ ls : List Text, ls.length = 4 ∧ (∀ line ∈ ls, '\n' ∉ line) ∧
        s.summary.toList = ls.flatMap (· ++ ['\n']) := by
  intro s t
  have hs : s.Reachable := (Reachable.start _ _).performAll _
  have ht : t.Reachable := (Reachable.start _ _).performAll _
  have hmarks : s.cursor.marks.toList = t.cursor.marks.toList := by decide
  obtain ⟨hsame, hlines⟩ := summary_faithful hs ht
  refine ⟨hsame.mpr ⟨by decide, by decide, by decide, Marks.toList_eq_iff.mp hmarks⟩, fun hother => ?_, hlines⟩
  have hpending := ((summary_faithful hs (ht.perform (.key 'g'))).1.mp hother).2.1
  exact absurd hpending (by decide)

end Session

end ModalCursor
