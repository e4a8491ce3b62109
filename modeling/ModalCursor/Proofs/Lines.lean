import ModalCursor.Buffer.Load
import Mathlib.Logic.ExistsUnique
/-!
# ModalCursor.Proofs.Lines

**Rows are the lines of the text.** A text is made of lines, each a row with its ending; only the last has none. There
is one way to take a text apart like this (`Text.MadeOf.unique`), because a carriage return is an ending of its own
only where no line feed follows. The rows of a buffer are the rows of these lines, so no character of the text is
lost, gained or left behind from an ending.

What the lines are is said without the splitting, in `Text.MadeOf`. A second way to the same rows is to take the lines
whole and drop the ending from each (`Text.dropRowEnd`).
-/

namespace ModalCursor

/-! ### Lines -/

/-- The ways in which a row can end. -/
inductive RowEnd
  | lineFeed
  | carriageReturn
  /-- A carriage return with a line feed, which are one ending. -/
  | pair
  deriving DecidableEq, Repr

def RowEnd.text : RowEnd → Text
  | lineFeed => ['\n']
  | carriageReturn => ['\r']
  | pair => ['\r', '\n']

/-- A row with what ends it, which is nothing at the end of a text. -/
structure Line where
  row : Row
  ending : Option RowEnd
  deriving DecidableEq, Repr

def Line.text (line : Line) : Text := line.row ++ line.ending.elim [] RowEnd.text

/-- No character of the row ends rows. -/
def Row.IsPlain (r : Row) : Prop := ∀ ch ∈ r, ch ≠ '\n' ∧ ch ≠ '\r'

namespace Text

/-- The text is made of these lines: each row is plain and has an ending, but for the last, which has none. A carriage
return before a line feed is not an ending of its own. -/
inductive MadeOf : Text → List Line → Prop
  | last {row : Row} (hplain : row.IsPlain) : MadeOf row [⟨row, none⟩]
  | ended {row : Row} {ending : RowEnd} {t : Text} {lines : List Line} (hplain : row.IsPlain)
      (halone : ending = .carriageReturn → t.head? ≠ some '\n') (hrest : MadeOf t lines) :
      MadeOf (row ++ ending.text ++ t) (⟨row, some ending⟩ :: lines)

/-- The text without the ending that it may end in, one at most. -/
def dropRowEnd (t : Text) : Text :=
  match t.reverse with
  | '\n' :: '\r' :: rest => rest.reverse
  | '\n' :: rest => rest.reverse
  | '\r' :: rest => rest.reverse
  | _ => t

end Text

/-! ### Plain rows -/

namespace Row

variable {r : Row} {ch : Char}

theorem isPlain_nil : IsPlain [] := by
  intro ch hch
  cases hch

theorem isPlain_cons : IsPlain (ch :: r) ↔ isRowEnd ch = false ∧ r.IsPlain := by
  simp [IsPlain, isRowEnd]

theorem IsPlain.reverse_ne (h : r.IsPlain) {rest : Text} :
    r.reverse ≠ '\n' :: rest ∧ r.reverse ≠ '\r' :: rest := by
  have hmem : ∀ ch, r.reverse = ch :: rest → ch ≠ '\n' ∧ ch ≠ '\r' := by
    intro ch hr
    exact h ch (List.mem_reverse.mp (hr ▸ List.mem_cons_self))
  exact ⟨fun hr => (hmem _ hr).1 rfl, fun hr => (hmem _ hr).2 rfl⟩

/-- A plain row has no ending to drop. -/
theorem IsPlain.dropRowEnd (h : r.IsPlain) : Text.dropRowEnd r = r := by
  rw [Text.dropRowEnd]
  split
  · next hr => exact absurd hr h.reverse_ne.1
  · next hr => exact absurd hr h.reverse_ne.1
  · next hr => exact absurd hr h.reverse_ne.2
  · rfl

/-- Nothing of the row goes with its ending. After a line feed that is because the row ends in no carriage return. -/
theorem IsPlain.dropRowEnd_append (h : r.IsPlain) (ending : RowEnd) :
    Text.dropRowEnd (r ++ ending.text) = r := by
  cases ending with
  | pair => simp [Text.dropRowEnd, RowEnd.text]
  | carriageReturn => simp [Text.dropRowEnd, RowEnd.text]
  | lineFeed => simp [Text.dropRowEnd, RowEnd.text, h.reverse_ne]

end Row

theorem RowEnd.isRowEnd_getLast? (ending : RowEnd) : ∃ ch, ending.text.getLast? = some ch ∧ isRowEnd ch = true := by
  cases ending with
  | lineFeed | pair => exact ⟨'\n', rfl, rfl⟩
  | carriageReturn => exact ⟨'\r', rfl, rfl⟩

/-- The ending at the front of a text can be told, because a carriage return is not followed by a line feed. -/
theorem RowEnd.text_append_inj {ending ending' : RowEnd} {t t' : Text}
    (halone : ending = .carriageReturn → t.head? ≠ some '\n')
    (halone' : ending' = .carriageReturn → t'.head? ≠ some '\n')
    (h : ending.text ++ t = ending'.text ++ t') : ending = ending' ∧ t = t' := by
  cases ending with
  | lineFeed =>
      cases ending' with
      | lineFeed => simpa [RowEnd.text] using h
      | carriageReturn | pair => simp [RowEnd.text] at h
  | carriageReturn =>
      cases ending' with
      | lineFeed => simp [RowEnd.text] at h
      | carriageReturn => simpa [RowEnd.text] using h
      | pair =>
          obtain rfl : t = '\n' :: t' := by simpa [RowEnd.text] using h
          simp at halone
  | pair =>
      cases ending' with
      | lineFeed => simp [RowEnd.text] at h
      | carriageReturn =>
          obtain rfl : '\n' :: t = t' := by simpa [RowEnd.text] using h
          simp at halone'
      | pair => simpa [RowEnd.text] using h

/-! ### Splitting along the lines -/

section Split

variable {row : Row} {ch : Char} {t : Text} {ending : RowEnd}

theorem splitRows_cons (h : isRowEnd ch = false) : splitRows (ch :: t) = (splitRows t).modifyHead (ch :: ·) := by
  have hn : ch ≠ '\n' := by
    rintro rfl
    simp [isRowEnd] at h
  have hr : ch ≠ '\r' := by
    rintro rfl
    simp [isRowEnd] at h
  rw [splitRows]
  · exact fun _ hch _ => hr hch
  · exact hn
  · exact hr

/-- A plain row goes in front of the first row of what follows. -/
theorem splitRows_append (h : row.IsPlain) : splitRows (row ++ t) = (splitRows t).modifyHead (row ++ ·) := by
  induction row with
  | nil => exact (congrFun List.modifyHead_id (splitRows t)).symm
  | cons ch row ih =>
      obtain ⟨hch, hrow⟩ := Row.isPlain_cons.mp h
      rw [List.cons_append, splitRows_cons hch, ih hrow, List.modifyHead_modifyHead]
      rfl

theorem splitRows_rowEnd (h : ending = .carriageReturn → t.head? ≠ some '\n') :
    splitRows (ending.text ++ t) = [] :: splitRows t := by
  cases ending with
  | lineFeed => simp [RowEnd.text, splitRows]
  | pair => simp [RowEnd.text, splitRows]
  | carriageReturn =>
      cases t with
      | nil => simp [RowEnd.text, splitRows]
      | cons c t =>
          have hc : c ≠ '\n' := by simpa using h rfl
          simp [RowEnd.text, splitRows, hc]

theorem splitRows_ended (ending : RowEnd) (hplain : row.IsPlain)
    (halone : ending = .carriageReturn → t.head? ≠ some '\n') :
    splitRows (row ++ ending.text ++ t) = row :: splitRows t := by
  rw [List.append_assoc, splitRows_append hplain, splitRows_rowEnd halone, List.modifyHead_cons, List.append_nil]

end Split

namespace Text.MadeOf

variable {t : Text} {lines others : List Line}

/-- The rows that the splitting finds are those of the lines. -/
theorem map_row (h : t.MadeOf lines) : lines.map Line.row = splitRows t := by
  induction h with
  | @last row hplain =>
      have hsplit := splitRows_append (t := []) hplain
      rw [List.append_nil] at hsplit
      simp [hsplit, splitRows]
  | @ended _ ending _ _ hplain halone _ ih => rw [List.map_cons, ih, splitRows_ended ending hplain halone]

/-- The lines have all of the text, in order. -/
theorem flatMap_text (h : t.MadeOf lines) : lines.flatMap Line.text = t := by
  induction h with
  | last hplain => simp [Line.text]
  | ended _ _ _ ih =>
      rw [List.flatMap_cons, ih]
      rfl

theorem isPlain (h : t.MadeOf lines) : ∀ line ∈ lines, line.row.IsPlain := by
  induction h with
  | last hplain => simpa using hplain
  | ended hplain _ _ ih => simpa using ⟨hplain, ih⟩

theorem dropRowEnd_text (h : t.MadeOf lines) : ∀ line ∈ lines, line.text.dropRowEnd = line.row := by
  induction h with
  | last hplain => simpa [Line.text] using hplain.dropRowEnd
  | @ended row ending _ _ hplain _ _ ih =>
      intro line hline
      rcases List.mem_cons.mp hline with rfl | hline
      · exact hplain.dropRowEnd_append ending
      · exact ih line hline

theorem ne_nil (h : t.MadeOf lines) : lines ≠ [] := by
  cases h <;> simp

/-- Where the last row is empty, the text is, or it ends with an ending. -/
theorem of_last_nil (h : t.MadeOf lines) (hlast : (lines.map Line.row).getLast? = some []) :
    t = [] ∨ ∃ ch, t.getLast? = some ch ∧ isRowEnd ch = true := by
  induction h with
  | last hplain => exact Or.inl (by simpa using hlast)
  | @ended row ending t lines _ _ hrest ih =>
      have hrows : lines.map Line.row ≠ [] := by simpa using hrest.ne_nil
      rw [List.map_cons, List.getLast?_cons_of_ne_nil hrows] at hlast
      right
      rcases ih hlast with rfl | ⟨ch, hch, hend⟩
      · obtain ⟨ch, hch, hend⟩ := ending.isRowEnd_getLast?
        exact ⟨ch, by simp [hch], hend⟩
      · exact ⟨ch, by simp [hch], hend⟩

/-! ### There is one way -/

theorem cons {ch : Char} (hch : isRowEnd ch = false) (h : t.MadeOf lines) : ∃ others, MadeOf (ch :: t) others := by
  cases h with
  | last hplain => exact ⟨_, .last (Row.isPlain_cons.mpr ⟨hch, hplain⟩)⟩
  | ended hplain halone hrest => exact ⟨_, .ended (Row.isPlain_cons.mpr ⟨hch, hplain⟩) halone hrest⟩

/-- An ending at the front ends an empty row. -/
theorem rowEnd_append (ending : RowEnd) (halone : ending = .carriageReturn → t.head? ≠ some '\n')
    (h : t.MadeOf lines) : MadeOf (ending.text ++ t) (⟨[], some ending⟩ :: lines) :=
  .ended Row.isPlain_nil halone h

/-- Every text is made of lines. -/
theorem total (t : Text) : ∃ lines, t.MadeOf lines := by
  fun_induction splitRows t with
  | case1 => exact ⟨_, .last Row.isPlain_nil⟩
  | case2 rest ih =>
      obtain ⟨lines, h⟩ := ih
      exact ⟨_, h.rowEnd_append .pair (by simp)⟩
  | case3 rest ih =>
      obtain ⟨lines, h⟩ := ih
      exact ⟨_, h.rowEnd_append .lineFeed (by simp)⟩
  | case4 rest halone ih =>
      obtain ⟨lines, h⟩ := ih
      refine ⟨_, h.rowEnd_append .carriageReturn ?_⟩
      intro _ hhead
      obtain ⟨rest', rfl⟩ := List.head?_eq_some_iff.mp hhead
      exact halone rest' rfl
  | case5 ch rest _ hn hr ih =>
      obtain ⟨lines, h⟩ := ih
      have hch : isRowEnd ch = false := by simpa [isRowEnd] using ⟨hn, hr⟩
      exact h.cons hch

theorem unique (h : t.MadeOf lines) (h' : t.MadeOf others) : lines = others := by
  induction h generalizing others with
  | last hplain =>
      have hrows := (last hplain).map_row.trans h'.map_row.symm
      cases h' with
      | last _ => rfl
      | ended _ _ hrest => simp [hrest.ne_nil] at hrows
  | @ended row ending t lines hplain halone hrest ih =>
      -- The rows agree, so what is left after the first one is an ending and more on both sides.
      have hrows := (ended hplain halone hrest).map_row.trans h'.map_row.symm
      generalize htext : row ++ ending.text ++ t = u at h'
      cases h' with
      | last _ => simp [hrest.ne_nil] at hrows
      | ended _ halone' hrest' =>
          obtain rfl : row = _ := (List.cons.inj hrows).1
          rw [List.append_assoc, List.append_assoc, List.append_cancel_left_eq] at htext
          obtain ⟨rfl, rfl⟩ := RowEnd.text_append_inj halone halone' htext
          rw [ih hrest']

end Text.MadeOf

namespace Buffer

variable {b : Buffer} {t : Text} {lines : List Text}

/-! ### The rows of a buffer -/

/-- The buffer shows the text: there is one way to take the text apart into lines, the lines make up the text, and
their rows, which hold no ending, are the rows of the buffer. These are also what is left of the lines without their
endings. -/
structure Shows (b : Buffer) (t : Text) : Prop where
  unique : ∃! parts, t.MadeOf parts
  text_eq : ∀ parts, t.MadeOf parts → t = parts.flatMap Line.text
  rows_eq : ∀ parts, t.MadeOf parts → b.rows = parts.map Line.row
  dropped_eq : ∀ parts, t.MadeOf parts → b.rows = parts.map fun part => part.text.dropRowEnd
  plain : ∀ row ∈ b.rows, row.IsPlain

theorem ofWhole_shows (t : Text) : (ofWhole t).Shows t where
  unique := by
    obtain ⟨parts, hparts⟩ := Text.MadeOf.total t
    exact ⟨parts, hparts, fun _ hothers => hothers.unique hparts⟩
  text_eq := fun _ h => h.flatMap_text.symm
  rows_eq := fun _ h => h.map_row.symm
  dropped_eq := by
    intro parts h
    exact h.map_row.symm.trans (List.map_congr_left fun part hpart => (h.dropRowEnd_text part hpart).symm)
  plain := by
    obtain ⟨parts, hparts⟩ := Text.MadeOf.total t
    intro row hrow
    have hrow : row ∈ splitRows t := hrow
    rw [← hparts.map_row] at hrow
    obtain ⟨part, hpart, rfl⟩ := List.mem_map.mp hrow
    exact hparts.isPlain part hpart

/-! ### Last rows -/

theorem row_lastRow (b : Buffer) : b.rows.getLast? = some (b.row b.lastRow) := by
  have hlast : b.lastRow < b.rows.length := b.lastRow_lt
  rw [row, row?, List.getElem?_eq_getElem hlast, List.getLast?_eq_getElem?]
  exact List.getElem?_eq_getElem hlast

/-- A text that does not end with an ending has an empty last row only if it is empty. -/
theorem row_lastRow_ofWhole (ht : t ≠ []) (hend : ∀ ch, t.getLast? = some ch → isRowEnd ch = false) :
    (ofWhole t).row (ofWhole t).lastRow ≠ [] := by
  intro hnil
  obtain ⟨parts, hparts⟩ := Text.MadeOf.total t
  have hlast := (ofWhole t).row_lastRow
  rw [hnil, (ofWhole_shows t).rows_eq parts hparts] at hlast
  rcases hparts.of_last_nil hlast with rfl | ⟨ch, hch, hch_end⟩
  · exact ht rfl
  · rw [hend ch hch] at hch_end
    exact absurd hch_end (by decide)

/-! ### Buffers of texts and of lines -/

theorem eq_ofWhole_of_ofText (h : ofText t = .ok b) :
    t.dropEndWhile isRowEnd ≠ [] ∧ b = ofWhole (t.dropEndWhile isRowEnd) := by
  rw [ofText, ofText?] at h
  cases hkept : t.dropEndWhile isRowEnd with
  | nil => simp [hkept] at h
  | cons ch kept =>
      simp only [hkept, Except.ok.injEq] at h
      exact ⟨by simp, h.symm⟩

theorem ofLines_of_ne_nil (h : lines ≠ []) : ofLines lines = .ok (ofWhole (List.intercalate ['\n'] lines)) := by
  cases lines with
  | nil => exact absurd rfl h
  | cons line lines => rfl

/-- Plain rows that are joined by line feeds come back as they were. -/
theorem splitRows_intercalate {rows : List Row} (hne : rows ≠ []) (hplain : ∀ row ∈ rows, row.IsPlain) :
    splitRows (List.intercalate ['\n'] rows) = rows := by
  induction rows with
  | nil => exact absurd rfl hne
  | cons row rows ih =>
      have hrow : row.IsPlain := hplain row (by simp)
      cases rows with
      | nil =>
          rw [List.intercalate_singleton]
          exact (Text.MadeOf.last hrow).map_row.symm
      | cons next rows =>
          have hrest : splitRows (List.intercalate ['\n'] (next :: rows)) = next :: rows :=
            ih (by simp) fun r hr => hplain r (by simp [hr])
          rw [List.intercalate_cons_cons]
          exact (splitRows_ended .lineFeed hrow (by simp)).trans (congrArg (row :: ·) hrest)

/-! ### Reading by row numbers -/

/-- The rows are those that are found by the numbers up to their count, in order. -/
theorem rows_eq_filterMap (b : Buffer) : b.rows = (List.range b.rowCount).filterMap b.row? := by
  have hall : ∀ rows : List Row, (List.range rows.length).filterMap (fun n => rows[n]?) = rows := by
    intro rows
    induction rows with
    | nil => rfl
    | cons row rows ih => simpa [List.range_succ_eq_map, List.filterMap_map, Function.comp_def] using ih
  exact (hall b.rows).symm

theorem rowLength_eq (b : Buffer) (n : Nat) : b.rowLength n = (b.row? n).elim 0 List.length := by
  rw [rowLength, row]
  cases b.row? n <;> rfl

theorem isBreak_iff {n : Nat} :
    b.isBreak n = true ↔ ∃ row, b.row? n = some row ∧ ∀ ch ∈ row, isWhiteSpace ch = true := by
  simp [isBreak, Option.any_eq_true, List.all_eq_true]

/-- **The rows of a buffer are the lines of its text.** A text with more in it than line endings has a buffer, and so
has any list of lines but the empty one. The buffer of a text shows the text without the endings that it closes with,
so its last row is not empty. The buffer of some lines shows the lines joined by line feeds, and lines that hold no
endings are its rows. The rows are counted and found by their numbers from zero on, and one that is white space only
separates paragraphs. -/
theorem rows_are_lines (t : Text) (lines : List Text) :
    ((∃ ch ∈ t, ch ≠ '\n' ∧ ch ≠ '\r') →
      ∃ b kept ends, ofText t = .ok b ∧ t = kept ++ ends ∧ (∀ ch ∈ ends, ch = '\n' ∨ ch = '\r') ∧
        (∀ ch, kept.getLast? = some ch → ch ≠ '\n' ∧ ch ≠ '\r') ∧
        b.Shows kept ∧ b.row b.lastRow ≠ []) ∧
      ((∀ ch ∈ t, ch = '\n' ∨ ch = '\r') → ofText t = .error .empty) ∧
      (lines ≠ [] →
        ∃ b, ofLines lines = .ok b ∧ b.Shows (List.intercalate ['\n'] lines) ∧
          ((∀ line ∈ lines, Row.IsPlain line) → b.rows = lines)) ∧
      (lines = [] → ofLines lines = .error .empty) ∧
      ∀ b : Buffer,
        1 ≤ b.rowCount ∧ b.rows = (List.range b.rowCount).filterMap b.row? ∧
          ∀ n,
            (b.row? n = none ↔ b.rowCount ≤ n) ∧
            b.rowLength n = (b.row? n).elim 0 List.length ∧
            (b.isBreak n = true ↔ ∃ row, b.row? n = some row ∧ ∀ ch ∈ row, isWhiteSpace ch = true) := by
  refine ⟨?_, ?_, ?_, ?_, ?_⟩
  · intro hother
    obtain ⟨b, hb⟩ := exists_ofText hother
    obtain ⟨hne, rfl⟩ := eq_ofWhole_of_ofText hb
    obtain ⟨ends, ht, hends⟩ := Text.exists_append_dropEndWhile isRowEnd t
    have hlast : ∀ ch, (t.dropEndWhile isRowEnd).getLast? = some ch → isRowEnd ch = false :=
      fun ch => Text.getLast?_dropEndWhile
    refine ⟨_, _, ends, hb, ht, fun ch hch => isRowEnd_iff.mp (hends ch hch), ?_, ofWhole_shows _,
      row_lastRow_ofWhole hne hlast⟩
    intro ch hch
    have hink := hlast ch hch
    rw [← Bool.not_eq_true, isRowEnd_iff, not_or] at hink
    exact hink
  · intro hends
    exact ofText_eq_error_iff.mpr ⟨rfl, hends⟩
  · intro hne
    exact ⟨_, ofLines_of_ne_nil hne, ofWhole_shows _, splitRows_intercalate hne⟩
  · rintro rfl
    rfl
  · intro b
    exact ⟨b.rowCount_pos, b.rows_eq_filterMap, fun n => ⟨row?_eq_none_iff, b.rowLength_eq n, isBreak_iff⟩⟩

/-- A carriage return before a pair ends an empty row, and all endings that close the text are gone. Of two lines
the second one may be empty. -/
theorem rows_are_lines_mixed :
    (∃ b, ofText ['a', '\r', '\r', '\n', 'b', '\n', '\r'] = .ok b ∧ b.rows = [['a'], [], ['b']] ∧
        b.row b.lastRow ≠ []) ∧
      ∃ b, ofLines [['x'], []] = .ok b ∧ b.rows = [['x'], []] := by
  obtain ⟨htext, -, hlines, -⟩ := rows_are_lines ['a', '\r', '\r', '\n', 'b', '\n', '\r'] [['x'], []]
  obtain ⟨b, -, -, hb, -, -, -, -, hlast⟩ := htext ⟨'a', by simp, by decide, by decide⟩
  obtain ⟨b', hb', -, hrows⟩ := hlines (by simp)
  have hb_rows : b = ofWhole ['a', '\r', '\r', '\n', 'b'] := (eq_ofWhole_of_ofText hb).2
  refine ⟨⟨b, hb, ?_, hlast⟩, b', hb', hrows (by simp [Row.IsPlain])⟩
  rw [hb_rows]
  decide

end Buffer

end ModalCursor
