import ModalCursor.Proofs.Formats
/-!
# ModalCursor.Proofs.Documents

**Settings survive documents.** A document that gives each of some settings its value, on a line of its own, is read
back as these settings with the default ones for the rest. It does not matter which settings they are, in which order
they come, and how the lines end. One line more for a key that has one already, or for a key of no setting, spoils it.

This is so for every format that does what is expected of it in general (`Document.Format.ReadsTables`,
`Document.Format.FillsRecords`). What is particular to settings is their declaration: that they have defaults, which are
`Settings.default`, and that they refuse other keys (`Settings.declaration`).
-/

namespace ModalCursor

theorem Setting.key_ne_nil (s : Setting) : s.key ≠ [] := by cases s <;> nofun

theorem Setting.isBareKey_key (s : Setting) : Document.IsBareKey s.key := by cases s <;> decide

namespace Settings

variable {f : Document.Format} {o : Settings} {chosen before after : List Setting} {t : Text}

/-- The entry for a setting. -/
def entry (o : Settings) (s : Setting) : Document.Entry := ⟨s.key, o.value s⟩

/-- The line for a setting. -/
def line (o : Settings) (s : Setting) : Text := Document.line s.key (o.value s).text

theorem lines_eq (o : Settings) (chosen : List Setting) :
    chosen.map o.line = (chosen.map o.entry).map Document.Entry.line := by
  rw [List.map_map]
  rfl

theorem keys_entries (o : Settings) (chosen : List Setting) :
    (chosen.map o.entry).map Document.Entry.key = chosen.map Setting.key := by
  rw [List.map_map]
  rfl

/-- The values of some settings are read back, and the others have their defaults. -/
theorem read?_lines (htables : f.ReadsTables) (hrecords : f.FillsRecords) (ho : o.Fits) (hchosen : chosen.Nodup)
    (ht : Text.LaidOut (chosen.map o.line) t) :
    ∃ read, f.read? t = some read ∧ ∀ s, read.value s = if s ∈ chosen then o.value s else default.value s := by
  rw [lines_eq] at ht
  have hkeys : ((chosen.map o.entry).map Document.Entry.key).Nodup := by
    rw [keys_entries]
    exact hchosen.map Setting.key_injective
  obtain ⟨table, htable⟩ := htables.exists_table ht
    (List.forall_mem_map.mpr fun s _ => ⟨s.isBareKey_key, s.key_ne_nil, ho.value s⟩) hkeys
  obtain ⟨hperm, -⟩ := htables.entries_of_lines ht (List.forall_mem_map.mpr fun s _ => s.isBareKey_key) htable
  have htablekeys : (table.map Document.Entry.key).Nodup := (hperm.map Document.Entry.key).nodup_iff.mpr hkeys
  have hmem : ∀ e, e ∈ table ↔ ∃ s ∈ chosen, o.entry s = e := fun e => hperm.mem_iff.trans List.mem_map
  obtain ⟨read, hread⟩ := hrecords.exists_record (d := declaration) rfl htablekeys fun e he => by
    obtain ⟨s, -, rfl⟩ := (hmem e).mp he
    exact ⟨s, rfl, o, ho, rfl⟩
  refine ⟨read, ?_, fun s => ?_⟩
  · rw [Document.Format.read?, htable]
    exact hread
  · split
    · next hs => exact hrecords.value_of_mem hread htablekeys ((hmem _).mpr ⟨s, hs, rfl⟩) rfl
    · next hs =>
        refine hrecords.value_of_missing hread rfl fun e he hkey => ?_
        obtain ⟨r, hr, rfl⟩ := (hmem e).mp he
        exact hs (Setting.key_injective hkey ▸ hr)

/-- A line too many spoils the document, whatever its value. -/
theorem read?_spoilt (htables : f.ReadsTables) (hrecords : f.FillsRecords) {key : Text} {value : Document.Value}
    (hkey : Document.IsBareKey key) (hspoils : (∃ s ∈ before ++ after, key = s.key) ∨ ∀ s : Setting, key ≠ s.key)
    (ht : Text.LaidOut (before.map o.line ++ Document.line key value.text :: after.map o.line) t) :
    f.read? t = none := by
  have hlines : before.map o.line ++ Document.line key value.text :: after.map o.line =
      (before.map o.entry ++ ⟨key, value⟩ :: after.map o.entry).map Document.Entry.line := by
    rw [lines_eq, lines_eq, List.map_append, List.map_cons]
    rfl
  rw [hlines] at ht
  have hbare : ∀ e ∈ before.map o.entry ++ ⟨key, value⟩ :: after.map o.entry, Document.IsBareKey e.key := by
    rw [List.forall_mem_append, List.forall_mem_cons, List.forall_mem_map, List.forall_mem_map]
    exact ⟨fun s _ => s.isBareKey_key, hkey, fun s _ => s.isBareKey_key⟩
  rw [Document.Format.read?]
  cases htable : f.table? t with
  | none => rfl
  | some table =>
      obtain ⟨hperm, hkeys⟩ := htables.entries_of_lines ht hbare htable
      rcases hspoils with ⟨s, hs, rfl⟩ | hunknown
      · -- The key would come twice.
        rw [List.map_append, List.map_cons, keys_entries, keys_entries, List.nodup_middle, List.nodup_cons,
          ← List.map_append] at hkeys
        exact absurd (List.mem_map_of_mem hs) hkeys.1
      · exact hrecords.refuses_unknown (d := declaration) (e := ⟨key, value⟩) rfl
          (hperm.mem_iff.mpr (List.mem_append_right _ List.mem_cons_self)) hunknown

/-- **Settings survive documents.** Let a format read lines `key = value` as TOML has them, with numbers of up to 64
bits, and let it fill records as they are declared. Let the numbers of settings fit a word of 64 bits, and choose some
of the settings, in any order. The document that has a line `key = value` for each of them is read as these values, with
the default ones for the settings that were not chosen. With one line more at any place, the document is malformed, if
the line is for a key that has a line already, or for a bare key that is no setting's. What it gives the key may then be
any number or boolean. Each line ends in a line feed or in a carriage return with a line feed, but the last may end
without. -/
theorem documents_give_settings (htables : f.ReadsTables) (hrecords : f.FillsRecords) (ho : o.Fits)
    (hchosen : chosen.Nodup) :
    (∀ t, Text.LaidOut (chosen.map o.line) t →
        ∃ read, ofDocument f t = .ok read ∧
          ∀ s, read.value s = if s ∈ chosen then o.value s else default.value s) ∧
      ∀ before after key (value : Document.Value) t, chosen = before ++ after → Document.IsBareKey key →
        ((∃ s ∈ chosen, key = s.key) ∨ ∀ s : Setting, key ≠ s.key) →
        Text.LaidOut (before.map o.line ++ Document.line key value.text :: after.map o.line) t →
        ofDocument f t = .error .malformed := by
  refine ⟨fun t ht => ?read, ?spoilt⟩
  case read =>
    obtain ⟨read, hread, hvalues⟩ := read?_lines htables hrecords ho hchosen ht
    exact ⟨read, ofDocument_eq_ok_iff.mpr hread, hvalues⟩
  case spoilt =>
    rintro before after key value t rfl hkey hspoils ht
    exact ofDocument_eq_error_iff.mpr ⟨rfl, read?_spoilt htables hrecords hkey hspoils ht⟩

/-- Two settings out of order in the program's format, and the same with a key of no setting between them. -/
theorem documents_give_settings_two_lines :
    Document.format.ReadsTables ∧ Document.format.FillsRecords ∧ Settings.Fits ⟨2, false, 5⟩ ∧
      (∃ read, ofDocument Document.format "trail_len = 5\r\nstart_row = 2\n".toList = .ok read ∧
        read.value .startRow = .integer 2 ∧ read.value .centered = .boolean true ∧
        read.value .trailLength = .integer 5) ∧
      ofDocument Document.format "trail_len = 5\nzoom = true\nstart_row = 2".toList = .error .malformed := by
  have ho : Settings.Fits ⟨2, false, 5⟩ := ⟨by decide, by decide⟩
  obtain ⟨hread, hspoilt⟩ := @documents_give_settings Document.format ⟨2, false, 5⟩ [.trailLength, .startRow]
    Document.format_readsTables Document.format_fillsRecords ho (by decide)
  refine ⟨Document.format_readsTables, Document.format_fillsRecords, ho, ?_, ?_⟩
  · obtain ⟨read, hread, hvalue⟩ := hread _ (.pair _ (.lineFeed _ .nil))
    exact ⟨read, hread, hvalue .startRow, hvalue .centered, hvalue .trailLength⟩
  · exact hspoilt [.trailLength] [.startRow] "zoom".toList (.boolean true) _ rfl (by decide)
      (Or.inr fun s => by cases s <;> decide) (.lineFeed _ (.lineFeed _ (.last _)))

end Settings

end ModalCursor
