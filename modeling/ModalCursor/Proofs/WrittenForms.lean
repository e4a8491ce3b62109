import ModalCursor.Command
import ModalCursor.Text.Numeral
import Mathlib.Data.List.Nodup
/-!
# ModalCursor.Proofs.WrittenForms

**What is written tells what was meant.** Numbers, positions, quoted characters, actions and commands are each written
in one way, and no two of them are written alike. The parts of such a text are found by the characters that they are
written with (`Text.run_append_inj`): digits end at the first character that is none, and the name of an action at the
blank before its target.

For quoted characters it does not matter which ones are hidden. `Quoted.Written` has the three forms that a character
can take between quotes, and already these do not overlap.
-/

namespace ModalCursor

/-! ### Numbers -/

theorem digitChar_inj : ∀ n < 16, ∀ m < 16, Nat.digitChar n = Nat.digitChar m → n = m := by decide

/-- Numbers differ in their digits, in any base up to sixteen. -/
theorem toDigits_injective {base : Nat} (hbase : 1 < base) (hle : base ≤ 16) :
    Function.Injective (Nat.toDigits base) := by
  -- A number of more than one digit has digits before its last, a smaller one has none.
  have one_ne_more {n m : Nat} (hn : n < base) (hm : base ≤ m) : Nat.toDigits base n ≠ Nat.toDigits base m := by
    rw [Nat.toDigits_of_lt_base hn, Nat.toDigits_of_base_le hbase hm]
    intro h
    have hfront : Nat.toDigits base (m / base) = [] := by simpa using congrArg List.length h
    exact Nat.toDigits_ne_nil hfront
  intro n
  induction n using Nat.strongRecOn with
  | ind n ih =>
      intro m h
      rcases Nat.lt_or_ge n base with hn | hn <;> rcases Nat.lt_or_ge m base with hm | hm
      · rw [Nat.toDigits_of_lt_base hn, Nat.toDigits_of_lt_base hm] at h
        exact digitChar_inj n (by omega) m (by omega) (List.singleton_inj.mp h)
      · exact absurd h (one_ne_more hn hm)
      · exact absurd h.symm (one_ne_more hm hn)
      · rw [Nat.toDigits_of_base_le hbase hn, Nat.toDigits_of_base_le hbase hm] at h
        obtain ⟨hfront, hlast⟩ := List.append_inj' h rfl
        have hn16 : n % base < 16 := Nat.lt_of_lt_of_le (Nat.mod_lt n (by omega)) hle
        have hm16 : m % base < 16 := Nat.lt_of_lt_of_le (Nat.mod_lt m (by omega)) hle
        have hmod := digitChar_inj _ hn16 _ hm16 (List.singleton_inj.mp hlast)
        have hdiv := ih (n / base) (Nat.div_lt_self (by omega) hbase) hfront
        rw [← Nat.div_add_mod n base, ← Nat.div_add_mod m base, hdiv, hmod]

theorem decimal_injective : Function.Injective (Nat.toDigits 10) := toDigits_injective (by decide) (by decide)

/-- A number in decimal can be told from what follows it, if that is no digit. -/
theorem decimal_append_inj {n m : Nat} {t u : Text} (ht : ∀ c ∈ t.head?, c.isDigit = false)
    (hu : ∀ c ∈ u.head?, c.isDigit = false) (h : Nat.toDigits 10 n ++ t = Nat.toDigits 10 m ++ u) :
    n = m ∧ t = u := by
  obtain ⟨hdigits, hrest⟩ := Text.run_append_inj (isDigit_toDigits n) (isDigit_toDigits m) ht hu h
  exact ⟨decimal_injective hdigits, hrest⟩

/-- The digits of a number are those below the base. -/
theorem exists_digitChar_of_mem {base n : Nat} (hbase : 1 < base) {c : Char} (hc : c ∈ Nat.toDigits base n) :
    ∃ d < base, c = Nat.digitChar d := by
  induction n using Nat.strongRecOn with
  | ind n ih =>
      rcases Nat.lt_or_ge n base with hn | hn
      · rw [Nat.toDigits_of_lt_base hn, List.mem_singleton] at hc
        exact ⟨n, hn, hc⟩
      · rw [Nat.toDigits_of_base_le hbase hn, List.mem_append, List.mem_singleton] at hc
        rcases hc with hfront | hlast
        · exact ih (n / base) (Nat.div_lt_self (by omega) hbase) hfront
        · exact ⟨n % base, Nat.mod_lt n (by omega), hlast⟩

theorem isPlain_of_isDigit {c : Char} (h : c.isDigit = true) : isPlain c = true := by
  obtain ⟨hzero, hnine⟩ := Bool.and_eq_true_iff.mp h
  have hlow : ' ' ≤ c := Char.le_trans (by decide : ' ' ≤ '0') (of_decide_eq_true hzero)
  have hhigh : c ≤ '~' := Char.le_trans (of_decide_eq_true hnine) (by decide : '9' ≤ '~')
  rw [isPlain, decide_eq_true hlow, decide_eq_true hhigh, Bool.and_true]

/-! ### Positions -/

namespace Position

theorem toList_text (p : Position) :
    p.text.toList = Nat.toDigits 10 (p.row + 1) ++ ':' :: Nat.toDigits 10 (p.col + 1) := by
  simp [text]

theorem text_injective : Function.Injective text := by
  intro p q h
  have hlists : Nat.toDigits 10 (p.row + 1) ++ ':' :: Nat.toDigits 10 (p.col + 1) =
      Nat.toDigits 10 (q.row + 1) ++ ':' :: Nat.toDigits 10 (q.col + 1) := by
    rw [← toList_text, h, toList_text]
  have hcolon (t : Text) : ∀ c ∈ (':' :: t).head?, c.isDigit = false := fun c hc => Option.some.inj hc ▸ rfl
  obtain ⟨hrow, hrest⟩ := decimal_append_inj (hcolon _) (hcolon _) hlists
  have hcol := decimal_injective (List.cons.inj hrest).2
  exact Position.ext (Nat.succ.inj hrow) (Nat.succ.inj hcol)

/-- Positions are written in digits with a colon between them. -/
theorem mem_text {p : Position} {c : Char} (hc : c ∈ p.text.toList) : c.isDigit = true ∨ c = ':' := by
  rw [toList_text, List.mem_append, List.mem_cons] at hc
  rcases hc with hrow | rfl | hcol
  · exact Or.inl (isDigit_toDigits _ c hrow)
  · exact Or.inr rfl
  · exact Or.inl (isDigit_toDigits _ c hcol)

theorem not_mem_text {p : Position} {c : Char} (hdigit : c.isDigit = false) (hcolon : c ≠ ':') : c ∉ p.text.toList := by
  intro hc
  rcases mem_text hc with h | h
  · simp [hdigit] at h
  · exact hcolon h

end Position

/-! ### Quoted characters -/

namespace Quoted

/-- The characters that have an escape of their own between single quotes, with the letter after the backslash. -/
def shortEscapes : List (Char × Char) :=
  [('\x00', '0'), ('\t', 't'), ('\n', 'n'), ('\r', 'r'), ('\\', '\\'), ('\'', '\'')]

/-- The forms that a character can take between single quotes. Without an escape of its own it can stand for itself. -/
inductive Written : Char → Text → Prop
  | short {c letter : Char} (hescape : (c, letter) ∈ shortEscapes) : Written c ['\\', letter]
  | code (c : Char) : Written c (codeEscape c)
  | self {c : Char} (hself : ∀ x ∈ shortEscapes, x.1 ≠ c) : Written c [c]

theorem written_escape (hidden : Char → Bool) (c : Char) : Written c (escape hidden '\'' c) := by
  unfold escape
  split
  · next h => exact h ▸ .short (by decide)
  split
  · next h => exact h ▸ .short (by decide)
  split
  · next h => exact h ▸ .short (by decide)
  split
  · next h => exact h ▸ .short (by decide)
  split
  · next h => rcases h with rfl | rfl <;> exact .short (by decide)
  split
  · exact .code c
  · next hnull htab hfeed hreturn hsigns _ =>
      refine .self ?_
      rw [not_or] at hsigns
      simp only [shortEscapes, List.forall_mem_cons]
      exact ⟨Ne.symm hnull, Ne.symm htab, Ne.symm hfeed, Ne.symm hreturn, Ne.symm hsigns.1, Ne.symm hsigns.2, nofun⟩

/-- A letter after a backslash stands for one character only. -/
theorem shortEscapes_inj : ∀ x ∈ shortEscapes, ∀ y ∈ shortEscapes, x.2 = y.2 → x.1 = y.1 := by decide

theorem codeEscape_injective : Function.Injective codeEscape := by
  intro a b h
  have hdigits : Nat.toDigits 16 a.toNat = Nat.toDigits 16 b.toNat :=
    List.append_cancel_left (List.append_cancel_right h)
  exact Char.toNat_inj.mp (toDigits_injective (by decide) (by decide) hdigits)

/-- An escape by code is longer than any other form. -/
theorem two_lt_length_codeEscape (c : Char) : 2 < (codeEscape c).length := by
  simp [codeEscape]

/-- No two characters take the same form, and no form of one is a form of another. -/
theorem Written.unique {a b : Char} {t : Text} (ha : Written a t) (hb : Written b t) : a = b := by
  generalize hu : t = u at hb
  cases ha with
  | short hescape =>
      cases hb with
      | short hescape' => exact shortEscapes_inj _ hescape _ hescape' (by simpa using hu)
      | code => exact absurd (congrArg List.length hu) (Nat.ne_of_lt (two_lt_length_codeEscape b))
      | self => simp at hu
  | code =>
      have hlong := two_lt_length_codeEscape a
      cases hb with
      | short => exact absurd (congrArg List.length hu) (Nat.ne_of_gt hlong)
      | code => exact codeEscape_injective hu
      | self => simp [hu] at hlong
  | self =>
      have hlong := two_lt_length_codeEscape b
      cases hb with
      | short => simp at hu
      | code => simp [← hu] at hlong
      | self => simpa using hu

/-- No form of a character breaks the line. -/
theorem Written.not_mem_lineFeed {c : Char} {t : Text} (h : Written c t) : '\n' ∉ t := by
  cases h with
  | short hescape =>
      have hletters : ∀ x ∈ shortEscapes, x.2 ≠ '\n' := by decide
      simpa using (hletters _ hescape).symm
  | code =>
      have hdigits : ∀ d < 16, '\n' ≠ Nat.digitChar d := by decide
      simp only [codeEscape, List.mem_append, not_or]
      refine ⟨⟨by decide, fun hmem => ?_⟩, by decide⟩
      obtain ⟨d, hd, hfeed⟩ := exists_digitChar_of_mem (by decide) hmem
      exact hdigits d hd hfeed
  | self hself =>
      rw [List.mem_singleton]
      exact hself ('\n', 'n') (by decide)

theorem not_mem_charWith (hidden : Char → Bool) (c : Char) : '\n' ∉ charWith hidden c := by
  simpa [charWith] using (written_escape hidden c).not_mem_lineFeed

theorem charWith_injective (hidden : Char → Bool) : Function.Injective (charWith hidden) := by
  intro a b h
  have hescape : escape hidden '\'' a = escape hidden '\'' b :=
    List.append_cancel_right (List.cons.inj h).2
  exact (written_escape hidden a).unique (hescape ▸ written_escape hidden b)

end Quoted

/-! ### Actions -/

namespace Action

/-- Every action with this target, or every one that has none. -/
def withTarget : Option Char → List Action
  | none =>
      [.move .down, .move .up, .move .left, .move .right, .move .wordNext, .move .wordEnd, .move .wordPrev,
        .move .paragraphUp, .move .paragraphDown, .first, .last, .goto, .firstNonBlank, .lineStart, .lineEnd,
        .jumpPrevLine]
  | some ch =>
      [.move (.search .findForward ch), .move (.search .findBackward ch), .move (.search .tillForward ch),
        .move (.search .tillBackward ch), .setMark ch, .jumpToMark ch, .jumpToMarkLine ch]

theorem mem_withTarget (a : Action) : a ∈ withTarget a.target? := by
  have none_mem {b : Action} (h : (withTarget none).contains b = true) : b ∈ withTarget none := by simpa using h
  cases a with
  | move m =>
      cases m with
      | search way ch => cases way <;> simp [withTarget, target?]
      | _ => exact none_mem rfl
  | setMark ch | jumpToMark ch | jumpToMarkLine ch => simp [withTarget, target?]
  | _ => exact none_mem rfl

/-- A target has no part in the name. -/
theorem map_name_withTarget (ch : Char) : (withTarget (some ch)).map name = (withTarget (some 'a')).map name := rfl

/-- Actions with the same target have different names. -/
theorem nodup_names (target : Option Char) : ((withTarget target).map name).Nodup := by
  cases target with
  | none => decide
  | some ch =>
      rw [map_name_withTarget]
      decide

theorem eq_of_name {a b : Action} (hname : a.name = b.name) (htarget : a.target? = b.target?) : a = b :=
  List.inj_on_of_nodup_map (nodup_names a.target?) a.mem_withTarget (htarget ▸ b.mem_withTarget) hname

/-- The characters of names: plain ones, but no blanks and no digits. -/
def isNamePart (c : Char) : Bool := isPlain c && c != ' ' && !c.isDigit

theorem name_parts (a : Action) : a.name.toList ≠ [] ∧ ∀ c ∈ a.name.toList, isNamePart c = true := by
  have hall (target : Option Char) :
      ((withTarget target).map name).all (fun n => n.toList != [] && n.toList.all isNamePart) = true := by
    cases target with
    | none => decide
    | some ch =>
        rw [map_name_withTarget]
        decide
  have hname := List.all_eq_true.mp (hall a.target?) _ (List.mem_map_of_mem a.mem_withTarget)
  rw [Bool.and_eq_true, bne_iff_ne, List.all_eq_true] at hname
  exact hname

/-- What is written after the name. -/
def targetText (hidden : Char → Bool) (target : Option Char) : Text :=
  target.elim [] fun ch => ' ' :: Quoted.charWith hidden ch

theorem targetText_injective (hidden : Char → Bool) : Function.Injective (targetText hidden) := by
  intro x y h
  cases x <;> cases y
  · rfl
  · nomatch h
  · nomatch h
  · exact congrArg some (Quoted.charWith_injective hidden (List.cons.inj h).2)

theorem toList_textWith (hidden : Char → Bool) (a : Action) :
    (a.textWith hidden).toList = a.name.toList ++ targetText hidden a.target? := by
  rw [textWith]
  cases a.target? with
  | none => simp [targetText]
  | some ch => simp [targetText]

/-- No action is written with a line feed, not even one whose target is a line feed. -/
theorem not_mem_textWith (hidden : Char → Bool) (a : Action) : '\n' ∉ (a.textWith hidden).toList := by
  rw [toList_textWith, List.mem_append, not_or]
  refine ⟨fun hmem => absurd (a.name_parts.2 _ hmem) (by decide), ?_⟩
  cases a.target? with
  | none => nofun
  | some ch => simpa [targetText] using Quoted.not_mem_charWith hidden ch

theorem textWith_injective (hidden : Char → Bool) : Function.Injective (textWith hidden) := by
  intro a b h
  have hlists : a.name.toList ++ targetText hidden a.target? = b.name.toList ++ targetText hidden b.target? := by
    rw [← toList_textWith, h, toList_textWith]
  have hblank (target : Option Char) : ∀ c ∈ (targetText hidden target).head?, isNamePart c = false := by
    cases target with
    | none => nofun
    | some ch => exact fun c hc => Option.some.inj hc ▸ rfl
  obtain ⟨hname, htarget⟩ := Text.run_append_inj a.name_parts.2 b.name_parts.2 (hblank _) (hblank _) hlists
  exact eq_of_name (String.toList_inj.mp hname) (targetText_injective hidden htarget)

/-- The text of an action begins with its name, and so with no digit. -/
theorem not_isDigit_head (hidden : Char → Bool) (a : Action) :
    ∀ c ∈ (a.textWith hidden).toList.head?, c.isDigit = false := by
  obtain ⟨hne, hparts⟩ := a.name_parts
  rw [toList_textWith]
  cases hname : a.name.toList with
  | nil => exact absurd hname hne
  | cons first rest =>
      intro c hc
      obtain rfl : first = c := Option.some.inj hc
      have hpart : isNamePart first = true := hparts first (hname ▸ List.mem_cons_self)
      simpa using (Bool.and_eq_true_iff.mp hpart).2

end Action

/-! ### Commands -/

namespace Command

/-- The count in decimal, and nothing where there is none. -/
def countText (count : Option Nat) : Text := count.elim [] (Nat.toDigits 10)

/-- The sign between a count and an action. -/
def signText (count : Option Nat) : Text := count.elim [] fun _ => ['×']

theorem countText_injective : Function.Injective countText := by
  intro x y h
  cases x <;> cases y
  · rfl
  · exact absurd h.symm Nat.toDigits_ne_nil
  · exact absurd h Nat.toDigits_ne_nil
  · exact congrArg some (decimal_injective h)

theorem isDigit_of_mem_countText (count : Option Nat) : ∀ d ∈ countText count, d.isDigit = true := by
  cases count with
  | none => nofun
  | some n => exact isDigit_toDigits n

theorem toList_textWith (hidden : Char → Bool) (c : Command) :
    (c.textWith hidden).toList = countText c.count ++ (signText c.count ++ (c.action.textWith hidden).toList) := by
  rw [textWith]
  cases c.count with
  | none => rfl
  | some n => simp [countText, signText]

/-- **The text of a command tells the command.** Whichever characters are hidden, two commands are written alike just
when they are the same: the same action with the same target, and the same count or none. -/
theorem text_unambiguous (hidden : Char → Bool) (c d : Command) :
    c.textWith hidden = d.textWith hidden ↔ c = d := by
  constructor
  · intro h
    have hlists : countText c.count ++ (signText c.count ++ (c.action.textWith hidden).toList) =
        countText d.count ++ (signText d.count ++ (d.action.textWith hidden).toList) := by
      rw [← toList_textWith, h, toList_textWith]
    have hdigit (e : Command) :
        ∀ x ∈ (signText e.count ++ (e.action.textWith hidden).toList).head?, x.isDigit = false := by
      cases e.count with
      | none => exact e.action.not_isDigit_head hidden
      | some n => exact fun x hx => Option.some.inj hx ▸ rfl
    obtain ⟨hcountText, hrest⟩ :=
      Text.run_append_inj (isDigit_of_mem_countText _) (isDigit_of_mem_countText _) (hdigit c) (hdigit d) hlists
    have hcount : c.count = d.count := countText_injective hcountText
    rw [hcount] at hrest
    have haction : c.action = d.action :=
      Action.textWith_injective hidden (String.toList_inj.mp (List.append_cancel_left hrest))
    cases c
    cases d
    rw [Command.mk.injEq]
    exact ⟨haction, hcount⟩
  · exact fun h => congrArg _ h

end Command

end ModalCursor
