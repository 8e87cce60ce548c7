import Mathlib.Data.List.Basic
import Emitter.Toml.Reader

/-!
# Strings and keys read back

Whichever of the four forms the writer picks for a string, the reader takes the
same string off the front of its input again, and nothing of what follows.

* `Takes`: a reader of basic strings takes one written character at a time,
  whether it stands for itself, behind a backslash or as its code.  `basic?` and
  `longBasic?` both do (`takes_basic?`, `takes_longBasic?`).
* `eq_of_opening`: a long string closes at the first three quotes.  Where no three
  stand in a row inside the text, that happens within its last two characters at the
  earliest, and the quotes at its very end are given back by `lastQuotes`.
* `string?_written` and `keyPart?_writtenKey` put the forms together.

The limit on runs of quotes is no condition here: it is the writer that gives up
on such a string, the reader would take it.
-/

namespace Emitter.Toml

/-! ## Characters -/

theorem hexDigit?_upperHex : ∀ n, n < 16 → hexDigit? (upperHex n) = some n := by
  decide

/-- The four digits of an escape spell the code of a character. -/
theorem codePoint?_upperHex {c : Char} (hc : c.toNat < 128) :
    codePoint? ['0', '0', upperHex (c.toNat / 16), upperHex (c.toNat % 16)] = some c := by
  have hzero : hexDigit? '0' = some 0 := by decide
  have hhigh := hexDigit?_upperHex (c.toNat / 16) (by omega)
  have hlow := hexDigit?_upperHex (c.toNat % 16) (by omega)
  have hcode : 16 * (16 * (16 * (16 * 0 + 0) + 0) + c.toNat / 16) + c.toNat % 16 = c.toNat := by
    omega
  have hvalid : c.toNat.isValidChar := .inl (by omega)
  simp only [codePoint?, List.mapM_cons, List.mapM_nil, hzero, hhigh, hlow, Option.bind_eq_bind,
    Option.bind_some, Option.pure_def, List.foldl_cons, List.foldl_nil, hcode]
  rw [if_pos hvalid, Char.ofNat_toNat]

/-- In a text without controls all but the line breaks is plain. -/
theorem isPlain_of_hasControls {text : List Char} (h : hasControls text = false) {c : Char}
    (hc : c ∈ text) (hbreak : c ≠ '\n') : isPlain c = true := by
  have hnone := List.any_eq_false.1 h c hc
  unfold isPlain
  grind

theorem ne_return_of_isPlain {c : Char} (h : isPlain c = true) : c ≠ '\r' ∧ c ≠ '\n' := by
  constructor <;> rintro rfl <;> exact absurd h (by decide)

/-- A property that no blank has keeps a character from being one. -/
theorem isBlank_eq_false {P : Char → Prop} {c : Char} (h : P c) (hspace : ¬ P ' ')
    (htab : ¬ P '\t') : isBlank c = false := by
  rw [← Bool.not_eq_true]
  intro hblank
  simp only [isBlank, Bool.or_eq_true, beq_iff_eq] at hblank
  rcases hblank with rfl | rfl
  · exact hspace h
  · exact htab h

/-! ## One written character -/

/-- Puts a character in front of what was read. -/
def push (c : Char) (result : List Char × List Char) : List Char × List Char :=
  (c :: result.1, result.2)

/-- A reader of basic strings takes one written character at a time. -/
structure Takes (read : List Char → Option (List Char × List Char)) : Prop where
  plain : ∀ {c : Char} (rest : List Char), c ≠ '"' → c ≠ '\\' → isPlain c = true →
    read (c :: rest) = (read rest).map (push c)
  letter : ∀ {c e : Char} (rest : List Char), escaped? e = some c →
    read ('\\' :: e :: rest) = (read rest).map (push c)
  code : ∀ {c : Char} (rest : List Char), c.toNat < 128 →
    read (unicodeEscape c ++ rest) = (read rest).map (push c)

/-- The letter of an escape does not start an escape by code, and no line ends after it. -/
theorem letter_ne {c e : Char} (h : escaped? e = some c) :
    e ≠ 'u' ∧ e ≠ 'U' ∧ isBlank e = false ∧ e ≠ '\n' ∧ e ≠ '\r' := by
  refine ⟨?_, ?_, ?_, ?_, ?_⟩
  · rintro rfl; cases h
  · rintro rfl; cases h
  · exact isBlank_eq_false (P := fun e => escaped? e = some c) h nofun nofun
  · rintro rfl; cases h
  · rintro rfl; cases h

theorem trimsHere_letter {c e : Char} (h : escaped? e = some c) (rest : List Char) :
    trimsHere (e :: rest) = false := by
  obtain ⟨_, _, hblank, hbreak, hreturn⟩ := letter_ne h
  rw [trimsHere, List.dropWhile_cons_of_neg (by simp [hblank]), afterBreak?.eq_def]
  split
  · next heq => cases heq; exact absurd rfl hbreak
  · next heq => cases heq; exact absurd rfl hreturn
  · rfl

theorem takes_basic? : Takes basic? where
  plain := by
    intro c rest hquote hslash hplain
    rw [basic?.eq_def]
    split
    · next h => cases h
    · next h => cases h; exact absurd rfl hquote
    · next h => cases h; exact absurd rfl hslash
    · next h => cases h; exact absurd rfl hslash
    · next h => cases h; exact absurd rfl hslash
    · next h =>
      cases h
      rw [if_pos ⟨hplain, hslash⟩]
      cases basic? rest <;> rfl
  letter := by
    intro c e rest h
    obtain ⟨hshort, hlong, _⟩ := letter_ne h
    rw [basic?.eq_def]
    split
    · next heq => cases heq
    · next heq => cases heq
    · next heq => cases heq; exact absurd rfl hshort
    · next heq => cases heq; exact absurd rfl hlong
    · next heq =>
      cases heq
      rw [h]
      cases basic? rest <;> rfl
    · next hother heq => cases heq; exact (hother e rest rfl rfl).elim
  code := by
    intro c rest h
    simp only [unicodeEscape, List.cons_append, List.nil_append, basic?, codePoint?_upperHex h]
    cases basic? rest <;> rfl

theorem takes_longBasic? : Takes (longBasic? false) where
  plain := by
    intro c rest hquote hslash hplain
    obtain ⟨hreturn, hbreak⟩ := ne_return_of_isPlain hplain
    rw [longBasic?.eq_def]
    split
    · next h => cases h
    · next h => cases h; exact absurd rfl hquote
    · next h => cases h; exact absurd rfl hslash
    · next h => cases h; exact absurd rfl hslash
    · next h => cases h; exact absurd rfl hreturn
    · next h => cases h; exact absurd rfl hbreak
    · next h => cases h; exact absurd rfl hslash
    · next h =>
      cases h
      rw [Bool.false_and, if_neg Bool.false_ne_true, if_pos ⟨hplain, hslash⟩]
      cases longBasic? false rest <;> rfl
  letter := by
    intro c e rest h
    obtain ⟨hshort, hlong, _⟩ := letter_ne h
    rw [longBasic?.eq_def]
    split
    · next heq => cases heq
    · next heq => cases heq
    · next heq => cases heq; exact absurd rfl hshort
    · next heq => cases heq; exact absurd rfl hlong
    · next heq => cases heq
    · next heq => cases heq
    · next heq =>
      cases heq
      rw [trimsHere_letter h, if_neg Bool.false_ne_true, h]
      cases longBasic? false rest <;> rfl
    · next hother heq => cases heq; exact (hother e rest rfl rfl).elim
  code := by
    intro c rest h
    simp only [unicodeEscape, List.cons_append, List.nil_append, longBasic?,
      codePoint?_upperHex h]
    cases longBasic? false rest <;> rfl

/-- The ways to write a character: by a letter, by its code, as it stands, and as it stands in
long strings only. -/
theorem escapeChar_cases (long : Bool) (quotes : Nat) (c : Char) :
    (∃ e, escaped? e = some c ∧ escapeChar long quotes c = ['\\', e]) ∨
    (c.toNat < 128 ∧ escapeChar long quotes c = unicodeEscape c) ∨
    (c ≠ '"' ∧ c ≠ '\\' ∧ isPlain c = true ∧ escapeChar long quotes c = [c]) ∨
    (long = true ∧ (c = '\n' ∨ c = '"' ∧ quotes < 2) ∧ escapeChar long quotes c = [c]) := by
  unfold escapeChar
  split
  · next h =>
    split
    · next hlong =>
      rw [Bool.and_eq_true, decide_eq_true_iff] at hlong
      exact .inr (.inr (.inr ⟨hlong.1, .inr ⟨h, hlong.2⟩, by rw [h]⟩))
    · exact .inl ⟨'"', by rw [h]; rfl, rfl⟩
  split
  · next h => exact .inl ⟨'\\', by rw [h]; rfl, rfl⟩
  split
  · next h =>
    split
    · next hlong => exact .inr (.inr (.inr ⟨hlong, .inl h, by rw [h]⟩))
    · exact .inl ⟨'n', by rw [h]; rfl, rfl⟩
  split
  · next h => exact .inl ⟨'r', by rw [h]; rfl, rfl⟩
  split
  · next h => exact .inl ⟨'t', by rw [h]; rfl, rfl⟩
  split
  · next h => exact .inl ⟨'b', by rw [h]; rfl, rfl⟩
  split
  · next h => exact .inl ⟨'f', by rw [h]; rfl, rfl⟩
  split
  · next hcode => exact .inr (.inl ⟨by omega, rfl⟩)
  · next hquote hslash _ _ _ _ _ hcode =>
    refine .inr (.inr (.inl ⟨hquote, hslash, ?_, rfl⟩))
    unfold isPlain
    grind

/-- What a character is written as is taken as the character, where it does not stand for
itself only in a long string. -/
theorem Takes.escapeChar {read : List Char → Option (List Char × List Char)} (h : Takes read)
    {long : Bool} {quotes : Nat} {c : Char}
    (hc : long = true → c ≠ '\n' ∧ (c = '"' → 2 ≤ quotes)) (rest : List Char) :
    read (escapeChar long quotes c ++ rest) = (read rest).map (push c) := by
  rcases escapeChar_cases long quotes c with
    ⟨e, he, heq⟩ | ⟨hcode, heq⟩ | ⟨hquote, hslash, hplain, heq⟩ | ⟨hlong, hself, _⟩
  · rw [heq]
    exact h.letter rest he
  · rw [heq]
    exact h.code rest hcode
  · rw [heq]
    exact h.plain rest hquote hslash hplain
  · obtain ⟨hbreak, hrun⟩ := hc hlong
    rcases hself with hnewline | ⟨hquote, hfew⟩
    · exact absurd hnewline hbreak
    · have := hrun hquote
      omega

/-! ## Short strings -/

/-- A basic string is read up to its closing quote. -/
theorem basic?_escapeText (text rest : List Char) :
    basic? (escapeText false 0 text ++ '"' :: rest) = some (text, rest) := by
  induction text with
  | nil => simp [escapeText, basic?]
  | cons c text ih =>
    rw [escapeText, if_neg (by simp), List.append_assoc,
      takes_basic?.escapeChar (by simp) _, ih]
    rfl

theorem literal?_plain {c : Char} (hquote : c ≠ '\'') (hplain : isPlain c = true)
    (rest : List Char) : literal? (c :: rest) = (literal? rest).map (push c) := by
  rw [literal?.eq_def]
  split
  · next h => cases h
  · next h => cases h; exact absurd rfl hquote
  · next h =>
    cases h
    rw [if_pos hplain]
    cases literal? rest <;> rfl

/-- A literal string is read up to its closing quote. -/
theorem literal?_append {text : List Char} (hplain : ∀ c ∈ text, isPlain c = true)
    (hquote : '\'' ∉ text) (rest : List Char) :
    literal? (text ++ '\'' :: rest) = some (text, rest) := by
  induction text with
  | nil => simp [literal?]
  | cons c text ih =>
    obtain ⟨hc, htext⟩ := List.forall_mem_cons.1 hplain
    rw [List.mem_cons, not_or] at hquote
    rw [List.cons_append, literal?_plain (Ne.symm hquote.1) hc, ih htext hquote.2]
    rfl

/-! ## Long strings -/

theorem le_longestRun (x : Char) (text : List Char) (run : Nat) : run ≤ longestRun x text run := by
  induction text generalizing run with
  | nil => exact Nat.le_refl run
  | cons c text ih =>
    rw [longestRun]
    split
    · exact Nat.le_trans (Nat.le_succ run) (ih (run + 1))
    · exact Nat.le_max_left _ _

theorem longestRun_mono (x : Char) (text : List Char) {run run' : Nat} (h : run ≤ run') :
    longestRun x text run ≤ longestRun x text run' := by
  induction text generalizing run run' with
  | nil => exact h
  | cons c text ih =>
    rw [longestRun, longestRun]
    split
    · exact ih (Nat.succ_le_succ h)
    · omega

/-- Leaving out the first character makes no run longer. -/
theorem longestRun_tail_le (x c : Char) (text : List Char) :
    longestRun x text 0 ≤ longestRun x (c :: text) 0 := by
  rw [longestRun]
  split
  · exact longestRun_mono x text (Nat.zero_le _)
  · exact Nat.le_max_right _ _

theorem longestRun_replicate (x : Char) (n run : Nat) :
    longestRun x (List.replicate n x) run = run + n := by
  induction n generalizing run with
  | zero => rfl
  | succ n ih =>
    rw [List.replicate_succ, longestRun, if_pos rfl, ih]
    omega

theorem notMem_of_longestRun {x : Char} {text : List Char} (h : longestRun x text 0 = 0) :
    x ∉ text := by
  induction text with
  | nil => exact List.not_mem_nil
  | cons c text ih =>
    have htail := longestRun_tail_le x c text
    rw [List.mem_cons, not_or]
    refine ⟨?_, ih (by omega)⟩
    rintro rfl
    have hone := le_longestRun x text (0 + 1)
    rw [longestRun, if_pos rfl] at h
    omega

theorem longLiteral?_plain {c : Char} (hquote : c ≠ '\'') (hc : c = '\n' ∨ isPlain c = true)
    (rest : List Char) : longLiteral? (c :: rest) = (longLiteral? rest).map (push c) := by
  rw [longLiteral?.eq_def]
  split
  · next h => cases h
  · next h => cases h; exact absurd rfl hquote
  · next h =>
    cases h
    exact absurd hc (by decide)
  · next h =>
    cases h
    cases longLiteral? rest <;> rfl
  · next hbreak h =>
    cases h
    have hplain : isPlain c = true := hc.resolve_left fun hnewline => hbreak hnewline
    rw [if_pos hplain]
    cases longLiteral? rest <;> rfl

/-- A quote that does not close the string is a character of it. -/
theorem longLiteral?_quote {rest : List Char} (h : ¬ ['\'', '\''] <+: rest) :
    longLiteral? ('\'' :: rest) = (longLiteral? rest).map (push '\'') := by
  rw [longLiteral?.eq_def]
  split
  · next heq => cases heq
  · next heq => cases heq; exact absurd (by simp) h
  · next heq => cases heq
  · next heq => cases heq
  · next heq =>
    cases heq
    rw [if_pos (by decide)]
    cases longLiteral? rest <;> rfl

/-- Where three quotes stand in a row although the text has no such run, what is left of the
text is one quote or nothing more. -/
theorem eq_of_opening {x : Char} {text rest : List Char}
    (hrun : longestRun x (x :: text) 0 ≤ 2) (h : [x, x] <+: text ++ x :: x :: x :: rest) :
    text = [] ∨ text = [x] := by
  cases text with
  | nil => exact .inl rfl
  | cons a text =>
    cases text with
    | nil =>
      simp only [List.cons_append, List.cons_prefix_cons] at h
      exact .inr (by rw [h.1])
    | cons b text =>
      simp only [List.cons_append, List.cons_prefix_cons] at h
      obtain ⟨rfl, rfl, _⟩ := h
      have hthree := le_longestRun x text (0 + 1 + 1 + 1)
      simp only [longestRun, if_pos] at hrun
      omega

theorem lastQuotes_break {quote : Char} (h : quote ≠ '\n') (rest : List Char) :
    lastQuotes quote ('\n' :: rest) = ([], '\n' :: rest) := by
  cases rest <;> simp [lastQuotes, Ne.symm h]

/-- A long literal string is read up to its closing quotes. -/
theorem longLiteral?_append {text : List Char} (hplain : ∀ c ∈ text, c = '\n' ∨ isPlain c = true)
    (hrun : longestRun '\'' text 0 ≤ 2) (rest : List Char) :
    longLiteral? (text ++ '\'' :: '\'' :: '\'' :: '\n' :: rest) = some (text, '\n' :: rest) := by
  induction text with
  | nil => simp [longLiteral?, lastQuotes_break]
  | cons c text ih =>
    obtain ⟨hc, htext⟩ := List.forall_mem_cons.1 hplain
    have hih := ih htext (Nat.le_trans (longestRun_tail_le _ c text) hrun)
    by_cases hquote : c = '\''
    · subst hquote
      by_cases hopen : ['\'', '\''] <+: text ++ '\'' :: '\'' :: '\'' :: '\n' :: rest
      · rcases eq_of_opening hrun hopen with rfl | rfl <;> simp [longLiteral?, lastQuotes]
      · rw [List.cons_append, longLiteral?_quote hopen, hih]
        rfl
    · rw [List.cons_append, longLiteral?_plain hquote hc, hih]
      rfl

theorem longBasic?_break (rest : List Char) :
    longBasic? false ('\n' :: rest) = (longBasic? false rest).map (push '\n') := by
  rw [longBasic?]
  cases longBasic? false rest <;> rfl

/-- A quote that does not close the string is a character of it. -/
theorem longBasic?_quote {rest : List Char} (h : ¬ ['"', '"'] <+: rest) :
    longBasic? false ('"' :: rest) = (longBasic? false rest).map (push '"') := by
  rw [longBasic?.eq_def]
  split
  · next heq => cases heq
  · next heq => cases heq; exact absurd (by simp) h
  · next heq => cases heq
  · next heq => cases heq
  · next heq => cases heq
  · next heq => cases heq
  · next heq => cases heq
  · next heq =>
    cases heq
    rw [Bool.false_and, if_neg Bool.false_ne_true, if_pos (by decide)]
    cases longBasic? false rest <;> rfl

/-- The first character of what a character is written as. -/
theorem exists_escapeChar_eq (long : Bool) (quotes : Nat) (c : Char) :
    ∃ first more, escapeChar long quotes c = first :: more ∧
      (first = '"' → long = true ∧ c = '"' ∧ quotes < 2) ∧
      (first = '\n' → c = '\n') ∧ first ≠ '\r' := by
  rcases escapeChar_cases long quotes c with
    ⟨e, _, heq⟩ | ⟨_, heq⟩ | ⟨hquote, _, hplain, heq⟩ | ⟨hlong, hself, heq⟩
  · exact ⟨'\\', [e], heq, nofun, nofun, by decide⟩
  · exact ⟨'\\', _, heq, nofun, nofun, by decide⟩
  · obtain ⟨hreturn, _⟩ := ne_return_of_isPlain hplain
    exact ⟨c, [], heq, fun h => absurd h hquote, id, hreturn⟩
  · refine ⟨c, [], heq, fun h => ?_, id, ?_⟩
    · rcases hself with rfl | hself
      · cases h
      · exact ⟨hlong, hself⟩
    · rcases hself with rfl | ⟨rfl, _⟩ <;> decide

/-- Where three quotes stand in a row in a long basic string, what is left of the text is one
quote or nothing more. -/
theorem eq_of_opening_escapeText {quotes : Nat} {text rest : List Char}
    (h : ['"', '"'] <+: escapeText true (quotes + 1) text ++ '"' :: '"' :: '"' :: rest) :
    text = [] ∨ text = ['"'] ∧ quotes = 0 := by
  cases text with
  | nil => exact .inl rfl
  | cons a text =>
    obtain ⟨first, more, ha, hfirst, _⟩ := exists_escapeChar_eq true (quotes + 1) a
    rw [escapeText, ha, List.append_assoc, List.cons_append, List.cons_prefix_cons] at h
    obtain ⟨_, rfl, hquotes⟩ := hfirst h.1.symm
    have hzero : quotes = 0 := by omega
    subst hzero
    have hmore : more = [] := by
      have hself : escapeChar true 1 '"' = ['"'] := by decide
      rw [Nat.zero_add, hself] at ha
      exact (List.cons.inj ha).2.symm
    subst hmore
    cases text with
    | nil => exact .inr ⟨rfl, rfl⟩
    | cons b text =>
      obtain ⟨second, more, hb, hsecond, _⟩ := exists_escapeChar_eq true 2 b
      rw [Nat.zero_add, if_pos (by decide), escapeText, hb, List.nil_append, List.append_assoc,
        List.cons_append, List.cons_prefix_cons] at h
      exact absurd (hsecond h.2.1.symm).2.2 (by decide)

/-- A long basic string is read up to its closing quotes. -/
theorem longBasic?_escapeText (quotes : Nat) (text rest : List Char) :
    longBasic? false (escapeText true quotes text ++ '"' :: '"' :: '"' :: '\n' :: rest) =
      some (text, '\n' :: rest) := by
  induction text generalizing quotes with
  | nil => simp [escapeText, longBasic?, lastQuotes_break]
  | cons c text ih =>
    rw [escapeText, List.append_assoc]
    by_cases hquote : c = '"' ∧ quotes < 2
    · obtain ⟨rfl, hfew⟩ := hquote
      have hself : escapeChar true quotes '"' = ['"'] := by simp [escapeChar, hfew]
      rw [hself, if_pos (by simp [hfew]), List.singleton_append]
      by_cases hopen : ['"', '"'] <+:
          escapeText true (quotes + 1) text ++ '"' :: '"' :: '"' :: '\n' :: rest
      · rcases eq_of_opening_escapeText hopen with rfl | ⟨rfl, rfl⟩ <;>
          simp [escapeText, escapeChar, longBasic?, lastQuotes]
      · rw [longBasic?_quote hopen, ih]
        rfl
    · rw [if_neg (by simpa using hquote)]
      by_cases hbreak : c = '\n'
      · subst hbreak
        have hself : escapeChar true quotes '\n' = ['\n'] := by simp [escapeChar]
        rw [hself, List.singleton_append, longBasic?_break, ih]
        rfl
      · have hmany : c = '"' → 2 ≤ quotes := fun hc => by
          by_contra hlt
          exact hquote ⟨hc, by omega⟩
        rw [takes_longBasic?.escapeChar (fun _ => ⟨hbreak, hmany⟩), ih]
        rfl

/-! ## The break after the opening quotes -/

theorem skipBreak_of_head {cs : List Char} (h : ∀ c ∈ cs.head?, c ≠ '\n' ∧ c ≠ '\r') :
    skipBreak cs = cs := by
  rw [skipBreak, afterBreak?.eq_def]
  split
  · exact absurd rfl (h '\n' rfl).1
  · exact absurd rfl (h '\r' rfl).2
  · rfl

/-- The break that the writer puts first is skipped, and nothing is where it puts none. -/
theorem skipBreak_leadingBreak {text cs : List Char}
    (h : '\n' ∉ text → ∀ c ∈ cs.head?, c ≠ '\n' ∧ c ≠ '\r') :
    skipBreak (leadingBreak text ++ cs) = cs := by
  unfold leadingBreak
  split
  · rfl
  · next hnone =>
    rw [List.nil_append]
    exact skipBreak_of_head (h (by simpa using hnone))

theorem head_escapeText_append {text : List Char} (hbreak : '\n' ∉ text) (rest : List Char) :
    ∀ c ∈ (escapeText true 0 text ++ '"' :: rest).head?, c ≠ '\n' ∧ c ≠ '\r' := by
  cases text with
  | nil =>
    intro c hc
    cases hc
    decide
  | cons a text =>
    obtain ⟨first, more, ha, _, hnewline, hreturn⟩ := exists_escapeChar_eq true 0 a
    intro c hc
    rw [escapeText, ha, List.append_assoc, List.cons_append, List.head?_cons] at hc
    cases hc
    exact ⟨fun h => hbreak (hnewline h ▸ List.mem_cons_self), hreturn⟩

theorem head_literal_append {text : List Char} (hplain : ∀ c ∈ text, isPlain c = true)
    (rest : List Char) : ∀ c ∈ (text ++ '\'' :: rest).head?, c ≠ '\n' ∧ c ≠ '\r' := by
  cases text with
  | nil =>
    intro c hc
    cases hc
    decide
  | cons a text =>
    intro c hc
    cases hc
    exact (ne_return_of_isPlain (hplain a List.mem_cons_self)).symm

/-! ## Strings -/

theorem string?_basicText (text rest : List Char) :
    string? (basicText text ++ '\n' :: rest) = some (text, '\n' :: rest) := by
  have hread := basic?_escapeText text ('\n' :: rest)
  have happend : basicText text ++ '\n' :: rest =
      '"' :: (escapeText false 0 text ++ '"' :: '\n' :: rest) := by simp [basicText]
  rw [happend, string?.eq_def]
  split
  · next h =>
    -- Inside a basic string every quote has a backslash before it.
    cases text with
    | nil => simp [escapeText] at h
    | cons c text =>
      obtain ⟨first, more, hc, hfirst, _⟩ := exists_escapeChar_eq false 0 c
      rw [escapeText, hc, List.append_assoc, List.cons_append, List.cons_inj_right] at h
      exact absurd (hfirst (List.cons.inj h).1).1 (by decide)
  · next h => cases h; exact hread
  · next h => cases h
  · next h => cases h
  · next h _ _ => exact (h _ rfl).elim

theorem string?_literalText {text : List Char} (hne : text ≠ [])
    (hplain : ∀ c ∈ text, isPlain c = true) (hquote : '\'' ∉ text) (rest : List Char) :
    string? (literalText text ++ rest) = some (text, rest) := by
  have hread := literal?_append hplain hquote rest
  have happend : literalText text ++ rest = '\'' :: (text ++ '\'' :: rest) := by
    simp [literalText]
  rw [happend, string?.eq_def]
  split
  · next h => cases h
  · next h => cases h
  · next h =>
    cases text with
    | nil => exact absurd rfl hne
    | cons c text =>
      have hc : c = '\'' := (List.cons.inj (List.cons.inj h).2).1
      exact absurd (hc ▸ List.mem_cons_self) hquote
  · next h => cases h; exact hread
  · next h => exact (h _ rfl).elim

theorem string?_longBasicText (text rest : List Char) :
    string? (longBasicText text ++ '\n' :: rest) = some (text, '\n' :: rest) := by
  have happend : longBasicText text ++ '\n' :: rest = '"' :: '"' :: '"' ::
      (leadingBreak text ++ (escapeText true 0 text ++ '"' :: '"' :: '"' :: '\n' :: rest)) := by
    simp [longBasicText]
  rw [happend, string?, skipBreak_leadingBreak fun h => head_escapeText_append h _]
  exact longBasic?_escapeText 0 text rest

theorem string?_longLiteralText {text : List Char}
    (hplain : ∀ c ∈ text, c = '\n' ∨ isPlain c = true) (hrun : longestRun '\'' text 0 ≤ 2)
    (rest : List Char) :
    string? (longLiteralText text ++ '\n' :: rest) = some (text, '\n' :: rest) := by
  have happend : longLiteralText text ++ '\n' :: rest = '\'' :: '\'' :: '\'' ::
      (leadingBreak text ++ (text ++ '\'' :: '\'' :: '\'' :: '\n' :: rest)) := by
    simp [longLiteralText]
  have hhead : '\n' ∉ text → ∀ c ∈ (text ++ '\'' :: '\'' :: '\'' :: '\n' :: rest).head?,
      c ≠ '\n' ∧ c ≠ '\r' := fun hbreak =>
    head_literal_append (fun c hc => (hplain c hc).resolve_left fun h => hbreak (h ▸ hc)) _
  rw [happend, string?, skipBreak_leadingBreak hhead]
  exact longLiteral?_append hplain hrun rest

/-- A string at the end of a line is read back. -/
theorem string?_written (text rest : List Char) :
    string? (written text ++ '\n' :: rest) = some (text, '\n' :: rest) := by
  unfold written
  simp only
  split
  · split
    · exact string?_longBasicText text rest
    · exact string?_basicText text rest
  · next hcontrols =>
    rw [Bool.not_eq_true] at hcontrols
    have hplain : ∀ c ∈ text, c = '\n' ∨ isPlain c = true := fun c hc =>
      or_iff_not_imp_left.2 fun hbreak => isPlain_of_hasControls hcontrols hc hbreak
    split
    · exact string?_basicText text rest
    split
    · next hshort hliteral =>
      have hbreak : '\n' ∉ text := by simpa using hliteral.2
      refine string?_literalText ?_ (fun c hc => ?_) (notMem_of_longestRun hliteral.1) _
      · rintro rfl
        exact hshort (by decide)
      · exact (hplain c hc).resolve_left fun h => hbreak (h ▸ hc)
    split
    · exact string?_longBasicText text rest
    split
    · next hfew => exact string?_longLiteralText hplain hfew rest
    split
    · exact string?_longBasicText text rest
    · exact string?_basicText text rest

/-- A written string starts with a quote. -/
theorem exists_written_eq (text : List Char) :
    ∃ body, written text = '"' :: body ∨ written text = '\'' :: body := by
  unfold written
  simp only
  split
  · split
    · exact ⟨_, .inl rfl⟩
    · exact ⟨_, .inl rfl⟩
  split
  · exact ⟨_, .inl rfl⟩
  split
  · exact ⟨_, .inr rfl⟩
  split
  · exact ⟨_, .inl rfl⟩
  split
  · exact ⟨_, .inr rfl⟩
  split
  · exact ⟨_, .inl rfl⟩
  · exact ⟨_, .inl rfl⟩

/-! ## Keys -/

theorem keyPart?_bare {key : List Char} (hne : key ≠ []) (hbare : ∀ c ∈ key, isBareKeyChar c = true)
    {rest : List Char} (hrest : ∀ c ∈ rest.head?, isBareKeyChar c = false) :
    keyPart? (key ++ rest) = some (String.ofList key, rest) := by
  have hstop : rest.takeWhile isBareKeyChar = [] ∧ rest.dropWhile isBareKeyChar = rest := by
    cases rest with
    | nil => exact ⟨rfl, rfl⟩
    | cons c rest => simp [hrest c rfl]
  have htake : (key ++ rest).takeWhile isBareKeyChar = key := by
    rw [List.takeWhile_append_of_pos hbare, hstop.1, List.append_nil]
  have hdrop : (key ++ rest).dropWhile isBareKeyChar = rest := by
    rw [List.dropWhile_append_of_pos hbare, hstop.2]
  cases key with
  | nil => exact absurd rfl hne
  | cons c key =>
    have hc := hbare c List.mem_cons_self
    rw [keyPart?.eq_def]
    split
    · next h => cases h; exact absurd hc (by decide)
    · next h => cases h; exact absurd hc (by decide)
    · rw [htake, hdrop]

/-- The three forms of a key. -/
theorem writtenKey_cases (key : List Char) :
    (key ≠ [] ∧ (∀ c ∈ key, isBareKeyChar c = true) ∧ writtenKey key = key) ∨
    writtenKey key = basicText key ∨
    ((∀ c ∈ key, isPlain c = true) ∧ '\'' ∉ key ∧ writtenKey key = literalText key) := by
  unfold writtenKey
  simp only
  split
  · next h => exact .inl ⟨by simpa using h.1, List.all_eq_true.1 h.2, rfl⟩
  split
  · exact .inr (.inl rfl)
  split
  · next h =>
    obtain ⟨hcontrols, hquote⟩ := h
    rw [Bool.not_eq_true, Bool.or_eq_false_iff] at hcontrols
    refine .inr (.inr ⟨fun c hc => isPlain_of_hasControls hcontrols.1 hc ?_, by simpa using hquote,
      rfl⟩)
    rintro rfl
    simp [hc] at hcontrols
  · exact .inr (.inl rfl)

/-- A key before a blank is read back. -/
theorem keyPart?_writtenKey (key : String) (rest : List Char) :
    keyPart? (writtenKey key.toList ++ ' ' :: rest) = some (key, ' ' :: rest) := by
  rcases writtenKey_cases key.toList with ⟨hne, hbare, heq⟩ | heq | ⟨hplain, hquote, heq⟩
  · have hblank : ∀ c ∈ (' ' :: rest).head?, isBareKeyChar c = false := by
      intro c hc
      cases hc
      decide
    rw [heq, keyPart?_bare hne hbare hblank, String.ofList_toList]
  · rw [heq, basicText, List.append_assoc, List.cons_append, keyPart?, List.singleton_append,
      basic?_escapeText]
    simp
  · rw [heq, literalText, List.append_assoc, List.cons_append, keyPart?, List.singleton_append,
      literal?_append hplain hquote]
    simp

/-- What a key can start with: a character of an unquoted key or a quote. -/
def StartsKey (c : Char) : Prop := isBareKeyChar c = true ∨ c = '"' ∨ c = '\''

instance (c : Char) : Decidable (StartsKey c) := inferInstanceAs (Decidable (_ ∨ _))

theorem StartsKey.isBlank_eq_false {c : Char} (h : StartsKey c) : isBlank c = false :=
  Toml.isBlank_eq_false h (by decide) (by decide)

theorem exists_writtenKey_eq (key : List Char) :
    ∃ first more, writtenKey key = first :: more ∧ StartsKey first := by
  rcases writtenKey_cases key with ⟨hne, hbare, heq⟩ | heq | ⟨_, _, heq⟩
  · obtain ⟨first, more, rfl⟩ := List.exists_cons_of_ne_nil hne
    exact ⟨first, more, heq, .inl (hbare first List.mem_cons_self)⟩
  · exact ⟨'"', _, heq, .inr (.inl rfl)⟩
  · exact ⟨'\'', _, heq, .inr (.inr rfl)⟩

end Emitter.Toml
