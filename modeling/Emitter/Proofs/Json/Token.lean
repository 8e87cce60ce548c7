import Mathlib.Data.List.Forall2
import Emitter.Json.Reader
import Emitter.Json.Writer

/-!
# Strings and numbers read back

What the writer makes of a string or a number is what the reader takes off the
front of its input again, whatever follows.

* `exists_string?_quoted`: a string literal, with any text in it or none;
* `unsigned?_repr` and `unsigned?_scientific`: plain digits, and digits with an
  exponent.

A string ends at its own closing quote.  A number has no end mark, so what follows
must not go on with it: `EndsNumber` says so of the rest of the input.
-/

namespace Emitter.Json

/-! ## Strings -/

/-- What a written character is read as: itself, or its code where it has to be
escaped by that. -/
def Piece.Spells : Piece → Char → Prop
  | .char d, c => d = c
  | .unit u, c => u = c.toNat ∧ u < 32

theorem hexValue?_hexDigit : ∀ n, n < 16 → hexValue? (hexDigit n) = some n := by
  decide

/-- The four digits of an escape spell the code of a control character. -/
theorem unitValue?_hexDigit {n : Nat} (hn : n < 32) :
    unitValue? '0' '0' (hexDigit (n / 16)) (hexDigit (n % 16)) = some n := by
  have hzero : hexValue? '0' = some 0 := by decide
  have hhigh : hexValue? (hexDigit (n / 16)) = some (n / 16) := hexValue?_hexDigit _ (by omega)
  have hlow : hexValue? (hexDigit (n % 16)) = some (n % 16) := hexValue?_hexDigit _ (by omega)
  simp only [unitValue?, hzero, hhigh, hlow, Option.bind_eq_bind, Option.bind_some]
  congr 1
  omega

/-- A character that needs no escape is a piece of its own. -/
theorem pieces_plain {c : Char} (hquote : c ≠ '"') (hslash : c ≠ '\\') (hcode : ¬ c.toNat < 32)
    (rest : List Char) :
    pieces (c :: rest) = (pieces rest).map fun (tail, rest) => (.char c :: tail, rest) := by
  rw [pieces.eq_def]
  split
  · next h => cases h
  · next h => cases h; exact absurd rfl hquote
  · next h => cases h; exact absurd rfl hslash
  · next h => cases h; exact absurd rfl hslash
  · next h =>
    cases h
    rw [if_neg (by simp [hcode, hslash])]
    cases pieces rest <;> rfl

/-- An escape of one letter is a piece. -/
theorem pieces_short {c e : Char} (hunit : e ≠ 'u') (he : escaped? e = some c)
    (rest : List Char) :
    pieces ('\\' :: e :: rest) =
      (pieces rest).map fun (tail, rest) => (.char c :: tail, rest) := by
  rw [pieces.eq_def]
  split
  · next h => cases h
  · next h => cases h
  · next h => cases h; exact absurd rfl hunit
  · next h =>
    cases h
    rw [he]
    cases pieces rest <;> rfl
  · next hother h => cases h; exact (hother e rest rfl rfl).elim

/-- The three ways to write a character: by an escape of one letter, by its code,
and as it stands. -/
theorem escape_cases (c : Char) :
    (∃ e, e ≠ 'u' ∧ escaped? e = some c ∧ escape c = ['\\', e]) ∨
    (c.toNat < 32 ∧
      escape c = ['\\', 'u', '0', '0', hexDigit (c.toNat / 16), hexDigit (c.toNat % 16)]) ∨
    (c ≠ '"' ∧ c ≠ '\\' ∧ ¬ c.toNat < 32 ∧ escape c = [c]) := by
  unfold escape
  split
  · next h => exact .inl ⟨'"', by decide, by rw [h]; rfl, rfl⟩
  split
  · next h => exact .inl ⟨'\\', by decide, by rw [h]; rfl, rfl⟩
  split
  · next h => exact .inl ⟨'n', by decide, by rw [h]; rfl, rfl⟩
  split
  · next h => exact .inl ⟨'r', by decide, by rw [h]; rfl, rfl⟩
  split
  · next h => exact .inl ⟨'t', by decide, by rw [h]; rfl, rfl⟩
  split
  · next h => exact .inl ⟨'b', by decide, by rw [h]; rfl, rfl⟩
  split
  · next h => exact .inl ⟨'f', by decide, by rw [h]; rfl, rfl⟩
  split
  · next hcode => exact .inr (.inl ⟨hcode, rfl⟩)
  · next hquote hslash _ _ _ _ _ hcode => exact .inr (.inr ⟨hquote, hslash, hcode, rfl⟩)

/-- A written character is read as one piece that spells it. -/
theorem exists_pieces_escape (c : Char) :
    ∃ piece : Piece, piece.Spells c ∧ ∀ rest, pieces (escape c ++ rest) =
      (pieces rest).map fun (tail, rest) => (piece :: tail, rest) := by
  rcases escape_cases c with ⟨e, hunit, he, hc⟩ | ⟨hcode, hc⟩ | ⟨hquote, hslash, hcode, hc⟩
  · refine ⟨.char c, rfl, fun rest => ?_⟩
    rw [hc]
    exact pieces_short hunit he rest
  · refine ⟨.unit c.toNat, ⟨rfl, hcode⟩, fun rest => ?_⟩
    simp only [hc, List.cons_append, List.nil_append, pieces, unitValue?_hexDigit hcode]
    cases pieces rest <;> rfl
  · refine ⟨.char c, rfl, fun rest => ?_⟩
    rw [hc]
    exact pieces_plain hquote hslash hcode rest

/-- The pieces of written text are read up to the closing quote. -/
theorem exists_pieces_text (text : List Char) :
    ∃ parts : List Piece, List.Forall₂ Piece.Spells parts text ∧
      ∀ rest, pieces (text.flatMap escape ++ '"' :: rest) = some (parts, rest) := by
  induction text with
  | nil => exact ⟨[], .nil, fun rest => by simp [pieces]⟩
  | cons c text ih =>
    obtain ⟨piece, hpiece, hread⟩ := exists_pieces_escape c
    obtain ⟨parts, hparts, hrest⟩ := ih
    refine ⟨piece :: parts, .cons hpiece hparts, fun rest => ?_⟩
    rw [List.flatMap_cons, List.append_assoc, hread, hrest]
    rfl

theorem spelled?_unit {u : Nat} (hu : u < 32) (parts : List Piece) :
    spelled? (.unit u :: parts) = (spelled? parts).map (Char.ofNat u :: ·) := by
  have hleading : isLeading u = false := by simp [isLeading]; omega
  have htrailing : isTrailing u = false := by simp [isTrailing]; omega
  cases parts with
  | nil => simp [spelled?, hleading, htrailing]
  | cons piece parts => cases piece <;> simp [spelled?, hleading, htrailing]

theorem spelled?_of_spells {parts : List Piece} {text : List Char}
    (h : List.Forall₂ Piece.Spells parts text) : spelled? parts = some text := by
  induction h with
  | nil => rfl
  | @cons piece c parts text hpiece _ ih =>
    cases piece with
    | char d =>
      cases hpiece
      simp [spelled?, ih]
    | unit u =>
      obtain ⟨rfl, hu⟩ := hpiece
      rw [spelled?_unit hu, ih]
      simp

/-- A string literal starts with a quote, and after it is read back. -/
theorem exists_string?_quoted (text : Option String) :
    ∃ body, quoted text = '"' :: body ∧ ∀ rest, string? (body ++ rest) = some (text, rest) := by
  cases text with
  | none => exact ⟨"\\ud800\"".toList, rfl, fun rest => rfl⟩
  | some text =>
    obtain ⟨parts, hparts, hread⟩ := exists_pieces_text text.toList
    refine ⟨text.toList.flatMap escape ++ ['"'], rfl, fun rest => ?_⟩
    rw [List.append_assoc, List.singleton_append, string?, hread]
    simp [spelled?_of_spells hparts]

/-! ## Digits -/

theorem isDigit_eq (c : Char) : isDigit c = c.isDigit := by
  simp [isDigit, Char.isDigit, Char.le_def]

/-- What comes next does not go on with a run of digits. -/
def EndsDigits (rest : List Char) : Prop := ∀ c ∈ rest.head?, isDigit c = false

/-- What comes next does not go on with a number. -/
def EndsNumber (rest : List Char) : Prop :=
  ∀ c ∈ rest.head?, isDigit c = false ∧ c ≠ '.' ∧ c ≠ 'e' ∧ c ≠ 'E'

theorem EndsNumber.endsDigits {rest : List Char} (h : EndsNumber rest) : EndsDigits rest :=
  fun c hc => (h c hc).1

theorem isDigit_of_mem_repr {n : Nat} {c : Char} (h : c ∈ n.repr.toList) : isDigit c = true := by
  rw [Nat.toList_repr] at h
  rw [isDigit_eq]
  exact Nat.isDigit_of_mem_toDigits (by decide) (by decide) h

/-- A number that is not zero does not start with a zero. -/
theorem head?_repr_ne {n : Nat} (hn : 0 < n) : n.repr.toList.head? ≠ some '0' := by
  induction n using Nat.strongRecOn with
  | ind n ih =>
    rw [Nat.toList_repr]
    by_cases hlt : n < 10
    · rw [Nat.toDigits_of_lt_base hlt]
      simp [Nat.digitChar_eq_zero]
      omega
    · have hhead := ih (n / 10) (by omega) (by omega)
      rw [Nat.toList_repr] at hhead
      rw [Nat.toDigits_of_base_le (by decide) (by omega),
        List.head?_append_of_ne_nil _ Nat.toDigits_ne_nil]
      exact hhead

theorem ofDigits_repr (n : Nat) : Decimal.ofDigits n.repr.toList = n := by
  have h := Nat.ofDigitChars_ten_toDigits (n := n)
  rw [Nat.ofDigitChars_eq_foldl] at h
  rw [Nat.toList_repr]
  exact h

theorem repr_ne_nil (n : Nat) : n.repr.toList ≠ [] := by
  rw [Nat.toList_repr]
  exact Nat.toDigits_ne_nil

theorem takeWhile_isDigit {run rest : List Char} (hrun : ∀ c ∈ run, isDigit c = true)
    (hrest : EndsDigits rest) :
    (run ++ rest).takeWhile isDigit = run ∧ (run ++ rest).dropWhile isDigit = rest := by
  have hstop : rest.takeWhile isDigit = [] ∧ rest.dropWhile isDigit = rest := by
    cases rest with
    | nil => exact ⟨rfl, rfl⟩
    | cons c rest => simp [hrest c rfl]
  rw [List.takeWhile_append_of_pos hrun, List.dropWhile_append_of_pos hrun, hstop.1, hstop.2]
  exact ⟨List.append_nil run, rfl⟩

theorem digits?_repr (n : Nat) {rest : List Char} (hrest : EndsDigits rest) :
    digits? (n.repr.toList ++ rest) = some (n.repr.toList, rest) := by
  obtain ⟨htake, hdrop⟩ := takeWhile_isDigit (fun _ => isDigit_of_mem_repr) hrest
  rw [digits?, htake, hdrop]
  split
  · next h => exact absurd h (repr_ne_nil n)
  · rfl

/-! ## Numbers -/

theorem whole?_repr (n : Nat) {rest : List Char} (hrest : EndsDigits rest) :
    whole? (n.repr.toList ++ rest) = some (n.repr.toList, rest) := by
  by_cases hn : n = 0
  · subst hn
    rfl
  · have hhead : (n.repr.toList ++ rest).head? ≠ some '0' := by
      rw [List.head?_append_of_ne_nil _ (repr_ne_nil n)]
      exact head?_repr_ne (by omega)
    rw [whole?.eq_def]
    split
    · next h => rw [h] at hhead; exact absurd rfl hhead
    · exact digits?_repr n hrest

theorem fraction?_none {rest : List Char} (h : rest.head? ≠ some '.') :
    fraction? rest = some (none, rest) := by
  rw [fraction?.eq_def]
  split
  · exact absurd rfl h
  · rfl

theorem exponent?_none {rest : List Char} (hlower : rest.head? ≠ some 'e')
    (hupper : rest.head? ≠ some 'E') : exponent? rest = some (none, rest) := by
  rw [exponent?.eq_def]
  split
  · exact absurd rfl hlower
  · exact absurd rfl hupper
  · rfl

theorem signedDigits?_repr (e : Int) {rest : List Char} (hrest : EndsDigits rest) :
    signedDigits? (e.repr.toList ++ rest) = some (e, rest) := by
  rw [Int.repr_eq_if]
  split
  · next hpos =>
    have hsign : ∀ c ∈ (e.toNat.repr.toList ++ rest).head?, c ≠ '-' ∧ c ≠ '+' := by
      intro c hc
      rw [List.head?_append_of_ne_nil _ (repr_ne_nil _)] at hc
      have hdigit := isDigit_of_mem_repr (List.mem_of_mem_head? hc)
      constructor
      · rintro rfl
        exact absurd hdigit (by decide)
      · rintro rfl
        exact absurd hdigit (by decide)
    rw [signedDigits?.eq_def]
    split
    · next h => rw [h] at hsign; exact absurd rfl (hsign _ rfl).1
    · next h => rw [h] at hsign; exact absurd rfl (hsign _ rfl).2
    · rw [digits?_repr _ hrest]
      simp only [Option.map_some, ofDigits_repr]
      congr 2
      omega
  · next hneg =>
    have happend : ("-" ++ (-e).toNat.repr).toList ++ rest =
        '-' :: ((-e).toNat.repr.toList ++ rest) := by simp
    rw [happend, signedDigits?, digits?_repr _ hrest]
    simp only [Option.map_some, ofDigits_repr]
    congr 2
    omega

/-- Plain digits are read back as a natural number. -/
theorem unsigned?_repr (n : Nat) {rest : List Char} (hrest : EndsNumber rest) :
    unsigned? false (n.repr.toList ++ rest) = some (.natural n, rest) := by
  have hpoint : rest.head? ≠ some '.' := fun h => (hrest '.' h).2.1 rfl
  have hlower : rest.head? ≠ some 'e' := fun h => (hrest 'e' h).2.2.1 rfl
  have hupper : rest.head? ≠ some 'E' := fun h => (hrest 'E' h).2.2.2 rfl
  simp only [unsigned?, whole?_repr n hrest.endsDigits, fraction?_none hpoint,
    exponent?_none hlower hupper, Option.bind_eq_bind, Option.bind_some]
  rw [numberOf, ofDigits_repr]
  rfl

/-- Digits with an exponent are read back as a decimal number. -/
theorem unsigned?_scientific (negative : Bool) (n : Nat) (e : Int) {rest : List Char}
    (hrest : EndsNumber rest) :
    unsigned? negative (n.repr.toList ++ 'e' :: (e.repr.toList ++ rest)) =
      some (.decimal ⟨negative, n, e⟩, rest) := by
  have hend : EndsDigits ('e' :: (e.repr.toList ++ rest)) := by
    intro c hc
    cases hc
    decide
  have hpoint : ('e' :: (e.repr.toList ++ rest)).head? ≠ some '.' := by simp
  have hexponent : exponent? ('e' :: (e.repr.toList ++ rest)) = some (some e, rest) := by
    rw [exponent?, signedDigits?_repr e hrest.endsDigits]
    rfl
  simp only [unsigned?, whole?_repr n hend, fraction?_none hpoint, hexponent,
    Option.bind_eq_bind, Option.bind_some]
  simp only [numberOf, Option.getD_none, Option.getD_some, List.append_nil, ofDigits_repr]
  simp

end Emitter.Json
