import Mathlib.Data.List.Forall2
import Emitter.Proofs.Path
import Emitter.Proofs.Text.Indent

/-!
# The blanks before lines

Two texts are `Respaced` when one comes from the other by taking blanks away after line breaks and
putting others there.  The relation is kept when texts are put side by side and when both are set
deeper, each by a width of its own (`Respaced.indent`): the new blanks stand after line breaks too.

Respaced texts are the same line by line, if the blanks at the beginning of a line do not count,
and their first lines are the same altogether (`Respaced.sameLines`).
-/

namespace Emitter

/-! ## Characters -/

/-- Characters that are the same up to the blanks after line breaks. -/
inductive RespacedChars : List Char → List Char → Prop where
  | nil : RespacedChars [] []
  | char (c : Char) {first second : List Char} (h : RespacedChars first second) :
      RespacedChars (c :: first) (c :: second)
  | lineBreak (i j : Nat) {first second : List Char} (h : RespacedChars first second) :
      RespacedChars ('\n' :: (List.replicate i ' ' ++ first))
        ('\n' :: (List.replicate j ' ' ++ second))

theorem padLines_append (width : Nat) (before after : List Char) :
    padLines width (before ++ after) = padLines width before ++ padLines width after :=
  List.flatMap_append

theorem padLines_replicate (width n : Nat) :
    padLines width (List.replicate n ' ') = List.replicate n ' ' := by
  induction n with
  | zero => rfl
  | succ n ih =>
    rw [List.replicate_succ, padLines_cons, ih]
    rfl

/-- The blanks of a line and those that set it deeper are in one place. -/
theorem padLines_lineBreak (width n : Nat) (rest : List Char) :
    padLines width ('\n' :: (List.replicate n ' ' ++ rest)) =
      '\n' :: (List.replicate (width + n) ' ' ++ padLines width rest) := by
  rw [padLines_cons, if_pos rfl, padLines_append, padLines_replicate, ← List.append_assoc,
    List.replicate_append_replicate]

namespace RespacedChars

variable {first second : List Char}

theorem refl (chars : List Char) : RespacedChars chars chars := by
  induction chars with
  | nil => exact .nil
  | cons c rest ih => exact .char c ih

theorem append {first' second' : List Char} (h : RespacedChars first second)
    (h' : RespacedChars first' second') : RespacedChars (first ++ first') (second ++ second') := by
  induction h with
  | nil => exact h'
  | char c _ ih => exact .char c ih
  | lineBreak i j _ ih =>
    rw [List.cons_append, List.cons_append, List.append_assoc, List.append_assoc]
    exact .lineBreak i j ih

theorem eq_nil_iff (h : RespacedChars first second) : first = [] ↔ second = [] := by
  cases h <;> simp

theorem padLines (width width' : Nat) (h : RespacedChars first second) :
    RespacedChars (padLines width first) (padLines width' second) := by
  induction h with
  | nil => exact .nil
  | char c _ ih =>
    rw [padLines_cons, padLines_cons]
    split
    · next hbreak =>
      rw [hbreak]
      exact .lineBreak width width' ih
    · exact .char c ih
  | lineBreak i j _ ih =>
    rw [padLines_lineBreak, padLines_lineBreak]
    exact .lineBreak _ _ ih

/-- Blanks belong to the line that they are put before. -/
theorem splitOn_replicate (n : Nat) (chars : List Char) :
    (List.replicate n ' ' ++ chars).splitOn '\n' =
      (chars.splitOn '\n').modifyHead (List.replicate n ' ' ++ ·) := by
  induction n with
  | zero =>
    show chars.splitOn '\n' = (chars.splitOn '\n').modifyHead id
    rw [List.modifyHead_id, id]
  | succ n ih =>
    rw [List.replicate_succ, List.cons_append, List.splitOn_cons_eq_if_modifyHead,
      if_neg (by decide), ih]
    cases chars.splitOn '\n' <;> rfl

theorem dropWhile_replicate (n : Nat) (chars : List Char) :
    (List.replicate n ' ' ++ chars).dropWhile (· == ' ') = chars.dropWhile (· == ' ') := by
  induction n with
  | zero => rfl
  | succ n ih => exact ih

/-- The lines after the first one are the same up to the blanks at their beginnings. -/
theorem splitOn (h : RespacedChars first second) :
    ∃ line rest rest', first.splitOn '\n' = line :: rest ∧ second.splitOn '\n' = line :: rest' ∧
      rest.map (List.dropWhile (· == ' ')) = rest'.map (List.dropWhile (· == ' ')) := by
  induction h with
  | nil => exact ⟨[], [], [], rfl, rfl, rfl⟩
  | char c _ ih =>
    obtain ⟨line, rest, rest', hfirst, hsecond, hrest⟩ := ih
    rw [List.splitOn_cons_eq_if_modifyHead, List.splitOn_cons_eq_if_modifyHead, hfirst, hsecond]
    split
    · exact ⟨[], _, _, rfl, rfl, congrArg (_ :: ·) hrest⟩
    · exact ⟨c :: line, rest, rest', rfl, rfl, hrest⟩
  | lineBreak i j _ ih =>
    obtain ⟨line, rest, rest', hfirst, hsecond, hrest⟩ := ih
    rw [List.splitOn_cons_eq_if_modifyHead, List.splitOn_cons_eq_if_modifyHead,
      splitOn_replicate, splitOn_replicate, hfirst, hsecond]
    refine ⟨[], _, _, rfl, rfl, ?_⟩
    rw [List.modifyHead_cons, List.modifyHead_cons, List.map_cons, List.map_cons,
      dropWhile_replicate, dropWhile_replicate, hrest]

end RespacedChars

/-! ## Texts -/

/-- Texts that are the same up to the blanks after line breaks. -/
def Respaced (first second : String) : Prop := RespacedChars first.toList second.toList

/-- A line without the blanks at its beginning. -/
def unindented (line : String) : List Char := line.toList.dropWhile (· == ' ')

/-- Texts with the same first line and, up to the blanks at their beginnings, the same lines. -/
structure SameLines (first second : String) : Prop where
  head : (splitText '\n' first).head? = (splitText '\n' second).head?
  lines : (splitText '\n' first).map unindented = (splitText '\n' second).map unindented

namespace Respaced

variable {first second : String}

theorem refl (text : String) : Respaced text text := RespacedChars.refl text.toList

theorem append {first' second' : String} (h : Respaced first second)
    (h' : Respaced first' second') : Respaced (first ++ first') (second ++ second') := by
  unfold Respaced
  rw [String.toList_append, String.toList_append]
  exact RespacedChars.append h h'

theorem intercalate (separator : String) {firsts seconds : List String}
    (h : List.Forall₂ Respaced firsts seconds) :
    Respaced (separator.intercalate firsts) (separator.intercalate seconds) := by
  induction h with
  | nil => exact refl _
  | cons hfirst hrest ih =>
    cases hrest with
    | nil => simpa using hfirst
    | cons =>
      rw [String.intercalate_cons_cons, String.intercalate_cons_cons]
      exact (hfirst.append (refl separator)).append ih

theorem isEmpty_eq (h : Respaced first second) : first.isEmpty = second.isEmpty := by
  rw [Bool.eq_iff_iff, String.isEmpty_iff, String.isEmpty_iff, ← String.toList_eq_nil_iff,
    ← String.toList_eq_nil_iff, RespacedChars.eq_nil_iff h]

/-- Texts stay respaced when each is set deeper by a width of its own. -/
theorem indent (width width' : Nat) (h : Respaced first second) :
    Respaced (indent width first) (indent width' second) := by
  unfold Emitter.indent
  rw [h.isEmpty_eq]
  split
  · exact refl ""
  · unfold Respaced
    rw [String.toList_ofList, String.toList_ofList]
    exact ((RespacedChars.char '\n' h).padLines width width').append (.refl ['\n'])

theorem sameLines (h : Respaced first second) : SameLines first second := by
  obtain ⟨line, rest, rest', hfirst, hsecond, hrest⟩ := RespacedChars.splitOn h
  have hstrip : unindented ∘ String.ofList = List.dropWhile (· == ' ') := by
    funext chars
    rw [Function.comp_apply, unindented, String.toList_ofList]
  constructor
  · simp only [splitText, hfirst, hsecond, List.map_cons, List.head?_cons]
  · simp only [splitText, hfirst, hsecond, List.map_map, hstrip, List.map_cons, hrest]

end Respaced

end Emitter
