import Emitter.Proofs.Text.Layout

/-!
# The lines of nested text

`indent` goes through a text character by character and puts blanks after the line breaks.  Seen
line by line it frames the lines of the text by two empty ones and puts the same blanks before each
of them (`splitText_indent`), so it can be undone (`outdent_indent`).  Text of two parts is nested
part by part (`indent_lineBreak`).

All that holds of `indent` at every width.  It holds of `nested?` below `widthLimit`; from there on
only empty text can be nested (`nested?_lines`).
-/

namespace Emitter

variable {text : String}

/-- A row of blanks. -/
def blanks (width : Nat) : String := String.ofList (List.replicate width ' ')

/-- The text without its first and last character and without the first `width` characters of each
line between them; in nested text these are line breaks and blanks. -/
def outdent (width : Nat) (text : String) : String :=
  String.ofList (['\n'].intercalate
    ((text.toList.tail.dropLast.splitOn '\n').map (List.drop width)))

/-! ## Characters -/

/-- Blanks after the line breaks stand before every line but the first. -/
theorem splitOn_padLines (width : Nat) (chars : List Char) :
    ∃ line rest, chars.splitOn '\n' = line :: rest ∧
      (padLines width chars).splitOn '\n' = line :: rest.map (List.replicate width ' ' ++ ·) := by
  induction chars with
  | nil => exact ⟨[], [], rfl, rfl⟩
  | cons c chars ih =>
    obtain ⟨line, rest, hchars, hpadded⟩ := ih
    rw [padLines_cons, List.splitOn_cons_eq_if_modifyHead, List.splitOn_cons_eq_if_modifyHead]
    by_cases hc : c = '\n'
    · -- What was the first line has a line break before it now, so it gets blanks like the others.
      refine ⟨[], line :: rest, ?_, ?_⟩
      · rw [if_pos (by simpa using hc), hchars]
      · rw [if_pos (by simpa using hc), if_pos hc, RespacedChars.splitOn_replicate, hpadded,
          List.modifyHead_cons, List.map_cons]
    · refine ⟨c :: line, rest, ?_, ?_⟩
      · rw [if_neg (by simpa using hc), hchars, List.modifyHead_cons]
      · rw [if_neg (by simpa using hc), if_neg hc, List.nil_append, hpadded, List.modifyHead_cons]

/-- With blanks before the first line as well, all lines are treated alike. -/
theorem splitOn_replicate_padLines (width : Nat) (chars : List Char) :
    (List.replicate width ' ' ++ padLines width chars).splitOn '\n' =
      (chars.splitOn '\n').map (List.replicate width ' ' ++ ·) := by
  obtain ⟨line, rest, hchars, hpadded⟩ := splitOn_padLines width chars
  rw [RespacedChars.splitOn_replicate, hpadded, hchars, List.modifyHead_cons, List.map_cons]

/-! ## Texts -/

theorem toList_indent (width : Nat) (hne : text ≠ "") :
    (indent width text).toList =
      '\n' :: (List.replicate width ' ' ++ padLines width text.toList) ++ ['\n'] := by
  rw [indent, if_neg (by simpa using hne), String.toList_ofList, padLines_cons, if_pos rfl]

/-- The lines of nested text are an empty one, those of the text after blanks, and an empty one. -/
theorem splitText_indent (width : Nat) (hne : text ≠ "") :
    splitText '\n' (indent width text) =
      "" :: (splitText '\n' text).map (blanks width ++ ·) ++ [""] := by
  have hline : ∀ line : List Char,
      String.ofList (List.replicate width ' ' ++ line) = blanks width ++ String.ofList line :=
    fun line => String.ofList_append
  unfold splitText
  rw [toList_indent width hne, List.splitOn_append_cons_self, List.splitOn_cons_eq_if_modifyHead,
    if_pos (by decide), splitOn_replicate_padLines]
  simp only [List.map_append, List.map_cons, List.map_map, Function.comp_def, hline]
  rfl

/-- Nested text ends with a line break, and nested text that comes after it begins with one: of the
two, one is kept. -/
theorem indent_lineBreak (width : Nat) {above below : String} (habove : above ≠ "")
    (hbelow : below ≠ "") :
    ∃ upper, indent width above = upper ++ "\n" ∧
      indent width (above ++ "\n" ++ below) = upper ++ indent width below := by
  have hboth : above ++ "\n" ++ below ≠ "" := by simp
  refine ⟨String.ofList (padLines width ('\n' :: above.toList)), ?_, ?_⟩
  · apply String.toList_injective
    rw [toList_indent width habove]
    simp [padLines_cons]
  · apply String.toList_injective
    rw [toList_indent width hboth]
    simp [toList_indent width hbelow, padLines_cons, padLines_append]

theorem outdent_indent (width : Nat) (text : String) :
    outdent width (indent width text) = text := by
  by_cases hne : text = ""
  · rw [hne]
    simp [outdent, indent]
  · have hdrop : ∀ line : List Char, (List.replicate width ' ' ++ line).drop width = line := by
      intro line
      rw [List.drop_left' List.length_replicate]
    rw [outdent, toList_indent width hne, List.cons_append, List.tail_cons,
      List.dropLast_concat, splitOn_replicate_padLines, List.map_map]
    simp only [Function.comp_def, hdrop, List.map_id', List.intercalate_splitOn,
      String.ofList_toList]

/-! ## The limit -/

/-- Empty text stays empty at every width.  Any other text is nested line by line below the limit,
which can be undone and goes part by part, and cannot be nested from the limit on. -/
theorem nested?_lines (width : Nat) :
    nested? width "" = some "" ∧
    (∀ text ≠ "", width < widthLimit → ∃ nested, nested? width text = some nested ∧
      splitText '\n' nested = "" :: (splitText '\n' text).map (blanks width ++ ·) ++ [""] ∧
      outdent width nested = text) ∧
    (∀ above ≠ "", ∀ below ≠ "", width < widthLimit → ∃ upper lower,
      nested? width above = some (upper ++ "\n") ∧ nested? width below = some lower ∧
      nested? width (above ++ "\n" ++ below) = some (upper ++ lower)) ∧
    ∀ text ≠ "", widthLimit ≤ width → nested? width text = none := by
  refine ⟨rfl, ?_, ?_, ?_⟩
  · intro text hne hwidth
    exact ⟨indent width text, nested?_of_lt text hwidth, splitText_indent width hne,
      outdent_indent width text⟩
  · intro above habove below hbelow hwidth
    obtain ⟨upper, hupper, hboth⟩ := indent_lineBreak width habove hbelow
    refine ⟨upper, indent width below, ?_, nested?_of_lt below hwidth, ?_⟩
    · rw [nested?_of_lt above hwidth, hupper]
    · rw [nested?_of_lt _ hwidth, hboth]
  · intro text hne hwidth
    exact nested?_of_le hne hwidth

/-- A text with an empty line and a line that starts with blanks of its own. -/
theorem nested?_lines_emptyLine :
    (∃ nested, nested? 2 "x\n\n y" = some nested ∧
      splitText '\n' nested = ["", "  x", "  ", "   y", ""] ∧ outdent 2 nested = "x\n\n y") ∧
    (∃ upper lower, nested? 2 "x\n" = some (upper ++ "\n") ∧ nested? 2 " y" = some lower ∧
      nested? 2 "x\n\n y" = some (upper ++ lower)) ∧
    nested? widthLimit "x" = none := by
  have hwidth : 2 < widthLimit := by decide
  obtain ⟨-, hlines, hparts, -⟩ := nested?_lines 2
  refine ⟨?_, ?_, ?_⟩
  · exact hlines "x\n\n y" (by decide) hwidth
  · exact hparts "x\n" (by decide) " y" (by decide) hwidth
  · exact (nested?_lines widthLimit).2.2.2 "x" (by decide) (Nat.le_refl widthLimit)

/-- The blanks of one line do not fit the address space, so there are no lines to speak of. -/
theorem no_lines_at_widthLimit :
    nested? widthLimit "a" = none ∧
    ¬ ∃ nested, nested? widthLimit "a" = some nested ∧
      splitText '\n' nested =
        "" :: (splitText '\n' "a").map (blanks widthLimit ++ ·) ++ [""] := by
  have hnone : nested? widthLimit "a" = none := nested?_of_le (by decide) (Nat.le_refl widthLimit)
  refine ⟨hnone, ?_⟩
  rintro ⟨nested, hsome, -⟩
  rw [hnone] at hsome
  cases hsome

end Emitter
