/-!
# Nesting text

`indent width text` sets text one level deeper: it starts on a new line, every
line is preceded by `width` blanks, and the line after it is free for a closing
bracket.  Empty text stays empty, so that empty bodies take no lines.

The blanks of a line are one piece of memory and have to fit the address space.
`indent` is the text as such; `nested?` also knows that limit.
-/

namespace Emitter

/-- Follows every line break by `width` blanks. -/
def padLines (width : Nat) (text : List Char) : List Char :=
  text.flatMap fun c => if c = '\n' then c :: List.replicate width ' ' else [c]

/-- The text one level deeper. -/
def indent (width : Nat) (text : String) : String :=
  if text.isEmpty then ""
  else String.ofList (padLines width ('\n' :: text.toList) ++ ['\n'])

/-- The first width whose blanks do not fit the address space. -/
def widthLimit : Nat := 9223372036854775808

/-- The text one level deeper, if it can be laid out.  Empty text takes no
blanks, whatever the width. -/
def nested? (width : Nat) (text : String) : Option String :=
  if text.isEmpty ∨ width < widthLimit then some (indent width text) else none

section

variable {width : Nat} {text : String}

theorem nested?_of_lt (text : String) (h : width < widthLimit) :
    nested? width text = some (indent width text) := by
  rw [nested?, if_pos (.inr h)]

theorem nested?_of_le (hne : text ≠ "") (h : widthLimit ≤ width) : nested? width text = none := by
  rw [nested?, if_neg]
  rintro (hempty | hlt)
  · exact hne (String.isEmpty_iff.1 hempty)
  · omega

theorem eq_indent_of_nested? {nested : String} (h : nested? width text = some nested) :
    nested = indent width text := by
  unfold nested? at h
  split at h
  · cases h
    rfl
  · cases h

end

end Emitter
