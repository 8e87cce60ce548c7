import Mathlib.Logic.Function.Basic
import Emitter.Text.Indent

/-!
# Text that was set deeper

How `padLines` and `indent` act on a text, character by character, and that the text can be read
back from what they make of it.
-/

namespace Emitter

theorem padLines_cons (width : Nat) (c : Char) (rest : List Char) :
    padLines width (c :: rest) =
      c :: ((if c = '\n' then List.replicate width ' ' else []) ++ padLines width rest) := by
  unfold padLines
  rw [List.flatMap_cons]
  split <;> rfl

theorem padLines_injective (width : Nat) : Function.Injective (padLines width) := by
  intro first second h
  induction first generalizing second with
  | nil =>
    cases second with
    | nil => rfl
    | cons c rest =>
      rw [padLines_cons] at h
      cases h
  | cons c rest ih =>
    cases second with
    | nil =>
      rw [padLines_cons] at h
      cases h
    | cons d others =>
      rw [padLines_cons, padLines_cons] at h
      obtain ⟨rfl, htail⟩ := List.cons.inj h
      rw [ih (List.append_cancel_left htail)]

theorem indent_injective (width : Nat) : Function.Injective (indent width) := by
  have hne : ∀ text : String, text.isEmpty = false → indent width text ≠ "" := by
    intro text hempty h
    rw [indent, hempty, if_neg Bool.false_ne_true] at h
    have hchars := congrArg String.toList h
    simp at hchars
  intro first second h
  cases hfirst : first.isEmpty with
  | true =>
    cases hsecond : second.isEmpty with
    | true => rw [String.isEmpty_iff.1 hfirst, String.isEmpty_iff.1 hsecond]
    | false =>
      rw [String.isEmpty_iff.1 hfirst] at h
      exact absurd h.symm (hne second hsecond)
  | false =>
    cases hsecond : second.isEmpty with
    | true =>
      rw [String.isEmpty_iff.1 hsecond] at h
      exact absurd h (hne first hfirst)
    | false =>
      unfold indent at h
      rw [hfirst, hsecond, if_neg Bool.false_ne_true, if_neg Bool.false_ne_true] at h
      have hpadded := List.append_cancel_right (String.ofList_injective h)
      exact String.toList_inj.1 (List.cons.inj (padLines_injective width hpadded)).2

end Emitter
