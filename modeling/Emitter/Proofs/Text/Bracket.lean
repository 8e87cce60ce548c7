import Mathlib.Logic.Basic
import Emitter.Proofs.Text.Indent

/-!
# Brackets

A text is read from left to right with the open brackets on a stack (`openStep`), and it is
`Balanced` when none is open before it and none after it.  Characters other than the three pairs
of brackets do not count.

What a text does to the stack does not depend on what lies below (`openAfter_append_stack`).  So
balanced texts can be put side by side, into one another and on deeper lines
(`Balanced.append`, `Balanced.insert`, `Balanced.intercalate`, `Balanced.indent`).
-/

namespace Emitter

/-! ## Reading brackets -/

/-- The bracket that a closing bracket closes. -/
def opening? : Char → Option Char
  | ')' => some '('
  | ']' => some '['
  | '}' => some '{'
  | _ => none

/-- Whether a character opens a bracket. -/
def isOpening (c : Char) : Bool := c == '(' || c == '[' || c == '{'

/-- The open brackets without the innermost one, which has to be the given one. -/
def closeTop (bracket : Char) : List Char → Option (List Char)
  | [] => none
  | top :: below => if top = bracket then some below else none

/-- The brackets that are open after a character, innermost first. -/
def openStep (stack : List Char) (c : Char) : Option (List Char) :=
  if isOpening c then some (c :: stack)
  else
    match opening? c with
    | some bracket => closeTop bracket stack
    | none => some stack

/-- The brackets that are open after a text, when those of `stack` are open before it. -/
def openAfter (stack : List Char) (text : String) : Option (List Char) :=
  text.toList.foldlM openStep stack

/-- The brackets of a text are properly nested. -/
def Balanced (text : String) : Prop := openAfter [] text = some []

instance (text : String) : Decidable (Balanced text) :=
  inferInstanceAs (Decidable (openAfter [] text = some []))

theorem openStep_append_stack {stack after : List Char} {c : Char} (below : List Char)
    (h : openStep stack c = some after) : openStep (stack ++ below) c = some (after ++ below) := by
  unfold openStep at h ⊢
  split at h
  · next hopening =>
    cases h
    exact if_pos hopening
  · next hother =>
    rw [if_neg hother]
    split at h
    · next bracket _ =>
      cases stack with
      | nil => cases h
      | cons top inner =>
        simp only [closeTop, List.cons_append] at h ⊢
        split at h
        · next htop =>
          cases h
          exact if_pos htop
        · cases h
    · cases h
      rfl

/-- What a text does to the open brackets does not depend on those below. -/
theorem openAfter_append_stack {stack after : List Char} {text : String} (below : List Char)
    (h : openAfter stack text = some after) :
    openAfter (stack ++ below) text = some (after ++ below) := by
  unfold openAfter at h ⊢
  generalize text.toList = chars at h ⊢
  induction chars generalizing stack with
  | nil =>
    cases h
    rfl
  | cons c rest ih =>
    rw [List.foldlM_cons] at h ⊢
    obtain ⟨next, hstep, hrest⟩ := Option.bind_eq_some_iff.1 h
    exact Option.bind_eq_some_iff.2 ⟨_, openStep_append_stack below hstep, ih hrest⟩

theorem openAfter_append (stack : List Char) (before after : String) :
    openAfter stack (before ++ after) = (openAfter stack before).bind (openAfter · after) := by
  unfold openAfter
  rw [String.toList_append, List.foldlM_append]
  rfl

theorem foldlM_openStep_replicate (n : Nat) (stack : List Char) :
    (List.replicate n ' ').foldlM openStep stack = some stack := by
  induction n with
  | zero => rfl
  | succ n ih => exact ih

/-! ## Balanced texts -/

namespace Balanced

variable {text : String}

/-- A balanced text leaves the open brackets as they are. -/
theorem openAfter_eq (h : Balanced text) (stack : List Char) :
    openAfter stack text = some stack := openAfter_append_stack stack h

theorem empty : Balanced "" := rfl

theorem append {other : String} (h : Balanced text) (hother : Balanced other) :
    Balanced (text ++ other) := by
  unfold Balanced
  rw [openAfter_append, h, Option.bind_some, hother]

/-- A balanced text may be put anywhere into a balanced text. -/
theorem insert {front back : String} (hframe : Balanced (front ++ back)) (h : Balanced text) :
    Balanced (front ++ text ++ back) := by
  unfold Balanced at hframe ⊢
  rw [openAfter_append] at hframe
  obtain ⟨stack, hfront, hback⟩ := Option.bind_eq_some_iff.1 hframe
  rw [openAfter_append, openAfter_append, hfront, Option.bind_some, h.openAfter_eq,
    Option.bind_some, hback]

/-- A list of arguments or parameters after a head. -/
theorem applied {head args : String} (hhead : Balanced head) (hargs : Balanced args) :
    Balanced (head ++ "(" ++ args ++ ")") := by
  refine insert ?_ hargs
  rw [String.append_assoc]
  exact hhead.append (by decide)

theorem join {texts : List String} (h : ∀ text ∈ texts, Balanced text) :
    Balanced (String.join texts) := by
  induction texts with
  | nil => exact empty
  | cons first rest ih =>
    rw [String.join_cons]
    refine (h first List.mem_cons_self).append (ih ?_)
    intro text htext
    exact h text (List.mem_cons_of_mem first htext)

theorem intercalate {separator : String} {texts : List String} (hseparator : Balanced separator)
    (h : ∀ text ∈ texts, Balanced text) : Balanced (separator.intercalate texts) := by
  induction texts with
  | nil => exact empty
  | cons first rest ih =>
    have hfirst : Balanced first := h first List.mem_cons_self
    have hrest : ∀ text ∈ rest, Balanced text := by
      intro text htext
      exact h text (List.mem_cons_of_mem first htext)
    cases rest with
    | nil => simpa using hfirst
    | cons second others =>
      rw [String.intercalate_cons_cons]
      exact (hfirst.append hseparator).append (ih hrest)

/-- Text that is set deeper gets blanks and line breaks, which are no brackets. -/
theorem indent (h : Balanced text) (width : Nat) : Balanced (indent width text) := by
  have hpad : ∀ chars stack, (padLines width chars).foldlM openStep stack =
      chars.foldlM openStep stack := by
    intro chars
    induction chars with
    | nil => exact fun stack => rfl
    | cons c rest ih =>
      intro stack
      have hblanks : ∀ inner, (if c = '\n' then List.replicate width ' ' else []).foldlM openStep
          inner = some inner := by
        intro inner
        split
        · exact foldlM_openStep_replicate width inner
        · rfl
      rw [padLines_cons, List.foldlM_cons, List.foldlM_cons]
      refine bind_congr fun inner => ?_
      rw [List.foldlM_append, hblanks]
      exact ih inner
  unfold Emitter.indent
  split
  · exact empty
  · unfold Balanced openAfter at h ⊢
    rw [String.toList_ofList, List.foldlM_append, hpad, List.foldlM_cons]
    show (text.toList.foldlM openStep [] >>= fun inner => ['\n'].foldlM openStep inner) = some []
    rw [h]
    rfl

end Balanced

end Emitter
