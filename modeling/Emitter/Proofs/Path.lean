import Mathlib.Data.List.Basic
import Mathlib.Data.List.DropRight
import Emitter.Config.Basic

/-!
# Paths and their components

`Path.join` works on text and `Path.components` is what the text means.  The
lemmas below say what the one does to the other.

A path has a lead, which is the root, a leading `.` or nothing, and then the steps
of its segments (`components_eq`).  The steps of a segment do not depend on where
it stands (`Path.steps`), so a segment that does not start at the root adds its
steps and keeps the lead (`components_join`); one that does takes the place of the
whole path (`isAbsolute_join`).

The parent of a path is its text up to the last step but one.  Its steps are those to the
directory that the path is in (`components_of_parent?`).

`Path.Contained` says that a path leads nowhere but down.  The pieces of a dotted
name have no dots, so a directory made of them is contained unless a piece starts
at the root (`contained_ofDotted_iff`).

`Path.IsPlain` says that a segment is one step, into an entry of its own name; an
identifier is.  Where the pieces of a dotted name are plain they are the components of
its directory (`components_ofDotted_of_isPlain`), and only there do the components,
joined with dots, give the name back (`isPlain_of_components_ofDotted`).
-/

namespace Emitter

/-! ## Pieces of a text -/

theorem splitText_ne_nil (separator : Char) (text : String) : splitText separator text ≠ [] := by
  simp [splitText]

theorem splitText_append {separator : Char} {text before after : String}
    (h : text.toList = before.toList ++ separator :: after.toList) :
    splitText separator text = splitText separator before ++ splitText separator after := by
  simp only [splitText, h, List.splitOn_append_cons_self, List.map_append]

/-- A text without the separator is one piece. -/
theorem splitText_eq_singleton {separator : Char} {text : String}
    (h : separator ∉ text.toList) : splitText separator text = [text] := by
  simp [splitText, List.splitOn_eq_singleton h]

/-- A text is put together again from its pieces. -/
theorem intercalate_splitText (separator : Char) (text : String) :
    [separator].intercalate ((splitText separator text).map String.toList) = text.toList := by
  simp [splitText, Function.comp_def, List.intercalate_splitOn]

theorem splitText_injective (separator : Char) {first second : String}
    (h : splitText separator first = splitText separator second) : first = second := by
  have hlists : first.toList = second.toList := by
    rw [← intercalate_splitText separator first, h, intercalate_splitText]
  exact String.toList_inj.1 hlists

/-- The pieces of a joined text are those of its parts. -/
theorem splitText_intercalate {separator : Char} {mark : String}
    (hmark : mark.toList = [separator]) {parts : List String} (h : parts ≠ []) :
    splitText separator (mark.intercalate parts) = parts.flatMap (splitText separator) := by
  induction parts with
  | nil => exact absurd rfl h
  | cons first rest ih =>
    cases rest with
    | nil => simp
    | cons second others =>
      have hchars : (mark.intercalate (first :: second :: others)).toList =
          first.toList ++ separator :: (mark.intercalate (second :: others)).toList := by
        rw [String.intercalate_cons_cons]
        simp [hmark]
      rw [splitText_append hchars, ih (List.cons_ne_nil _ _), ← List.flatMap_cons]

theorem flatMap_splitText {separator : Char} {parts : List String}
    (h : ∀ part ∈ parts, separator ∉ part.toList) :
    parts.flatMap (splitText separator) = parts := by
  rw [List.flatMap_congr fun part hpart => splitText_eq_singleton (h part hpart),
    List.flatMap_singleton']

/-- A piece has the characters of the text, and the separator is not among them. -/
theorem mem_of_mem_splitText {separator c : Char} {text piece : String}
    (h : piece ∈ splitText separator text) (hc : c ∈ piece.toList) :
    c ∈ text.toList ∧ c ≠ separator := by
  obtain ⟨chars, hchars, rfl⟩ := List.mem_map.1 h
  rw [String.toList_ofList] at hc
  clear h
  generalize text.toList = all at hchars ⊢
  induction all generalizing chars with
  | nil =>
    rw [List.splitOn_nil, List.mem_singleton] at hchars
    rw [hchars] at hc
    cases hc
  | cons first rest ih =>
    have hrest : chars ∈ rest.splitOn separator → c ∈ first :: rest ∧ c ≠ separator :=
      fun hmem => ⟨List.mem_cons_of_mem _ (ih chars hc hmem).1, (ih chars hc hmem).2⟩
    rw [List.splitOn_cons_eq_if_modifyHead] at hchars
    split at hchars
    · rcases List.mem_cons.1 hchars with rfl | hmem
      · cases hc
      · exact hrest hmem
    · next hfirst =>
      cases hsplit : rest.splitOn separator with
      | nil => exact absurd hsplit (List.splitOn_ne_nil _ _)
      | cons piece others =>
        rw [hsplit] at hchars hrest ih
        rcases List.mem_cons.1 hchars with rfl | hmem
        · rcases List.mem_cons.1 hc with rfl | hc
          · exact ⟨List.mem_cons_self, by simpa using hfirst⟩
          · have hpiece := ih piece hc List.mem_cons_self
            exact ⟨List.mem_cons_of_mem _ hpiece.1, hpiece.2⟩
        · exact hrest (List.mem_cons_of_mem _ hmem)

/-- The pieces of a dotted text, joined with dots, are the text. -/
theorem intercalate_splitText_dot (text : String) :
    ".".intercalate (splitText '.' text) = text := by
  refine splitText_injective '.' ?_
  rw [splitText_intercalate rfl (splitText_ne_nil _ _)]
  exact flatMap_splitText fun part hpart hdot => (mem_of_mem_splitText hpart hdot).2 rfl

namespace Component

theorem ofSegment?_eq_name {segment text : String} (h : ofSegment? segment = some (.name text)) :
    segment = text ∧ text ≠ "" ∧ text ≠ "." ∧ text ≠ ".." := by
  unfold ofSegment? at h
  split at h
  · cases h
  · next hnone =>
    split at h
    · cases h
    · next hup =>
      cases h
      exact ⟨rfl, fun he => hnone (.inl he), fun he => hnone (.inr he), hup⟩

theorem ofSegment?_of_ne {segment : String} (hempty : segment ≠ "") (hcurrent : segment ≠ ".")
    (hup : segment ≠ "..") : ofSegment? segment = some (.name segment) := by
  simp [ofSegment?, hempty, hcurrent, hup]

theorem ofSegment?_ne_root {segment : String} {step : Component}
    (h : ofSegment? segment = some step) : step ≠ .root := by
  unfold ofSegment? at h
  split at h
  · cases h
  · split at h <;> cases h <;> simp

theorem ofSegment?_eq_parent {segment : String} (h : ofSegment? segment = some .parent) :
    segment = ".." := by
  unfold ofSegment? at h
  split at h
  · cases h
  · split at h
    · next hup => exact hup
    · cases h

end Component

namespace Path

/-! ## Lead and steps -/

/-- The steps of the segments of a text. -/
def steps (text : String) : List Component := (splitText '/' text).filterMap Component.ofSegment?

/-- What a path has before its steps. -/
def lead (p : Path) : List Component :=
  if p.isAbsolute then [.root]
  else if (splitText '/' p.text).head? = some "." then [.current]
  else []

/-- A path starts at the root when its first segment is empty and not the only one. -/
theorem isAbsolute_iff {p : Path} {first : String} {rest : List String}
    (h : splitText '/' p.text = first :: rest) : p.isAbsolute = true ↔ first = "" ∧ rest ≠ [] := by
  unfold splitText at h
  unfold isAbsolute
  cases hchars : p.text.toList with
  | nil =>
    simp only [hchars, List.splitOn_nil, List.map_cons, List.map_nil, List.cons.injEq] at h
    simp [← h.2]
  | cons c chars =>
    rw [hchars, List.splitOn_cons_eq_if_modifyHead] at h
    have hsplit := List.splitOn_ne_nil '/' chars
    by_cases hc : c = '/'
    · simp only [hc, beq_self_eq_true, if_true, List.map_cons, List.cons.injEq] at h
      simp [hc, ← h.1, ← h.2, hsplit]
    · cases hrest : chars.splitOn '/' with
      | nil => exact absurd hrest hsplit
      | cons piece others =>
        simp only [hrest, beq_iff_eq, hc, if_false, List.modifyHead_cons, List.map_cons, List.cons.injEq] at h
        simp [hc, ← h.1]

theorem components_eq (p : Path) : p.components = p.lead ++ steps p.text := by
  unfold components lead steps
  cases hsplit : splitText '/' p.text with
  | nil => exact absurd hsplit (splitText_ne_nil _ _)
  | cons first rest =>
    by_cases habs : p.isAbsolute = true
    · have hfirst := ((isAbsolute_iff hsplit).1 habs).1
      simp [habs, hfirst, Component.ofSegment?]
    · by_cases hdot : first = "."
      · simp [habs, hdot, Component.ofSegment?]
      · cases hstep : Component.ofSegment? first <;> simp [habs, hdot, hstep]

@[simp] theorem steps_empty : steps "" = [] := by decide

theorem root_notMem_steps (text : String) : .root ∉ steps text := by
  intro h
  obtain ⟨segment, _, hstep⟩ := List.mem_filterMap.1 h
  exact Component.ofSegment?_ne_root hstep rfl

theorem parent_notMem_steps {text : String} (h : ".." ∉ splitText '/' text) :
    .parent ∉ steps text := by
  intro hmem
  obtain ⟨segment, hsegment, hstep⟩ := List.mem_filterMap.1 hmem
  exact h (Component.ofSegment?_eq_parent hstep ▸ hsegment)

theorem parent_notMem_lead (p : Path) : .parent ∉ p.lead := by
  unfold lead
  split
  · simp
  · split <;> simp

theorem root_mem_lead_iff {p : Path} : .root ∈ p.lead ↔ p.isAbsolute = true := by
  unfold lead
  split
  · next h => simp [h]
  · next h =>
    split <;> simp [h]

/-! ## Joining -/

/-- A segment that does not start at the root goes after a separator. -/
theorem splitText_join {p : Path} {segment : String} (hne : p.text ≠ "")
    (hrel : (⟨segment⟩ : Path).isAbsolute = false) :
    ∃ before after, splitText '/' p.text = splitText '/' before ++ after ∧
      after.filterMap Component.ofSegment? = [] ∧
      splitText '/' (p.join segment).text = splitText '/' before ++ splitText '/' segment := by
  have hhead : segment.toList.head? ≠ some '/' := by simpa [isAbsolute] using hrel
  unfold join
  rw [if_neg hhead]
  split
  · next hor =>
    have hlast : p.text.toList.getLast? = some '/' := by
      rcases hor with hempty | hlast
      · exact absurd (String.isEmpty_iff.1 hempty) hne
      · exact hlast
    obtain ⟨chars, hchars⟩ := List.getLast?_eq_some_iff.1 hlast
    have hp : p.text.toList = (String.ofList chars).toList ++ '/' :: "".toList := by simp [hchars]
    refine ⟨String.ofList chars, [""], ?_, by simp [Component.ofSegment?], ?_⟩
    · rw [splitText_append hp]
      simp [splitText]
    · exact splitText_append (by simp [hchars])
  · exact ⟨p.text, [], by simp, rfl, splitText_append (by simp)⟩

theorem join_of_isEmpty {p : Path} {segment : String} (h : p.text = "") :
    p.join segment = ⟨segment⟩ := by
  unfold join
  split
  · rfl
  · simp [h]

theorem join_of_isAbsolute {p : Path} {segment : String}
    (h : (⟨segment⟩ : Path).isAbsolute = true) : p.join segment = ⟨segment⟩ := by
  have hhead : segment.toList.head? = some '/' := by simpa [isAbsolute] using h
  rw [join, if_pos hhead]

theorem steps_join {p : Path} {segment : String}
    (hrel : (⟨segment⟩ : Path).isAbsolute = false) :
    steps (p.join segment).text = steps p.text ++ steps segment := by
  by_cases hne : p.text = ""
  · rw [join_of_isEmpty hne, hne, steps_empty, List.nil_append]
  · obtain ⟨before, after, hp, hafter, hjoin⟩ := splitText_join hne hrel
    simp [steps, hp, hafter, hjoin]

theorem isAbsolute_join (p : Path) (segment : String) :
    (p.join segment).isAbsolute = (p.isAbsolute || (⟨segment⟩ : Path).isAbsolute) := by
  cases hrel : (⟨segment⟩ : Path).isAbsolute with
  | true => rw [join_of_isAbsolute hrel, hrel, Bool.or_true]
  | false =>
    by_cases hne : p.text = ""
    · rw [join_of_isEmpty hne, hrel, Bool.or_false]
      simp [isAbsolute, hne]
    · have hhead : segment.toList.head? ≠ some '/' := by simpa [isAbsolute] using hrel
      have hchars : p.text.toList ≠ [] := fun h => hne (String.toList_eq_nil_iff.1 h)
      rw [Bool.or_false, join, if_neg hhead]
      split <;> simp [isAbsolute, List.head?_append_of_ne_nil _ hchars]

theorem lead_join {p : Path} {segment : String} (hne : p.text ≠ "")
    (hrel : (⟨segment⟩ : Path).isAbsolute = false) : (p.join segment).lead = p.lead := by
  obtain ⟨before, after, hp, _, hjoin⟩ := splitText_join hne hrel
  have hbefore := splitText_ne_nil '/' before
  unfold lead
  rw [isAbsolute_join, hrel, Bool.or_false, hp, hjoin, List.head?_append_of_ne_nil _ hbefore,
    List.head?_append_of_ne_nil _ hbefore]

/-- A segment that does not start at the root adds its steps. -/
theorem components_join {p : Path} {segment : String} (hne : p.text ≠ "")
    (hrel : (⟨segment⟩ : Path).isAbsolute = false) :
    (p.join segment).components = p.components ++ steps segment := by
  rw [components_eq, components_eq p, lead_join hne hrel, steps_join hrel, List.append_assoc]

theorem components_of_isEmpty {p : Path} (h : p.text = "") : p.components = [] := by
  obtain ⟨text⟩ := p
  cases h
  decide

theorem components_empty : empty.components = [] := components_of_isEmpty rfl

/-- A segment without a lead adds its steps wherever it is put. -/
theorem components_join_of_lead {p : Path} {segment : String}
    (hlead : (⟨segment⟩ : Path).lead = []) :
    (p.join segment).components = p.components ++ steps segment := by
  have hrel : (⟨segment⟩ : Path).isAbsolute = false := by
    rw [← Bool.not_eq_true, ← root_mem_lead_iff, hlead]
    simp
  by_cases hne : p.text = ""
  · rw [join_of_isEmpty hne, components_eq, hlead, components_of_isEmpty hne]
  · exact components_join hne hrel

/-- Segments without a lead add their steps one after the other. -/
theorem components_foldl_join_of_lead {p : Path} {segments : List String}
    (h : ∀ segment ∈ segments, (⟨segment⟩ : Path).lead = []) :
    (segments.foldl join p).components = p.components ++ segments.flatMap steps := by
  induction segments generalizing p with
  | nil => simp
  | cons first rest ih =>
    obtain ⟨hfirst, hrest⟩ := List.forall_mem_cons.1 h
    rw [List.foldl_cons, ih hrest, components_join_of_lead hfirst, List.flatMap_cons,
      List.append_assoc]

/-! ## Parents -/

/-- Dropping segments that stand for nothing leaves the steps. -/
theorem filterMap_dropIdle (segments : List String) :
    (dropIdle segments).filterMap Component.ofSegment? =
      segments.filterMap Component.ofSegment? := by
  induction segments using List.reverseRecOn with
  | nil => rfl
  | append_singleton segments last ih =>
    show ((segments ++ [last]).rdropWhile _).filterMap _ = _
    rw [List.rdropWhile_concat]
    split
    · next hidle =>
      have hnone := Option.isNone_iff_eq_none.1 hidle
      exact ih.trans (by simp [hnone])
    · rfl

theorem prefix_dropIdle (segments : List String) : dropIdle segments <+: segments :=
  List.rdropWhile_prefix _ segments

/-- What is left ends in a segment that stands for a step, unless nothing is left. -/
theorem filterMap_dropLast_dropIdle (segments : List String) :
    (dropIdle segments).dropLast.filterMap Component.ofSegment? =
      (segments.filterMap Component.ofSegment?).dropLast := by
  induction segments using List.reverseRecOn with
  | nil => rfl
  | append_singleton segments last ih =>
    show (((segments ++ [last]).rdropWhile _).dropLast).filterMap _ = _
    rw [List.rdropWhile_concat]
    split
    · next hidle =>
      have hnone := Option.isNone_iff_eq_none.1 hidle
      exact ih.trans (by simp [hnone])
    · next hstep =>
      obtain ⟨step, hstep⟩ := Option.ne_none_iff_exists'.1 (mt Option.isNone_iff_eq_none.2 hstep)
      simp [hstep]

theorem dropIdle_eq_nil_iff {segments : List String} :
    dropIdle segments = [] ↔ segments.filterMap Component.ofSegment? = [] := by
  rw [List.filterMap_eq_nil_iff]
  refine List.rdropWhile_eq_nil_iff.trans ?_
  simp only [Option.isNone_iff_eq_none]

theorem beforeLast?_eq_none_iff {segments : List String} :
    beforeLast? segments = none ↔ segments.filterMap Component.ofSegment? = [] := by
  rw [← dropIdle_eq_nil_iff]
  unfold beforeLast?
  split <;> simp_all

/-- The segments before the last step have all steps but this one. -/
theorem append_filterMap_of_beforeLast? {segments kept : List String}
    (h : beforeLast? segments = some kept) (lead : List Component) :
    lead ++ kept.filterMap Component.ofSegment? =
      (lead ++ segments.filterMap Component.ofSegment?).dropLast := by
  have hsome : segments.filterMap Component.ofSegment? ≠ [] := fun hnil => by
    rw [beforeLast?_eq_none_iff.2 hnil] at h
    cases h
  rw [List.dropLast_append_of_ne_nil hsome]
  unfold beforeLast? at h
  split at h
  · cases h
  · cases h
    rw [filterMap_dropIdle, filterMap_dropLast_dropIdle]

theorem prefix_of_beforeLast? {segments kept : List String} (h : beforeLast? segments = some kept) :
    kept <+: segments := by
  unfold beforeLast? at h
  split at h
  · cases h
  · cases h
    exact (prefix_dropIdle _).trans ((List.dropLast_prefix _).trans (prefix_dropIdle _))

/-- Joined segments of a path are split into the segments again. -/
theorem splitText_intercalate_of_subset {text : String} {kept : List String}
    (h : kept ⊆ splitText '/' text) (hne : kept ≠ []) :
    splitText '/' ("/".intercalate kept) = kept := by
  rw [splitText_intercalate rfl hne]
  exact flatMap_splitText fun part hpart hslash => (mem_of_mem_splitText (h hpart) hslash).2 rfl

theorem steps_intercalate_of_subset {text : String} {kept : List String}
    (h : kept ⊆ splitText '/' text) :
    steps ("/".intercalate kept) = kept.filterMap Component.ofSegment? := by
  cases kept with
  | nil => exact steps_empty
  | cons first rest => rw [steps, splitText_intercalate_of_subset h (List.cons_ne_nil _ _)]

/-- The components by the segments. -/
theorem components_of_splitText {text first : String} {rest : List String}
    (h : splitText '/' text = first :: rest) :
    (⟨text⟩ : Path).components = (if first = "" ∧ rest ≠ [] then [.root]
      else if first = "." then [.current] else []) ++
        (first :: rest).filterMap Component.ofSegment? := by
  have habsolute := isAbsolute_iff (p := ⟨text⟩) h
  rw [components_eq, lead, steps, h, List.head?_cons]
  simp only [habsolute, Option.some.injEq]

/-- An empty segment or a segment `.` is no step. -/
theorem filterMap_cons_idle {first : String} (h : first = "" ∨ first = ".") (rest : List String) :
    (first :: rest).filterMap Component.ofSegment? = rest.filterMap Component.ofSegment? :=
  List.filterMap_cons_none (by rw [Component.ofSegment?, if_pos h])

theorem components_root_intercalate {text : String} {kept : List String}
    (h : kept ⊆ splitText '/' text) :
    (⟨"/" ++ "/".intercalate kept⟩ : Path).components =
      [.root] ++ kept.filterMap Component.ofSegment? := by
  have happend : splitText '/' ("/" ++ "/".intercalate kept) =
      splitText '/' "" ++ splitText '/' ("/".intercalate kept) := splitText_append (by simp)
  have hsplit : splitText '/' ("/" ++ "/".intercalate kept) =
      "" :: splitText '/' ("/".intercalate kept) := happend
  rw [components_of_splitText hsplit, if_pos ⟨rfl, splitText_ne_nil _ _⟩,
    filterMap_cons_idle (.inl rfl), ← steps_intercalate_of_subset h]
  rfl

/-- The steps of the parent are those to the directory that the path is in. -/
theorem components_of_parent? {p q : Path} (h : p.parent? = some q) :
    q.components = p.directory := by
  unfold parent? at h
  cases hsplit : splitText '/' p.text with
  | nil => exact absurd hsplit (splitText_ne_nil _ _)
  | cons first rest =>
    have hrest : rest ⊆ splitText '/' p.text := by
      rw [hsplit]
      exact List.subset_cons_self _ _
    rw [directory, components_of_splitText hsplit]
    simp only [hsplit, isAbsolute_iff hsplit] at h
    split at h
    · next habsolute =>
      obtain ⟨kept, hkept, rfl⟩ := Option.map_eq_some_iff.1 h
      have hkeeps := List.Subset.trans (prefix_of_beforeLast? hkept).subset hrest
      rw [components_root_intercalate hkeeps, if_pos habsolute,
        filterMap_cons_idle (.inl habsolute.1), append_filterMap_of_beforeLast? hkept]
    · next hrelative =>
      rw [if_neg hrelative]
      split at h
      · next hdot =>
        rw [if_pos hdot, filterMap_cons_idle (.inr hdot)]
        split at h
        · next kept hkept =>
          cases h
          have hkeeps : first :: kept ⊆ splitText '/' p.text := by
            rw [hsplit]
            exact List.cons_subset_cons _ (prefix_of_beforeLast? hkept).subset
          have hq := splitText_intercalate_of_subset hkeeps (List.cons_ne_nil _ _)
          rw [components_of_splitText hq, filterMap_cons_idle (.inr hdot), hdot,
            append_filterMap_of_beforeLast? hkept]
          rfl
        · next hnone =>
          cases h
          rw [beforeLast?_eq_none_iff.1 hnone]
          exact components_empty
      · next hdot =>
        rw [if_neg hdot]
        obtain ⟨kept, hkept, rfl⟩ := Option.map_eq_some_iff.1 h
        rw [← append_filterMap_of_beforeLast? hkept]
        have hprefix := prefix_of_beforeLast? hkept
        cases kept with
        | nil => exact components_of_isEmpty rfl
        | cons head others =>
          have hq := splitText_intercalate_of_subset (hsplit ▸ hprefix.subset)
            (List.cons_ne_nil _ _)
          -- The first segment is kept, so what is relative stays relative.
          obtain ⟨rfl, hothers⟩ := List.cons_prefix_cons.1 hprefix
          have hsingle : ¬ (head = "" ∧ others ≠ []) := fun hand =>
            hrelative ⟨hand.1, fun hnil => hand.2 (List.prefix_nil.1 (hnil ▸ hothers))⟩
          rw [components_of_splitText hq, if_neg hsingle, if_neg hdot]

/-- What is dropped with the last step are the segments around it that stand for nothing. -/
example : (⟨"a//b/./c/"⟩ : Path).parent? = some ⟨"a//b"⟩ ∧
    (⟨"/a"⟩ : Path).parent? = some ⟨"/"⟩ := by decide +kernel

/-- A path without a parent is in no directory but the working directory. -/
theorem directory_of_parent?_eq_none {p : Path} (h : p.parent? = none) : p.directory = [] := by
  unfold parent? at h
  cases hsplit : splitText '/' p.text with
  | nil => exact absurd hsplit (splitText_ne_nil _ _)
  | cons first rest =>
    rw [directory, components_of_splitText hsplit]
    simp only [hsplit, isAbsolute_iff hsplit] at h
    split at h
    · next habsolute =>
      have hnil := beforeLast?_eq_none_iff.1 (Option.map_eq_none_iff.1 h)
      rw [if_pos habsolute, filterMap_cons_idle (.inl habsolute.1), hnil]
      rfl
    · next hrelative =>
      split at h
      · split at h <;> cases h
      · next hdot =>
        have hnil := beforeLast?_eq_none_iff.1 (Option.map_eq_none_iff.1 h)
        rw [if_neg hrelative, if_neg hdot, hnil]
        rfl

/-! ## Plain segments -/

/-- A segment that is a step into an entry of its own name. -/
def IsPlain (segment : String) : Prop := (⟨segment⟩ : Path).components = [.name segment]

instance (segment : String) : Decidable (IsPlain segment) := inferInstanceAs (Decidable (_ = _))

theorem IsPlain.lead {segment : String} (h : IsPlain segment) : (⟨segment⟩ : Path).lead = [] := by
  have hcomponents := components_eq ⟨segment⟩
  rw [h, Path.lead] at hcomponents
  rw [Path.lead]
  split at hcomponents
  · cases hcomponents
  · split at hcomponents
    · cases hcomponents
    · rename_i hrel hdot
      rw [if_neg hrel, if_neg hdot]

theorem IsPlain.steps {segment : String} (h : IsPlain segment) :
    steps segment = [.name segment] := by
  have hcomponents := components_eq ⟨segment⟩
  rw [h, h.lead, List.nil_append] at hcomponents
  exact hcomponents.symm

/-- What a text steps into is plain, and a piece of the text. -/
theorem isPlain_of_mem_steps {text entry : String} (h : .name entry ∈ steps text) :
    IsPlain entry ∧ entry ∈ splitText '/' text := by
  obtain ⟨segment, hsegment, hstep⟩ := List.mem_filterMap.1 h
  obtain ⟨rfl, hempty, hcurrent, hup⟩ := Component.ofSegment?_eq_name hstep
  refine ⟨?_, hsegment⟩
  have hslash : '/' ∉ segment.toList := fun hc => (mem_of_mem_splitText hsegment hc).2 rfl
  have hrel : (⟨segment⟩ : Path).isAbsolute = false := by
    rw [← Bool.not_eq_true]
    intro habsolute
    have hhead : segment.toList.head? = some '/' := by simpa [isAbsolute] using habsolute
    exact hslash (List.mem_of_head? hhead)
  have hsteps : Path.steps segment = [.name segment] := by
    rw [Path.steps, splitText_eq_singleton hslash]
    simp [hstep]
  have hlead : (⟨segment⟩ : Path).lead = [] := by
    rw [Path.lead, hrel, splitText_eq_singleton hslash]
    simp [hcurrent]
  rw [IsPlain, components_eq, hlead, hsteps, List.nil_append]

/-- Where the parts of a dotted name are plain, its directory has the parts as components. -/
theorem components_ofDotted_of_isPlain {dotted : String}
    (h : ∀ part ∈ splitText '.' dotted, IsPlain part) :
    (ofDotted dotted).components = (splitText '.' dotted).map Component.name := by
  have hsteps : (splitText '.' dotted).flatMap Path.steps =
      (splitText '.' dotted).flatMap fun part => [Component.name part] :=
    List.flatMap_congr fun part hpart => (h part hpart).steps
  rw [ofDotted, components_foldl_join_of_lead fun part hpart => (h part hpart).lead,
    components_empty, List.nil_append, hsteps, List.map_eq_flatMap]

/-! ## Paths that lead down -/

/-- A path that leads nowhere but down: it does not start at the root and has no step
up. -/
def Contained (p : Path) : Prop := .root ∉ p.components ∧ .parent ∉ p.components

/-- A path lies below a directory: it starts with the components of the directory, and
no step up follows them. -/
def IsBelow (out p : Path) : Prop :=
  out.components <+: p.components ∧ .parent ∉ p.components.drop out.components.length

instance (p : Path) : Decidable p.Contained := inferInstanceAs (Decidable (_ ∧ _))

instance (out p : Path) : Decidable (IsBelow out p) := inferInstanceAs (Decidable (_ ∧ _))

theorem contained_iff {p : Path} :
    p.Contained ↔ p.isAbsolute = false ∧ .parent ∉ steps p.text := by
  have hlead := parent_notMem_lead p
  have hsteps := root_notMem_steps p.text
  rw [Contained, components_eq, List.mem_append, List.mem_append, root_mem_lead_iff]
  simp [hlead, hsteps]

/-- Paths with the same components lead down together. -/
theorem contained_congr {p q : Path} (h : p.components = q.components) :
    p.Contained ↔ q.Contained := by
  rw [Contained, Contained, h]

theorem contained_join_iff {p : Path} {segment : String} :
    (p.join segment).Contained ↔ p.Contained ∧ (⟨segment⟩ : Path).Contained := by
  rw [contained_iff, contained_iff, contained_iff, isAbsolute_join]
  cases hrel : (⟨segment⟩ : Path).isAbsolute with
  | true => simp
  | false =>
    rw [steps_join hrel, List.mem_append]
    simp only [Bool.or_false, not_or, true_and]
    exact and_assoc.symm

theorem contained_foldl_join_iff {p : Path} {segments : List String} :
    (segments.foldl join p).Contained ↔
      p.Contained ∧ ∀ segment ∈ segments, (⟨segment⟩ : Path).Contained := by
  induction segments generalizing p with
  | nil => simp
  | cons first rest ih => rw [List.foldl_cons, ih, contained_join_iff, List.forall_mem_cons, and_assoc]

/-- Without a dot there is no step up. -/
theorem contained_iff_of_noDots {text : String} (h : '.' ∉ text.toList) :
    (⟨text⟩ : Path).Contained ↔ (⟨text⟩ : Path).isAbsolute = false := by
  have hup : ".." ∉ splitText '/' text := by
    intro hmem
    exact h (mem_of_mem_splitText hmem (by decide)).1
  rw [contained_iff]
  simp [parent_notMem_steps hup]

/-- The directory of a dotted name leads down unless a part of the name starts at the
root. -/
theorem contained_ofDotted_iff {dotted : String} :
    (ofDotted dotted).Contained ↔
      ∀ piece ∈ splitText '.' dotted, (⟨piece⟩ : Path).isAbsolute = false := by
  have hempty : empty.Contained := by
    rw [Contained, components_empty]
    simp
  rw [ofDotted, contained_foldl_join_iff, and_iff_right hempty]
  refine forall₂_congr fun piece hpiece => contained_iff_of_noDots fun hdot => ?_
  exact (mem_of_mem_splitText hpiece hdot).2 rfl

/-- Without a dot there is nothing but the root to lead a path. -/
theorem lead_of_noDots {text : String} (hrel : (⟨text⟩ : Path).isAbsolute = false)
    (h : '.' ∉ text.toList) : (⟨text⟩ : Path).lead = [] := by
  have hhead : (splitText '/' text).head? ≠ some "." := by
    intro hdot
    exact h (mem_of_mem_splitText (List.mem_of_head? hdot) (by decide)).1
  rw [lead, hrel, if_neg Bool.false_ne_true, if_neg hhead]

/-- A dotted name that is the names of its directories joined with dots has plain parts. -/
theorem isPlain_of_components_ofDotted {dotted : String} {dirs : List String}
    (hdirs : (ofDotted dotted).components = dirs.map Component.name) (hne : dirs ≠ [])
    (hjoined : dotted = ".".intercalate dirs) :
    ∀ part ∈ splitText '.' dotted, IsPlain part := by
  have hnoDots : ∀ part ∈ splitText '.' dotted, '.' ∉ part.toList :=
    fun part hpart hdot => (mem_of_mem_splitText hpart hdot).2 rfl
  have hcontained : (ofDotted dotted).Contained := by
    rw [Contained, hdirs]
    simp
  have hlead : ∀ part ∈ splitText '.' dotted, (⟨part⟩ : Path).lead = [] :=
    fun part hpart => lead_of_noDots (contained_ofDotted_iff.1 hcontained part hpart)
      (hnoDots part hpart)
  have hsteps : dirs.map Component.name = (splitText '.' dotted).flatMap steps := by
    rw [← hdirs, ofDotted, components_foldl_join_of_lead hlead, components_empty, List.nil_append]
  -- A directory is a step of some part, so it is plain and has no dots either.
  have hdir : ∀ dir ∈ dirs, IsPlain dir ∧ '.' ∉ dir.toList := by
    intro dir hdir
    have hmem : .name dir ∈ (splitText '.' dotted).flatMap steps := by
      rw [← hsteps]
      exact List.mem_map_of_mem hdir
    obtain ⟨part, hpart, hstep⟩ := List.mem_flatMap.1 hmem
    obtain ⟨hplain, hpiece⟩ := isPlain_of_mem_steps hstep
    exact ⟨hplain, fun hdot => hnoDots part hpart (mem_of_mem_splitText hpiece hdot).1⟩
  have hparts : splitText '.' dotted = dirs := by
    rw [hjoined, splitText_intercalate rfl hne]
    exact flatMap_splitText fun dir hmem => (hdir dir hmem).2
  intro part hpart
  exact (hdir part (hparts ▸ hpart)).1

theorem isBelow_join {p : Path} (out : Path) (h : p.Contained) : IsBelow out (out.join p.text) := by
  obtain ⟨hrel, hup⟩ := contained_iff.1 h
  by_cases hne : out.text = ""
  · rw [join_of_isEmpty hne, IsBelow, components_of_isEmpty hne]
    exact ⟨List.nil_prefix, h.2⟩
  · rw [IsBelow, components_join hne hrel, List.drop_left]
    exact ⟨List.prefix_append _ _, hup⟩

/-- A path below a directory that is somewhere leads down. -/
theorem contained_of_isBelow_join {out p : Path} (hout : out.isAbsolute = false)
    (hsomewhere : out.components ≠ []) (h : IsBelow out (out.join p.text)) : p.Contained := by
  have hne : out.text ≠ "" := fun hempty => hsomewhere (components_of_isEmpty hempty)
  rw [contained_iff]
  cases hrel : p.isAbsolute with
  | true =>
    -- Two paths of which one starts at the root have nothing in common.
    obtain ⟨rest, hrest⟩ := h.1
    rw [join_of_isAbsolute hrel] at hrest
    have hroot : p.components = .root :: steps p.text := by
      rw [components_eq, lead, if_pos hrel]
      rfl
    cases hcomponents : out.components with
    | nil => exact absurd hcomponents hsomewhere
    | cons first others =>
      rw [hcomponents, List.cons_append, hroot] at hrest
      obtain ⟨rfl, _⟩ := List.cons.inj hrest
      have hmem : .root ∈ out.components := hcomponents ▸ List.mem_cons_self
      rw [components_eq, List.mem_append, root_mem_lead_iff, hout] at hmem
      simp [root_notMem_steps] at hmem
  | false =>
    have hup := h.2
    rw [components_join hne hrel, List.drop_left] at hup
    exact ⟨rfl, hup⟩

end Path

/-! ## Identifiers -/

theorem isIdentifierPart_of_mem {text : String} (h : isIdentifier text = true) {c : Char}
    (hc : c ∈ text.toList) : isIdentifierPart c = true := by
  cases hchars : text.toList with
  | nil => simp [isIdentifier, hchars] at h
  | cons first rest =>
    rw [isIdentifier, hchars, Bool.and_eq_true, List.all_eq_true] at h
    rw [hchars] at hc
    rcases List.mem_cons.1 hc with rfl | hc
    · have hstart := h.1
      unfold isIdentifierStart at hstart
      unfold isIdentifierPart isAlphanumeric
      grind
    · exact h.2 c hc

theorem toList_ne_nil_of_isIdentifier {text : String} (h : isIdentifier text = true) :
    text.toList ≠ [] := by
  intro hchars
  simp [isIdentifier, hchars] at h

theorem dot_notMem_of_isIdentifier {text : String} (h : isIdentifier text = true) :
    '.' ∉ text.toList := fun hc =>
  absurd (isIdentifierPart_of_mem h hc) (by decide +kernel)

theorem slash_notMem_of_isIdentifier {text : String} (h : isIdentifier text = true) :
    '/' ∉ text.toList := fun hc =>
  absurd (isIdentifierPart_of_mem h hc) (by decide +kernel)

namespace Path

/-- An identifier is one step by itself. -/
theorem steps_of_isIdentifier {text : String} (h : isIdentifier text = true) :
    steps text = [.name text] := by
  have hdots := dot_notMem_of_isIdentifier h
  have hempty : text ≠ "" := fun he => toList_ne_nil_of_isIdentifier h (by simp [he])
  have hcurrent : text ≠ "." := fun he => hdots (by simp [he])
  have hparent : text ≠ ".." := fun he => hdots (by simp [he])
  simp [steps, splitText_eq_singleton (slash_notMem_of_isIdentifier h), Component.ofSegment?,
    hempty, hcurrent, hparent]

/-- A path that starts with an identifier has no lead. -/
theorem lead_of_isIdentifier {name : String} (h : isIdentifier name = true) (rest : String) :
    (⟨name ++ rest⟩ : Path).lead = [] := by
  cases hchars : name.toList with
  | nil => exact absurd hchars (toList_ne_nil_of_isIdentifier h)
  | cons c others =>
    have hc : c ∈ name.toList := by simp [hchars]
    have hslash : c ≠ '/' := fun he => slash_notMem_of_isIdentifier h (he ▸ hc)
    have hdot : c ≠ '.' := fun he => dot_notMem_of_isIdentifier h (he ▸ hc)
    have hall : (name ++ rest).toList = c :: (others ++ rest.toList) := by simp [hchars]
    have hrel : (⟨name ++ rest⟩ : Path).isAbsolute = false := by simp [isAbsolute, hall, hslash]
    -- The first segment starts with the first character of the identifier.
    obtain ⟨segment, hsegment⟩ : ∃ segment,
        (splitText '/' (name ++ rest)).head? = some (String.ofList (c :: segment)) := by
      rw [splitText, hall, List.splitOn_cons_eq_if_modifyHead]
      cases hsplit : (others ++ rest.toList).splitOn '/' with
      | nil => exact absurd hsplit (List.splitOn_ne_nil _ _)
      | cons first segments => exact ⟨first, by simp [hslash]⟩
    have hne : String.ofList (c :: segment) ≠ "." := by
      intro he
      have hlist := congrArg String.toList he
      rw [String.toList_ofList] at hlist
      exact hdot (List.cons.inj hlist).1
    rw [lead, hrel, hsegment, if_neg Bool.false_ne_true, if_neg fun he => hne (Option.some.inj he)]

theorem isPlain_of_isIdentifier {text : String} (h : isIdentifier text = true) : IsPlain text := by
  have hlead : (⟨text⟩ : Path).lead = [] := by simpa using lead_of_isIdentifier h ""
  rw [IsPlain, components_eq, hlead, steps_of_isIdentifier h, List.nil_append]

/-- The components of the directory of a dotted name are the parts of the name. -/
theorem components_ofDotted {dotted : String}
    (h : ∀ piece ∈ splitText '.' dotted, isIdentifier piece = true) :
    (ofDotted dotted).components = (splitText '.' dotted).map Component.name :=
  components_ofDotted_of_isPlain fun piece hpiece => isPlain_of_isIdentifier (h piece hpiece)

end Path

end Emitter
