import Emitter.Config.Basic
import Emitter.Proofs.Table

/-!
# Accepted and merged settings

`Config.check` stops at the first setting that is wrong, so what it accepts is a
conjunction, and `Config.Valid` is that conjunction setting by setting
(`check_eq_ok_iff`).

`Config.merge` treats three groups of settings alike:

* four of them go by `overlay`, which picks one of its two sides, whatever the default
  is (`overlay_cases`), and in a row of three the last one that is not the default
  (`overlay_assoc`);
* the flag is an or;
* the tables are put into each other, and then look-up tries the last one first
  (`Table.find?_extend`).

Nothing is made up: every setting and every substitution of the result stood in one of
the two configurations.  That is why validity is kept.

Which of the two has a say differs.  A setting of the second configuration counts when it is
not the default (`agreeOn_merge`), a substitution always (`find?_builtins_merge`).  So the
default configuration, which sets nothing, still brings its table with it
(`merge_default_eq_iff`).
-/

namespace Emitter.Config

variable {a b c : Config}

/-! ## Accepted settings -/

/-- Every setting is in its range. -/
structure Valid (c : Config) : Prop where
  target : c.target ≠ ""
  indentWidth : 1 ≤ c.indentWidth ∧ c.indentWidth ≤ 16
  holderType : isIdentifier c.holderType = true
  selfName : isIdentifier c.selfName = true
  /-- No substitution has an empty side. -/
  builtins : ∀ entry ∈ c.builtins.entries, entry.1 ≠ "" ∧ entry.2 ≠ ""

theorem emptySide?_eq_none_iff :
    c.emptySide? = none ↔ ∀ entry ∈ c.builtins.entries, entry.1 ≠ "" ∧ entry.2 ≠ "" := by
  simp only [emptySide?, Option.map_eq_none_iff, List.find?_eq_none, Bool.or_eq_true,
    String.isEmpty_iff, not_or]

theorem defect?_eq_none_iff : c.defect? = none ↔ c.Valid := by
  unfold defect?
  constructor
  · intro h
    -- Each test that is passed leaves its condition behind; the others end in a defect.
    split_ifs at h with htarget hwidth hholder hself
    rw [Option.map_eq_none_iff] at h
    exact ⟨by simpa using htarget, hwidth, by simpa using hholder,
      by simpa using hself, emptySide?_eq_none_iff.1 h⟩
  · intro h
    have hside := emptySide?_eq_none_iff.2 h.builtins
    simp [h.target, h.indentWidth, h.holderType, h.selfName, hside]

/-- A configuration is accepted exactly when every setting is in its range. -/
theorem check_eq_ok_iff : c.check = .ok () ↔ c.Valid := by
  rw [← defect?_eq_none_iff]
  unfold check
  split
  · next hdefect => simp [hdefect]
  · next hnone => simp [hnone]

/-! ## One setting -/

section

variable {α : Type} [DecidableEq α]

/-- One of the two sides is taken. -/
theorem overlay_cases (default mine other : α) :
    overlay default mine other = mine ∨ overlay default mine other = other := by
  unfold overlay
  split
  · exact .inl rfl
  · exact .inr rfl

/-- Of three values the last one that is not the default is taken. -/
theorem overlay_assoc (default first second third : α) :
    overlay default (overlay default first second) third =
      overlay default first (overlay default second third) := by
  unfold overlay
  by_cases hthird : third = default
  · simp only [hthird, if_pos]
  · simp only [hthird, if_neg, not_false_iff]

theorem overlay_of_both {P : α → Prop} {mine other : α} (default : α) (hmine : P mine)
    (hother : P other) : P (overlay default mine other) := by
  rcases overlay_cases default mine other with h | h
  · rwa [h]
  · rwa [h]

end

/-! ## All settings -/

theorem Valid.merge (ha : a.Valid) (hb : b.Valid) : (a.merge b).Valid where
  target := overlay_of_both (P := fun target => target ≠ "") _ ha.target hb.target
  indentWidth :=
    overlay_of_both (P := fun width => 1 ≤ width ∧ width ≤ 16) _ ha.indentWidth hb.indentWidth
  holderType :=
    overlay_of_both (P := fun name => isIdentifier name = true) _ ha.holderType hb.holderType
  selfName := overlay_of_both (P := fun name => isIdentifier name = true) _ ha.selfName hb.selfName
  builtins := by
    intro entry hentry
    rcases Table.mem_entries_extend hentry with hmine | hother
    · exact ha.builtins entry hmine
    · exact hb.builtins entry hother

/-- It does not matter which of two merges is done first, and merging two accepted
configurations gives an accepted one. -/
theorem merge_assoc_and_check_merge :
    (∀ a b c : Config, (a.merge b).merge c = a.merge (b.merge c)) ∧
    ∀ a b : Config, a.check = .ok () → b.check = .ok () → (a.merge b).check = .ok () := by
  refine ⟨fun a b c => ?_, fun a b ha hb => ?_⟩
  · simp only [merge, overlay_assoc, Bool.or_assoc, Table.extend_assoc]
  · exact check_eq_ok_iff.2 ((check_eq_ok_iff.1 ha).merge (check_eq_ok_iff.1 hb))

/-- Settings of a project, and settings of one run of it that change some of them, replace a
substitution and set one back to the built-in one. -/
def projectSettings : Config :=
  { indentWidth := 2, holderType := "Statics"
    builtins := Table.ofList [("List", "org.List"), ("int", "long")] }

@[inherit_doc projectSettings]
def runSettings : Config :=
  { holderType := "_F", emitRuntime := true
    builtins := Table.ofList [("List", "java.util.ArrayList"), ("self", "$this")] }

/-- Both are accepted, and so are the project's settings under those of the run. -/
theorem check_merge_runSettings :
    projectSettings.check = .ok () ∧ runSettings.check = .ok () ∧
    (projectSettings.merge runSettings).check = .ok () := by
  have hproject : projectSettings.check = .ok () := by decide +kernel
  have hrun : runSettings.check = .ok () := by decide +kernel
  exact ⟨hproject, hrun, merge_assoc_and_check_merge.2 _ _ hproject hrun⟩

/-! ## Precedence -/

/-- Two configurations have the same value in a setting. -/
def AgreeOn (a b : Config) : Setting → Prop
  | .target => a.target = b.target
  | .indentWidth => a.indentWidth = b.indentWidth
  | .holderType => a.holderType = b.holderType
  | .selfName => a.selfName = b.selfName
  | .emitRuntime => a.emitRuntime = b.emitRuntime
  | .builtins => a.builtins = b.builtins

instance (a b : Config) : DecidablePred (AgreeOn a b)
  | .target => inferInstanceAs (Decidable (a.target = b.target))
  | .indentWidth => inferInstanceAs (Decidable (a.indentWidth = b.indentWidth))
  | .holderType => inferInstanceAs (Decidable (a.holderType = b.holderType))
  | .selfName => inferInstanceAs (Decidable (a.selfName = b.selfName))
  | .emitRuntime => inferInstanceAs (Decidable (a.emitRuntime = b.emitRuntime))
  | .builtins => inferInstanceAs (Decidable (a.builtins = b.builtins))

theorem AgreeOn.refl (a : Config) (s : Setting) : a.AgreeOn a s := by
  cases s <;> rfl

theorem eq_of_agreeOn (h : ∀ s, a.AgreeOn b s) : a = b := by
  obtain ⟨target, width, holder, self, runtime, builtins⟩ := a
  obtain rfl : target = b.target := h .target
  obtain rfl : width = b.indentWidth := h .indentWidth
  obtain rfl : holder = b.holderType := h .holderType
  obtain rfl : self = b.selfName := h .selfName
  obtain rfl : runtime = b.emitRuntime := h .emitRuntime
  obtain rfl : builtins = b.builtins := h .builtins
  rfl

/-- A setting other than the table is taken from the second configuration unless it has its
default there. -/
theorem agreeOn_merge (a b : Config) {s : Setting} (hs : s ≠ .builtins) :
    (a.merge b).AgreeOn (if b.AgreeOn {} s then a else b) s := by
  by_cases h : b.AgreeOn {} s
  · rw [if_pos h]
    cases s with
    | target | indentWidth | holderType | selfName => exact if_pos h
    | emitRuntime =>
      have hunset : b.emitRuntime = false := h
      show (a.emitRuntime || b.emitRuntime) = a.emitRuntime
      rw [hunset, Bool.or_false]
    | builtins => exact absurd rfl hs
  · rw [if_neg h]
    cases s with
    | target | indentWidth | holderType | selfName => exact if_neg h
    | emitRuntime =>
      have hset : b.emitRuntime = true := eq_true_of_ne_false h
      show (a.emitRuntime || b.emitRuntime) = b.emitRuntime
      rw [hset, Bool.or_true]
    | builtins => exact absurd rfl hs

theorem find?_builtins_merge (a b : Config) (name : String) :
    (a.merge b).builtins.find? name = (b.builtins.find? name).or (a.builtins.find? name) :=
  Table.find?_extend a.builtins b.builtins name

theorem agreeOn_merge_default (c : Config) {s : Setting} (hs : s ≠ .builtins) :
    (c.merge {}).AgreeOn c s := by
  have h := agreeOn_merge c {} hs
  rwa [if_pos (AgreeOn.refl {} s)] at h

/-- Nothing changes exactly when the built-in substitutions are there already. -/
theorem merge_default_eq_iff :
    c.merge {} = c ↔ ∀ entry ∈ Substitutions.builtin.entries, entry ∈ c.builtins.entries := by
  rw [← Table.extend_eq_left_iff]
  constructor
  · intro h
    exact congrArg builtins h
  · intro h
    refine eq_of_agreeOn fun s => ?_
    by_cases hs : s = .builtins
    · rw [hs]
      exact h
    · exact agreeOn_merge_default c hs

/-- Under the default configuration all settings stay but the table, which gets the built-in
substitutions in place of its own ones for the same names; so nothing changes exactly when it has
them already.  In general the second configuration decides what is not the default there, and
everything that its table says. -/
theorem merge_default_and_precedence :
    (∀ c : Config,
      (∀ s ≠ Setting.builtins, (c.merge {}).AgreeOn c s) ∧
      (∀ name, (c.merge {}).builtins.find? name =
        (Substitutions.builtin.find? name).or (c.builtins.find? name)) ∧
      (c.merge {} = c ↔
        ∀ entry ∈ Substitutions.builtin.entries, entry ∈ c.builtins.entries)) ∧
    ∀ c other : Config,
      (∀ s ≠ Setting.builtins,
        (c.merge other).AgreeOn (if other.AgreeOn {} s then c else other) s) ∧
      ∀ name, (c.merge other).builtins.find? name =
        (other.builtins.find? name).or (c.builtins.find? name) := by
  refine ⟨fun c => ⟨?_, ?_, merge_default_eq_iff⟩, fun c other => ⟨?_, ?_⟩⟩
  · intro s hs
    exact agreeOn_merge_default c hs
  · intro name
    exact find?_builtins_merge c {} name
  · intro s hs
    exact agreeOn_merge c other hs
  · intro name
    exact find?_builtins_merge c other name

/-- The width stays under the default and under the settings of the run, which do not change it;
the class that they name replaces that of the project. -/
theorem merge_precedence_projectSettings :
    Setting.indentWidth ≠ .builtins ∧ Setting.holderType ≠ .builtins ∧
    (projectSettings.merge {}).indentWidth = 2 ∧
    (projectSettings.merge runSettings).indentWidth = 2 ∧
    (projectSettings.merge runSettings).holderType = "_F" := by
  have hwidth : Setting.indentWidth ≠ .builtins := by decide
  have hholder : Setting.holderType ≠ .builtins := by decide
  refine ⟨hwidth, hholder, ?_, ?_, ?_⟩
  · exact (merge_default_and_precedence.1 projectSettings).1 _ hwidth
  · exact (merge_default_and_precedence.2 projectSettings runSettings).1 _ hwidth
  · exact (merge_default_and_precedence.2 projectSettings runSettings).1 _ hholder

/-- Under the default the project's two substitutions are lost to the built-in ones, and the two
built-in ones that the project does without come in. -/
theorem merge_default_projectSettings :
    (projectSettings.merge {}).builtins = Substitutions.builtin ∧
    projectSettings.merge {} ≠ projectSettings := by
  decide +kernel

end Emitter.Config
