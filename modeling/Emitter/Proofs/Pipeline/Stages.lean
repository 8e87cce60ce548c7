import Emitter.Pipeline

/-!
# The steps of a pipeline

`Pipeline.Staged` holds of the steps that are switched on at all times: the steps that later
ones need are among them, and all stand in the order of a run.  A new pipeline is staged
(`Staged.new`), and switching a step keeps it so (`Staged.setEnabled`).

So nothing is left open but whether files are written (`Staged.stages_eq`).
-/

namespace Emitter

namespace Stage

theorem order_injective : ∀ {a b : Stage}, a.order = b.order → a = b
  | .load, .load, _ => rfl
  | .render, .render, _ => rfl
  | .write, .write, _ => rfl

theorem nodup_of_ascending {stages : List Stage}
    (h : stages.Pairwise fun a b => a.order < b.order) : stages.Nodup :=
  List.nodup_iff_pairwise_ne.2 (h.imp fun hlt he => Nat.ne_of_lt hlt (congrArg order he))

/-- Steps in ascending order are known by which they are. -/
theorem eq_of_ascending {stages others : List Stage}
    (h : stages.Pairwise fun a b => a.order < b.order)
    (h' : others.Pairwise fun a b => a.order < b.order)
    (hmem : ∀ stage, stage ∈ stages ↔ stage ∈ others) : stages = others := by
  have hperm : stages.Perm others :=
    (List.perm_ext_iff_of_nodup (nodup_of_ascending h) (nodup_of_ascending h')).2 hmem
  exact hperm.eq_of_pairwise (fun _ _ _ _ hab hba => absurd hba (Nat.lt_asymm hab)) h h'

/-- Different steps that are sorted stand in ascending order. -/
theorem pairwise_mergeSort {stages : List Stage} (h : stages.Nodup) :
    (stages.mergeSort fun a b => a.order ≤ b.order).Pairwise fun a b => a.order < b.order := by
  have hsorted : (stages.mergeSort fun a b => a.order ≤ b.order).Pairwise
      fun a b => decide (a.order ≤ b.order) = true := by
    refine List.pairwise_mergeSort (fun a b c hab hbc => ?_) (fun a b => ?_) stages
    · simp only [decide_eq_true_eq] at hab hbc ⊢
      exact Nat.le_trans hab hbc
    · simp only [Bool.or_eq_true, decide_eq_true_eq]
      exact Nat.le_total a.order b.order
  have hnodup : (stages.mergeSort fun a b => a.order ≤ b.order).Nodup :=
    (List.mergeSort_perm stages _).nodup_iff.2 h
  refine hsorted.imp₂ (fun a b hle hne => ?_) hnodup
  exact Nat.lt_of_le_of_ne (of_decide_eq_true hle) fun he => hne (order_injective he)

end Stage

namespace Pipeline

variable {p : Pipeline}

theorem config_setEnabled (p : Pipeline) (stage : Stage) (enabled : Bool) :
    (p.setEnabled stage enabled).config = p.config := by
  unfold setEnabled
  split
  · rfl
  split
  · split <;> rfl
  · rfl

theorem isEnabled_iff {stage : Stage} : p.isEnabled stage = true ↔ stage ∈ p.stages :=
  List.contains_iff_mem

/-- Switching changes no step but the one that is switched, and this one unless a step that
later ones need was to be switched off. -/
theorem isEnabled_setEnabled (p : Pipeline) (stage other : Stage) (enabled : Bool) :
    (p.setEnabled stage enabled).isEnabled other =
      if other = stage ∧ (enabled || stage.isOptional) = true then enabled
      else p.isEnabled other := by
  rw [Bool.eq_iff_iff]
  unfold setEnabled
  cases enabled with
  | false =>
    cases hoptional : stage.isOptional with
    | false => simp
    | true => by_cases h : other = stage <;> simp [isEnabled_iff, h]
  | true =>
    by_cases hstage : p.isEnabled stage = true
    · by_cases h : other = stage <;> simp [hstage, h]
    · by_cases h : other = stage <;> simp [hstage, isEnabled_iff, h]

/-- What holds of the steps of a pipeline at all times. -/
structure Staged (p : Pipeline) : Prop where
  /-- The steps that later ones need are switched on. -/
  required : ∀ stage, stage.isOptional = false → p.isEnabled stage = true
  /-- The steps stand in the order of a run, none of them twice. -/
  ascending : p.stages.Pairwise fun a b => a.order < b.order

namespace Staged

theorem new (config : Config) : ({ config } : Pipeline).Staged where
  required := fun stage _ => by cases stage <;> rfl
  ascending := by
    show [Stage.load, .render, .write].Pairwise fun a b => a.order < b.order
    decide

theorem setEnabled (h : p.Staged) (stage : Stage) (enabled : Bool) :
    (p.setEnabled stage enabled).Staged where
  required := fun other hother => by
    rw [isEnabled_setEnabled]
    split
    · next hswitched =>
      obtain ⟨rfl, hor⟩ := hswitched
      rwa [hother, Bool.or_false] at hor
    · exact h.required other hother
  ascending := by
    unfold Pipeline.setEnabled
    split
    · exact h.ascending
    split
    · split
      · exact h.ascending
      · next hfresh =>
        rw [isEnabled_iff] at hfresh
        refine Stage.pairwise_mergeSort (List.nodup_append.2
          ⟨Stage.nodup_of_ascending h.ascending, by simp, ?_⟩)
        rintro a ha b hb rfl
        exact hfresh (List.mem_singleton.1 hb ▸ ha)
    · exact h.ascending.filter _

/-- A step that later ones need cannot be switched. -/
theorem setEnabled_eq (h : p.Staged) {stage : Stage} (hstage : stage.isOptional = false)
    (enabled : Bool) : p.setEnabled stage enabled = p := by
  unfold Pipeline.setEnabled
  cases enabled with
  | false => simp [hstage]
  | true => simp [h.required stage hstage]

/-- The steps are those that later ones need, and writing where it is switched on. -/
theorem stages_eq (h : p.Staged) :
    p.stages = if p.isEnabled .write then [.load, .render, .write] else [.load, .render] := by
  have hload := h.required .load rfl
  have hrender := h.required .render rfl
  split
  · next hwrite =>
    refine Stage.eq_of_ascending h.ascending (by decide) fun stage => ?_
    rw [← isEnabled_iff]
    cases stage <;> simp [hload, hrender, hwrite]
  · next hwrite =>
    refine Stage.eq_of_ascending h.ascending (by decide) fun stage => ?_
    rw [← isEnabled_iff]
    cases stage <;> simp [hload, hrender, hwrite]

end Staged

end Pipeline

end Emitter
