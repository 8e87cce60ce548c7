import Mathlib.Data.List.Forall2
import Emitter.Render.Error

/-!
# Outcomes

How outcomes of a computation that may fail are taken apart.  A sequence gives a
result exactly when both halves do, and `collect` gives a list exactly when its
renderer succeeds on every member, in order; it fails in the way of the first member
on which the renderer fails (`failure?_collect`).  `FailsOnly P` says that every
failure satisfies `P`; it is kept by sequencing, so a statement about failures is
proved once for every piece.  Where one computation follows another and only words its
failures differently, `bind_eq_mapError` and `collect_eq_mapError` carry that from the
pieces to the whole; `bind_map_eq` and `collect_map_eq` do so where the results change as
well.  Where two computations are known to agree in their results alone, these are compared as
options, by `toOption_bind_congr` and `toOption_collect_congr`.
-/

namespace Emitter

variable {α β ε : Type}

/-! ## Sequences -/

theorem bind_eq_ok_iff {x : Except ε α} {f : α → Except ε β} {b : β} :
    x >>= f = .ok b ↔ ∃ a, x = .ok a ∧ f a = .ok b := by
  cases x with
  | error e => simp [bind, Except.bind]
  | ok a => simp [bind, Except.bind]

theorem bind_eq_error_iff {x : Except ε α} {f : α → Except ε β} {e : ε} :
    x >>= f = .error e ↔ x = .error e ∨ ∃ a, x = .ok a ∧ f a = .error e := by
  cases x with
  | error e => simp [bind, Except.bind]
  | ok a => simp [bind, Except.bind]

theorem exists_bind_eq_ok {x : Except ε α} {f : α → Except ε β} {a : α} (hx : x = .ok a)
    (hf : ∃ b, f a = .ok b) : ∃ b, x >>= f = .ok b := by
  rw [hx]
  exact hf

theorem map_eq_ok_iff {x : Except ε α} {f : α → β} {b : β} :
    x.map f = .ok b ↔ ∃ a, x = .ok a ∧ f a = b := by
  cases x <;> simp [Except.map]

theorem map_eq_error_iff {x : Except ε α} {f : α → β} {e : ε} :
    x.map f = .error e ↔ x = .error e := by
  cases x <;> simp [Except.map]

theorem map_of_bind {γ : Type} {x : Except ε α} {f : α → Except ε β} {g : β → γ} :
    (x >>= f).map g = x >>= fun a => (f a).map g := by
  cases x <;> rfl

theorem map_of_pure {a : α} {g : α → β} : (pure a : Except ε α).map g = pure (g a) := rfl

theorem eq_ok_of_mapError {δ : Type} {x : Except ε α} {f : ε → δ} {a : α}
    (h : x.mapError f = .ok a) : x = .ok a := by
  cases x with
  | error e => cases h
  | ok b =>
    cases h
    rfl

/-- A result that shows as an option is there. -/
theorem eq_ok_of_toOption {x : Except ε α} {a : α} (h : x.toOption = some a) : x = .ok a := by
  cases x with
  | error e => cases h
  | ok b => cases h; rfl

/-! ## Lists -/

/-- In two lists that correspond, a member of the first has a partner in the second. -/
theorem exists_partner {R : α → β → Prop} {xs : List α} {ys : List β} (h : List.Forall₂ R xs ys)
    {x : α} (hx : x ∈ xs) : ∃ y ∈ ys, R x y := by
  induction h with
  | nil => cases hx
  | cons hfirst _ ih =>
    rcases List.mem_cons.1 hx with rfl | hx
    · exact ⟨_, List.mem_cons_self, hfirst⟩
    · obtain ⟨y, hy, hxy⟩ := ih hx
      exact ⟨y, List.mem_cons_of_mem _ hy, hxy⟩

theorem collect_cons {x : α} {rest : List α} {render : (y : α) → y ∈ x :: rest → Except ε β} :
    collect (x :: rest) render =
      (render x List.mem_cons_self >>= fun first =>
        collect rest (fun y hy => render y (List.mem_cons_of_mem x hy)) >>= fun others =>
          pure (first :: others)) := rfl

/-- A list comes out exactly when the renderer succeeds on every member. -/
theorem collect_eq_ok_iff {xs : List α} {render : α → Except ε β} {ys : List β} :
    (collect xs fun x _ => render x) = .ok ys ↔
      List.Forall₂ (fun x y => render x = .ok y) xs ys := by
  induction xs generalizing ys with
  | nil => simp [collect, eq_comm]
  | cons x rest ih =>
    rw [collect_cons, bind_eq_ok_iff]
    constructor
    · rintro ⟨first, hfirst, h⟩
      obtain ⟨others, hothers, he⟩ := bind_eq_ok_iff.1 h
      cases he
      exact .cons hfirst (ih.1 hothers)
    · intro h
      cases h with
      | cons hfirst hothers =>
        exact ⟨_, hfirst, bind_eq_ok_iff.2 ⟨_, ih.2 hothers, rfl⟩⟩

/-- The renderer of a list that comes out succeeds on every member, with the proof
of membership that it was given. -/
theorem forall₂_of_collect_eq_ok {xs : List α} {render : (x : α) → x ∈ xs → Except ε β}
    {ys : List β} (h : collect xs render = .ok ys) :
    List.Forall₂ (fun x y => ∃ hx, render x hx = .ok y) xs ys := by
  induction xs generalizing ys with
  | nil =>
    cases h
    exact .nil
  | cons x rest ih =>
    rw [collect_cons] at h
    obtain ⟨first, hfirst, h⟩ := bind_eq_ok_iff.1 h
    obtain ⟨others, hothers, he⟩ := bind_eq_ok_iff.1 h
    cases he
    refine .cons ⟨List.mem_cons_self, hfirst⟩ ((ih hothers).imp ?_)
    rintro y text ⟨hy, htext⟩
    exact ⟨List.mem_cons_of_mem x hy, htext⟩

/-- What comes out is the list of the results, when these are known. -/
theorem eq_map_of_collect_eq_ok {xs : List α} {render : (x : α) → x ∈ xs → Except ε β}
    {ys : List β} {f : α → β} (h : collect xs render = .ok ys)
    (hf : ∀ x hx y, render x hx = .ok y → y = f x) : ys = xs.map f := by
  have hall : List.Forall₂ (fun x y => f x = y) xs ys :=
    (forall₂_of_collect_eq_ok h).imp fun x y ⟨hx, hy⟩ => (hf x hx y hy).symm
  rw [← List.forall₂_map_left_iff (R := (· = ·)), List.forall₂_eq_eq_eq] at hall
  exact hall.symm

/-- Every member of a list that comes out has a result. -/
theorem exists_of_collect_eq_ok {xs : List α} {render : (x : α) → x ∈ xs → Except ε β}
    {ys : List β} (h : collect xs render = .ok ys) {x : α} (hx : x ∈ xs) :
    ∃ hx y, render x hx = .ok y := by
  induction xs generalizing ys with
  | nil => cases hx
  | cons z rest ih =>
    rw [collect_cons] at h
    obtain ⟨first, hfirst, h⟩ := bind_eq_ok_iff.1 h
    obtain ⟨others, hothers, _⟩ := bind_eq_ok_iff.1 h
    rcases List.mem_cons.1 hx with rfl | hx
    · exact ⟨_, first, hfirst⟩
    · obtain ⟨hmem, y, hy⟩ := ih hothers hx
      exact ⟨_, y, hy⟩

/-- A failure of a list is a failure at a member. -/
theorem exists_of_collect_eq_error {xs : List α} {render : (x : α) → x ∈ xs → Except ε β} {e : ε}
    (h : collect xs render = .error e) : ∃ x hx, render x hx = .error e := by
  induction xs with
  | nil => simp [collect] at h
  | cons x rest ih =>
    rw [collect_cons, bind_eq_error_iff] at h
    rcases h with hfirst | ⟨first, _, h⟩
    · exact ⟨x, List.mem_cons_self, hfirst⟩
    · rcases bind_eq_error_iff.1 h with hrest | ⟨others, _, he⟩
      · obtain ⟨y, hy, hrender⟩ := ih hrest
        exact ⟨y, List.mem_cons_of_mem x hy, hrender⟩
      · cases he

/-- The failure of an outcome. -/
def failure? : Except ε α → Option ε
  | .error e => some e
  | .ok _ => none

/-- A list fails in the way of the first member that fails. -/
theorem failure?_collect {xs : List α} {render : α → Except ε β} :
    failure? (collect xs fun x _ => render x) =
      (xs.filterMap fun x => failure? (render x)).head? := by
  induction xs with
  | nil => rfl
  | cons x rest ih =>
    rw [collect_cons, List.filterMap_cons]
    cases render x with
    | error e => rfl
    | ok first =>
      show _ = (rest.filterMap fun y => failure? (render y)).head?
      rw [← ih]
      cases collect rest fun y _ => render y <;> rfl

theorem length_of_collect_eq_ok {xs : List α} {render : (x : α) → x ∈ xs → Except ε β}
    {ys : List β} (h : collect xs render = .ok ys) : ys.length = xs.length := by
  induction xs generalizing ys with
  | nil => simp [collect] at h; simp [← h]
  | cons x rest ih =>
    rw [collect_cons] at h
    obtain ⟨first, _, h⟩ := bind_eq_ok_iff.1 h
    obtain ⟨others, hothers, he⟩ := bind_eq_ok_iff.1 h
    cases he
    simp [ih hothers]

/-! ## Outcomes that differ in their failures only -/

section

variable {δ : Type} {E : ε → δ}

/-- A sequence follows another one when its halves do.  The first results may differ, if the
second half makes up for it. -/
theorem bind_map_eq {γ : Type} {x : Except ε α} {y : Except δ γ} {change : α → γ}
    {f : α → Except ε β} {g : γ → Except δ β} (h : y = (x.map change).mapError E)
    (hnext : ∀ a, x = .ok a → g (change a) = (f a).mapError E) :
    y >>= g = (x >>= f).mapError E := by
  cases x with
  | error e =>
    rw [h]
    rfl
  | ok a =>
    rw [h]
    exact hnext a rfl

theorem bind_eq_mapError {x : Except ε α} {y : Except δ α} {f : α → Except ε β}
    {g : α → Except δ β} (h : y = x.mapError E)
    (hnext : ∀ a, x = .ok a → g a = (f a).mapError E) :
    y >>= g = (x >>= f).mapError E := by
  have hmap : y = (x.map id).mapError E := by rwa [Except.map_id]
  exact bind_map_eq hmap hnext

/-- A renderer that follows another one through a change of the members and of their results
does so on the list. -/
theorem collect_map_eq {γ κ : Type} {xs : List α} {move : α → γ} {change : β → κ}
    {first : (x : α) → x ∈ xs → Except ε β} {second : γ → Except δ κ}
    (h : ∀ x hx, second (move x) = ((first x hx).map change).mapError E) :
    (collect (xs.map move) fun y _ => second y) =
      ((collect xs first).map (List.map change)).mapError E := by
  induction xs with
  | nil => rfl
  | cons x rest ih =>
    have hrest := ih fun y hy => h y (List.mem_cons_of_mem x hy)
    rw [List.map_cons, collect_cons, collect_cons, h x List.mem_cons_self, hrest]
    cases first x List.mem_cons_self with
    | error e => rfl
    | ok a => cases collect rest fun y hy => first y (List.mem_cons_of_mem x hy) <;> rfl

theorem collect_eq_mapError {γ : Type} {xs : List α} {move : α → γ}
    {first : (x : α) → x ∈ xs → Except ε β} {second : γ → Except δ β}
    (h : ∀ x hx, second (move x) = (first x hx).mapError E) :
    (collect (xs.map move) fun y _ => second y) = (collect xs first).mapError E := by
  have hmap : ∀ x hx, second (move x) = ((first x hx).map id).mapError E := by
    simpa [Except.map_id] using h
  simpa [Except.map_id] using collect_map_eq hmap

end

/-! ## Outcomes with the same result -/

/-- Sequences agree in their results when their halves do. -/
theorem toOption_bind_congr {x y : Except ε α} {f g : α → Except ε β}
    (h : y.toOption = x.toOption) (hnext : ∀ a, x = .ok a → (g a).toOption = (f a).toOption) :
    (y >>= g).toOption = (x >>= f).toOption := by
  cases x with
  | error e =>
    cases y with
    | error e' => rfl
    | ok b => cases h
  | ok a =>
    rw [eq_ok_of_toOption h]
    exact hnext a rfl

theorem toOption_collect_congr {xs : List α} {first second : (x : α) → x ∈ xs → Except ε β}
    (h : ∀ x hx, (second x hx).toOption = (first x hx).toOption) :
    (collect xs second).toOption = (collect xs first).toOption := by
  induction xs with
  | nil => rfl
  | cons x rest ih =>
    rw [collect_cons, collect_cons]
    refine toOption_bind_congr (h x List.mem_cons_self) fun _ _ => ?_
    refine toOption_bind_congr ?_ fun _ _ => rfl
    exact ih fun y hy => h y (List.mem_cons_of_mem x hy)

/-! ## Resolutions -/

/-- Resolving succeeds exactly where a type was recorded. -/
theorem Tree.resolution_eq_ok_iff {t : Tree} {id type : NodeId} :
    t.resolution id = .ok type ↔ t.resolved? id = some type := by
  unfold resolution resolved?
  cases t.node? id with
  | none => simp
  | some node => cases hr : node.resolved <;> simp [hr]

/-! ## Failures -/

/-- Every failure satisfies `P`. -/
def FailsOnly (P : ε → Prop) (x : Except ε α) : Prop := ∀ e, x = .error e → P e

namespace FailsOnly

variable {P : ε → Prop}

theorem ok (P : ε → Prop) (a : α) : FailsOnly P (.ok a : Except ε α) := by
  intro e h
  cases h

theorem error {e : ε} (h : P e) : FailsOnly P (.error e : Except ε α) := by
  intro e' he
  cases he
  exact h

theorem bind {x : Except ε α} {f : α → Except ε β} (hx : FailsOnly P x)
    (hf : ∀ a, x = .ok a → FailsOnly P (f a)) : FailsOnly P (x >>= f) := by
  intro e h
  rcases bind_eq_error_iff.1 h with hfirst | ⟨a, ha, hrest⟩
  · exact hx e hfirst
  · exact hf a ha e hrest

theorem collect {xs : List α} {render : (x : α) → x ∈ xs → Except ε β}
    (h : ∀ x hx, FailsOnly P (render x hx)) : FailsOnly P (collect xs render) := by
  intro e he
  obtain ⟨x, hx, hrender⟩ := exists_of_collect_eq_error he
  exact h x hx e hrender

end FailsOnly

end Emitter
