import Emitter.Project
import Emitter.Proofs.Outcome
import Emitter.Proofs.Tree.Kind
import Emitter.Proofs.Tree.Loading

/-!
# The walk of a tree

`Tree.walk` lists the definitions of a tree depth first and in source order, with
packages opened up and nothing else.  It does not ask what the definitions are:
that is what `Tree.topLevel` adds, which fails where one does not belong.  Where it
succeeds it has the types and the free functions of the walk, in order
(`types_of_topLevel`, `functions_of_topLevel`).

No definition is met twice (`nodup_walk`), because each has one owner: two
definitions side by side have nothing below them in common.
-/

-- The names of match equations are used by the termination proofs only.
set_option linter.unusedVariables false

namespace Emitter

namespace Tree

variable {t : Tree}

/-- A definition, or what is in it if it is a package. -/
def walkAt (t : Tree) (id : NodeId) : List NodeId :=
  match hk : t.kind? id with
  | some (.package _ definitions) =>
    (definitions.attach.map fun ⟨definition, hd⟩ => t.walkAt definition).flatten
  | _ => [id]
termination_by t.room id
decreasing_by exact room_lt_of_kind? hk hd

/-- The definitions of the tree, depth first through packages. -/
def walk (t : Tree) : List NodeId := (t.rootDefinitions.map t.walkAt).flatten

/-- Whether a node is a class or an interface. -/
def isType (t : Tree) (id : NodeId) : Bool := (t.kind? id).any Kind.isTypeDef

/-- Whether a node is a free function. -/
def isFunction (t : Tree) (id : NodeId) : Bool := (t.kind? id).any Kind.isFunction

/-- Whether a node is a primitive or a macro. -/
def isSilent (t : Tree) (id : NodeId) : Bool := (t.kind? id).any Kind.isSilent

theorem walkAt_package {id : NodeId} {name : Name} {definitions : List NodeId}
    (hk : t.kind? id = some (.package name definitions)) :
    t.walkAt id = (definitions.map t.walkAt).flatten := by
  rw [walkAt]
  split
  · next hk' =>
    cases hk.symm.trans hk'
    simp
  · next hother => exact (hother _ _ hk).elim

theorem walkAt_other {id : NodeId} {kind : Kind} (hk : t.kind? id = some kind)
    (hother : ∀ name definitions, kind ≠ .package name definitions) : t.walkAt id = [id] := by
  rw [walkAt]
  split
  · next hk' =>
    cases hk.symm.trans hk'
    exact (hother _ _ rfl).elim
  · rfl

/-! ## What the walk collects -/

/-- The definition that a top-level item stands for. -/
def item? (t : Tree) (id : NodeId) : Option TopLevel :=
  if t.isType id then some (.type id) else if t.isFunction id then some (.function id) else none

theorem topLevelAt_eq {id : NodeId} {items : List TopLevel} (h : t.topLevelAt id = .ok items) :
    items = (t.walkAt id).filterMap t.item? := by
  induction id using induction_below (t := t) generalizing items with
  | step id ih =>
    rw [topLevelAt] at h
    split at h
    · cases h
    · next name definitions hk =>
      obtain ⟨inner, hinner, he⟩ := bind_eq_ok_iff.1 h
      cases he
      rw [walkAt_package hk, List.filterMap_flatten, List.map_map]
      rw [eq_map_of_collect_eq_ok hinner fun d hd items hat => ih _ d hk hd hat]
      rfl
    · next hk =>
      cases h
      rw [walkAt_other hk (by simp)]
      simp [item?, isType, hk, Kind.isTypeDef]
    · next hk =>
      cases h
      rw [walkAt_other hk (by simp)]
      simp [item?, isType, isFunction, hk, Kind.isTypeDef, Kind.isFunction]
    · next hk =>
      cases h
      rw [walkAt_other hk (by simp)]
      simp [item?, isType, isFunction, hk, Kind.isTypeDef, Kind.isFunction]
    · next hk =>
      cases h
      rw [walkAt_other hk (by simp)]
      simp [item?, isType, isFunction, hk, Kind.isTypeDef, Kind.isFunction]
    · cases h

theorem topLevel_eq {items : List TopLevel} (h : t.topLevel = .ok items) :
    items = t.walk.filterMap t.item? := by
  obtain ⟨inner, hinner, he⟩ := bind_eq_ok_iff.1 h
  cases he
  rw [walk, List.filterMap_flatten, List.map_map]
  rw [eq_map_of_collect_eq_ok hinner fun _ _ _ hat => topLevelAt_eq hat]
  rfl

theorem types_of_topLevel {items : List TopLevel} (h : t.topLevel = .ok items) :
    items.filterMap TopLevel.type? = t.walk.filter t.isType := by
  rw [topLevel_eq h, List.filterMap_filterMap, ← List.filterMap_eq_filter]
  congr 1
  funext id
  simp only [item?, Option.guard]
  split
  · simp [TopLevel.type?]
  · split <;> simp [TopLevel.type?]

theorem isFunction_of_isType {id : NodeId} (h : t.isType id = true) : t.isFunction id = false := by
  unfold isType at h
  unfold isFunction
  cases hk : t.kind? id with
  | none => rfl
  | some kind =>
    rw [hk] at h
    cases kind with
    | typeDef => rfl
    | _ => cases h

theorem functions_of_topLevel {items : List TopLevel} (h : t.topLevel = .ok items) :
    items.filterMap TopLevel.function? = t.walk.filter t.isFunction := by
  rw [topLevel_eq h, List.filterMap_filterMap, ← List.filterMap_eq_filter]
  congr 1
  funext id
  simp only [item?, Option.guard]
  split
  · next htype => simp [isFunction_of_isType htype, TopLevel.function?]
  · split <;> simp [TopLevel.function?]

theorem mem_walkAt_package {top id : NodeId} {name : Name} {definitions : List NodeId}
    (hk : t.kind? top = some (.package name definitions)) :
    id ∈ t.walkAt top ↔ ∃ definition ∈ definitions, id ∈ t.walkAt definition := by
  rw [walkAt_package hk, ← List.flatMap_def, List.mem_flatMap]

/-- Where the walk succeeds it meets nothing but types, functions, primitives and
macros. -/
theorem cases_of_mem_walkAt {top id : NodeId} {items : List TopLevel}
    (h : t.topLevelAt top = .ok items) (hid : id ∈ t.walkAt top) :
    t.isType id = true ∨ t.isFunction id = true ∨ t.isSilent id = true := by
  induction top using induction_below (t := t) generalizing items with
  | step top ih =>
    rw [topLevelAt] at h
    split at h
    · cases h
    · next name definitions hk =>
      obtain ⟨inner, hinner, _⟩ := bind_eq_ok_iff.1 h
      obtain ⟨definition, hd, hid⟩ := (mem_walkAt_package hk).1 hid
      obtain ⟨_, _, hat⟩ := exists_of_collect_eq_ok hinner hd
      exact ih _ definition hk hd hat hid
    · next hk =>
      rw [walkAt_other hk (by simp), List.mem_singleton] at hid
      exact .inl (by rw [isType, hid, hk]; rfl)
    · next hk =>
      rw [walkAt_other hk (by simp), List.mem_singleton] at hid
      exact .inr (.inl (by rw [isFunction, hid, hk]; rfl))
    case h_5 hk | h_6 hk =>
      rw [walkAt_other hk (by simp), List.mem_singleton] at hid
      exact .inr (.inr (by rw [isSilent, hid, hk]; rfl))
    · cases h

theorem cases_of_mem_walk {id : NodeId} {items : List TopLevel} (h : t.topLevel = .ok items)
    (hid : id ∈ t.walk) :
    t.isType id = true ∨ t.isFunction id = true ∨ t.isSilent id = true := by
  obtain ⟨inner, hinner, _⟩ := bind_eq_ok_iff.1 h
  rw [walk, ← List.flatMap_def, List.mem_flatMap] at hid
  obtain ⟨definition, hd, hid⟩ := hid
  obtain ⟨_, _, hat⟩ := exists_of_collect_eq_ok hinner hd
  exact cases_of_mem_walkAt hat hid

/-- What a test on kinds accepts is a node of the tree. -/
theorem index_lt_of_any {id : NodeId} {test : Kind → Bool} (h : (t.kind? id).any test = true) :
    id.index < t.size := by
  obtain ⟨kind, hk, _⟩ := (Option.any_eq_true _ _).1 h
  exact index_lt_of_kind? hk

/-! ## Each definition once -/

theorem nodup_children (t : Tree) (owner : NodeId) : (t.children owner).Nodup := by
  unfold children Arena.childrenOf
  split
  · next node hn =>
    have hmem : node.kind.children ∈ t.nodes.toList.map fun node => node.kind.children :=
      List.mem_map_of_mem (Array.mem_toList_iff.2 (Array.mem_of_getElem? hn))
    have hsingle := t.wellFormed.single
    rw [Arena.map_snd_ownership] at hsingle
    exact hsingle.sublist (List.sublist_flatten_of_mem hmem)
  · exact List.nodup_nil

/-- A definition is walked as a package or by itself. -/
theorem walkAt_cases (t : Tree) (top : NodeId) :
    (∃ name definitions, t.kind? top = some (.package name definitions)) ∨
      t.walkAt top = [top] := by
  rw [walkAt]
  split
  · next hk => exact .inl ⟨_, _, hk⟩
  · exact .inr rfl

/-- Below a definition are nodes from which the way up leads back to it, in as many
steps as they are deeper. -/
theorem climb_of_mem_walkAt {top id : NodeId} (h : id ∈ t.walkAt top) :
    ∃ n, t.nodes.climb n id = some top ∧ t.depth id = t.depth top + n := by
  induction top using induction_below (t := t) with
  | step top ih =>
    rcases t.walkAt_cases top with ⟨name, definitions, hk⟩ | hself
    · obtain ⟨definition, hd, hid⟩ := (mem_walkAt_package hk).1 h
      obtain ⟨n, hclimb, hdepth⟩ := ih _ definition hk hd hid
      have hchild := mem_children_of_kind? hk hd
      have hparent : t.nodes.parentOf definition = some top := parent?_of_mem_children hchild
      refine ⟨n + 1, ?_, ?_⟩
      · rw [Arena.climb_add, hclimb]
        simp [Arena.climb, hparent]
      · rw [hdepth, depth_of_mem_children hchild]
        omega
    · rw [hself, List.mem_singleton] at h
      exact ⟨0, by rw [h]; rfl, by rw [h]; rfl⟩

/-- Two nodes with one owner have nothing below them in common. -/
theorem disjoint_walkAt {owner first second : NodeId} (hfirst : first ∈ t.children owner)
    (hsecond : second ∈ t.children owner) (hne : first ≠ second) :
    (t.walkAt first).Disjoint (t.walkAt second) := by
  intro id hid hid'
  obtain ⟨n, hclimb, hdepth⟩ := climb_of_mem_walkAt hid
  obtain ⟨m, hclimb', hdepth'⟩ := climb_of_mem_walkAt hid'
  rw [depth_of_mem_children hfirst] at hdepth
  rw [depth_of_mem_children hsecond] at hdepth'
  have hsame : n = m := by omega
  rw [hsame, hclimb'] at hclimb
  exact hne (Option.some.inj hclimb).symm

theorem nodup_flatten_walkAt {owner : NodeId}
    (h : ∀ child ∈ t.children owner, (t.walkAt child).Nodup) :
    ((t.children owner).map t.walkAt).flatten.Nodup := by
  rw [← List.flatMap_def, List.nodup_flatMap]
  refine ⟨h, (t.nodup_children owner).imp_of_mem fun hfirst hsecond hne => ?_⟩
  exact disjoint_walkAt hfirst hsecond hne

theorem nodup_walkAt (t : Tree) (top : NodeId) : (t.walkAt top).Nodup := by
  induction top using induction_below (t := t) with
  | step top ih =>
    rcases t.walkAt_cases top with ⟨name, definitions, hk⟩ | hself
    · have hchildren : t.children top = definitions := children_of_kind? hk
      have hflat : ((t.children top).map t.walkAt).flatten.Nodup :=
        nodup_flatten_walkAt fun child hc => ih _ child hk (by rwa [hchildren] at hc)
      rwa [hchildren, ← walkAt_package hk] at hflat
    · rw [hself]
      exact List.nodup_singleton top

/-- No definition is met twice. -/
theorem nodup_walk (t : Tree) : t.walk.Nodup :=
  nodup_flatten_walkAt fun child _ => t.nodup_walkAt child

end Tree

end Emitter
