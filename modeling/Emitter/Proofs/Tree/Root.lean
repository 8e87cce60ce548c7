import Emitter.Naming
import Emitter.Proofs.Outcome
import Emitter.Proofs.Tree.Loading

/-!
# The top of a tree

Loading looks at the kind of the root and at the owners of all nodes, but it does not ask
whether the root has an owner.  Nodes beside the subtree of the root are kept, and one of them
may list the root.

* `ancestors_of_below`: the way up from a node in the subtree of another passes through that
  node and goes on as the way from there.
* `ancestors_end_at_root_iff`: so the ways up from the subtree of the root all end at the root
  or all go past it, and they end there exactly when no node of the arena lists the root.
-/

namespace Emitter

namespace Tree

variable {t : Tree}

theorem ancestors_of_parent?_none {id : NodeId} (h : t.parent? id = none) :
    t.ancestors id = [id] := by
  obtain ⟨n, hn⟩ : ∃ n, t.size = n + 1 := ⟨t.size - 1, by have := t.size_pos; omega⟩
  have hparent : t.nodes.parentOf id = none := h
  rw [ancestors, hn, Arena.chain, hparent]

/-- The way up from a child is that of its owner with one more step before it. -/
theorem ancestors_of_parent?_some {id owner : NodeId} (h : t.parent? id = some owner) :
    t.ancestors id = id :: t.ancestors owner := by
  obtain ⟨n, hn⟩ : ∃ n, t.size = n + 1 := ⟨t.size - 1, by have := t.size_pos; omega⟩
  have hend : t.nodes.climb n owner = none := by
    have hclimb := t.climb_size_eq_none id
    rwa [hn, Arena.climb_succ_of_parentOf h] at hclimb
  show t.nodes.chain t.size id = id :: t.nodes.chain t.size owner
  rw [hn, Arena.chain_succ_of_parentOf h, Arena.chain_eq_of_climb_eq_none hend]

/-- From a node in the subtree of another, the way up passes through that node. -/
theorem ancestors_of_below {top id : NodeId} (h : t.Below top id) :
    ∃ lower, t.ancestors id = lower ++ t.ancestors top := by
  induction h with
  | refl => exact ⟨[], rfl⟩
  | @tail owner id _ howns ih =>
    obtain ⟨lower, hlower⟩ := ih
    refine ⟨id :: lower, ?_⟩
    rw [ancestors_of_parent?_some (parent?_of_mem_children howns), hlower, List.cons_append]

/-- A way up ends where it starts exactly when it has no step. -/
theorem getLast?_ancestors_iff {id : NodeId} :
    (t.ancestors id).getLast? = some id ↔ t.parent? id = none := by
  constructor
  · exact parent?_of_getLast?_ancestors
  · intro h
    rw [ancestors_of_parent?_none h]
    rfl

/-- A node has an owner exactly when some node of the arena lists it. -/
theorem parent?_eq_none_iff {id : NodeId} :
    t.parent? id = none ↔ ∀ node ∈ t.nodes, id ∉ node.kind.children := by
  constructor
  · intro h node hnode hlisted
    obtain ⟨i, hi, rfl⟩ := Array.mem_iff_getElem.1 hnode
    have hpair : (NodeId.ofIndex i, id) ∈ t.nodes.ownership := by
      refine List.mem_flatMap.2 ⟨(t.nodes[i], i), ?_, List.mem_map_of_mem hlisted⟩
      exact List.mem_zipIdx_iff_getElem?.2 (by simp [hi])
    have hparent : t.parent? id = some (NodeId.ofIndex i) := (t.wellFormed.linked _ id).2 hpair
    rw [h] at hparent
    cases hparent
  · intro h
    cases hparent : t.parent? id with
    | none => rfl
    | some owner =>
      obtain ⟨i, node, hnode, hlisted, _⟩ :=
        Arena.exists_of_mem_ownership ((t.wellFormed.linked owner id).1 hparent)
      exact absurd hlisted (h node (Array.mem_of_getElem? hnode))

/-- Recording owners leaves the child lists as they are. -/
theorem forall_children_of_ofParts {nodes : Arena} {root : NodeId} {motive : List NodeId → Prop}
    (h : Tree.ofParts nodes root = .ok t) :
    (∀ node ∈ t.nodes, motive node.kind.children) ↔ ∀ node ∈ nodes, motive node.kind.children := by
  obtain ⟨_, owners, hnodes⟩ := nodes_of_ofParts h
  rw [hnodes, Arena.relink]
  simp only [Array.mem_mapIdx]
  constructor
  · intro hall node hnode
    obtain ⟨i, hi, rfl⟩ := Array.mem_iff_getElem.1 hnode
    exact hall { nodes[i] with parent := owners[i]?.join } ⟨i, hi, rfl⟩
  · rintro hall _ ⟨i, hi, rfl⟩
    exact hall nodes[i] (Array.getElem_mem hi)

/-- The root of a loaded tree has no owner exactly when no node of the arena lists it.  From
every node in the subtree of the root the way up passes through the root, and it ends there
under the same condition. -/
theorem ancestors_end_at_root_iff {nodes : Arena} {root : NodeId}
    (h : Tree.ofParts nodes root = .ok t) :
    (t.parent? root = none ↔ ∀ node ∈ nodes, root ∉ node.kind.children) ∧
    ∀ id, t.Below root id →
      (∃ lower, t.ancestors id = lower ++ t.ancestors root) ∧
      ((t.ancestors id).getLast? = some root ↔ ∀ node ∈ nodes, root ∉ node.kind.children) := by
  have hroot : t.parent? root = none ↔ ∀ node ∈ nodes, root ∉ node.kind.children :=
    parent?_eq_none_iff.trans (forall_children_of_ofParts (motive := (root ∉ ·)) h)
  refine ⟨hroot, fun id hbelow => ?_⟩
  obtain ⟨lower, hlower⟩ := ancestors_of_below hbelow
  refine ⟨⟨lower, hlower⟩, ?_⟩
  have hlast : (t.ancestors id).getLast? = (t.ancestors root).getLast? := by
    have hne : t.ancestors root ≠ [] := by
      intro hempty
      have hhead := t.head?_ancestors root
      rw [hempty] at hhead
      cases hhead
    rw [hlower, List.getLast?_append_of_ne_nil _ hne]
  rw [hlast, getLast?_ancestors_iff, hroot]

/-- A class two packages deep, in an arena where the root stands last. -/
def nestedPackages : Arena :=
  #[{ kind := .typeDef .classType { text := "C" } [] [] },
    { kind := .package { text := "q" } [⟨0⟩] },
    { kind := .package { text := "p" } [⟨1⟩] },
    { kind := .root [⟨2⟩] }]

/-- No node lists the root, so the way up from the class ends there. -/
theorem ancestors_end_at_root_nestedPackages :
    ∃ t, Tree.ofParts nestedPackages ⟨3⟩ = .ok t ∧ t.Below ⟨3⟩ ⟨0⟩ ∧ t.parent? ⟨3⟩ = none ∧
      (t.ancestors ⟨0⟩).getLast? = some ⟨3⟩ := by
  have hload : (Tree.ofParts nestedPackages ⟨3⟩).toOption.any
      (fun t => ⟨0⟩ ∈ t.children ⟨1⟩ ∧ ⟨1⟩ ∈ t.children ⟨2⟩ ∧ ⟨2⟩ ∈ t.children ⟨3⟩) = true := by
    decide
  obtain ⟨t, ht, hchildren⟩ := (Option.any_eq_true _ _).1 hload
  obtain ⟨hclass, hinner, houter⟩ := of_decide_eq_true hchildren
  have hbelow : t.Below ⟨3⟩ ⟨0⟩ := ((Relation.ReflTransGen.single houter).tail hinner).tail hclass
  have hunlisted : ∀ node ∈ nestedPackages, (⟨3⟩ : NodeId) ∉ node.kind.children := by decide
  obtain ⟨hroot, hway⟩ := ancestors_end_at_root_iff (eq_ok_of_toOption ht)
  exact ⟨t, eq_ok_of_toOption ht, hbelow, hroot.2 hunlisted, (hway ⟨0⟩ hbelow).2.2 hunlisted⟩

/-- A class under the root, and a package that lists the root. -/
def listedRoot : Arena :=
  #[{ kind := .root [⟨1⟩] },
    { kind := .typeDef .classType { text := "C" } [] [] },
    { kind := .package { text := "p" } [⟨0⟩] }]

/-- The arena is loaded although its root has an owner.  The way up from the class goes past
the root, and the class counts as one of the package. -/
theorem ancestors_pass_listedRoot :
    ∃ t, Tree.ofParts listedRoot ⟨0⟩ = .ok t ∧ t.Below ⟨0⟩ ⟨1⟩ ∧ t.parent? ⟨0⟩ = some ⟨2⟩ ∧
      t.ancestors ⟨1⟩ = [⟨1⟩, ⟨0⟩, ⟨2⟩] ∧ Namer.plain.package t ⟨1⟩ = some "p" := by
  have hload : (Tree.ofParts listedRoot ⟨0⟩).toOption.any
      (fun t => ⟨1⟩ ∈ t.children ⟨0⟩ ∧ t.parent? ⟨0⟩ = some ⟨2⟩ ∧
        t.ancestors ⟨1⟩ = [⟨1⟩, ⟨0⟩, ⟨2⟩] ∧ Namer.plain.package t ⟨1⟩ = some "p") = true := by
    decide +kernel
  obtain ⟨t, ht, hfacts⟩ := (Option.any_eq_true _ _).1 hload
  obtain ⟨hclass, hfacts⟩ := of_decide_eq_true hfacts
  exact ⟨t, eq_ok_of_toOption ht, Relation.ReflTransGen.single hclass, hfacts⟩

end Tree

end Emitter
