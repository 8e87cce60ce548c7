import Emitter.Tree.Kind

/-!
# Arenas

An arena is an array of nodes in which a `NodeId` is a position.  Nothing here
assumes that references are sound: looking outside the arena answers `none`.

* `childrenOf` and `parentOf` follow ownership down and up, and `ownership`
  lists all pairs of an owner and a child;
* `climb nodes n id` is the node `n` steps above `id`, and `chain nodes n id`
  the list of the first `n` nodes met on the way up.

A chain that ends within `n` steps does not change when more steps are allowed
(`chain_eq_of_climb_eq_none`).
-/

namespace Emitter

/-- One slot of an arena: a node and what the resolver said about it. -/
structure Node where
  kind : Kind
  /-- The owner. -/
  parent : Option NodeId := none
  /-- The definition that is the semantic type of an expression. -/
  resolved : Option NodeId := none
  span : Span := {}
deriving DecidableEq, Repr

/-- Every node that a node refers to: the ones it owns, then the binding site
of a variable, then the resolved type. -/
def Node.references (node : Node) : List NodeId :=
  node.kind.children ++ node.kind.definition?.toList ++ node.resolved.toList

/-- Nodes addressed by position. -/
abbrev Arena := Array Node

namespace Arena

/-- The node with a number. -/
def node? (nodes : Arena) (id : NodeId) : Option Node := nodes[id.index]?

/-- The nodes that `id` owns. -/
def childrenOf (nodes : Arena) (id : NodeId) : List NodeId :=
  match nodes.node? id with
  | some node => node.kind.children
  | none => []

/-- The recorded owner of `id`. -/
def parentOf (nodes : Arena) (id : NodeId) : Option NodeId :=
  (nodes.node? id).bind (·.parent)

/-- Every pair of an owner and a child, in arena order and then child order. -/
def ownership (nodes : Arena) : List (NodeId × NodeId) :=
  nodes.toList.zipIdx.flatMap fun (node, i) =>
    node.kind.children.map fun child => (NodeId.ofIndex i, child)

/-- The node `n` steps above `id`. -/
def climb (nodes : Arena) : Nat → NodeId → Option NodeId
  | 0, id => some id
  | n + 1, id => (nodes.parentOf id).bind (nodes.climb n)

/-- The first `n` nodes on the way up from `id`, which comes first. -/
def chain (nodes : Arena) : Nat → NodeId → List NodeId
  | 0, _ => []
  | n + 1, id =>
    id :: match nodes.parentOf id with
      | some parent => nodes.chain n parent
      | none => []

theorem length_chain_le (nodes : Arena) (n : Nat) (id : NodeId) :
    (nodes.chain n id).length ≤ n := by
  induction n generalizing id with
  | zero => simp [chain]
  | succ n ih =>
    simp only [chain, List.length_cons, Nat.add_le_add_iff_right]
    split
    · exact ih _
    · simp

theorem chain_succ_of_parentOf {nodes : Arena} {n : Nat} {id parent : NodeId}
    (h : nodes.parentOf id = some parent) :
    nodes.chain (n + 1) id = id :: nodes.chain n parent := by
  simp [chain, h]

theorem climb_succ_of_parentOf {nodes : Arena} {n : Nat} {id parent : NodeId}
    (h : nodes.parentOf id = some parent) : nodes.climb (n + 1) id = nodes.climb n parent := by
  simp [climb, h]

/-- A way up that is shorter than `n` steps is the same with one more step. -/
theorem chain_eq_of_climb_eq_none {nodes : Arena} {n : Nat} {id : NodeId}
    (h : nodes.climb n id = none) : nodes.chain (n + 1) id = nodes.chain n id := by
  induction n generalizing id with
  | zero => simp [climb] at h
  | succ n ih =>
    cases hp : nodes.parentOf id with
    | none => simp [chain, hp]
    | some parent =>
      rw [climb_succ_of_parentOf hp] at h
      rw [chain_succ_of_parentOf hp, chain_succ_of_parentOf hp, ih h]

theorem node?_eq_some_of_mem_childrenOf {nodes : Arena} {id child : NodeId}
    (h : child ∈ nodes.childrenOf id) :
    ∃ node, nodes.node? id = some node ∧ child ∈ node.kind.children := by
  unfold childrenOf at h
  split at h
  · next node hn => exact ⟨node, hn, h⟩
  · simp at h

theorem index_lt_of_parentOf {nodes : Arena} {id parent : NodeId}
    (h : nodes.parentOf id = some parent) : id.index < nodes.size := by
  obtain ⟨node, hn, _⟩ := Option.bind_eq_some_iff.1 h
  exact (Array.getElem?_eq_some_iff.1 hn).1

theorem mem_ownership {nodes : Arena} {owner child : NodeId}
    (h : child ∈ nodes.childrenOf owner) : (owner, child) ∈ nodes.ownership := by
  obtain ⟨node, hn, hc⟩ := node?_eq_some_of_mem_childrenOf h
  refine List.mem_flatMap.2 ⟨(node, owner.index), ?_, ?_⟩
  · exact List.mem_zipIdx_iff_getElem?.2 (by simpa [node?] using hn)
  · simpa using hc

/-- The owner of a pair is the number of a position that lists the child. -/
theorem exists_of_mem_ownership {nodes : Arena} {owner child : NodeId}
    (h : (owner, child) ∈ nodes.ownership) :
    ∃ i node, nodes[i]? = some node ∧ child ∈ node.kind.children ∧ owner = NodeId.ofIndex i := by
  obtain ⟨⟨node, i⟩, hn, hp⟩ := List.mem_flatMap.1 h
  obtain ⟨c, hc, he⟩ := List.mem_map.1 hp
  cases he
  have hi := List.mem_zipIdx_iff_getElem?.1 hn
  exact ⟨i, node, by simpa using hi, hc, rfl⟩

end Arena

end Emitter
