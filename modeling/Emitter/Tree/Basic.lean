import Emitter.Tree.Arena

/-!
# Resolved trees

A `Tree` is an arena whose references are sound: the root is a root node, every
reference stays inside the arena, each child has one owner and records it, and
no way up is longer than the arena.  `Tree.ofParts` in `Emitter.Tree.Load` is the only way
to make one from parts.

The two facts that renderers rest on are

* `Tree.room_lt_of_mem_children`: going down to a child leaves less room below,
  so every walk along child links ends;
* `Tree.idle_cons_lt`: adding a new definition to the list of those under
  expansion leaves fewer that are not, so nested expansions end.
-/

namespace Emitter

/-- What loading establishes of an arena and its root. -/
structure WellFormed (nodes : Arena) (root : NodeId) : Prop where
  /-- The root is a root node. -/
  rooted : ∃ node definitions, nodes.node? root = some node ∧ node.kind = .root definitions
  /-- Every reference stays inside the arena. -/
  inside : ∀ node ∈ nodes, ∀ reference ∈ node.references, reference.index < nodes.size
  /-- A node records an owner exactly when that owner lists it. -/
  linked : ∀ owner child, nodes.parentOf child = some owner ↔ (owner, child) ∈ nodes.ownership
  /-- No node is listed as a child twice. -/
  single : (nodes.ownership.map (·.2)).Nodup
  /-- No way up is as long as the arena. -/
  acyclic : ∀ id : NodeId, id.index < nodes.size → nodes.climb nodes.size id = none

/-- A complete resolved tree. -/
structure Tree where
  nodes : Arena
  root : NodeId
  wellFormed : WellFormed nodes root

namespace Tree

@[ext] theorem ext {s t : Tree} (hn : s.nodes = t.nodes) (hr : s.root = t.root) : s = t := by
  cases s; cases t; cases hn; cases hr; rfl

instance : DecidableEq Tree := fun s t =>
  decidable_of_iff (s.nodes = t.nodes ∧ s.root = t.root)
    ⟨fun ⟨hn, hr⟩ => ext hn hr, fun h => h ▸ ⟨rfl, rfl⟩⟩

/-! ## Looking nodes up -/

/-- The number of nodes. -/
def size (t : Tree) : Nat := t.nodes.size

/-- Whether a number belongs to the tree. -/
def contains (t : Tree) (id : NodeId) : Bool := decide (id.index < t.size)

/-- The numbers of all nodes in order. -/
def ids (t : Tree) : List NodeId := (List.range t.size).map NodeId.ofIndex

/-- The node with a number. -/
def node? (t : Tree) (id : NodeId) : Option Node := t.nodes.node? id

/-- What a node is. -/
def kind? (t : Tree) (id : NodeId) : Option Kind := (t.node? id).map (·.kind)

/-- The nodes that a node owns. -/
def children (t : Tree) (id : NodeId) : List NodeId := t.nodes.childrenOf id

/-- The owner of a node. -/
def parent? (t : Tree) (id : NodeId) : Option NodeId := t.nodes.parentOf id

/-- The definition that is the semantic type of a node. -/
def resolved? (t : Tree) (id : NodeId) : Option NodeId := (t.node? id).bind (·.resolved)

/-- Where a node was written. -/
def span (t : Tree) (id : NodeId) : Span := ((t.node? id).map (·.span)).getD {}

/-- The top-level definitions in source order. -/
def rootDefinitions (t : Tree) : List NodeId := t.children t.root

/-- A node followed by its owners up to the top. -/
def ancestors (t : Tree) (id : NodeId) : List NodeId := t.nodes.chain t.size id

theorem kind?_eq_some_iff {t : Tree} {id : NodeId} {kind : Kind} :
    t.kind? id = some kind ↔ ∃ node, t.node? id = some node ∧ node.kind = kind := by
  simp [kind?, Option.map_eq_some_iff]

theorem mem_children_of_kind? {t : Tree} {id child : NodeId} {kind : Kind}
    (hk : t.kind? id = some kind) (hc : child ∈ kind.children) : child ∈ t.children id := by
  obtain ⟨node, hn, rfl⟩ := kind?_eq_some_iff.1 hk
  have hn' : t.nodes.node? id = some node := hn
  simpa [children, Arena.childrenOf, hn'] using hc

theorem index_lt_of_node? {t : Tree} {id : NodeId} {node : Node} (h : t.node? id = some node) :
    id.index < t.size :=
  (Array.getElem?_eq_some_iff.1 h).1

theorem index_lt_of_kind? {t : Tree} {id : NodeId} {kind : Kind} (h : t.kind? id = some kind) :
    id.index < t.size := by
  obtain ⟨node, hn, _⟩ := kind?_eq_some_iff.1 h
  exact index_lt_of_node? hn

theorem parent?_of_mem_children {t : Tree} {owner child : NodeId} (h : child ∈ t.children owner) :
    t.parent? child = some owner :=
  (t.wellFormed.linked owner child).2 (Arena.mem_ownership h)

theorem index_lt_of_mem_children {t : Tree} {owner child : NodeId}
    (h : child ∈ t.children owner) : child.index < t.size := by
  obtain ⟨node, hn, hc⟩ := Arena.node?_eq_some_of_mem_childrenOf h
  exact t.wellFormed.inside node (Array.mem_of_getElem? hn) child (by simp [Node.references, hc])

/-! ## Room below a node -/

/-- How many nodes the way from a node to the top has. -/
def depth (t : Tree) (id : NodeId) : Nat := (t.ancestors id).length

/-- How much longer the way to the top could get below a node. -/
def room (t : Tree) (id : NodeId) : Nat := t.size - t.depth id

theorem depth_of_mem_children {t : Tree} {owner child : NodeId} (h : child ∈ t.children owner) :
    t.depth child = t.depth owner + 1 := by
  have hin := index_lt_of_mem_children h
  have hp : t.nodes.parentOf child = some owner := parent?_of_mem_children h
  have hup := t.wellFormed.acyclic child hin
  unfold depth ancestors
  obtain ⟨n, hn⟩ : ∃ n, t.nodes.size = n + 1 := ⟨t.nodes.size - 1, by unfold size at hin; omega⟩
  have hs : t.size = n + 1 := hn
  rw [hn, Arena.climb_succ_of_parentOf hp] at hup
  rw [hs, Arena.chain_succ_of_parentOf hp, List.length_cons,
    Arena.chain_eq_of_climb_eq_none hup]

theorem depth_le_size (t : Tree) (id : NodeId) : t.depth id ≤ t.size :=
  Arena.length_chain_le _ _ _

/-- There is less room below a child than below its owner. -/
theorem room_lt_of_mem_children {t : Tree} {owner child : NodeId}
    (h : child ∈ t.children owner) : t.room child < t.room owner := by
  have hd := depth_of_mem_children h
  have hc := depth_le_size t child
  unfold room
  omega

/-- There is less room below a node that a kind owns. -/
theorem room_lt_of_kind? {t : Tree} {id child : NodeId} {kind : Kind}
    (hk : t.kind? id = some kind) (hc : child ∈ kind.children) : t.room child < t.room id :=
  room_lt_of_mem_children (mem_children_of_kind? hk hc)

/-! ## Definitions not under expansion -/

/-- How many nodes are not listed as being under expansion. -/
def idle (t : Tree) (expanding : List NodeId) : Nat :=
  (t.ids.filter fun id => decide (id ∉ expanding)).length

theorem mem_ids {t : Tree} {id : NodeId} (h : id.index < t.size) : id ∈ t.ids :=
  List.mem_map.2 ⟨id.index, List.mem_range.2 h, NodeId.ofIndex_index id⟩

/-- Listing one more definition of the tree leaves fewer that are not listed. -/
theorem idle_cons_lt {t : Tree} {id : NodeId} {expanding : List NodeId}
    (hin : id.index < t.size) (hnew : id ∉ expanding) :
    t.idle (id :: expanding) < t.idle expanding := by
  have key : ∀ ids : List NodeId, id ∈ ids →
      (ids.filter fun x => decide (x ∉ id :: expanding)).length <
        (ids.filter fun x => decide (x ∉ expanding)).length := by
    intro ids hmem
    have hsub : ids.filter (fun x => decide (x ∉ id :: expanding)) =
        (ids.filter fun x => decide (x ∉ expanding)).filter fun x => decide (x ≠ id) := by
      rw [List.filter_filter]
      congr 1
      funext x
      simp [not_or]
    rw [hsub]
    refine List.length_filter_lt_length_iff_exists.2 ⟨id, ?_, by simp⟩
    exact List.mem_filter.2 ⟨hmem, by simpa using hnew⟩
  exact key _ (mem_ids hin)

end Tree

end Emitter
