import Mathlib.Data.List.FinRange
import Emitter.Naming
import Emitter.Proofs.Tree.Loading

/-!
# Renumbered trees

A tree says who owns what and who refers to whom; the numbers of the nodes only carry that.
`Arena.permute` moves every node of an arena to another position and changes the numbers in
its nodes accordingly.

* Loading does not depend on positions: every condition of `Tree.ofParts` holds of a permuted
  arena exactly when it holds of the arena (`exists_ofParts_permute_iff`), although the checks
  run in the order of positions.
* The trees that come out correspond node by node (`Tree.Renumbers`): also the owners, which
  are computed anew, and with them the way from a node to the top.
-/

namespace Emitter

/-! ## New numbers -/

/-- The number of a node after a permutation of the positions.  A number that is not that of a
position stays as it is. -/
def NodeId.move {n : Nat} (p : Equiv.Perm (Fin n)) (id : NodeId) : NodeId :=
  if h : id.index < n then .ofIndex (p ⟨id.index, h⟩) else id

/-- The kind with every number in it changed. -/
def Kind.renumber (f : NodeId → NodeId) : Kind → Kind
  | root definitions => root (definitions.map f)
  | package name definitions => package name (definitions.map f)
  | typeDef form name parameters definitions =>
    typeDef form name (parameters.map f) (definitions.map f)
  | primitive name => primitive name
  | typeParam name => typeParam name
  | callable form name returnType params body =>
    callable form name (returnType.map f) (params.map f) (body.map f)
  | macroDef form name params body => macroDef form name (params.map f) (f body)
  | binding form type name value => binding form (f type) name (value.map f)
  | block statements => block (statements.map f)
  | localBinding declaration => localBinding (f declaration)
  | ret expr => ret (expr.map f)
  | exprStmt expr => exprStmt (f expr)
  | assign target value => assign (f target) (f value)
  | cond predicate consequence alternative =>
    cond (f predicate) (f consequence) (alternative.map f)
  | typeRef path parameters => typeRef path (parameters.map f)
  | var name definition => var name (definition.map f)
  | call callee args => call (f callee) (args.map f)
  | attr receiver member => attr (f receiver) member
  | literal form text => literal form text
  | list elements => list (elements.map f)
  | native parts => native (parts.map f)

/-- The node with the numbers of its children, of its definition and of its type changed. -/
def Node.renumber (f : NodeId → NodeId) (node : Node) : Node :=
  { node with kind := node.kind.renumber f, resolved := node.resolved.map f }

/-- The arena with the node of position `i` at position `p i`, and all numbers changed to
match. -/
def Arena.permute (nodes : Arena) (p : Equiv.Perm (Fin nodes.size)) : Arena :=
  Array.ofFn fun i => nodes[p.symm i].renumber (NodeId.move p)

namespace Kind

variable (f : NodeId → NodeId)

@[simp] theorem children_renumber (kind : Kind) :
    (kind.renumber f).children = kind.children.map f := by
  cases kind <;> simp [renumber, children, Option.toList_map]

@[simp] theorem definition?_renumber (kind : Kind) :
    (kind.renumber f).definition? = kind.definition?.map f := by
  cases kind <;> rfl

@[simp] theorem label_renumber (kind : Kind) : (kind.renumber f).label = kind.label := by
  cases kind with
  | typeDef form | callable form | macroDef form | binding form | literal form => cases form <;> rfl
  | _ => rfl

@[simp] theorem name?_renumber (kind : Kind) : (kind.renumber f).name? = kind.name? := by
  cases kind <;> rfl

@[simp] theorem bindingSite_renumber (kind : Kind) :
    (kind.renumber f).bindingSite = kind.bindingSite := by
  cases kind with
  | callable form => cases form <;> rfl
  | _ => rfl

end Kind

theorem Node.references_renumber (f : NodeId → NodeId) (node : Node) :
    (node.renumber f).references = node.references.map f := by
  simp [references, renumber, Option.toList_map]

namespace NodeId

variable {n : Nat} (p : Equiv.Perm (Fin n))

theorem move_of_lt {id : NodeId} (h : id.index < n) : id.move p = .ofIndex (p ⟨id.index, h⟩) :=
  dif_pos h

theorem move_of_le {id : NodeId} (h : n ≤ id.index) : id.move p = id :=
  dif_neg (Nat.not_lt.2 h)

variable {p} (hn : n ≤ UInt32.size)

include hn

theorem index_move {id : NodeId} (h : id.index < n) : (id.move p).index = p ⟨id.index, h⟩ := by
  rw [move_of_lt p h, index_ofIndex (Nat.lt_of_lt_of_le (p _).isLt hn)]

/-- Positions stay positions. -/
theorem index_move_lt_iff {id : NodeId} : (id.move p).index < n ↔ id.index < n := by
  by_cases h : id.index < n
  · rw [index_move hn h]
    exact iff_of_true (p _).isLt h
  · rw [move_of_le p (Nat.not_lt.1 h)]

theorem move_symm_move (id : NodeId) : (id.move p).move p.symm = id := by
  by_cases h : id.index < n
  · have hmoved := (index_move_lt_iff (p := p) hn).2 h
    refine NodeId.ext ?_
    rw [index_move hn hmoved]
    simp [index_move hn h]
  · rw [move_of_le p (Nat.not_lt.1 h), move_of_le p.symm (Nat.not_lt.1 h)]

theorem move_injective : Function.Injective (move p) :=
  Function.LeftInverse.injective (move_symm_move hn)

theorem move_surjective : Function.Surjective (move p) := by
  intro id
  refine ⟨id.move p.symm, ?_⟩
  simpa using move_symm_move (p := p.symm) hn id

end NodeId

/-! ## Loading a permuted arena -/

namespace Arena

variable {nodes : Arena} {p : Equiv.Perm (Fin nodes.size)} {root : NodeId}

@[simp] theorem size_permute (nodes : Arena) (p : Equiv.Perm (Fin nodes.size)) :
    (nodes.permute p).size = nodes.size := by
  simp [permute]

/-- The nodes of the permuted arena are those of the arena in another order. -/
theorem perm_toList_permute (nodes : Arena) (p : Equiv.Perm (Fin nodes.size)) :
    (nodes.permute p).toList.Perm (nodes.toList.map (Node.renumber (NodeId.move p))) := by
  have hnodes : nodes.toList = List.ofFn fun i : Fin nodes.size => nodes[i] := by
    apply List.ext_getElem <;> simp
  rw [hnodes, List.map_ofFn, permute, Array.toList_ofFn]
  exact Equiv.Perm.ofFn_comp_perm p.symm fun i => nodes[i].renumber (NodeId.move p)

theorem mem_permute_iff {node : Node} :
    node ∈ nodes.permute p ↔ ∃ before ∈ nodes, before.renumber (NodeId.move p) = node := by
  rw [← Array.mem_toList_iff, (perm_toList_permute nodes p).mem_iff, List.mem_map]
  simp only [Array.mem_toList_iff]

section

variable (hsize : nodes.size ≤ UInt32.size)

include hsize

/-- The node of a number is found under the new number. -/
theorem node?_permute (id : NodeId) :
    (nodes.permute p).node? (id.move p) =
      (nodes.node? id).map (Node.renumber (NodeId.move p)) := by
  unfold node?
  by_cases h : id.index < nodes.size
  · have hfound : nodes[id.index]? = some nodes[id.index] := Array.getElem?_eq_getElem h
    rw [NodeId.index_move hsize h, hfound]
    simp [permute]
  · have hmoved := (NodeId.index_move_lt_iff (p := p) hsize).not.2 h
    rw [Array.getElem?_eq_none (Nat.not_lt.1 h),
      Array.getElem?_eq_none (by simpa using Nat.not_lt.1 hmoved), Option.map_none]

theorem childrenOf_permute (id : NodeId) :
    (nodes.permute p).childrenOf (id.move p) = (nodes.childrenOf id).map (NodeId.move p) := by
  unfold childrenOf
  rw [node?_permute hsize]
  cases nodes.node? id with
  | none => rfl
  | some node => exact Kind.children_renumber _ node.kind

theorem owns_permute_iff {owner child : NodeId} :
    (nodes.permute p).Owns (owner.move p) (child.move p) ↔ nodes.Owns owner child := by
  unfold Owns
  rw [childrenOf_permute hsize, List.mem_map_of_injective (NodeId.move_injective hsize)]

/-! Each condition of loading, on the arena and on the permuted arena. -/

theorem rootInside_permute_iff :
    (nodes.permute p).RootInside (root.move p) ↔ nodes.RootInside root := by
  unfold RootInside
  rw [size_permute, NodeId.index_move_lt_iff hsize]

theorem rootKind_permute_iff :
    (nodes.permute p).RootKind (root.move p) ↔ nodes.RootKind root := by
  unfold RootKind
  rw [node?_permute hsize]
  cases nodes.node? root with
  | none => simp
  | some node => cases hk : node.kind <;> simp [Node.renumber, Kind.renumber, hk]

theorem closed_permute_iff : (nodes.permute p).Closed ↔ nodes.Closed := by
  rw [closed_iff, closed_iff]
  simp only [mem_permute_iff, size_permute, forall_exists_index, and_imp,
    forall_apply_eq_imp_iff₂, Node.references_renumber, List.forall_mem_map,
    NodeId.index_move_lt_iff hsize]

theorem singleOwner_permute_iff : (nodes.permute p).SingleOwner ↔ nodes.SingleOwner := by
  have hperm : ((nodes.permute p).toList.flatMap fun node => node.kind.children).Perm
      ((nodes.toList.flatMap fun node => node.kind.children).map (NodeId.move p)) := by
    refine ((perm_toList_permute nodes p).flatMap_right _).trans ?_
    rw [List.flatMap_map, List.map_flatMap]
    simp [Node.renumber]
  unfold SingleOwner
  rw [hperm.nodup_iff, List.nodup_map_iff (NodeId.move_injective hsize)]

theorem acyclic_permute_iff : (nodes.permute p).Acyclic ↔ nodes.Acyclic := by
  constructor
  · intro h id hcycle
    exact h (id.move p) (hcycle.lift (NodeId.move p) fun _ _ => (owns_permute_iff hsize).2)
  · intro h id hcycle
    -- Every number is the new number of some node, so a cycle leads back.
    refine h (id.move p.symm) (hcycle.lift (NodeId.move p.symm) fun owner child howns => ?_)
    obtain ⟨owner, rfl⟩ := NodeId.move_surjective (p := p) hsize owner
    obtain ⟨child, rfl⟩ := NodeId.move_surjective (p := p) hsize child
    show nodes.Owns ((owner.move p).move p.symm) ((child.move p).move p.symm)
    rw [NodeId.move_symm_move hsize, NodeId.move_symm_move hsize]
    exact (owns_permute_iff hsize).1 howns

end

/-- Loading succeeds exactly when all conditions hold. -/
theorem exists_ofParts_iff (hsize : nodes.size ≤ UInt32.size) (root : NodeId) :
    (∃ t, Tree.ofParts nodes root = .ok t) ↔
      nodes.RootInside root ∧ nodes.RootKind root ∧ nodes.Closed ∧ nodes.SingleOwner ∧
        nodes.Acyclic := by
  have hcases := ofParts_cases hsize root
  grind

/-- A permuted arena is accepted exactly when the arena is. -/
theorem exists_ofParts_permute_iff (hsize : nodes.size ≤ UInt32.size) :
    (∃ t, Tree.ofParts (nodes.permute p) (root.move p) = .ok t) ↔
      ∃ t, Tree.ofParts nodes root = .ok t := by
  have hsize' : (nodes.permute p).size ≤ UInt32.size := by rwa [size_permute]
  rw [exists_ofParts_iff hsize, exists_ofParts_iff hsize', rootInside_permute_iff hsize,
    rootKind_permute_iff hsize, closed_permute_iff hsize, singleOwner_permute_iff hsize,
    acyclic_permute_iff hsize]

end Arena

/-! ## Trees that correspond -/

namespace Tree

/-- Two trees correspond under a change of numbers: a node of the one is found under its new
number in the other, with the same words and places and with the new numbers in it. -/
structure Renumbers (f : NodeId → NodeId) (t moved : Tree) : Prop where
  injective : Function.Injective f
  size : moved.size = t.size
  root : moved.root = f t.root
  node : ∀ id, moved.node? (f id) =
    (t.node? id).map fun node => { node.renumber f with parent := node.parent.map f }

/-- The trees that an arena and its permutation load to correspond. -/
theorem renumbers_of_ofParts {nodes : Arena} {p : Equiv.Perm (Fin nodes.size)} {root : NodeId}
    {t moved : Tree} (hsize : nodes.size ≤ UInt32.size) (ht : Tree.ofParts nodes root = .ok t)
    (hmoved : Tree.ofParts (nodes.permute p) (root.move p) = .ok moved) :
    t.Renumbers (NodeId.move p) moved := by
  obtain ⟨hroot, owners, hnodes⟩ := nodes_of_ofParts ht
  obtain ⟨hroot', owners', hnodes'⟩ := nodes_of_ofParts hmoved
  have hsame : moved.size = t.size := by simp [size, hnodes, hnodes']
  have hfits : t.size ≤ UInt32.size := by simpa [size, hnodes] using hsize
  have hfits' : moved.size ≤ UInt32.size := hsame ▸ hfits
  -- Owners are read off the child lists on both sides.
  have hparent : ∀ id, moved.parent? (id.move p) = (t.parent? id).map (NodeId.move p) := by
    intro id
    refine Option.ext fun owner' => ?_
    obtain ⟨owner, rfl⟩ := NodeId.move_surjective (p := p) hsize owner'
    rw [parent?_eq_some_iff hfits', Option.map_eq_some_iff]
    have howns : (nodes.permute p).Owns (owner.move p) (id.move p) ↔ nodes.Owns owner id :=
      Arena.owns_permute_iff hsize
    rw [← Arena.owns_relink _ owners', ← Arena.owns_relink nodes owners, ← hnodes,
      ← hnodes'] at howns
    constructor
    · intro h
      exact ⟨owner, (parent?_eq_some_iff hfits).2 (howns.1 h), rfl⟩
    · rintro ⟨other, h, he⟩
      rw [NodeId.move_injective hsize he] at h
      exact howns.2 ((parent?_eq_some_iff hfits).1 h)
  refine ⟨NodeId.move_injective hsize, hsame, by rw [hroot, hroot'], fun id => ?_⟩
  have hid := hparent id
  unfold parent? Arena.parentOf at hid
  unfold node?
  rw [hnodes, hnodes', Arena.node?_relink, Arena.node?_relink, Arena.node?_permute hsize] at hid ⊢
  cases hn : nodes.node? id with
  | none => rfl
  | some node =>
    rw [hn] at hid
    simp only [Option.map_some, Option.bind_some] at hid ⊢
    rw [hid]
    rfl

namespace Renumbers

variable {f : NodeId → NodeId} {t moved : Tree} (h : t.Renumbers f moved)

include h

theorem kind? (id : NodeId) : moved.kind? (f id) = (t.kind? id).map (Kind.renumber f) := by
  unfold Tree.kind?
  rw [h.node]
  cases t.node? id <;> rfl

theorem kind?_of_some {id : NodeId} {kind : Kind} (hk : t.kind? id = some kind) :
    moved.kind? (f id) = some (kind.renumber f) := by
  rw [h.kind?, hk, Option.map_some]

theorem kind?_of_none {id : NodeId} (hk : t.kind? id = none) : moved.kind? (f id) = none := by
  rw [h.kind?, hk, Option.map_none]

theorem span (id : NodeId) : moved.span (f id) = t.span id := by
  unfold Tree.span
  rw [h.node]
  cases t.node? id <;> rfl

theorem parentOf (id : NodeId) :
    moved.nodes.parentOf (f id) = (t.nodes.parentOf id).map f := by
  have hnode := h.node id
  unfold Tree.node? at hnode
  unfold Arena.parentOf
  rw [hnode]
  cases t.nodes.node? id <;> rfl

theorem children (id : NodeId) : moved.children (f id) = (t.children id).map f := by
  have hnode := h.node id
  unfold Tree.node? at hnode
  unfold Tree.children Arena.childrenOf
  rw [hnode]
  cases t.nodes.node? id with
  | none => rfl
  | some node => exact Kind.children_renumber f node.kind

theorem chain (n : Nat) (id : NodeId) :
    moved.nodes.chain n (f id) = (t.nodes.chain n id).map f := by
  induction n generalizing id with
  | zero => rfl
  | succ n ih =>
    unfold Arena.chain
    rw [h.parentOf]
    cases t.nodes.parentOf id with
    | none => rfl
    | some parent =>
      simp only [Option.map_some, List.map_cons]
      rw [ih]

/-- The way to the top goes through the same nodes. -/
theorem ancestors (id : NodeId) : moved.ancestors (f id) = (t.ancestors id).map f := by
  unfold Tree.ancestors
  rw [h.size, h.chain]

/-- The packages around a node have the same name. -/
theorem package (namer : Namer) (id : NodeId) :
    namer.package moved (f id) = namer.package t id := by
  have henclosing : namer.enclosing moved (f id) = namer.enclosing t id := by
    unfold Namer.enclosing
    rw [h.ancestors, List.filterMap_map]
    refine List.filterMap_congr fun node _ => ?_
    simp only [Function.comp_apply, h.kind?]
    cases t.kind? node with
    | none => rfl
    | some kind => cases kind <;> rfl
  unfold Namer.package
  rw [henclosing]

end Renumbers

end Tree

end Emitter
