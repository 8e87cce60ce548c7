import Emitter.Tree.Basic

/-!
# Loading a tree

`Tree.ofParts` turns an arena and a root into a `Tree`, or says what is wrong.
The checks run in a fixed order, so the first failing one names the error:

1. the root is inside the arena and is a root node;
2. every reference stays inside the arena (`firstDangling`);
3. no node is owned twice (`assignOwners`);
4. no node is above itself (`firstEndless`).

Owners are recomputed from the child lists (`relink`); what the parts say about
owners does not matter.
-/

namespace Emitter

/-- Why an arena is not a tree. -/
inductive TreeError where
  /-- A reference leaves the arena. -/
  | danglingReference (node reference : NodeId) (size : Nat)
  /-- The root is another kind of node. -/
  | invalidRoot (root : NodeId) (found : String)
  /-- Two owners list the same child. -/
  | sharedChild (node first second : NodeId)
  /-- The way up from a node does not end. -/
  | cycle (node : NodeId)
deriving DecidableEq, Repr

/-- The sentence that reports the error. -/
def TreeError.message : TreeError → String
  | danglingReference node reference size =>
    "Node " ++ node.text ++ " references " ++ reference.text ++
      " which is outside the arena of " ++ size.repr ++ " nodes"
  | invalidRoot root found => "Root " ++ root.text ++ " is not a Root node (found " ++ found ++ ")"
  | sharedChild node first second =>
    "Node " ++ node.text ++ " is owned by both " ++ first.text ++ " and " ++ second.text
  | cycle node => "Node " ++ node.text ++ " is its own ancestor"

namespace Arena

/-! ## References -/

/-- The first reference of a node that leaves an arena of the given size. -/
def danglingIn (size : Nat) (node : Node) : Option NodeId :=
  node.references.find? fun reference => decide (size ≤ reference.index)

/-- The first node with a reference that leaves the arena, and that reference. -/
def firstDangling (nodes : Arena) : Option (NodeId × NodeId) :=
  nodes.toList.zipIdx.findSome? fun (node, i) =>
    (danglingIn nodes.size node).map fun reference => (NodeId.ofIndex i, reference)

theorem index_lt_of_firstDangling {nodes : Arena} (h : nodes.firstDangling = none)
    {node : Node} (hn : node ∈ nodes) {reference : NodeId} (hr : reference ∈ node.references) :
    reference.index < nodes.size := by
  obtain ⟨i, hi⟩ : ∃ i, (node, i) ∈ nodes.toList.zipIdx := by
    obtain ⟨i, hi⟩ := List.getElem?_of_mem (Array.mem_toList_iff.2 hn)
    exact ⟨i, List.mem_zipIdx_iff_getElem?.2 (by simpa using hi)⟩
  have hnone := List.findSome?_eq_none_iff.1 h _ hi
  have hfind : danglingIn nodes.size node = none := by simpa using hnone
  have := List.find?_eq_none.1 hfind reference hr
  simpa using this

/-! ## Owners -/

/-- The owner recorded for a node. -/
def ownerIn (owners : Array (Option NodeId)) (id : NodeId) : Option NodeId :=
  owners[id.index]?.join

/-- Records the owner of one child after the other and stops at a child that
already has one. -/
def assignOwners : List (NodeId × NodeId) → Array (Option NodeId) →
    Except TreeError (Array (Option NodeId))
  | [], owners => .ok owners
  | (owner, child) :: rest, owners =>
    match ownerIn owners child with
    | some first => .error (.sharedChild child first owner)
    | none => assignOwners rest (owners.setIfInBounds child.index (some owner))

/-- The arena with the recorded owners in place. -/
def relink (nodes : Arena) (owners : Array (Option NodeId)) : Arena :=
  nodes.mapIdx fun i node => { node with parent := owners[i]?.join }

theorem ownerIn_replicate_none (n : Nat) (id : NodeId) :
    ownerIn (Array.replicate n none) id = none := by
  unfold ownerIn
  rw [Array.getElem?_replicate]
  split <;> rfl

theorem ownerIn_setIfInBounds {owners : Array (Option NodeId)} {id other : NodeId}
    {owner : Option NodeId} (hin : id.index < owners.size) :
    ownerIn (owners.setIfInBounds id.index owner) other =
      if id = other then owner else ownerIn owners other := by
  unfold ownerIn
  rw [Array.getElem?_setIfInBounds]
  by_cases h : id = other
  · subst h
    simp [hin]
  · have : id.index ≠ other.index := fun he => h (NodeId.ext he)
    simp [h, this]

/-- Recording further owners changes none that is there and records every
remaining pair. -/
theorem ownerIn_of_assignOwners {pairs : List (NodeId × NodeId)}
    {owners result : Array (Option NodeId)}
    (hin : ∀ pair ∈ pairs, pair.2.index < owners.size)
    (h : assignOwners pairs owners = .ok result) :
    (∀ id owner, ownerIn owners id = some owner → ownerIn result id = some owner) ∧
      ∀ pair ∈ pairs, ownerIn result pair.2 = some pair.1 := by
  induction pairs generalizing owners with
  | nil =>
    simp only [assignOwners, Except.ok.injEq] at h
    subst h
    exact ⟨fun _ _ => id, by simp⟩
  | cons pair rest ih =>
    obtain ⟨owner, child⟩ := pair
    have hchild : child.index < owners.size := hin (owner, child) List.mem_cons_self
    simp only [assignOwners] at h
    split at h
    · cases h
    · next hfree =>
      have hsize : ∀ p ∈ rest,
          p.2.index < (owners.setIfInBounds child.index (some owner)).size := by
        intro p hp
        simpa using hin p (List.mem_cons_of_mem _ hp)
      obtain ⟨hkeep, hall⟩ := ih hsize h
      refine ⟨fun id o ho => hkeep id o ?_, fun p hp => ?_⟩
      · rw [ownerIn_setIfInBounds hchild]
        split
        · next he => rw [he, ho] at hfree; cases hfree
        · exact ho
      · rcases List.mem_cons.1 hp with rfl | hp
        · exact hkeep _ _ (by rw [ownerIn_setIfInBounds hchild]; simp)
        · exact hall p hp

/-- Every recorded owner was there before or comes from a pair. -/
theorem mem_of_ownerIn_assignOwners {pairs : List (NodeId × NodeId)}
    {owners result : Array (Option NodeId)}
    (hin : ∀ pair ∈ pairs, pair.2.index < owners.size)
    (h : assignOwners pairs owners = .ok result) {id owner : NodeId}
    (ho : ownerIn result id = some owner) : ownerIn owners id = some owner ∨ (owner, id) ∈ pairs := by
  induction pairs generalizing owners with
  | nil =>
    simp only [assignOwners, Except.ok.injEq] at h
    subst h
    exact .inl ho
  | cons pair rest ih =>
    obtain ⟨first, child⟩ := pair
    have hchild : child.index < owners.size := hin (first, child) List.mem_cons_self
    simp only [assignOwners] at h
    split at h
    · cases h
    · have hrest : ∀ p ∈ rest,
          p.2.index < (owners.setIfInBounds child.index (some first)).size := by
        intro p hp
        simpa using hin p (List.mem_cons_of_mem _ hp)
      rcases ih hrest h with hset | hmem
      · rw [ownerIn_setIfInBounds hchild] at hset
        split at hset
        · next he => subst he; cases hset; exact .inr List.mem_cons_self
        · exact .inl hset
      · exact .inr (List.mem_cons_of_mem _ hmem)

/-- Owners can be recorded only when no child is listed twice and none of them
has an owner yet. -/
theorem free_of_assignOwners {pairs : List (NodeId × NodeId)}
    {owners result : Array (Option NodeId)}
    (hin : ∀ pair ∈ pairs, pair.2.index < owners.size)
    (h : assignOwners pairs owners = .ok result) :
    (pairs.map (·.2)).Nodup ∧ ∀ pair ∈ pairs, ownerIn owners pair.2 = none := by
  induction pairs generalizing owners with
  | nil => simp
  | cons pair rest ih =>
    obtain ⟨owner, child⟩ := pair
    have hchild : child.index < owners.size := hin (owner, child) List.mem_cons_self
    simp only [assignOwners] at h
    split at h
    · cases h
    · next hfree =>
      have hrest : ∀ p ∈ rest,
          p.2.index < (owners.setIfInBounds child.index (some owner)).size := by
        intro p hp
        simpa using hin p (List.mem_cons_of_mem _ hp)
      obtain ⟨hnodup, hnone⟩ := ih hrest h
      -- A later pair finds its child free after `child` has been recorded, so it
      -- is another child and was free before.
      have hother : ∀ p ∈ rest, child ≠ p.2 ∧ ownerIn owners p.2 = none := by
        intro p hp
        have hp' := hnone p hp
        rw [ownerIn_setIfInBounds hchild] at hp'
        split at hp'
        · cases hp'
        · next hne => exact ⟨hne, hp'⟩
      refine ⟨List.nodup_cons.2 ⟨fun hmem => ?_, hnodup⟩, fun p hp => ?_⟩
      · obtain ⟨p, hp, he⟩ := List.mem_map.1 hmem
        exact (hother p hp).1 he.symm
      · rcases List.mem_cons.1 hp with rfl | hp
        · exact hfree
        · exact (hother p hp).2

@[simp] theorem size_relink (nodes : Arena) (owners : Array (Option NodeId)) :
    (nodes.relink owners).size = nodes.size := by
  simp [relink]

theorem node?_relink (nodes : Arena) (owners : Array (Option NodeId)) (id : NodeId) :
    (nodes.relink owners).node? id =
      (nodes.node? id).map fun node => { node with parent := ownerIn owners id } := by
  simp only [node?, relink, ownerIn, Array.getElem?_mapIdx]

theorem childrenOf_relink (nodes : Arena) (owners : Array (Option NodeId)) (id : NodeId) :
    (nodes.relink owners).childrenOf id = nodes.childrenOf id := by
  unfold childrenOf
  rw [node?_relink]
  cases nodes.node? id <;> rfl

theorem parentOf_relink {nodes : Arena} {owners : Array (Option NodeId)} {id : NodeId}
    (hin : id.index < nodes.size) : (nodes.relink owners).parentOf id = ownerIn owners id := by
  have hnode : nodes.node? id = some nodes[id.index] := Array.getElem?_eq_getElem hin
  simp [parentOf, node?_relink, hnode]

theorem ownership_relink (nodes : Arena) (owners : Array (Option NodeId)) :
    (nodes.relink owners).ownership = nodes.ownership := by
  unfold ownership relink
  have hzip : (nodes.toList.mapIdx fun i node => { node with parent := owners[i]?.join }).zipIdx =
      nodes.toList.zipIdx.map fun (node, i) => ({ node with parent := owners[i]?.join }, i) := by
    apply List.ext_getElem <;> simp
  rw [Array.toList_mapIdx, hzip, List.flatMap_map]

/-- Every child of a pair has a place among the owners of an arena without
dangling references. -/
theorem index_lt_replicate {nodes : Arena} (h : nodes.firstDangling = none) :
    ∀ pair ∈ nodes.ownership,
      pair.2.index < (Array.replicate nodes.size (none : Option NodeId)).size := by
  intro pair hp
  obtain ⟨i, node, hn, hc, _⟩ := exists_of_mem_ownership hp
  rw [Array.size_replicate]
  exact index_lt_of_firstDangling h (Array.mem_of_getElem? hn) (by simp [Node.references, hc])

/-- After relinking, the owners are those that list a child. -/
theorem parentOf_relink_eq_some_iff {nodes : Arena} {owners : Array (Option NodeId)}
    (hrefs : nodes.firstDangling = none)
    (howners : assignOwners nodes.ownership (Array.replicate nodes.size none) = .ok owners)
    {owner child : NodeId} :
    (nodes.relink owners).parentOf child = some owner ↔ (owner, child) ∈ nodes.ownership := by
  have hbound := index_lt_replicate hrefs
  constructor
  · intro h
    have hin : child.index < nodes.size := by
      rw [← size_relink nodes owners]
      exact index_lt_of_parentOf h
    rw [parentOf_relink hin] at h
    rcases mem_of_ownerIn_assignOwners hbound howners h with hnone | hmem
    · rw [ownerIn_replicate_none] at hnone
      cases hnone
    · exact hmem
  · intro h
    have hin := hbound _ h
    rw [Array.size_replicate] at hin
    rw [parentOf_relink hin]
    exact (ownerIn_of_assignOwners hbound howners).2 _ h

/-! ## Cycles -/

/-- The first node whose way up does not end within the size of the arena. -/
def firstEndless (nodes : Arena) : Option NodeId :=
  ((List.range nodes.size).map NodeId.ofIndex).find? fun id =>
    (nodes.climb nodes.size id).isSome

theorem climb_eq_none_of_firstEndless {nodes : Arena} (h : nodes.firstEndless = none)
    {id : NodeId} (hin : id.index < nodes.size) : nodes.climb nodes.size id = none := by
  have hmem : id ∈ (List.range nodes.size).map NodeId.ofIndex :=
    List.mem_map.2 ⟨id.index, List.mem_range.2 hin, NodeId.ofIndex_index id⟩
  simpa using List.find?_eq_none.1 h id hmem

end Arena

/-! ## The loader -/

/-- The relinked arena is a tree once all checks have passed. -/
theorem WellFormed.of_checks {nodes : Arena} {root : NodeId} {node : Node}
    {definitions : List NodeId} {owners : Array (Option NodeId)}
    (hroot : nodes.node? root = some node) (hkind : node.kind = .root definitions)
    (hrefs : nodes.firstDangling = none)
    (howners : Arena.assignOwners nodes.ownership (Array.replicate nodes.size none) = .ok owners)
    (hends : (nodes.relink owners).firstEndless = none) :
    WellFormed (nodes.relink owners) root where
  rooted := ⟨{ node with parent := Arena.ownerIn owners root }, definitions,
    by rw [Arena.node?_relink, hroot]; rfl, hkind⟩
  inside := by
    intro n hn reference hr
    obtain ⟨i, hi⟩ := Array.getElem?_of_mem hn
    simp only [Arena.relink, Array.getElem?_mapIdx, Option.map_eq_some_iff] at hi
    obtain ⟨m, hm, rfl⟩ := hi
    rw [Arena.size_relink]
    exact Arena.index_lt_of_firstDangling hrefs (Array.mem_of_getElem? hm) hr
  linked := fun owner child => by
    rw [Arena.ownership_relink]
    exact Arena.parentOf_relink_eq_some_iff hrefs howners
  single := by
    rw [Arena.ownership_relink]
    exact (Arena.free_of_assignOwners (Arena.index_lt_replicate hrefs) howners).1
  acyclic := fun id hin => Arena.climb_eq_none_of_firstEndless hends hin

/-- Checks an arena, recomputes its owners and hands out the tree. -/
def Tree.ofParts (nodes : Arena) (root : NodeId) : Except TreeError Tree :=
  match hroot : nodes.node? root with
  | none => .error (.danglingReference root root nodes.size)
  | some node =>
    match hkind : node.kind with
    | .root _ =>
      match hrefs : nodes.firstDangling with
      | some (id, reference) => .error (.danglingReference id reference nodes.size)
      | none =>
        match howners : Arena.assignOwners nodes.ownership (Array.replicate nodes.size none) with
        | .error e => .error e
        | .ok owners =>
          match hends : (nodes.relink owners).firstEndless with
          | some id => .error (.cycle id)
          | none => .ok ⟨nodes.relink owners, root, .of_checks hroot hkind hrefs howners hends⟩
    | other => .error (.invalidRoot root other.label)

end Emitter
