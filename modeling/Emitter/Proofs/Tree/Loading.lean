import Emitter.Proofs.Tree.Climb

/-!
# What loading accepts

`Tree.ofParts` runs checks; this module says what they decide.  Each check is
matched with a condition on the parts that does not mention how it is computed:

* `RootInside` and `RootKind`: the root is a root node of the arena;
* `Closed`: every child, binding and semantic type is inside the arena;
* `SingleOwner`: no number occurs twice in all child lists together;
* `Acyclic`: no node is below itself.

`Loads` lists the outcomes of the checks, and the lemmas below it translate each
check.  The main statement puts them together: a tree comes out exactly when all
conditions hold, the first one that fails names the error, and a tree that comes
out differs from the parts in its owners only.
-/

namespace Emitter

namespace Arena

/-! ## The conditions -/

/-- The root is the number of a node. -/
def RootInside (nodes : Arena) (root : NodeId) : Prop := root.index < nodes.size

/-- The root is a root node. -/
def RootKind (nodes : Arena) (root : NodeId) : Prop :=
  ∃ node definitions, nodes.node? root = some node ∧ node.kind = .root definitions

/-- Every child, every binding of a variable and every semantic type is the
number of a node. -/
def Closed (nodes : Arena) : Prop :=
  ∀ node ∈ nodes,
    (∀ child ∈ node.kind.children, child.index < nodes.size) ∧
    (∀ name definition, node.kind = .var name (some definition) → definition.index < nodes.size) ∧
    ∀ type, node.resolved = some type → type.index < nodes.size

/-- No number occurs twice in all child lists together. -/
def SingleOwner (nodes : Arena) : Prop :=
  (nodes.toList.flatMap fun node => node.kind.children).Nodup

variable {nodes : Arena} {root : NodeId}

/-! ## The checks -/

/-- The outcomes of loading, each with what the checks up to it have found. -/
inductive Loads (nodes : Arena) (root : NodeId) : Except TreeError Tree → Prop where
  | rootOutside (h : nodes.node? root = none) :
      Loads nodes root (.error (.danglingReference root root nodes.size))
  | otherKind {node : Node} (hroot : nodes.node? root = some node)
      (h : ∀ definitions, node.kind ≠ .root definitions) :
      Loads nodes root (.error (.invalidRoot root node.kind.label))
  | dangling {id reference : NodeId} (hroot : nodes.RootKind root)
      (h : nodes.firstDangling = some (id, reference)) :
      Loads nodes root (.error (.danglingReference id reference nodes.size))
  | shared {error : TreeError} (hroot : nodes.RootKind root) (hrefs : nodes.firstDangling = none)
      (h : assignOwners nodes.ownership (Array.replicate nodes.size none) = .error error) :
      Loads nodes root (.error error)
  | endless {owners : Array (Option NodeId)} {id : NodeId} (hroot : nodes.RootKind root)
      (hrefs : nodes.firstDangling = none)
      (howners : assignOwners nodes.ownership (Array.replicate nodes.size none) = .ok owners)
      (h : (nodes.relink owners).firstEndless = some id) :
      Loads nodes root (.error (.cycle id))
  | loaded {owners : Array (Option NodeId)} {t : Tree} (hroot : nodes.RootKind root)
      (hrefs : nodes.firstDangling = none)
      (howners : assignOwners nodes.ownership (Array.replicate nodes.size none) = .ok owners)
      (hends : (nodes.relink owners).firstEndless = none)
      (hnodes : t.nodes = nodes.relink owners) (htop : t.root = root) :
      Loads nodes root (.ok t)

theorem loads_ofParts (nodes : Arena) (root : NodeId) :
    Loads nodes root (Tree.ofParts nodes root) := by
  unfold Tree.ofParts
  split
  · next hroot => exact .rootOutside hroot
  · next node hroot =>
    split
    · next definitions hkind =>
      have hrooted : nodes.RootKind root := ⟨node, definitions, hroot, hkind⟩
      split
      · next id reference hrefs => exact .dangling hrooted hrefs
      · next hrefs =>
        split
        · next error howners => exact .shared hrooted hrefs howners
        · next owners howners =>
          split
          · next id hends => exact .endless hrooted hrefs howners hends
          · next hends => exact .loaded hrooted hrefs howners hends rfl rfl
    · next hother => exact .otherKind hroot fun definitions he => hother definitions he

/-! ## References -/

theorem mem_references {node : Node} {reference : NodeId} :
    reference ∈ node.references ↔
      reference ∈ node.kind.children ∨ (∃ name, node.kind = .var name (some reference)) ∨
        node.resolved = some reference := by
  have hvar : node.kind.definition? = some reference ↔
      ∃ name, node.kind = .var name (some reference) := by
    cases node.kind <;> simp [Kind.definition?]
  simp [Node.references, hvar]

/-- The arena is closed exactly when no node refers to a number outside. -/
theorem closed_iff :
    nodes.Closed ↔ ∀ node ∈ nodes, ∀ reference ∈ node.references,
      reference.index < nodes.size := by
  constructor
  · intro h node hn reference hr
    obtain ⟨hchildren, hvar, htype⟩ := h node hn
    rcases mem_references.1 hr with hc | ⟨name, hv⟩ | ht
    · exact hchildren reference hc
    · exact hvar name reference hv
    · exact htype reference ht
  · intro h node hn
    refine ⟨fun child hc => ?_, fun name definition hv => ?_, fun type ht => ?_⟩
    · exact h node hn child (mem_references.2 (.inl hc))
    · exact h node hn definition (mem_references.2 (.inr (.inl ⟨name, hv⟩)))
    · exact h node hn type (mem_references.2 (.inr (.inr ht)))

theorem closed_of_firstDangling (h : nodes.firstDangling = none) : nodes.Closed :=
  closed_iff.2 fun _ hn _ hr => index_lt_of_firstDangling h hn hr

/-- A dangling reference that is found is one. -/
theorem not_closed_of_firstDangling {id reference : NodeId}
    (h : nodes.firstDangling = some (id, reference)) : ¬ nodes.Closed := by
  obtain ⟨⟨node, i⟩, hmem, hsome⟩ := List.exists_of_findSome?_eq_some h
  obtain ⟨found, hfind, he⟩ := Option.map_eq_some_iff.1 hsome
  cases he
  have hnode : node ∈ nodes :=
    Array.mem_toList_iff.1 (List.mem_of_getElem? (List.mem_zipIdx_iff_getElem?.1 hmem))
  intro hclosed
  have hin := closed_iff.1 hclosed node hnode reference (List.mem_of_find?_eq_some hfind)
  have hout : nodes.size ≤ reference.index := by simpa using List.find?_some hfind
  omega

theorem Closed.relink (h : nodes.Closed) (owners : Array (Option NodeId)) :
    (nodes.relink owners).Closed := by
  rw [closed_iff] at h ⊢
  intro node hn reference hr
  obtain ⟨i, hi⟩ := Array.mem_iff_getElem?.1 hn
  simp only [Arena.relink, Array.getElem?_mapIdx, Option.map_eq_some_iff] at hi
  obtain ⟨source, hsource, rfl⟩ := hi
  rw [size_relink]
  exact h source (Array.mem_of_getElem? hsource) reference hr

/-! ## Owners -/

/-- The children of all pairs are the child lists put together. -/
theorem map_snd_ownership (nodes : Arena) :
    nodes.ownership.map (·.2) = nodes.toList.flatMap fun node => node.kind.children := by
  have hfst : nodes.toList = nodes.toList.zipIdx.map (·.1) := by simp
  rw [ownership, List.map_flatMap, hfst, List.flatMap_map]
  simp [Function.comp_def]

/-- In an arena whose positions have numbers of their own, the pairs are the
child lists. -/
theorem mem_ownership_iff (hsize : nodes.size ≤ UInt32.size) {owner child : NodeId} :
    (owner, child) ∈ nodes.ownership ↔ nodes.Owns owner child := by
  refine ⟨fun h => ?_, mem_ownership⟩
  obtain ⟨i, node, hn, hc, rfl⟩ := exists_of_mem_ownership h
  have hi : i < nodes.size := (Array.getElem?_eq_some_iff.1 hn).1
  have hindex : (NodeId.ofIndex i).index = i := NodeId.index_ofIndex (Nat.lt_of_lt_of_le hi hsize)
  have hnode : nodes.node? (NodeId.ofIndex i) = some node := by rw [node?, hindex, hn]
  simpa [Owns, childrenOf, hnode] using hc

/-- Owners are recorded without complaint when no child is listed twice and none
has an owner yet. -/
theorem assignOwners_ok {pairs : List (NodeId × NodeId)} {owners : Array (Option NodeId)}
    (hin : ∀ pair ∈ pairs, pair.2.index < owners.size) (hnodup : (pairs.map (·.2)).Nodup)
    (hfree : ∀ pair ∈ pairs, ownerIn owners pair.2 = none) :
    ∃ result, assignOwners pairs owners = .ok result := by
  induction pairs generalizing owners with
  | nil => exact ⟨owners, rfl⟩
  | cons pair rest ih =>
    obtain ⟨owner, child⟩ := pair
    have hchild : child.index < owners.size := hin (owner, child) List.mem_cons_self
    obtain ⟨hfresh, hrest⟩ := List.nodup_cons.1 hnodup
    have hnone : ownerIn owners child = none := hfree (owner, child) List.mem_cons_self
    simp only [assignOwners, hnone]
    refine ih (fun p hp => ?_) hrest (fun p hp => ?_)
    · simpa using hin p (List.mem_cons_of_mem _ hp)
    · have hne : child ≠ p.2 := fun he => hfresh (List.mem_map.2 ⟨p, hp, he.symm⟩)
      rw [ownerIn_setIfInBounds hchild, if_neg hne]
      exact hfree p (List.mem_cons_of_mem _ hp)

/-- Recording owners can only complain about a shared child. -/
theorem eq_sharedChild_of_assignOwners {pairs : List (NodeId × NodeId)}
    {owners : Array (Option NodeId)} {error : TreeError}
    (h : assignOwners pairs owners = .error error) :
    ∃ child first second, error = .sharedChild child first second := by
  induction pairs generalizing owners with
  | nil => simp [assignOwners] at h
  | cons pair rest ih =>
    obtain ⟨owner, child⟩ := pair
    simp only [assignOwners] at h
    split at h
    · next first _ =>
      cases h
      exact ⟨child, first, owner, rfl⟩
    · exact ih h

theorem singleOwner_of_assignOwners {owners : Array (Option NodeId)}
    (hrefs : nodes.firstDangling = none)
    (h : assignOwners nodes.ownership (Array.replicate nodes.size none) = .ok owners) :
    nodes.SingleOwner := by
  rw [SingleOwner, ← map_snd_ownership]
  exact (free_of_assignOwners (index_lt_replicate hrefs) h).1

theorem not_singleOwner_of_assignOwners {error : TreeError} (hrefs : nodes.firstDangling = none)
    (h : assignOwners nodes.ownership (Array.replicate nodes.size none) = .error error) :
    ¬ nodes.SingleOwner := by
  intro hsingle
  rw [SingleOwner, ← map_snd_ownership] at hsingle
  obtain ⟨owners, hok⟩ := assignOwners_ok (index_lt_replicate hrefs) hsingle
    fun pair _ => ownerIn_replicate_none nodes.size pair.2
  rw [hok] at h
  cases h

/-! ## Cycles -/

theorem owns_relink (nodes : Arena) (owners : Array (Option NodeId)) :
    (nodes.relink owners).Owns = nodes.Owns := by
  funext owner child
  simp only [Owns, childrenOf_relink]

theorem acyclic_relink {owners : Array (Option NodeId)} :
    (nodes.relink owners).Acyclic ↔ nodes.Acyclic := by
  simp only [Acyclic, owns_relink]

/-- Only the owners that are put in place last count. -/
theorem relink_relink (nodes : Arena) (first second : Array (Option NodeId)) :
    (nodes.relink first).relink second = nodes.relink second := by
  apply Array.ext <;> simp [relink]

/-- After relinking, the recorded owners are those that list the node. -/
theorem linked_relink (hsize : nodes.size ≤ UInt32.size) {owners : Array (Option NodeId)}
    (hrefs : nodes.firstDangling = none)
    (howners : assignOwners nodes.ownership (Array.replicate nodes.size none) = .ok owners) :
    (nodes.relink owners).Linked := by
  intro owner child
  rw [owns_relink, ← mem_ownership_iff hsize]
  exact parentOf_relink_eq_some_iff hrefs howners

theorem acyclic_of_firstEndless (hlinked : nodes.Linked) (h : nodes.firstEndless = none) :
    nodes.Acyclic :=
  acyclic_of_climb_eq_none hlinked fun _ hin => climb_eq_none_of_firstEndless h hin

theorem not_acyclic_of_firstEndless (hlinked : nodes.Linked) {id : NodeId}
    (h : nodes.firstEndless = some id) : ¬ nodes.Acyclic := by
  intro hacyclic
  have hmem := List.mem_of_find?_eq_some h
  have hclimb : (nodes.climb nodes.size id).isSome = true :=
    List.find?_some (p := fun id => (nodes.climb nodes.size id).isSome) h
  obtain ⟨i, hi, rfl⟩ := List.mem_map.1 hmem
  have hin : (NodeId.ofIndex i).index < nodes.size := by
    have hle : (NodeId.ofIndex i).index ≤ i := NodeId.index_ofIndex_le i
    exact Nat.lt_of_le_of_lt hle (List.mem_range.1 hi)
  rw [climb_size_eq_none_of_acyclic hlinked hacyclic hin] at hclimb
  cases hclimb

/-! ## All checks together -/

theorem rootInside_of_node? {node : Node} (h : nodes.node? root = some node) :
    nodes.RootInside root :=
  (Array.getElem?_eq_some_iff.1 h).1

theorem RootKind.inside (h : nodes.RootKind root) : nodes.RootInside root := by
  obtain ⟨node, _, hn, _⟩ := h
  exact rootInside_of_node? hn

/-- The conditions under which each outcome of loading arises. -/
theorem ofParts_cases (hsize : nodes.size ≤ UInt32.size) (root : NodeId) :
    (¬ nodes.RootInside root ∧
      Tree.ofParts nodes root = .error (.danglingReference root root nodes.size)) ∨
    (nodes.RootInside root ∧ ¬ nodes.RootKind root ∧
      ∃ found, Tree.ofParts nodes root = .error (.invalidRoot root found)) ∨
    (nodes.RootInside root ∧ nodes.RootKind root ∧ ¬ nodes.Closed ∧
      ∃ id reference,
        Tree.ofParts nodes root = .error (.danglingReference id reference nodes.size)) ∨
    (nodes.RootInside root ∧ nodes.RootKind root ∧ nodes.Closed ∧ ¬ nodes.SingleOwner ∧
      ∃ child first second,
        Tree.ofParts nodes root = .error (.sharedChild child first second)) ∨
    (nodes.RootInside root ∧ nodes.RootKind root ∧ nodes.Closed ∧ nodes.SingleOwner ∧
      ¬ nodes.Acyclic ∧ ∃ id, Tree.ofParts nodes root = .error (.cycle id)) ∨
    (nodes.RootInside root ∧ nodes.RootKind root ∧ nodes.Closed ∧ nodes.SingleOwner ∧
      nodes.Acyclic ∧ ∃ t, Tree.ofParts nodes root = .ok t) := by
  have hloads := loads_ofParts nodes root
  generalize Tree.ofParts nodes root = result at hloads ⊢
  cases hloads with
  | rootOutside h =>
    have hout : ¬ nodes.RootInside root := by
      simpa [RootInside, node?] using h
    exact .inl ⟨hout, rfl⟩
  | otherKind hroot h =>
    refine .inr (.inl ⟨rootInside_of_node? hroot, ?_, _, rfl⟩)
    rintro ⟨node, definitions, hn, hkind⟩
    rw [hroot] at hn
    cases hn
    exact h definitions hkind
  | dangling hroot h =>
    exact .inr (.inr (.inl ⟨hroot.inside, hroot, not_closed_of_firstDangling h, _, _, rfl⟩))
  | shared hroot hrefs h =>
    obtain ⟨child, first, second, rfl⟩ := eq_sharedChild_of_assignOwners h
    exact .inr (.inr (.inr (.inl ⟨hroot.inside, hroot, closed_of_firstDangling hrefs,
      not_singleOwner_of_assignOwners hrefs h, _, _, _, rfl⟩)))
  | endless hroot hrefs howners h =>
    have hcycle := not_acyclic_of_firstEndless (linked_relink hsize hrefs howners) h
    rw [acyclic_relink] at hcycle
    exact .inr (.inr (.inr (.inr (.inl ⟨hroot.inside, hroot, closed_of_firstDangling hrefs,
      singleOwner_of_assignOwners hrefs howners, hcycle, _, rfl⟩))))
  | loaded hroot hrefs howners hends hnodes htop =>
    have hacyclic := acyclic_of_firstEndless (linked_relink hsize hrefs howners) hends
    rw [acyclic_relink] at hacyclic
    exact .inr (.inr (.inr (.inr (.inr ⟨hroot.inside, hroot, closed_of_firstDangling hrefs,
      singleOwner_of_assignOwners hrefs howners, hacyclic, _, rfl⟩))))

end Arena

namespace Tree

/-- A loaded tree is the arena it was made from with other owners. -/
theorem nodes_of_ofParts {nodes : Arena} {root : NodeId} {t : Tree}
    (h : Tree.ofParts nodes root = .ok t) :
    t.root = root ∧ ∃ owners, t.nodes = nodes.relink owners := by
  have hloads := Arena.loads_ofParts nodes root
  rw [h] at hloads
  cases hloads with
  | loaded _ _ _ _ hnodes htop => exact ⟨htop, _, hnodes⟩

/-- Loading ignores the owners that the parts record. -/
theorem ofParts_relink {nodes : Arena} {root : NodeId} {t : Tree}
    (h : Tree.ofParts nodes root = .ok t) (owners : Array (Option NodeId)) :
    Tree.ofParts (nodes.relink owners) root = .ok t := by
  have hloads := Arena.loads_ofParts nodes root
  rw [h] at hloads
  cases hloads with
  | @loaded found _ hroot hrefs hfound hends hnodes htop =>
    -- Recording owners looks at child lists only, so it finds the same owners again.
    have hsame : Arena.assignOwners (nodes.relink owners).ownership
        (Array.replicate (nodes.relink owners).size none) = .ok found := by
      rw [Arena.ownership_relink, Arena.size_relink]
      exact hfound
    have hkeep : (nodes.relink owners).relink found = t.nodes := by
      rw [Arena.relink_relink, hnodes]
    obtain ⟨top, definitions, hnode, hkind⟩ := hroot
    have hagain := Arena.loads_ofParts (nodes.relink owners) root
    generalize Tree.ofParts (nodes.relink owners) root = result at hagain ⊢
    cases hagain with
    | rootOutside hout =>
      rw [Arena.node?_relink, hnode] at hout
      cases hout
    | otherKind hroot hother =>
      rw [Arena.node?_relink, hnode] at hroot
      cases hroot
      exact absurd hkind (hother definitions)
    | dangling _ hout =>
      exact absurd ((Arena.closed_of_firstDangling hrefs).relink owners)
        (Arena.not_closed_of_firstDangling hout)
    | shared _ _ herror =>
      rw [hsame] at herror
      cases herror
    | endless _ _ hok hcycle =>
      rw [hsame] at hok
      cases hok
      rw [hkeep, hnodes, hends] at hcycle
      cases hcycle
    | loaded _ _ hok _ hresult hroot =>
      rw [hsame] at hok
      cases hok
      rw [hkeep] at hresult
      rw [Tree.ext hresult (hroot.trans htop.symm)]

/-- Loading the parts of a loaded tree gives that tree. -/
theorem ofParts_nodes_root {nodes : Arena} {root : NodeId} {t : Tree}
    (h : Tree.ofParts nodes root = .ok t) : Tree.ofParts t.nodes t.root = .ok t := by
  obtain ⟨htop, owners, hnodes⟩ := nodes_of_ofParts h
  rw [htop, hnodes]
  exact ofParts_relink h owners

/-- In a tree whose positions have numbers of their own, a node records an owner
exactly when that owner lists it. -/
theorem parent?_eq_some_iff {t : Tree} (hsize : t.size ≤ UInt32.size) {child owner : NodeId} :
    t.parent? child = some owner ↔ child ∈ t.children owner :=
  (t.wellFormed.linked owner child).trans (Arena.mem_ownership_iff hsize)

/-- An arena that loading leaves as it is is well formed. -/
theorem wellFormed_of_ofParts {nodes : Arena} {root : NodeId}
    (h : (Tree.ofParts nodes root).toOption.any (fun t => t.nodes = nodes ∧ t.root = root) = true) :
    WellFormed nodes root := by
  obtain ⟨t, _, ht⟩ := (Option.any_eq_true _ _).1 h
  obtain ⟨hnodes, htop⟩ := of_decide_eq_true ht
  exact hnodes ▸ htop ▸ t.wellFormed

/-- Loading accepts exactly the arenas that are trees.  The first condition that
fails names the error, and a tree that comes out has new owners and nothing else
new: they are the nodes that list a node, and following them ends. -/
theorem ofParts_exact (nodes : Arena) (root : NodeId) (hsize : nodes.size ≤ UInt32.size) :
    ((∃ t, Tree.ofParts nodes root = .ok t) ↔
      nodes.RootInside root ∧ nodes.RootKind root ∧ nodes.Closed ∧ nodes.SingleOwner ∧
        nodes.Acyclic) ∧
    (¬ nodes.RootInside root →
      Tree.ofParts nodes root = .error (.danglingReference root root nodes.size)) ∧
    (nodes.RootInside root → ¬ nodes.RootKind root →
      ∃ found, Tree.ofParts nodes root = .error (.invalidRoot root found)) ∧
    (nodes.RootInside root → nodes.RootKind root → ¬ nodes.Closed →
      ∃ id reference,
        Tree.ofParts nodes root = .error (.danglingReference id reference nodes.size)) ∧
    (nodes.RootInside root → nodes.RootKind root → nodes.Closed → ¬ nodes.SingleOwner →
      ∃ child first second,
        Tree.ofParts nodes root = .error (.sharedChild child first second)) ∧
    (nodes.RootInside root → nodes.RootKind root → nodes.Closed → nodes.SingleOwner →
      ¬ nodes.Acyclic → ∃ id, Tree.ofParts nodes root = .error (.cycle id)) ∧
    ∀ t, Tree.ofParts nodes root = .ok t →
      t.root = root ∧
      t.nodes.map (fun node => (node.kind, node.resolved, node.span)) =
        nodes.map (fun node => (node.kind, node.resolved, node.span)) ∧
      (∀ child owner, t.parent? child = some owner ↔ child ∈ t.children owner) ∧
      ∀ id, (t.ancestors id).head? = some id ∧ (t.ancestors id).Nodup ∧
        ((t.ancestors id).IsChain fun lower upper => t.parent? lower = some upper) ∧
        ∀ last, (t.ancestors id).getLast? = some last → t.parent? last = none := by
  have hcases := Arena.ofParts_cases hsize root
  refine ⟨?_, ?_, ?_, ?_, ?_, ?_, ?_⟩
  · grind
  · grind
  · grind
  · grind
  · grind
  · grind
  · intro t ht
    obtain ⟨htop, owners, hnodes⟩ := nodes_of_ofParts ht
    have hsize' : t.size ≤ UInt32.size := by rw [size, hnodes, Arena.size_relink]; exact hsize
    refine ⟨htop, ?_, fun _ _ => parent?_eq_some_iff hsize', fun id => ?_⟩
    · rw [hnodes]
      apply Array.ext <;> simp [Arena.relink]
    · exact ⟨t.head?_ancestors id, t.nodup_ancestors id, t.isChain_ancestors id,
        fun last => parent?_of_getLast?_ancestors⟩

/-- Two packages that list each other beside an empty root. -/
def packageRing : Arena :=
  #[{ kind := .package { text := "a" } [⟨1⟩] }, { kind := .package { text := "b" } [⟨0⟩] },
    { kind := .root [] }]

/-- The ring passes every check but the last. -/
theorem ofParts_exact_packageRing :
    packageRing.size ≤ UInt32.size ∧ ∃ id, Tree.ofParts packageRing ⟨2⟩ = .error (.cycle id) := by
  have hsize : packageRing.size ≤ UInt32.size := by decide
  have hclosed : packageRing.Closed := by
    rw [Arena.closed_iff]
    decide
  have hcycle : ¬ packageRing.Acyclic := by
    intro hacyclic
    have hdown : packageRing.Owns ⟨0⟩ ⟨1⟩ := by
      unfold Arena.Owns
      decide
    have hup : packageRing.Owns ⟨1⟩ ⟨0⟩ := by
      unfold Arena.Owns
      decide
    exact hacyclic ⟨0⟩ (.tail (.single hdown) hup)
  refine ⟨hsize, (ofParts_exact packageRing ⟨2⟩ hsize).2.2.2.2.2.1 ?_ ?_ hclosed ?_ hcycle⟩
  · exact show (2 : Nat) < 3 by decide
  · exact ⟨_, [], rfl, rfl⟩
  · unfold Arena.SingleOwner
    decide

end Tree

end Emitter
