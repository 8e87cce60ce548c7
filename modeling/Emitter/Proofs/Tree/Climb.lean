import Mathlib.Data.Fintype.Pigeonhole
import Mathlib.Logic.Relation
import Emitter.Tree.Load

/-!
# Ways up an arena

`Arena.climb` follows recorded owners, `Arena.Owns` the child lists.  Where the
two agree (`Arena.Linked`), a way up that is as long as the arena has met some
node twice, and a node that is above itself has ways up of every length.  So
counting steps decides whether the ownership relation has a cycle
(`climb_size_eq_none_of_acyclic`, `acyclic_of_climb_eq_none`).

The second half reads off what this means for `Tree.ancestors`: the list starts
at the node, goes from owner to owner without meeting a node twice, and ends at
a node without an owner.  The way down ends too, which is an induction principle
(`induction_below`), and `Below` is what can be met on it.
-/

namespace Emitter

namespace Arena

/-- One node lists another as a child. -/
def Owns (nodes : Arena) (owner child : NodeId) : Prop := child ∈ nodes.childrenOf owner

/-- No node is below itself. -/
def Acyclic (nodes : Arena) : Prop := ∀ id, ¬ Relation.TransGen nodes.Owns id id

/-- The recorded owners are those that list the node. -/
def Linked (nodes : Arena) : Prop :=
  ∀ owner child, nodes.parentOf child = some owner ↔ nodes.Owns owner child

variable {nodes : Arena}

/-! ## Steps -/

/-- Climbs compose. -/
theorem climb_add (nodes : Arena) (m n : Nat) (id : NodeId) :
    nodes.climb (m + n) id = (nodes.climb m id).bind (nodes.climb n) := by
  induction m generalizing id with
  | zero => simp [climb]
  | succ m ih =>
    rw [Nat.succ_add]
    cases hp : nodes.parentOf id with
    | none => simp [climb, hp]
    | some parent => rw [climb_succ_of_parentOf hp, climb_succ_of_parentOf hp, ih]

/-- The end of a climb continues the climb. -/
theorem climb_sub {m n : Nat} {id mid top : NodeId} (hle : m ≤ n)
    (hm : nodes.climb m id = some mid) (hn : nodes.climb n id = some top) :
    nodes.climb (n - m) mid = some top := by
  have hsplit := climb_add nodes m (n - m) id
  rw [Nat.add_sub_cancel' hle, hn, hm] at hsplit
  exact hsplit.symm

/-- A way up has every shorter length as well. -/
theorem exists_climb_of_le {m n : Nat} {id top : NodeId} (hle : m ≤ n)
    (hn : nodes.climb n id = some top) : ∃ mid, nodes.climb m id = some mid := by
  have hsplit := climb_add nodes m (n - m) id
  rw [Nat.add_sub_cancel' hle, hn] at hsplit
  obtain ⟨mid, hm, _⟩ := Option.bind_eq_some_iff.1 hsplit.symm
  exact ⟨mid, hm⟩

/-- A node that is above itself is above itself after any number of rounds. -/
theorem climb_mul {n : Nat} {id : NodeId} (h : nodes.climb n id = some id) (rounds : Nat) :
    nodes.climb (rounds * n) id = some id := by
  induction rounds with
  | zero => simp [climb]
  | succ rounds ih => rw [Nat.succ_mul, climb_add, ih, Option.bind_some, h]

/-- A node that is above itself has ways up of every length. -/
theorem climb_ne_none_of_return {n : Nat} {id : NodeId}
    (h : nodes.climb (n + 1) id = some id) (length : Nat) : nodes.climb length id ≠ none := by
  have hlong : nodes.climb (length * (n + 1)) id = some id := climb_mul h length
  have hle : length ≤ length * (n + 1) := Nat.le_mul_of_pos_right length (Nat.succ_pos n)
  obtain ⟨mid, hmid⟩ := exists_climb_of_le hle hlong
  rw [hmid]
  exact Option.some_ne_none mid

/-! ## Steps and ownership -/

section

variable {Lists : NodeId → NodeId → Prop}
  (hlinked : ∀ owner child, nodes.parentOf child = some owner ↔ Lists owner child)

include hlinked

/-- What a climb reaches owns, directly or not, where it started. -/
theorem transGen_of_climb {n : Nat} {id top : NodeId}
    (h : nodes.climb (n + 1) id = some top) : Relation.TransGen Lists top id := by
  induction n generalizing id with
  | zero =>
    obtain ⟨parent, hp, he⟩ := Option.bind_eq_some_iff.1 h
    cases he
    exact .single ((hlinked top id).1 hp)
  | succ n ih =>
    obtain ⟨parent, hp, hup⟩ := Option.bind_eq_some_iff.1 h
    exact (ih hup).tail ((hlinked parent id).1 hp)

/-- An owner, direct or not, is reached by a climb. -/
theorem exists_climb_of_transGen {id top : NodeId}
    (h : Relation.TransGen Lists top id) : ∃ n, nodes.climb (n + 1) id = some top := by
  induction h with
  | single howns =>
    refine ⟨0, ?_⟩
    rw [climb_succ_of_parentOf ((hlinked _ _).2 howns)]
    rfl
  | tail _ howns ih =>
    obtain ⟨n, hn⟩ := ih
    refine ⟨n + 1, ?_⟩
    rw [climb_succ_of_parentOf ((hlinked _ _).2 howns)]
    exact hn

end

theorem index_lt_of_owns {owner child : NodeId} (h : nodes.Owns owner child) :
    owner.index < nodes.size := by
  obtain ⟨node, hn, _⟩ := node?_eq_some_of_mem_childrenOf h
  exact (Array.getElem?_eq_some_iff.1 hn).1

/-- The recorded owners are nodes of the arena. -/
def OwnersInside (nodes : Arena) : Prop :=
  ∀ child owner, nodes.parentOf child = some owner → owner.index < nodes.size

theorem Linked.ownersInside (hlinked : nodes.Linked) : nodes.OwnersInside :=
  fun _ _ hp => index_lt_of_owns ((hlinked _ _).1 hp)

/-- A climb stays inside the arena. -/
theorem index_lt_of_climb (hinside : nodes.OwnersInside) {n : Nat} {id top : NodeId}
    (hin : id.index < nodes.size) (h : nodes.climb n id = some top) : top.index < nodes.size := by
  induction n generalizing id with
  | zero => cases h; exact hin
  | succ n ih =>
    obtain ⟨parent, hp, hup⟩ := Option.bind_eq_some_iff.1 h
    exact ih (hinside id parent hp) hup

/-- A way up as long as the arena meets some node twice. -/
theorem exists_return_of_climb_size (hinside : nodes.OwnersInside) {id top : NodeId}
    (hin : id.index < nodes.size) (h : nodes.climb nodes.size id = some top) :
    ∃ m n mid, nodes.climb m id = some mid ∧ nodes.climb (n + 1) mid = some mid := by
  -- The `size + 1` nodes on the way have only `size` positions.
  have hmet : ∀ i : Fin (nodes.size + 1), ∃ mid, nodes.climb i id = some mid := by
    intro i
    exact exists_climb_of_le (Nat.lt_succ_iff.1 i.isLt) h
  choose met hmet using hmet
  have hposition : ∀ i, (met i).index < nodes.size :=
    fun i => index_lt_of_climb hinside hin (hmet i)
  obtain ⟨i, j, hne, heq⟩ := Fintype.exists_ne_map_eq_of_card_lt
    (fun i => (⟨(met i).index, hposition i⟩ : Fin nodes.size)) (by simp)
  have hsame : met i = met j := NodeId.ext (by simpa using heq)
  have hreturn : ∀ a b : Fin (nodes.size + 1), a < b → met a = met b →
      ∃ m n mid, nodes.climb m id = some mid ∧ nodes.climb (n + 1) mid = some mid := by
    intro a b hlt hab
    have hback := climb_sub (Nat.le_of_lt hlt) (hmet a) (hmet b)
    refine ⟨a, b - a - 1, met a, hmet a, ?_⟩
    have hlen : (b - a - 1 + 1 : Nat) = b - a := by omega
    rw [hlen, hback, hab]
  rcases lt_or_gt_of_ne hne with hlt | hgt
  · exact hreturn i j hlt hsame
  · exact hreturn j i hgt hsame.symm

/-- Without a cycle no way up is as long as the arena. -/
theorem climb_size_eq_none_of_acyclic (hlinked : nodes.Linked) (hacyclic : nodes.Acyclic)
    {id : NodeId} (hin : id.index < nodes.size) : nodes.climb nodes.size id = none := by
  cases hclimb : nodes.climb nodes.size id with
  | none => rfl
  | some top =>
    obtain ⟨_, n, mid, _, hmid⟩ := exists_return_of_climb_size hlinked.ownersInside hin hclimb
    exact absurd (transGen_of_climb hlinked hmid) (hacyclic mid)

/-- When no way up is as long as the arena, there is no cycle. -/
theorem acyclic_of_climb_eq_none (hlinked : nodes.Linked)
    (h : ∀ id : NodeId, id.index < nodes.size → nodes.climb nodes.size id = none) :
    nodes.Acyclic := by
  intro id hcycle
  obtain ⟨n, hn⟩ := exists_climb_of_transGen hlinked hcycle
  have hparent : ∃ parent, nodes.parentOf id = some parent := by
    obtain ⟨parent, hp, _⟩ := Option.bind_eq_some_iff.1 hn
    exact ⟨parent, hp⟩
  obtain ⟨parent, hp⟩ := hparent
  exact climb_ne_none_of_return hn nodes.size (h id (index_lt_of_parentOf hp))

/-! ## The list of owners -/

/-- The entries of a chain are the ends of the climbs. -/
theorem getElem?_chain (nodes : Arena) (n i : Nat) (id : NodeId) :
    (nodes.chain n id)[i]? = if i < n then nodes.climb i id else none := by
  induction n generalizing i id with
  | zero => simp [chain]
  | succ n ih =>
    cases i with
    | zero => simp [chain, climb]
    | succ i =>
      cases hp : nodes.parentOf id with
      | none => simp [chain, climb, hp]
      | some parent =>
        rw [chain_succ_of_parentOf hp, climb_succ_of_parentOf hp, List.getElem?_cons_succ, ih]
        simp

/-- A chain goes from a node to its owner. -/
theorem isChain_chain (nodes : Arena) (n : Nat) (id : NodeId) :
    (nodes.chain n id).IsChain fun lower upper => nodes.parentOf lower = some upper := by
  induction n generalizing id with
  | zero => exact .nil
  | succ n ih =>
    cases hp : nodes.parentOf id with
    | none => simp [chain, hp]
    | some parent =>
      rw [chain_succ_of_parentOf hp, List.isChain_cons]
      refine ⟨fun next hnext => ?_, ih parent⟩
      cases n with
      | zero => simp [chain] at hnext
      | succ n => simp only [chain, List.head?_cons, Option.mem_some_iff] at hnext; rw [hp, hnext]

/-- A chain that a way up does not outlast ends at a node without an owner. -/
theorem parentOf_of_getLast?_chain {n : Nat} {id last : NodeId}
    (hend : nodes.climb n id = none) (hlast : (nodes.chain n id).getLast? = some last) :
    nodes.parentOf last = none := by
  induction n generalizing id with
  | zero => simp [climb] at hend
  | succ n ih =>
    cases hp : nodes.parentOf id with
    | none =>
      simp only [chain, hp, List.getLast?_singleton, Option.some.injEq] at hlast
      rw [← hlast, hp]
    | some parent =>
      rw [climb_succ_of_parentOf hp] at hend
      rw [chain_succ_of_parentOf hp, List.getLast?_cons] at hlast
      cases hrest : (nodes.chain n parent).getLast? with
      | none =>
        rw [List.getLast?_eq_none_iff] at hrest
        cases n with
        | zero => simp [climb] at hend
        | succ n => simp [chain] at hrest
      | some found =>
        rw [hrest] at hlast
        cases hlast
        exact ih hend hrest

/-- The owner of a pair is inside the arena. -/
theorem index_lt_of_mem_ownership {owner child : NodeId}
    (h : (owner, child) ∈ nodes.ownership) : owner.index < nodes.size := by
  obtain ⟨i, node, hn, _, rfl⟩ := exists_of_mem_ownership h
  have hi : i < nodes.size := (Array.getElem?_eq_some_iff.1 hn).1
  exact Nat.lt_of_le_of_lt (NodeId.index_ofIndex_le i) hi

end Arena

/-! ## Owners of a tree -/

namespace Tree

variable {t : Tree}

theorem size_pos (t : Tree) : 0 < t.size := by
  obtain ⟨node, _, hn, _⟩ := t.wellFormed.rooted
  have := index_lt_of_node? (t := t) hn
  omega

/-- No way up, from wherever, is as long as the tree. -/
theorem climb_size_eq_none (t : Tree) (id : NodeId) : t.nodes.climb t.size id = none := by
  by_cases hin : id.index < t.size
  · exact t.wellFormed.acyclic id hin
  · have hnone : t.nodes.parentOf id = none := by
      cases hp : t.nodes.parentOf id with
      | none => rfl
      | some parent => exact absurd (Arena.index_lt_of_parentOf hp) hin
    obtain ⟨n, hn⟩ : ∃ n, t.size = n + 1 := ⟨t.size - 1, by have := t.size_pos; omega⟩
    rw [hn]
    simp [Arena.climb, hnone]

theorem index_lt_of_parent? {child owner : NodeId} (h : t.parent? child = some owner) :
    owner.index < t.size :=
  Arena.index_lt_of_mem_ownership ((t.wellFormed.linked owner child).1 h)

theorem getElem?_ancestors (t : Tree) (id : NodeId) (i : Nat) :
    (t.ancestors id)[i]? = if i < t.size then t.nodes.climb i id else none :=
  Arena.getElem?_chain t.nodes t.size i id

/-- The ancestors of a node start at the node. -/
theorem head?_ancestors (t : Tree) (id : NodeId) : (t.ancestors id).head? = some id := by
  rw [List.head?_eq_getElem?, getElem?_ancestors, if_pos t.size_pos]
  rfl

/-- The ancestors of a node go from owner to owner. -/
theorem isChain_ancestors (t : Tree) (id : NodeId) :
    (t.ancestors id).IsChain fun lower upper => t.parent? lower = some upper :=
  Arena.isChain_chain t.nodes t.size id

/-- The ancestors of a node end at a node without an owner. -/
theorem parent?_of_getLast?_ancestors {id last : NodeId}
    (h : (t.ancestors id).getLast? = some last) : t.parent? last = none :=
  Arena.parentOf_of_getLast?_chain (t.climb_size_eq_none id) h

/-- No node is met twice on the way up. -/
theorem nodup_ancestors (t : Tree) (id : NodeId) : (t.ancestors id).Nodup := by
  rw [List.nodup_iff_getElem?_ne_getElem?]
  intro i j hij hj heq
  have hlen : j < t.size := Nat.lt_of_lt_of_le hj (Arena.length_chain_le _ _ _)
  rw [getElem?_ancestors, getElem?_ancestors, if_pos (by omega), if_pos hlen] at heq
  obtain ⟨top, htop⟩ : ∃ top, t.nodes.climb j id = some top := by
    have hsome : (t.ancestors id)[j]?.isSome := by simp [hj]
    rw [getElem?_ancestors, if_pos hlen] at hsome
    exact Option.isSome_iff_exists.1 hsome
  have hback := Arena.climb_sub (Nat.le_of_lt hij) (heq.trans htop) htop
  have hstep : j - i = j - i - 1 + 1 := by omega
  rw [hstep] at hback
  exact Arena.climb_ne_none_of_return hback t.size (t.climb_size_eq_none top)

/-- The ancestors of a node of the tree are nodes of the tree. -/
theorem index_lt_of_mem_ancestors {id upper : NodeId} (hin : id.index < t.size)
    (h : upper ∈ t.ancestors id) : upper.index < t.size := by
  obtain ⟨i, hi⟩ := List.getElem?_of_mem h
  rw [getElem?_ancestors] at hi
  split at hi
  · cases i with
    | zero => cases hi; exact hin
    | succ i =>
      -- The last step of the climb goes to a recorded owner.
      rw [Arena.climb_add] at hi
      obtain ⟨lower, _, hup⟩ := Option.bind_eq_some_iff.1 hi
      obtain ⟨owner, hp, he⟩ := Option.bind_eq_some_iff.1 hup
      cases he
      exact index_lt_of_parent? hp
  · cases hi

/-! ## Going down -/

theorem exists_kind? {id : NodeId} (hin : id.index < t.size) : ∃ kind, t.kind? id = some kind := by
  have hnode : t.node? id = some t.nodes[id.index] := Array.getElem?_eq_getElem hin
  exact ⟨_, by rw [kind?, hnode]; rfl⟩

theorem kind?_ne_none {id : NodeId} (hin : id.index < t.size) : t.kind? id ≠ none := by
  obtain ⟨kind, hk⟩ := exists_kind? hin
  rw [hk]
  exact Option.some_ne_none kind

/-- A kind of the tree owns nodes of the tree only. -/
theorem index_lt_of_child {id child : NodeId} {kind : Kind} (hk : t.kind? id = some kind)
    (hc : child ∈ kind.children) : child.index < t.size :=
  index_lt_of_mem_children (mem_children_of_kind? hk hc)

theorem children_of_kind? {id : NodeId} {kind : Kind} (hk : t.kind? id = some kind) :
    t.children id = kind.children := by
  obtain ⟨node, hn, rfl⟩ := kind?_eq_some_iff.1 hk
  rw [node?] at hn
  simp only [children, Arena.childrenOf, hn]

/-- What passes from the nodes that a node owns to the node holds everywhere. -/
theorem induction_below {motive : NodeId → Prop}
    (step : ∀ id, (∀ kind child, t.kind? id = some kind → child ∈ kind.children → motive child) →
      motive id) (id : NodeId) : motive id := by
  induction hroom : t.room id using Nat.strongRecOn generalizing id with
  | ind room ih =>
    subst hroom
    exact step id fun kind child hk hc => ih _ (room_lt_of_kind? hk hc) child rfl

/-- A node is in the subtree of another. -/
def Below (t : Tree) (top id : NodeId) : Prop := Relation.ReflTransGen t.nodes.Owns top id

theorem Below.child {top id child : NodeId} {kind : Kind} (h : t.Below top id)
    (hk : t.kind? id = some kind) (hc : child ∈ kind.children) : t.Below top child :=
  h.tail (mem_children_of_kind? hk hc)

/-- The subtree of a child is part of the subtree of its owner. -/
theorem Below.of_child {top child id : NodeId} {kind : Kind} (h : t.Below child id)
    (hk : t.kind? top = some kind) (hc : child ∈ kind.children) : t.Below top id :=
  h.head (mem_children_of_kind? hk hc)

end Tree

end Emitter
