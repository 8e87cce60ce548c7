import Emitter.Proofs.Tree.Loading

/-!
# The node that a cycle is reported at

An arena with a ring of owners is refused, and the report names a node.  The loader finds
that node by counting: it takes the first node whose way up has as many steps as the arena
has nodes.  Such a way never ends, but it need not come back to where it started.  It may
as well lead into a ring from outside.

* `Arena.Above` is the relation that the report speaks of: following owners upwards from
  the second node, at least once, leads to the first;
* `Arena.Endless` says that a node is on a ring or below one, and that is what counting
  decides (`climb_size_isSome_iff`);
* the node of the report is the endless node with the lowest number
  (`firstEndless_eq_some_iff`, `ofParts_eq_cycle_iff`).

So the report is right that there is a ring, and right about the node only where no node
that hangs below a ring has a lower number than all nodes on rings.  With
`hangingClass` the report says of a class that it is its own ancestor, and the class has no
child at all.
-/

namespace Emitter

namespace Arena

variable {nodes : Arena} {root id : NodeId}

/-- Following owners upwards from the second node, at least once, leads to the first. -/
def Above (nodes : Arena) : NodeId → NodeId → Prop :=
  Relation.TransGen fun owner child => (owner, child) ∈ nodes.ownership

/-- The way up from a node comes to a ring: the node is on one, or one is above it. -/
def Endless (nodes : Arena) (id : NodeId) : Prop :=
  ∃ ring, nodes.Above ring ring ∧ (ring = id ∨ nodes.Above ring id)

theorem Above.endless (h : nodes.Above id id) : nodes.Endless id := ⟨id, h, .inl rfl⟩

/-- A node that has something above it is listed as a child. -/
theorem exists_owner_of_above {top : NodeId} (h : nodes.Above top id) :
    ∃ owner, (owner, id) ∈ nodes.ownership := by
  cases h with
  | single howner => exact ⟨top, howner⟩
  | tail _ howner => exact ⟨_, howner⟩

theorem index_lt_of_endless (hrefs : nodes.firstDangling = none) (h : nodes.Endless id) :
    id.index < nodes.size := by
  obtain ⟨ring, hring, habove⟩ := h
  have hlisted : ∃ owner, (owner, id) ∈ nodes.ownership := by
    rcases habove with rfl | habove
    · exact exists_owner_of_above hring
    · exact exists_owner_of_above habove
  obtain ⟨owner, hpair⟩ := hlisted
  have hbound := index_lt_replicate hrefs (owner, id) hpair
  rwa [Array.size_replicate] at hbound

/-! ## Counting steps -/

section

variable {owners : Array (Option NodeId)} (hrefs : nodes.firstDangling = none)
  (howners : assignOwners nodes.ownership (Array.replicate nodes.size none) = .ok owners)

include hrefs howners

theorem ownersInside_relink : (nodes.relink owners).OwnersInside := by
  intro child owner hp
  have hpair := (parentOf_relink_eq_some_iff hrefs howners).1 hp
  rw [size_relink]
  exact index_lt_of_mem_ownership hpair

/-- The way up from a node is as long as the arena exactly when it never ends. -/
theorem climb_size_isSome_iff (hin : id.index < nodes.size) :
    ((nodes.relink owners).climb nodes.size id).isSome = true ↔ nodes.Endless id := by
  have hlinked : ∀ owner child, (nodes.relink owners).parentOf child = some owner ↔
      (owner, child) ∈ nodes.ownership := fun _ _ => parentOf_relink_eq_some_iff hrefs howners
  constructor
  · intro hclimb
    obtain ⟨top, htop⟩ := Option.isSome_iff_exists.1 hclimb
    rw [← size_relink nodes owners] at htop hin
    obtain ⟨m, n, mid, hmid, hreturn⟩ :=
      exists_return_of_climb_size (ownersInside_relink hrefs howners) hin htop
    refine ⟨mid, transGen_of_climb hlinked hreturn, ?_⟩
    cases m with
    | zero => exact .inl (Option.some.inj hmid).symm
    | succ m => exact .inr (transGen_of_climb hlinked hmid)
  · rintro ⟨ring, hring, habove⟩
    obtain ⟨n, hreturn⟩ := exists_climb_of_transGen hlinked hring
    have hlong := climb_ne_none_of_return hreturn
    rw [← Option.ne_none_iff_isSome]
    rcases habove with rfl | habove
    · exact hlong nodes.size
    · -- Past the ring there are ways of every length, so also one of this length from here.
      obtain ⟨m, hm⟩ := exists_climb_of_transGen hlinked habove
      obtain ⟨top, htop⟩ := Option.ne_none_iff_exists'.1 (hlong nodes.size)
      have hall : (nodes.relink owners).climb (m + 1 + nodes.size) id = some top := by
        rw [climb_add, hm, Option.bind_some, htop]
      obtain ⟨mid, hmid⟩ := exists_climb_of_le (Nat.le_add_left nodes.size (m + 1)) hall
      rw [hmid]
      exact Option.some_ne_none mid

/-- The first node with a way up as long as the arena is the endless node with the lowest
number. -/
theorem firstEndless_eq_some_iff :
    (nodes.relink owners).firstEndless = some id ↔
      nodes.Endless id ∧ ∀ other, nodes.Endless other → id.index ≤ other.index := by
  have hdecides : ∀ other : NodeId, other.index < nodes.size →
      (((nodes.relink owners).climb nodes.size other).isSome = true ↔ nodes.Endless other) :=
    fun other => climb_size_isSome_iff hrefs howners
  have hfound : ∀ found, (nodes.relink owners).firstEndless = some found →
      nodes.Endless found ∧ ∀ other, nodes.Endless other → found.index ≤ other.index := by
    intro found hfirst
    rw [firstEndless, size_relink, List.find?_map, Option.map_eq_some_iff] at hfirst
    obtain ⟨i, hi, rfl⟩ := hfirst
    obtain ⟨hclimb, hlt, hbefore⟩ := List.find?_range_eq_some.1 hi
    have hindex : (NodeId.ofIndex i).index ≤ i := NodeId.index_ofIndex_le i
    rw [List.mem_range] at hlt
    refine ⟨(hdecides _ (by omega)).1 hclimb, fun other hother => ?_⟩
    by_contra hless
    have hearly := hbefore other.index (by omega)
    have hlong := (hdecides other (index_lt_of_endless hrefs hother)).2 hother
    simp [NodeId.ofIndex_index, hlong] at hearly
  refine ⟨hfound id, fun ⟨hendless, hleast⟩ => ?_⟩
  cases hfirst : (nodes.relink owners).firstEndless with
  | none =>
    have hin : id.index < (nodes.relink owners).size := by
      rw [size_relink]
      exact index_lt_of_endless hrefs hendless
    have hshort := climb_eq_none_of_firstEndless hfirst hin
    rw [size_relink] at hin hshort
    have hlong := (hdecides id hin).2 hendless
    rw [hshort] at hlong
    cases hlong
  | some found =>
    obtain ⟨hother, hfirst⟩ := hfound found hfirst
    have hsame : found.index = id.index := by
      have hle := hfirst id hendless
      have hge := hleast found hother
      omega
    rw [NodeId.ext hsame]

end

/-- Nothing but a ring of owners is reported as a cycle, and the node of the report is the
endless node with the lowest number. -/
theorem ofParts_eq_cycle_iff :
    Tree.ofParts nodes root = .error (.cycle id) ↔
      nodes.RootKind root ∧ nodes.Closed ∧ nodes.SingleOwner ∧
        nodes.Endless id ∧ ∀ other, nodes.Endless other → id.index ≤ other.index := by
  have hloads := loads_ofParts nodes root
  generalize Tree.ofParts nodes root = result at hloads ⊢
  cases hloads with
  | rootOutside h =>
    refine ⟨fun he => (nomatch he), fun ⟨⟨node, _, hn, _⟩, _⟩ => ?_⟩
    rw [h] at hn
    cases hn
  | otherKind hroot h =>
    refine ⟨fun he => (nomatch he), fun ⟨⟨node, definitions, hn, hkind⟩, _⟩ => ?_⟩
    rw [hroot] at hn
    cases hn
    exact absurd hkind (h definitions)
  | dangling _ h =>
    refine ⟨fun he => (nomatch he), fun ⟨_, hclosed, _⟩ => ?_⟩
    exact absurd hclosed (not_closed_of_firstDangling h)
  | shared _ hrefs h =>
    obtain ⟨child, first, second, rfl⟩ := eq_sharedChild_of_assignOwners h
    refine ⟨fun he => (nomatch he), fun ⟨_, _, hsingle, _⟩ => ?_⟩
    exact absurd hsingle (not_singleOwner_of_assignOwners hrefs h)
  | @endless owners found hroot hrefs howners h =>
    have hclosed := closed_of_firstDangling hrefs
    have hsingle := singleOwner_of_assignOwners hrefs howners
    have hiff : some found = some id ↔
        nodes.Endless id ∧ ∀ other, nodes.Endless other → id.index ≤ other.index :=
      h ▸ firstEndless_eq_some_iff hrefs howners
    simp only [hroot, hclosed, hsingle, true_and, ← hiff, Except.error.injEq,
      TreeError.cycle.injEq, Option.some.injEq]
  | @loaded owners t hroot hrefs howners hends _ _ =>
    refine ⟨fun he => (nomatch he), fun ⟨_, _, _, hleast⟩ => ?_⟩
    rw [(firstEndless_eq_some_iff hrefs howners).2 hleast] at hends
    cases hends

end Arena

namespace Tree

/-- A cycle is reported exactly for arenas that pass all other checks and have an endless
node, at the one with the lowest number.  That node is above itself exactly when every
endless node has a node on a ring at its own number or below. -/
theorem cycle_at_lowest_endless (nodes : Arena) (root id : NodeId) :
    (Tree.ofParts nodes root = .error (.cycle id) ↔
      nodes.RootKind root ∧ nodes.Closed ∧ nodes.SingleOwner ∧
        nodes.Endless id ∧ ∀ other, nodes.Endless other → id.index ≤ other.index) ∧
    (Tree.ofParts nodes root = .error (.cycle id) →
      (nodes.Above id id ↔ ∀ other, nodes.Endless other →
        ∃ ring, nodes.Above ring ring ∧ ring.index ≤ other.index)) := by
  refine ⟨Arena.ofParts_eq_cycle_iff, fun h => ?_⟩
  obtain ⟨_, _, _, hendless, hleast⟩ := Arena.ofParts_eq_cycle_iff.1 h
  constructor
  · intro hring other hother
    exact ⟨id, hring, hleast other hother⟩
  · intro hlow
    obtain ⟨ring, hring, hle⟩ := hlow id hendless
    have hge := hleast ring hring.endless
    have hsame : ring = id := NodeId.ext (by omega)
    exact hsame ▸ hring

/-- Of two packages that list each other, the report names one that is above itself. -/
theorem cycle_at_lowest_endless_packageRing :
    Tree.ofParts packageRing ⟨2⟩ = .error (.cycle ⟨0⟩) ∧ packageRing.Above ⟨0⟩ ⟨0⟩ := by
  have hreport : Tree.ofParts packageRing ⟨2⟩ = .error (.cycle ⟨0⟩) := by decide
  have hring : packageRing.Above ⟨0⟩ ⟨0⟩ := .tail (b := ⟨1⟩) (.single (by decide)) (by decide)
  refine ⟨hreport, ((cycle_at_lowest_endless packageRing ⟨2⟩ ⟨0⟩).2 hreport).2 ?_⟩
  intro other _
  exact ⟨⟨0⟩, hring, Nat.zero_le _⟩

/-- A class in a package that is in a ring of two packages. -/
def hangingClass : Arena :=
  #[{ kind := .typeDef .classType { text := "C" } [] [] },
    { kind := .package { text := "a" } [⟨0⟩, ⟨2⟩] }, { kind := .package { text := "b" } [⟨1⟩] },
    { kind := .root [] }]

/-- The report says of the class that it is its own ancestor, and it is not: it owns
nothing.  The package above it is. -/
theorem cycle_at_hangingClass :
    Tree.ofParts hangingClass ⟨3⟩ = .error (.cycle ⟨0⟩) ∧
    (TreeError.cycle ⟨0⟩).message = "Node #0 is its own ancestor" ∧
    ¬ hangingClass.Above ⟨0⟩ ⟨0⟩ ∧ hangingClass.Above ⟨1⟩ ⟨1⟩ := by
  have hreport : Tree.ofParts hangingClass ⟨3⟩ = .error (.cycle ⟨0⟩) := by decide
  have hring : hangingClass.Above ⟨1⟩ ⟨1⟩ := .tail (b := ⟨2⟩) (.single (by decide)) (by decide)
  refine ⟨hreport, by decide, fun habove => ?_, hring⟩
  have hlists : ∀ pair ∈ hangingClass.ownership, pair.1 ≠ ⟨0⟩ := by decide
  obtain ⟨child, hchild, _⟩ := Relation.TransGen.head'_iff.1 habove
  exact hlists _ hchild rfl

end Tree

end Emitter
