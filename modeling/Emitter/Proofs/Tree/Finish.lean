import Emitter.Proofs.Tree.Builder

/-!
# What a builder hands out

`Builder.finish` adds a root and loads the arena, which checks all of it once more.  After any
sequence of requests most of these checks cannot fail: the root is in place, and no node is
above itself, because children come before their owner (`Links.acyclic`).  What is left to the
client is that no node is passed as a child twice and that bindings and semantic types are
numbers of nodes (`Tracks.ofParts_cases`).

Loading computes the owners anew.  They are those that the builder has recorded while nodes
were added (`Tracks.nodes_of_ofParts`).
-/

namespace Emitter

namespace Arena

variable {nodes : Arena}

theorem exists_node?_of_mem (hsize : nodes.size ≤ UInt32.size) {node : Node} (h : node ∈ nodes) :
    ∃ id, nodes.node? id = some node := by
  obtain ⟨i, hi⟩ := Array.getElem?_of_mem h
  have hlt : i < UInt32.size :=
    Nat.lt_of_lt_of_le (Array.getElem?_eq_some_iff.1 hi).1 hsize
  refine ⟨.ofIndex i, ?_⟩
  rw [node?, NodeId.index_ofIndex hlt, hi]

/-- A node that is listed once has one owner. -/
theorem SingleOwner.eq_of_owns (h : nodes.SingleOwner) {first second child : NodeId}
    (hfirst : nodes.Owns first child) (hsecond : nodes.Owns second child) : first = second := by
  have hnodup : (nodes.ownership.map (·.2)).Nodup := by
    rw [map_snd_ownership]
    exact h
  have hsame := List.inj_on_of_nodup_map hnodup (mem_ownership hfirst) (mem_ownership hsecond) rfl
  exact congrArg Prod.fst hsame

end Arena

namespace Builder

variable {b : Builder} {record : Record}

theorem Links.acyclic {nodes : Arena} (h : Links nodes) : nodes.Acyclic := by
  have hdown : ∀ {top id : NodeId}, Relation.TransGen nodes.Owns top id → id.index < top.index := by
    intro top id hpath
    induction hpath with
    | single howns => exact h.earlier howns
    | tail _ howns ih => exact Nat.lt_trans (h.earlier howns) ih
  intro id hcycle
  exact Nat.lt_irrefl _ (hdown hcycle)

/-- Where no node is listed twice, the recorded owners are those that list a node. -/
theorem Links.linked {nodes : Arena} (h : Links nodes) (hsingle : nodes.SingleOwner) :
    nodes.Linked := by
  intro owner child
  constructor
  · exact h.adopted
  · intro howns
    obtain ⟨recorded, hrecorded⟩ := Option.isSome_iff_exists.1 (h.owned howns)
    rw [hrecorded, hsingle.eq_of_owns howns (h.adopted hrecorded)]

theorem Tracks.size_le (ht : Tracks record b) : b.nodes.size ≤ UInt32.size :=
  Nat.le_trans ht.spans (Nat.le_of_lt b.offset.toNat_lt)

/-- References stay inside exactly when the last bindings and semantic types do. -/
theorem Tracks.closed_iff (ht : Tracks record b) :
    b.nodes.Closed ↔ record.InRange b.nodes.size := by
  constructor
  · intro hclosed
    constructor
    · intro id definition hbound
      rw [← ht.bound] at hbound
      obtain ⟨node, hn, hkind⟩ := Option.bind_eq_some_iff.1 hbound
      obtain ⟨_, hvar, _⟩ := hclosed node (Array.mem_of_getElem? hn)
      cases hk : node.kind with
      | var name =>
        rw [hk] at hkind
        cases hkind
        exact hvar name definition hk
      | _ =>
        rw [hk] at hkind
        cases hkind
    · intro id type htype
      rw [← ht.types] at htype
      obtain ⟨node, hn, hresolved⟩ := Option.bind_eq_some_iff.1 htype
      exact (hclosed node (Array.mem_of_getElem? hn)).2.2 type hresolved
  · rintro ⟨hbound, htypes⟩ node hmem
    obtain ⟨id, hn⟩ := Arena.exists_node?_of_mem ht.size_le hmem
    refine ⟨fun child hc => ?_, fun name definition hk => ?_, fun type hr => ?_⟩
    · have hlt := ht.links.earlier (Arena.owns_iff.2 ⟨node, hn, hc⟩)
      exact Nat.lt_trans hlt (Arena.rootInside_of_node? hn)
    · apply hbound id
      rw [← ht.bound, hn]
      show node.kind.bound? = _
      rw [hk]
      rfl
    · apply htypes id
      rw [← ht.types, hn]
      exact hr

/-- Loading keeps the owners that were recorded while nodes were added. -/
theorem Tracks.nodes_of_ofParts {root : NodeId} {t : Tree} (ht : Tracks record b)
    (hsingle : b.nodes.SingleOwner) (h : Tree.ofParts b.nodes root = .ok t) :
    t.nodes = b.nodes := by
  obtain ⟨_, owners, hnodes⟩ := Tree.nodes_of_ofParts h
  have hsize : t.size ≤ UInt32.size := by
    rw [Tree.size, hnodes, Arena.size_relink]
    exact ht.size_le
  have hparents : ∀ id, t.nodes.parentOf id = b.nodes.parentOf id := by
    intro id
    apply Option.ext
    intro owner
    calc t.nodes.parentOf id = some owner
      _ ↔ id ∈ t.nodes.childrenOf owner := Tree.parent?_eq_some_iff hsize
      _ ↔ id ∈ b.nodes.childrenOf owner := by rw [hnodes, Arena.childrenOf_relink]
      _ ↔ b.nodes.parentOf id = some owner := (ht.links.linked hsingle owner id).symm
  have hnode : ∀ id, t.nodes.node? id = b.nodes.node? id := by
    intro id
    have hparent := hparents id
    rw [hnodes] at hparent ⊢
    unfold Arena.parentOf at hparent
    rw [Arena.node?_relink] at hparent ⊢
    cases hn : b.nodes.node? id with
    | none => rfl
    | some node =>
      rw [hn] at hparent
      have howner : Arena.ownerIn owners id = node.parent := hparent
      rw [howner]
      rfl
  apply Array.ext_getElem?
  intro i
  by_cases hi : i < b.nodes.size
  · have hindex := NodeId.index_ofIndex (Nat.lt_of_lt_of_le hi ht.size_le)
    have hat := hnode (.ofIndex i)
    unfold Arena.node? at hat
    rwa [hindex] at hat
  · have hout : t.nodes.size ≤ i := by
      rw [hnodes, Arena.size_relink]
      exact Nat.not_lt.1 hi
    rw [Array.getElem?_eq_none hout, Array.getElem?_eq_none (Nat.not_lt.1 hi)]

theorem Tracks.singleOwner_iff (ht : Tracks record b) : b.nodes.SingleOwner ↔ record.Single := by
  unfold Arena.SingleOwner
  rw [ht.children]
  rfl

/-- Of the outcomes of loading three are left: the root is one, and there is no cycle. -/
theorem Tracks.ofParts_cases {root : NodeId} (ht : Tracks record b)
    (hroot : b.nodes.RootKind root) :
    (record.Single ∧ record.InRange b.nodes.size ∧ ∃ t, Tree.ofParts b.nodes root = .ok t) ∨
    (¬ record.InRange b.nodes.size ∧ ∃ node reference,
      Tree.ofParts b.nodes root = .error (.danglingReference node reference b.nodes.size)) ∨
    (record.InRange b.nodes.size ∧ ¬ record.Single ∧ ∃ child first second,
      Tree.ofParts b.nodes root = .error (.sharedChild child first second)) := by
  rw [← ht.closed_iff, ← ht.singleOwner_iff]
  rcases Arena.ofParts_cases ht.size_le root with ⟨houtside, _⟩ | ⟨_, hother, _⟩ |
    ⟨_, _, hopen, he⟩ | ⟨_, _, hclosed, hshared, he⟩ | ⟨_, _, _, _, hcyclic, _⟩ |
    ⟨_, _, hclosed, hsingle, _, he⟩
  · exact absurd hroot.inside houtside
  · exact absurd hroot hother
  · exact .inr (.inl ⟨hopen, he⟩)
  · exact .inr (.inr ⟨hclosed, hshared, he⟩)
  · exact absurd ht.links.acyclic hcyclic
  · exact .inl ⟨hsingle, hclosed, he⟩

/-- Children come before their owner, so the last node has none. -/
theorem Tracks.parent?_eq_none {t : Tree} (ht : Tracks record b) (hnodes : t.nodes = b.nodes)
    {id : NodeId} (hlast : id.index + 1 = t.size) : t.parent? id = none := by
  cases hparent : t.parent? id with
  | none => rfl
  | some owner =>
    have hin := Tree.index_lt_of_parent? hparent
    unfold Tree.parent? at hparent
    rw [hnodes] at hparent
    have hafter := ht.links.earlier (ht.links.adopted hparent)
    omega

theorem finish_eq_some {definitions : List NodeId} {result : Except TreeError Tree}
    (h : b.finish definitions = some result) :
    ∃ root built, add (.root definitions) b = some (root, built) ∧
      result = Tree.ofParts built.nodes root := by
  obtain ⟨⟨root, built⟩, hadd, he⟩ := Option.map_eq_some_iff.1 h
  exact ⟨root, built, hadd, he.symm⟩

/-- What a builder hands out after any requests that it accepts.  A tree comes out exactly when
no number was passed as a child twice, by the requests and at the end, and the last binding of
every variable and the last semantic type of every node are numbers of nodes.  A number that is
not is reported first; nothing else can go wrong.  In a tree that comes out the root is the last
node and has no owner, children come before their owner, and the arena is that of the builder,
owners included. -/
theorem finish_exact (calls : List Call) (definitions : List NodeId) (replies : List Reply)
    (b : Builder) (result : Except TreeError Tree)
    (hrun : calls.mapM Call.run {} = some (replies, b))
    (hfinish : b.finish definitions = some result) :
    let said := recordOf (calls.zip replies) ++ { children := definitions }
    let count := b.nodes.size + 1
    ((∃ t, result = .ok t) ↔ said.Single ∧ said.InRange count) ∧
    (¬ said.InRange count →
      ∃ node reference, result = .error (.danglingReference node reference count)) ∧
    (said.InRange count → ¬ said.Single →
      ∃ child first second, result = .error (.sharedChild child first second)) ∧
    ∀ t, result = .ok t →
      t.size = count ∧ t.root.index + 1 = t.size ∧ t.parent? t.root = none ∧
      (∀ owner child, child ∈ t.children owner → child.index < owner.index) ∧
      ∃ root built, add (.root definitions) b = some (root, built) ∧ t.nodes = built.nodes := by
  intro said count
  obtain ⟨root, built, hadd, rfl⟩ := finish_eq_some hfinish
  have htracks : Tracks (recordOf (calls.zip replies)) b := (tracks_empty 0).run hrun
  have hadds := adds_of_add htracks.spans hadd
  have hbuilt : Tracks said built := htracks.add hadds
  have hsize : built.nodes.size = count := hadds.size
  have hroot : built.nodes.RootKind root := by
    obtain ⟨span, hnode⟩ := hadds.node
    exact ⟨_, definitions, by rw [hnode, if_pos rfl], rfl⟩
  have hcases := hbuilt.ofParts_cases hroot
  rw [hsize] at hcases
  have hok : (∃ t, Tree.ofParts built.nodes root = .ok t) ↔ said.Single ∧ said.InRange count := by
    grind
  refine ⟨hok, by grind, by grind, fun t ht => ?_⟩
  have hnodes : t.nodes = built.nodes :=
    hbuilt.nodes_of_ofParts (hbuilt.singleOwner_iff.2 (hok.1 ⟨t, ht⟩).1) ht
  have hcount : t.size = count := by rw [Tree.size, hnodes, hsize]
  have htop : t.root.index + 1 = t.size := by
    rw [(Tree.nodes_of_ofParts ht).1, hadds.index, hcount]
  refine ⟨hcount, htop, hbuilt.parent?_eq_none hnodes htop, fun owner child hc => ?_, root, built,
    hadd, hnodes⟩
  unfold Tree.children at hc
  rw [hnodes] at hc
  exact hbuilt.links.earlier hc

/-- A variable that is bound to nothing that exists, then to a function that is added later; a
class with a type parameter, which cannot be bound; and the body of the function around the
variable. -/
def forwardBinding : List Call :=
  [.var "x", .bind ⟨0⟩ ⟨99⟩, .typeDef .classType "Box" ["T"] [], .bind ⟨2⟩ ⟨99⟩, .exprStmt ⟨0⟩,
    .block [⟨3⟩], .callable .free "f" none [] (some ⟨4⟩), .bind ⟨0⟩ ⟨5⟩, .resolve ⟨0⟩ ⟨6⟩]

/-- What these requests and the end of them say. -/
def forwardBindingSays : Record where
  children := [⟨1⟩, ⟨0⟩, ⟨3⟩, ⟨4⟩, ⟨2⟩, ⟨5⟩]
  vars := [⟨0⟩]
  bindings := [(⟨0⟩, ⟨99⟩), (⟨2⟩, ⟨99⟩), (⟨0⟩, ⟨5⟩)]
  types := [(⟨0⟩, ⟨6⟩)]

theorem inRange_forwardBindingSays : forwardBindingSays.InRange 7 := by
  constructor
  · intro id definition hbound
    unfold Record.boundAt at hbound
    split at hbound
    · next hvar =>
      obtain rfl : id = ⟨0⟩ := List.mem_singleton.1 hvar
      cases hbound
      decide
    · cases hbound
  · intro id type htype
    by_cases hid : id = ⟨0⟩
    · subst hid
      cases htype
      decide
    · have hnone : lastOf forwardBindingSays.types id = none := by
        apply lastOf_eq_none
        intro pair hp
        rw [List.mem_singleton.1 hp]
        exact Ne.symm hid
      rw [hnone] at htype
      cases htype

/-- Only the last binding of the variable counts, and the one of the class does not. -/
theorem finish_exact_forwardBinding :
    ∃ replies b result, forwardBinding.mapM Call.run {} = some (replies, b) ∧
      b.finish [⟨2⟩, ⟨5⟩] = some result ∧
      ∃ t, result = .ok t ∧ t.size = 7 ∧ t.root.index + 1 = t.size ∧ t.parent? t.root = none := by
  have hanswered : (forwardBinding.mapM Call.run {}).map (fun done => (done.1, done.2.nodes.size)) =
      some ([.node ⟨0⟩, .done, .node ⟨2⟩, .done, .node ⟨3⟩, .node ⟨4⟩, .node ⟨5⟩, .done, .done],
        6) := by decide +kernel
  have hfinished : ((forwardBinding.mapM Call.run {}).bind
      fun done => done.2.finish [⟨2⟩, ⟨5⟩]).isSome = true := by decide +kernel
  obtain ⟨⟨replies, b⟩, hrun, he⟩ := Option.map_eq_some_iff.1 hanswered
  obtain ⟨hreplies, hsize⟩ := Prod.mk.inj he
  rw [hrun] at hfinished
  obtain ⟨result, hfinish⟩ := Option.isSome_iff_exists.1 hfinished
  have hsaid : recordOf (forwardBinding.zip replies) ++ { children := [⟨2⟩, ⟨5⟩] } =
      forwardBindingSays := by
    rw [show replies = _ from hreplies]
    decide
  have hexact := finish_exact forwardBinding [⟨2⟩, ⟨5⟩] replies b result hrun hfinish
  simp only [hsaid, show b.nodes.size = 6 from hsize] at hexact
  obtain ⟨hok, _, _, hloaded⟩ := hexact
  have hsingle : forwardBindingSays.Single := by
    unfold Record.Single
    decide
  obtain ⟨t, ht⟩ := hok.2 ⟨hsingle, inRange_forwardBindingSays⟩
  obtain ⟨hcount, htop, hparent, _⟩ := hloaded t ht
  exact ⟨replies, b, result, hrun, hfinish, t, ht, hcount, htop, hparent⟩

end Builder

end Emitter
