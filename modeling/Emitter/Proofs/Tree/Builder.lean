import Emitter.Proofs.Tree.Kind
import Emitter.Proofs.Tree.Loading
import Emitter.Tree.Builder

/-!
# Histories of a builder

What a builder holds after any number of requests, said in terms of the requests and their
replies alone.  A `Record` has what requests have passed on: the children, the nodes that are
variables, the bindings and the semantic types, each in order.  `Call.record` is the share of
one request.

`Tracks` is the invariant of a run.  It says that the arena of a builder is as recorded, and
that links between nodes go one way: children come before their owner, every owner that a node
records lists the node, and a listed node records some owner.

The lemmas fall into three groups.

* Arenas.  `node?_modify` and `node?_push` say what the two changes of an arena do to its nodes.
* Primitive steps.  `Adds` says what adding a node does, and `Tracks.add`, `Tracks.bindTo` and
  `Tracks.resolve` are the steps of the invariant.
* Runs.  `Tracks.call` is the step of one request, and `Tracks.run` that of a sequence.
-/

namespace Emitter

/-! ## Arenas -/

namespace Arena

variable {nodes : Arena}

theorem node?_modify (nodes : Arena) (target id : NodeId) (change : Node → Node) :
    Arena.node? (nodes.modify target.index change) id =
      (nodes.node? id).map fun node => if id = target then change node else node := by
  unfold node?
  rw [Array.getElem?_modify]
  by_cases h : target.index = id.index
  · have hid : id = target := NodeId.ext h.symm
    rw [if_pos h, hid]
    simp
  · have hid : id ≠ target := by
      rintro rfl
      exact h rfl
    rw [if_neg h]
    simp [hid]

theorem node?_push (nodes : Arena) (node : Node) (id : NodeId) :
    Arena.node? (nodes.push node) id =
      if id.index = nodes.size then some node else nodes.node? id :=
  Array.getElem?_push

/-- The child lists are the same when a change of one node leaves its list as it is. -/
theorem flatMap_children_modify {change : Node → Node} (i : Nat)
    (h : ∀ node, (change node).kind.children = node.kind.children) :
    (nodes.modify i change).toList.flatMap (fun node => node.kind.children) =
      nodes.toList.flatMap fun node => node.kind.children := by
  have hsame : (nodes.modify i change).toList.map (fun node => node.kind.children) =
      nodes.toList.map fun node => node.kind.children := by
    apply List.ext_getElem?
    intro j
    by_cases hij : i = j
    · simp [hij, Function.comp_def, h]
    · simp [hij]
  rw [List.flatMap_def, List.flatMap_def, hsame]

theorem exists_node? {id : NodeId} (h : id.index < nodes.size) :
    ∃ node, nodes.node? id = some node :=
  ⟨_, Array.getElem?_eq_getElem h⟩

theorem owns_iff {owner child : NodeId} :
    nodes.Owns owner child ↔
      ∃ node, nodes.node? owner = some node ∧ child ∈ node.kind.children := by
  constructor
  · exact node?_eq_some_of_mem_childrenOf
  · rintro ⟨node, hn, hc⟩
    simpa [Owns, childrenOf, hn] using hc

end Arena

namespace Builder

/-! ## What requests say -/

/-- The second half of the last pair that has a number as its first half. -/
def lastOf (pairs : List (NodeId × NodeId)) (id : NodeId) : Option NodeId :=
  (pairs.reverse.find? fun pair => pair.1 = id).map (·.2)

theorem lastOf_append_singleton (pairs : List (NodeId × NodeId)) (key value id : NodeId) :
    lastOf (pairs ++ [(key, value)]) id = if key = id then some value else lastOf pairs id := by
  unfold lastOf
  rw [List.reverse_append, List.reverse_singleton, List.singleton_append, List.find?_cons]
  by_cases h : key = id <;> simp [h]

/-- No pair has a number as its first half if there is a last one for none. -/
theorem lastOf_eq_none {pairs : List (NodeId × NodeId)} {id : NodeId}
    (h : ∀ pair ∈ pairs, pair.1 ≠ id) : lastOf pairs id = none := by
  unfold lastOf
  rw [Option.map_eq_none_iff, List.find?_eq_none]
  intro pair hp
  simpa using h pair (List.mem_reverse.1 hp)

/-- What requests have said about nodes, in order. -/
@[ext] structure Record where
  /-- Every number that was passed as that of a child. -/
  children : List NodeId := []
  /-- The nodes that are variables. -/
  vars : List NodeId := []
  /-- The nodes that were to be bound, each with the definition. -/
  bindings : List (NodeId × NodeId) := []
  /-- The nodes that were given a semantic type, each with the type. -/
  types : List (NodeId × NodeId) := []
deriving DecidableEq, Repr

namespace Record

instance : Append Record where
  append first second :=
    { children := first.children ++ second.children
      vars := first.vars ++ second.vars
      bindings := first.bindings ++ second.bindings
      types := first.types ++ second.types }

@[simp] theorem children_append (first second : Record) :
    (first ++ second).children = first.children ++ second.children := rfl

@[simp] theorem vars_append (first second : Record) :
    (first ++ second).vars = first.vars ++ second.vars := rfl

@[simp] theorem bindings_append (first second : Record) :
    (first ++ second).bindings = first.bindings ++ second.bindings := rfl

@[simp] theorem types_append (first second : Record) :
    (first ++ second).types = first.types ++ second.types := rfl

theorem append_empty (record : Record) : record ++ {} = record := by
  apply Record.ext <;> simp

theorem append_assoc (first second third : Record) :
    first ++ second ++ third = first ++ (second ++ third) := by
  apply Record.ext <;> simp

/-- What is said by adding a node. -/
def ofNode (id : NodeId) (kind : Kind) : Record where
  children := kind.children
  vars := if kind.bound?.isSome then [id] else []
  bindings := (kind.definition?.map fun definition => (id, definition)).toList

/-- For a variable, the definition it was last bound to, if there is one. -/
def boundAt (record : Record) (id : NodeId) : Option (Option NodeId) :=
  if id ∈ record.vars then some (lastOf record.bindings id) else none

theorem boundAt_bind (record : Record) (target definition id : NodeId) :
    (record ++ { bindings := [(target, definition)] }).boundAt id =
      if target = id then (record.boundAt id).map fun _ => some definition
      else record.boundAt id := by
  unfold boundAt
  rw [bindings_append, lastOf_append_singleton]
  by_cases hid : target = id <;> by_cases hvar : id ∈ record.vars <;> simp [hid, hvar]

theorem boundAt_ofNode {record : Record} {target : NodeId}
    (hnew : ∀ pair ∈ record.bindings, pair.1 ≠ target) (hother : record.boundAt target = none)
    (kind : Kind) (id : NodeId) :
    (record ++ .ofNode target kind).boundAt id =
      if id = target then kind.bound? else record.boundAt id := by
  have hlast := lastOf_eq_none hnew
  have hvars : target ∉ record.vars := by
    intro hmem
    rw [boundAt, if_pos hmem] at hother
    cases hother
  unfold boundAt
  by_cases hid : id = target
  · subst hid
    cases kind with
    | var name definition =>
      cases definition with
      | none => simp [ofNode, Kind.bound?, Kind.definition?, hlast]
      | some definition =>
        simp [ofNode, Kind.bound?, Kind.definition?, lastOf_append_singleton]
    | _ => simp [ofNode, Kind.bound?, hvars]
  · have hne : target ≠ id := Ne.symm hid
    cases kind with
    | var name definition =>
      cases definition with
      | none => simp [ofNode, Kind.bound?, Kind.definition?, hid]
      | some definition =>
        simp [ofNode, Kind.bound?, Kind.definition?, hid, hne, lastOf_append_singleton]
    | _ => simp [ofNode, Kind.bound?, Kind.definition?, hid]

/-- No number was passed twice. -/
def Single (record : Record) : Prop := record.children.Nodup

/-- The last binding of every variable and the last semantic type of every node are numbers of
nodes. -/
def InRange (record : Record) (count : Nat) : Prop :=
  (∀ id definition, record.boundAt id = some (some definition) → definition.index < count) ∧
  ∀ id type, lastOf record.types id = some type → type.index < count

end Record

/-- What a request says, given the reply.  The type parameters of a type definition are the
nodes right before it. -/
def Call.record : Call → Reply → Record
  | .add kind, .node id => .ofNode id kind
  | .package _ definitions, _ => { children := definitions }
  | .typeDef _ _ parameters definitions, .node id =>
    { children := (List.range' (id.index - parameters.length) parameters.length).map .ofIndex ++
        definitions }
  | .callable _ _ returnType params body, _ =>
    { children := returnType.toList ++ params ++ body.toList }
  | .macroDef _ _ params body, _ => { children := params ++ [body] }
  | .binding _ type _ value, _ => { children := type :: value.toList }
  | .typeRef _ parameters, _ => { children := parameters }
  | .block statements, _ => { children := statements }
  | .localBinding declaration, _ => { children := [declaration] }
  | .ret expr, _ => { children := expr.toList }
  | .exprStmt expr, _ => { children := [expr] }
  | .assign target value, _ => { children := [target, value] }
  | .cond predicate consequence alternative, _ =>
    { children := predicate :: consequence :: alternative.toList }
  | .var _, .node id => { vars := [id] }
  | .varTo _ definition, .node id => { vars := [id], bindings := [(id, definition)] }
  | .call callee args, _ => { children := callee :: args }
  | .attr receiver _, _ => { children := [receiver] }
  | .list elements, _ => { children := elements }
  | .native parts, _ => { children := parts }
  | .bind id definition, _ => { bindings := [(id, definition)] }
  | .resolve expr type, _ => { types := [(expr, type)] }
  | _, _ => {}

/-- What a sequence of requests says, given the replies. -/
def recordOf (history : List (Call × Reply)) : Record :=
  history.foldr (fun (call, reply) rest => call.record reply ++ rest) {}

/-! ## The invariant -/

/-- Children come before their owner; every owner that a node records lists the node, and a
listed node records some owner. -/
structure Links (nodes : Arena) : Prop where
  earlier : ∀ {owner child}, nodes.Owns owner child → child.index < owner.index
  adopted : ∀ {owner child}, nodes.parentOf child = some owner → nodes.Owns owner child
  owned : ∀ {owner child}, nodes.Owns owner child → (nodes.parentOf child).isSome = true

/-- The builder holds what was recorded. -/
structure Tracks (record : Record) (b : Builder) : Prop where
  /-- Every node has a span of its own, so there are fewer nodes than words. -/
  spans : b.nodes.size ≤ b.offset.toNat
  links : Links b.nodes
  children : b.nodes.toList.flatMap (fun node => node.kind.children) = record.children
  known : ∀ pair ∈ record.bindings, pair.1.index < b.nodes.size
  bound : ∀ id, (b.nodes.node? id).bind (fun node => node.kind.bound?) = record.boundAt id
  types : ∀ id, (b.nodes.node? id).bind (fun node => node.resolved) = lastOf record.types id

theorem tracks_empty (file : UInt32) : Tracks {} { file } where
  spans := Nat.zero_le _
  links :=
    { earlier := by simp [Arena.Owns, Arena.childrenOf, Arena.node?]
      adopted := by simp [Arena.parentOf, Arena.node?]
      owned := by simp [Arena.Owns, Arena.childrenOf, Arena.node?] }
  children := rfl
  known pair h := by cases h
  bound id := by simp [Arena.node?, Record.boundAt]
  types id := by simp [Arena.node?, lastOf]

/-! ## Primitive steps -/

variable {α β : Type} {b b' : Builder} {record : Record}

/-- A sequence gives a result when both halves do. -/
theorem bind_eq_some {x : Build α} {f : α → Build β} {result : β}
    (h : (x >>= f) b = some (result, b')) :
    ∃ a mid, x b = some (a, mid) ∧ f a mid = some (result, b') := by
  obtain ⟨⟨a, mid⟩, hx, hf⟩ := Option.bind_eq_some_iff.1 h
  exact ⟨a, mid, hx, hf⟩

theorem takeSpan_eq_some {span : Span} (h : takeSpan b = some (span, b')) :
    b'.nodes = b.nodes ∧ b'.offset.toNat = b.offset.toNat + 1 := by
  obtain ⟨next, hnext, he⟩ := Option.map_eq_some_iff.1 h
  cases he
  unfold Span.advance at hnext
  split at hnext
  · next hfits =>
    cases hnext
    refine ⟨rfl, ?_⟩
    show (b.offset + 1).toNat = _
    rw [UInt32.toNat_add]
    exact Nat.mod_eq_of_lt hfits
  · cases hnext

/-- Children have been added before; nothing changes but that they record their owner. -/
theorem adopt_eq_some {owner : NodeId} {children : List NodeId} {nodes result : Arena}
    (h : adopt owner children nodes = some result) :
    (∀ child ∈ children, child.index < nodes.size) ∧ result.size = nodes.size ∧
    result.toList.flatMap (fun node => node.kind.children) =
      nodes.toList.flatMap (fun node => node.kind.children) ∧
    ∀ id, result.node? id = (nodes.node? id).map fun node =>
      if id ∈ children then { node with parent := some owner } else node := by
  induction children generalizing nodes with
  | nil =>
    cases h
    exact ⟨by simp, rfl, rfl, by simp⟩
  | cons child rest ih =>
    unfold adopt at h
    split at h
    · next hin =>
      obtain ⟨hinside, hsize, hlists, hnode⟩ := ih h
      rw [Array.size_modify] at hinside hsize
      refine ⟨List.forall_mem_cons.2 ⟨hin, hinside⟩, hsize, ?_, fun id => ?_⟩
      · rw [hlists]
        exact Arena.flatMap_children_modify _ fun _ => rfl
      · rw [hnode, Arena.node?_modify, Option.map_map]
        congr 1
        funext node
        by_cases hid : id = child <;> by_cases hrest : id ∈ rest <;> simp [hid, hrest]
    · cases h

/-- What adding a node does. -/
structure Adds (b : Builder) (kind : Kind) (id : NodeId) (b' : Builder) : Prop where
  index : id.index = b.nodes.size
  size : b'.nodes.size = b.nodes.size + 1
  offset : b'.offset.toNat = b.offset.toNat + 1
  inside : ∀ child ∈ kind.children, child.index < b.nodes.size
  children : b'.nodes.toList.flatMap (fun node => node.kind.children) =
    b.nodes.toList.flatMap (fun node => node.kind.children) ++ kind.children
  node : ∃ span, ∀ other, b'.nodes.node? other =
    if other = id then some { kind, span }
    else (b.nodes.node? other).map fun node =>
      if other ∈ kind.children then { node with parent := some id } else node

theorem adds_of_add {kind : Kind} {id : NodeId} (hspans : b.nodes.size ≤ b.offset.toNat)
    (h : add kind b = some (id, b')) : Adds b kind id b' := by
  have hindex : (NodeId.ofIndex b.nodes.size).index = b.nodes.size :=
    NodeId.index_ofIndex (Nat.lt_of_le_of_lt hspans b.offset.toNat_lt)
  obtain ⟨_, _, hget, h⟩ := bind_eq_some h
  cases hget
  obtain ⟨_, _, hget, h⟩ := bind_eq_some h
  cases hget
  obtain ⟨nodes, _, hlift, h⟩ := bind_eq_some h
  obtain ⟨_, hadopt, he⟩ := Option.bind_eq_some_iff.1 hlift
  cases he
  obtain ⟨span, mid, hspan, h⟩ := bind_eq_some h
  obtain ⟨_, _, hpush, h⟩ := bind_eq_some h
  cases hpush
  cases h
  obtain ⟨hinside, hsize, hlists, hnode⟩ := adopt_eq_some hadopt
  refine ⟨hindex, ?_, (takeSpan_eq_some hspan).2, hinside, ?_, span, fun other => ?_⟩
  · show (nodes.push _).size = _
    rw [Array.size_push, hsize]
  · show (nodes.push _).toList.flatMap _ = _
    rw [Array.toList_push, List.flatMap_append, hlists]
    simp
  · show Arena.node? (nodes.push _) other = _
    rw [Arena.node?_push, hnode, hsize]
    by_cases hother : other.index = b.nodes.size
    · have hid : other = NodeId.ofIndex b.nodes.size := NodeId.ext (hother.trans hindex.symm)
      rw [if_pos hother, if_pos hid]
    · have hid : other ≠ NodeId.ofIndex b.nodes.size := by
        rintro rfl
        exact hother hindex
      rw [if_neg hother, if_neg hid]

namespace Adds

variable {kind : Kind} {id : NodeId} (h : Adds b kind id b')

include h

theorem owns_iff {owner child : NodeId} :
    b'.nodes.Owns owner child ↔
      b.nodes.Owns owner child ∨ owner = id ∧ child ∈ kind.children := by
  obtain ⟨span, hnode⟩ := h.node
  have hout : b.nodes.node? id = none := Array.getElem?_eq_none (Nat.le_of_eq h.index.symm)
  rw [Arena.owns_iff, Arena.owns_iff, hnode]
  by_cases ho : owner = id
  · subst ho
    simp [hout]
  · rw [if_neg ho]
    cases b.nodes.node? owner with
    | none => simp [ho]
    | some node =>
      by_cases hlisted : owner ∈ kind.children <;> simp [ho, hlisted]

theorem parentOf (child : NodeId) :
    b'.nodes.parentOf child =
      if child ∈ kind.children then some id else b.nodes.parentOf child := by
  obtain ⟨span, hnode⟩ := h.node
  unfold Arena.parentOf
  rw [hnode]
  by_cases hid : child = id
  · have hout : b.nodes.node? child = none := by
      rw [hid]
      exact Array.getElem?_eq_none (Nat.le_of_eq h.index.symm)
    have hfresh : child ∉ kind.children := by
      intro hc
      have hlt := h.inside child hc
      rw [hid, h.index] at hlt
      exact Nat.lt_irrefl _ hlt
    rw [if_pos hid, if_neg hfresh, hout]
    rfl
  · rw [if_neg hid]
    by_cases hc : child ∈ kind.children
    · obtain ⟨node, hn⟩ := Arena.exists_node? (h.inside child hc)
      simp [hc, hn]
    · simp [hc]

theorem links (hold : Links b.nodes) : Links b'.nodes where
  earlier {owner child} howns := by
    rcases h.owns_iff.1 howns with hbefore | ⟨rfl, hc⟩
    · exact hold.earlier hbefore
    · rw [h.index]
      exact h.inside child hc
  adopted {owner child} hparent := by
    rw [h.parentOf] at hparent
    by_cases hc : child ∈ kind.children
    · rw [if_pos hc] at hparent
      cases hparent
      exact h.owns_iff.2 (.inr ⟨rfl, hc⟩)
    · rw [if_neg hc] at hparent
      exact h.owns_iff.2 (.inl (hold.adopted hparent))
  owned {owner child} howns := by
    rw [h.parentOf]
    by_cases hc : child ∈ kind.children
    · rw [if_pos hc]
      rfl
    · rw [if_neg hc]
      rcases h.owns_iff.1 howns with hbefore | ⟨_, hlisted⟩
      · exact hold.owned hbefore
      · exact (hc hlisted).elim

end Adds

/-- Adding a node keeps the invariant, with what is said by adding it. -/
theorem Tracks.add {kind : Kind} {id : NodeId} (ht : Tracks record b) (h : Adds b kind id b') :
    Tracks (record ++ .ofNode id kind) b' := by
  obtain ⟨span, hnode⟩ := h.node
  have hout : b.nodes.node? id = none := Array.getElem?_eq_none (Nat.le_of_eq h.index.symm)
  have hnew : ∀ pair ∈ record.bindings, pair.1 ≠ id := by
    rintro pair hp rfl
    have hlt := ht.known pair hp
    rw [h.index] at hlt
    exact Nat.lt_irrefl _ hlt
  have hunknown : record.boundAt id = none := by
    rw [← ht.bound, hout]
    rfl
  -- The nodes that were there differ in the owner they record, and in nothing that is said here.
  have hsame : ∀ {β : Type} (f : Node → Option β), (∀ node owner,
      f { node with parent := owner } = f node) → ∀ other, other ≠ id →
      (b'.nodes.node? other).bind f = (b.nodes.node? other).bind f := by
    intro β f hf other hother
    rw [hnode, if_neg hother]
    cases b.nodes.node? other with
    | none => rfl
    | some node => by_cases hc : other ∈ kind.children <;> simp [hc, hf]
  refine ⟨?_, h.links ht.links, ?_, ?_, ?_, ?_⟩
  · rw [h.size, h.offset]
    exact Nat.succ_le_succ ht.spans
  · rw [h.children, ht.children]
    rfl
  · intro pair hp
    rw [h.size]
    rcases List.mem_append.1 hp with hold | hnew
    · exact Nat.lt_succ_of_lt (ht.known pair hold)
    · obtain ⟨definition, _, rfl⟩ := Option.map_eq_some_iff.1 (Option.mem_toList.1 hnew)
      rw [h.index]
      exact Nat.lt_succ_self _
  · intro other
    rw [Record.boundAt_ofNode hnew hunknown]
    by_cases hother : other = id
    · rw [if_pos hother, hnode, if_pos hother]
      rfl
    · rw [if_neg hother, ← ht.bound]
      exact hsame _ (fun _ _ => rfl) other hother
  · intro other
    have htypes : (record ++ .ofNode id kind).types = record.types := List.append_nil _
    rw [htypes, ← ht.types]
    by_cases hother : other = id
    · rw [hnode, if_pos hother, hother, hout]
      rfl
    · exact hsame _ (fun _ _ => rfl) other hother

theorem update_eq_some {id : NodeId} {change : Node → Node} {done : Unit}
    (h : update id change b = some (done, b')) :
    id.index < b.nodes.size ∧ b'.nodes = b.nodes.modify id.index change ∧
      b'.offset = b.offset := by
  unfold update at h
  split at h
  · next hin =>
    cases h
    exact ⟨hin, rfl, rfl⟩
  · cases h

/-- A change of one node that leaves its children and its owner as they are keeps the links. -/
theorem Links.modify {nodes : Arena} (h : Links nodes) (id : NodeId) {change : Node → Node}
    (hchildren : ∀ node, (change node).kind.children = node.kind.children)
    (hparent : ∀ node, (change node).parent = node.parent) :
    Links (nodes.modify id.index change) := by
  have howns : ∀ owner child,
      Arena.Owns (nodes.modify id.index change) owner child ↔ nodes.Owns owner child := by
    intro owner child
    rw [Arena.owns_iff, Arena.owns_iff, Arena.node?_modify]
    cases nodes.node? owner with
    | none => simp
    | some node => by_cases hid : owner = id <;> simp [hid, hchildren]
  have hparents : ∀ child,
      Arena.parentOf (nodes.modify id.index change) child = nodes.parentOf child := by
    intro child
    unfold Arena.parentOf
    rw [Arena.node?_modify]
    cases nodes.node? child with
    | none => rfl
    | some node => by_cases hid : child = id <;> simp [hid, hparent]
  refine ⟨fun h' => h.earlier ((howns _ _).1 h'), fun h' => ?_, fun h' => ?_⟩
  · rw [hparents] at h'
    exact (howns _ _).2 (h.adopted h')
  · rw [hparents]
    exact h.owned ((howns _ _).1 h')

theorem children_rebind (definition : NodeId) (kind : Kind) :
    (rebind definition kind).children = kind.children := by
  cases kind <;> rfl

theorem bound?_rebind (definition : NodeId) (kind : Kind) :
    (rebind definition kind).bound? = kind.bound?.map fun _ => some definition := by
  cases kind <;> rfl

/-- Binding is said of any node and changes variables only. -/
theorem Tracks.bindTo {id definition : NodeId} {done : Unit} (ht : Tracks record b)
    (h : bindTo id definition b = some (done, b')) :
    Tracks (record ++ { bindings := [(id, definition)] }) b' := by
  obtain ⟨hin, hnodes, hoffset⟩ := update_eq_some h
  refine ⟨?_, ?_, ?_, ?_, fun other => ?_, fun other => ?_⟩ <;> rw [hnodes]
  · rw [Array.size_modify, hoffset]
    exact ht.spans
  · apply Links.modify ht.links
    · exact fun node => children_rebind definition node.kind
    · exact fun _ => rfl
  · rw [Record.children_append, List.append_nil, ← ht.children]
    exact Arena.flatMap_children_modify _ fun node => children_rebind definition node.kind
  · intro pair hp
    rw [Array.size_modify]
    rcases List.mem_append.1 hp with hold | hnew
    · exact ht.known pair hold
    · rw [List.mem_singleton.1 hnew]
      exact hin
  · rw [Arena.node?_modify, Record.boundAt_bind, ← ht.bound]
    cases b.nodes.node? other with
    | none => simp
    | some node =>
      by_cases hother : other = id
      · simp [hother, bound?_rebind]
      · simp [hother, Ne.symm hother]
  · rw [Arena.node?_modify, Record.types_append, List.append_nil, ← ht.types]
    cases b.nodes.node? other with
    | none => rfl
    | some node => by_cases hother : other = id <;> simp [hother]

theorem Tracks.resolve {id type : NodeId} {done : Unit} (ht : Tracks record b)
    (h : resolve id type b = some (done, b')) :
    Tracks (record ++ { types := [(id, type)] }) b' := by
  obtain ⟨hin, hnodes, hoffset⟩ := update_eq_some h
  refine ⟨?_, ?_, ?_, ?_, fun other => ?_, fun other => ?_⟩ <;> rw [hnodes]
  · rw [Array.size_modify, hoffset]
    exact ht.spans
  · apply Links.modify ht.links <;> exact fun _ => rfl
  · rw [Record.children_append, List.append_nil, ← ht.children]
    exact Arena.flatMap_children_modify _ fun _ => rfl
  · intro pair hp
    rw [Record.bindings_append, List.append_nil] at hp
    rw [Array.size_modify]
    exact ht.known pair hp
  · have hbound : (record ++ { types := [(id, type)] }).boundAt other = record.boundAt other := by
      simp [Record.boundAt]
    rw [Arena.node?_modify, hbound, ← ht.bound]
    cases b.nodes.node? other with
    | none => rfl
    | some node => by_cases hother : other = id <;> simp [hother]
  · rw [Arena.node?_modify, Record.types_append, lastOf_append_singleton, ← ht.types]
    by_cases hother : id = other
    · subst hother
      obtain ⟨node, hn⟩ := Arena.exists_node? hin
      simp [hn]
    · cases b.nodes.node? other with
      | none => simp [hother]
      | some node => simp [hother, Ne.symm hother]

/-- Taking spans says nothing. -/
theorem Tracks.takeSpan {span : Span} (ht : Tracks record b) (h : takeSpan b = some (span, b')) :
    Tracks record b' := by
  obtain ⟨hnodes, hoffset⟩ := takeSpan_eq_some h
  refine ⟨?_, ?_, ?_, ?_, ?_, ?_⟩ <;> rw [hnodes]
  · rw [hoffset]
    exact Nat.le_succ_of_le ht.spans
  · exact ht.links
  · exact ht.children
  · exact ht.known
  · exact ht.bound
  · exact ht.types

theorem takeName_eq_some {text : String} {name : Name} (h : takeName text b = some (name, b')) :
    ∃ span, takeSpan b = some (span, b') := by
  obtain ⟨span, _, hspan, h⟩ := bind_eq_some h
  cases h
  exact ⟨span, hspan⟩

/-! ## Requests -/

theorem Tracks.addPlain {kind : Kind} {reply : Reply} (ht : Tracks record b)
    (h : addPlain kind b = some (reply, b')) :
    ∃ id, reply = .node id ∧ Adds b kind id b' ∧ Tracks (record ++ .ofNode id kind) b' := by
  obtain ⟨id, _, hadd, h⟩ := bind_eq_some h
  cases h
  have hadds := adds_of_add ht.spans hadd
  exact ⟨id, rfl, hadds, ht.add hadds⟩

theorem Tracks.addNamed {text : String} {kind : Name → Kind} {reply : Reply}
    (ht : Tracks record b) (h : addNamed text kind b = some (reply, b')) :
    ∃ id name, reply = .node id ∧ id.index = b.nodes.size ∧
      Tracks (record ++ .ofNode id (kind name)) b' := by
  obtain ⟨name, mid, hname, h⟩ := bind_eq_some h
  obtain ⟨span, hspan⟩ := takeName_eq_some hname
  obtain ⟨id, hreply, hadds, ht'⟩ := (ht.takeSpan hspan).addPlain h
  refine ⟨id, name, hreply, ?_, ht'⟩
  rw [hadds.index, (takeSpan_eq_some hspan).1]

/-- Type parameters take the next numbers and say nothing. -/
theorem Tracks.typeParams {texts : List String} {ids : List NodeId} (ht : Tracks record b)
    (h : texts.mapM typeParam b = some (ids, b')) :
    Tracks record b' ∧ b'.nodes.size = b.nodes.size + texts.length ∧
      ids = (List.range' b.nodes.size texts.length).map .ofIndex := by
  induction texts generalizing b ids with
  | nil =>
    cases h
    exact ⟨ht, rfl, rfl⟩
  | cons text rest ih =>
    rw [List.mapM_cons] at h
    obtain ⟨id, mid, hparam, h⟩ := bind_eq_some h
    obtain ⟨others, _, hrest, h⟩ := bind_eq_some h
    cases h
    obtain ⟨name, named, hname, hadd⟩ := bind_eq_some hparam
    obtain ⟨span, hspan⟩ := takeName_eq_some hname
    have hsame := (takeSpan_eq_some hspan).1
    have hadds := adds_of_add (ht.takeSpan hspan).spans hadd
    have hmid : Tracks record mid := by
      have hall := (ht.takeSpan hspan).add hadds
      rwa [show Record.ofNode id (.typeParam name) = {} from rfl, Record.append_empty] at hall
    obtain ⟨hb', hsize, hids⟩ := ih hmid hrest
    have hnext : mid.nodes.size = b.nodes.size + 1 := by rw [hadds.size, hsame]
    have hid : id = .ofIndex b.nodes.size := by
      rw [← hsame, ← hadds.index, NodeId.ofIndex_index]
    refine ⟨hb', ?_, ?_⟩
    · rw [hsize, hnext, List.length_cons]
      omega
    · rw [hids, hnext, hid, List.length_cons, List.range'_succ, List.map_cons]

theorem Tracks.names {texts : List String} {names : List Name} (ht : Tracks record b)
    (h : texts.mapM takeName b = some (names, b')) : Tracks record b' := by
  induction texts generalizing b names with
  | nil =>
    cases h
    exact ht
  | cons text rest ih =>
    rw [List.mapM_cons] at h
    obtain ⟨name, mid, hname, h⟩ := bind_eq_some h
    obtain ⟨others, _, hrest, h⟩ := bind_eq_some h
    cases h
    obtain ⟨span, hspan⟩ := takeName_eq_some hname
    exact ih (ht.takeSpan hspan) hrest

/-- A request keeps the invariant, with what it says. -/
theorem Tracks.call {call : Call} {reply : Reply} (ht : Tracks record b)
    (h : call.run b = some (reply, b')) : Tracks (record ++ call.record reply) b' := by
  cases call with
  | inFile number =>
    cases h
    rw [show Call.record (.inFile number) .done = {} from rfl, Record.append_empty]
    exact ⟨ht.spans, ht.links, ht.children, ht.known, ht.bound, ht.types⟩
  | span =>
    obtain ⟨span, _, hspan, h⟩ := bind_eq_some h
    cases h
    rw [show Call.record .span (.span span) = {} from rfl, Record.append_empty]
    exact ht.takeSpan hspan
  | name text =>
    obtain ⟨name, _, hname, h⟩ := bind_eq_some h
    cases h
    obtain ⟨span, hspan⟩ := takeName_eq_some hname
    rw [show Call.record (.name text) (.name name) = {} from rfl, Record.append_empty]
    exact ht.takeSpan hspan
  | typeDef form text parameters definitions =>
    obtain ⟨params, mid, hparams, h⟩ := bind_eq_some h
    obtain ⟨hmid, hsize, hids⟩ := ht.typeParams hparams
    obtain ⟨id, name, rfl, hid, ht'⟩ := hmid.addNamed h
    have hnumbers : (List.range' (id.index - parameters.length) parameters.length).map .ofIndex =
        params := by rw [hids, hid, hsize, Nat.add_sub_cancel]
    subst hnumbers
    exact ht'
  | typeRef path parameters =>
    obtain ⟨names, mid, hnames, h⟩ := bind_eq_some h
    obtain ⟨id, rfl, _, ht'⟩ := (ht.names hnames).addPlain h
    exact ht'
  | varTo text definition =>
    obtain ⟨name, mid, hname, h⟩ := bind_eq_some h
    obtain ⟨id, added, hadd, h⟩ := bind_eq_some h
    obtain ⟨_, _, hbind, h⟩ := bind_eq_some h
    cases h
    obtain ⟨span, hspan⟩ := takeName_eq_some hname
    have hmid := ht.takeSpan hspan
    have hbound := (hmid.add (adds_of_add hmid.spans hadd)).bindTo hbind
    rwa [Record.append_assoc] at hbound
  | bind id definition =>
    obtain ⟨_, _, hbind, h⟩ := bind_eq_some h
    cases h
    exact ht.bindTo hbind
  | resolve expr type =>
    obtain ⟨_, _, hresolve, h⟩ := bind_eq_some h
    cases h
    exact ht.resolve hresolve
  | package | primitive | callable | macroDef | binding | var | attr =>
    obtain ⟨id, name, rfl, _, ht'⟩ := ht.addNamed h
    exact ht'
  | add | block | localBinding | ret | exprStmt | assign | cond | call | literal | list | native =>
    obtain ⟨id, rfl, _, ht'⟩ := ht.addPlain h
    exact ht'

/-- A sequence of requests keeps the invariant, with what they say together. -/
theorem Tracks.run {calls : List Call} {replies : List Reply} (ht : Tracks record b)
    (h : calls.mapM Call.run b = some (replies, b')) :
    Tracks (record ++ recordOf (calls.zip replies)) b' := by
  induction calls generalizing b replies record with
  | nil =>
    rw [List.mapM_nil] at h
    cases h
    rw [show recordOf (List.zip [] []) = {} from rfl, Record.append_empty]
    exact ht
  | cons call rest ih =>
    rw [List.mapM_cons] at h
    obtain ⟨reply, mid, hcall, h⟩ := bind_eq_some h
    obtain ⟨others, _, hrest, h⟩ := bind_eq_some h
    cases h
    have hall := ih (ht.call hcall) hrest
    rwa [Record.append_assoc] at hall

end Builder

end Emitter
