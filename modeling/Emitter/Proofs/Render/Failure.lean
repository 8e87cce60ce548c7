import Emitter.Proofs.Project.Walk
import Emitter.Proofs.Render.Fault

/-!
# Failures of statements and files

Types, statements and files have no scope and no expansions.  Their failures are
those of the expressions in them, nodes that have no rendering where they stand,
and text that would be set too deep.  So a property that holds of these three
holds of every failure of `Tree.stmtText` and of `Tree.project`.
-/

namespace Emitter

namespace Tree

variable {t : Tree} {o : Options}

section

/-! ## Renderers -/

variable {P : Halt → Prop}
  (hnode : ∀ id kind position, t.kind? id = some kind → Position.accepts position kind = false →
    P (t.unhandled id kind position))
  (hexpr : ∀ id : NodeId, id.index < t.size → FailsOnly P (t.expr o id))
  (hwide : widthLimit ≤ o.indentWidth → P .tooWide)

include hnode in
theorem failsOnly_typeText (namer : Namer) (id : NodeId) (hin : id.index < t.size) :
    FailsOnly P (t.typeText namer id) := by
  induction id using induction_below (t := t) with
  | step id ih =>
    rw [typeText]
    split
    · next hk => exact absurd hk (kind?_ne_none hin)
    · next path parameters hk =>
      refine .bind (.collect fun parameter hp => ?_) fun _ _ => .ok P _
      exact ih _ parameter hk hp (index_lt_of_child hk hp)
    · next kind hother hk =>
      refine .error (hnode id kind .type hk ?_)
      cases kind with
      | typeRef => exact (hother _ _ rfl).elim
      | _ => rfl

include hnode hexpr in
theorem failsOnly_bindingText {type : NodeId} (name : Name) {value : Option NodeId}
    (htype : type.index < t.size) (hvalue : ∀ id, value = some id → id.index < t.size) :
    FailsOnly P (t.bindingText o type name value) := by
  refine .bind (failsOnly_typeText hnode _ _ htype) fun _ _ => ?_
  cases value with
  | none => exact .ok P _
  | some id => exact .bind (hexpr id (hvalue id rfl)) fun _ _ => .ok P _

include hnode hexpr in
theorem failsOnly_targetText {id : NodeId} (hin : id.index < t.size) :
    FailsOnly P (t.targetText o id) := by
  unfold targetText
  split
  · next hk => exact absurd hk (kind?_ne_none hin)
  · exact .ok P _
  · next receiver member hk =>
    exact .bind (hexpr receiver (index_lt_of_child hk List.mem_cons_self)) fun _ _ => .ok P _
  · next kind hvar hattr hk =>
    refine .error (hnode id kind .assignmentTarget hk ?_)
    cases kind with
    | var => exact (hvar _ _ rfl).elim
    | attr => exact (hattr _ _ rfl).elim
    | _ => rfl

include hnode in
theorem failsOnly_returnText {returnType : Option NodeId}
    (hin : ∀ id, returnType = some id → id.index < t.size) :
    FailsOnly P (t.returnText o returnType) := by
  cases returnType with
  | none => exact .ok P _
  | some id => exact .bind (failsOnly_typeText hnode _ _ (hin id rfl)) fun _ _ => .ok P _

include hwide in
theorem failsOnly_braced (text : String) : FailsOnly P (o.braced text) := by
  by_cases hwidth : o.indentWidth < widthLimit
  · rw [Options.braced_of_lt text hwidth]
    exact .ok P _
  · unfold Options.braced
    split
    · exact .ok P _
    · exact .error (hwide (by omega))

include hnode hexpr hwide in
/-- A statement fails as its expressions do, at a node that is no statement or
where its body cannot be set deeper. -/
theorem failsOnly_stmtText (id : NodeId) (hin : id.index < t.size) :
    FailsOnly P (t.stmtText o id) := by
  induction id using induction_below (t := t) with
  | step id ih =>
    have hbraced := failsOnly_braced hwide
    rw [stmtText]
    split
    · next hk => exact absurd hk (kind?_ne_none hin)
    · next form name parameters definitions hk =>
      have hchild : ∀ child ∈ parameters ++ definitions, FailsOnly P (t.stmtText o child) :=
        fun child hc => ih _ child hk hc (index_lt_of_child hk hc)
      refine .bind (.collect fun p hp => hchild p (List.mem_append_left _ hp)) fun _ _ => ?_
      refine .bind (.collect fun d hd => hchild d (List.mem_append_right _ hd)) fun _ _ => ?_
      exact .bind (hbraced _) fun _ _ => .ok P _
    · exact .ok P _
    · next form name returnType params body hk =>
      have hinside : ∀ child ∈ returnType.toList ++ params ++ body.toList, child.index < t.size :=
        fun child hc => index_lt_of_child hk hc
      refine .bind (failsOnly_returnText hnode fun id he => hinside id (by simp [he])) fun _ _ => ?_
      refine .bind (.collect fun p hp => ?_) fun _ _ => ?_
      · exact ih _ p hk (by simp [Kind.children, hp]) (hinside p (by simp [hp]))
      · refine .bind ?_ fun _ _ => .ok P _
        cases body with
        | none => exact .ok P _
        | some block =>
          have hblock : FailsOnly P (t.stmtText o block) :=
            ih _ block hk (by simp [Kind.children]) (hinside block (by simp))
          refine .bind hblock fun _ _ => ?_
          exact .bind (hbraced _) fun _ _ => .ok P _
    · exact .ok P _
    · next type name value hk =>
      exact failsOnly_bindingText hnode hexpr name (index_lt_of_child hk List.mem_cons_self)
        fun id he => index_lt_of_child hk (by simp [Kind.children, he])
    · next type name value hk =>
      refine .bind (failsOnly_bindingText hnode hexpr name (index_lt_of_child hk List.mem_cons_self)
        fun id he => index_lt_of_child hk (by simp [Kind.children, he])) fun _ _ => .ok P _
    · next statements hk =>
      refine .bind (.collect fun s hs => ?_) fun _ _ => .ok P _
      exact ih _ s hk hs (index_lt_of_child hk hs)
    · next declaration hk =>
      refine .bind (ih _ declaration hk List.mem_cons_self ?_) fun _ _ => .ok P _
      exact index_lt_of_child hk List.mem_cons_self
    · exact .ok P _
    · next value hk =>
      exact .bind (hexpr value (index_lt_of_child hk List.mem_cons_self)) fun _ _ => .ok P _
    · next value hk =>
      exact .bind (hexpr value (index_lt_of_child hk List.mem_cons_self)) fun _ _ => .ok P _
    · next target value hk =>
      have htarget : target.index < t.size := index_lt_of_child hk List.mem_cons_self
      have hvalue : value.index < t.size := index_lt_of_child hk (by simp [Kind.children])
      refine .bind (failsOnly_targetText hnode hexpr htarget) fun _ _ => ?_
      exact .bind (hexpr value hvalue) fun _ _ => .ok P _
    · next predicate consequence alternative hk =>
      have hinside : ∀ child ∈ predicate :: consequence :: alternative.toList,
          child.index < t.size := fun child hc => index_lt_of_child hk hc
      refine .bind (hexpr predicate (hinside predicate (by simp))) fun _ _ => ?_
      have hpositive : FailsOnly P (t.stmtText o consequence) :=
        ih _ consequence hk (by simp [Kind.children]) (hinside _ (by simp))
      refine .bind hpositive fun _ _ => ?_
      refine .bind (hbraced _) fun _ _ => ?_
      refine .bind ?_ fun _ _ => .ok P _
      cases alternative with
      | none => exact .ok P _
      | some block =>
        have hblock : FailsOnly P (t.stmtText o block) :=
          ih _ block hk (by simp [Kind.children]) (hinside block (by simp))
        refine .bind hblock fun _ _ => ?_
        exact .bind (hbraced _) fun _ _ => .ok P _
    · next kind htypeDef hparam hcallable hexpands hplain hfield hblock hlocal hnone hsome hexprStmt
        hassign hcond hk =>
      refine .error (hnode id kind .statement hk ?_)
      cases kind with
      | typeDef => exact (htypeDef _ _ _ _ rfl).elim
      | typeParam => exact (hparam _ rfl).elim
      | callable => exact (hcallable _ _ _ _ _ rfl).elim
      | macroDef => exact (hexpands _ _ _ _ rfl).elim
      | binding form =>
        cases form with
        | plain => exact (hplain _ _ _ rfl).elim
        | field => exact (hfield _ _ _ rfl).elim
      | block => exact (hblock _ rfl).elim
      | localBinding => exact (hlocal _ rfl).elim
      | ret value =>
        cases value with
        | none => exact (hnone rfl).elim
        | some => exact (hsome _ rfl).elim
      | exprStmt => exact (hexprStmt _ rfl).elim
      | assign => exact (hassign _ _ rfl).elim
      | cond => exact (hcond _ _ _ rfl).elim
      | _ => rfl

include hnode in
theorem failsOnly_topLevelAt (id : NodeId) (hin : id.index < t.size) :
    FailsOnly P (t.topLevelAt id) := by
  induction id using induction_below (t := t) with
  | step id ih =>
    rw [topLevelAt]
    split
    · next hk => exact absurd hk (kind?_ne_none hin)
    · next name definitions hk =>
      refine .bind (.collect fun d hd => ?_) fun _ _ => .ok P _
      exact ih _ d hk hd (index_lt_of_child hk hd)
    · exact .ok P _
    · exact .ok P _
    · exact .ok P _
    · exact .ok P _
    · next kind hpackage htypeDef hfree hprimitive hexpands hk =>
      refine .error (hnode id kind .topLevelDefinition hk ?_)
      cases kind with
      | package => exact (hpackage _ _ rfl).elim
      | typeDef => exact (htypeDef _ _ _ _ rfl).elim
      | callable form =>
        cases form with
        | free => exact (hfree _ _ _ _ rfl).elim
        | member => rfl
      | primitive => exact (hprimitive _ rfl).elim
      | macroDef => exact (hexpands _ _ _ _ rfl).elim
      | _ => rfl

include hnode in
theorem failsOnly_topLevel : FailsOnly P t.topLevel := by
  refine .bind (.collect fun definition hd => ?_) fun _ _ => .ok P _
  exact failsOnly_topLevelAt hnode definition (index_lt_of_mem_children hd)

include hnode hexpr hwide in
theorem failsOnly_typeFile {id : NodeId} (hin : id.index < t.size) :
    FailsOnly P (t.typeFile o id) := by
  unfold typeFile
  split
  · next hk => exact absurd hk (kind?_ne_none hin)
  · next kind hk =>
    split
    · next hname =>
      exact .error (hnode id kind .topLevelType hk (by simp [Position.accepts, hname]))
    · exact .bind (failsOnly_stmtText hnode hexpr hwide id hin) fun _ _ => .ok P _

include hwide in
/-- The file of a package fails as its functions do, or where it cannot be laid out. -/
theorem failsOnly_holderFile_of_members {package : Option String} {functions : List NodeId}
    (h : ∀ id ∈ functions, FailsOnly P (t.stmtText o id)) :
    FailsOnly P (t.holderFile o package functions) := by
  have hbraced := failsOnly_braced hwide
  refine .bind (.collect h) fun _ _ => ?_
  refine .bind ?_ fun _ _ => .bind (hbraced _) fun _ _ => .ok P _
  split
  · exact .bind (.bind (hbraced _) fun _ _ => .ok P _) fun _ _ => .ok P _
  · exact .ok P _

include hnode hexpr hwide in
theorem failsOnly_holderFile {package : Option String} {functions : List NodeId}
    (hin : ∀ id ∈ functions, id.index < t.size) :
    FailsOnly P (t.holderFile o package functions) :=
  failsOnly_holderFile_of_members hwide fun id hid =>
    failsOnly_stmtText hnode hexpr hwide id (hin id hid)

include hnode hexpr hwide in
/-- The files of a tree fail as the walk and the statements in them do. -/
theorem failsOnly_project : FailsOnly P (t.project o) := by
  refine .bind (failsOnly_topLevel hnode) fun items hitems => ?_
  rw [types_of_topLevel hitems, functions_of_topLevel hitems]
  refine .bind (.collect fun id hid => ?_) fun _ _ => ?_
  · exact failsOnly_typeFile hnode hexpr hwide (index_lt_of_any (List.mem_filter.1 hid).2)
  · refine .bind (.collect fun holder hh => ?_) fun _ _ => .ok P _
    obtain ⟨package, _, rfl⟩ := List.mem_map.1 hh
    refine failsOnly_holderFile hnode hexpr hwide fun id hid => ?_
    exact index_lt_of_any (List.mem_filter.1 (List.mem_filter.1 hid).1).2

end

end Tree

end Emitter
