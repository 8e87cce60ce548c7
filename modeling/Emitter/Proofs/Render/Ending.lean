import Emitter.Generate
import Emitter.Proofs.Project.Files
import Emitter.Proofs.Render.Diagnosis
import Emitter.Proofs.Render.Equation
import Emitter.Proofs.Render.Expansion

/-!
# Options and the end of rendering

Options decide how a tree is written, not whether it can be.  `EndsAlike` compares
two outcomes by their ends only: both succeed, or both fail in the same way.  It is
kept by sequencing, so the two runs are compared one kind of node at a time.

* `endsAlike_exprText`: an expression ends alike under any two options and any two
  namers.  The runs write different texts into the scopes of their expansions, but
  as many of them, and they expand the same macros.
* `endsAlike_stmtText`: so does a statement, apart from the one end that is no
  fault of the tree, text that would be set deeper by too many blanks.
* `failsOnly_project_of_ok`: the packages of functions, and with them the files,
  differ between the runs.  Each function is still rendered once, so a tree whose
  files come out under some options has files under all.
-/

namespace Emitter

/-! ## Ends of two outcomes -/

section

variable {α β γ δ ε : Type} {apart : ε → Prop}

/-- Two outcomes end alike: both succeed, or both fail in the same way.  A failure
in `apart` is not compared with anything. -/
inductive EndsAlike (apart : ε → Prop) : Except ε α → Except ε β → Prop where
  | ok (a : α) (b : β) : EndsAlike apart (.ok a) (.ok b)
  | error (e : ε) : EndsAlike apart (.error e) (.error e)
  | left {e : ε} (h : apart e) (y : Except ε β) : EndsAlike apart (.error e) y
  | right {e : ε} (h : apart e) (x : Except ε α) : EndsAlike apart x (.error e)

namespace EndsAlike

theorem rfl {x : Except ε α} : EndsAlike apart x x := by
  cases x with
  | error e => exact .error e
  | ok a => exact .ok a a

theorem bind {x : Except ε α} {y : Except ε β} {f : α → Except ε γ} {g : β → Except ε δ}
    (h : EndsAlike apart x y)
    (hnext : ∀ a b, x = .ok a → y = .ok b → EndsAlike apart (f a) (g b)) :
    EndsAlike apart (x >>= f) (y >>= g) := by
  cases h with
  | ok a b => exact hnext a b (Eq.refl _) (Eq.refl _)
  | error e => exact .error e
  | left h => exact .left h _
  | right h => exact .right h _

/-- What is made of two results does not matter for their ends. -/
theorem bind_ok {x : Except ε α} {y : Except ε β} {f : α → γ} {g : β → δ}
    (h : EndsAlike apart x y) :
    EndsAlike apart (x >>= fun a => .ok (f a)) (y >>= fun b => .ok (g b)) :=
  h.bind fun _ _ _ _ => .ok _ _

theorem map {x : Except ε α} {y : Except ε β} {f : α → γ} {g : β → δ}
    (h : EndsAlike apart x y) : EndsAlike apart (x.map f) (y.map g) := by
  cases h with
  | ok a b => exact .ok _ _
  | error e => exact .error e
  | left h => exact .left h _
  | right h => exact .right h _

theorem collect {xs : List α} {first : (x : α) → x ∈ xs → Except ε β}
    {second : (x : α) → x ∈ xs → Except ε γ}
    (h : ∀ x hx, EndsAlike apart (first x hx) (second x hx)) :
    EndsAlike apart (collect xs first) (collect xs second) := by
  induction xs with
  | nil => exact .ok _ _
  | cons x rest ih =>
    rw [collect_cons, collect_cons]
    refine (h x List.mem_cons_self).bind fun _ _ _ _ => ?_
    exact (ih fun y hy => h y (List.mem_cons_of_mem x hy)).bind_ok

/-- Beside a success only a failure that is not compared is left. -/
theorem failsOnly {a : α} {y : Except ε β} (h : EndsAlike apart (.ok a : Except ε α) y) :
    FailsOnly apart y := by
  cases h with
  | ok a b => exact .ok apart b
  | right h => exact .error h

end EndsAlike

end

/-- Whether rendering ended at text that could not be set deeper. -/
def Halt.IsTooWide : Halt → Prop
  | tooWide => True
  | defect _ | outside _ => False

namespace Tree

variable {t : Tree} {o₁ o₂ : Options} {apart : Halt → Prop}

/-! ## Types and scopes -/

theorem endsAlike_typeText (n₁ n₂ : Namer) (id : NodeId) :
    EndsAlike apart (t.typeText n₁ id) (t.typeText n₂ id) := by
  induction id using induction_below (t := t) with
  | step id ih =>
    cases hk : t.kind? id with
    | none =>
      rw [typeText_outside hk, typeText_outside hk]
      exact .rfl
    | some kind =>
      cases kind with
      | typeRef path parameters =>
        rw [typeText_typeRef hk, typeText_typeRef hk]
        exact (EndsAlike.collect fun parameter hp => ih _ parameter hk hp).bind_ok
      | _ =>
        rw [typeText_notType hk rfl, typeText_notType hk rfl]
        exact .rfl

theorem endsAlike_varText (n₁ n₂ : Namer) (id : NodeId) (name : Name)
    (definition : Option NodeId) :
    EndsAlike apart (t.varText o₁ n₁ id name definition) (t.varText o₂ n₂ id name definition) := by
  cases definition with
  | none => exact .rfl
  | some target =>
    cases hd : t.kind? target with
    | none =>
      simp only [varText, hd]
      exact .rfl
    | some kind =>
      cases hsite : kind.bindingSite with
      | none =>
        simp only [varText, hd, hsite]
        exact .rfl
      | some site =>
        cases site <;> simp only [varText, hd, hsite] <;> exact .ok _ _

/-- The names of the parameters are those of the tree, whatever is bound to them. -/
theorem endsAlike_expansionScope (receiver₁ receiver₂ : Option String) (params : List NodeId)
    (texts₁ texts₂ : List String) :
    EndsAlike apart (t.expansionScope o₁ receiver₁ params texts₁)
      (t.expansionScope o₂ receiver₂ params texts₂) :=
  EndsAlike.bind_ok .rfl

theorem endsAlike_receiverText {id callee : NodeId} {name : Name}
    {first second : (receiver : NodeId) → t.receiver? callee = some receiver → Rendered String}
    (h : ∀ receiver hr, EndsAlike apart (first receiver hr) (second receiver hr)) :
    EndsAlike apart (t.receiverText id callee name first)
      (t.receiverText id callee name second) := by
  unfold receiverText
  split
  · exact h _ _
  · exact .rfl

/-! ## Expressions -/

section

variable {n₁ n₂ : Namer} {expanding : List NodeId} {id : NodeId}

/-- An attribute ends as its receiver does, or by the types that the tree records. -/
theorem endsAlike_attr {receiver : NodeId} {member : Name}
    (hk : t.kind? id = some (.attr receiver member))
    (hreceiver : EndsAlike apart (t.exprText o₁ n₁ expanding receiver)
      (t.exprText o₂ n₂ expanding receiver)) :
    EndsAlike apart (t.exprText o₁ n₁ expanding id) (t.exprText o₂ n₂ expanding id) := by
  rw [exprText_attr hk, exprText_attr hk]
  refine EndsAlike.rfl.bind fun type type' htype htype' => ?_
  cases htype.symm.trans htype'
  cases hd : t.kind? type with
  | none => exact .rfl
  | some kind =>
    cases kind with
    | typeDef | primitive => exact hreceiver.bind_ok
    | package =>
      refine hreceiver.bind fun _ _ _ _ => ?_
      refine EndsAlike.rfl.bind fun found found' hfound hfound' => ?_
      cases hfound.symm.trans hfound'
      cases hm : t.kind? found with
      | none => exact .rfl
      | some kind =>
        cases kind with
        | callable form => cases form <;> exact .ok _ _
        | _ => exact .ok _ _
    | _ => exact .rfl

/-- A macro call ends as its receiver, its arguments and the body do.  The two runs pass
different texts to the macro, but as many, and expand it in the same places. -/
theorem endsAlike_expansion {callee type body : NodeId} {args params : List NodeId}
    {form : CallableForm} {name : Name} (hk : t.kind? id = some (.call callee args))
    (ht : t.resolution callee = .ok type)
    (hd : t.kind? type = some (.macroDef form name params body))
    (hreceiver : EndsAlike apart
      (t.receiverText id callee name fun receiver _ => t.exprText o₁ n₁ expanding receiver)
      (t.receiverText id callee name fun receiver _ => t.exprText o₂ n₂ expanding receiver))
    (hargs : EndsAlike apart (collect args fun arg _ => t.exprText o₁ n₁ expanding arg)
      (collect args fun arg _ => t.exprText o₂ n₂ expanding arg))
    (hbody : type ∉ expanding → ∀ s₁ s₂, EndsAlike apart
      (t.exprText o₁ (o₁.scoped s₁) (type :: expanding) body)
      (t.exprText o₂ (o₂.scoped s₂) (type :: expanding) body)) :
    EndsAlike apart (t.exprText o₁ n₁ expanding id) (t.exprText o₂ n₂ expanding id) := by
  rw [exprText_expansion hk ht hd, exprText_expansion hk ht hd]
  refine EndsAlike.bind ?_ fun _ _ _ _ => ?_
  · cases form with
    | free => exact .rfl
    | member => exact hreceiver.map
  · by_cases hmem : type ∈ expanding
    · rw [if_pos hmem, if_pos hmem]
      exact .rfl
    · rw [if_neg hmem, if_neg hmem]
      refine hargs.bind fun texts₁ texts₂ h₁ h₂ => ?_
      have hlength : texts₁.length = texts₂.length :=
        (length_of_collect_eq_ok h₁).trans (length_of_collect_eq_ok h₂).symm
      rw [hlength]
      split
      · exact .rfl
      · exact (endsAlike_expansionScope _ _ params _ _).bind fun s₁ s₂ _ _ => hbody hmem s₁ s₂

theorem endsAlike_call {callee : NodeId} {args : List NodeId}
    (hk : t.kind? id = some (.call callee args))
    (hcallee : EndsAlike apart (t.exprText o₁ n₁ expanding callee)
      (t.exprText o₂ n₂ expanding callee))
    (hreceiver : ∀ receiver, t.receiver? callee = some receiver →
      EndsAlike apart (t.exprText o₁ n₁ expanding receiver) (t.exprText o₂ n₂ expanding receiver))
    (hargs : ∀ arg ∈ args,
      EndsAlike apart (t.exprText o₁ n₁ expanding arg) (t.exprText o₂ n₂ expanding arg))
    (hbody : ∀ type form name params body, t.resolution callee = .ok type →
      t.kind? type = some (.macroDef form name params body) → type ∉ expanding → ∀ s₁ s₂,
      EndsAlike apart (t.exprText o₁ (o₁.scoped s₁) (type :: expanding) body)
        (t.exprText o₂ (o₂.scoped s₂) (type :: expanding) body)) :
    EndsAlike apart (t.exprText o₁ n₁ expanding id) (t.exprText o₂ n₂ expanding id) := by
  have htexts : EndsAlike apart (collect args fun arg _ => t.exprText o₁ n₁ expanding arg)
      (collect args fun arg _ => t.exprText o₂ n₂ expanding arg) := .collect hargs
  have hself : ∀ name, EndsAlike apart
      (t.receiverText id callee name fun receiver _ => t.exprText o₁ n₁ expanding receiver)
      (t.receiverText id callee name fun receiver _ => t.exprText o₂ n₂ expanding receiver) :=
    fun name => endsAlike_receiverText hreceiver
  cases ht : t.resolution callee with
  | error halt =>
    rw [exprText_call_unresolved hk ht, exprText_call_unresolved hk ht]
    exact .rfl
  | ok type =>
    cases hd : t.kind? type with
    | none =>
      rw [exprText_call_outside hk ht hd, exprText_call_outside hk ht hd]
      exact .rfl
    | some kind =>
      cases kind with
      | typeDef | primitive =>
        rw [exprText_construct hk ht hd rfl, exprText_construct hk ht hd rfl]
        exact hcallee.bind fun _ _ _ _ => htexts.bind_ok
      | callable form =>
        cases form with
        | free =>
          rw [exprText_function hk ht hd, exprText_function hk ht hd]
          exact hcallee.bind fun _ _ _ _ => htexts.bind_ok
        | member =>
          rw [exprText_method hk ht hd, exprText_method hk ht hd]
          exact (hself _).bind fun _ _ _ _ => htexts.bind_ok
      | macroDef form name params body =>
        exact endsAlike_expansion hk ht hd (hself name) htexts (hbody _ _ _ _ _ ht hd)
      | _ =>
        rw [exprText_call_refused hk ht hd rfl, exprText_call_refused hk ht hd rfl]
        exact .rfl

end

/-- An expression ends alike under any options and any names. -/
theorem endsAlike_exprText (o₁ o₂ : Options) (n₁ n₂ : Namer) (expanding : List NodeId)
    (id : NodeId) :
    EndsAlike apart (t.exprText o₁ n₁ expanding id) (t.exprText o₂ n₂ expanding id) := by
  -- Which activations are started does not depend on the options, so the second run
  -- follows the recursion of the first.
  induction n₁, expanding, id using exprText.induct t o₁ generalizing n₂ with
  | case1 n₁ expanding id ih =>
    cases hk : t.kind? id with
    | none =>
      rw [exprText_outside hk, exprText_outside hk]
      exact .rfl
    | some kind =>
      have hchild : ∀ child ∈ kind.children,
          EndsAlike apart (t.exprText o₁ n₁ expanding child) (t.exprText o₂ n₂ expanding child) :=
        fun child hc => ih _ (.child hk hc) n₂
      cases kind with
      | literal =>
        rw [exprText_literal hk, exprText_literal hk]
        exact .rfl
      | list elements =>
        rw [exprText_list hk, exprText_list hk]
        exact (EndsAlike.collect hchild).bind_ok
      | native parts =>
        rw [exprText_native hk, exprText_native hk]
        exact (EndsAlike.collect hchild).bind_ok
      | typeRef path parameters =>
        rw [exprText_typeRef hk, exprText_typeRef hk]
        exact endsAlike_typeText n₁ n₂ id
      | var name definition =>
        rw [exprText_var hk, exprText_var hk]
        exact endsAlike_varText n₁ n₂ id name definition
      | attr receiver member => exact endsAlike_attr hk (hchild receiver List.mem_cons_self)
      | call callee args =>
        refine endsAlike_call hk (hchild callee List.mem_cons_self) ?_ ?_ ?_
        · exact fun receiver hr => ih _ (.receiver hk hr) n₂
        · exact fun arg ha => hchild arg (List.mem_cons_of_mem callee ha)
        · exact fun type form name params body ht hd hnew s₁ s₂ =>
            ih { namer := o₁.scoped s₁, expanding := type :: expanding, id := body }
              (.body hk ht hd hnew) (o₂.scoped s₂)
      | _ =>
        rw [exprText_notExpression hk rfl, exprText_notExpression hk rfl]
        exact .rfl

/-! ## Statements -/

/-- Only text that cannot be set deeper makes a difference between widths. -/
theorem endsAlike_braced (o₁ o₂ : Options) (first second : String) :
    EndsAlike Halt.IsTooWide (o₁.braced first) (o₂.braced second) := by
  unfold Options.braced
  cases nested? o₁.indentWidth first with
  | none => exact .left trivial _
  | some body =>
    cases nested? o₂.indentWidth second with
    | none => exact .right trivial _
    | some other => exact .ok _ _

theorem endsAlike_bindingText (o₁ o₂ : Options) (type : NodeId) (name : Name)
    (value : Option NodeId) :
    EndsAlike apart (t.bindingText o₁ type name value) (t.bindingText o₂ type name value) := by
  refine (endsAlike_typeText _ _ type).bind fun _ _ _ _ => ?_
  cases value with
  | none => exact .ok _ _
  | some value => exact (endsAlike_exprText o₁ o₂ _ _ [] value).bind_ok

theorem endsAlike_targetText (o₁ o₂ : Options) (id : NodeId) :
    EndsAlike apart (t.targetText o₁ id) (t.targetText o₂ id) := by
  unfold targetText
  split
  · exact .rfl
  · exact .ok _ _
  · exact (endsAlike_exprText o₁ o₂ _ _ [] _).bind_ok
  · exact .rfl

theorem endsAlike_returnText (o₁ o₂ : Options) (returnType : Option NodeId) :
    EndsAlike apart (t.returnText o₁ returnType) (t.returnText o₂ returnType) := by
  cases returnType with
  | none => exact .rfl
  | some type => exact (endsAlike_typeText _ _ type).bind_ok

/-- A statement ends alike under any options, unless it is set too deep under one of
them. -/
theorem endsAlike_stmtText (o₁ o₂ : Options) (id : NodeId) :
    EndsAlike Halt.IsTooWide (t.stmtText o₁ id) (t.stmtText o₂ id) := by
  induction id using induction_below (t := t) with
  | step id ih =>
    cases hk : t.kind? id with
    | none =>
      rw [stmtText_of_outside hk, stmtText_of_outside hk]
      exact .rfl
    | some kind =>
      have hexpr : ∀ value, EndsAlike Halt.IsTooWide (t.expr o₁ value) (t.expr o₂ value) :=
        endsAlike_exprText o₁ o₂ _ _ []
      have hchild : ∀ child ∈ kind.children,
          EndsAlike Halt.IsTooWide (t.stmtText o₁ child) (t.stmtText o₂ child) :=
        fun child hc => ih _ child hk hc
      rw [stmtText_of_kind? hk, stmtText_of_kind? hk]
      cases kind with
      | typeDef form name parameters definitions =>
        refine (EndsAlike.collect fun p hp => ?_).bind fun _ _ _ _ => ?_
        · exact hchild p (List.mem_append_left _ hp)
        · refine (EndsAlike.collect fun d hd => ?_).bind fun _ _ _ _ => ?_
          · exact hchild d (List.mem_append_right _ hd)
          · exact (endsAlike_braced o₁ o₂ _ _).bind_ok
      | typeParam => exact .ok _ _
      | callable form name returnType params body =>
        refine (endsAlike_returnText o₁ o₂ returnType).bind fun _ _ _ _ => ?_
        refine (EndsAlike.collect fun p hp => ?_).bind fun _ _ _ _ => ?_
        · exact hchild p (by simp [Kind.children, hp])
        · refine EndsAlike.bind_ok ?_
          cases body with
          | none => exact .rfl
          | some block =>
            have hblock := hchild block (by simp [Kind.children])
            exact hblock.bind fun _ _ _ _ => (endsAlike_braced o₁ o₂ _ _).bind_ok
      | macroDef => exact .rfl
      | binding form type name value =>
        have hbinding : EndsAlike Halt.IsTooWide (t.bindingText o₁ type name value)
            (t.bindingText o₂ type name value) := endsAlike_bindingText o₁ o₂ type name value
        cases form with
        | plain => exact hbinding
        | field => exact hbinding.bind_ok
      | block statements => exact (EndsAlike.collect hchild).bind_ok
      | localBinding declaration => exact (hchild declaration List.mem_cons_self).bind_ok
      | ret value =>
        cases value with
        | none => exact .rfl
        | some value => exact (hexpr value).bind_ok
      | exprStmt value => exact (hexpr value).bind_ok
      | assign target value =>
        exact (endsAlike_targetText o₁ o₂ target).bind fun _ _ _ _ => (hexpr value).bind_ok
      | cond predicate consequence alternative =>
        have hpositive := hchild consequence (by simp [Kind.children])
        refine (hexpr predicate).bind fun _ _ _ _ => hpositive.bind fun _ _ _ _ => ?_
        refine (endsAlike_braced o₁ o₂ _ _).bind fun _ _ _ _ => EndsAlike.bind_ok ?_
        cases alternative with
        | none => exact .rfl
        | some block =>
          have hnegative := hchild block (by simp [Kind.children])
          exact hnegative.bind fun _ _ _ _ => (endsAlike_braced o₁ o₂ _ _).bind_ok
      | _ => exact .rfl

/-! ## Files -/

theorem endsAlike_typeFile (o₁ o₂ : Options) (id : NodeId) :
    EndsAlike Halt.IsTooWide (t.typeFile o₁ id) (t.typeFile o₂ id) := by
  unfold typeFile
  split
  · exact .rfl
  · split
    · exact .rfl
    · exact (endsAlike_stmtText o₁ o₂ id).bind_ok

/-- Where the files of all packages come out, every function has a text: it is in the
file of its own package. -/
theorem exists_stmtText_of_holders {o : Options} {functions : List NodeId}
    {files : List (Path × String)}
    (h : (collect (t.holders o functions) fun (package, members) _ =>
      t.holderFile o package members) = .ok files) {id : NodeId} (hid : id ∈ functions) :
    ∃ text, t.stmtText o id = .ok text := by
  have hpackage : (o.namer.package t id,
      functions.filter fun function => o.namer.package t function == o.namer.package t id) ∈
        t.holders o functions :=
    List.mem_map_of_mem (List.mem_eraseDups.2 (List.mem_map_of_mem hid))
  obtain ⟨_, file, hfile⟩ := exists_of_collect_eq_ok h hpackage
  obtain ⟨texts, htexts, _⟩ := bind_eq_ok_iff.1 hfile
  have hmember : id ∈ functions.filter fun function =>
      o.namer.package t function == o.namer.package t id := List.mem_filter.2 ⟨hid, by simp⟩
  obtain ⟨_, text, htext⟩ := exists_of_collect_eq_ok htexts hmember
  exact ⟨text, htext⟩

/-- A tree whose files come out under some options has files under all, unless text is
set too deep.  The functions are grouped by packages whose names depend on the options,
so the two runs need not meet them in the same order. -/
theorem failsOnly_project_of_ok {files : Files} (h : t.project o₁ = .ok files) :
    FailsOnly Halt.IsTooWide (t.project o₂) := by
  obtain ⟨items, hitems, h⟩ := bind_eq_ok_iff.1 h
  obtain ⟨types, htypes, h⟩ := bind_eq_ok_iff.1 h
  obtain ⟨hosts, hhosts, _⟩ := bind_eq_ok_iff.1 h
  have htypeFiles : FailsOnly Halt.IsTooWide
      (collect (items.filterMap TopLevel.type?) fun id _ => t.typeFile o₂ id) := by
    have hends : EndsAlike Halt.IsTooWide
        (collect (items.filterMap TopLevel.type?) fun id _ => t.typeFile o₁ id)
        (collect (items.filterMap TopLevel.type?) fun id _ => t.typeFile o₂ id) :=
      .collect fun id _ => endsAlike_typeFile o₁ o₂ id
    rw [htypes] at hends
    exact hends.failsOnly
  have hfunction : ∀ id ∈ items.filterMap TopLevel.function?,
      FailsOnly Halt.IsTooWide (t.stmtText o₂ id) := by
    intro id hid
    obtain ⟨text, htext⟩ := exists_stmtText_of_holders hhosts hid
    have hends := endsAlike_stmtText (t := t) o₁ o₂ id
    rw [htext] at hends
    exact hends.failsOnly
  unfold project
  rw [hitems]
  refine .bind (.ok _ _) fun _ he => ?_
  cases he
  refine .bind htypeFiles fun _ _ => .bind (.collect fun holder hh => ?_) fun _ _ => .ok _ _
  obtain ⟨package, _, rfl⟩ := List.mem_map.1 hh
  refine failsOnly_holderFile_of_members (fun _ => trivial) fun id hid => ?_
  exact hfunction id (List.mem_filter.1 hid).1

/-! ## Levels that fit -/

theorem not_isTooWide_of_expr {o : Options} {id : NodeId} (hin : id.index < t.size) :
    FailsOnly (fun halt => ¬ halt.IsTooWide) (t.expr o id) := by
  intro halt h hwide
  cases halt with
  | tooWide => exact isDefect_of_exprText o.namer hin _ h
  | defect | outside => exact hwide

/-- Below the limit on widths no text is set too deep. -/
theorem ne_tooWide_of_lt {o : Options} (hwidth : o.indentWidth < widthLimit) :
    t.project o ≠ .error .tooWide ∧ ∀ id, t.stmtText o id ≠ .error .tooWide := by
  have hnode : ∀ id kind position, t.kind? id = some kind →
      Position.accepts position kind = false → ¬ (t.unhandled id kind position).IsTooWide :=
    fun _ _ _ _ _ h => h
  have hwide : widthLimit ≤ o.indentWidth → ¬ Halt.tooWide.IsTooWide := fun hle => by omega
  refine ⟨fun h => ?_, fun id h => ?_⟩
  · exact failsOnly_project hnode (fun _ => not_isTooWide_of_expr) hwide _ h trivial
  · cases hk : t.kind? id with
    | none =>
      rw [stmtText_of_outside hk] at h
      cases h
    | some kind =>
      exact failsOnly_stmtText hnode (fun _ => not_isTooWide_of_expr) hwide id
        (index_lt_of_kind? hk) _ h trivial

/-- Widths of which five levels fit are wide enough for the support class. -/
theorem source_of_lt {o : Options} (hwidth : 5 * o.indentWidth < widthLimit) :
    Support.source o = .ok (Support.sourceText o.indentWidth) := by
  have hlevels : ∀ line ∈ Support.lines, line.1 ≤ 5 := by decide
  refine if_pos (List.all_eq_true.2 fun line hline => decide_eq_true ?_)
  exact Nat.lt_of_le_of_lt (Nat.mul_le_mul_right _ (hlevels line hline)) hwidth

/-- With such widths the files of a run fail at a defect of a node only. -/
theorem isDefect_of_generate {o : Options} (hwidth : 5 * o.indentWidth < widthLimit) :
    FailsOnly Halt.IsDefect (t.generate o) := by
  have hproject : FailsOnly Halt.IsDefect (t.project o) :=
    failsOnly_project (fun _ _ _ _ _ => trivial) (fun _ => isDefect_of_exprText o.namer)
      fun hwide => by omega
  refine .bind hproject fun files _ => ?_
  rw [source_of_lt hwidth]
  split <;> exact .ok _ _

theorem exists_project_of_ok {files : Files} (h : t.project o₁ = .ok files)
    (hfits : t.project o₂ ≠ .error .tooWide) : ∃ files, t.project o₂ = .ok files := by
  cases h₂ : t.project o₂ with
  | ok files => exact ⟨files, rfl⟩
  | error halt =>
    have hwide := failsOnly_project_of_ok h halt h₂
    cases halt with
    | tooWide => exact absurd h₂ hfits
    | defect | outside => exact hwide.elim

/-- Whether a tree renders depends on the tree.  Under two sets of options and any names
an expression has a text twice or the same failure twice.  So has a statement, and the
tree has files under both or under neither, unless a level is so wide that text cannot be
set deeper; no width below the limit is. -/
theorem rendersAlike (t : Tree) (o₁ o₂ : Options) :
    (∀ n₁ n₂ expanding id,
      EndsAlike (fun _ => False) (t.exprText o₁ n₁ expanding id) (t.exprText o₂ n₂ expanding id)) ∧
    (∀ id, EndsAlike Halt.IsTooWide (t.stmtText o₁ id) (t.stmtText o₂ id)) ∧
    (t.project o₁ ≠ .error .tooWide → t.project o₂ ≠ .error .tooWide →
      ((∃ files, t.project o₁ = .ok files) ↔ ∃ files, t.project o₂ = .ok files)) ∧
    ∀ o : Options, o.indentWidth < widthLimit →
      t.project o ≠ .error .tooWide ∧ ∀ id, t.stmtText o id ≠ .error .tooWide := by
  refine ⟨fun n₁ n₂ expanding id => endsAlike_exprText o₁ o₂ n₁ n₂ expanding id,
    fun id => endsAlike_stmtText o₁ o₂ id, fun hfits₁ hfits₂ => ⟨?_, ?_⟩,
    fun o hwidth => ne_tooWide_of_lt hwidth⟩
  · rintro ⟨files, h⟩
    exact exists_project_of_ok h hfits₂
  · rintro ⟨files, h⟩
    exact exists_project_of_ok h hfits₁

/-- Options under which the two packages of `splitPackage` have one name. -/
def mergedNames : Options :=
  { indentWidth := 2, holderType := "Shared", builtins := Table.ofList [("b", "a")] }

/-- The packages of the tree are two under the default options and one under the others. -/
theorem rendersAlike_splitPackage :
    (splitPackage.project {} ≠ .error .tooWide ∧
      splitPackage.project mergedNames ≠ .error .tooWide) ∧
    ∃ files, splitPackage.project mergedNames = .ok files := by
  obtain ⟨_, _, hproject, hfits⟩ := rendersAlike splitPackage {} mergedNames
  have hfits₁ : splitPackage.project {} ≠ .error .tooWide := (hfits {} (by decide)).1
  have hfits₂ : splitPackage.project mergedNames ≠ .error .tooWide :=
    (hfits mergedNames (by decide)).1
  have hok : (splitPackage.project {}).toOption.isSome = true := by decide +kernel
  obtain ⟨files, hfiles⟩ := Option.isSome_iff_exists.1 hok
  exact ⟨⟨hfits₁, hfits₂⟩, (hproject hfits₁ hfits₂).1 ⟨files, eq_ok_of_toOption hfiles⟩⟩

/-- A width past the limit makes a difference: a statement with a defect ends before the
defect is met, and a tree with files has none. -/
theorem tooWide_depends_on_width :
    conditionWithBody.stmtText {} ⟨4⟩ =
      .error (.defect (.unhandledNode ⟨3⟩ "Number" .statement {})) ∧
    conditionWithBody.stmtText { indentWidth := widthLimit } ⟨4⟩ = .error .tooWide ∧
    (∃ files, splitPackage.project {} = .ok files) ∧
    splitPackage.project { indentWidth := widthLimit } = .error .tooWide := by
  have hkind : conditionWithBody.kind? ⟨4⟩ = some (.cond ⟨0⟩ ⟨2⟩ (some ⟨3⟩)) := rfl
  have hother : conditionWithBody.kind? ⟨3⟩ = some (.literal .number "2") := rfl
  have htest : ∀ o, conditionWithBody.expr o ⟨0⟩ = .ok "true" := fun _ => exprText_literal rfl
  have htext : conditionWithBody.stmtText {} ⟨2⟩ = .ok "return;" :=
    eq_ok_of_toOption (by decide +kernel)
  have hwideText : conditionWithBody.stmtText { indentWidth := widthLimit } ⟨2⟩ = .ok "return;" :=
    eq_ok_of_toOption (by decide +kernel)
  have hbraced : Options.braced {} "return;" = .ok "\x7b\n    return;\n\x7d" :=
    eq_ok_of_toOption (by decide +kernel)
  have hwideBraced : Options.braced { indentWidth := widthLimit } "return;" = .error .tooWide :=
    braced_eq_tooWide rfl (Nat.le_refl _)
  have hok : (splitPackage.project {}).toOption.isSome = true := by decide +kernel
  have hnone : (splitPackage.project { indentWidth := widthLimit }).toOption = none := by
    decide +kernel
  obtain ⟨files, hfiles⟩ := Option.isSome_iff_exists.1 hok
  have hproject := eq_ok_of_toOption hfiles
  refine ⟨?_, ?_, ⟨files, hproject⟩, ?_⟩
  · rw [stmtText_of_kind? hkind]
    simp only [htest, htext, hbraced, stmtText_of_kind? hother, bind, Except.bind]
    rfl
  · rw [stmtText_of_kind? hkind]
    simp only [htest, hwideText, hwideBraced, bind, Except.bind]
  · by_contra hfits
    obtain ⟨others, hothers⟩ := exists_project_of_ok hproject hfits
    rw [hothers] at hnone
    cases hnone

end Tree

end Emitter
