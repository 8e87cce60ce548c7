import Emitter.Proofs.Render.Ending
import Emitter.Proofs.Table
import Emitter.Proofs.Text.Layout

/-!
# The width of a level

The width of a level decides how many blanks stand before the lines of a file, and nothing else.

* Expressions do not know the width (`exprText_withWidth`), so what is put into a line is the same
  under any two widths.
* Statements and files put lines together and set them deeper.  Under two widths they come out
  `Respaced` (`respaced_stmtText`); in particular a body is empty under both widths or under
  neither, and so takes lines under both or under neither.
* Files are put into the table under paths that do not depend on the width, so the tables are
  filled alike (`Table.alike_ofList`).

How rendering ends was compared in `Emitter.Proofs.Render.Ending`, for options that may differ in
anything.  The main statement is `generate_sameLines`.
-/

namespace Emitter

/-- The options with another width of a level. -/
def Options.withWidth (o : Options) (width : Nat) : Options := { o with indentWidth := width }

/-! ## Results of two outcomes -/

section

variable {α β γ δ ε : Type} {R : α → β → Prop} {S : γ → δ → Prop}

/-- If there are two results, they are related. -/
def YieldsAlike (R : α → β → Prop) (x : Except ε α) (y : Except ε β) : Prop :=
  ∀ a b, x = .ok a → y = .ok b → R a b

namespace YieldsAlike

theorem ok {a : α} {b : β} (h : R a b) :
    YieldsAlike R (.ok a : Except ε α) (.ok b : Except ε β) := by
  rintro _ _ ⟨⟩ ⟨⟩
  exact h

theorem rfl {x : Except ε α} : YieldsAlike (· = ·) x x :=
  fun _ _ h h' => Except.ok.inj (h.symm.trans h')

theorem respaced {x : Except ε String} : YieldsAlike Respaced x x :=
  fun a _ h h' => Except.ok.inj (h.symm.trans h') ▸ Respaced.refl a

theorem bind {x : Except ε α} {y : Except ε β} {f : α → Except ε γ} {g : β → Except ε δ}
    (h : YieldsAlike R x y) (hnext : ∀ a b, R a b → YieldsAlike S (f a) (g b)) :
    YieldsAlike S (x >>= f) (y >>= g) := by
  intro c d hc hd
  obtain ⟨a, ha, hc⟩ := bind_eq_ok_iff.1 hc
  obtain ⟨b, hb, hd⟩ := bind_eq_ok_iff.1 hd
  exact hnext a b (h a b ha hb) c d hc hd

theorem collect {ι : Type} {xs : List ι} {first : (x : ι) → x ∈ xs → Except ε α}
    {second : (x : ι) → x ∈ xs → Except ε β}
    (h : ∀ x hx, YieldsAlike R (first x hx) (second x hx)) :
    YieldsAlike (List.Forall₂ R) (collect xs first) (collect xs second) := by
  induction xs with
  | nil => exact .ok .nil
  | cons x rest ih =>
    rw [collect_cons, collect_cons]
    refine (h x List.mem_cons_self).bind fun a b hab => ?_
    refine (ih fun y hy => h y (List.mem_cons_of_mem x hy)).bind fun as bs hrest => ?_
    exact .ok (.cons hab hrest)

end YieldsAlike

end

/-! ## Levels that fit -/

theorem Halt.IsTooWide.eq {halt : Halt} (h : halt.IsTooWide) : halt = .tooWide := by
  cases halt with
  | tooWide => rfl
  | defect | outside => exact h.elim

/-- Where the lines fit under both widths, two outcomes end alike in every way. -/
theorem cases_of_endsAlike {α β : Type} {x : Rendered α} {y : Rendered β}
    (h : EndsAlike Halt.IsTooWide x y) (hx : x ≠ .error .tooWide) (hy : y ≠ .error .tooWide) :
    (∃ a b, x = .ok a ∧ y = .ok b) ∨ ∃ halt, x = .error halt ∧ y = .error halt := by
  cases h with
  | ok a b => exact .inl ⟨a, b, rfl, rfl⟩
  | error halt => exact .inr ⟨halt, rfl, rfl⟩
  | left hwide =>
    rw [Halt.IsTooWide.eq hwide] at hx
    exact absurd rfl hx
  | right hwide =>
    rw [Halt.IsTooWide.eq hwide] at hy
    exact absurd rfl hy

/-! ## The support class -/

/-- Lines at their levels, each after a line break. -/
theorem respaced_lines (w₁ w₂ : Nat) (line : Nat × String) (rest : List (Nat × String)) :
    RespacedChars
      ('\n' :: ("\n".intercalate ((line :: rest).map fun (level, text) =>
        String.ofList (List.replicate (level * w₁) ' ') ++ text)).toList)
      ('\n' :: ("\n".intercalate ((line :: rest).map fun (level, text) =>
        String.ofList (List.replicate (level * w₂) ' ') ++ text)).toList) := by
  induction rest generalizing line with
  | nil =>
    simp only [List.map_cons, List.map_nil, String.intercalate_singleton, String.toList_append,
      String.toList_ofList]
    exact .lineBreak _ _ (.refl _)
  | cons next others ih =>
    have hnext := ih next
    simp only [List.map_cons, String.intercalate_cons_cons, String.toList_append,
      String.toList_ofList, List.append_assoc] at hnext ⊢
    exact .lineBreak _ _ (RespacedChars.append (.refl _) hnext)

/-- The first line of the support class stands at the margin. -/
theorem respaced_sourceText (w₁ w₂ : Nat) :
    Respaced (Support.sourceText w₁) (Support.sourceText w₂) := by
  obtain ⟨text, next, others, hlines⟩ :
      ∃ text next others, Support.lines = (0, text) :: next :: others := ⟨_, _, _, rfl⟩
  have hrest := respaced_lines w₁ w₂ next others
  unfold Respaced Support.sourceText
  simp only [hlines, List.map_cons, String.intercalate_cons_cons, String.toList_append,
    String.toList_ofList, Nat.zero_mul, List.append_assoc] at hrest ⊢
  exact RespacedChars.append (.refl _) (RespacedChars.append (.refl _) hrest)

theorem eq_of_source_eq_ok {o : Options} {text : String} (h : Support.source o = .ok text) :
    text = Support.sourceText o.indentWidth := by
  unfold Support.source at h
  split at h
  · exact (Except.ok.inj h).symm
  · cases h

namespace Tree

variable {t : Tree} {o : Options} {w w₁ w₂ : Nat}

/-! ## Expressions -/

/-- Expressions do not know the width of a level. -/
theorem exprText_withWidth (namer : Namer) (expanding : List NodeId) (id : NodeId) :
    t.exprText (o.withWidth w) namer expanding id = t.exprText o namer expanding id := by
  induction namer, expanding, id using exprText.induct (t := t) (o := o) with
  | case1 namer expanding id ih =>
    have hrender : (fun inner (_ : t.Calls o { namer, expanding, id } inner) =>
        t.exprText (o.withWidth w) inner.namer inner.expanding inner.id) =
          fun inner _ => t.exprText o inner.namer inner.expanding inner.id := by
      funext inner hc
      exact ih inner hc
    -- One step of rendering does not read the width.
    rw [exprText, exprText, ← hrender]
    rfl

theorem expr_withWidth (id : NodeId) : t.expr (o.withWidth w) id = t.expr o id :=
  exprText_withWidth o.namer [] id

theorem bindingText_withWidth (type : NodeId) (name : Name) (value : Option NodeId) :
    t.bindingText (o.withWidth w) type name value = t.bindingText o type name value := by
  simp only [bindingText, expr_withWidth]
  rfl

theorem targetText_withWidth (id : NodeId) :
    t.targetText (o.withWidth w) id = t.targetText o id := by
  simp only [targetText, expr_withWidth]
  rfl

/-! ## Statements -/

theorem respaced_braced {first second : String} (h : Respaced first second) :
    YieldsAlike Respaced ((o.withWidth w₁).braced first) ((o.withWidth w₂).braced second) := by
  intro a b ha hb
  rw [Options.eq_of_braced ha, Options.eq_of_braced hb]
  exact ((Respaced.refl _).append (h.indent w₁ w₂)).append (.refl _)

/-- What is empty under one width is empty under the other, so the same texts are dropped. -/
theorem respaced_filter {firsts seconds : List String} (h : List.Forall₂ Respaced firsts seconds) :
    List.Forall₂ Respaced (firsts.filter fun text => !text.isEmpty)
      (seconds.filter fun text => !text.isEmpty) := by
  induction h with
  | nil => exact .nil
  | cons hfirst _ ih =>
    rw [List.filter_cons, List.filter_cons, hfirst.isEmpty_eq]
    split
    · exact .cons hfirst ih
    · exact ih

/-- A block between braces, after a word that leads to it. -/
theorem respaced_block {block : NodeId} (lead : String) (h : YieldsAlike Respaced
    (t.stmtText (o.withWidth w₁) block) (t.stmtText (o.withWidth w₂) block)) :
    YieldsAlike Respaced
      (do
        let text ← t.stmtText (o.withWidth w₁) block
        return lead ++ (← (o.withWidth w₁).braced text))
      (do
        let text ← t.stmtText (o.withWidth w₂) block
        return lead ++ (← (o.withWidth w₂).braced text)) :=
  h.bind fun _ _ htext => (respaced_braced htext).bind fun _ _ hbody =>
    .ok ((Respaced.refl lead).append hbody)

/-- A statement under two widths is the same up to the blanks before its lines. -/
theorem respaced_stmtText (o : Options) (w₁ w₂ : Nat) (id : NodeId) :
    YieldsAlike Respaced (t.stmtText (o.withWidth w₁) id) (t.stmtText (o.withWidth w₂) id) := by
  induction id using induction_below (t := t) with
  | step id ih =>
    cases hk : t.kind? id with
    | none =>
      rw [stmtText_of_outside hk, stmtText_of_outside hk]
      exact .respaced
    | some kind =>
      have hchild : ∀ child ∈ kind.children, YieldsAlike Respaced
          (t.stmtText (o.withWidth w₁) child) (t.stmtText (o.withWidth w₂) child) :=
        fun child hc => ih _ child hk hc
      have hlist : ∀ ids : List NodeId, ids ⊆ kind.children → YieldsAlike (List.Forall₂ Respaced)
          (collect ids fun child _ => t.stmtText (o.withWidth w₁) child)
          (collect ids fun child _ => t.stmtText (o.withWidth w₂) child) :=
        fun ids hids => .collect fun child hc => hchild child (hids hc)
      rw [stmtText_of_kind? hk, stmtText_of_kind? hk]
      cases kind with
      | typeDef form name parameters definitions =>
        refine (hlist parameters (List.subset_append_left _ _)).bind
          fun params params' hparams => ?_
        refine (hlist definitions (List.subset_append_right _ _)).bind fun _ _ hmembers => ?_
        refine (respaced_braced (.intercalate "\n" (respaced_filter hmembers))).bind
          fun _ _ hbody => .ok ?_
        have hgenerics : Respaced
            (if params.isEmpty then "" else "<" ++ ", ".intercalate params ++ ">")
            (if params'.isEmpty then "" else "<" ++ ", ".intercalate params' ++ ">") := by
          -- There are as many parameters under both widths, so brackets stand around both or none.
          cases hparams with
          | nil => exact .refl _
          | cons hfirst hrest =>
            exact ((Respaced.refl _).append (.intercalate _ (.cons hfirst hrest))).append (.refl _)
        exact (((Respaced.refl _).append hgenerics).append (.refl _)).append hbody
      | typeParam => exact .respaced
      | callable form name returnType params body =>
        refine YieldsAlike.rfl.bind fun _ returns hreturns => ?_
        subst hreturns
        refine (hlist params fun _ hp => by simp [Kind.children, hp]).bind fun _ _ hparams => ?_
        refine YieldsAlike.bind (R := Respaced) ?_ fun _ _ htail => .ok ?_
        · cases body with
          | none => exact .respaced
          | some block => exact respaced_block " " (hchild block (by simp [Kind.children]))
        · exact (((Respaced.refl _).append (.intercalate _ hparams)).append (.refl _)).append htail
      | macroDef => exact .respaced
      | binding form type name value =>
        simp only [bindingText_withWidth]
        cases form <;> exact .respaced
      | block statements =>
        refine (hlist statements fun _ hc => hc).bind fun _ _ htexts => ?_
        exact .ok (.intercalate _ htexts)
      | localBinding declaration =>
        refine (hchild declaration List.mem_cons_self).bind fun _ _ htext => ?_
        exact .ok (htext.append (.refl _))
      | ret value =>
        simp only [expr_withWidth]
        cases value <;> exact .respaced
      | exprStmt value =>
        simp only [expr_withWidth]
        exact .respaced
      | assign target value =>
        simp only [expr_withWidth, targetText_withWidth]
        exact .respaced
      | cond predicate consequence alternative =>
        have hpositive := hchild consequence (by simp [Kind.children])
        simp only [expr_withWidth]
        refine YieldsAlike.rfl.bind fun _ test htest => ?_
        subst htest
        refine hpositive.bind fun _ _ htext => (respaced_braced htext).bind fun _ _ hbody => ?_
        refine YieldsAlike.bind (R := Respaced) ?_ fun _ _ htail => .ok ?_
        · cases alternative with
          | none => exact .respaced
          | some block => exact respaced_block " else " (hchild block (by simp [Kind.children]))
        · exact ((Respaced.refl _).append hbody).append htail
      | _ => exact .respaced

/-! ## Files -/

theorem respaced_withPackage (package : Option String) {first second : String}
    (h : Respaced first second) :
    Respaced (withPackage package first) (withPackage package second) := by
  cases package with
  | none => exact h
  | some package => exact (Respaced.refl _).append h

theorem respaced_entryPoint :
    YieldsAlike Respaced (o.withWidth w₁).entryPoint (o.withWidth w₂).entryPoint :=
  (respaced_braced (.refl _)).bind fun _ _ hbody => .ok ((Respaced.refl _).append hbody)

theorem respaced_typeFile (id : NodeId) :
    YieldsAlike (Table.EntryAlike Respaced) (t.typeFile (o.withWidth w₁) id)
      (t.typeFile (o.withWidth w₂) id) := by
  unfold typeFile
  split
  · rintro _ _ ⟨⟩
  · split
    · rintro _ _ ⟨⟩
    · refine (respaced_stmtText o w₁ w₂ id).bind fun _ _ htext => ?_
      exact .ok ⟨rfl, respaced_withPackage _ htext⟩

theorem respaced_holderFile (package : Option String) (functions : List NodeId) :
    YieldsAlike (Table.EntryAlike Respaced) (t.holderFile (o.withWidth w₁) package functions)
      (t.holderFile (o.withWidth w₂) package functions) := by
  have htexts : YieldsAlike (List.Forall₂ Respaced)
      (collect functions fun function _ => t.stmtText (o.withWidth w₁) function)
      (collect functions fun function _ => t.stmtText (o.withWidth w₂) function) :=
    .collect fun function _ => respaced_stmtText o w₁ w₂ function
  refine htexts.bind fun _ _ htexts => ?_
  refine YieldsAlike.bind (R := List.Forall₂ Respaced) ?_ fun _ _ hentry => ?_
  · split
    · exact respaced_entryPoint.bind fun _ _ htext => .ok (.cons htext .nil)
    · exact .ok .nil
  · refine (respaced_braced (.intercalate _ (List.rel_append htexts hentry))).bind
      fun _ _ hbody => ?_
    exact .ok ⟨rfl, respaced_withPackage _ ((Respaced.refl _).append hbody)⟩

theorem respaced_project :
    YieldsAlike (fun files files' : Files =>
        List.Forall₂ (Table.EntryAlike Respaced) files.entries files'.entries)
      (t.project (o.withWidth w₁)) (t.project (o.withWidth w₂)) := by
  refine YieldsAlike.rfl.bind fun items _ hitems => ?_
  subst hitems
  have htypes : YieldsAlike (List.Forall₂ (Table.EntryAlike Respaced))
      (collect (items.filterMap TopLevel.type?) fun id _ => t.typeFile (o.withWidth w₁) id)
      (collect (items.filterMap TopLevel.type?) fun id _ => t.typeFile (o.withWidth w₂) id) :=
    .collect fun id _ => respaced_typeFile id
  refine htypes.bind fun _ _ htypes => ?_
  refine YieldsAlike.bind (R := List.Forall₂ (Table.EntryAlike Respaced)) ?_ fun _ _ hhosts => ?_
  · exact .collect fun holder _ => respaced_holderFile holder.1 holder.2
  · exact .ok (Table.alike_ofList (List.rel_append htypes hhosts))

theorem respaced_generate (t : Tree) (o : Options) (w₁ w₂ : Nat) :
    YieldsAlike (fun files files' : Files =>
        List.Forall₂ (Table.EntryAlike Respaced) files.entries files'.entries)
      (t.generate (o.withWidth w₁)) (t.generate (o.withWidth w₂)) := by
  have hsource : YieldsAlike Respaced (Support.source (o.withWidth w₁))
      (Support.source (o.withWidth w₂)) := by
    intro first second hfirst hsecond
    rw [eq_of_source_eq_ok hfirst, eq_of_source_eq_ok hsecond]
    exact respaced_sourceText w₁ w₂
  refine respaced_project.bind fun _ _ hfiles => ?_
  show YieldsAlike _ (if o.emitRuntime = true then _ else _) (if o.emitRuntime = true then _ else _)
  split
  · exact hsource.bind fun _ _ htext => .ok (Table.alike_insertEntry htext hfiles)
  · exact .ok hfiles

/-! ## Ends -/

theorem endsAlike_holderFile (o₁ o₂ : Options) (first second : Option String)
    (functions : List NodeId) :
    EndsAlike Halt.IsTooWide (t.holderFile o₁ first functions)
      (t.holderFile o₂ second functions) := by
  refine (EndsAlike.collect fun function _ => endsAlike_stmtText o₁ o₂ function).bind
    fun _ _ _ _ => ?_
  refine EndsAlike.bind ?_ fun _ _ _ _ => (endsAlike_braced o₁ o₂ _ _).bind_ok
  split
  · exact (endsAlike_braced o₁ o₂ _ _).bind_ok.bind_ok
  · exact .ok _ _

theorem endsAlike_generate (t : Tree) (o : Options) (w₁ w₂ : Nat) :
    EndsAlike Halt.IsTooWide (t.generate (o.withWidth w₁)) (t.generate (o.withWidth w₂)) := by
  have hproject : EndsAlike Halt.IsTooWide (t.project (o.withWidth w₁))
      (t.project (o.withWidth w₂)) := by
    refine EndsAlike.rfl.bind fun items items' h h' => ?_
    cases Except.ok.inj (h.symm.trans h')
    refine (EndsAlike.collect fun id _ => endsAlike_typeFile _ _ id).bind fun _ _ _ _ => ?_
    exact (EndsAlike.collect fun holder _ => endsAlike_holderFile _ _ _ _ _).bind_ok
  refine hproject.bind fun _ _ _ _ => ?_
  show EndsAlike _ (if o.emitRuntime = true then _ else _) (if o.emitRuntime = true then _ else _)
  split
  · refine EndsAlike.bind_ok ?_
    unfold Support.source
    split
    · split
      · exact .ok _ _
      · exact .right trivial _
    · exact .left trivial _
  · exact .ok _ _

/-- The width of a level is a matter of layout.  Under two widths of which the lines fit, the files
of a run fail in the same way, or there are files under both: at the same paths, with the same
lines up to the blanks at their beginnings and with the same first lines.  Widths fit of which five
levels are within the limit. -/
theorem generate_sameLines (t : Tree) (o : Options) (w₁ w₂ : Nat)
    (h₁ : t.generate (o.withWidth w₁) ≠ .error .tooWide)
    (h₂ : t.generate (o.withWidth w₂) ≠ .error .tooWide) :
    ((∃ files₁ files₂, t.generate (o.withWidth w₁) = .ok files₁ ∧
        t.generate (o.withWidth w₂) = .ok files₂ ∧ files₁.keys = files₂.keys ∧
        List.Forall₂ SameLines files₁.values files₂.values) ∨
      ∃ halt, t.generate (o.withWidth w₁) = .error halt ∧
        t.generate (o.withWidth w₂) = .error halt) ∧
    ∀ w, 5 * w < widthLimit → t.generate (o.withWidth w) ≠ .error .tooWide := by
  refine ⟨?_, fun w hw h => isDefect_of_generate (o := o.withWidth w) hw .tooWide h⟩
  rcases cases_of_endsAlike (endsAlike_generate t o w₁ w₂) h₁ h₂ with
    ⟨files₁, files₂, hfirst, hsecond⟩ | hfail
  · have hfiles := respaced_generate t o w₁ w₂ files₁ files₂ hfirst hsecond
    refine .inl ⟨files₁, files₂, hfirst, hsecond, Table.keys_eq_of_alike hfiles, ?_⟩
    exact (Table.values_of_alike hfiles).imp fun _ _ htext => htext.sameLines
  · exact .inr hfail

/-- A method of a class in a class, and an entry point with an empty body. -/
def nestedBlocks : Tree where
  nodes := #[
    { kind := .root [⟨1⟩, ⟨6⟩] },
    { kind := .typeDef .classType { text := "C" } [] [⟨2⟩], parent := some ⟨0⟩ },
    { kind := .typeDef .classType { text := "D" } [] [⟨3⟩], parent := some ⟨1⟩ },
    { kind := .callable .member { text := "m" } none [] (some ⟨4⟩), parent := some ⟨2⟩ },
    { kind := .block [⟨5⟩], parent := some ⟨3⟩ },
    { kind := .ret none, parent := some ⟨4⟩ },
    { kind := .callable .free { text := "main" } none [] (some ⟨7⟩), parent := some ⟨0⟩ },
    { kind := .block [], parent := some ⟨6⟩ }]
  root := ⟨0⟩
  wellFormed := wellFormed_of_ofParts (by decide)

theorem generate_sameLines_nestedBlocks :
    ∃ files₁ files₂,
      nestedBlocks.generate (Options.withWidth { emitRuntime := true } 0) = .ok files₁ ∧
      nestedBlocks.generate (Options.withWidth { emitRuntime := true } 3) = .ok files₂ ∧
      files₁.keys = files₂.keys ∧ List.Forall₂ SameLines files₁.values files₂.values ∧
      files₁.keys = [⟨"Builtins.java"⟩, ⟨"C.java"⟩, ⟨"Functions.java"⟩] := by
  have hfits : ∀ w ≤ 3,
      nestedBlocks.generate (Options.withWidth { emitRuntime := true } w) ≠ .error .tooWide := by
    intro w hw h
    refine isDefect_of_generate (o := Options.withWidth { emitRuntime := true } w) ?_ .tooWide h
    show 5 * w < widthLimit
    unfold widthLimit
    omega
  have hkeys : (nestedBlocks.generate (Options.withWidth { emitRuntime := true } 0)).toOption.map
      Table.keys = some [⟨"Builtins.java"⟩, ⟨"C.java"⟩, ⟨"Functions.java"⟩] := by decide +kernel
  obtain ⟨⟨files₁, files₂, hfirst, hsecond, hsame, hlines⟩ | ⟨halt, herror, _⟩, _⟩ :=
    generate_sameLines nestedBlocks { emitRuntime := true } 0 3 (hfits 0 (by decide))
      (hfits 3 (by decide))
  · rw [hfirst] at hkeys
    exact ⟨files₁, files₂, hfirst, hsecond, hsame, hlines, Option.some.inj hkeys⟩
  · rw [herror] at hkeys
    cases hkeys

end Tree

end Emitter
