import Mathlib
import Emitter.Project
import Emitter.Proofs.Render.Declaration
import Emitter.Proofs.Text.Indent
import Emitter.Proofs.Tree.Loading

/-!
# References to members

A member is declared in one place and referred to in others, and each place writes the name by
itself.  `Tree.RefersBy` lists the forms of a reference that go to a known declaration: a call of
a method, a field of the receiver's class, a function of a package, and the call of `main` from
the entry point of a holder.  In each form the text around the name is given, so that the name
can be read out of the text.

* `RefersBy.eq_text`: a reference writes the name as it stands in the tree.
* `refers_as_declared_iff`: a declaration writes it under the built-in table, so the two agree
  exactly when the table leaves the name of the member as it is.

To read the name out of the entry point one has to get back from a text to what was set deeper
in it (`Options.braced_injective`).
-/

namespace Emitter

/-! ## Text that was set deeper -/

/-- What stands between braces can be read back. -/
theorem Options.braced_injective {o : Options} {first second text : String}
    (hfirst : o.braced first = .ok text) (hsecond : o.braced second = .ok text) :
    first = second := by
  have heq := (eq_of_braced hfirst).symm.trans (eq_of_braced hsecond)
  rw [String.append_left_inj, String.append_right_inj] at heq
  exact indent_injective o.indentWidth heq

/-- The last of the texts that are put together can be read back when the others are known. -/
theorem intercalate_last_injective {separator : String} {texts : List String}
    {first second : String}
    (h : separator.intercalate (texts ++ [first]) = separator.intercalate (texts ++ [second])) :
    first = second := by
  by_cases hempty : texts = []
  · subst hempty
    simpa using h
  · rw [String.intercalate_append_of_ne_nil hempty (List.cons_ne_nil _ _),
      String.intercalate_append_of_ne_nil hempty (List.cons_ne_nil _ _),
      String.append_right_inj] at h
    simpa using h

theorem withPackage_injective {package : Option String} {first second : String}
    (h : withPackage package first = withPackage package second) : first = second := by
  cases package with
  | none => exact h
  | some package => exact (String.append_right_inj _).1 h

namespace Tree

variable {t : Tree} {o : Options} {d : NodeId} {m : String}

/-! ## Forms of references -/

/-- An attribute has the name of a field of its receiver's class. -/
def NamesField (t : Tree) (id receiver d : NodeId) : Prop :=
  ∃ member type form className parameters definitions fieldType name value,
    t.kind? id = some (.attr receiver member) ∧
    t.resolution receiver = .ok type ∧
    t.kind? type = some (.typeDef form className parameters definitions) ∧
    d ∈ definitions ∧
    t.kind? d = some (.binding .field fieldType name value) ∧
    member.text = name.text

/-- An attribute has the name of a function that it resolves to, and a package before it. -/
def NamesFunction (t : Tree) (id receiver d : NodeId) : Prop :=
  ∃ member package packageName definitions name returnType params body,
    t.kind? id = some (.attr receiver member) ∧
    t.resolution receiver = .ok package ∧
    t.kind? package = some (.package packageName definitions) ∧
    t.resolution id = .ok d ∧
    t.kind? d = some (.callable .free name returnType params body) ∧
    member.text = name.text

/-- A piece of text refers to the member `d` by writing `m`. -/
inductive RefersBy (t : Tree) (o : Options) (d : NodeId) (m : String) : Prop where
  /-- A call whose callee resolves to a method is written as `(receiver).m(arguments)`. -/
  | method {namer : Namer} {expanding args params : List NodeId} {id callee receiver : NodeId}
      {name : Name} {returnType body : Option NodeId} {self : String} {texts : List String}
      (hk : t.kind? id = some (.call callee args)) (ht : t.resolution callee = .ok d)
      (hd : t.kind? d = some (.callable .member name returnType params body))
      (hr : t.receiver? callee = some receiver)
      (hself : t.exprText o namer expanding receiver = .ok self)
      (hargs : (collect args fun arg _ => t.exprText o namer expanding arg) = .ok texts)
      (htext : t.exprText o namer expanding id =
        .ok ("(" ++ self ++ ")." ++ m ++ "(" ++ ", ".intercalate texts ++ ")"))
  /-- An attribute of a class is written as `(receiver).m`. -/
  | field {namer : Namer} {expanding : List NodeId} {id receiver : NodeId} {self : String}
      (hfield : t.NamesField id receiver d)
      (hself : t.exprText o namer expanding receiver = .ok self)
      (htext : t.exprText o namer expanding id = .ok ("(" ++ self ++ ")." ++ m))
  /-- So is one that is assigned to. -/
  | target {id receiver : NodeId} {self : String} (hfield : t.NamesField id receiver d)
      (hself : t.expr o receiver = .ok self)
      (htext : t.targetText o id = .ok ("(" ++ self ++ ")." ++ m))
  /-- A function of a package is written as `package.Holder.m`. -/
  | packaged {namer : Namer} {expanding : List NodeId} {id receiver : NodeId} {self : String}
      (hfunction : t.NamesFunction id receiver d)
      (hself : t.exprText o namer expanding receiver = .ok self)
      (htext : t.exprText o namer expanding id = .ok (self ++ "." ++ o.holderType ++ "." ++ m))
  /-- The last member of a holder with a function `main` is an entry point that calls `m()`. -/
  | entry {package : Option String} {functions params : List NodeId} {file : Path × String}
      {name : Name} {returnType block : Option NodeId} {members : List String}
      {call body : String} (hfile : t.holderFile o package functions = .ok file)
      (hmem : d ∈ functions)
      (hd : t.kind? d = some (.callable .free name returnType params block))
      (hmain : name.text = "main")
      (hmembers : (collect functions fun function _ => t.stmtText o function) = .ok members)
      (hcall : o.braced (m ++ "();") = .ok call)
      (hbody : o.braced ("\n".intercalate
        (members ++ ["public static void main(String[] args) " ++ call])) = .ok body)
      (htext : file.2 = withPackage package ("public class " ++ o.holderType ++ " " ++ body))

/-! ## What references write -/

section

variable {namer : Namer} {expanding : List NodeId} {id receiver : NodeId} {self : String}
  {name : Name} (hname : (t.kind? d).bind Kind.name? = some name)

include hname

theorem exprText_of_method {callee : NodeId} {args params : List NodeId} {found : Name}
    {returnType body : Option NodeId} {texts : List String}
    (hk : t.kind? id = some (.call callee args)) (ht : t.resolution callee = .ok d)
    (hd : t.kind? d = some (.callable .member found returnType params body))
    (hr : t.receiver? callee = some receiver)
    (hself : t.exprText o namer expanding receiver = .ok self)
    (hargs : (collect args fun arg _ => t.exprText o namer expanding arg) = .ok texts) :
    t.exprText o namer expanding id =
      .ok ("(" ++ self ++ ")." ++ name.text ++ "(" ++ ", ".intercalate texts ++ ")") := by
  rw [hd] at hname
  cases hname
  rw [exprText_method hk ht hd, receiverText_of_some hr, hself, hargs]
  rfl

theorem exprText_of_namesField (h : t.NamesField id receiver d)
    (hself : t.exprText o namer expanding receiver = .ok self) :
    t.exprText o namer expanding id = .ok ("(" ++ self ++ ")." ++ name.text) := by
  obtain ⟨member, type, _, _, _, _, _, found, _, hk, ht, htype, _, hd, hmember⟩ := h
  rw [hd] at hname
  cases hname
  rw [exprText_attr hk, ← hmember]
  simp only [ht, htype, hself, bind, Except.bind]
  rfl

theorem targetText_of_namesField (h : t.NamesField id receiver d)
    (hself : t.expr o receiver = .ok self) :
    t.targetText o id = .ok ("(" ++ self ++ ")." ++ name.text) := by
  obtain ⟨member, _, _, _, _, _, _, found, _, hk, _, _, _, hd, hmember⟩ := h
  rw [hd] at hname
  cases hname
  rw [targetText, hk, ← hmember]
  simp only [hself, bind, Except.bind]
  rfl

theorem exprText_of_namesFunction (h : t.NamesFunction id receiver d)
    (hself : t.exprText o namer expanding receiver = .ok self) :
    t.exprText o namer expanding id =
      .ok (self ++ "." ++ o.holderType ++ "." ++ name.text) := by
  obtain ⟨member, package, _, _, found, _, _, _, hk, ht, hpackage, hfound, hd, hmember⟩ := h
  rw [hd] at hname
  cases hname
  rw [exprText_attr hk, ← hmember]
  simp only [ht, hpackage, hself, hfound, hd, bind, Except.bind]
  rfl

end

/-- The text of a holder with a function `main`. -/
theorem holderFile_of_isMain {package : Option String} {functions : List NodeId}
    {file : Path × String} (h : t.holderFile o package functions = .ok file) (hmem : d ∈ functions)
    (hmain : t.isMain d = true) :
    ∃ members call body,
      (collect functions fun function _ => t.stmtText o function) = .ok members ∧
      o.braced "main();" = .ok call ∧
      o.braced ("\n".intercalate
        (members ++ ["public static void main(String[] args) " ++ call])) = .ok body ∧
      file.2 = withPackage package ("public class " ++ o.holderType ++ " " ++ body) := by
  have hany : functions.any t.isMain = true := List.any_eq_true.2 ⟨d, hmem, hmain⟩
  obtain ⟨members, hmembers, h⟩ := bind_eq_ok_iff.1 h
  obtain ⟨entry, hentry, h⟩ := bind_eq_ok_iff.1 h
  obtain ⟨body, hbody, he⟩ := bind_eq_ok_iff.1 h
  rw [if_pos hany] at hentry
  obtain ⟨text, htext, hlast⟩ := bind_eq_ok_iff.1 hentry
  obtain ⟨call, hcall, hwhole⟩ := bind_eq_ok_iff.1 htext
  cases he
  cases hlast
  cases hwhole
  exact ⟨members, call, body, hmembers, hcall, hbody, rfl⟩

/-- A reference writes the name of the member as it stands. -/
theorem RefersBy.eq_text {name : Name} (h : t.RefersBy o d m)
    (hname : (t.kind? d).bind Kind.name? = some name) : m = name.text := by
  -- The text of the reference is known up to the name, and the rest of it cancels.
  have hcancel : ∀ {x : Rendered String} {front : String}, x = .ok (front ++ m) →
      x = .ok (front ++ name.text) → m = name.text := by
    intro x front hwritten hknown
    exact (String.append_right_inj front).1 (Except.ok.inj (hwritten.symm.trans hknown))
  cases h with
  | method hk ht hd hr hself hargs htext =>
    have heq := htext.symm.trans (exprText_of_method hname hk ht hd hr hself hargs)
    simpa only [Except.ok.injEq, String.append_left_inj, String.append_right_inj] using heq
  | field hfield hself htext => exact hcancel htext (exprText_of_namesField hname hfield hself)
  | target hfield hself htext => exact hcancel htext (targetText_of_namesField hname hfield hself)
  | packaged hfunction hself htext =>
    exact hcancel htext (exprText_of_namesFunction hname hfunction hself)
  | entry hfile hmem hd hmain hmembers hcall hbody htext =>
    have hisMain : t.isMain d = true := by
      rw [isMain, hd]
      simp [Kind.name?, hmain]
    rw [hd] at hname
    cases hname
    obtain ⟨members, call, body, hmembers', hcall', hbody', htext'⟩ :=
      holderFile_of_isMain hfile hmem hisMain
    cases hmembers.symm.trans hmembers'
    have hclass := withPackage_injective (htext.symm.trans htext')
    cases (String.append_right_inj _).1 hclass
    have hlast := intercalate_last_injective (Options.braced_injective hbody hbody')
    cases (String.append_right_inj _).1 hlast
    have hsame : m ++ "();" = "main" ++ "();" := Options.braced_injective hcall hcall'
    rw [hmain]
    exact (String.append_left_inj _).1 hsame

/-- A member is referred to as it is declared exactly when the built-in table leaves its name
as it is. -/
theorem refers_as_declared_iff {identifier : String} {name : Name}
    (hname : (t.kind? d).bind Kind.name? = some name) (hrefers : t.RefersBy o d m)
    (hdeclared : t.DeclaredAs o d identifier) :
    m = identifier ↔ o.namer.name name = name.text := by
  rw [hrefers.eq_text hname, hdeclared.eq_name hname, eq_comm]

/-- A class with a field and a method, a package with two functions, and references to them in
another method. -/
def memberUses : Tree where
  nodes := #[
    { kind := .root [⟨1⟩, ⟨4⟩] },
    { kind := .typeDef .classType { text := "C" } [] [⟨2⟩, ⟨3⟩, ⟨7⟩], parent := some ⟨0⟩ },
    { kind := .binding .field ⟨5⟩ { text := "count" } none, parent := some ⟨1⟩ },
    { kind := .callable .member { text := "bump" } none [] none, parent := some ⟨1⟩ },
    { kind := .package { text := "p" } [⟨6⟩, ⟨8⟩], parent := some ⟨0⟩ },
    { kind := .typeRef [{ text := "int" }] [], parent := some ⟨2⟩ },
    { kind := .callable .free { text := "helper" } none [] none, parent := some ⟨4⟩ },
    { kind := .callable .member { text := "run" } none [⟨9⟩] (some ⟨11⟩), parent := some ⟨1⟩ },
    { kind := .callable .free { text := "main" } none [] none, parent := some ⟨4⟩ },
    { kind := .binding .plain ⟨10⟩ { text := "c" } none, parent := some ⟨7⟩ },
    { kind := .typeRef [{ text := "C" }] [], parent := some ⟨9⟩ },
    { kind := .block [⟨12⟩, ⟨16⟩, ⟨19⟩], parent := some ⟨7⟩ },
    { kind := .exprStmt ⟨13⟩, parent := some ⟨11⟩ },
    { kind := .call ⟨14⟩ [], parent := some ⟨12⟩ },
    { kind := .attr ⟨15⟩ { text := "bump" }, parent := some ⟨13⟩, resolved := some ⟨3⟩ },
    { kind := .var { text := "c" } (some ⟨9⟩), parent := some ⟨14⟩, resolved := some ⟨1⟩ },
    { kind := .exprStmt ⟨17⟩, parent := some ⟨11⟩ },
    { kind := .attr ⟨18⟩ { text := "count" }, parent := some ⟨16⟩ },
    { kind := .var { text := "c" } (some ⟨9⟩), parent := some ⟨17⟩, resolved := some ⟨1⟩ },
    { kind := .exprStmt ⟨20⟩, parent := some ⟨11⟩ },
    { kind := .attr ⟨21⟩ { text := "helper" }, parent := some ⟨19⟩, resolved := some ⟨6⟩ },
    { kind := .var { text := "p" } (some ⟨4⟩), parent := some ⟨20⟩, resolved := some ⟨4⟩ }]
  root := ⟨0⟩
  wellFormed := wellFormed_of_ofParts (by decide)

/-- The members of the tree and their names. -/
def memberNames : List (NodeId × String) :=
  [(⟨2⟩, "count"), (⟨3⟩, "bump"), (⟨6⟩, "helper"), (⟨8⟩, "main")]

/-- The method and the entry point write the names as they stand, under all options. -/
theorem refers_memberUses (o : Options) {file : Path × String}
    (hfile : memberUses.holderFile o (some "p") [⟨6⟩, ⟨8⟩] = .ok file) :
    ∀ entry ∈ memberNames, memberUses.RefersBy o entry.1 entry.2 := by
  have hvar : ∀ id, memberUses.kind? id = some (.var { text := "c" } (some ⟨9⟩)) →
      memberUses.exprText o o.namer [] id = .ok (o.namer.name { text := "c" }) := by
    intro id hk
    rw [exprText_var hk]
    rfl
  have hpackage : memberUses.exprText o o.namer [] ⟨21⟩ = .ok (o.namer.name { text := "p" }) := by
    have hk : memberUses.kind? ⟨21⟩ = some (.var { text := "p" } (some ⟨4⟩)) := rfl
    rw [exprText_var hk]
    rfl
  have hfield : memberUses.NamesField ⟨17⟩ ⟨18⟩ ⟨2⟩ :=
    ⟨_, ⟨1⟩, _, _, _, _, _, _, _, rfl, rfl, rfl, List.mem_cons_self, rfl, rfl⟩
  have hfunction : memberUses.NamesFunction ⟨20⟩ ⟨21⟩ ⟨6⟩ :=
    ⟨_, ⟨4⟩, _, _, _, _, _, _, rfl, rfl, rfl, rfl, rfl, rfl⟩
  simp only [memberNames, List.forall_mem_cons, List.not_mem_nil, false_imp_iff, implies_true,
    and_true]
  refine ⟨?_, ?_, ?_, ?_⟩
  · have hself := hvar ⟨18⟩ rfl
    exact .field hfield hself (exprText_of_namesField rfl hfield hself)
  · have hself := hvar ⟨15⟩ rfl
    have hk : memberUses.kind? ⟨13⟩ = some (.call ⟨14⟩ []) := rfl
    have ht : memberUses.resolution ⟨14⟩ = .ok ⟨3⟩ := rfl
    have hd : memberUses.kind? ⟨3⟩ = some (.callable .member { text := "bump" } none [] none) := rfl
    have hr : memberUses.receiver? ⟨14⟩ = some ⟨15⟩ := rfl
    have hargs : (collect [] fun arg _ => memberUses.exprText o o.namer [] arg) = .ok [] := rfl
    have hname : (memberUses.kind? ⟨3⟩).bind Kind.name? = some { text := "bump" } := rfl
    exact .method hk ht hd hr hself hargs (exprText_of_method hname hk ht hd hr hself hargs)
  · exact .packaged hfunction hpackage (exprText_of_namesFunction rfl hfunction hpackage)
  · have hmem : (⟨8⟩ : NodeId) ∈ [(⟨6⟩ : NodeId), ⟨8⟩] := by decide
    obtain ⟨members, call, body, hmembers, hcall, hbody, htext⟩ :=
      holderFile_of_isMain hfile hmem rfl
    exact .entry hfile hmem rfl rfl hmembers hcall hbody htext

/-- Each member is named, and declared under the built-in table where it comes out. -/
theorem declaredAs_memberUses (o : Options) {entry : NodeId × String} (hentry : entry ∈ memberNames)
    (hrenders : (memberUses.stmtText o entry.1).toOption.isSome = true) :
    (memberUses.kind? entry.1).bind Kind.name? = some { text := entry.2 } ∧
      memberUses.DeclaredAs o entry.1 (o.namer.write entry.2) := by
  have hkinds : ∀ entry ∈ memberNames, (memberUses.kind? entry.1).any
      (fun kind => kind.isDeclaration ∧ kind.name? = some { text := entry.2 }) = true := by
    decide
  obtain ⟨kind, hk, hfacts⟩ := (Option.any_eq_true _ _).1 (hkinds entry hentry)
  obtain ⟨hdeclares, hname⟩ := of_decide_eq_true hfacts
  obtain ⟨text, htext⟩ := Option.isSome_iff_exists.1 hrenders
  have hdeclared := declaredAs_of_stmtText hk hdeclares hname (eq_ok_of_toOption htext)
  exact ⟨by rw [hk, Option.bind_some, hname], hdeclared⟩

/-- Under the default options each member is referred to as it is declared. -/
theorem refers_as_declared_memberUses :
    memberNames.Forall fun entry => ∃ m identifier, memberUses.RefersBy {} entry.1 m ∧
      memberUses.DeclaredAs {} entry.1 identifier ∧ m = identifier := by
  have hfile : (memberUses.holderFile {} (some "p") [⟨6⟩, ⟨8⟩]).toOption.isSome = true := by
    decide +kernel
  have hrenders : (memberNames.all fun entry =>
      (memberUses.stmtText {} entry.1).toOption.isSome) = true := by
    cbv
  have hkept : ∀ entry ∈ memberNames, (Options.namer {}).write entry.2 = entry.2 := by
    decide +kernel
  obtain ⟨file, hfile⟩ := Option.isSome_iff_exists.1 hfile
  refine List.forall_iff_forall_mem.2 fun entry hentry => ?_
  have hrefers := refers_memberUses {} (eq_ok_of_toOption hfile) entry hentry
  obtain ⟨hname, hdeclared⟩ :=
    declaredAs_memberUses {} hentry (List.all_eq_true.1 hrenders entry hentry)
  exact ⟨_, _, hrefers, hdeclared,
    (refers_as_declared_iff hname hrefers hdeclared).2 (hkept entry hentry)⟩

/-- A built-in table with the names of members. -/
def renamedMembers : Options :=
  { builtins := Table.ofList [("count", "size"), ("bump", "increment"), ("helper", "assist"),
      ("main", "start")] }

/-- Where the built-in table has the names of the members, none of the references writes the
identifier that was declared. -/
theorem refers_unlike_declared_memberUses :
    memberNames.Forall fun entry => ∃ m identifier, memberUses.RefersBy renamedMembers entry.1 m ∧
      memberUses.DeclaredAs renamedMembers entry.1 identifier ∧ m ≠ identifier := by
  have hfile : (memberUses.holderFile renamedMembers (some "p") [⟨6⟩, ⟨8⟩]).toOption.isSome =
      true := by
    decide +kernel
  have hrenders : (memberNames.all fun entry =>
      (memberUses.stmtText renamedMembers entry.1).toOption.isSome) = true := by
    cbv
  have hchanged : ∀ entry ∈ memberNames, entry.2 ≠ renamedMembers.namer.write entry.2 := by
    decide +kernel
  obtain ⟨file, hfile⟩ := Option.isSome_iff_exists.1 hfile
  refine List.forall_iff_forall_mem.2 fun entry hentry => ?_
  have hrefers := refers_memberUses renamedMembers (eq_ok_of_toOption hfile) entry hentry
  obtain ⟨_, hdeclared⟩ :=
    declaredAs_memberUses renamedMembers hentry (List.all_eq_true.1 hrenders entry hentry)
  exact ⟨_, _, hrefers, hdeclared, hchanged entry hentry⟩

end Tree

end Emitter
