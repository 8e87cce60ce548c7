import Emitter.Proofs.Project.Walk
import Emitter.Proofs.Tree.Root

/-!
# Package names from above

`Namer.package` reads the packages around a node off the way up.  The walk of a tree meets the
same packages on its way down.  This module says that the two agree.

* `LeadsTo` is a way down from owner to child.  Below a node without owner there is one way to
  each node, the way up read backwards (`LeadsTo.eq_reverse_ancestors`), so the name of a package
  can be read off the way down (`package_of_leadsTo`).
* `Descends` is the way of the walk, which opens packages and nothing else.  What the walk
  collects is reached by it (`exists_descends_of_mem_walk`), and it is a way down on which the
  opened packages are the only ones (`Descends.exists_leadsTo`).

The root has to be without owner.  Loading does not see to that, and where a package beside the
tree lists the root, that package is on every way up and on no way down.
-/

namespace Emitter

/-- The definition that a top-level item stands for. -/
def TopLevel.id : TopLevel → NodeId
  | type id => id
  | function id => id

/-- The dotted name of packages, outermost first; none without a package. -/
def Namer.dotted (namer : Namer) : List Name → Option String
  | [] => none
  | packages => some (".".intercalate (packages.map namer.name))

theorem Namer.dotted_eq_none_iff {namer : Namer} {packages : List Name} :
    namer.dotted packages = none ↔ packages = [] := by
  cases packages <;> simp [dotted]

namespace Tree

variable {t : Tree} {namer : Namer} {top id : NodeId}

/-! ## Packages on a way -/

/-- The name of a package. -/
def packageName? (t : Tree) (id : NodeId) : Option Name :=
  match t.kind? id with
  | some (.package name _) => some name
  | _ => none

/-- The names of the packages among some nodes. -/
def packagesOn (t : Tree) (path : List NodeId) : List Name := path.filterMap t.packageName?

theorem packageName?_eq_none_iff :
    t.packageName? id = none ↔
      ∀ name definitions, t.kind? id ≠ some (.package name definitions) := by
  unfold packageName?
  split
  · next hk => simp [hk]
  · next hother => simpa using hother

theorem packageName?_root (t : Tree) : t.packageName? t.root = none := by
  obtain ⟨node, definitions, hnode, hkind⟩ := t.wellFormed.rooted
  have hk : t.kind? t.root = some (.root definitions) := kind?_eq_some_iff.2 ⟨node, hnode, hkind⟩
  rw [packageName?, hk]

/-- The way up has the packages innermost first. -/
theorem package_eq_dotted :
    namer.package t id = namer.dotted (t.packagesOn (t.ancestors id)).reverse := by
  have hsegments : namer.enclosing t id = (t.packagesOn (t.ancestors id)).map namer.name := by
    unfold Namer.enclosing packagesOn
    rw [List.map_filterMap]
    congr 1
    funext node
    split
    · next hk =>
      rw [packageName?, hk]
      rfl
    · next hother =>
      rw [packageName?_eq_none_iff.2 hother]
      rfl
  unfold Namer.package
  rw [hsegments]
  cases t.packagesOn (t.ancestors id) with
  | nil => rfl
  | cons first rest =>
    show some (".".intercalate ((first :: rest).map namer.name).reverse) = _
    have hne : (first :: rest).reverse ≠ [] := by simp
    obtain ⟨outer, inner, hreverse⟩ := List.exists_cons_of_ne_nil hne
    rw [← List.map_reverse, hreverse]
    rfl

/-! ## Ways down -/

/-- A list of nodes goes down from one node to another, each the owner of the next. -/
structure LeadsTo (t : Tree) (top id : NodeId) (path : List NodeId) : Prop where
  first : path.head? = some top
  last : path.getLast? = some id
  owns : path.IsChain t.nodes.Owns

theorem LeadsTo.single (t : Tree) (id : NodeId) : t.LeadsTo id id [id] :=
  ⟨rfl, rfl, List.isChain_singleton id⟩

/-- A way down goes on to a child of its last node. -/
theorem LeadsTo.tail {child : NodeId} {path : List NodeId} (h : t.LeadsTo top id path)
    (howns : t.nodes.Owns id child) : t.LeadsTo top child (path ++ [child]) where
  first := by rw [List.head?_append, h.first, Option.some_or]
  last := by simp
  owns := by
    refine List.isChain_append.2 ⟨h.owns, List.isChain_singleton child, ?_⟩
    intro last hlast next hnext
    rw [h.last] at hlast
    cases hlast
    cases hnext
    exact howns

theorem exists_leadsTo_of_below (h : t.Below top id) : ∃ path, t.LeadsTo top id path := by
  induction h with
  | refl => exact ⟨[top], .single t top⟩
  | tail _ howns ih =>
    obtain ⟨path, hpath⟩ := ih
    exact ⟨_, hpath.tail howns⟩

/-- Below a node without owner, the way down is the way up read backwards. -/
theorem LeadsTo.eq_reverse_ancestors {path : List NodeId} (htop : t.parent? top = none)
    (h : t.LeadsTo top id path) : path = (t.ancestors id).reverse := by
  induction path using List.reverseRecOn generalizing id with
  | nil => cases h.first
  | append_singleton path last ih =>
    have hlast : last = id := by simpa using h.last
    subst hlast
    cases hend : path.getLast? with
    | none =>
      rw [List.getLast?_eq_none_iff] at hend
      subst hend
      have htop' : last = top := by simpa using h.first
      rw [htop', ancestors_of_parent?_none htop]
      rfl
    | some owner =>
      obtain ⟨howns, _, hstep⟩ := List.isChain_append.1 h.owns
      have hne : path ≠ [] := by
        rintro rfl
        cases hend
      have hfirst : path.head? = some top := by
        rw [← h.first, List.head?_append_of_ne_nil _ hne]
      have hparent : t.parent? last = some owner :=
        parent?_of_mem_children (hstep owner hend last rfl)
      rw [ih ⟨hfirst, hend, howns⟩, ancestors_of_parent?_some hparent, List.reverse_cons]

/-- So the name of a package can be read off the way down. -/
theorem package_of_leadsTo {path : List NodeId} (htop : t.parent? top = none)
    (h : t.LeadsTo top id path) : namer.package t id = namer.dotted (t.packagesOn path) := by
  have hpath := h.eq_reverse_ancestors htop
  rw [package_eq_dotted, hpath, packagesOn, packagesOn, List.filterMap_reverse]

/-! ## The way of the walk -/

/-- The walk gets to a definition by opening packages, outermost first. -/
inductive Descends (t : Tree) : List Name → NodeId → Prop where
  | top {id : NodeId} (h : id ∈ t.rootDefinitions) : Descends t [] id
  | inner {via : List Name} {package id : NodeId} {name : Name} {definitions : List NodeId}
      (h : Descends t via package) (hk : t.kind? package = some (.package name definitions))
      (hd : id ∈ definitions) : Descends t (via ++ [name]) id

/-- The walk takes a way down from the root, on which it opens every package. -/
theorem Descends.exists_leadsTo {via : List Name} (h : t.Descends via id) :
    ∃ path, t.LeadsTo t.root id path ∧ t.packagesOn path = via ++ (t.packageName? id).toList := by
  induction h with
  | @top id h =>
    refine ⟨_, (LeadsTo.single t t.root).tail h, ?_⟩
    cases hname : t.packageName? id <;> simp [packagesOn, packageName?_root, hname]
  | @inner via package id name definitions _ hk hd ih =>
    obtain ⟨path, hpath, hpackages⟩ := ih
    refine ⟨_, hpath.tail (mem_children_of_kind? hk hd), ?_⟩
    have hname : t.packageName? package = some name := by rw [packageName?, hk]
    rw [hname] at hpackages
    rw [packagesOn, List.filterMap_append, ← packagesOn, hpackages]
    cases hinner : t.packageName? id <;> simp [hinner]

/-- The walk of a definition goes on from the definition. -/
theorem exists_descends_of_mem_walkAt {via : List Name} (h : t.Descends via top)
    (hid : id ∈ t.walkAt top) : ∃ inner, t.Descends inner id := by
  induction top using induction_below (t := t) generalizing via with
  | step top ih =>
    rcases t.walkAt_cases top with ⟨name, definitions, hk⟩ | hself
    · obtain ⟨definition, hd, hid⟩ := (mem_walkAt_package hk).1 hid
      exact ih _ definition hk hd (h.inner hk hd) hid
    · rw [hself, List.mem_singleton] at hid
      exact ⟨via, hid ▸ h⟩

theorem exists_descends_of_mem_walk (h : id ∈ t.walk) : ∃ via, t.Descends via id := by
  rw [walk, ← List.flatMap_def, List.mem_flatMap] at h
  obtain ⟨definition, hd, hid⟩ := h
  exact exists_descends_of_mem_walkAt (.top hd) hid

/-- An item is a definition of the walk, and not a package. -/
theorem mem_walk_of_topLevel {items : List TopLevel} {item : TopLevel}
    (h : t.topLevel = .ok items) (hitem : item ∈ items) :
    item.id ∈ t.walk ∧ t.packageName? item.id = none := by
  rw [topLevel_eq h] at hitem
  obtain ⟨id, hid, hsome⟩ := List.mem_filterMap.1 hitem
  have hkind : ∀ test : Kind → Bool,
      (∀ name definitions, test (.package name definitions) = false) →
      (t.kind? id).any test = true → t.packageName? id = none := by
    intro test hpackage hany
    rw [packageName?_eq_none_iff]
    intro name definitions hk
    rw [hk, Option.any_some, hpackage] at hany
    cases hany
  unfold item? at hsome
  split at hsome
  · next htype =>
    cases hsome
    exact ⟨hid, hkind Kind.isTypeDef (fun _ _ => rfl) htype⟩
  · split at hsome
    · next hfunction =>
      cases hsome
      exact ⟨hid, hkind Kind.isFunction (fun _ _ => rfl) hfunction⟩
    · cases hsome

/-- In a tree whose root has no owner, the name of the packages around a node is that of the
packages on the one way down from the root, and around what the walk collects it is that of the
packages which the walk opened to get there. -/
theorem package_eq_dotted_descent (t : Tree) (builtins : Substitutions)
    (hroot : t.parent? t.root = none) :
    (∀ id, t.Below t.root id →
      (∃! path, t.LeadsTo t.root id path) ∧
      ∀ path, t.LeadsTo t.root id path →
        Namer.package { builtins } t id = Namer.dotted { builtins } (t.packagesOn path) ∧
        (Namer.package { builtins } t id = none ↔
          ∀ node ∈ path, ∀ name definitions, t.kind? node ≠ some (.package name definitions))) ∧
    ∀ items, t.topLevel = .ok items → ∀ item ∈ items,
      (∃! via, t.Descends via item.id) ∧
      ∀ via, t.Descends via item.id →
        Namer.package { builtins } t item.id = Namer.dotted { builtins } via := by
  refine ⟨fun id hbelow => ⟨?_, fun path hpath => ?_⟩, fun items hitems item hitem => ?_⟩
  · obtain ⟨path, hpath⟩ := exists_leadsTo_of_below hbelow
    refine ⟨path, hpath, fun other hother => ?_⟩
    rw [hother.eq_reverse_ancestors hroot, hpath.eq_reverse_ancestors hroot]
  · have hpackage : Namer.package { builtins } t id =
        Namer.dotted { builtins } (t.packagesOn path) := package_of_leadsTo hroot hpath
    refine ⟨hpackage, ?_⟩
    rw [hpackage, Namer.dotted_eq_none_iff, packagesOn, List.filterMap_eq_nil_iff]
    simp only [packageName?_eq_none_iff]
  · obtain ⟨hwalk, hname⟩ := mem_walk_of_topLevel hitems hitem
    have hway : ∀ via, t.Descends via item.id →
        ∃ path, t.LeadsTo t.root item.id path ∧ t.packagesOn path = via := by
      intro via hvia
      obtain ⟨path, hpath, hpackages⟩ := hvia.exists_leadsTo
      rw [hname, Option.toList_none, List.append_nil] at hpackages
      exact ⟨path, hpath, hpackages⟩
    refine ⟨?_, fun via hvia => ?_⟩
    · obtain ⟨via, hvia⟩ := exists_descends_of_mem_walk hwalk
      refine ⟨via, hvia, fun other hother => ?_⟩
      obtain ⟨path, hpath, rfl⟩ := hway via hvia
      obtain ⟨path', hpath', rfl⟩ := hway other hother
      rw [hpath'.eq_reverse_ancestors hroot, hpath.eq_reverse_ancestors hroot]
    · obtain ⟨path, hpath, rfl⟩ := hway via hvia
      exact package_of_leadsTo hroot hpath

/-- A method of a class in two packages, and a function in the outer one. -/
def packagedMethod : Tree where
  nodes := #[
    { kind := .root [⟨1⟩] },
    { kind := .package { text := "a" } [⟨2⟩, ⟨5⟩], parent := some ⟨0⟩ },
    { kind := .package { text := "b" } [⟨3⟩], parent := some ⟨1⟩ },
    { kind := .typeDef .classType { text := "C" } [] [⟨4⟩], parent := some ⟨2⟩ },
    { kind := .callable .member { text := "m" } none [] none, parent := some ⟨3⟩ },
    { kind := .callable .free { text := "f" } none [] none, parent := some ⟨1⟩ }]
  root := ⟨0⟩
  wellFormed := wellFormed_of_ofParts (by decide)

/-- The inner package is written as two parts, around the method and around the class. -/
theorem package_eq_dotted_descent_packagedMethod :
    packagedMethod.parent? packagedMethod.root = none ∧
    packagedMethod.LeadsTo ⟨0⟩ ⟨4⟩ [⟨0⟩, ⟨1⟩, ⟨2⟩, ⟨3⟩, ⟨4⟩] ∧
    Namer.package { builtins := Table.ofList [("b", "x.y")] } packagedMethod ⟨4⟩ = some "a.x.y" ∧
    packagedMethod.topLevel.toOption = some [.type ⟨3⟩, .function ⟨5⟩] ∧
    packagedMethod.Descends [{ text := "a" }, { text := "b" }] ⟨3⟩ ∧
    Namer.package { builtins := Table.ofList [("b", "x.y")] } packagedMethod ⟨3⟩ =
      some "a.x.y" := by
  have hroot : packagedMethod.parent? packagedMethod.root = none := by decide
  have howns : ∀ owner child, child ∈ packagedMethod.children owner →
      packagedMethod.nodes.Owns owner child := fun _ _ h => h
  have hclass : packagedMethod.LeadsTo ⟨0⟩ ⟨3⟩ [⟨0⟩, ⟨1⟩, ⟨2⟩, ⟨3⟩] :=
    (((LeadsTo.single packagedMethod ⟨0⟩).tail (howns _ ⟨1⟩ (by decide))).tail
      (howns _ ⟨2⟩ (by decide))).tail (howns _ ⟨3⟩ (by decide))
  have hmethod := hclass.tail (howns ⟨3⟩ ⟨4⟩ (by decide))
  have hbelow : packagedMethod.Below ⟨0⟩ ⟨4⟩ :=
    (((Relation.ReflTransGen.single (howns ⟨0⟩ ⟨1⟩ (by decide))).tail
      (howns _ ⟨2⟩ (by decide))).tail (howns _ ⟨3⟩ (by decide))).tail (howns _ ⟨4⟩ (by decide))
  have hitems : packagedMethod.topLevel.toOption = some [.type ⟨3⟩, .function ⟨5⟩] := by
    decide +kernel
  have houter : packagedMethod.kind? ⟨1⟩ = some (.package { text := "a" } [⟨2⟩, ⟨5⟩]) := rfl
  have hinner : packagedMethod.kind? ⟨2⟩ = some (.package { text := "b" } [⟨3⟩]) := rfl
  have hvia : packagedMethod.Descends [{ text := "a" }, { text := "b" }] ⟨3⟩ :=
    ((Descends.top List.mem_cons_self).inner houter List.mem_cons_self).inner hinner
      List.mem_cons_self
  obtain ⟨hbelowRoot, hwalk⟩ :=
    package_eq_dotted_descent packagedMethod (Table.ofList [("b", "x.y")]) hroot
  have hclassPackage := (hwalk _ (eq_ok_of_toOption hitems) (.type ⟨3⟩) List.mem_cons_self).2 _ hvia
  have hmethodPackage := ((hbelowRoot ⟨4⟩ hbelow).2 _ hmethod).1
  exact ⟨hroot, hmethod, hmethodPackage.trans (by decide +kernel), hitems, hvia,
    hclassPackage.trans (by decide +kernel)⟩

end Tree

end Emitter
