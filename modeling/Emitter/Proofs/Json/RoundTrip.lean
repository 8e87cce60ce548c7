import Emitter.Proofs.Json.Token

/-!
# Documents read back

Reading undoes writing: `parse?_pretty` says that the pretty-printed document of a
JSON value is read as that value, for every value.

`ReadsBack layer value` is the statement for a value inside a document: the scanner
takes its lines off the front of the input and leaves the rest.  The scanner carries
a bound on its calls; as many calls as the value has characters are enough, since
every bracket, comma and colon that the writer puts pays for a call.  Lists and
objects read back when what they hold does (`ReadsBack.array`, `ReadsBack.object`),
so the whole is an induction on values.
-/

namespace Emitter.Json

attribute [local simp] prettyChars prettyItems prettyMembers

/-! ## Blanks -/

/-- What comes next is no blank. -/
def StartsToken (rest : List Char) : Prop := ∀ c ∈ rest.head?, isBlank c = false

theorem skipBlanks_of_startsToken {rest : List Char} (h : StartsToken rest) :
    skipBlanks rest = rest := by
  cases rest with
  | nil => rfl
  | cons c rest =>
    have hc : isBlank c = false := h c rfl
    simp [skipBlanks, hc]

/-- The blanks at the start of a line are skipped. -/
theorem skipBlanks_lineBreak (layer : Nat) {rest : List Char} (h : StartsToken rest) :
    skipBlanks (lineBreak layer ++ rest) = rest := by
  have hblank : ∀ c ∈ lineBreak layer, isBlank c = true := by
    intro c hc
    rcases List.mem_cons.1 hc with rfl | hc
    · rfl
    · rw [List.eq_of_mem_replicate hc]
      rfl
  rw [skipBlanks, List.dropWhile_append_of_pos hblank]
  exact skipBlanks_of_startsToken h

theorem endsNumber_lineBreak (layer : Nat) (rest : List Char) :
    EndsNumber (lineBreak layer ++ rest) := by
  intro c hc
  cases hc
  decide

theorem endsNumber_comma (rest : List Char) : EndsNumber (',' :: rest) := by
  intro c hc
  cases hc
  decide

/-! ## The first character of a value -/

/-- What a value can start with: no blank, and nothing that closes a list. -/
def StartsValue (cs : List Char) : Prop := ∃ c rest, cs = c :: rest ∧ isBlank c = false ∧ c ≠ ']'

theorem startsValue_of_isDigit {c : Char} {rest : List Char} (h : isDigit c = true) :
    StartsValue (c :: rest) := by
  refine ⟨c, rest, rfl, ?_, ?_⟩
  · cases hb : isBlank c with
    | false => rfl
    | true =>
      simp only [isBlank, Bool.or_eq_true, beq_iff_eq] at hb
      rcases hb with ((rfl | rfl) | rfl) | rfl <;> exact absurd h (by decide)
  · rintro rfl
    exact absurd h (by decide)

/-- A number starts with a digit. -/
theorem exists_repr_eq_cons (n : Nat) : ∃ c cs, n.repr.toList = c :: cs ∧ isDigit c = true := by
  cases hn : n.repr.toList with
  | nil => exact absurd hn (repr_ne_nil n)
  | cons c cs => exact ⟨c, cs, rfl, isDigit_of_mem_repr (n := n) (by rw [hn]; simp)⟩

theorem startsValue_prettyChars (layer : Nat) (value : Json) :
    StartsValue (prettyChars layer value) := by
  cases value with
  | null => exact ⟨'n', _, rfl, by decide, by decide⟩
  | bool b => cases b <;> exact ⟨_, _, rfl, by decide, by decide⟩
  | natural n =>
    obtain ⟨c, cs, hn, hc⟩ := exists_repr_eq_cons n
    rw [prettyChars, hn]
    exact startsValue_of_isDigit hc
  | decimal d =>
    rw [prettyChars, decimalChars]
    split
    · exact ⟨'-', _, rfl, by decide, by decide⟩
    · obtain ⟨c, cs, hn, hc⟩ := exists_repr_eq_cons d.digits
      rw [hn]
      exact startsValue_of_isDigit hc
  | string text =>
    obtain ⟨body, hbody, _⟩ := exists_string?_quoted text
    exact ⟨'"', body, by rw [prettyChars, hbody], by decide, by decide⟩
  | array items => cases items <;> exact ⟨'[', _, rfl, by decide, by decide⟩
  | object members => cases members <;> exact ⟨'{', _, rfl, by decide, by decide⟩

theorem StartsValue.startsToken {cs : List Char} (h : StartsValue cs) (rest : List Char) :
    StartsToken (cs ++ rest) := by
  obtain ⟨c, tail, rfl, hc, _⟩ := h
  intro d hd
  cases hd
  exact hc

/-! ## Values inside a document -/

/-- A value that the scanner takes off the front of the input, given as many calls
as it has characters. -/
def ReadsBack (layer : Nat) (value : Json) : Prop :=
  ∀ fuel rest, (prettyChars layer value).length ≤ fuel → EndsNumber rest →
    value? fuel (prettyChars layer value ++ rest) = some (value, rest)

/-- A value that starts with a digit is a number. -/
theorem value?_of_isDigit {fuel : Nat} {c : Char} {cs : List Char} (h : isDigit c = true) :
    value? (fuel + 1) (c :: cs) = unsigned? false (c :: cs) := by
  have hother : ∀ d rest, isDigit d = false → c :: cs ≠ d :: rest := by
    intro d rest hd he
    cases he
    rw [h] at hd
    cases hd
  rw [value?.eq_def]
  split
  case h_1 he => cases he
  case h_9 => rfl
  all_goals exact absurd ‹c :: cs = _› (hother _ _ (by decide))

/-- A digit at the front leaves the reading to the scanner of numbers. -/
theorem value?_of_repr {n fuel : Nat} {rest : List Char} (hfuel : 0 < fuel) :
    value? fuel (n.repr.toList ++ rest) = unsigned? false (n.repr.toList ++ rest) := by
  obtain ⟨c, cs, hn, hc⟩ := exists_repr_eq_cons n
  obtain ⟨fuel, rfl⟩ : ∃ k, fuel = k + 1 := ⟨fuel - 1, by omega⟩
  rw [hn, List.cons_append]
  exact value?_of_isDigit hc

theorem ReadsBack.natural (layer n : Nat) : ReadsBack layer (.natural n) := by
  intro fuel rest hfuel hrest
  rw [prettyChars] at hfuel ⊢
  have hpos : 0 < n.repr.toList.length := List.length_pos_of_ne_nil (repr_ne_nil n)
  rw [value?_of_repr (by omega)]
  exact unsigned?_repr n hrest

theorem ReadsBack.decimal (layer : Nat) (d : Decimal) : ReadsBack layer (.decimal d) := by
  intro fuel rest hfuel hrest
  obtain ⟨negative, n, e⟩ := d
  have hread := unsigned?_scientific negative n e hrest
  rw [prettyChars, decimalChars] at hfuel ⊢
  simp only [List.append_assoc, List.cons_append, List.length_append, List.length_cons]
    at hfuel ⊢
  obtain ⟨fuel, rfl⟩ : ∃ k, fuel = k + 1 := ⟨fuel - 1, by omega⟩
  cases negative with
  | false =>
    rw [if_neg Bool.false_ne_true, List.nil_append, value?_of_repr (by omega)]
    exact hread
  | true => exact hread

theorem ReadsBack.string (layer : Nat) (text : Option String) : ReadsBack layer (.string text) := by
  intro fuel rest hfuel _
  obtain ⟨body, hbody, hread⟩ := exists_string?_quoted text
  rw [prettyChars, hbody] at hfuel ⊢
  obtain ⟨fuel, rfl⟩ : ∃ k, fuel = k + 1 := ⟨fuel - 1, by simp at hfuel; omega⟩
  show (string? (body ++ rest)).map _ = _
  rw [hread]
  rfl

/-! ## Lists -/

theorem endsNumber_prettyItems (layer outer : Nat) (items : List Json) (rest : List Char) :
    EndsNumber (prettyItems layer items ++ (lineBreak outer ++ rest)) := by
  cases items with
  | nil => exact endsNumber_lineBreak outer rest
  | cons item items => exact endsNumber_comma _

/-- The items of a list are read up to its closing bracket. -/
theorem items?_prettyItems {layer : Nat} (outer : Nat) {items : List Json}
    (hitems : ∀ item ∈ items, ReadsBack layer item) {first : Json} (hfirst : ReadsBack layer first)
    (fuel : Nat) (rest : List Char)
    (hfuel : (prettyChars layer first).length + (prettyItems layer items).length < fuel) :
    items? fuel (prettyChars layer first ++
      (prettyItems layer items ++ (lineBreak outer ++ ']' :: rest))) =
        some (first :: items, rest) := by
  induction items generalizing first fuel with
  | nil =>
    obtain ⟨fuel, rfl⟩ : ∃ k, fuel = k + 1 := ⟨fuel - 1, by omega⟩
    have hread := hfirst fuel _ (by omega) (endsNumber_prettyItems layer outer [] (']' :: rest))
    have hclose : skipBlanks (lineBreak outer ++ ']' :: rest) = ']' :: rest :=
      skipBlanks_lineBreak outer (by intro c hc; cases hc; decide)
    rw [items?, hread]
    simp only [prettyItems, List.nil_append, Option.bind_eq_bind, Option.bind_some, hclose]
  | cons next items ih =>
    obtain ⟨fuel, rfl⟩ : ∃ k, fuel = k + 1 := ⟨fuel - 1, by omega⟩
    have hnext : ReadsBack layer next := hitems next List.mem_cons_self
    have hothers : ∀ item ∈ items, ReadsBack layer item :=
      fun item hi => hitems item (List.mem_cons_of_mem next hi)
    simp only [prettyItems, List.length_append, List.length_cons] at hfuel
    have hread := hfirst fuel _ (by omega)
      (endsNumber_prettyItems layer outer (next :: items) (']' :: rest))
    have hrest := ih hothers hnext fuel (by omega)
    rw [items?, hread]
    simp only [prettyItems, List.cons_append, List.append_assoc, Option.bind_eq_bind,
      Option.bind_some]
    have hcomma : ∀ cs, skipBlanks (',' :: cs) = ',' :: cs := fun _ => rfl
    have hline := skipBlanks_lineBreak layer ((startsValue_prettyChars layer next).startsToken
      (prettyItems layer items ++ (lineBreak outer ++ ']' :: rest)))
    simp only [hcomma, hline, hrest, Option.bind_some]
    rfl

theorem ReadsBack.array {layer : Nat} {items : List Json}
    (h : ∀ item ∈ items, ReadsBack (layer + 1) item) : ReadsBack layer (.array items) := by
  intro fuel rest hfuel _
  cases items with
  | nil =>
    rw [prettyChars] at hfuel ⊢
    obtain ⟨fuel, rfl⟩ : ∃ k, fuel = k + 1 := ⟨fuel - 1, by simp at hfuel; omega⟩
    rfl
  | cons first items =>
    rw [prettyChars] at hfuel ⊢
    simp only [List.length_append, List.length_cons] at hfuel
    obtain ⟨fuel, rfl⟩ : ∃ k, fuel = k + 1 := ⟨fuel - 1, by omega⟩
    have hread := items?_prettyItems layer (fun item hi => h item (List.mem_cons_of_mem first hi))
      (h first List.mem_cons_self) fuel rest (by omega)
    have hline := skipBlanks_lineBreak (layer + 1)
      ((startsValue_prettyChars (layer + 1) first).startsToken
        (prettyItems (layer + 1) items ++ (lineBreak layer ++ ']' :: rest)))
    simp only [List.cons_append, List.append_assoc, List.nil_append]
    rw [value?, hline]
    obtain ⟨c, cs, hc, _, hne⟩ := startsValue_prettyChars (layer + 1) first
    rw [hc] at hread ⊢
    split
    · next he => cases he; exact absurd rfl hne
    · rw [hread]
      rfl

/-! ## Objects -/

theorem endsNumber_prettyMembers (layer outer : Nat) (members : List (Option String × Json))
    (rest : List Char) : EndsNumber (prettyMembers layer members ++ (lineBreak outer ++ rest)) := by
  cases members with
  | nil => exact endsNumber_lineBreak outer rest
  | cons member members => exact endsNumber_comma _

section

variable {layer fuel : Nat} {name : Option String} {value : Json} {rest after : List Char}
  (hvalue : ReadsBack layer value) (hfuel : (prettyChars layer value).length ≤ fuel)
  (hrest : EndsNumber rest)

include hvalue hfuel hrest in
theorem value?_after_colon :
    value? fuel (skipBlanks (' ' :: (prettyChars layer value ++ rest))) = some (value, rest) := by
  have hblank : skipBlanks (' ' :: (prettyChars layer value ++ rest)) =
      prettyChars layer value ++ rest :=
    skipBlanks_of_startsToken ((startsValue_prettyChars layer value).startsToken rest)
  rw [hblank]
  exact hvalue fuel rest hfuel hrest

include hvalue hfuel hrest in
/-- The last member of an object is read up to the closing brace. -/
theorem members?_last (hclose : skipBlanks rest = '}' :: after) :
    members? (fuel + 1) (quoted name ++ ':' :: ' ' :: (prettyChars layer value ++ rest)) =
      some ([(name, value)], after) := by
  obtain ⟨body, hbody, hread⟩ := exists_string?_quoted name
  have hcolon : ∀ cs, skipBlanks (':' :: cs) = ':' :: cs := fun _ => rfl
  have hafter := value?_after_colon hvalue hfuel hrest
  rw [hbody, List.cons_append, members?, hread]
  simp only [Option.bind_eq_bind, Option.bind_some, hcolon, hafter, hclose]

include hvalue hfuel hrest in
/-- A member before a comma is read, and then the others. -/
theorem members?_next {members : List (Option String × Json)} {left : List Char}
    (hcomma : skipBlanks rest = ',' :: after)
    (hothers : members? fuel (skipBlanks after) = some (members, left)) :
    members? (fuel + 1) (quoted name ++ ':' :: ' ' :: (prettyChars layer value ++ rest)) =
      some ((name, value) :: members, left) := by
  obtain ⟨body, hbody, hread⟩ := exists_string?_quoted name
  have hcolon : ∀ cs, skipBlanks (':' :: cs) = ':' :: cs := fun _ => rfl
  have hafter := value?_after_colon hvalue hfuel hrest
  rw [hbody, List.cons_append, members?, hread]
  simp only [Option.bind_eq_bind, Option.bind_some, Option.pure_def, hcolon, hafter, hcomma,
    hothers]

end

/-- The members of an object are read up to its closing brace. -/
theorem members?_prettyMembers {layer : Nat} (outer : Nat)
    {members : List (Option String × Json)} (hmembers : ∀ m ∈ members, ReadsBack layer m.2)
    (name : Option String) {value : Json} (hvalue : ReadsBack layer value) (fuel : Nat)
    (rest : List Char)
    (hfuel : (prettyChars layer value).length + (prettyMembers layer members).length < fuel) :
    members? fuel (quoted name ++ ':' :: ' ' :: (prettyChars layer value ++
      (prettyMembers layer members ++ (lineBreak outer ++ '}' :: rest)))) =
        some ((name, value) :: members, rest) := by
  induction members generalizing name value fuel with
  | nil =>
    obtain ⟨fuel, rfl⟩ : ∃ k, fuel = k + 1 := ⟨fuel - 1, by omega⟩
    have hclose : skipBlanks (prettyMembers layer [] ++ (lineBreak outer ++ '}' :: rest)) =
        '}' :: rest :=
      skipBlanks_lineBreak outer (by intro c hc; cases hc; decide)
    exact members?_last hvalue (by omega)
      (endsNumber_prettyMembers layer outer [] ('}' :: rest)) hclose
  | cons next members ih =>
    obtain ⟨fuel, rfl⟩ : ∃ k, fuel = k + 1 := ⟨fuel - 1, by omega⟩
    obtain ⟨nextName, nextValue⟩ := next
    have hnext : ReadsBack layer nextValue := hmembers _ List.mem_cons_self
    have hothers : ∀ m ∈ members, ReadsBack layer m.2 :=
      fun m hm => hmembers m (List.mem_cons_of_mem _ hm)
    simp only [prettyMembers, List.length_append, List.length_cons] at hfuel
    have hrest := ih hothers nextName hnext fuel (by omega)
    obtain ⟨body, hbody, _⟩ := exists_string?_quoted nextName
    have hline : ∀ cs, skipBlanks (lineBreak layer ++ (quoted nextName ++ cs)) =
        quoted nextName ++ cs := by
      intro cs
      refine skipBlanks_lineBreak layer ?_
      rw [hbody]
      intro c hc
      cases hc
      decide
    have hcomma : skipBlanks (prettyMembers layer ((nextName, nextValue) :: members) ++
        (lineBreak outer ++ '}' :: rest)) = ',' :: (lineBreak layer ++ (quoted nextName ++
          ':' :: ' ' :: (prettyChars layer nextValue ++
            (prettyMembers layer members ++ (lineBreak outer ++ '}' :: rest))))) := by
      have hkeep : ∀ cs, skipBlanks (',' :: cs) = ',' :: cs := fun _ => rfl
      simp only [prettyMembers, List.cons_append, List.append_assoc, List.nil_append, hkeep]
    refine members?_next hvalue (by omega)
      (endsNumber_prettyMembers layer outer ((nextName, nextValue) :: members) ('}' :: rest))
      hcomma ?_
    rw [hline, hrest]

theorem ReadsBack.object {layer : Nat} {members : List (Option String × Json)}
    (h : ∀ m ∈ members, ReadsBack (layer + 1) m.2) : ReadsBack layer (.object members) := by
  intro fuel rest hfuel _
  cases members with
  | nil =>
    rw [prettyChars] at hfuel ⊢
    obtain ⟨fuel, rfl⟩ : ∃ k, fuel = k + 1 := ⟨fuel - 1, by simp at hfuel; omega⟩
    rfl
  | cons first members =>
    obtain ⟨name, value⟩ := first
    rw [prettyChars] at hfuel ⊢
    simp only [List.length_append, List.length_cons] at hfuel
    obtain ⟨fuel, rfl⟩ : ∃ k, fuel = k + 1 := ⟨fuel - 1, by omega⟩
    have hvalue : ReadsBack (layer + 1) value := h (name, value) List.mem_cons_self
    have hread := members?_prettyMembers layer (fun m hm => h m (List.mem_cons_of_mem _ hm)) name
      hvalue fuel rest (by omega)
    obtain ⟨body, hbody, _⟩ := exists_string?_quoted name
    simp only [List.cons_append, List.append_assoc, List.nil_append]
    rw [hbody] at hread ⊢
    have hline : ∀ cs, skipBlanks (lineBreak (layer + 1) ++ ('"' :: body ++ cs)) =
        '"' :: body ++ cs :=
      fun cs => skipBlanks_lineBreak (layer + 1) (by intro c hc; cases hc; decide)
    rw [List.cons_append] at hread
    rw [value?, hline, List.cons_append]
    split
    · next he => cases he
    · rw [hread]
      rfl

/-! ## Documents -/

/-- Every value reads back, in whatever layer it stands. -/
theorem readsBack : ∀ (value : Json) (layer : Nat), ReadsBack layer value
  | .null, _ => by
    intro fuel rest hfuel _
    obtain ⟨fuel, rfl⟩ : ∃ k, fuel = k + 1 := ⟨fuel - 1, by simp at hfuel; omega⟩
    rfl
  | .bool b, _ => by
    intro fuel rest hfuel _
    obtain ⟨fuel, rfl⟩ : ∃ k, fuel = k + 1 :=
      ⟨fuel - 1, by cases b <;> simp at hfuel <;> omega⟩
    cases b <;> rfl
  | .natural n, layer => .natural layer n
  | .decimal d, layer => .decimal layer d
  | .string text, layer => .string layer text
  | .array items, layer => .array fun item _ => readsBack item (layer + 1)
  | .object members, layer => .object fun m _ => readsBack m.2 (layer + 1)
termination_by value => sizeOf value
decreasing_by
  · have hmem := List.sizeOf_lt_of_mem ‹item ∈ items›
    simp only [array.sizeOf_spec]
    omega
  · have hmem := List.sizeOf_lt_of_mem ‹m ∈ members›
    have hvalue : sizeOf m.2 < sizeOf m := by
      cases m
      simp only [Prod.mk.sizeOf_spec]
      omega
    simp only [object.sizeOf_spec]
    omega

/-- Reading undoes writing. -/
theorem parse?_pretty (value : Json) : parse? value.pretty = some value := by
  have htoken : skipBlanks (prettyChars 0 value) = prettyChars 0 value := by
    have hstarts := (startsValue_prettyChars 0 value).startsToken []
    rw [List.append_nil] at hstarts
    exact skipBlanks_of_startsToken hstarts
  have hread := readsBack value 0 (2 * (prettyChars 0 value).length + 2) [] (by omega)
    (by intro c hc; cases hc)
  rw [List.append_nil] at hread
  rw [parse?, pretty, String.toList_ofList, htoken, hread]
  rfl

end Emitter.Json
