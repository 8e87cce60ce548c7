import Mathlib.Data.List.Nodup
import Mathlib.Data.List.TakeWhile
import Emitter.Config.Document
import Emitter.Proofs.Json.Token
import Emitter.Proofs.Toml.Quoted

/-!
# Lines and tables read back

A document is a list of lines, and each line that the writer makes is read as what
it says.

* `Denotes`: a text is read as a value at the end of a line.  Written strings,
  numbers below the limit and the two truth values do.
* `Says`: the lines that a document says.  One lemma puts one line in front:
  `Says.entry`, `Says.emptyLine` and `Says.header`; `Says.texts` is the run over a
  table of strings.
* `fill_entries`: new keys are added to the table that the latest header opened, in
  the order in which they stand.
-/

namespace Emitter.Toml

/-! ## Blanks -/

/-- The input does not start with a blank. -/
def Solid (cs : List Char) : Prop := ∀ c ∈ cs.head?, isBlank c = false

theorem skipBlanks_of_solid {cs : List Char} (h : Solid cs) : skipBlanks cs = cs := by
  cases cs with
  | nil => rfl
  | cons c cs => exact List.dropWhile_cons_of_neg (by simp [h c rfl])

theorem skipBlanks_blank (cs : List Char) : skipBlanks (' ' :: cs) = skipBlanks cs := rfl

/-! ## Numbers -/

/-- A line break ends a run of scalar characters. -/
theorem takeWhile_isScalarChar {run : List Char} (hrun : ∀ c ∈ run, isScalarChar c = true)
    (rest : List Char) :
    (run ++ '\n' :: rest).takeWhile isScalarChar = run ∧
      (run ++ '\n' :: rest).dropWhile isScalarChar = '\n' :: rest := by
  rw [List.takeWhile_append_of_pos hrun, List.dropWhile_append_of_pos hrun]
  exact ⟨List.append_nil run, rfl⟩

/-- A scalar at the end of a line is classified as a whole. -/
theorem readScalar?_break {run : List Char} (hrun : ∀ c ∈ run, isScalarChar c = true)
    (rest : List Char) :
    readScalar? (run ++ '\n' :: rest) = (scalar? run).map fun value => (value, '\n' :: rest) := by
  obtain ⟨htake, hdrop⟩ := takeWhile_isScalarChar hrun rest
  rw [readScalar?, htake, hdrop]
  simp only
  split
  · next heq => cases heq
  · cases scalar? run <;> rfl

section Digits

variable {n : Nat}

theorem isDigit_of_mem_repr {c : Char} (h : c ∈ n.repr.toList) : isDigit c = true :=
  Json.isDigit_of_mem_repr h

theorem notMem_repr {c : Char} (h : isDigit c = false) : c ∉ n.repr.toList := by
  intro hc
  rw [isDigit_of_mem_repr hc] at h
  cases h

/-- A text with a character other than a digit is not that of a number. -/
theorem repr_ne {c : Char} {cs : List Char} (hc : c ∈ cs) (h : isDigit c = false) :
    n.repr.toList ≠ cs := fun heq => notMem_repr h (heq ▸ hc)

theorem digitValue?_of_isDigit {c : Char} (h : isDigit c = true) :
    digitValue? 10 c = some (c.toNat - 48) := by
  have hrange : '0' ≤ c ∧ c ≤ '9' := of_decide_eq_true h
  have hlow : 48 ≤ c.toNat := hrange.1
  have hhigh : c.toNat ≤ 57 := hrange.2
  rw [digitValue?]
  simp only [if_pos hrange]
  rw [if_pos (by omega)]

theorem valueOf_repr : valueOf 10 n.repr.toList = n := by
  have hdigits : valueOf 10 n.repr.toList = Decimal.ofDigits n.repr.toList := by
    unfold valueOf Decimal.ofDigits
    refine List.foldl_ext _ _ 0 fun value c hc => ?_
    rw [digitValue?_of_isDigit (isDigit_of_mem_repr hc), Option.getD_some]
  rw [hdigits, Json.ofDigits_repr]

theorem plainDigits?_repr : plainDigits? 10 n.repr.toList = some n.repr.toList := by
  have hsplit : n.repr.toList.splitOn '_' = [n.repr.toList] :=
    List.splitOn_eq_singleton (notMem_repr (by decide))
  have hdigits : ∀ c ∈ n.repr.toList, (digitValue? 10 c).isSome = true := fun c hc => by
    rw [digitValue?_of_isDigit (isDigit_of_mem_repr hc), Option.isSome_some]
  rw [plainDigits?, hsplit]
  simp only [List.all_cons, List.all_nil, Bool.and_true, List.flatten_singleton]
  rw [if_pos]
  rw [Bool.and_eq_true, List.all_eq_true]
  exact ⟨by simp, hdigits⟩

theorem wholeDigits?_repr : wholeDigits? n.repr.toList = some n.repr.toList := by
  rw [wholeDigits?, plainDigits?_repr]
  simp only [Option.bind_eq_bind, Option.bind_some]
  split
  · next heq =>
    by_cases hn : n = 0
    · subst hn
      cases heq
    · exact absurd (by rw [heq]; rfl) (Json.head?_repr_ne (by omega))
  · rfl

theorem signed_repr : signed n.repr.toList = (false, n.repr.toList) := by
  rw [signed.eq_def]
  split
  · next heq => exact absurd heq (repr_ne List.mem_cons_self (by decide))
  · next heq => exact absurd heq (repr_ne List.mem_cons_self (by decide))
  · rfl

theorem date?_repr : date? n.repr.toList = none := by
  rw [date?.eq_def]
  split
  · next heq => exact absurd heq (repr_ne (c := '-') (by simp) (by decide))
  · rfl

theorem moment?_repr : moment? n.repr.toList = none := by
  have htime : time? n.repr.toList = none := by
    rw [time?.eq_def]
    split
    · next heq => exact absurd heq (repr_ne (c := ':') (by simp) (by decide))
    · rfl
  rw [moment?, date?_repr]
  simp only [htime]
  rfl

/-- Digits without a point and without an exponent are no float. -/
theorem float?_repr : float? n.repr.toList = none := by
  have hmarks : ∀ c ∈ n.repr.toList, (!(c == 'e' || c == 'E')) = true := by
    intro c hc
    have hlower : c ≠ 'e' := fun h => notMem_repr (by decide) (h ▸ hc)
    have hupper : c ≠ 'E' := fun h => notMem_repr (by decide) (h ▸ hc)
    simp [hlower, hupper]
  have hpoint : ∀ c ∈ n.repr.toList, decide (c ≠ '.') = true := fun c hc =>
    decide_eq_true fun h => notMem_repr (by decide) (h ▸ hc)
  have hinf : n.repr.toList ≠ "inf".toList := repr_ne (c := 'n') (by decide) (by decide)
  have hnan : n.repr.toList ≠ "nan".toList := repr_ne (c := 'n') (by decide) (by decide)
  rw [float?, signed_repr]
  simp only [hinf, hnan, or_self, if_false, List.takeWhile_eq_self_iff.2 hmarks,
    List.dropWhile_eq_nil_iff.2 hmarks, List.takeWhile_eq_self_iff.2 hpoint,
    List.dropWhile_eq_nil_iff.2 hpoint, wholeDigits?_repr]
  rfl

theorem bounded?_of_lt (hn : n < integerLimit) : bounded? n = some (.integer n) := by
  have hbounds : -(integerLimit : Int) ≤ n ∧ (n : Int) < integerLimit :=
    ⟨by omega, Int.ofNat_lt.2 hn⟩
  rw [bounded?, if_pos hbounds]

/-- Digits are an integer in decimal notation. -/
theorem integer?_repr (hn : n < integerLimit) : integer? n.repr.toList = some (.integer n) := by
  rw [integer?.eq_def]
  split
  · next heq => exact absurd heq (repr_ne (c := 'x') (by simp) (by decide))
  · next heq => exact absurd heq (repr_ne (c := 'o') (by simp) (by decide))
  · next heq => exact absurd heq (repr_ne (c := 'b') (by simp) (by decide))
  · rw [signed_repr]
    -- The sign is plus, so the value is that of the digits.
    show (wholeDigits? n.repr.toList).bind (fun digits => bounded? (valueOf 10 digits)) = _
    rw [wholeDigits?_repr, Option.bind_some, valueOf_repr]
    exact bounded?_of_lt hn

theorem scalar?_repr (hn : n < integerLimit) : scalar? n.repr.toList = some (.integer n) := by
  have htrue : n.repr.toList ≠ "true".toList := repr_ne (c := 't') (by decide) (by decide)
  have hfalse : n.repr.toList ≠ "false".toList := repr_ne (c := 'f') (by decide) (by decide)
  rw [scalar?, if_neg htrue, if_neg hfalse, moment?_repr, float?_repr, integer?_repr hn]
  rfl

end Digits

/-! ## Values -/

/-- A text is read as a value at the end of a line, whatever the bounds. -/
structure Denotes (written : List Char) (value : Value) : Prop where
  solid : ∀ rest, Solid (written ++ rest)
  read : ∀ layers fuel rest,
    value? layers (fuel + 1) (written ++ '\n' :: rest) = some (value, '\n' :: rest)

theorem denotes_written (text : String) : Denotes (written text.toList) (.string text) := by
  obtain ⟨body, hbody⟩ := exists_written_eq text.toList
  refine ⟨fun rest c hc => ?_, fun layers fuel rest => ?_⟩
  · rcases hbody with hbody | hbody
    · rw [hbody] at hc
      cases hc
      decide
    · rw [hbody] at hc
      cases hc
      decide
  · have hread := string?_written text.toList rest
    rcases hbody with hbody | hbody
    · rw [hbody, List.cons_append] at hread ⊢
      simp only [value?, hread, Option.map_some, String.ofList_toList]
    · rw [hbody, List.cons_append] at hread ⊢
      simp only [value?, hread, Option.map_some, String.ofList_toList]

/-- A run of scalar characters denotes what it is classified as. -/
theorem denotes_of_scalar? {run : List Char} {value : Value} (hne : run ≠ [])
    (hrun : ∀ c ∈ run, isScalarChar c = true) (h : scalar? run = some value) :
    Denotes run value := by
  obtain ⟨first, more, rfl⟩ := List.exists_cons_of_ne_nil hne
  have hfirst := hrun first List.mem_cons_self
  refine ⟨fun rest c hc => ?_, fun layers fuel rest => ?_⟩
  · cases hc
    exact isBlank_eq_false (P := fun c => isScalarChar c = true) hfirst (by decide) (by decide)
  · have hread := readScalar?_break hrun rest
    rw [h, Option.map_some] at hread
    rw [← hread, value?.eq_def]
    split
    · next heq => cases heq
    · next heq => cases heq; exact absurd hfirst (by decide)
    · next heq => cases heq; exact absurd hfirst (by decide)
    · next heq => cases heq; exact absurd hfirst (by decide)
    · next heq => cases heq; exact absurd hfirst (by decide)
    · next heq _ _ _ _ => cases heq; rfl

theorem denotes_repr {n : Nat} (hn : n < integerLimit) :
    Denotes n.repr.toList (.integer n) := by
  refine denotes_of_scalar? (Json.repr_ne_nil n) (fun c hc => ?_) (scalar?_repr hn)
  simp [isScalarChar, isDigit_of_mem_repr hc]

theorem denotes_boolean (value : Bool) :
    Denotes (if value then "true" else "false").toList (.boolean value) := by
  cases value with
  | true => exact denotes_of_scalar? (by decide) (List.all_eq_true.1 (by decide)) rfl
  | false => exact denotes_of_scalar? (by decide) (List.all_eq_true.1 (by decide)) rfl

/-! ## Keys -/

/-- A key of one part, after which no point follows. -/
theorem key?_of_keyPart? {cs rest : List Char} {part : String} (hcs : Solid cs)
    (hpart : keyPart? cs = some (part, rest)) (hpoint : (skipBlanks rest).head? ≠ some '.') :
    key? cs = some (([], part), skipBlanks rest) := by
  have hparts : keyParts? (maxLayers + 1) cs = some ([part], skipBlanks rest) := by
    rw [keyParts?, skipBlanks_of_solid hcs, hpart]
    simp only [Option.bind_eq_bind, Option.bind_some]
    split
    · next heq => exact absurd (by rw [heq]; rfl) hpoint
    · rfl
  rw [key?, hparts]
  rfl

theorem solid_writtenKey (key rest : List Char) : Solid (writtenKey key ++ rest) := by
  obtain ⟨first, more, hkey, hfirst⟩ := exists_writtenKey_eq key
  intro c hc
  rw [hkey] at hc
  cases hc
  exact hfirst.isBlank_eq_false

/-! ## Lines -/

/-- A line that gives a key its value is read as such. -/
theorem entry?_entryLine (key : String) {written : List Char} {value : Value}
    (h : Denotes written value) (rest : List Char) :
    entry? (entryLine key written ++ rest) = some (.entry [] key value, rest) := by
  have happend : entryLine key written ++ rest =
      writtenKey key.toList ++ ' ' :: '=' :: ' ' :: (written ++ '\n' :: rest) := by
    simp [entryLine]
  have hpart := keyPart?_writtenKey key ('=' :: ' ' :: (written ++ '\n' :: rest))
  have hkey := key?_of_keyPart? (solid_writtenKey key.toList _) hpart
    (by simp [skipBlanks, isBlank])
  rw [happend, entry?, hkey]
  show (value? maxLayers _ (skipBlanks (' ' :: (written ++ '\n' :: rest)))).bind _ = _
  rw [skipBlanks_blank, skipBlanks_of_solid (h.solid _), h.read]
  rfl

/-- The rest of a header with an unquoted key of one part. -/
theorem header?_bare {key : String} (hne : key.toList ≠ [])
    (hbare : ∀ c ∈ key.toList, isBareKeyChar c = true) (rest : List Char) :
    header? [']'] .header (key.toList ++ ']' :: '\n' :: rest) = some (.header [] key, rest) := by
  have hclosing : ∀ c ∈ (']' :: '\n' :: rest).head?, isBareKeyChar c = false := by
    intro c hc
    cases hc
    decide
  have hpart := keyPart?_bare hne hbare hclosing
  have hsolid : Solid (key.toList ++ ']' :: '\n' :: rest) := by
    obtain ⟨first, more, hkey⟩ := List.exists_cons_of_ne_nil hne
    intro c hc
    rw [hkey] at hc
    cases hc
    exact StartsKey.isBlank_eq_false (.inl (hbare first (by simp [hkey])))
  rw [String.ofList_toList] at hpart
  rw [header?, key?_of_keyPart? hsolid hpart (by simp [skipBlanks, isBlank])]
  rfl

/-- Lines that give keys their values. -/
def entryLines (entries : List (String × Value)) : List Line :=
  entries.map fun (key, value) => .entry [] key value

/-- Texts as values. -/
def stringValues (entries : List (String × String)) : List (String × Value) :=
  entries.map fun (key, text) => (key, .string text)

theorem keys_stringValues (entries : List (String × String)) :
    (stringValues entries).map (·.1) = entries.map (·.1) := by
  simp [stringValues]

/-- What the lines of a document say, read with any bound that is large enough. -/
def Says (cs : List Char) (said : List Line) : Prop :=
  ∀ fuel, cs.length < fuel → lines? fuel cs = some said

/-- Only bounds that allow for one line have to be looked at. -/
theorem says_of_succ {cs : List Char} {said : List Line}
    (h : ∀ fuel, cs.length ≤ fuel → lines? (fuel + 1) cs = some said) : Says cs said := by
  intro fuel hfuel
  cases fuel with
  | zero => cases hfuel
  | succ fuel => exact h fuel (Nat.le_of_lt_succ hfuel)

theorem says_nil : Says [] [] := says_of_succ fun _ _ => rfl

namespace Says

variable {rest : List Char} {said : List Line}

theorem emptyLine (h : Says rest said) : Says ('\n' :: rest) said :=
  says_of_succ fun fuel hfuel => h fuel hfuel

theorem entry (h : Says rest said) (key : String) {written : List Char} {value : Value}
    (hvalue : Denotes written value) :
    Says (entryLine key written ++ rest) (.entry [] key value :: said) := by
  refine says_of_succ fun fuel hfuel => ?_
  have hread := entry?_entryLine key hvalue rest
  have hrest : lines? fuel rest = some said := by
    apply h
    simp only [entryLine, List.length_append, List.length_cons] at hfuel
    omega
  obtain ⟨first, more, hkey, hfirst⟩ := exists_writtenKey_eq key.toList
  have hsolid : Solid (entryLine key written ++ rest) := by
    rw [entryLine, List.append_assoc, List.append_assoc, List.append_assoc]
    exact solid_writtenKey _ _
  obtain ⟨tail, htail⟩ : ∃ tail, entryLine key written ++ rest = first :: tail :=
    ⟨_, by rw [entryLine, hkey]; rfl⟩
  rw [lines?, skipBlanks_of_solid hsolid]
  rw [htail] at hread ⊢
  split
  · next heq => cases heq
  · next heq => cases heq; exact absurd hfirst (by decide)
  · next heq => cases heq; exact absurd hfirst (by decide)
  · next heq => cases heq; exact absurd hfirst (by decide)
  · next heq => cases heq; exact absurd hfirst (by decide)
  · next heq => cases heq; exact absurd hfirst (by decide)
  · rw [hread]
    simp only [Option.bind_eq_bind, Option.bind_some, hrest]
    rfl

theorem header (h : Says rest said) (key : String) (hne : key.toList ≠ [])
    (hbare : ∀ c ∈ key.toList, isBareKeyChar c = true) :
    Says ('[' :: (key.toList ++ ']' :: '\n' :: rest)) (.header [] key :: said) := by
  refine says_of_succ fun fuel hfuel => ?_
  have hrest : lines? fuel rest = some said := by
    apply h
    simp only [List.length_append, List.length_cons] at hfuel
    omega
  have hread := header?_bare hne hbare rest
  obtain ⟨first, more, hkey⟩ := List.exists_cons_of_ne_nil hne
  have hfirst : isBareKeyChar first = true := hbare first (by simp [hkey])
  have hblank : skipBlanks ('[' :: (key.toList ++ ']' :: '\n' :: rest)) =
      '[' :: (key.toList ++ ']' :: '\n' :: rest) := rfl
  rw [lines?, hblank]
  split
  · next heq => cases heq
  · next heq =>
    rw [hkey] at heq
    cases heq
    exact absurd hfirst (by decide)
  · next heq =>
    cases heq
    rw [hread]
    simp only [Option.bind_eq_bind, Option.bind_some, hrest]
    rfl
  · next heq => cases heq
  · next heq => cases heq
  · next heq => cases heq
  · next hheader _ _ _ => exact (hheader _ rfl).elim

/-- The lines of a table of texts. -/
theorem texts (entries : List (String × String)) :
    Says (entries.flatMap fun (key, text) => textLine key text)
      (entryLines (stringValues entries)) := by
  induction entries with
  | nil => exact says_nil
  | cons e entries ih =>
    rw [List.flatMap_cons]
    exact ih.entry e.1 (denotes_written e.2)

end Says

/-! ## Tables -/

theorem alter_new {key : String} {change : Option Item → Option Item} {item : Item}
    (hchange : change none = some item) {entries : Entries} (h : key ∉ entries.map (·.1)) :
    alter key change entries = some (entries ++ [(key, item)]) := by
  induction entries with
  | nil => simp [alter, hchange]
  | cons e entries ih =>
    obtain ⟨k, old⟩ := e
    rw [List.map_cons, List.mem_cons, not_or] at h
    rw [alter, if_neg (Ne.symm h.1), ih h.2]
    rfl

theorem alter_last {key : String} (change : Option Item → Option Item) {entries : Entries}
    (item : Item) (h : key ∉ entries.map (·.1)) :
    alter key change (entries ++ [(key, item)]) =
      (change (some item)).map fun item => entries ++ [(key, item)] := by
  induction entries with
  | nil => simp [alter]
  | cons e entries ih =>
    obtain ⟨k, old⟩ := e
    rw [List.map_cons, List.mem_cons, not_or] at h
    rw [List.cons_append, alter, if_neg (Ne.symm h.1), ih h.2]
    cases change (some item) <;> rfl

/-- The unfinished table in which every key has its value. -/
def ofValues (entries : List (String × Value)) : Entries :=
  entries.map fun (key, value) => (key, .value value)

theorem keys_ofValues (entries : List (String × Value)) :
    (ofValues entries).map (·.1) = entries.map (·.1) := by
  simp [ofValues]

/-- New keys are added in their order to the table at the current path, which stands in the
whole table as `put` says. -/
theorem fill_entries {current : List String} {put : Entries → Entries}
    (hput : ∀ (change : Entries → Option Entries) (inner : Entries),
      within .implied (fun _ => change) current .header (put inner) = (change inner).map put)
    (before : List (String × Value)) {entries : List (String × Value)}
    (h : ((before ++ entries).map (·.1)).Nodup) (rest : List Line) :
    fill current (put (ofValues before)) (entryLines entries ++ rest) =
      fill current (put (ofValues (before ++ entries))) rest := by
  induction entries generalizing before with
  | nil => simp [entryLines]
  | cons e entries ih =>
    obtain ⟨key, value⟩ := e
    have hnew : key ∉ (ofValues before).map (·.1) := by
      rw [List.map_append, List.map_cons] at h
      rw [keys_ofValues]
      exact fun hmem => (List.nodup_append.1 h).2.2 key hmem key List.mem_cons_self rfl
    have hadd : addDotted [] key value (ofValues before) =
        some (ofValues (before ++ [(key, value)])) := by
      rw [addDotted, addNew, alter_new rfl hnew]
      simp [ofValues]
    have hassoc : before ++ (key, value) :: entries = before ++ [(key, value)] ++ entries := by
      simp
    rw [hassoc] at h ⊢
    rw [← ih _ h, entryLines, List.map_cons, List.cons_append, fill, hput, hadd]
    rfl

theorem finishEntries_append (first second : Entries) :
    finishEntries (first ++ second) = finishEntries first ++ finishEntries second := by
  induction first with
  | nil => rfl
  | cons e first ih =>
    rw [List.cons_append, finishEntries, ih, finishEntries, List.cons_append]

theorem finishEntries_ofValues (entries : List (String × Value)) :
    finishEntries (ofValues entries) = entries := by
  induction entries with
  | nil => rfl
  | cons e entries ih =>
    rw [ofValues, List.map_cons, finishEntries, ← ofValues, ih]
    rfl

theorem within_nil (change : Entries → Option Entries) (inner : Entries) :
    within .implied (fun _ => change) [] .header (id inner) = (change inner).map id := by
  rw [within, Option.map_id]
  rfl

/-- The table at the end of a document is reached through its key. -/
theorem within_last {key : String} {top : Entries} (h : key ∉ top.map (·.1))
    (change : Entries → Option Entries) (inner : Entries) :
    within .implied (fun _ => change) [key] .header (top ++ [(key, .table .header inner)]) =
      (change inner).map fun inner => top ++ [(key, .table .header inner)] := by
  rw [within, alter_last _ _ h]
  simp only [reduceCtorEq, false_and, if_false, within, Option.map_map]
  rfl

/-- A document with values at the top and then a table with values of its own. -/
theorem fill_values_table (top inner : List (String × Value)) (key : String)
    (htop : (top.map (·.1)).Nodup) (hkey : key ∉ top.map (·.1))
    (hinner : (inner.map (·.1)).Nodup) :
    fill [] [] (entryLines top ++ .header [] key :: entryLines inner) =
      some (ofValues top ++ [(key, .table .header (ofValues inner))]) := by
  rw [← keys_ofValues] at hkey
  have hopen : openTable [] key (ofValues top) =
      some (ofValues top ++ [(key, .table .header [])]) := by
    rw [openTable, within]
    exact alter_new rfl hkey
  calc fill [] [] (entryLines top ++ .header [] key :: entryLines inner)
      = fill [] (ofValues top) (.header [] key :: entryLines inner) :=
        fill_entries within_nil [] htop _
    _ = fill [key] (ofValues top ++ [(key, .table .header (ofValues []))])
          (entryLines inner ++ []) := by
        rw [fill, hopen, List.append_nil]
        rfl
    _ = some (ofValues top ++ [(key, .table .header (ofValues inner))]) :=
        (fill_entries (within_last hkey) [] hinner []).trans rfl

/-- The values of a document with a table at its end. -/
theorem finishEntries_values_table (top inner : List (String × Value)) (key : String) :
    finishEntries (ofValues top ++ [(key, .table .header (ofValues inner))]) =
      top ++ [(key, .table inner)] := by
  rw [finishEntries_append, finishEntries_ofValues, finishEntries, finishEntries, Item.finish,
    finishEntries_ofValues]

theorem parse?_of_says {cs : List Char} {said : List Line} (hmark : skipMark cs = cs)
    (h : Says cs said) : parse? (String.ofList cs) = (fill [] [] said).map finishEntries := by
  rw [parse?, String.toList_ofList, hmark]
  simp only [h _ (Nat.lt_succ_self _), Option.bind_eq_bind, Option.bind_some]
  cases fill [] [] said <;> rfl

end Emitter.Toml
