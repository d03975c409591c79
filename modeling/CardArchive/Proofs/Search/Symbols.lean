import CardArchive.Proofs.Search.Verdicts
import CardArchive.Proofs.Store.Stock
import CardArchive.Proofs.Store.Symbols
import CardArchive.Proofs.Text.UpperCase

/-!
# Searching for stored symbols

Symbols are stored as a cost has them and asked for in upper case. A symbol that is its own
upper case form is found under itself. Any other one is listed among the known symbols all
the same, but no argument stands for it: asking for it is asking for its upper case form,
which the catalog may or may not know.

## What this module delivers

* `isSymbol_listed`: what a symbol in braces stands for as an argument.
* `upper_of_isSymbol`: what arguments stand for is in upper case.
* `symbols_of_loaded`, `byMana_unknown`: the symbols of a catalog, and the other ones.
* `byMana_listed`: the answer to every listed symbol, and which ones can be searched for.
* `lowerSymbol_refused`: a listed symbol that is refused.
-/

set_option autoImplicit false

namespace CardArchive

/-! ## Symbols as arguments -/

theorem Text.upperChar_brace : Text.upperChar '\x7b' = ['\x7b'] ∧ Text.upperChar '\x7d' = ['\x7d'] := by
  decide

/-- Upper case keeps the opening brace. -/
theorem Text.head?_upper_symbolOf (content : List Char) :
    (Text.upper (symbolOf content)).toList.head? = some '\x7b' := by
  rw [Text.upper, symbolOf, String.toList_ofList, String.toList_ofList, List.cons_append,
    List.flatMap_cons, Text.upperChar_brace.1]
  rfl

theorem CostSymbol.exists_content {symbol : String} (h : CostSymbol symbol) :
    ∃ content, symbol = symbolOf content := by
  cases h with
  | generic => exact ⟨['1'], rfl⟩
  | named => exact ⟨_, rfl⟩

/-- A symbol of costs, given as it is, stands for its upper case form. -/
theorem isSymbol_listed {symbol : String} (h : CostSymbol symbol) :
    (Argument.ofText symbol).IsSymbol (Text.upper symbol) := by
  obtain ⟨content, rfl⟩ := h.exists_content
  refine .braced ?_ (Text.head?_upper_symbolOf content)
  intro hempty
  have hlist := congrArg String.toList hempty
  simp [symbolOf] at hlist

/-- What arguments stand for is in upper case. -/
theorem upper_of_isSymbol {a : Argument} {symbol : String} (h : a.IsSymbol symbol) :
    Text.upper symbol = symbol := by
  cases h with
  | braced => exact Text.upper_upper _
  | @bare s hne hbare =>
    -- the braces that are put around stay as well
    refine Text.upper_eq_self fun c hc => ?_
    rw [String.toList_ofList, List.cons_append, List.mem_cons, List.mem_append,
      List.mem_singleton] at hc
    rcases hc with rfl | hc | rfl
    · exact Text.upperChar_brace.1
    · rw [Text.upper, String.toList_ofList] at hc
      obtain ⟨d, -, hd⟩ := List.mem_flatMap.1 hc
      exact Text.upperChar_of_mem hd
    · exact Text.upperChar_brace.2

/-! ## The catalog of stored symbols -/

/-- The symbols that a loaded catalog lists and knows are those of the stored amounts. -/
theorem symbols_of_loaded {t : Tables} {catalog : Catalog} (h : t.catalog = .ok catalog) :
    catalog.values "mana_types" = .ok (Text.sorted (t.mana.map ManaRow.symbol).eraseDups) ∧
      ∀ symbol, catalog.Knows "mana_types" symbol ↔ symbol ∈ t.mana.map ManaRow.symbol := by
  obtain ⟨c, hc, -, hvocabularies⟩ := catalog_loads t
  obtain rfl : c = catalog := Except.ok.inj (hc.symm.trans h)
  have hmana : c.vocabulary? "mana_types" = some (.ofList (t.mana.map ManaRow.symbol)) :=
    hvocabularies _ (by decide)
  constructor
  · rw [Catalog.values, hmana]
    rfl
  · intro symbol
    rw [Catalog.Knows, hmana]
    simp [Vocabulary.ofList]

/-- A text that a catalog does not know is not among the values of its vocabulary. -/
theorem contains_of_not_knows {catalog : Catalog} {vocabulary v : String} {known : List String}
    (hknown : catalog.values vocabulary = .ok known) (h : ¬catalog.Knows vocabulary v) :
    catalog.contains vocabulary (.text v) = .ok false := by
  rw [knows_iff] at h
  unfold Catalog.values at hknown
  split at hknown
  · cases hknown
  · rename_i w hw
    have hcontains : catalog.contains vocabulary (.text v) = .ok (w.holds (.text v)) := by
      rw [Catalog.contains, hw]
      rfl
    rw [hcontains] at h ⊢
    simpa using h

/-- A symbol that the catalog does not know is refused with the known ones. -/
theorem byMana_unknown {s : Search} {a b : Argument} {symbol : String} {o : Operator} (n : Int)
    {known : List String} (ha : a.IsSymbol symbol) (hb : b.IsOperator o)
    (hknown : s.catalog.values "mana_types" = .ok known)
    (hunknown : ¬s.catalog.Knows "mana_types" symbol) :
    s.byMana a b (.value (.int n)) =
      .error (.query (.unsupported "mana symbol" (Text.quoted symbol) known)) := by
  have hmember : Search.checkMember s.catalog "mana_types" "mana symbol" (.ofText symbol) =
      .error (.query (.unsupported "mana symbol" (Text.quoted symbol) known)) := by
    simp only [Search.checkMember, Search.member?, Argument.ofText,
      contains_of_not_knows hknown hunknown, hknown]
    rfl
  have hchecked : s.byMana a b (.value (.int n)) =
      (Search.checkMember s.catalog "mana_types" "mana symbol" (.ofText symbol) >>= fun found =>
        .ok (s.record .manaType (.comparison (.value (.text found)) o (.value (.int n))))) := by
    simp only [Search.byMana, Search.checkSymbol_eq_ok.2 ha, Search.checkOperator_eq_ok.2 hb]
    rfl
  rw [hchecked, hmember]
  rfl

theorem record_inj {s : Search} {c : Category} {e e' : Entry} (h : s.record c e = s.record c e') :
    e = e' := by
  have hentries := congrArg (fun s => s.filters.entries c) h
  simpa [Search.record, Filters.entries_add] using hentries

/-! ## Listed symbols -/

/-- After any changes, let a loaded catalog list a symbol of mana. It is the symbol of some
cost. Asking for it as it is listed counts its upper case form, if the catalog knows that,
and is refused otherwise, with the symbol among the known ones. So there are arguments that
count the symbol itself exactly if it is its own upper case form. -/
theorem byMana_listed (changes : List Change) {catalog : Catalog}
    (hcatalog : (Database.after changes).tables.catalog = .ok catalog) {symbol : String}
    (hlisted : catalog.Knows "mana_types" symbol) :
    (∃ cost counts, parseManaCost cost = .ok counts ∧ symbol ∈ counts.map Prod.fst) ∧
    (∀ (s : Search) (b : Argument) (o : Operator) (n : Int), s.catalog = catalog →
      b.IsOperator o →
      (catalog.Knows "mana_types" (Text.upper symbol) →
        s.byMana (.ofText symbol) b (.value (.int n)) = .ok (s.record .manaType
          (.comparison (.value (.text (Text.upper symbol))) o (.value (.int n))))) ∧
      (¬catalog.Knows "mana_types" (Text.upper symbol) →
        ∃ known, catalog.values "mana_types" = .ok known ∧ symbol ∈ known ∧
          s.byMana (.ofText symbol) b (.value (.int n)) = .error (.query
            (.unsupported "mana symbol" (Text.quoted (Text.upper symbol)) known)))) ∧
    ((∃ (s : Search) (a b c : Argument) (o : Operator) (n : Int), s.catalog = catalog ∧
        s.byMana a b c = .ok (s.record .manaType
          (.comparison (.value (.text symbol)) o (.value (.int n))))) ↔
      Text.upper symbol = symbol) := by
  obtain ⟨hknown, hsymbols⟩ := symbols_of_loaded hcatalog
  have hcost : CostSymbol symbol := by
    obtain ⟨r, hr, rfl⟩ := List.mem_map.1 ((hsymbols symbol).1 hlisted)
    exact countsSymbols_after changes r hr
  have hargument := isSymbol_listed hcost
  have haccepted : ∀ (s : Search) (b : Argument) (o : Operator) (n : Int), s.catalog = catalog →
      b.IsOperator o → catalog.Knows "mana_types" (Text.upper symbol) →
      s.byMana (.ofText symbol) b (.value (.int n)) = .ok (s.record .manaType
        (.comparison (.value (.text (Text.upper symbol))) o (.value (.int n)))) := by
    rintro s b o n rfl hb hupper
    exact Search.byMana_eq_ok.2 ⟨_, o, n, Search.checkSymbol_eq_ok.2 hargument,
      Search.checkOperator_eq_ok.2 hb, rfl, knows_iff.1 hupper, rfl⟩
  refine ⟨costSymbol_iff.1 hcost, fun s b o n hs hb => ⟨haccepted s b o n hs hb, ?_⟩, ?_⟩
  · intro hupper
    subst hs
    refine ⟨_, hknown, ?_, byMana_unknown n hargument hb hknown hupper⟩
    rw [Text.mem_sorted, List.mem_eraseDups]
    exact (hsymbols symbol).1 hlisted
  · constructor
    · rintro ⟨s, a, b, c, o, n, -, hmana⟩
      obtain ⟨sym, o', n', hsym, -, -, -, hnext⟩ := Search.byMana_eq_ok.1 hmana
      -- the entry that was made is of the symbol that was checked
      cases record_inj hnext
      exact upper_of_isSymbol (Search.checkSymbol_eq_ok.1 hsym)
    · intro hupper
      have hasked := haccepted (Search.start catalog) (.operator .equal) .equal 1 rfl (.member _)
        (hupper.symm ▸ hlisted)
      rw [hupper] at hasked
      exact ⟨_, _, _, _, _, _, rfl, hasked⟩

/-- A set of one card with a cost. -/
def costSet (cost : String) : Value :=
  .object [("name", .text "Alpha"), ("code", .text "LEA"), ("releaseDate", .text "1993-08-05"),
    ("cards", .list [.object [("name", .text "Air Elemental"), ("manaCost", .text cost),
      ("number", .text "46"), ("rarity", .text "uncommon"), ("types", .list [.text "Creature"])]])]

/-- A symbol in upper case is listed and counted. -/
theorem byMana_listed_upper :
    ∃ catalog, (Database.after [.insertSet (costSet "\x7bU\x7d")]).tables.catalog = .ok catalog ∧
      catalog.Knows "mana_types" "\x7bU\x7d" ∧
      ∃ next, (Search.start catalog).byMana (.ofText "\x7bU\x7d") (.ofText "=") (.value (.int 1)) =
        .ok next ∧ next.filters.entries .manaType =
          [.comparison (.value (.text "\x7bU\x7d")) .equal (.value (.int 1))] := by
  have hlisted : "\x7bU\x7d" ∈ ((Database.after [.insertSet (costSet "\x7bU\x7d")]).tables.mana.map
      ManaRow.symbol) := by decide +kernel
  obtain ⟨catalog, hcatalog, -⟩ := catalog_loads
    (Database.after [.insertSet (costSet "\x7bU\x7d")]).tables
  have hknows := ((symbols_of_loaded hcatalog).2 _).2 hlisted
  have hupper : Text.upper "\x7bU\x7d" = "\x7bU\x7d" := by decide
  obtain ⟨-, hanswer, -⟩ := byMana_listed _ hcatalog hknows
  have hasked := (hanswer (Search.start catalog) (.ofText "=") .equal 1 rfl (.text .equal)).1
    (hupper.symm ▸ hknows)
  rw [hupper] at hasked
  exact ⟨catalog, hcatalog, hknows, _, hasked, rfl⟩

/-- A symbol in lower case is listed and refused. -/
theorem lowerSymbol_refused :
    (Database.empty.insertSet (costSet "\x7bu\x7d")).2 = .ok 1 ∧
      ∃ catalog, (Database.after [.insertSet (costSet "\x7bu\x7d")]).tables.catalog = .ok catalog ∧
        catalog.Knows "mana_types" "\x7bu\x7d" ∧
        (Search.start catalog).byMana (.ofText "\x7bu\x7d") (.ofText "=") (.value (.int 1)) =
          .error (.query (.unsupported "mana symbol" (Text.quoted "\x7bU\x7d") ["\x7bu\x7d"])) := by
  have hstored : (Database.after [.insertSet (costSet "\x7bu\x7d")]).tables.mana.map
      ManaRow.symbol = ["\x7bu\x7d"] := by decide +kernel
  obtain ⟨catalog, hcatalog, -⟩ := catalog_loads
    (Database.after [.insertSet (costSet "\x7bu\x7d")]).tables
  obtain ⟨hknown, hsymbols⟩ := symbols_of_loaded hcatalog
  have hsorted : Text.sorted ["\x7bu\x7d"].eraseDups = ["\x7bu\x7d"] := by decide +kernel
  simp only [hstored, hsorted] at hknown hsymbols
  refine ⟨by decide +kernel, catalog, hcatalog, by simp [hsymbols], ?_⟩
  have hargument : (Argument.ofText "\x7bu\x7d").IsSymbol "\x7bU\x7d" :=
    .braced (by decide) (by decide)
  have hunknown : ¬catalog.Knows "mana_types" "\x7bU\x7d" := by
    rw [hsymbols]
    decide
  exact byMana_unknown (s := Search.start catalog) 1 hargument (.text .equal) hknown hunknown

end CardArchive
