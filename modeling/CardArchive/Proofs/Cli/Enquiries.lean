import CardArchive.Cli.Command
import CardArchive.Proofs.Keyed
import CardArchive.Proofs.Search.Comparisons
import CardArchive.Proofs.Search.Taken
import CardArchive.Proofs.Server.Asked

/-!
# One search by options and by arguments

A search can be asked for on the command line and at the server. The command line takes
values option by option and comparisons as one text each; the server takes a list of
filters in any order and comparisons with named fields. Whatever the search is, both give
the same text, or both refuse it, as long as its integers are written with few enough digits:
the command line reads them from texts, and the server is given them.

Both ways are runs of the same calls: the calls of the command line are those of the server
gathered by category and mode, which changes nothing in the text.

## What this module delivers

* `Enquiry`: a search as it is meant.
* `Enquiry.InArguments` and `Enquiry.InOptions`: how it is written for the server and on the
  command line.
* `search_agrees`: the search of the command line as a run of calls.
* `search_of_enquiry`: both give the same text or refuse.
* `search_of_longNumeral`: an integer with too many digits is refused on the command line only.
-/

set_option autoImplicit false

namespace CardArchive

/-! ## Searches as they are meant -/

/-- A text that can stand beside the operator of a comparison. -/
abbrev Operand := { s : String // IsSide s }

/-- An integer as it is written. -/
structure Numeral where
  text : String
  value : Int
  side : IsSide text
  reads : Text.readInteger? text.toList = some value

/-- The decimal numeral of an integer. -/
def Numeral.ofInt (n : Int) (h : Text.IsWritable n) : Numeral :=
  ⟨toString n, n, isSide_toString n, Text.readInteger?_toString h⟩

/-- A comparison as it is meant; what stands in it may be unknown. -/
structure Compared (ρ : Type) where
  left : Operand
  operator : Operator
  right : ρ

/-- A comparison as one text. -/
def Compared.written {ρ : Type} (text : ρ → String) (x : Compared ρ) : String :=
  x.left.1 ++ x.operator.text ++ text x.right

/-- A search as it is meant: values with their category and mode, and comparisons. -/
structure Enquiry where
  filters : List ((Category × Mode) × String)
  stats : List (Compared Numeral)
  versus : List (Compared Operand)
  mana : List (Compared Numeral)

/-- A comparison as the server is asked for it. -/
def Compared.asked {ρ : Type} (value : ρ → Value) (x : Compared ρ) : AskedComparison :=
  ⟨x.left.1, x.operator, value x.right⟩

/-- The integer as the server takes it. -/
def Numeral.toValue (n : Numeral) : Value := .int n.value

/-- The text as the server takes it. -/
def operandValue (t : Operand) : Value := .text t.1

/-- A search as the server is asked for it, with its filters in some order. -/
def Enquiry.askedIn (q : Enquiry) (filters : List ((Category × Mode) × String)) : Asked where
  filters := filters
  stats := q.stats.map (Compared.asked Numeral.toValue)
  versus := q.versus.map (Compared.asked operandValue)
  mana := q.mana.map (Compared.asked Numeral.toValue)

/-- The filters come first, and the comparisons do not depend on their order. -/
theorem calls_askedIn (q : Enquiry) (filters : List ((Category × Mode) × String)) :
    (q.askedIn filters).calls = filters.map valueCall ++ (q.askedIn []).comparisonCalls := rfl

/-- Arguments of the server that ask for a search. -/
def Enquiry.InArguments (q : Enquiry) (args : Value) : Prop := (q.askedIn q.filters).In args

/-- Options that ask for a search: the option of each category and mode has the values of
that category and mode in order, and each comparison is written as left side, operator and
right side. -/
structure Enquiry.InOptions (q : Enquiry) (o : Cli.SearchOptions) : Prop where
  filters : ∀ f ∈ Cli.filterOrder, under f.1 o.filters = under f.2 q.filters
  stats : o.stats = q.stats.map (Compared.written Numeral.text)
  versus : o.versus = q.versus.map (Compared.written Subtype.val)
  mana : o.mana = q.mana.map (Compared.written Numeral.text)

/-! ## The command line -/

section

variable {s : Search}

/-- A comparison without a left side is no comparison. -/
theorem parseComparison_of_eq_empty {ρ : Type} (text : ρ → String) {x : Compared ρ}
    (hleft : x.left.1 = "") : ∃ e, parseComparison (x.written text) = .error e := by
  have h := parseComparison_leftless x.operator (text x.right)
  rw [← hleft] at h
  exact ⟨_, h⟩

/-- The search with a comparison with an integer that is written as one text. -/
def numeralStep (record : Search → Argument → Argument → Argument → Except Failure Search)
    (s : Search) (e : String) : Except Failure Search := do
  let (l, o, r) ← (parseComparison e).mapError Failure.query
  let n ← (Cli.rightInteger r).mapError Failure.query
  record s (.ofText l) (.operator o) (.value (.int n))

/-- The first of several such comparisons is entered before the others are looked at. -/
theorem numeralStep_bind
    (record : Search → Argument → Argument → Argument → Except Failure Search) (s : Search)
    (e : String) (rest : Search → Except Failure Search) :
    numeralStep record s e >>= rest = (do
      let (l, o, r) ← (parseComparison e).mapError Failure.query
      let n ← (Cli.rightInteger r).mapError Failure.query
      let next ← record s (.ofText l) (.operator o) (.value (.int n))
      rest next) := by
  unfold numeralStep
  cases parseComparison e with
  | error e => rfl
  | ok parts =>
    obtain ⟨l, o, r⟩ := parts
    change ((Cli.rightInteger r).mapError Failure.query >>= fun n =>
      record s (.ofText l) (.operator o) (.value (.int n))) >>= rest = _
    rw [bind_assoc]
    rfl

/-- A comparison with an integer is read as a call if its left side is not missing; if it is
missing, the call is refused as well. -/
theorem sameEnd_numeral {record : Search → Argument → Argument → Argument →
      Except Failure Search} {x : Compared Numeral}
    (hdecided : Decided (record s (.ofText x.left.1) (.operator x.operator)
      (.value (.int x.right.value))))
    (hempty : ∃ e, record s (.ofText "") (.operator x.operator) (.value (.int x.right.value)) =
      .error (.query e)) :
    SameEnd (numeralStep record s (x.written Numeral.text))
      (record s (.ofText x.left.1) (.operator x.operator) (.value (.int x.right.value))) := by
  unfold numeralStep
  by_cases hleft : x.left.1 = ""
  · obtain ⟨e, he⟩ := parseComparison_of_eq_empty Numeral.text hleft
    obtain ⟨e', he'⟩ := hempty
    rw [he, hleft, he']
    exact .refused e e'
  · have hright : x.right.text ≠ "" := by
      intro h
      have hreads := x.right.reads
      rw [h] at hreads
      cases hreads
    have hparts := parseComparison_written x.operator x.left.2 x.right.side hleft hright
    have hinteger : Cli.rightInteger x.right.text = .ok x.right.value := by
      rw [Cli.rightInteger, x.right.reads]
    rw [Compared.written, hparts]
    change SameEnd (do
      let n ← (Cli.rightInteger x.right.text).mapError Failure.query
      record s (.ofText x.left.1) (.operator x.operator) (.value (.int n))) _
    rw [hinteger]
    exact sameEnd_self hdecided

/-- No statistic has the empty name, and none is written as an equals sign. -/
theorem byStats_refused (s : Search) (left : Argument) (o : Operator) {right : String}
    (h : right = "" ∨ right = "=") :
    ∃ e, s.byStats left (.operator o) (.ofText right) = .error (.query e) := by
  apply refused_of_decided (Search.decided_byStats s _ _ _)
  intro next hnext
  obtain ⟨-, -, b, -, -, hb, -, -⟩ := Search.byStats_eq_ok.1 hnext
  rcases h with rfl | rfl <;> cases hb

/-- The search with a comparison of two statistics that is written as one text. -/
def versusStep (s : Search) (e : String) : Except Failure Search := do
  let (l, o, r) ← (parseComparison e).mapError Failure.query
  s.byStats (.ofText l) (.operator o) (.ofText r)

/-- A comparison of two statistics is read as a call if no side is missing; if one is
missing, the call is refused as well. -/
theorem sameEnd_versus (s : Search) (x : Compared Operand) :
    SameEnd (versusStep s (x.written Subtype.val))
      (s.byStats (.ofText x.left.1) (.operator x.operator) (.ofText x.right.1)) := by
  unfold versusStep
  by_cases hleft : x.left.1 = ""
  · obtain ⟨e, he⟩ := parseComparison_of_eq_empty Subtype.val hleft
    rw [he, hleft]
    exact .refused e _
  · by_cases hright : x.right.1 = ""
    · obtain ⟨e', he'⟩ := byStats_refused s (.ofText x.left.1) x.operator (.inl hright)
      rw [he', Compared.written, hright]
      rcases parseComparison_rightless x.operator x.left.2 hleft with ⟨e, he⟩ | ⟨o, ho⟩
      · rw [he]
        exact .refused e e'
      · obtain ⟨e, he⟩ := byStats_refused s (.ofText x.left.1) o (.inr rfl)
        rw [ho]
        change SameEnd (s.byStats (.ofText x.left.1) (.operator o) (.ofText "=")) _
        rw [he]
        exact .refused e e'
    · rw [Compared.written, parseComparison_written x.operator x.left.2 x.right.2 hleft hright]
      exact sameEnd_self (Search.decided_byStats s _ _ _)

/-- Written comparisons of a statistic with an integer are a run of calls. -/
theorem sameEnd_addStats (xs : List (Compared Numeral)) :
    SameEnd (Cli.addStats s (xs.map (Compared.written Numeral.text)))
      (s.accept ((xs.map (Compared.asked Numeral.toValue)).map (comparisonCall .stat))) := by
  rw [List.map_map]
  refine sameEnd_run (fun _ => rfl)
    (fun s e es => (numeralStep_bind Search.byStat s e fun next => Cli.addStats next es).symm)
    (fun _ => isNamed_stat) (fun s x _ => ?_) xs rfl
  exact sameEnd_numeral (Search.decided_byStat s _ _ _) ⟨_, rfl⟩

/-- Written comparisons of amounts of mana are a run of calls. -/
theorem sameEnd_addMana (xs : List (Compared Numeral)) (h : s.catalog.Lists "mana_types") :
    SameEnd (Cli.addMana s (xs.map (Compared.written Numeral.text)))
      (s.accept ((xs.map (Compared.asked Numeral.toValue)).map (comparisonCall .mana))) := by
  rw [List.map_map]
  refine sameEnd_run (fun _ => rfl)
    (fun s e es => (numeralStep_bind Search.byMana s e fun next => Cli.addMana next es).symm)
    (fun _ => isNamed_mana) (fun s' x hs => ?_) xs rfl
  rw [← hs] at h
  exact sameEnd_numeral (Search.decided_byMana h _ _ _) ⟨_, rfl⟩

/-- Written comparisons of two statistics are a run of calls. -/
theorem sameEnd_addVersus (xs : List (Compared Operand)) :
    SameEnd (Cli.addVersus s (xs.map (Compared.written Subtype.val)))
      (s.accept ((xs.map (Compared.asked operandValue)).map (comparisonCall .stats))) := by
  rw [List.map_map]
  refine sameEnd_run (fun _ => rfl) (fun s e es => ?_) (fun _ => isNamed_stats)
    (fun s x _ => sameEnd_versus s x) xs rfl
  rw [Cli.addVersus, versusStep]
  cases parseComparison e with
  | error e => rfl
  | ok parts => rfl

end

/-- The categories and modes in the order in which the command line takes them. -/
def filterKeys : List (Category × Mode) := Cli.filterOrder.map Prod.snd

theorem nodup_filterKeys : filterKeys.Nodup := by decide

theorem mem_filterKeys {k : Category × Mode} (h : k.1.comparesNumbers = false) :
    k ∈ filterKeys := by
  obtain ⟨c, m⟩ := k
  cases c with
  | stat | statVersusStat | manaType => cases h
  | _ => cases m <;> decide

theorem comparesNumbers_of_mem_filterKeys {k : Category × Mode} (h : k ∈ filterKeys) :
    k.1.comparesNumbers = false := by
  have hall : ∀ k ∈ filterKeys, k.1.comparesNumbers = false := by decide
  exact hall k h

theorem addValues_eq_accept (s : Search) (c : Category) (m : Mode) (vs : List String) :
    Cli.addValues s c m vs = s.accept (vs.map fun v => valueCall ((c, m), v)) := by
  induction vs generalizing s with
  | nil => rfl
  | cons v vs ih =>
    rw [Cli.addValues, List.map_cons, Search.accept]
    exact congrArg _ (funext fun next => ih next)

/-- The options enter the filters category by category and mode by mode. -/
theorem addFilters_eq_accept {q : Enquiry} {o : Cli.SearchOptions}
    {order : List (String × Category × Mode)}
    (h : ∀ f ∈ order, under f.1 o.filters = under f.2 q.filters) (s : Search) :
    Cli.addFilters o s order =
      s.accept ((gathered (order.map Prod.snd) q.filters).map valueCall) := by
  induction order generalizing s with
  | nil => rfl
  | cons f order ih =>
    obtain ⟨hf, hrest⟩ := List.forall_mem_cons.1 h
    obtain ⟨name, c, m⟩ := f
    have hvalues : Cli.addFilters o s ((name, c, m) :: order) =
        Cli.addValues s c m (under name o.filters) >>= fun next =>
          Cli.addFilters o next order := rfl
    rw [hvalues, hf, addValues_eq_accept, List.map_cons, gathered, List.flatMap_cons,
      List.map_append, accept_append, List.map_map]
    exact congrArg _ (funext fun next => ih hrest next)

theorem comparesNumbers_of_mem_gathered {filters : List ((Category × Mode) × String)}
    {f : (Category × Mode) × String} (h : f ∈ gathered filterKeys filters) :
    f.1.1.comparesNumbers = false := by
  exact comparesNumbers_of_mem_filterKeys (mem_gathered.1 h).1

/-- The search of some options ends as the run of its calls does. -/
theorem search_agrees {catalog : Catalog} (hcatalog : catalog.OfTexts) {q : Enquiry}
    {o : Cli.SearchOptions} (h : q.InOptions o) :
    SameEnd (o.search catalog)
      ((Search.start catalog).accept (q.askedIn (gathered filterKeys q.filters)).calls) := by
  have hvalues : ∀ k ∈ (gathered filterKeys q.filters).map valueCall, SoundCall catalog k :=
    List.forall_mem_map.2 fun f hf =>
      sound_valueCall hcatalog (comparesNumbers_of_mem_gathered hf)
  have hdecided : Decided
      ((Search.start catalog).accept ((gathered filterKeys q.filters).map valueCall)) :=
    decided_accept (fun _ k _ h _ => hvalues k (by simp [h])) rfl
  rw [Cli.SearchOptions.search, Asked.calls, Asked.comparisonCalls, accept_append,
    addFilters_eq_accept h.filters, h.stats, h.versus, h.mana]
  refine sameEnd_bind (sameEnd_self hdecided) fun s hs => ?_
  have hs := catalog_of_accept (fun k hk => (hvalues k hk).named) hs
  rw [accept_append]
  refine sameEnd_bind (sameEnd_addStats q.stats) fun s' hs' => ?_
  have hs' := catalog_of_accept (List.forall_mem_map.2 fun _ _ => isNamed_stat) hs'
  rw [accept_append]
  refine sameEnd_bind (sameEnd_addVersus q.versus) fun s'' hs'' => ?_
  have hs'' := catalog_of_accept (List.forall_mem_map.2 fun _ _ => isNamed_stats) hs''
  apply sameEnd_addMana q.mana
  rw [hs'', hs', hs]
  exact hcatalog "mana_types" (by decide)

/-! ## Both ways -/

/-- What a first call enters comes first in its own category. -/
theorem entries_entered_cons {k : Call × List Argument} {d : Category} {e : Entry}
    (hentry : k.1.filter? k.2 = some (d, e)) (rest : List (Call × List Argument)) (c : Category) :
    (entered (k :: rest)).entries c =
      if d = c then e :: (entered rest).entries c else (entered rest).entries c := by
  by_cases h : d = c <;> simp [entered, Filters.entries, hentry, h]

section

variable (filters : List ((Category × Mode) × String)) (rest : List (Call × List Argument))

theorem valuesOf_entered (c : Category) (m : Mode) :
    valuesOf m ((entered (filters.map valueCall ++ rest)).entries c) =
      under (c, m) filters ++ valuesOf m ((entered rest).entries c) := by
  induction filters with
  | nil => rfl
  | cons f filters ih =>
    obtain ⟨⟨d, n⟩, v⟩ := f
    rw [List.map_cons, List.cons_append, entries_entered_cons rfl]
    by_cases hd : d = c <;> by_cases hn : n = m <;> simp [under, valuesOf, hd, hn] <;> exact ih

theorem entries_entered_of_comparesNumbers
    (h : ∀ f ∈ filters, f.1.1.comparesNumbers = false) {c : Category}
    (hc : c.comparesNumbers = true) :
    (entered (filters.map valueCall ++ rest)).entries c = (entered rest).entries c := by
  induction filters with
  | nil => rfl
  | cons f filters ih =>
    obtain ⟨hf, hfilters⟩ := List.forall_mem_cons.1 h
    have hne : f.1.1 ≠ c := by
      rintro rfl
      rw [hf] at hc
      cases hc
    rw [List.map_cons, List.cons_append, entries_entered_cons rfl, if_neg hne, ih hfilters]

end

/-- Filters with the same values under each category and mode count the same. -/
theorem alike_calls (q : Enquiry) {filters filters' : List ((Category × Mode) × String)}
    (h : ∀ f ∈ filters, f.1.1.comparesNumbers = false)
    (h' : ∀ f ∈ filters', f.1.1.comparesNumbers = false)
    (hunder : ∀ k : Category × Mode, k.1.comparesNumbers = false →
      under k filters = under k filters') :
    (entered (q.askedIn filters).calls).Alike (entered (q.askedIn filters').calls) := by
  refine ⟨fun c hc m => ?_, fun c hc => ?_⟩
  · rw [calls_askedIn, calls_askedIn, valuesOf_entered, valuesOf_entered, hunder (c, m) hc]
  · rw [calls_askedIn, calls_askedIn, entries_entered_of_comparesNumbers _ _ h hc,
      entries_entered_of_comparesNumbers _ _ h' hc]

/-- Whether every call enters what fits does not depend on the order of the filters. -/
theorem allFit_calls_congr {catalog : Catalog} {q : Enquiry}
    {filters filters' : List ((Category × Mode) × String)}
    (h : ∀ f, f ∈ filters ↔ f ∈ filters') :
    AllFit catalog (q.askedIn filters).calls ↔ AllFit catalog (q.askedIn filters').calls := by
  simp only [AllFit, calls_askedIn, List.forall_mem_append, List.forall_mem_map, h]

/-- The integers of an enquiry are read from numerals, so they can be printed. -/
theorem arePrintable_calls (q : Enquiry) (filters : List ((Category × Mode) × String)) :
    (entered (q.askedIn filters).calls).arePrintable = true := by
  have hinteger : ∀ (n : Numeral) (left : Term) (o : Operator),
      (Entry.comparison left o (.value (.int n.value))).isPrintable = true := by
    intro n left o
    rw [Entry.isPrintable, decide_eq_true_eq, ← Text.isWritable_iff]
    exact Text.isWritable_of_readInteger? n.reads
  rw [Filters.arePrintable, List.all_eq_true]
  rintro ⟨c, e⟩ hr
  obtain ⟨k, hk, hentry⟩ := List.mem_filterMap.1 hr
  rw [calls_askedIn, Asked.comparisonCalls, List.mem_append, List.mem_append, List.mem_append] at hk
  rcases hk with hk | hk | hk | hk
  · obtain ⟨f, -, rfl⟩ := List.mem_map.1 hk
    rw [valueCall, Call.filter?, Option.map_eq_some_iff] at hentry
    obtain ⟨entry, hentry, hsame⟩ := hentry
    obtain ⟨v, m, -, -, rfl⟩ := valueFilter?_eq_some.1 hentry
    cases hsame
    rfl
  all_goals
    obtain ⟨x, hx, rfl⟩ := List.mem_map.1 hk
    obtain ⟨x, -, rfl⟩ := List.mem_map.1 hx
    simp only [comparisonCall, Call.filter?, Option.bind_eq_bind, Option.bind_eq_some_iff,
      toOption_eq_some, Search.checkInteger_eq_ok, Option.pure_def, Option.some.injEq,
      Prod.mk.injEq] at hentry
  · obtain ⟨stat, -, o, -, n, hn, -, rfl⟩ := hentry
    cases hn
    exact hinteger x.right _ _
  · obtain ⟨left, -, o, -, right, -, -, rfl⟩ := hentry
    rfl
  · obtain ⟨symbol, -, o, -, n, hn, -, rfl⟩ := hentry
    cases hn
    exact hinteger x.right _ _

/-- **One search, asked for in two ways.** For a catalog of texts, the options of the
command line and the arguments of the server that ask for the same search are either both
refused or describe searches with the same text, which can be printed. The server may take the
filters in any order that keeps the values of each category and mode in order. -/
theorem search_of_enquiry {catalog : Catalog} (hcatalog : catalog.OfTexts) {q : Enquiry}
    {o : Cli.SearchOptions} {args : Value} (ho : q.InOptions o) (ha : q.InArguments args) :
    (∃ e e', o.search catalog = .error (.query e) ∧
      searchFor catalog args = .error (.query e')) ∨
    ∃ s s' text, o.search catalog = .ok s ∧ searchFor catalog args = .ok s' ∧
      s.printed? = .ok text ∧ s'.printed? = .ok text := by
  have hnumbers : ∀ f ∈ q.filters, f.1.1.comparesNumbers = false :=
    comparesNumbers_of_asks ha.filters
  have hnumbers' := fun f (hf : f ∈ gathered filterKeys q.filters) =>
    comparesNumbers_of_mem_gathered hf
  have hunder : ∀ k : Category × Mode, k.1.comparesNumbers = false →
      under k (gathered filterKeys q.filters) = under k q.filters :=
    fun k hk => under_gathered nodup_filterKeys (mem_filterKeys hk) q.filters
  have hserver := searchFor_eq_accept catalog ha
  have hcli := search_agrees hcatalog ho
  -- the calls are the same ones in another order, so both runs are accepted or none is
  have hcalls : AllFit catalog (q.askedIn (gathered filterKeys q.filters)).calls ↔
      AllFit catalog (q.askedIn q.filters).calls := by
    apply allFit_calls_congr
    rintro ⟨k, v⟩
    rw [mem_gathered]
    exact ⟨fun h => h.2, fun h => ⟨mem_filterKeys (hnumbers _ h), h⟩⟩
  have hresult := accept_of_sound (sound_calls hcatalog (q := q.askedIn q.filters) hnumbers)
  have hresult' := accept_of_sound
    (sound_calls hcatalog (q := q.askedIn (gathered filterKeys q.filters)) hnumbers')
  by_cases hfit : AllFit catalog (q.askedIn q.filters).calls
  · have hfit' := hcalls.2 hfit
    have halike := alike_calls q hnumbers' hnumbers hunder
    obtain ⟨text, htext⟩ := compose_eq_ok catalog.blocks (fit_entered hfit)
    rw [hresult'.1 hfit'] at hcli
    rw [hresult.1 hfit] at hserver
    have htext' := (compose_congr catalog.blocks (fit_entered hfit') (fit_entered hfit)
      halike).trans htext
    exact .inr ⟨_, _, text, hcli.eq_ok, hserver,
      printed?_eq_ok_iff.2 ⟨htext', arePrintable_calls q _⟩,
      printed?_eq_ok_iff.2 ⟨htext, arePrintable_calls q _⟩⟩
  · obtain ⟨e', he'⟩ := hresult.2 hfit
    obtain ⟨e, he⟩ := hresult'.2 fun hfit' => hfit (hcalls.1 hfit')
    rw [he] at hcli
    obtain ⟨e, he⟩ := hcli.eq_refused
    exact .inl ⟨e, e', he, hserver.trans he'⟩

theorem isWritable_three : Text.IsWritable 3 :=
  @Text.isWritable_of_readInteger? ['3'] 3 (by decide +kernel)

/-- Two words with a forbidden color between them, and a comparison of each kind. -/
theorem search_of_mixedEnquiry :
    let vocabularies := requiredVocabularies.map fun n =>
      (n, if n = "colors" then Vocabulary.ofList ["U", "R"]
        else if n = "mana_types" then Vocabulary.ofList ["\x7bU\x7d"] else Vocabulary.ofList [])
    let q : Enquiry :=
      ⟨[((.name, .mustInclude), "air"), ((.color, .disallow), "R"),
        ((.name, .mustInclude), "elemental")],
       [⟨⟨"power", by decide⟩, .greaterEqual, .ofInt 3 isWritable_three⟩],
       [⟨⟨"power", by decide⟩, .less, ⟨"toughness", by decide⟩⟩],
       [⟨⟨"u", by decide⟩, .equal, ⟨"02", 2, by decide, by decide +kernel⟩⟩]⟩
    let o : Cli.SearchOptions :=
      ⟨[("--not-color", "R"), ("--name", "air"), ("--name", "elemental")], ["power>=3"],
       ["power<toughness"], ["u=02"], 20, 0, false⟩
    let args : Value := .object
      [("filters", .list
        [.object [("category", .text "name"), ("value", .text "air")],
         .object [("category", .text "color"), ("value", .text "R"), ("mode", .text "disallow")],
         .object [("mode", .text "must_include"), ("category", .text "name"),
           ("value", .text "elemental")]]),
       ("stats", .list
        [.object [("stat", .text "power"), ("operator", .text ">="), ("value", .int 3)]]),
       ("stat_versus_stat", .list
        [.object [("left", .text "power"), ("operator", .text "<"),
          ("right", .text "toughness")]]),
       ("mana", .list
        [.object [("symbol", .text "u"), ("operator", .text "="), ("quantity", .int 2)]])]
    ∃ catalog, Catalog.ofVocabularies vocabularies [] = .ok catalog ∧ catalog.OfTexts ∧
      q.InOptions o ∧ q.InArguments args ∧
      ∃ s s' text, o.search catalog = .ok s ∧ searchFor catalog args = .ok s' ∧
        s.printed? = .ok text ∧ s'.printed? = .ok text := by
  intro vocabularies q o args
  have hmade : Catalog.ofVocabularies vocabularies [] = .ok ⟨vocabularies, []⟩ := rfl
  have hcatalog := ofTexts_of_ofVocabularies hmade (by decide)
  have ho : q.InOptions o := ⟨by decide, rfl, rfl, rfl⟩
  have ha : q.InArguments args :=
    ⟨⟨_, rfl, .cons ⟨"name", by decide, rfl, rfl, rfl⟩
        (.cons ⟨"color", by decide, rfl, rfl, rfl⟩
          (.cons ⟨"name", by decide, rfl, rfl, rfl⟩ .nil))⟩,
     ⟨_, rfl, .cons ⟨rfl, rfl, rfl⟩ .nil⟩, ⟨_, rfl, .cons ⟨rfl, rfl, rfl⟩ .nil⟩,
     ⟨_, rfl, .cons ⟨rfl, rfl, rfl⟩ .nil⟩⟩
  refine ⟨_, hmade, hcatalog, ho, ha, ?_⟩
  rcases search_of_enquiry hcatalog ho ha with ⟨e, e', h, -⟩ | h
  · -- the search is not refused
    cases h
  · exact h

/-- The integer three with some zeros before it. -/
def paddedThree (zeros : Nat) : String := String.ofList (List.replicate zeros '0' ++ ['3'])

theorem mem_paddedThree {zeros : Nat} {c : Char} (h : c ∈ (paddedThree zeros).toList) :
    c = '0' ∨ c = '3' := by
  rw [paddedThree, String.toList_ofList] at h
  rcases List.mem_append.1 h with hzero | hthree
  · exact .inl (List.eq_of_mem_replicate hzero)
  · exact .inr (List.mem_singleton.1 hthree)

theorem isSide_paddedThree (zeros : Nat) : IsSide (paddedThree zeros) := by
  intro c hc
  rcases mem_paddedThree hc with rfl | rfl <;> decide

/-- With too many zeros the integer is not read. -/
theorem rightInteger_paddedThree {zeros : Nat} (h : Text.digitLimit ≤ zeros) :
    paddedThree zeros ≠ "" ∧ ∃ e, Cli.rightInteger (paddedThree zeros) = .error e := by
  have hlike : ∀ c ∈ (paddedThree zeros).toList, Text.isDigitLike c = true := by
    intro c hc
    rcases mem_paddedThree hc with rfl | rfl <;> decide
  have hlength : (paddedThree zeros).toList.length = zeros + 1 := by
    rw [paddedThree, String.toList_ofList, List.length_append, List.length_replicate]
    rfl
  have hne : (paddedThree zeros).toList ≠ [] := by
    rw [← List.length_pos_iff, hlength]
    exact Nat.succ_pos zeros
  have hmany : ¬(paddedThree zeros).toList.length ≤ Text.digitLimit := by
    rw [hlength]
    exact Nat.not_le.2 (Nat.lt_succ_of_le h)
  have hread : Text.readInteger? (paddedThree zeros).toList = none := by
    rw [Text.readInteger?_of_isDigitLike hne hlike, decide_eq_false hmany, Bool.and_false]
    rfl
  rw [Cli.rightInteger, hread]
  exact ⟨fun hempty => hne (String.toList_eq_nil_iff.2 hempty), _, rfl⟩

/-- A comparison with what is no integer is refused on the command line. -/
theorem search_of_badInteger {right : String} (hside : IsSide right) (hne : right ≠ "")
    {e : QueryError} (h : Cli.rightInteger right = .error e) (catalog : Catalog) :
    Cli.SearchOptions.search ⟨[], ["power>=" ++ right], [], [], 20, 0, false⟩ catalog =
      .error (.query e) := by
  have hwritten : "power>=" = "power" ++ Operator.text .greaterEqual := by decide
  have hparts : parseComparison ("power>=" ++ right) = .ok ("power", .greaterEqual, right) := by
    rw [hwritten]
    exact parseComparison_written .greaterEqual (by decide) hside (by decide) hne
  have hsearch : ∀ stats : List String,
      Cli.SearchOptions.search ⟨[], stats, [], [], 20, 0, false⟩ catalog =
        Cli.addStats (Search.start catalog) stats >>= fun s =>
          Cli.addVersus s [] >>= fun s => Cli.addMana s [] := fun _ => rfl
  rw [hsearch, Cli.addStats, hparts]
  change ((Cli.rightInteger right).mapError Failure.query >>= _) >>= _ = _
  rw [h]
  rfl

/-- The number three with more zeros than are read is refused on the command line, and the server,
which is given the number itself, takes it. -/
theorem search_of_longNumeral :
    let vocabularies := requiredVocabularies.map fun n => (n, Vocabulary.ofList [])
    let o : Cli.SearchOptions := ⟨[], ["power>=" ++ paddedThree 4301], [], [], 20, 0, false⟩
    let args : Value := .object [("stats", .list
      [.object [("stat", .text "power"), ("operator", .text ">="), ("value", .int 3)]])]
    ∃ catalog, Catalog.ofVocabularies vocabularies [] = .ok catalog ∧ catalog.OfTexts ∧
      (∃ e, o.search catalog = .error (.query e)) ∧
      ∃ s text, searchFor catalog args = .ok s ∧ s.printed? = .ok text := by
  intro vocabularies o args
  have hmade : Catalog.ofVocabularies vocabularies [] = .ok ⟨vocabularies, []⟩ := rfl
  refine ⟨_, hmade, ofTexts_of_ofVocabularies hmade (by decide), ?_, ?_⟩
  · have hlong : Text.digitLimit ≤ 4301 := by decide +kernel
    obtain ⟨hne, e, he⟩ := rightInteger_paddedThree hlong
    exact ⟨e, search_of_badInteger (isSide_paddedThree _) hne he _⟩
  · obtain ⟨s, hs, hprinted⟩ : ∃ s, searchFor ⟨vocabularies, []⟩ args = .ok s ∧
        s.printed?.isOk = true := ⟨_, rfl, by decide +kernel⟩
    cases htext : s.printed? with
    | error e =>
      rw [htext] at hprinted
      cases hprinted
    | ok text => exact ⟨s, text, hs, htext⟩

end CardArchive
