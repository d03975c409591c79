import CardArchive.Proofs.Search.Runs
import CardArchive.Server.Answers

/-!
# What the arguments of a search ask for

The server is asked for a search by lists of entries with named fields. Arguments that fit
the schema of a search ask for one call per entry, and the search is the run of these calls.
The schema says that there are such calls; it does not say that they are accepted.

## What this module delivers

* `accepts_text`, `accepts_integer`, `accepts_list`, `accepts_object`: what a value that fits
  a schema is.
* `memberOf_of_accepts`, `memberOr_of_accepts`: the fields of such a value.
* `Asked` and `Asked.In`: a search as it is asked for, and how it stands in arguments.
* `searchFor_eq_accept`: the search as a run of calls.
* `asked_of_accepts`: accepted arguments ask for a search.
-/

set_option autoImplicit false

namespace CardArchive

/-! ## Values that fit a schema -/

namespace Schema

variable {v : Value}

theorem accepts_text {choices : List String} {description fallback : Option String}
    (h : (text choices description fallback).accepts v = true) :
    ∃ s, v = .text s ∧ (choices = [] ∨ s ∈ choices) := by
  cases v with
  | text s => exact ⟨s, rfl, by simpa [accepts] using h⟩
  | _ => cases h

/-- An integer can also be written with a fraction of zero. -/
theorem accepts_integer {low high fallback : Option Int} {description : Option String}
    (h : (integer low high description fallback).accepts v = true) :
    (∃ n, v = .int n) ∨ ∃ x, v = .float x := by
  cases v with
  | int n => exact .inl ⟨n, rfl⟩
  | float x => exact .inr ⟨x, rfl⟩
  | _ => cases h

theorem accepts_list {items : Schema} (h : (list items).accepts v = true) :
    ∃ vs, v = .list vs ∧ ∀ w ∈ vs, items.accepts w = true := by
  cases v with
  | list vs => exact ⟨vs, rfl, by simpa [accepts] using h⟩
  | _ => cases h

/-- Each field that is there fits its schema. -/
theorem accepts_of_acceptsFields {fields : List (String × Schema)} {fs : List (String × Value)}
    (h : acceptsFields fields fs = true) {name : String} {s : Schema} (hs : (name, s) ∈ fields)
    {w : Value} (hw : Value.lookup name fs = some w) : s.accepts w = true := by
  induction fields with
  | nil => cases hs
  | cons field rest ih =>
    rw [acceptsFields, Bool.and_eq_true] at h
    obtain ⟨hfirst, hrest⟩ := h
    rcases List.mem_cons.1 hs with rfl | hs
    · rw [hw] at hfirst
      exact hfirst
    · exact ih hrest hs

section

variable {fields : List (String × Schema)} {required : List String}

theorem accepts_object (h : (object fields required).accepts v = true) :
    ∃ fs, v = .object fs ∧ (∀ name ∈ required, ∃ w, Value.lookup name fs = some w) ∧
      ∀ {name s w}, (name, s) ∈ fields → Value.lookup name fs = some w → s.accepts w = true := by
  cases v with
  | object fs =>
    rw [accepts, Bool.and_eq_true, List.all_eq_true] at h
    obtain ⟨hrequired, hfields⟩ := h
    refine ⟨fs, rfl, fun name hname => Option.isSome_iff_exists.1 (hrequired name hname), ?_⟩
    exact fun hs hw => accepts_of_acceptsFields hfields hs hw
  | _ => cases h

theorem isObject_of_accepts (h : (object fields required).accepts v = true) :
    v.isObject = true := by
  obtain ⟨fs, rfl, -⟩ := accepts_object h
  rfl

/-- A required field is there and fits. -/
theorem memberOf_of_accepts (h : (object fields required).accepts v = true) {name : String}
    {s : Schema} (hname : name ∈ required) (hs : (name, s) ∈ fields) :
    ∃ w, v.memberOf name = .ok w ∧ s.accepts w = true := by
  obtain ⟨fs, rfl, hrequired, hfits⟩ := accepts_object h
  obtain ⟨w, hw⟩ := hrequired name hname
  refine ⟨w, ?_, hfits hs hw⟩
  rw [Value.memberOf_object, hw]
  rfl

/-- A field that need not be there fits, or its fallback stands for it. -/
theorem memberOr_of_accepts (h : (object fields required).accepts v = true) {name : String}
    {s : Schema} (hs : (name, s) ∈ fields) (fallback : Value)
    (hfallback : s.accepts fallback = true) :
    ∃ w, v.memberOr name fallback = .ok w ∧ s.accepts w = true := by
  obtain ⟨fs, rfl, -, hfits⟩ := accepts_object h
  refine ⟨_, rfl, ?_⟩
  cases hw : Value.lookup name fs with
  | none => exact hfallback
  | some w => exact hfits hs hw

/-- A list of entries that fit, which is empty if it is not given. -/
theorem listed_of_accepts (h : (object fields required).accepts v = true) {name : String}
    {items : Schema} (hs : (name, list items) ∈ fields) :
    ∃ entries, listed v name = .ok entries ∧ ∀ e ∈ entries, items.accepts e = true := by
  obtain ⟨w, hw, hfits⟩ := memberOr_of_accepts h hs (.list []) rfl
  obtain ⟨entries, rfl, hentries⟩ := accepts_list hfits
  refine ⟨entries, ?_, hentries⟩
  rw [listed, hw]
  rfl

end

end Schema

/-! ## Searches as they are asked for -/

/-- A comparison as it is asked for; what stands in it may be unknown. -/
structure AskedComparison where
  left : String
  operator : Operator
  right : Value

/-- A search as it is asked for: values with their category and mode, and comparisons. -/
structure Asked where
  filters : List ((Category × Mode) × String)
  stats : List AskedComparison
  versus : List AskedComparison
  mana : List AskedComparison

/-- An entry that asks for a value of a category in a mode. A mode that is not given is the
one that requires the value. -/
def AsksFilter (entry : Value) (f : (Category × Mode) × String) : Prop :=
  ∃ name, (name, f.1.1) ∈ filterNames ∧ entry.memberOf "category" = .ok (.text name) ∧
    entry.memberOf "value" = .ok (.text f.2) ∧
    entry.memberOr "mode" (.text Mode.mustInclude.text) = .ok (.text f.1.2.text)

/-- An entry that asks for a comparison in three named fields. -/
def AsksComparison (left right : String) (entry : Value) (x : AskedComparison) : Prop :=
  entry.memberOf left = .ok (.text x.left) ∧
    entry.memberOf "operator" = .ok (.text x.operator.text) ∧
    entry.memberOf right = .ok x.right

/-- A list among the arguments whose entries ask for some things in turn. -/
def AsksInTurn {α : Type} (args : Value) (field : String) (asks : Value → α → Prop)
    (xs : List α) : Prop :=
  ∃ entries, listed args field = .ok entries ∧ List.Forall₂ asks entries xs

/-- Arguments that ask for a search. -/
structure Asked.In (q : Asked) (args : Value) : Prop where
  filters : AsksInTurn args "filters" AsksFilter q.filters
  stats : AsksInTurn args "stats" (AsksComparison "stat" "value") q.stats
  versus : AsksInTurn args "stat_versus_stat" (AsksComparison "left" "right") q.versus
  mana : AsksInTurn args "mana" (AsksComparison "symbol" "quantity") q.mana

/-- The call that enters a value. -/
def valueCall (f : (Category × Mode) × String) : Call × List Argument :=
  (.value f.1.1, [.ofText f.2, .mode f.1.2])

/-- The call that enters a comparison. -/
def comparisonCall (k : Call) (x : AskedComparison) : Call × List Argument :=
  (k, [.ofText x.left, .operator x.operator, .value x.right])

namespace Asked

/-- The calls of the comparisons of a search. -/
def comparisonCalls (q : Asked) : List (Call × List Argument) :=
  q.stats.map (comparisonCall .stat) ++
    (q.versus.map (comparisonCall .stats) ++ q.mana.map (comparisonCall .mana))

/-- The calls of a search. -/
def calls (q : Asked) : List (Call × List Argument) := q.filters.map valueCall ++ q.comparisonCalls

end Asked

/-! ## The run of the calls -/

/-- An entry of a list enters what its call enters. -/
theorem addEntries_eq_accept {α : Type} {add : Search → Value → Except Failure Search}
    {asks : Value → α → Prop} {call : α → Call × List Argument}
    (hadd : ∀ s entry x, asks entry x → add s entry = (call x).1.apply s (call x).2)
    {entries : List Value} {xs : List α} (h : List.Forall₂ asks entries xs) (s : Search) :
    addEntries add s entries = s.accept (xs.map call) := by
  induction h generalizing s with
  | nil => rfl
  | cons hasks _ ih =>
    rw [addEntries, hadd _ _ _ hasks, List.map_cons, Search.accept]
    exact congrArg _ (funext fun next => ih next)

theorem find?_filterNames {name : String} {c : Category} (h : (name, c) ∈ filterNames) :
    filterNames.find? (fun n => n.1 == name) = some (name, c) := by
  have hall : ∀ n ∈ filterNames, filterNames.find? (fun m => m.1 == n.1) = some n := by decide
  exact hall (name, c) h

/-- Only what a mode stands for matters to a filter. -/
theorem byValue_congr (s : Search) (c : Category) (value : Argument) {mode mode' : Argument}
    (h : Search.checkMode mode = Search.checkMode mode') :
    s.byValue c value mode = s.byValue c value mode' := by
  unfold Search.byValue Search.byMember Search.byWord
  rw [h]

theorem addFilter_eq (s : Search) {entry : Value} {f : (Category × Mode) × String}
    (h : AsksFilter entry f) :
    addFilter s entry = (valueCall f).1.apply s (valueCall f).2 := by
  obtain ⟨name, hname, hcategory, hvalue, hmode⟩ := h
  have hc : categoryOf entry = .ok f.1.1 := by
    rw [categoryOf, hcategory]
    simp only [shaped_ok, ok_bind, Value.checkHashable, find?_filterNames hname]
    rfl
  rw [addFilter, hc, argumentOf, hvalue, hmode]
  change s.byValue f.1.1 (.ofText f.2) (.value (.text f.1.2.text)) = _
  exact byValue_congr s f.1.1 (.ofText f.2) (Search.checkMode_text f.1.2)

theorem addComparison_eq (record : Search → Argument → Argument → Argument →
    Except Failure Search) {left right : String} (s : Search) {entry : Value}
    {x : AskedComparison} (h : AsksComparison left right entry x) :
    addComparison record left right s entry =
      record s (.ofText x.left) (.value (.text x.operator.text)) (.value x.right) := by
  obtain ⟨hleft, hoperator, hright⟩ := h
  rw [addComparison, argumentOf, argumentOf, argumentOf, hleft, hoperator, hright]
  rfl

theorem addStat_eq (s : Search) {entry : Value} {x : AskedComparison}
    (h : AsksComparison "stat" "value" entry x) :
    addComparison Search.byStat "stat" "value" s entry =
      (comparisonCall .stat x).1.apply s (comparisonCall .stat x).2 := by
  rw [addComparison_eq Search.byStat s h, Search.byStat, Search.checkOperator_text]
  rfl

theorem addStats_eq (s : Search) {entry : Value} {x : AskedComparison}
    (h : AsksComparison "left" "right" entry x) :
    addComparison Search.byStats "left" "right" s entry =
      (comparisonCall .stats x).1.apply s (comparisonCall .stats x).2 := by
  rw [addComparison_eq Search.byStats s h, Search.byStats, Search.checkOperator_text]
  rfl

theorem addMana_eq (s : Search) {entry : Value} {x : AskedComparison}
    (h : AsksComparison "symbol" "quantity" entry x) :
    addComparison Search.byMana "symbol" "quantity" s entry =
      (comparisonCall .mana x).1.apply s (comparisonCall .mana x).2 := by
  rw [addComparison_eq Search.byMana s h, Search.byMana, Search.checkOperator_text]
  rfl

/-- The search that arguments ask for is the run of its calls. -/
theorem searchFor_eq_accept (catalog : Catalog) {q : Asked} {args : Value} (h : q.In args) :
    searchFor catalog args = (Search.start catalog).accept q.calls := by
  obtain ⟨filters, hfilters, hasksFilters⟩ := h.filters
  obtain ⟨stats, hstats, hasksStats⟩ := h.stats
  obtain ⟨versus, hversus, hasksVersus⟩ := h.versus
  obtain ⟨mana, hmana, hasksMana⟩ := h.mana
  simp only [searchFor, hfilters, hstats, hversus, hmana, shaped_ok, ok_bind]
  rw [Asked.calls, Asked.comparisonCalls, accept_append,
    ← addEntries_eq_accept addFilter_eq hasksFilters]
  refine congrArg _ (funext fun s => ?_)
  rw [accept_append, ← addEntries_eq_accept addStat_eq hasksStats]
  refine congrArg _ (funext fun s => ?_)
  rw [accept_append, ← addEntries_eq_accept addStats_eq hasksVersus]
  refine congrArg _ (funext fun s => ?_)
  rw [← addEntries_eq_accept addMana_eq hasksMana]

/-! ## Each call is decided -/

section

variable {catalog : Catalog}

/-- A value is looked up in the vocabulary of its category. -/
theorem sound_valueCall_of_lists {f : (Category × Mode) × String}
    (hc : f.1.1.comparesNumbers = false)
    (h : ∀ vocabulary, Search.vocabularyOf? f.1.1 = some vocabulary → catalog.Lists vocabulary) :
    SoundCall catalog (valueCall f) := by
  refine ⟨isNamed_value_iff.2 hc, ?_⟩
  rintro s rfl
  exact Search.decided_byValue h f.2 (.mode f.1.2)

theorem sound_valueCall (hcatalog : catalog.OfTexts) {f : (Category × Mode) × String}
    (hc : f.1.1.comparesNumbers = false) : SoundCall catalog (valueCall f) :=
  sound_valueCall_of_lists hc fun _ hv => hcatalog _ (mem_required_of_vocabularyOf? hv)

theorem sound_comparisonCalls (h : catalog.Lists "mana_types") (q : Asked) :
    ∀ k ∈ q.comparisonCalls, SoundCall catalog k := by
  intro k hk
  simp only [Asked.comparisonCalls, List.mem_append, List.mem_map] at hk
  obtain ⟨x, -, rfl⟩ | ⟨x, -, rfl⟩ | ⟨x, -, rfl⟩ := hk
  · exact ⟨isNamed_stat, fun s _ => Search.decided_byStat s _ _ _⟩
  · exact ⟨isNamed_stats, fun s _ => Search.decided_byStats s _ _ _⟩
  · refine ⟨isNamed_mana, ?_⟩
    rintro s rfl
    exact Search.decided_byMana h _ _ _

theorem sound_calls (hcatalog : catalog.OfTexts) {q : Asked}
    (h : ∀ f ∈ q.filters, f.1.1.comparesNumbers = false) :
    ∀ k ∈ q.calls, SoundCall catalog k := by
  rw [Asked.calls, List.forall_mem_append, List.forall_mem_map]
  exact ⟨fun f hf => sound_valueCall hcatalog (h f hf),
    sound_comparisonCalls (hcatalog "mana_types" (by decide)) q⟩

end

/-- The filters that are asked for are those of words and values. -/
theorem comparesNumbers_of_asks {args : Value} {field : String}
    {filters : List ((Category × Mode) × String)} (h : AsksInTurn args field AsksFilter filters) :
    ∀ f ∈ filters, f.1.1.comparesNumbers = false := by
  have hnames : ∀ n ∈ filterNames, n.2.comparesNumbers = false := by decide
  obtain ⟨entries, -, hasks⟩ := h
  induction hasks with
  | nil => exact fun f hf => absurd hf List.not_mem_nil
  | cons hasks _ ih =>
    obtain ⟨name, hname, -⟩ := hasks
    exact List.forall_mem_cons.2 ⟨hnames _ hname, ih⟩

/-! ## Accepted arguments -/

theorem asksInTurn_of_forall {α : Type} {args : Value} {field : String} {asks : Value → α → Prop}
    {entries : List Value} (hentries : listed args field = .ok entries)
    (h : ∀ e ∈ entries, ∃ x, asks e x) : ∃ xs, AsksInTurn args field asks xs := by
  have hxs : ∃ xs, List.Forall₂ asks entries xs := by
    clear hentries
    induction entries with
    | nil => exact ⟨[], .nil⟩
    | cons e rest ih =>
      obtain ⟨he, hrest⟩ := List.forall_mem_cons.1 h
      obtain ⟨x, hx⟩ := he
      obtain ⟨xs, hxs⟩ := ih hrest
      exact ⟨x :: xs, .cons hx hxs⟩
  obtain ⟨xs, hxs⟩ := hxs
  exact ⟨xs, entries, hentries, hxs⟩

theorem asksFilter_of_accepts {entry : Value}
    (h : (Schema.object
        [("category", .text (filterNames.map Prod.fst) none none), ("value", anyText),
         ("mode", .text (Mode.all.map Mode.text) none (some Mode.mustInclude.text))]
        ["category", "value"]).accepts entry = true) : ∃ f, AsksFilter entry f := by
  obtain ⟨c, hc, hcfits⟩ := Schema.memberOf_of_accepts h (by decide) (.head _)
  obtain ⟨v, hv, hvfits⟩ := Schema.memberOf_of_accepts h (by decide) (.tail _ (.head _))
  obtain ⟨m, hm, hmfits⟩ := Schema.memberOr_of_accepts h (.tail _ (.tail _ (.head _)))
    (.text Mode.mustInclude.text) rfl
  obtain ⟨name, rfl, hname⟩ := Schema.accepts_text hcfits
  obtain ⟨s, rfl, -⟩ := Schema.accepts_text hvfits
  obtain ⟨mode, rfl, hmode⟩ := Schema.accepts_text hmfits
  obtain ⟨n, hn, rfl⟩ := List.mem_map.1 (hname.resolve_left (by decide))
  obtain ⟨mode, -, rfl⟩ := List.mem_map.1 (hmode.resolve_left (by decide))
  exact ⟨((n.2, mode), s), n.1, hn, hc, hv, hm⟩

/-- An entry of a comparison asks for one if its left side has to be a text. -/
theorem asksComparison_of_accepts {left right : String} {ls rs : Schema}
    (hleft : ∀ v, ls.accepts v = true → ∃ s, v = .text s) {entry : Value}
    (h : (Schema.object [(left, ls), ("operator", operatorSchema), (right, rs)]
      [left, "operator", right]).accepts entry = true) :
    ∃ x, AsksComparison left right entry x := by
  obtain ⟨l, hl, hlfits⟩ := Schema.memberOf_of_accepts h (by simp) (.head _)
  obtain ⟨o, ho, hofits⟩ := Schema.memberOf_of_accepts h (by simp) (.tail _ (.head _))
  obtain ⟨r, hr, -⟩ := Schema.memberOf_of_accepts h (by simp) (.tail _ (.tail _ (.head _)))
  obtain ⟨s, rfl⟩ := hleft l hlfits
  obtain ⟨o, rfl, hoperator⟩ := Schema.accepts_text hofits
  obtain ⟨operator, -, rfl⟩ := List.mem_map.1 (hoperator.resolve_left (by decide))
  exact ⟨⟨s, operator, r⟩, hl, ho, hr⟩

/-- Accepted arguments ask for a search. -/
theorem asked_of_accepts {args : Value} (h : searchSchema.accepts args = true) :
    ∃ q : Asked, q.In args := by
  have htext : ∀ {choices description fallback} (v : Value),
      (Schema.text choices description fallback).accepts v = true → ∃ s, v = .text s := by
    intro choices description fallback v hv
    obtain ⟨s, hs, -⟩ := Schema.accepts_text hv
    exact ⟨s, hs⟩
  obtain ⟨entries, hentries, hfits⟩ := Schema.listed_of_accepts h (.head _)
  obtain ⟨filters, hfilters⟩ :=
    asksInTurn_of_forall hentries fun e he => asksFilter_of_accepts (hfits e he)
  obtain ⟨entries, hentries, hfits⟩ := Schema.listed_of_accepts h (.tail _ (.head _))
  obtain ⟨stats, hstats⟩ :=
    asksInTurn_of_forall hentries fun e he => asksComparison_of_accepts htext (hfits e he)
  obtain ⟨entries, hentries, hfits⟩ := Schema.listed_of_accepts h (.tail _ (.tail _ (.head _)))
  obtain ⟨versus, hversus⟩ :=
    asksInTurn_of_forall hentries fun e he => asksComparison_of_accepts htext (hfits e he)
  obtain ⟨entries, hentries, hfits⟩ :=
    Schema.listed_of_accepts h (.tail _ (.tail _ (.tail _ (.head _))))
  obtain ⟨mana, hmana⟩ :=
    asksInTurn_of_forall hentries fun e he => asksComparison_of_accepts htext (hfits e he)
  exact ⟨⟨filters, stats, versus, mana⟩, hfilters, hstats, hversus, hmana⟩

end CardArchive
