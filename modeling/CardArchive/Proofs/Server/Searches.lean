import CardArchive.Proofs.Filter.Admission
import CardArchive.Proofs.Filter.Members
import CardArchive.Proofs.Search.Pages
import CardArchive.Proofs.Server.Session

/-!
# Searches of a session

A search is checked against the catalog of the first search since the last fill, and
selects from what is stored now. So it is answered as by a fresh server until that first
search, and afterwards as long as the vocabularies and the blocks stay what they were
then. Values that were listed at that time are accepted, and a block stands for the sets
that it had. What a search selects is shown if the database takes its statement.

## What this module delivers

* `Tables.Lists`: what the listing of a vocabulary reports.
* `addFilter_member`, `addMana_member`: values of a vocabulary are accepted.
* `select_one`, `select_block`: what one filter selects.
* `Session.Accepts`: arguments that are accepted as a search.
* `AnswersFrom`: answers from a catalog that was loaded earlier.
* `search_of_session`: the answers to searches in a session.
* `search_outdated`: a session whose server knows less than a fresh one.
-/

set_option autoImplicit false

namespace CardArchive

/-! ## Listed values -/

/-- The arguments that ask for a vocabulary. -/
def vocabularyArgs (name : String) : Value := .object [("vocabulary", .text name)]

/-- A vocabulary is listed with a value among its values. -/
def Tables.Lists (t : Tables) (vocabulary v : String) : Prop :=
  ∃ values, answerVocabulary t (vocabularyArgs vocabulary) =
      .ok (.object [("vocabulary", .text vocabulary), ("values", .list values)]) ∧
    .text v ∈ values

theorem mem_listed {w : Vocabulary} {values : List Value} (h : w.listed = .ok values) {v : String}
    (hv : .text v ∈ values) : v ∈ w.values := by
  unfold Vocabulary.listed at h
  split at h
  · cases h
    obtain ⟨s, hs, heq⟩ := List.mem_map.1 hv
    cases heq
    exact (Text.mem_sorted _ _).1 hs
  · split at h
    · cases h
      cases List.mem_singleton.1 hv
    · cases h

/-- A listed value belongs to the vocabulary. -/
theorem mem_of_lists {t : Tables} {vocabulary v : String} (h : t.Lists vocabulary v) :
    ∃ w, t.vocabulary? vocabulary = some w ∧ v ∈ w.values := by
  obtain ⟨values, hanswer, hv⟩ := h
  have hargs : (vocabularyArgs vocabulary).memberOf "vocabulary" = .ok (.text vocabulary) := rfl
  unfold answerVocabulary at hanswer
  obtain ⟨name, hname, hanswer⟩ := bind_eq_ok.1 hanswer
  rw [shaped_eq_ok, hargs] at hname
  cases hname
  obtain ⟨-, -, hanswer⟩ := bind_eq_ok.1 hanswer
  -- an unknown vocabulary is answered with an error and has no values
  cases hfound : t.vocabulary? vocabulary with
  | none =>
    simp [hfound, errorAnswer] at hanswer
  | some w =>
    simp only [hfound] at hanswer
    obtain ⟨listed, hlisted, hanswer⟩ := bind_eq_ok.1 hanswer
    rw [shaped_eq_ok] at hlisted
    cases hanswer
    exact ⟨w, rfl, mem_listed hlisted hv⟩

/-- An entry of a search: a value of a category with a mode. -/
def filterEntry (name v : String) (m : Mode) : Value :=
  .object [("category", .text name), ("value", .text v), ("mode", .text m.text)]

theorem categoryOf_filterEntry {name : String} {c : Category} (h : (name, c) ∈ filterNames)
    (v : String) (m : Mode) : categoryOf (filterEntry name v m) = .ok c := by
  simp only [filterNames, List.mem_cons, List.not_mem_nil, or_false, Prod.mk.injEq] at h
  rcases h with ⟨rfl, rfl⟩ | ⟨rfl, rfl⟩ | ⟨rfl, rfl⟩ | ⟨rfl, rfl⟩ | ⟨rfl, rfl⟩ | ⟨rfl, rfl⟩ |
    ⟨rfl, rfl⟩ | ⟨rfl, rfl⟩ | ⟨rfl, rfl⟩ | ⟨rfl, rfl⟩ | ⟨rfl, rfl⟩ | ⟨rfl, rfl⟩ <;> rfl

theorem checkMember_of_mem {catalog : Catalog} {vocabulary what v : String} {w : Vocabulary}
    (hw : catalog.vocabulary? vocabulary = some w) (hv : v ∈ w.values) :
    Search.checkMember catalog vocabulary what (.value (.text v)) = .ok v := by
  have hmember : Search.member? catalog vocabulary (.value (.text v)) = .ok (some v) :=
    bind_eq_ok.2 ⟨true, mapError_eq_ok.2 (contains_of_mem hw hv), rfl⟩
  exact bind_eq_ok.2 ⟨some v, hmember, rfl⟩

/-- A value of the category's vocabulary is accepted with any mode. -/
theorem addFilter_member {s : Search} {name vocabulary v : String} {c : Category} {w : Vocabulary}
    (hname : (name, c) ∈ filterNames) (hc : Search.vocabularyOf? c = some vocabulary)
    (hw : s.catalog.vocabulary? vocabulary = some w) (hv : v ∈ w.values) (m : Mode) :
    addFilter s (filterEntry name v m) = .ok (s.record c (.value v m)) := by
  have hbyMember : s.byMember c vocabulary (.value (.text v)) (.value (.text m.text)) =
      .ok (s.record c (.value v m)) := by
    unfold Search.byMember
    refine refuse_eq_ok.2 ⟨Bool.false_ne_true, ?_⟩
    refine bind_eq_ok.2 ⟨m, mapError_eq_ok.2 (Search.checkMode_text m), ?_⟩
    exact bind_eq_ok.2 ⟨v, checkMember_of_mem hw hv, rfl⟩
  refine bind_eq_ok.2 ⟨c, categoryOf_filterEntry hname v m, ?_⟩
  refine bind_eq_ok.2 ⟨.value (.text v), rfl, ?_⟩
  refine bind_eq_ok.2 ⟨.text m.text, rfl, ?_⟩
  rw [Search.byValue, hc]
  exact hbyMember

/-- An entry of a search: a comparison of the amount of a mana symbol. -/
def manaEntry (symbol : String) (o : Operator) (n : Int) : Value :=
  .object [("symbol", .text symbol), ("operator", .text o.text), ("quantity", .int n)]

/-- A symbol of the vocabulary that is written in upper case and in braces is accepted. -/
theorem addMana_member {s : Search} {v : String} {w : Vocabulary}
    (hw : s.catalog.vocabulary? "mana_types" = some w) (hv : v ∈ w.values)
    (hsymbol : Search.checkSymbol (.ofText v) = .ok v) (o : Operator) (n : Int) :
    addComparison Search.byMana "symbol" "quantity" s (manaEntry v o n) =
      .ok (s.record .manaType (.comparison (.value (.text v)) o (.value (.int n)))) := by
  refine bind_eq_ok.2 ⟨.ofText v, rfl, ?_⟩
  refine bind_eq_ok.2 ⟨.value (.text o.text), rfl, ?_⟩
  refine bind_eq_ok.2 ⟨.value (.int n), rfl, ?_⟩
  refine bind_eq_ok.2 ⟨v, mapError_eq_ok.2 hsymbol, ?_⟩
  refine bind_eq_ok.2 ⟨o, mapError_eq_ok.2 (Search.checkOperator_text o), ?_⟩
  refine bind_eq_ok.2 ⟨n, rfl, ?_⟩
  exact bind_eq_ok.2 ⟨v, checkMember_of_mem hw hv, rfl⟩

/-! ## Blocks -/

/-- A search with one filter selects the printings that its fragment admits. -/
theorem select_one {c : Catalog} {category : Category} {e : Entry} (he : e.Fits c category)
    (t : Tables) :
    ∃ p : PrintingRow → Bool, t.select ((Search.start c).record category e) =
        .ok ((t.printings.filter p).map PrintingRow.key) ∧
      ∀ r, p r = true ↔ ((fragmentOf ⟨aliasName 0, c.blocks⟩ category [e]).build 1).Admits
        t.relations r.record := by
  have hfit : ((Search.start c).record category e).filters.Fit c := fit_add (fit_empty c) he
  have hentries : ((Search.start c).record category e).filters.entries category = [e] :=
    (Filters.entries_add _ category category e).trans (if_pos rfl)
  have hactive : ((Search.start c).record category e).filters.active = [category] := by
    cases category <;> rfl
  obtain ⟨p, hselect, hp⟩ := select_of_active hfit hactive t
  rw [hentries] at hp
  exact ⟨p, hselect, hp⟩

/-- Required or alternative blocks admit the printings of their sets. -/
theorem admits_block {db : Relations} (blocks : Blocks) (b : String) {m : Mode}
    (hm : m ≠ .disallow) (r : PrintingRow) :
    ((fragmentOf ⟨aliasName 0, blocks⟩ .block [.value b m]).build 1).Admits db r.record ↔
      r.expansion ∈ blocks.setsOf b := by
  -- one value needs no nested selection
  have hfragment : (fragmentOf ⟨aliasName 0, blocks⟩ .block [.value b m]).build 1 =
      .printings (.allOf [inTexts ⟨aliasName 0, "expansion"⟩ (blocks.setsOfAll [b]) false]) := by
    cases m with
    | mustInclude => rfl
    | disallow => exact absurd rfl hm
    | oneOf => rfl
  have hcell : (outerScope r.record).cell ⟨aliasName 0, "expansion"⟩ = .text r.expansion :=
    cell_outerScope _ _
  rw [hfragment, Fragment.Admits, holds_allOf, List.forall_mem_singleton, holds_listed, hcell]
  simp [mem_setsOfAll]

/-- A block that is required, or the only alternative, selects the printings of the sets
that the catalog has under it. -/
theorem select_block {c : Catalog} {w : Vocabulary} {b : String}
    (hw : c.vocabulary? "blocks" = some w) (hb : b ∈ w.values) {m : Mode} (hm : m ≠ .disallow)
    (t : Tables) :
    ∃ keys, t.select ((Search.start c).record .block (.value b m)) = .ok keys ∧
      ∀ k, k ∈ keys ↔ ∃ r ∈ t.printings, r.key = k ∧ r.expansion ∈ c.blocks.setsOf b := by
  have hcategory : Search.vocabularyOf? .block = some "blocks" := rfl
  obtain ⟨p, hselect, hp⟩ := select_one (.member m hcategory (contains_of_mem hw hb)) t
  refine ⟨_, hselect, fun k => ?_⟩
  have hpasses : ∀ r : PrintingRow, p r = true ↔ r.expansion ∈ c.blocks.setsOf b :=
    fun r => (hp r).trans (admits_block c.blocks b hm r)
  rw [List.mem_map]
  constructor
  · rintro ⟨r, hr, rfl⟩
    obtain ⟨hmem, hpass⟩ := List.mem_filter.1 hr
    exact ⟨r, hmem, rfl, (hpasses r).1 hpass⟩
  · rintro ⟨r, hmem, rfl, hset⟩
    exact ⟨r, List.mem_filter.2 ⟨hmem, (hpasses r).2 hset⟩, rfl⟩

/-! ## Answers -/

/-- The arguments of a search with one value of a category. -/
def filterArgs (name v : String) (m : Mode) : Value :=
  .object [("filters", .list [filterEntry name v m])]

/-- The arguments of a search with one comparison of an amount of mana. -/
def manaArgs (symbol : String) (o : Operator) (n : Int) : Value :=
  .object [("mana", .list [manaEntry symbol o n])]

theorem searchFor_filterArgs {c : Catalog} {name v : String} {m : Mode} {found : Search}
    (h : addFilter (Search.start c) (filterEntry name v m) = .ok found) :
    searchFor c (filterArgs name v m) = .ok found := by
  have hentries : addEntries addFilter (Search.start c) [filterEntry name v m] = .ok found :=
    bind_eq_ok.2 ⟨found, h, rfl⟩
  refine bind_eq_ok.2 ⟨_, rfl, ?_⟩
  exact bind_eq_ok.2 ⟨found, hentries, rfl⟩

theorem searchFor_manaArgs {c : Catalog} {symbol : String} {o : Operator} {n : Int} {found : Search}
    (h : addComparison Search.byMana "symbol" "quantity" (Search.start c) (manaEntry symbol o n) =
      .ok found) : searchFor c (manaArgs symbol o n) = .ok found := by
  have hentries : addEntries (addComparison Search.byMana "symbol" "quantity") (Search.start c)
      [manaEntry symbol o n] = .ok found := bind_eq_ok.2 ⟨found, h, rfl⟩
  exact hentries

/-- The answer with the first page of some printings. -/
def firstPage (t : Tables) (keys : List PrintingKey) : Value :=
  .object [("printings", .list ((pageOf pageDefault 0 (t.inOrder keys)).map PrintingRow.listed)),
    ("total_count", .int keys.length), ("offset", .int 0)]

/-- A search that selects printings is answered with the first page of them, if the database
takes its statement and the arguments name no other page. -/
theorem searchAnswer_firstPage {t : Tables} {s : Search} {keys : List PrintingKey}
    (htaken : s.IsTaken .listing) (h : t.select s = .ok keys) {args : Value}
    (hlimit : args.memberOf "limit" = .ok .null) (hoffset : args.memberOf "offset" = .ok .null)
    (hwanted : args.memberOf "include_sql" = .ok .null) :
    searchAnswer t s args = .ok (firstPage t keys) := by
  -- a statement that is taken was printed, so its text can be shown
  obtain ⟨statement, hprepared, -⟩ := id htaken
  obtain ⟨text, hprinted, -⟩ := prepared_eq_ok_iff.1 hprepared
  have hpage : t.page s pageDefault 0 = .ok (pageOf pageDefault 0 (t.inOrder keys)) :=
    page_of_isTaken htaken h rfl rfl
  have hcount := count_of_isTaken (htaken.of_listing .counting) h
  refine bind_eq_ok.2 ⟨_, shaped_eq_ok.2 hlimit, ?_⟩
  refine bind_eq_ok.2 ⟨_, shaped_eq_ok.2 hoffset, ?_⟩
  refine bind_eq_ok.2 ⟨_, hpage, ?_⟩
  refine bind_eq_ok.2 ⟨_, hcount, ?_⟩
  refine bind_eq_ok.2 ⟨_, shaped_eq_ok.2 hwanted, ?_⟩
  exact bind_eq_ok.2 ⟨_, hprinted, rfl⟩

/-- The server of a session accepts some arguments as a search that selects some printings:
its answer is that to the search, and shows them if the database takes the statement. -/
structure Session.Accepts (s : Session) (args : Value) (found : Search)
    (keys : List PrintingKey) : Prop where
  selected : s.database.tables.select found = .ok keys
  answer : s.search args = Transfer.ofExcept (searchAnswer s.database.tables found args)
  shown : found.IsTaken .listing → s.search args = pure (firstPage s.database.tables keys)

/-- What the server of a session answers to searches if its catalog is that of earlier
tables: the answer is checked against that catalog and taken from what is stored now. It
is that of a fresh server if the catalog is still the present one. Values that were listed
in the earlier tables are accepted, symbols if they are in upper case and in braces, and a
block selects the printings of the sets that it had in them. -/
structure AnswersFrom (earlier : Tables) (c : Catalog) (s : Session) : Prop where
  answer : ∀ args, s.search args = Transfer.ofExcept (answerSearch c s.database.tables args)
  present : s.database.tables.catalog = .ok c →
    ∀ args, s.search args = (Session.start s.database).search args
  value : ∀ name category vocabulary v m, (name, category) ∈ filterNames →
    Search.vocabularyOf? category = some vocabulary → earlier.Lists vocabulary v →
    ∃ keys, s.Accepts (filterArgs name v m) ((Search.start c).record category (.value v m)) keys
  symbol : ∀ v o n, earlier.Lists "mana_types" v → Search.checkSymbol (.ofText v) = .ok v →
    ∃ keys, s.Accepts (manaArgs v o n) ((Search.start c).record .manaType
      (.comparison (.value (.text v)) o (.value (.int n)))) keys
  block : ∀ b m, m ≠ .disallow → earlier.Lists "blocks" b → ∃ keys : List PrintingKey,
    s.Accepts (filterArgs "block" b m) ((Search.start c).record .block (.value b m)) keys ∧
      ∀ k, k ∈ keys ↔ ∃ r ∈ s.database.tables.printings,
        r.key = k ∧ ⟨r.expansion, b⟩ ∈ earlier.blocks

section

variable {earlier : Tables} {c : Catalog} {s : Session}

/-- A session whose server keeps a catalog answers from it. -/
theorem search_of_kept (hserver : s.server = ⟨some c⟩) (args : Value) :
    s.search args = Transfer.ofExcept (answerSearch c s.database.tables args) := by
  rw [Session.search, call_search, hserver, search_kept]

/-- If the catalog that the server keeps is the present one, a fresh server answers the
same. -/
theorem search_of_present (hserver : s.server = ⟨some c⟩)
    (hpresent : s.database.tables.catalog = .ok c) (args : Value) :
    s.search args = (Session.start s.database).search args := by
  rw [Session.search, Session.search, call_search, call_search, hserver]
  change _ = Transfer.ofExcept (Server.fresh.search s.database.tables args).2
  cases hargs : args.isObject with
  | true => rw [search_kept, search_fresh hpresent hargs]
  | false => rw [search_refused _ _ hargs, search_refused _ _ hargs]

/-- A search that the server builds is accepted. -/
theorem accepts_of_selected (hserver : s.server = ⟨some c⟩) {args : Value} {found : Search}
    {keys : List PrintingKey} (hfound : searchFor c args = .ok found)
    (hselect : s.database.tables.select found = .ok keys)
    (hlimit : args.memberOf "limit" = .ok .null) (hoffset : args.memberOf "offset" = .ok .null)
    (hwanted : args.memberOf "include_sql" = .ok .null) : s.Accepts args found keys := by
  have hanswer : s.search args =
      Transfer.ofExcept (searchAnswer s.database.tables found args) := by
    rw [search_of_kept hserver, answerSearch, hfound]
  refine ⟨hselect, hanswer, fun htaken => ?_⟩
  rw [hanswer, searchAnswer_firstPage htaken hselect hlimit hoffset hwanted]
  rfl

/-- What was listed in the tables of a catalog belongs to the catalog's vocabulary. -/
theorem vocabulary_of_lists (hloaded : earlier.catalog = .ok c) {n v : String}
    (hn : n ∈ requiredVocabularies) (hv : earlier.Lists n v) :
    ∃ w, c.vocabulary? n = some w ∧ v ∈ w.values := by
  obtain ⟨c', hc', -, hvocabularies⟩ := catalog_loads earlier
  obtain rfl : c = c' := Except.ok.inj (hloaded.symm.trans hc')
  rw [hvocabularies n hn]
  exact mem_of_lists hv

theorem vocabularyOf_required {category : Category} {vocabulary : String}
    (h : Search.vocabularyOf? category = some vocabulary) : vocabulary ∈ requiredVocabularies := by
  cases category <;> cases h <;> decide

theorem mem_blocks_of_loaded (hloaded : earlier.catalog = .ok c) (set b : String) :
    set ∈ c.blocks.setsOf b ↔ ⟨set, b⟩ ∈ earlier.blocks := by
  obtain ⟨c', hc', hblocks, -⟩ := catalog_loads earlier
  obtain rfl : c = c' := Except.ok.inj (hloaded.symm.trans hc')
  rw [hblocks, mem_setsOf_blockSets]

theorem answersFrom_of_kept (hloaded : earlier.catalog = .ok c) (hserver : s.server = ⟨some c⟩) :
    AnswersFrom earlier c s := by
  refine ⟨search_of_kept hserver, search_of_present hserver, ?_, ?_, ?_⟩
  · intro name category vocabulary v m hname hcategory hv
    obtain ⟨w, hw, hmem⟩ := vocabulary_of_lists hloaded (vocabularyOf_required hcategory) hv
    obtain ⟨p, hselect, -⟩ :=
      select_one (.member m hcategory (contains_of_mem hw hmem)) s.database.tables
    have hfound := searchFor_filterArgs (addFilter_member hname hcategory hw hmem m)
    exact ⟨_, accepts_of_selected hserver hfound hselect rfl rfl rfl⟩
  · intro v o n hv hsymbol
    obtain ⟨w, hw, hmem⟩ := vocabulary_of_lists hloaded (by decide) hv
    obtain ⟨p, hselect, -⟩ := select_one (.mana o n (contains_of_mem hw hmem)) s.database.tables
    have hfound := searchFor_manaArgs (addMana_member hw hmem hsymbol o n)
    exact ⟨_, accepts_of_selected hserver hfound hselect rfl rfl rfl⟩
  · intro b m hm hv
    obtain ⟨w, hw, hmem⟩ := vocabulary_of_lists hloaded (by decide) hv
    obtain ⟨keys, hselect, hkeys⟩ := select_block hw hmem hm s.database.tables
    have hname : ("block", Category.block) ∈ filterNames := by decide
    have hfound := searchFor_filterArgs (addFilter_member hname rfl hw hmem m)
    refine ⟨keys, accepts_of_selected hserver hfound hselect rfl rfl rfl, fun k => ?_⟩
    rw [hkeys]
    simp only [mem_blocks_of_loaded hloaded]

end

/-! ## Searches of a session -/

/-- **Searches of a session.** Without a search since the last fill, the running server
answers a search as a fresh one would. Otherwise it answers from the catalog of the first
search since then, over what is stored now. -/
theorem search_of_session {db : Database} {events : List Event} {s : Session}
    (h : (Session.start db).run events = some s) :
    (searched events = false →
      ∀ args, s.search args = (Session.start s.database).search args) ∧
    (searched events = true → ∃ before found c, LoadedAt db events before found c ∧
      AnswersFrom found.database.tables c s) := by
  have hkeeps := keeps_run h
  refine ⟨fun hnone args => ?_, fun hsome => ?_⟩
  · rw [Session.search, hkeeps.fresh hnone]
    rfl
  · obtain ⟨before, found, c, hloaded, hserver⟩ := hkeeps.kept hsome
    exact ⟨before, found, c, hloaded, answersFrom_of_kept hloaded.loaded hserver⟩

/-- A set without cards. -/
def bareSet : Value :=
  .object [("name", .text "Alpha"), ("code", .text "LEA"), ("releaseDate", .text "1993-08-05"),
    ("cards", .list [])]

/-- A session in which a set is taken in after the first search. -/
def lateSet : List Event :=
  [.call Tool.searchCards.name (.object []), .insertSet bareSet]

/-- What that session ends with. -/
def lateSession : Session :=
  ⟨(Database.empty.insertSet bareSet).1,
    (Server.fresh.search Tables.empty (.object [])).1⟩

theorem search_of_lateSession :
    (Session.start .empty).run lateSet = some lateSession ∧ searched lateSet = true ∧
      ∃ before found c, LoadedAt .empty lateSet before found c ∧
        AnswersFrom found.database.tables c lateSession :=
  ⟨rfl, rfl, (search_of_session rfl).2 rfl⟩

/-- An answer that names an error. -/
def namesError (answer : Transfer Value) : Bool :=
  match (answer.run.run (Exchange.start [] Directory.empty)).1 with
  | .ok v => (v.field? "error").isSome
  | .error _ => false

/-- The running server does not know a set that came after its first search, and refuses
it where a fresh server accepts it. -/
theorem search_outdated : ¬∀ (db : Database) (events : List Event) (s : Session),
    (Session.start db).run events = some s →
      ∀ args, s.search args = (Session.start s.database).search args := by
  intro h
  have hsame := h .empty lateSet lateSession rfl (filterArgs "set" "Alpha" .mustInclude)
  have herror : namesError (lateSession.search (filterArgs "set" "Alpha" .mustInclude)) = true :=
    rfl
  have hnone : namesError ((Session.start lateSession.database).search
      (filterArgs "set" "Alpha" .mustInclude)) = false := by decide +kernel
  rw [hsame, hnone] at herror
  cases herror

end CardArchive
