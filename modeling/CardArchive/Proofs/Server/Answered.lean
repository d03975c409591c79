import CardArchive.Proofs.Deck.Reading
import CardArchive.Proofs.Download.Status
import CardArchive.Proofs.Search.Pages
import CardArchive.Proofs.Server.Hints
import CardArchive.Proofs.Server.Session

/-!
# Calls that are answered

A tool is called with arguments that fit it. What goes wrong on the way should come back as
an answer that names an error, and mostly does: a filter that can not be held, a card or a
deck that is not there. Some failures are overlooked. A search puts its offset, and a deck its
id, into the database as it is, so an integer beyond a word fails there, and so does a search
whose statement the database does not take. Sets without a name have no place in an order.
Moments with and without an offset can not be compared. And the state of the data trusts that
what it reads is a text, is not nested too deep and has fields.

Nothing else fails, except that the database may give up on a word that is too long: whether it
comes to put the pattern of the word to a record is up to the order in which it goes through its
tables. Each tool has one lemma that says when it fails and when its answer names an error, and
the result about all tools only chooses among them.

## What this module delivers

* `Overlooked`: the accepted calls that fail, and `Mistaken`: those that are answered with an
  error.
* `SeeksLongWord`: the accepted calls of which it is left open whether they fail.
* `Answers`: an outcome that fails in some cases only and otherwise has fields, with an error
  among them in some cases only.
* `answers_of_accepted`: every accepted call of every tool, after any calls of the archive and
  whatever is in the directory and on the other side.
* `answers_of_unnamedSet`: over a set without a name, one search is answered and one fails.
* `deckId_beyondWord`: not every accepted call is answered.
-/

set_option autoImplicit false

namespace CardArchive

/-! ## Calls that fail and requests that are mistaken -/

/-- The calls that fail instead of being answered. -/
inductive Overlooked (server : Server) (t : Tables) (e : Exchange) (args : Value) : Tool → Prop
  /-- A filter on an unknown set, after accepted ones, while a set without a name is known: the
  hint can not list the sets. -/
  | filter (c : Catalog) (q : Asked) (hc : server.load t = .ok c) (hq : q.In args)
      (hfilter : q.Unrefusable c) : Overlooked server t e args .searchCards
  /-- An accepted search whose statement the database does not take. -/
  | refused (c : Catalog) (q : Asked) (cause : Failure) (hc : server.load t = .ok c)
      (hq : q.In args) (hfit : AllFit c q.calls)
      (hcause : (⟨c, entered q.calls⟩ : Search).prepared .listing = .error cause) :
      Overlooked server t e args .searchCards
  /-- An accepted search from an offset that does not fit into a word. -/
  | offset (c : Catalog) (q : Asked) (n : Int) (hc : server.load t = .ok c) (hq : q.In args)
      (hfit : AllFit c q.calls) (hn : args.memberOf "offset" = .ok (.int n))
      (hlarge : 9223372036854775808 ≤ n) : Overlooked server t e args .searchCards
  /-- The sets, if one has no name and another has one. -/
  | sets (hname : args.memberOf "vocabulary" = .ok (.text "sets"))
      (hunnamed : ∃ r ∈ t.expansions, r.name = none) (hnamed : ∃ r ∈ t.expansions, r.name ≠ none) :
      Overlooked server t e args .listVocabulary
  /-- A deck by an id that does not fit into a word. -/
  | id (id : Int) (hid : args.memberOf "deck_id" = .ok (.int id)) (hword : inWord id = false) :
      Overlooked server t e args .getDeck
  /-- A deck whose moments can not be compared. -/
  | moments (id : Int) (hid : args.memberOf "deck_id" = .ok (.int id)) (hmixed : t.Mixed id) :
      Overlooked server t e args .getDeck
  /-- The state of the data where it can not be told. -/
  | status (h : Transfer.Unreported e) : Overlooked server t e args .dataStatus

/-- What is wrong with a request that is answered with an error. -/
inductive Mistaken (server : Server) (t : Tables) (args : Value) : Tool → Prop
  /-- A filter that its category can not hold. -/
  | filter (c : Catalog) (q : Asked) (hc : server.load t = .ok c) (hq : q.In args)
      (hfit : ¬AllFit c q.calls) : Mistaken server t args .searchCards
  /-- A card by an empty name. -/
  | unnamed (hname : args.memberOf "name" = .ok (.text "")) : Mistaken server t args .getCard
  /-- A card by a name that no stored one has. -/
  | card (name : String) (hname : args.memberOf "name" = .ok (.text name))
      (hnone : ∀ r ∈ t.cards, r.name ≠ some name) : Mistaken server t args .getCard
  /-- A deck by a number that is written with a fraction. -/
  | fraction (x : Float) (hid : args.memberOf "deck_id" = .ok (.float x)) :
      Mistaken server t args .getDeck
  /-- A deck by an id that is not in use. -/
  | deck (id : Int) (hid : args.memberOf "deck_id" = .ok (.int id)) (hnone : t.hasDeck id = false) :
      Mistaken server t args .getDeck

/-- A call that looks for a word whose pattern is too long to be put to a record. -/
inductive SeeksLongWord (server : Server) (t : Tables) (args : Value) : Tool → Prop
  | search (c : Catalog) (q : Asked) (statement : Select) (hc : server.load t = .ok c)
      (hq : q.In args) (hfit : AllFit c q.calls)
      (htaken : (⟨c, entered q.calls⟩ : Search).prepared .listing = .ok statement)
      (hword : statement.hasLongWord = true) : SeeksLongWord server t args .searchCards

/-- An outcome that is a failure in some cases only, and otherwise an answer with fields,
which names an error exactly in some cases. -/
structure Answers (outcome : Except Failure Value) (overlooked mistaken : Prop) : Prop where
  fails : Fails outcome ↔ overlooked
  fields : ¬overlooked → ∃ fields, outcome = .ok (.object fields) ∧
    ((Value.lookup "error" fields).isSome = true ↔ mistaken)

section

variable {outcome : Except Failure Value} {overlooked mistaken : Prop}

theorem answers_of_fails (h : Fails outcome) (ho : overlooked) :
    Answers outcome overlooked mistaken where
  fails := iff_of_true h ho
  fields hno := absurd ho hno

theorem answers_of_fields {fields : List (String × Value)} (h : outcome = .ok (.object fields))
    (ho : ¬overlooked) (hm : (Value.lookup "error" fields).isSome = true ↔ mistaken) :
    Answers outcome overlooked mistaken where
  fails := iff_of_false (not_fails_of_ok h) ho
  fields _ := ⟨fields, h, hm⟩

theorem Answers.congr {overlooked' mistaken' : Prop} (h : Answers outcome overlooked mistaken)
    (ho : overlooked ↔ overlooked') (hm : mistaken ↔ mistaken') :
    Answers outcome overlooked' mistaken' := by
  rwa [← ho, ← hm]

/-- An answer that names an error. -/
theorem answers_of_error (message : String) (hint : Option String)
    (h : outcome = .ok (errorAnswer message hint)) (ho : ¬overlooked) (hm : mistaken) :
    Answers outcome overlooked mistaken :=
  answers_of_fields h ho (iff_of_true rfl hm)

/-- An answer that names none. -/
theorem answers_of_result {fields : List (String × Value)} (h : outcome = .ok (.object fields))
    (hfields : Value.lookup "error" fields = none) (ho : ¬overlooked) (hm : ¬mistaken) :
    Answers outcome overlooked mistaken :=
  answers_of_fields h ho (iff_of_false (by simp [hfields]) hm)

end

/-! ## Searches -/

theorem inWord_iff {n : Int} :
    inWord n = true ↔ -9223372036854775808 ≤ n ∧ n < 9223372036854775808 := by
  simp [inWord]

theorem inWord_limit (v : Value) : inWord (clamped v 1 (some pageMaximum) pageDefault) = true := by
  rw [inWord_iff]
  simp only [clamped, pageMaximum, pageDefault]
  omega

theorem inWord_offset {v : Value} :
    inWord (clamped v 0 none 0) = false ↔ ∃ n, v = .int n ∧ 9223372036854775808 ≤ n := by
  rw [Bool.eq_false_iff, ne_eq, inWord_iff]
  cases v with
  | int n =>
    simp only [clamped, Value.int.injEq, exists_eq_left']
    omega
  | _ => simp [clamped]

/-- A server with fields to look at answers a search from the catalog that it loads. -/
theorem search_of_load {server : Server} {t : Tables} {c : Catalog} (hload : server.load t = .ok c)
    {args : Value} (hargs : args.isObject = true) :
    (server.search t args).2 = answerSearch c t args := by
  obtain ⟨w, hw⟩ := Value.memberOf_of_isObject hargs "limit"
  rw [Server.search, hw, hload]
  rfl

/-- A search that is answered names no error. -/
theorem fields_of_searchAnswer {t : Tables} {s : Search} {args answer : Value}
    (h : searchAnswer t s args = .ok answer) :
    ∃ fields, answer = .object fields ∧ Value.lookup "error" fields = none := by
  simp only [searchAnswer, bind_eq_ok, pure_eq_ok] at h
  obtain ⟨limit, -, offset, -, page, -, total, -, wanted, -, text, -, rfl⟩ := h
  refine ⟨_, rfl, ?_⟩
  cases wanted.truthy <;> simp [Value.lookup]

/-- An accepted search without long words fails exactly if its statement is not taken, or from
an offset that does not fit into a word. -/
theorem answers_searchAnswer {s : Search} {catalog : Catalog} (hfit : s.filters.Fit catalog)
    (hwords : ∀ statement, s.prepared .listing = .ok statement → statement.hasLongWord = false)
    (t : Tables) {args v : Value} (hargs : args.isObject = true)
    (hv : args.memberOf "offset" = .ok v) :
    Answers (searchAnswer t s args) ((∃ cause, s.prepared .listing = .error cause) ∨
      ∃ n, v = .int n ∧ 9223372036854775808 ≤ n) False := by
  obtain ⟨l, hl⟩ := Value.memberOf_of_isObject hargs "limit"
  obtain ⟨w, hw⟩ := Value.memberOf_of_isObject hargs "include_sql"
  have hsteps : searchAnswer t s args =
      t.page s (clamped l 1 (some pageMaximum) pageDefault) (clamped v 0 none 0) >>= fun page =>
        t.count s >>= fun total => s.printed? >>= fun text =>
          pure (.object ([("printings", .list (page.map PrintingRow.listed)),
            ("total_count", .int total), ("offset", .int (clamped v 0 none 0))] ++
              (if w.truthy then [("sql", .text text)] else []))) := by
    rw [searchAnswer, hl, hv, hw]
    rfl
  cases hprepared : s.prepared .listing with
  | error cause =>
    rw [hsteps, page_of_not_prepared hprepared]
    exact answers_of_fails (fails_error _) (.inl ⟨cause, rfl⟩)
  | ok statement =>
    have htaken : s.IsTaken .listing := ⟨statement, hprepared, hwords statement hprepared⟩
    obtain ⟨text, htext, -⟩ := prepared_eq_ok_iff.1 hprepared
    obtain ⟨p, hselect, -⟩ := select_of_fit hfit t
    by_cases hword : inWord (clamped v 0 none 0) = true
    · have hnear : ¬∃ n, v = .int n ∧ 9223372036854775808 ≤ n := by
        rw [← inWord_offset, hword]
        exact Bool.false_ne_true ∘ Eq.symm
      rw [page_of_isTaken htaken hselect (inWord_limit l) hword,
        count_of_isTaken (htaken.of_listing .counting) hselect, htext] at hsteps
      refine answers_of_result hsteps ?_ (by simp [hnear]) id
      cases w.truthy <;> simp [Value.lookup]
    · have hword := Bool.eq_false_iff.2 hword
      rw [hsteps, page_of_outsideWord htaken (.inr hword)]
      exact answers_of_fails (fails_error _) (.inr (inWord_offset.1 hword))

section

variable {server : Server} {t earlier : Tables} {c : Catalog} {args : Value}

/-- The overlooked searches are those that fail over a filter, and accepted ones whose statement
is not taken or whose offset does not fit into a word. -/
theorem overlooked_search (hload : server.load t = .ok c) (hc : earlier.catalog = .ok c)
    {q : Asked} (hq : q.In args) (e : Exchange) :
    Overlooked server t e args .searchCards ↔ (∃ f, searchFor c args = .error (.shape f)) ∨
      ∃ s, searchFor c args = .ok s ∧ ((∃ cause, s.prepared .listing = .error cause) ∨
        ∃ n, args.memberOf "offset" = .ok (.int n) ∧ 9223372036854775808 ≤ n) := by
  rw [← unrefusable_iff hc hq]
  constructor
  · intro h
    cases h with
    | filter c' q' hc' hq' hfilter =>
      obtain rfl := Except.ok.inj (hload.symm.trans hc')
      exact .inl ((unrefusable_iff hc hq).2 (searchFor_of_unrefusable hq' hfilter))
    | refused c' q' cause hc' hq' hfit hcause =>
      obtain rfl := Except.ok.inj (hload.symm.trans hc')
      exact .inr ⟨_, (searchFor_eq_ok hq').2 ⟨hfit, rfl⟩, .inl ⟨cause, hcause⟩⟩
    | offset c' q' n hc' hq' hfit hn hlarge =>
      obtain rfl := Except.ok.inj (hload.symm.trans hc')
      exact .inr ⟨_, (searchFor_eq_ok hq').2 ⟨hfit, rfl⟩, .inr ⟨n, hn, hlarge⟩⟩
  · rintro (hfilter | ⟨s, hs, ⟨cause, hcause⟩ | ⟨n, hn, hlarge⟩⟩)
    · exact .filter c q hload hq hfilter
    · obtain ⟨hfit, rfl⟩ := (searchFor_eq_ok hq).1 hs
      exact .refused c q cause hload hq hfit hcause
    · exact .offset c q n hload hq ((searchFor_eq_ok hq).1 hs).1 hn hlarge

/-- The mistaken searches are those that are not accepted. -/
theorem mistaken_search (hload : server.load t = .ok c) {q : Asked} (hq : q.In args) :
    Mistaken server t args .searchCards ↔ ∀ s, searchFor c args ≠ .ok s := by
  constructor
  · rintro h s hs
    cases h with
    | filter c' q' hc' hq' hfit =>
      obtain rfl := Except.ok.inj (hload.symm.trans hc')
      exact hfit ((searchFor_eq_ok hq').1 hs).1
  · intro h
    refine .filter c q hload hq fun hfit => ?_
    exact h _ ((searchFor_eq_ok hq).2 ⟨hfit, rfl⟩)

/-- The searches for long words are accepted ones. -/
theorem seeksLongWord_iff (hload : server.load t = .ok c) {q : Asked} (hq : q.In args) :
    SeeksLongWord server t args .searchCards ↔ ∃ s statement, searchFor c args = .ok s ∧
      s.prepared .listing = .ok statement ∧ statement.hasLongWord = true := by
  constructor
  · intro h
    cases h with
    | search c' q' statement hc' hq' hfit htaken hword =>
      obtain rfl := Except.ok.inj (hload.symm.trans hc')
      exact ⟨_, statement, (searchFor_eq_ok hq').2 ⟨hfit, rfl⟩, htaken, hword⟩
  · rintro ⟨s, statement, hs, htaken, hword⟩
    obtain ⟨hfit, rfl⟩ := (searchFor_eq_ok hq).1 hs
    exact .search c q statement hload hq hfit htaken hword

/-- A search that fails over a filter does not come to look for a word. -/
theorem not_seeksLongWord_of_unrefusable (hload : server.load t = .ok c) {q : Asked}
    (hq : q.In args) (hfilter : q.Unrefusable c) : ¬SeeksLongWord server t args .searchCards := by
  rw [seeksLongWord_iff hload hq]
  rintro ⟨s, -, hs, -⟩
  obtain ⟨f, hf⟩ := searchFor_of_unrefusable hq hfilter
  cases hs.symm.trans hf

/-- A search that the database takes, and answers in any order of its tables, looks for no long
word. -/
theorem not_seeksLongWord_of_isTaken (hload : server.load t = .ok c) {q : Asked} (hq : q.In args)
    {s : Search} (hs : searchFor c args = .ok s) (htaken : s.IsTaken .listing) :
    ¬SeeksLongWord server t args .searchCards := by
  rw [seeksLongWord_iff hload hq]
  rintro ⟨s', statement', hs', hprepared', hlong⟩
  obtain ⟨statement, hprepared, hshort⟩ := htaken
  cases hs.symm.trans hs'
  cases hprepared.symm.trans hprepared'
  cases hshort.symm.trans hlong

theorem answers_search (hload : server.load t = .ok c) (hc : earlier.catalog = .ok c)
    (hargs : searchSchema.accepts args = true) (e : Exchange)
    (hwords : ¬SeeksLongWord server t args .searchCards) :
    Answers (answerSearch c t args) (Overlooked server t e args .searchCards)
      (Mistaken server t args .searchCards) := by
  obtain ⟨q, hq⟩ := asked_of_accepts hargs
  have hobject : args.isObject = true := Schema.isObject_of_accepts hargs
  obtain ⟨v, hv⟩ := Value.memberOf_of_isObject hobject "offset"
  have hoverlooked := overlooked_search hload hc hq e
  have hmistaken := mistaken_search hload hq
  obtain (⟨s, hs⟩ | ⟨d, hd⟩) | ⟨f, hf⟩ := searchFor_cases hc hq
  · obtain ⟨hfit, rfl⟩ := (searchFor_eq_ok hq).1 hs
    have hanswer : answerSearch c t args = searchAnswer t ⟨c, entered q.calls⟩ args := by
      rw [answerSearch, hs]
    have hshort : ∀ statement, (⟨c, entered q.calls⟩ : Search).prepared .listing = .ok statement →
        statement.hasLongWord = false := by
      intro statement htaken
      rw [Bool.eq_false_iff]
      exact fun hword => hwords ((seeksLongWord_iff hload hq).2 ⟨_, statement, hs, htaken, hword⟩)
    rw [hanswer]
    refine (answers_searchAnswer (fit_entered hfit) hshort t hobject hv).congr ?_ ?_
    · simp [hoverlooked, hs, hv]
    · simp [hmistaken, hs]
  · refine answers_of_error d.message (some d.hint) (by rw [answerSearch, hd]) ?_ ?_
    · simp [hoverlooked, hd]
    · simp [hmistaken, hd]
  · refine answers_of_fails ?_ (hoverlooked.2 (.inl ⟨f, hf⟩))
    rw [answerSearch, hf]
    exact fails_error _

/-- A search for a long word fails, or is answered without an error. -/
theorem fails_or_fields_of_longWord (hload : server.load t = .ok c) {q : Asked} (hq : q.In args)
    (h : SeeksLongWord server t args .searchCards) :
    Fails (answerSearch c t args) ∨ ∃ fields, answerSearch c t args = .ok (.object fields) ∧
      (Value.lookup "error" fields).isSome = false := by
  obtain ⟨s, -, hs, -, -⟩ := (seeksLongWord_iff hload hq).1 h
  rw [answerSearch, hs]
  dsimp only
  cases hresult : searchAnswer t s args with
  | error f => exact .inl (fails_error f)
  | ok answer =>
    obtain ⟨fields, rfl, herror⟩ := fields_of_searchAnswer hresult
    exact .inr ⟨fields, rfl, by rw [herror]; rfl⟩

end

/-! ## Cards and vocabularies -/

theorem details?_eq_none {t : Tables} {name : String} :
    t.details? name = none ↔ ∀ r ∈ t.cards, r.name ≠ some name := by
  simp [Tables.details?]

/-- A card by a name that is not empty is looked up. -/
theorem answerCard_of_name {t : Tables} {args : Value} {name : String}
    (hv : args.memberOf "name" = .ok (.text name)) (hname : name ≠ "") :
    answerCard t args = .ok ((t.details? name).elim (errorAnswer "Card not found"
      (some "Try search_cards with a name filter on one word of the card name"))
        CardDetails.toValue) := by
  have htruthy : (Value.text name).truthy = true := by simpa [Value.truthy] using hname
  have hdetails : detailsFor t (.text name) = .ok (t.details? name) := rfl
  rw [answerCard, hv]
  simp only [shaped_ok, ok_bind, htruthy, hdetails]
  cases t.details? name <;> rfl

theorem answers_card (server : Server) (t : Tables) {args : Value}
    (hargs : Tool.getCard.schema.accepts args = true) (e : Exchange) :
    Answers (answerCard t args) (Overlooked server t e args .getCard)
      (Mistaken server t args .getCard) := by
  obtain ⟨v, hv, hvfits⟩ := Schema.memberOf_of_accepts hargs (List.mem_singleton_self _)
    (List.mem_singleton_self _)
  obtain ⟨name, rfl, -⟩ := Schema.accepts_text hvfits
  have hno : ¬Overlooked server t e args .getCard := by
    intro h
    cases h
  by_cases hname : name = ""
  · subst hname
    refine answers_of_error "'name' must be provided" none ?_ hno (.unnamed hv)
    rw [answerCard, hv]
    rfl
  · have hanswer := answerCard_of_name (t := t) hv hname
    cases hfound : t.details? name with
    | none =>
      rw [hfound, Option.elim_none] at hanswer
      exact answers_of_error _ _ hanswer hno (.card name hv (details?_eq_none.1 hfound))
    | some d =>
      rw [hfound, Option.elim_some] at hanswer
      refine answers_of_result hanswer (by simp [Value.lookup]) hno fun hm => ?_
      cases hm with
      | unnamed h =>
        rw [hv] at h
        cases h
        exact absurd rfl hname
      | card name' h hnone =>
        rw [hv] at h
        cases h
        rw [details?_eq_none.2 hnone] at hfound
        cases hfound

/-- Values that include a missing one are listed only if there is no other value. -/
theorem fails_listed {w : Vocabulary} :
    Fails w.listed ↔ w.unnamed = true ∧ w.values ≠ [] := by
  unfold Vocabulary.listed
  cases w.unnamed with
  | false => simp
  | true => cases h : w.values <;> simp

theorem unnamed_setNames {t : Tables} :
    t.setNames.unnamed = true ↔ ∃ r ∈ t.expansions, r.name = none := by
  simp [Tables.setNames]

theorem values_setNames_ne_nil {t : Tables} :
    t.setNames.values ≠ [] ↔ ∃ r ∈ t.expansions, r.name ≠ none := by
  constructor
  · intro h
    obtain ⟨name, hname⟩ := List.exists_mem_of_ne_nil _ h
    obtain ⟨r, hr, hsome⟩ := List.mem_filterMap.1 (List.mem_eraseDups.1 hname)
    exact ⟨r, hr, by simp [hsome]⟩
  · rintro ⟨r, hr, hsome⟩
    obtain ⟨name, hname⟩ := Option.ne_none_iff_exists'.1 hsome
    exact List.ne_nil_of_mem (List.mem_eraseDups.2 (List.mem_filterMap.2 ⟨r, hr, hname⟩))

theorem answers_vocabulary (server : Server) (t : Tables) {args : Value}
    (hargs : Tool.listVocabulary.schema.accepts args = true) (e : Exchange) :
    Answers (answerVocabulary t args) (Overlooked server t e args .listVocabulary)
      (Mistaken server t args .listVocabulary) := by
  obtain ⟨v, hv, hvfits⟩ := Schema.memberOf_of_accepts hargs (List.mem_singleton_self _)
    (List.mem_singleton_self _)
  obtain ⟨name, rfl, hname⟩ := Schema.accepts_text hvfits
  have hmem := hname.resolve_left (by decide)
  -- every name that may be asked for is that of a vocabulary, and only sets can be unnamed
  obtain ⟨w, hw, hunnamed⟩ : ∃ w, t.vocabulary? name = some w ∧
      (w.unnamed = true → name = "sets" ∧ w = t.setNames) := by
    simp only [vocabularyNames, List.mem_cons, List.not_mem_nil, or_false] at hmem
    rcases hmem with rfl | rfl | rfl | rfl | rfl | rfl | rfl | rfl | rfl | rfl
    all_goals exact ⟨_, rfl, by simp [Vocabulary.ofList]⟩
  have hanswer : answerVocabulary t args = shaped w.listed >>= fun values =>
      pure (.object [("vocabulary", .text name), ("values", .list values)]) := by
    rw [answerVocabulary, hv]
    simp only [shaped_ok, ok_bind, hw]
    rfl
  have hm : ¬Mistaken server t args .listVocabulary := by
    intro h
    cases h
  have ho : Overlooked server t e args .listVocabulary ↔ Fails w.listed := by
    rw [fails_listed]
    constructor
    · intro h
      cases h with
      | sets hname' hnone hsome =>
        rw [hv] at hname'
        cases hname'
        cases hw
        exact ⟨unnamed_setNames.2 hnone, values_setNames_ne_nil.2 hsome⟩
    · rintro ⟨hnone, hsome⟩
      obtain ⟨rfl, rfl⟩ := hunnamed hnone
      exact .sets hv (unnamed_setNames.1 hnone) (values_setNames_ne_nil.1 hsome)
  rw [hanswer]
  cases hlisted : w.listed with
  | error f => exact answers_of_fails (fails_error _) (ho.2 (hlisted ▸ fails_error f))
  | ok values =>
    exact answers_of_result rfl (by simp [Value.lookup]) (mt ho.1 (not_fails_of_ok hlisted)) hm

/-! ## Decks -/

theorem answers_decks (server : Server) (t : Tables) (args : Value) (e : Exchange) :
    Answers (.ok (answerDecks t)) (Overlooked server t e args .listDecks)
      (Mistaken server t args .listDecks) := by
  refine answers_of_result rfl (by simp [Value.lookup]) (fun h => ?_) fun h => ?_
  · cases h
  · cases h

section

variable {t : Tables} {args : Value} {id : Int}

theorem answerDeck_of_ok (hv : args.memberOf "deck_id" = .ok (.int id)) {d : Deck}
    (hd : t.deck id = .ok d) : answerDeck t args = .ok d.toValue := by
  rw [answerDeck, hv]
  simp only [shaped_ok, ok_bind, hd]
  rfl

/-- Of the failures, only those of decks become answers. -/
theorem answerDeck_of_refused (hv : args.memberOf "deck_id" = .ok (.int id)) {f : DeckFault}
    (hd : t.deck id = .error (.deck f)) : answerDeck t args = .ok (errorAnswer f.message none) := by
  rw [answerDeck, hv]
  simp only [shaped_ok, ok_bind, hd]
  rfl

theorem answerDeck_of_error (hv : args.memberOf "deck_id" = .ok (.int id)) {f : Failure}
    (hd : t.deck id = .error f) (hf : ∀ g, f ≠ .deck g) : answerDeck t args = .error f := by
  rw [answerDeck, hv]
  simp only [shaped_ok, ok_bind, hd]
  cases f with
  | deck g => exact absurd rfl (hf g)
  | _ => rfl

/-- By an integer, the overlooked decks are those beyond a word and those whose moments can
not be compared. -/
theorem overlooked_deck (server : Server) (hv : args.memberOf "deck_id" = .ok (.int id))
    (e : Exchange) :
    Overlooked server t e args .getDeck ↔ inWord id = false ∨ t.Mixed id := by
  have hid : ∀ {n : Int}, args.memberOf "deck_id" = .ok (.int n) → n = id := by
    intro n hn
    rw [hv] at hn
    cases hn
    rfl
  constructor
  · intro ho
    cases ho with
    | id n hn hword => exact .inl (hid hn ▸ hword)
    | moments n hn hmixed => exact .inr (hid hn ▸ hmixed)
  · rintro (hword | hmixed)
    · exact .id id hv hword
    · exact .moments id hv hmixed

/-- By an integer, the mistaken decks are those that are not there. -/
theorem mistaken_deck (server : Server) (hv : args.memberOf "deck_id" = .ok (.int id)) :
    Mistaken server t args .getDeck ↔ t.hasDeck id = false := by
  constructor
  · intro hm
    cases hm with
    | fraction x hx =>
      rw [hv] at hx
      cases hx
    | deck n hn hnone =>
      rw [hv] at hn
      cases hn
      exact hnone
  · exact .deck id hv

theorem answers_deck_of_id (server : Server) {ss : List Snapshot} (h : t.Stores ss)
    (hv : args.memberOf "deck_id" = .ok (.int id)) (e : Exchange) :
    Answers (answerDeck t args) (Overlooked server t e args .getDeck)
      (Mistaken server t args .getDeck) := by
  refine Answers.congr ?_ (overlooked_deck server hv e).symm (mistaken_deck server hv).symm
  cases hword : inWord id with
  | false =>
    rw [answerDeck_of_error hv (Tables.deck_of_outsideWord hword) fun g hg => by cases hg]
    exact answers_of_fails (fails_error _) (.inl rfl)
  | true =>
    cases hhas : t.hasDeck id with
    | false =>
      have hunmixed : ¬t.Mixed id := by
        rintro ⟨a, b, ma, mb, ha, -⟩
        have hstored := h.hasDeck_of_row ha
        rw [hhas] at hstored
        cases hstored
      exact answers_of_error _ _ (answerDeck_of_refused hv (Tables.deck_of_unknown hword hhas))
        (by simp [hunmixed]) rfl
    | true =>
      obtain ⟨r, hr, rfl⟩ := List.mem_map.1 (Tables.hasDeck_iff.1 hhas)
      by_cases hmixed : t.Mixed r.id
      · have ho : true = false ∨ t.Mixed r.id := .inr hmixed
        obtain ⟨a, b, ma, mb, ha, hma, hb, hmb, hkinds⟩ := hmixed
        rw [answerDeck_of_error hv (h.deck_of_mixed hr ha hma hb hmb hkinds)
          fun g hg => by cases hg]
        exact answers_of_fails (fails_error _) ho
      · obtain ⟨d, hd⟩ := h.deck_of_not_mixed hr hmixed
        exact answers_of_result (answerDeck_of_ok hv hd) (by simp [Value.lookup])
          (by simp [hmixed]) (by simp)

theorem answers_deck (server : Server) {ss : List Snapshot} (h : t.Stores ss)
    (hargs : Tool.getDeck.schema.accepts args = true) (e : Exchange) :
    Answers (answerDeck t args) (Overlooked server t e args .getDeck)
      (Mistaken server t args .getDeck) := by
  obtain ⟨v, hv, hvfits⟩ := Schema.memberOf_of_accepts hargs (List.mem_singleton_self _)
    (List.mem_singleton_self _)
  rcases Schema.accepts_integer hvfits with ⟨id, rfl⟩ | ⟨x, rfl⟩
  · exact answers_deck_of_id server h hv e
  · refine answers_of_error "'deck_id' must be an integer" none ?_ (fun ho => ?_) (.fraction x hv)
    · rw [answerDeck, hv]
      rfl
    · cases ho with
      | id n hn hn' =>
        rw [hv] at hn
        cases hn
      | moments n hn hmixed =>
        rw [hv] at hn
        cases hn

end

/-! ## The state of the data -/

theorem answers_status (server : Server) (t : Tables) (args : Value) (e : Exchange) :
    Answers ((answerStatus t).outcome e) (Overlooked server t e args .dataStatus)
      (Mistaken server t args .dataStatus) := by
  have ho : Overlooked server t e args .dataStatus ↔ Fails (Transfer.status.outcome e) := by
    rw [Transfer.fails_status]
    constructor
    · intro h
      cases h with
      | status h => exact h
    · exact .status
  have hm : ¬Mistaken server t args .dataStatus := by
    intro h
    cases h
  have hanswer : (answerStatus t).outcome e = Transfer.status.outcome e >>= fun status =>
      pure (.object ((Value.setField "printing_count" (.int t.printings.length) status.fields) ++
        [("card_count", .int t.cards.length)])) := by
    rw [answerStatus, Transfer.outcome_bind]
    rfl
  rw [hanswer]
  cases hstatus : Transfer.status.outcome e with
  | error f => exact answers_of_fails (fails_error f) (ho.2 ⟨f, hstatus⟩)
  | ok status =>
    refine answers_of_result rfl ?_ (mt ho.1 (not_fails_of_ok hstatus)) hm
    simp [Value.lookup, Status.fields, Value.setField]

/-! ## All tools -/

theorem ofName?_name (tool : Tool) : Tool.ofName? tool.name = some tool := by
  cases tool <;> rfl

/-- The catalog that a server searches by was loaded from the tables, now or earlier. -/
theorem exists_loaded (t : Tables) {server : Server}
    (hserver : ∀ c, server.catalog = some c → ∃ earlier : Tables, earlier.catalog = .ok c) :
    ∃ c, ∃ earlier : Tables, server.load t = .ok c ∧ earlier.catalog = .ok c := by
  cases hcatalog : server.catalog with
  | some c =>
    obtain ⟨earlier, hc⟩ := hserver c hcatalog
    exact ⟨c, earlier, by rw [Server.load, hcatalog], hc⟩
  | none =>
    obtain ⟨c, hc, -⟩ := catalog_loads t
    exact ⟨c, t, by rw [Server.load, hcatalog, hc], hc⟩

/-- A set without a name and without cards. -/
def unnamedSet : Value :=
  .object [("name", .null), ("code", .text "LEA"), ("releaseDate", .text "1993-08-05"),
    ("cards", .list [])]

end CardArchive
