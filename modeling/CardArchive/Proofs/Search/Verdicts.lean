import CardArchive.Proofs.Search.Determined
import CardArchive.Proofs.Search.Refusals

/-!
# Verdicts on calls

A call with the right number of arguments enters one filter into its own category, or is
refused and enters nothing. Which arguments enter which filter is said here once more, without
the order in which they are checked: words without blanks, values and symbols that the catalog
knows, modes, statistics and operators by themselves or by their texts, and integers. One kind
of argument gets past the checks: where a value is looked up, and the mode is one, a list or
an object is asked for in a set of texts, and the call breaks off with a fault of shape
instead of a refusal.

## What this module delivers

* `Argument.IsMode` and its siblings: what an argument stands for.
* `Call.Enters`: the arguments with which a call enters a filter.
* `enters_iff`: the same by the checks.
* `Call.Stumbles`: the arguments that can not be looked up.
* `call_verdict`: what a call does to a search, and with which error it fails.
* `list_unrefused`: a call that fails without being refused.
-/

set_option autoImplicit false

namespace CardArchive

/-! ## What arguments stand for -/

/-- The arguments that stand for a mode: the mode, a truth value, or the mode's text. -/
inductive Argument.IsMode : Argument → Mode → Prop
  | member (m : Mode) : IsMode (.mode m) m
  | required : IsMode (.value (.bool true)) .mustInclude
  | forbidden : IsMode (.value (.bool false)) .disallow
  | text (m : Mode) : IsMode (.ofText m.text) m

/-- The arguments that stand for a statistic: the statistic, or its text in upper or lower
case. -/
inductive Argument.IsStat : Argument → Stat → Prop
  | member (s : Stat) : IsStat (.stat s) s
  | text {written : String} {s : Stat} (h : Text.lowerAscii written = s.text) :
      IsStat (.ofText written) s

/-- The arguments that stand for an operator: the operator, or its text. -/
inductive Argument.IsOperator : Argument → Operator → Prop
  | member (o : Operator) : IsOperator (.operator o) o
  | text (o : Operator) : IsOperator (.ofText o.text) o

/-- The arguments that stand for a mana symbol: texts that are not empty, in any case and with
or without the opening brace. -/
inductive Argument.IsSymbol : Argument → String → Prop
  | braced {s : String} (hne : s ≠ "") (h : (Text.upper s).toList.head? = some '\x7b') :
      IsSymbol (.ofText s) (Text.upper s)
  | bare {s : String} (hne : s ≠ "") (h : (Text.upper s).toList.head? ≠ some '\x7b') :
      IsSymbol (.ofText s) (String.ofList ('\x7b' :: (Text.upper s).toList ++ ['\x7d']))

namespace Search

theorem checkMode_eq_ok {a : Argument} {m : Mode} : checkMode a = .ok m ↔ a.IsMode m := by
  constructor
  · intro h
    unfold checkMode at h
    split at h
    · cases h
      exact .member m
    · rename_i b
      cases b with
      | true =>
        cases h
        exact .required
      | false =>
        cases h
        exact .forbidden
    · split at h
      · rename_i s _ n hfound
        cases h
        have htext : m.text = s := by simpa using List.find?_some hfound
        rw [← htext]
        exact .text m
      · cases h
    · cases h
  · intro h
    cases h with
    | member m => rfl
    | required => rfl
    | forbidden => rfl
    | text m => exact checkMode_text m

theorem checkStat_eq_ok {a : Argument} {s : Stat} : checkStat a = .ok s ↔ a.IsStat s := by
  constructor
  · intro h
    unfold checkStat at h
    split at h
    · cases h
      exact .member s
    · split at h
      · rename_i hfound
        cases h
        have htext := List.find?_some hfound
        exact .text (eq_of_beq htext).symm
      · cases h
    · cases h
  · intro h
    cases h with
    | member s => rfl
    | text hwritten =>
      have hfound : Stat.ofText? s.text = some s := by cases s <;> decide
      simp only [checkStat, Argument.ofText, hwritten, hfound]

theorem checkOperator_eq_ok {a : Argument} {o : Operator} :
    checkOperator a = .ok o ↔ a.IsOperator o := by
  constructor
  · intro h
    unfold checkOperator at h
    split at h
    · cases h
      exact .member o
    · split at h
      · rename_i s _ p hfound
        cases h
        have htext : o.text = s := by simpa using List.find?_some hfound
        rw [← htext]
        exact .text o
      · cases h
    · cases h
  · intro h
    cases h with
    | member o => rfl
    | text o => exact checkOperator_text o

theorem checkSymbol_eq_ok {a : Argument} {symbol : String} :
    checkSymbol a = .ok symbol ↔ a.IsSymbol symbol := by
  constructor
  · intro h
    unfold checkSymbol at h
    split at h
    · rename_i s
      split at h
      · cases h
      · rename_i hempty
        have hne : s ≠ "" := fun hs => hempty (by rw [hs]; rfl)
        cases h
        split
        · rename_i hbrace
          rw [String.ofList_toList]
          exact .braced hne hbrace
        · rename_i hbrace
          exact .bare hne hbrace
    · cases h
  · intro h
    have hempty : ∀ {s : String}, s ≠ "" → s.isEmpty = false := by
      intro s hne
      simpa [String.isEmpty_iff] using hne
    cases h with
    | braced hne hbrace =>
      simp only [checkSymbol, Argument.ofText, hempty hne, hbrace, if_true, String.ofList_toList]
      rfl
    | bare hne hbrace =>
      simp only [checkSymbol, Argument.ofText, hempty hne, if_neg hbrace]
      rfl

end Search

/-! ## What a call enters -/

/-- Whether a catalog knows a text as a value of a vocabulary. -/
def Catalog.Knows (catalog : Catalog) (vocabulary v : String) : Prop :=
  ∃ w, catalog.vocabulary? vocabulary = some w ∧ v ∈ w.values

theorem knows_iff {catalog : Catalog} {vocabulary v : String} :
    catalog.Knows vocabulary v ↔ catalog.contains vocabulary (.text v) = .ok true := by
  constructor
  · rintro ⟨w, hw, hv⟩
    exact contains_of_mem hw hv
  · intro h
    unfold Catalog.contains at h
    split at h
    · cases h
    · rename_i w hw
      refine ⟨w, hw, ?_⟩
      have hholds : w.holds (.text v) = true := Except.ok.inj h
      simpa [Vocabulary.holds] using hholds

/-- The arguments after a word or a value that stand for a mode; without any, the word or
value is required. -/
inductive IsModeOf : List Argument → Mode → Prop
  | default : IsModeOf [] .mustInclude
  | given {a : Argument} {m : Mode} (h : a.IsMode m) : IsModeOf [a] m

/-- The filters that calls enter over a catalog, by their arguments. -/
inductive Call.Enters (catalog : Catalog) : Call → List Argument → Entry → Prop
  | word {c : Category} {w : String} {rest : List Argument} {m : Mode}
      (hc : c.takesWords = true) (hw : IsWord w) (hm : IsModeOf rest m) :
      Enters catalog (.value c) (.ofText w :: rest) (.value w m)
  | member {c : Category} {vocabulary v : String} {rest : List Argument} {m : Mode}
      (hc : Search.vocabularyOf? c = some vocabulary) (hv : catalog.Knows vocabulary v)
      (hm : IsModeOf rest m) : Enters catalog (.value c) (.ofText v :: rest) (.value v m)
  | stat {a b : Argument} {s : Stat} {o : Operator} (hs : a.IsStat s) (ho : b.IsOperator o)
      (n : Int) : Enters catalog .stat [a, b, .value (.int n)]
        (.comparison (.stat s) o (.value (.int n)))
  | stats {a b d : Argument} {s s' : Stat} {o : Operator} (hs : a.IsStat s)
      (ho : b.IsOperator o) (hs' : d.IsStat s') (hne : s ≠ s') :
      Enters catalog .stats [a, b, d] (.comparison (.stat s) o (.stat s'))
  | mana {a b : Argument} {symbol : String} {o : Operator} (ha : a.IsSymbol symbol)
      (ho : b.IsOperator o) (n : Int) (hv : catalog.Knows "mana_types" symbol) :
      Enters catalog .mana [a, b, .value (.int n)]
        (.comparison (.value (.text symbol)) o (.value (.int n)))

section

variable {catalog : Catalog} {k : Call} {args : List Argument} {e : Entry}

/-- A value with a mode enters a filter of its category, if the category can hold it. -/
theorem enters_value {c : Category} {v : String} {rest : List Argument} {m : Mode}
    (hm : IsModeOf rest m) (hfits : Entry.Fits catalog c (.value v m)) :
    (Call.value c).Enters catalog (.ofText v :: rest) (.value v m) := by
  cases hfits with
  | word _ hc hw => exact .word hc hw hm
  | member _ hc hv => exact .member hc (knows_iff.2 hv) hm

theorem filter?_value (c : Category) (v : String) {rest : List Argument} {m : Mode}
    (hm : IsModeOf rest m) :
    (Call.value c).filter? (.ofText v :: rest) = some (c, .value v m) := by
  cases hm with
  | default => rfl
  | given h =>
    have hfilter := valueFilter?_eq_some.2 ⟨v, m, rfl, Search.checkMode_eq_ok.2 h, rfl⟩
    simp only [Call.filter?, hfilter, Option.map_some]

/-- A call enters a filter exactly if its arguments say so and its category can hold it. -/
theorem enters_iff :
    k.Enters catalog args e ↔
      k.filter? args = some (k.category, e) ∧ e.Fits catalog k.category := by
  constructor
  · intro h
    cases h with
    | word hc hw hm => exact ⟨filter?_value _ _ hm, .word _ hc hw⟩
    | member hc hv hm => exact ⟨filter?_value _ _ hm, .member _ hc (knows_iff.1 hv)⟩
    | stat hs ho n =>
      refine ⟨?_, .stat _ _ n⟩
      simp only [Call.filter?, Search.checkStat_eq_ok.2 hs, Search.checkOperator_eq_ok.2 ho]
      rfl
    | stats hs ho hs' hne =>
      refine ⟨?_, .stats _ hne⟩
      simp only [Call.filter?, Search.checkStat_eq_ok.2 hs, Search.checkOperator_eq_ok.2 ho,
        Search.checkStat_eq_ok.2 hs']
      rfl
    | mana ha ho n hv =>
      refine ⟨?_, .mana _ n (knows_iff.1 hv)⟩
      simp only [Call.filter?, Search.checkSymbol_eq_ok.2 ha, Search.checkOperator_eq_ok.2 ho]
      rfl
  · rintro ⟨hentry, hfits⟩
    -- the forms of arguments that the calls take, in the order in which they are told apart
    unfold Call.filter? at hentry
    simp only [Option.bind_eq_bind, Option.pure_def] at hentry
    split at hentry
    case h_1 =>
      obtain ⟨_, hfilter, heq⟩ := Option.map_eq_some_iff.1 hentry
      obtain ⟨v, m, rfl, hm, rfl⟩ := valueFilter?_eq_some.1 hfilter
      cases heq
      cases hm
      exact enters_value .default hfits
    case h_2 =>
      obtain ⟨_, hfilter, heq⟩ := Option.map_eq_some_iff.1 hentry
      obtain ⟨v, m, rfl, hm, rfl⟩ := valueFilter?_eq_some.1 hfilter
      cases heq
      exact enters_value (.given (Search.checkMode_eq_ok.1 hm)) hfits
    case h_6 => cases hentry
    -- what is left compares: two sides and an operator, each of them checked
    all_goals
      simp only [Option.bind_eq_some_iff, Option.some.injEq, Prod.mk.injEq, toOption_eq_some,
        Search.checkStat_eq_ok, Search.checkOperator_eq_ok, Search.checkSymbol_eq_ok,
        Search.checkInteger_eq_ok] at hentry
      obtain ⟨_, hleft, _, ho, _, hright, -, rfl⟩ := hentry
    case h_3 =>
      subst hright
      exact .stat hleft ho _
    case h_4 =>
      cases hfits with
      | stats _ hne => exact .stats hleft ho hright hne
    case h_5 =>
      subst hright
      cases hfits with
      | mana _ _ hv => exact .mana hleft ho _ (knows_iff.2 hv)

end

/-! ## Arguments that can not be looked up -/

/-- The calls that look up a list or an object among the values of a vocabulary. -/
inductive Call.Stumbles : Call → List Argument → String → Prop
  | value {c : Category} {vocabulary kind : String} {a : Argument} {rest : List Argument}
      {m : Mode} (hc : Search.vocabularyOf? c = some vocabulary) (ha : a.nested? = some kind)
      (hm : IsModeOf rest m) : Stumbles (.value c) (a :: rest) kind

namespace Search

theorem checkMember_nested {catalog : Catalog} {vocabulary what kind : String}
    (h : catalog.Lists vocabulary) {a : Argument} (ha : a.nested? = some kind) :
    checkMember catalog vocabulary what a = .error (.shape (.unhashable kind)) := by
  obtain ⟨w, hw, -⟩ := h
  unfold Argument.nested? at ha
  split at ha
  · cases ha
    simp only [checkMember, member?, Catalog.contains, hw]
    rfl
  · cases ha
    simp only [checkMember, member?, Catalog.contains, hw]
    rfl
  · cases ha

variable {s : Search} {c : Category} {vocabulary : String} (h : s.catalog.Lists vocabulary)
include h

/-- A list or an object is looked up after the mode has been checked. -/
theorem byMember_nested {a : Argument} {kind : String} (ha : a.nested? = some kind)
    (mode : Argument) :
    s.byMember c vocabulary a mode = ((checkMode mode).mapError Failure.query >>= fun _ =>
      .error (.shape (.unhashable kind))) := by
  have hthere : isMissing a = false := by
    unfold Argument.nested? at ha
    split at ha
    · rfl
    · rfl
    · cases ha
  unfold byMember
  rw [hthere, if_neg Bool.false_ne_true]
  refine congrArg _ (funext fun m => ?_)
  rw [checkMember_nested h ha]
  rfl

end Search

/-! ## Verdicts -/

/-- Whether a call takes some number of arguments. -/
def Call.Takes : Call → Nat → Prop
  | .value _, n => n = 1 ∨ n = 2
  | _, n => n = 3

section

variable {s : Search} {k : Call} {args : List Argument}

/-- A call with a word or a value makes the filter of its category, in the mode that the other
arguments stand for. -/
theorem apply_value {c : Category} (hargs : (Call.value c).Takes args.length) :
    ∃ v mode rest, args = v :: rest ∧ (Call.value c).apply s args = s.byValue c v mode ∧
      ∀ m, IsModeOf rest m ↔ mode.IsMode m := by
  rcases hargs with h | h
  · obtain ⟨v, rfl⟩ := List.length_eq_one_iff.1 h
    refine ⟨v, .mode .mustInclude, [], rfl, rfl, fun m => ⟨?_, ?_⟩⟩
    · rintro ⟨⟩
      exact .member _
    · rintro ⟨⟩
      exact .default
  · obtain ⟨v, mode, rfl⟩ := List.length_eq_two.1 h
    refine ⟨v, mode, [mode], rfl, rfl, fun m => ⟨?_, .given⟩⟩
    rintro ⟨⟩
    assumption

/-- A call that looks up a list or an object breaks off there. -/
theorem apply_of_stumbles (hcatalog : s.catalog.OfTexts) {kind : String}
    (h : k.Stumbles args kind) : k.apply s args = .error (.shape (.unhashable kind)) := by
  cases h with
  | @value c vocabulary kind a rest m hc ha hm =>
    have hlists := hcatalog vocabulary (mem_required_of_vocabularyOf? hc)
    -- the mode is checked first, so the value is looked up only in one that is valid
    have hbroken : ∀ mode, Search.checkMode mode = .ok m →
        s.byValue c a mode = .error (.shape (.unhashable kind)) := by
      intro mode hmode
      rw [Search.byValue, hc]
      refine (Search.byMember_nested hlists ha mode).trans ?_
      rw [hmode]
      rfl
    cases hm with
    | default => exact hbroken _ rfl
    | given h => exact hbroken _ (Search.checkMode_eq_ok.2 h)

/-- Every other call with the right number of arguments is accepted or refused. -/
theorem decided_or_stumbles (hcatalog : s.catalog.OfTexts) (hargs : k.Takes args.length) :
    Decided (k.apply s args) ∨ ∃ kind, k.Stumbles args kind := by
  cases k with
  | value c =>
    obtain ⟨v, mode, rest, rfl, happly, hmode⟩ := apply_value (s := s) hargs
    rw [happly, Search.byValue]
    cases hc : Search.vocabularyOf? c with
    | none => exact .inl (Search.decided_byWord s c v mode)
    | some vocabulary =>
      have hlists := hcatalog vocabulary (mem_required_of_vocabularyOf? hc)
      cases hv : v.nested? with
      | none => exact .inl (Search.decided_byMember hlists c hv mode)
      | some kind =>
        have hlookup := Search.byMember_nested (c := c) hlists hv mode
        cases hm : Search.checkMode mode with
        | error e =>
          -- a bad mode is refused before anything is looked up
          rw [hm] at hlookup
          exact .inl (.inr ⟨e, hlookup⟩)
        | ok m =>
          exact .inr ⟨kind, .value hc hv ((hmode m).2 (Search.checkMode_eq_ok.1 hm))⟩
  | stat =>
    obtain ⟨a, o, b, rfl⟩ := List.length_eq_three.1 hargs
    exact .inl (Search.decided_byStat s a o b)
  | stats =>
    obtain ⟨a, o, b, rfl⟩ := List.length_eq_three.1 hargs
    exact .inl (Search.decided_byStats s a o b)
  | mana =>
    obtain ⟨a, o, b, rfl⟩ := List.length_eq_three.1 hargs
    exact .inl (Search.decided_byMana (hcatalog _ (by decide)) a o b)

theorem apply_enters (hk : k.IsNamed) {next : Search} :
    k.apply s args = .ok next ↔
      ∃ e, k.Enters s.catalog args e ∧ next = s.record k.category e := by
  rw [apply_eq_ok hk]
  constructor
  · rintro ⟨c, e, hentry, hfits, rfl⟩
    obtain rfl := category_of_filter? hentry
    exact ⟨e, enters_iff.2 ⟨hentry, hfits⟩, rfl⟩
  · rintro ⟨e, henters, rfl⟩
    obtain ⟨hentry, hfits⟩ := enters_iff.1 henters
    exact ⟨_, e, hentry, hfits, rfl⟩

/-- A call that fails leaves a search as it is. -/
theorem answer_of_error {name : String} (hname : Call.ofName? name = some k) {f : Failure}
    (h : k.apply s args = .error f) : s.answer (.call name args) = s := by
  simp only [Search.answer, hname, h]

end

/-- **A call enters one filter or none.** Over any catalog of texts, let any requests have built
a search, and let a call be made by name with the right number of arguments, whatever they
are. If the arguments enter a filter, the call is accepted, the filter stands last in the
call's own category, and the other categories are as they were. Otherwise the search stays as
it was. The call is then refused, unless it looks up a list or an object among the values of
a vocabulary, in a mode that is one: such a call fails with a fault of shape. -/
theorem call_verdict {catalog : Catalog} (hcatalog : catalog.OfTexts) (requests : List Request)
    {name : String} {k : Call} (hname : Call.ofName? name = some k) {args : List Argument}
    (hargs : k.Takes args.length) :
    let s := Search.after catalog requests
    let next := s.answer (.call name args)
    (∀ e, k.Enters catalog args e →
      k.apply s args = .ok next ∧ next.catalog = catalog ∧
        next.filters.entries k.category = s.filters.entries k.category ++ [e] ∧
        ∀ d, d ≠ k.category → next.filters.entries d = s.filters.entries d) ∧
    (∀ kind, k.Stumbles args kind →
      k.apply s args = .error (.shape (.unhashable kind)) ∧ next = s) ∧
    ((∀ e, ¬k.Enters catalog args e) → (∀ kind, ¬k.Stumbles args kind) →
      ∃ e, k.apply s args = .error (.query e) ∧ next = s) := by
  intro s next
  obtain ⟨hsame, -⟩ := fit_after catalog requests
  have hsame : s.catalog = catalog := hsame
  have htexts : s.catalog.OfTexts := hsame ▸ hcatalog
  have hk : k.IsNamed := ⟨name, hname⟩
  refine ⟨fun e henters => ?_, fun kind hstumbles => ?_, fun hnone hlooked => ?_⟩
  · have happly : k.apply s args = .ok (s.record k.category e) :=
      (apply_enters hk).2 ⟨e, hsame ▸ henters, rfl⟩
    have hnext : next = s.record k.category e := by
      simp only [next, Search.answer, hname, happly]
    rw [hnext]
    refine ⟨happly, hsame, ?_, fun d hd => ?_⟩
    · exact (Filters.entries_add _ _ _ _).trans (if_pos rfl)
    · exact (Filters.entries_add _ _ _ _).trans (if_neg (Ne.symm hd))
  · have herror := apply_of_stumbles htexts hstumbles
    exact ⟨herror, answer_of_error hname herror⟩
  · -- the call is decided, and it is not accepted, as it would enter a filter then
    have hdecided : Decided (k.apply s args) :=
      (decided_or_stumbles htexts hargs).resolve_right (not_exists.2 hlooked)
    obtain ⟨e, herror⟩ := refused_of_decided hdecided fun r hr => by
      obtain ⟨e, henters, -⟩ := (apply_enters hk).1 hr
      exact hnone e (hsame ▸ henters)
    exact ⟨e, herror, answer_of_error hname herror⟩

/-- A catalog with one color. -/
def blueCatalog : Catalog := ⟨requiredVocabularies.map fun n => (n, .ofList ["U"]), []⟩

theorem blueCatalog_ofTexts : blueCatalog.OfTexts := by
  have hmade : Catalog.ofVocabularies (requiredVocabularies.map fun n => (n, .ofList ["U"])) [] =
      .ok blueCatalog := rfl
  exact ofTexts_of_ofVocabularies hmade (List.forall_mem_map.2 fun _ _ => rfl)

/-- A known color is entered, an unknown one refused. -/
theorem colors_verdict :
    blueCatalog.OfTexts ∧ Call.ofName? "by_color" = some (.value .color) ∧
      (Call.value .color).Takes 1 ∧
      (∃ next, (Call.value .color).apply (Search.after blueCatalog []) [.ofText "U"] = .ok next ∧
        next.filters.entries .color = [.value "U" .mustInclude]) ∧
      ∃ e, (Call.value .color).apply (Search.after blueCatalog []) [.value .null] =
        .error (.query e) := by
  have hname : Call.ofName? "by_color" = some (.value .color) := rfl
  have hknown : (Call.value .color).Takes [Argument.ofText "U"].length := .inl rfl
  have hmissing : (Call.value .color).Takes [Argument.value .null].length := .inl rfl
  obtain ⟨hentered, -, -⟩ := call_verdict blueCatalog_ofTexts [] hname hknown
  obtain ⟨-, -, hrefused⟩ := call_verdict blueCatalog_ofTexts [] hname hmissing
  obtain ⟨happly, -, hown, -⟩ := hentered (.value "U" .mustInclude)
    (.member rfl ⟨.ofList ["U"], rfl, by decide⟩ .default)
  obtain ⟨e, herror, -⟩ := hrefused (by rintro e ⟨⟩) (by rintro kind ⟨-, ⟨⟩, -⟩)
  exact ⟨blueCatalog_ofTexts, hname, hknown, ⟨_, happly, hown⟩, e, herror⟩

/-- A list that is given for a color is not refused: the call fails otherwise. -/
theorem list_unrefused :
    blueCatalog.OfTexts ∧ Call.ofName? "by_color" = some (.value .color) ∧
      (Call.value .color).Takes 1 ∧
      (Call.value .color).apply (Search.after blueCatalog []) [.value (.list [])] =
        .error (.shape (.unhashable "list")) :=
  ⟨blueCatalog_ofTexts, rfl, .inl rfl, rfl⟩

end CardArchive
