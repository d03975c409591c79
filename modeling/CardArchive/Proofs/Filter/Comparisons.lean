import CardArchive.Proofs.Filter.Lengths
import CardArchive.Proofs.Filter.Statistics

/-!
# Searches that compare numbers

A search that only compares statistics, or only amounts of mana, finds the printings whose
cards pass every comparison, as long as it has no more comparisons than the database takes:
each of them reads from further tables, and there is a limit for one selection. Beyond it, and
with an integer of too many digits, the search fails.

## What this module delivers

* `FewStatistics`, `FewAmounts`: the calls that the database takes.
* `stat_calls_select`: the printings that comparisons of statistics find.
* `mana_calls_select`: the printings that comparisons of amounts of mana find.
* `manyStatistics_fail`, `manyAmounts_fail`: calls beyond the limit.
-/

set_option autoImplicit false

namespace CardArchive

/-! ## Calls by category -/

/-- Each accepted call of a category has entered one filter. -/
theorem length_entries_entered {catalog : Catalog} {calls : List (Call × List Argument)}
    (h : AllFit catalog calls) (c : Category) :
    ((entered calls).entries c).length = calls.countP fun k => k.1.category = c := by
  induction calls with
  | nil => rfl
  | cons k rest ih =>
    obtain ⟨⟨d, e, hentry, -⟩, hrest⟩ := List.forall_mem_cons.1 h
    obtain rfl := category_of_filter? hentry
    have hentered : (entered (k :: rest)).recorded =
        (k.1.category, e) :: (entered rest).recorded := by
      rw [entered, List.filterMap_cons, hentry]
      rfl
    have ih := ih hrest
    rw [Filters.entries] at ih
    rw [Filters.entries, hentered, List.filterMap_cons, List.countP_cons, ← ih]
    by_cases hc : k.1.category = c
    · simp [hc]
    · simp [hc]

/-- The categories that have filters are those of the calls. -/
theorem category_of_active {calls : List (Call × List Argument)} {c : Category}
    (hc : c ∈ (entered calls).active) : ∃ k ∈ calls, k.1.category = c :=
  exists_call_of_entries (mem_active.1 hc)

/-! ## Statistics -/

/-- So few comparisons of statistics that no category reads from too many tables: one table
for each comparison with an integer, two for each comparison of statistics. -/
def FewStatistics (calls : List (Call × List Argument)) : Prop :=
  (calls.countP fun k => k.1 = .stat) ≤ joinLimit ∧
    2 * (calls.countP fun k => k.1 = .stats) ≤ joinLimit

instance (calls : List (Call × List Argument)) : Decidable (FewStatistics calls) :=
  inferInstanceAs (Decidable (_ ∧ _))

section

variable {catalog : Catalog} {calls : List (Call × List Argument)}
  (hcalls : ∀ k ∈ calls, k.1 = .stat ∨ k.1 = .stats)
include hcalls

theorem stats_of_active : ∀ c ∈ (entered calls).active, c = .stat ∨ c = .statVersusStat := by
  intro c hc
  obtain ⟨k, hk, rfl⟩ := category_of_active hc
  rcases hcalls k hk with h | h
  · exact .inl (by rw [h, Call.category])
  · exact .inr (by rw [h, Call.category])

/-- Filters of few calls read from few tables. -/
theorem fewStatistics_iff (hall : AllFit catalog calls) :
    FewStatistics calls ↔ ∀ c ∈ (entered calls).active,
      tableCount c ((entered calls).entries c).length ≤ joinLimit := by
  have hstat : (calls.countP fun k => k.1.category = .stat) =
      calls.countP fun k => k.1 = .stat := by
    refine List.countP_congr fun k hk => ?_
    rcases hcalls k hk with h | h <;> simp [h, Call.category]
  have hstats : (calls.countP fun k => k.1.category = .statVersusStat) =
      calls.countP fun k => k.1 = .stats := by
    refine List.countP_congr fun k hk => ?_
    rcases hcalls k hk with h | h <;> simp [h, Call.category]
  have hlength := length_entries_entered hall
  constructor
  · rintro ⟨hfirst, hsecond⟩ c hc
    rcases stats_of_active hcalls c hc with rfl | rfl
    · rw [hlength, hstat]
      exact hfirst
    · rw [hlength, hstats]
      exact hsecond
  · -- a category without calls reads from no table
    intro h
    have hcount : ∀ c, c = .stat ∨ c = .statVersusStat →
        tableCount c ((entered calls).entries c).length ≤ joinLimit := by
      intro c hc
      by_cases hactive : c ∈ (entered calls).active
      · exact h c hactive
      · rw [entries_of_not_active hactive]
        rcases hc with rfl | rfl <;> exact Nat.zero_le _
    have hfirst := hcount .stat (.inl rfl)
    have hsecond := hcount .statVersusStat (.inr rfl)
    rw [hlength, hstat] at hfirst
    rw [hlength, hstats] at hsecond
    exact ⟨hfirst, hsecond⟩

/-- The database takes few comparisons of statistics with integers that can be printed, in
any frame, and no others. -/
theorem isTaken_statistics_iff (hall : AllFit catalog calls) (f : Frame) :
    (Search.mk catalog (entered calls)).IsTaken f ↔
      FewStatistics calls ∧ (entered calls).arePrintable = true := by
  have hfit : (Search.mk catalog (entered calls)).filters.Fit catalog := fit_entered hall
  have hstats := stats_of_active hcalls
  rw [isTaken_comparisons_iff hfit (comparesNumbers_of_stats hstats), fewStatistics_iff hcalls hall]
  constructor
  · rintro ⟨hprintable, hfew, -, -⟩
    exact ⟨hfew, hprintable⟩
  · rintro ⟨hfew, hprintable⟩
    refine ⟨hprintable, hfew, fun c hc x hx => ?_, fun text htext =>
      short_statistics hfit hstats hprintable hfew f htext⟩
    rcases hstats c hc with rfl | rfl <;> cases hx

theorem isNamed_of_stats : ∀ k ∈ calls, k.1.IsNamed := by
  intro k hk
  rcases hcalls k hk with hstat | hstats
  · rw [hstat]
    exact isNamed_stat
  · rw [hstats]
    exact isNamed_stats

/-- Accepted comparisons of statistics that are not taken fail. -/
theorem fails_of_manyStatistics {s : Search} (h : (Search.start catalog).accept calls = .ok s)
    (hnot : ¬(FewStatistics calls ∧ s.filters.arePrintable = true)) (t : Tables) (f : Frame) :
    Fails (t.found f s) := by
  obtain ⟨hall, rfl⟩ := (accept_eq_ok (isNamed_of_stats hcalls)).1 h
  exact fails_of_not_isTaken (fit_entered hall) (comparesNumbers_of_stats (stats_of_active hcalls))
    (fun htaken => hnot ((isTaken_statistics_iff hcalls hall f).1 htaken)) t

end

/-- **Comparisons of statistics find by the stored integers.** After any changes of the
archive, any run of accepted calls that compare a statistic with an integer or two statistics
with each other finds exactly the printings whose card passes every comparison that was
entered, if there are at most 64 calls of the first kind and 32 of the second, and every
integer has few enough digits to be printed; otherwise the search fails, in every frame. A
comparison is passed only by cards that have each of its statistics; every card with a
printing has a converted cost, and the others are there with their rows. -/
theorem stat_calls_select (changes : List Change) (catalog : Catalog)
    {calls : List (Call × List Argument)} (hcalls : ∀ k ∈ calls, k.1 = .stat ∨ k.1 = .stats)
    {s : Search} (h : (Search.start catalog).accept calls = .ok s) :
    let t := (Database.after changes).tables
    (FewStatistics calls → s.filters.arePrintable = true → ∀ f : Frame,
      t.Finds f s fun r => ∀ k ∈ calls, ∃ c e, k.1.filter? k.2 = some (c, e) ∧
        t.Meets (some r.card) e) ∧
    (¬(FewStatistics calls ∧ s.filters.arePrintable = true) → ∀ f : Frame,
      Fails (t.found f s)) ∧
    ∀ r ∈ t.printings,
      (t.stat? (some r.card) .cmc).isSome ∧
      ((t.stat? (some r.card) .power).isSome ↔ ∃ row ∈ t.powers, row.card = some r.card) ∧
      ((t.stat? (some r.card) .toughness).isSome ↔ ∃ row ∈ t.powers, row.card = some r.card) ∧
      ((t.stat? (some r.card) .loyalty).isSome ↔ ∃ row ∈ t.loyalties, row.card = some r.card) := by
  intro t
  have ht := keyed_after changes
  have hnamed := isNamed_of_stats hcalls
  have hselects := selects_accepted hnamed h (printings_nodup_after changes)
    (Q := fun r e => t.Meets (some r.card) e) (by
      intro k hk es hne hfit r _
      refine admits_stats ht ?_ hne hfit _ r 1
      rcases hcalls k hk with hstat | hstats
      · exact .inl (by rw [hstat, Call.category])
      · exact .inr (by rw [hstats, Call.category]))
  refine ⟨fun hfew hprintable f => ?_, fun hnot f => fails_of_manyStatistics hcalls h hnot t f,
    fun r hr => ?_⟩
  · obtain ⟨hall, rfl⟩ := (accept_eq_ok hnamed).1 h
    exact finds_of_isTaken ((isTaken_statistics_iff hcalls hall f).2 ⟨hfew, hprintable⟩) hselects
  · obtain ⟨hcmc, hothers⟩ := isSome_stat? (t := t) r.card
    exact ⟨hcmc.2 (ht.printings r hr).1, hothers⟩

/-- A cost, and a power that is not above the toughness. -/
def sturdyCalls : List (Call × List Argument) :=
  [(.stat, [.ofText "CMC", .ofText "<=", .value (.int 4)]),
    (.stats, [.stat .power, .operator .lessEqual, .ofText "toughness"]),
    (.stat, [.stat .cmc, .operator .unequal, .value (.int 5)])]

theorem sturdyCalls_select :
    (∀ k ∈ sturdyCalls, k.1 = .stat ∨ k.1 = .stats) ∧ FewStatistics sturdyCalls ∧
      ∃ s keys, (Search.start ⟨[], []⟩).accept sturdyCalls = .ok s ∧
        (Database.after [.insertSet wholeSet]).tables.found .alone s = .ok keys ∧
        ⟨"Asmira", "Mirage", "210"⟩ ∈ keys := by
  have hcalls : ∀ k ∈ sturdyCalls, k.1 = .stat ∨ k.1 = .stats := by decide
  have hfew : FewStatistics sturdyCalls := by decide
  have haccept : (Search.start ⟨[], []⟩).accept sturdyCalls = .ok ⟨⟨[], []⟩, entered sturdyCalls⟩ :=
    rfl
  obtain ⟨hfinds, -, -⟩ := stat_calls_select [.insertSet wholeSet] ⟨[], []⟩ hcalls haccept
  obtain ⟨keys, hkeys, -, -, hlaw⟩ := hfinds hfew (by decide +kernel) .alone
  refine ⟨hcalls, hfew, _, keys, haccept, hkeys,
    (hlaw ⟨"Asmira", "Mirage", "210", "rare", "", ""⟩ (by decide +kernel)).2 ?_⟩
  refine List.forall_mem_cons.2 ⟨⟨_, _, rfl, ?_⟩, List.forall_mem_cons.2 ⟨⟨_, _, rfl, ?_⟩,
    List.forall_mem_singleton.2 ⟨_, _, rfl, ?_⟩⟩⟩ <;> decide +kernel

/-- A comparison that every card passes. -/
def anyCost : Call × List Argument := (.stat, [.ofText "cmc", .ofText ">=", .value (.int 0)])

/-- A comparison with an integer that has one digit too many to be printed. -/
def hugeCost : Call × List Argument :=
  (.stat, [.ofText "cmc", .ofText "<", .value (.int (10 ^ 4300))])

/-- Sixty-five comparisons are accepted one by one, but not answered together, and neither is
one with too many digits. -/
theorem manyStatistics_fail :
    (∃ s, (Search.start ⟨[], []⟩).accept (List.replicate 65 anyCost) = .ok s ∧
      Fails ((Database.after [.insertSet wholeSet]).tables.found .alone s)) ∧
    ∃ s, (Search.start ⟨[], []⟩).accept [hugeCost] = .ok s ∧
      Fails ((Database.after [.insertSet wholeSet]).tables.found .alone s) := by
  have hmany : ∀ k ∈ List.replicate 65 anyCost, k.1 = .stat ∨ k.1 = .stats := by decide
  have hhuge : ∀ k ∈ [hugeCost], k.1 = .stat ∨ k.1 = .stats :=
    List.forall_mem_singleton.2 (.inl rfl)
  have hcount : ¬FewStatistics (List.replicate 65 anyCost) := by decide
  have hdigits : ¬(entered [hugeCost]).arePrintable = true := by decide +kernel
  constructor
  · exact ⟨_, rfl, fails_of_manyStatistics hmany rfl (fun h => hcount h.1) _ .alone⟩
  · exact ⟨_, rfl, fails_of_manyStatistics hhuge rfl (fun h => hdigits h.2) _ .alone⟩

/-! ## Amounts of mana -/

/-- What the database asks of a search by comparisons of amounts: each of them reads from one
table beside that of the cards, the integers can be printed, no symbol holds the null character,
and the text is not too long. -/
structure FewAmounts (calls : List (Call × List Argument)) (s : Search) (f : Frame) : Prop where
  few : calls.length < joinLimit
  printable : s.filters.arePrintable = true
  plain : ∀ x ∈ manaTests (s.filters.entries .manaType), holdsNull x.symbol = false
  short : ∀ text, s.text? = .ok text → (f.text text).utf8ByteSize ≤ statementLimit

section

variable {catalog : Catalog} {calls : List (Call × List Argument)} (hne : calls ≠ [])
  (hcalls : ∀ k ∈ calls, k.1 = .mana)
include hcalls

theorem isNamed_of_mana : ∀ k ∈ calls, k.1.IsNamed := by
  intro k hk
  rw [hcalls k hk]
  exact isNamed_mana

theorem length_entries_mana (hall : AllFit catalog calls) :
    ((entered calls).entries .manaType).length = calls.length := by
  rw [length_entries_entered hall, List.countP_eq_length]
  intro k hk
  rw [hcalls k hk, decide_eq_true_iff, Call.category]

theorem mana_of_active : ∀ c ∈ (entered calls).active, c = .manaType := by
  intro c hc
  obtain ⟨k, hk, rfl⟩ := category_of_active hc
  rw [hcalls k hk, Call.category]

include hne

theorem entries_mana_ne_nil (hall : AllFit catalog calls) :
    (entered calls).entries .manaType ≠ [] := by
  rw [← List.length_pos_iff, length_entries_mana hcalls hall]
  exact List.length_pos_iff.2 hne

theorem isTaken_amounts_iff (hall : AllFit catalog calls) (f : Frame) :
    (Search.mk catalog (entered calls)).IsTaken f ↔
      FewAmounts calls ⟨catalog, entered calls⟩ f := by
  have hmana := mana_of_active hcalls
  have hactive := mem_active.2 (entries_mana_ne_nil hne hcalls hall)
  have hlength := length_entries_mana hcalls hall
  rw [isTaken_comparisons_iff (s := ⟨catalog, entered calls⟩) (fit_entered hall)
    fun c hc => by rw [hmana c hc]; rfl]
  constructor
  · rintro ⟨hprintable, hfew, hplain, hshort⟩
    refine ⟨?_, hprintable, fun x hx => ?_, hshort⟩
    · have hcount := hfew .manaType hactive
      rwa [hlength] at hcount
    · exact hplain .manaType hactive _ (List.mem_map_of_mem hx)
  · rintro ⟨hfew, hprintable, hplain, hshort⟩
    refine ⟨hprintable, fun c hc => ?_, fun c hc => ?_, hshort⟩
    · rw [hmana c hc, hlength]
      exact hfew
    · rw [hmana c hc]
      exact List.forall_mem_map.2 hplain

/-- Accepted comparisons of amounts that are not taken fail. -/
theorem fails_of_manyAmounts {s : Search} (h : (Search.start catalog).accept calls = .ok s)
    {f : Frame} (hnot : ¬FewAmounts calls s f) (t : Tables) : Fails (t.found f s) := by
  obtain ⟨hall, rfl⟩ := (accept_eq_ok (isNamed_of_mana hcalls)).1 h
  exact fails_of_not_isTaken (fit_entered hall)
    (fun c hc => by rw [mana_of_active hcalls c hc]; rfl)
    (fun htaken => hnot ((isTaken_amounts_iff hne hcalls hall f).1 htaken)) t

end

/-- **Comparisons of amounts of mana find by the amounts, zero included.** After any changes
of the archive, any run of accepted calls that compare amounts of mana, if there is one, finds
exactly the printings whose card passes every comparison that was entered, where a symbol
without a row counts as zero, if there are at most 63 calls and the statement is taken
otherwise; if it is not, the search fails. Whatever number it starts at, the selection of cards
that the calls compile to has one row for each stored card that passes, in the order in which
the cards are stored: the joins neither lose a card nor multiply one. -/
theorem mana_calls_select (changes : List Change) (catalog : Catalog)
    {calls : List (Call × List Argument)} (hne : calls ≠ []) (hcalls : ∀ k ∈ calls, k.1 = .mana)
    {s : Search} (h : (Search.start catalog).accept calls = .ok s) :
    let t := (Database.after changes).tables
    (∀ f : Frame, FewAmounts calls s f →
      t.Finds f s fun r => ∀ k ∈ calls, ∃ c e, k.1.filter? k.2 = some (c, e) ∧
        t.Meets (some r.card) e) ∧
    (∀ f : Frame, ¬FewAmounts calls s f → Fails (t.found f s)) ∧
    ∀ (ctx : Context) (n : Nat), ∃ cards next,
      (compileCategory ctx .manaType (s.filters.entries .manaType)).Yields n
        (some (.cards cards)) next ∧
      ∀ scope, cards.rows t.relations scope =
        (t.cards.filter fun c => ∀ e ∈ s.filters.entries .manaType, t.Meets c.name e).map
          fun c => [Cell.ofText? c.name] := by
  intro t
  have ht := manaDistinct_after changes
  have hnamed := isNamed_of_mana hcalls
  have hselects := selects_accepted hnamed h (printings_nodup_after changes)
    (Q := fun r e => t.Meets (some r.card) e) (by
      intro k hk es _ hfit r hr
      rw [hcalls k hk, Call.category] at hfit ⊢
      exact admits_mana ht hfit _ ((keyed_after changes).printings r hr).1 1)
  refine ⟨fun f hfew => ?_, fun f hnot => fails_of_manyAmounts hne hcalls h hnot t,
    fun ctx n => ?_⟩
  · obtain ⟨hall, rfl⟩ := (accept_eq_ok hnamed).1 h
    exact finds_of_isTaken ((isTaken_amounts_iff hne hcalls hall f).2 hfew) hselects
  · obtain ⟨hall, rfl⟩ := (accept_eq_ok hnamed).1 h
    have hfit : ∀ e ∈ (entered calls).entries .manaType, e.Fits catalog .manaType :=
      fun e he => fits_of_mem_entries (fit_entered hall) he
    exact ⟨_, _, compileCategory_yields ctx (entries_mana_ne_nil hne hcalls hall) hfit n,
      rows_manaTests ht hfit n⟩

/-- A catalog with two symbols of mana. -/
def twoSymbols : Catalog := ⟨[("mana_types", .ofList ["\x7bG\x7d", "\x7bU\x7d"])], []⟩

/-- Two symbols, one of them twice, and one that the card does not have. -/
def greenCalls : List (Call × List Argument) :=
  [(.mana, [.ofText "G", .ofText ">=", .value (.int 1)]),
    (.mana, [.ofText "\x7bU\x7d", .ofText "<", .value (.int 1)]),
    (.mana, [.ofText "g", .operator .unequal, .value (.int 2)])]

theorem greenCalls_select :
    greenCalls ≠ [] ∧ (∀ k ∈ greenCalls, k.1 = .mana) ∧
      ∃ s keys, (Search.start twoSymbols).accept greenCalls = .ok s ∧
        FewAmounts greenCalls s .alone ∧
        (Database.after [.insertSet wholeSet]).tables.found .alone s = .ok keys ∧
        ⟨"Asmira", "Mirage", "210"⟩ ∈ keys := by
  have hcalls : ∀ k ∈ greenCalls, k.1 = .mana := by decide
  have hne : greenCalls ≠ [] := List.cons_ne_nil _ _
  have haccept : (Search.start twoSymbols).accept greenCalls =
      .ok ⟨twoSymbols, entered greenCalls⟩ := rfl
  obtain ⟨hall, -⟩ := (accept_eq_ok (isNamed_of_mana hcalls)).1 haccept
  have hfew := (isTaken_amounts_iff hne hcalls hall .alone).1 (by decide +kernel)
  obtain ⟨hfinds, -, -⟩ := mana_calls_select [.insertSet wholeSet] _ hne hcalls haccept
  obtain ⟨keys, hkeys, -, -, hlaw⟩ := hfinds .alone hfew
  refine ⟨hne, hcalls, _, keys, haccept, hfew, hkeys,
    (hlaw ⟨"Asmira", "Mirage", "210", "rare", "", ""⟩ (by decide +kernel)).2 ?_⟩
  refine List.forall_mem_cons.2 ⟨⟨_, _, rfl, ?_⟩, List.forall_mem_cons.2 ⟨⟨_, _, rfl, ?_⟩,
    List.forall_mem_singleton.2 ⟨_, _, rfl, ?_⟩⟩⟩ <;> decide +kernel

/-- A comparison of an amount that every card passes. -/
def anyAmount : Call × List Argument := (.mana, [.ofText "G", .ofText ">=", .value (.int 0)])

/-- Sixty-four comparisons of amounts are accepted one by one, but not answered together. -/
theorem manyAmounts_fail :
    ∃ s, (Search.start twoSymbols).accept (List.replicate 64 anyAmount) = .ok s ∧
      Fails ((Database.after [.insertSet wholeSet]).tables.found .alone s) := by
  have hmana : ∀ k ∈ List.replicate 64 anyAmount, k.1 = .mana := by decide
  have hne : List.replicate 64 anyAmount ≠ [] := by decide
  have hall : AllFit twoSymbols (List.replicate 64 anyAmount) := by
    intro k hk
    rw [(List.mem_replicate.1 hk).2]
    exact ⟨.manaType, _, rfl, .mana _ _ (by decide +kernel)⟩
  have haccept : (Search.start twoSymbols).accept (List.replicate 64 anyAmount) =
      .ok ⟨twoSymbols, entered (List.replicate 64 anyAmount)⟩ :=
    (accept_eq_ok (isNamed_of_mana hmana)).2 ⟨hall, rfl⟩
  exact ⟨_, haccept, fails_of_manyAmounts hne hmana haccept
    (fun h => absurd h.few (by decide)) _⟩

end CardArchive
