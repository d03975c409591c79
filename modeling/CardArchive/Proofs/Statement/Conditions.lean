import CardArchive.Proofs.Statement.Balanced

/-!
# Trees of conditions read back

A tree of conjunctions and disjunctions is written with as few parentheses as it needs: a
conjunction has none, and a disjunction has them if it has several parts. The text is read
back by the grammar of conditions. Whatever the tree, it reads as a conjunction, so it can
stand beside `AND` as it is. Only between the parts of a disjunction stands a word that binds
less, and these are enclosed.

## What this module delivers

* `IsAtom`, `IsCondition` and `HasEmpty`: trees over tests, and those with a node of no parts.
* `Expr.atoms` and `Expr.truth`: the tests of a tree, and what it says if each of them says what
  it is assigned.
* `truth_value`: what a tree selects is what it says of its tests.
* `ReadsBack` and `readsBack_of_condition`: a tree that is written reads back as itself.
* `reading_of_condition`: a tree is written unless a node has no parts, and its text has one
  reading, which says what the tree says.
-/

set_option autoImplicit false

namespace CardArchive

open Sql

/-! ## Trees over tests -/

namespace Expr

/-- A value that stands on one side of a comparison. -/
def IsOperand : Expr → Prop
  | column _ | literal _ | countDistinct _ | coalesce _ _ => True
  | _ => False

/-- A test that is no conjunction or disjunction. -/
def IsTest : Expr → Prop
  | like _ _ _ | inValues _ _ _ | inQuery _ _ _ => True
  | compare l _ r => l.IsOperand ∧ r.IsOperand
  | _ => False

mutual

/-- The tests that a tree joins, from left to right. -/
def atoms : Expr → List Expr
  | allOf parts => allAtoms parts
  | anyOf parts => allAtoms parts
  | e => [e]

/-- The tests that several trees join. -/
def allAtoms : List Expr → List Expr
  | [] => []
  | e :: es => e.atoms ++ allAtoms es

end

mutual

/-- What a tree says if each of its tests says what it is assigned. -/
def truth (v : Expr → Truth) : Expr → Truth
  | allOf parts => Truth.all (allTruths v parts)
  | anyOf parts => Truth.any (allTruths v parts)
  | e => v e

/-- What each of several trees says. -/
def allTruths (v : Expr → Truth) : List Expr → List Truth
  | [] => []
  | e :: es => e.truth v :: allTruths v es

end

/-- The tokens of a written value or condition. -/
def tokens (e : Expr) : List Token :=
  match e.text? with
  | .ok text => Sql.tokens text.toList
  | .error _ => []

end Expr

/-- A test that can be written. -/
structure IsAtom (e : Expr) : Prop where
  test : e.IsTest
  written : ∃ text, e.text? = .ok text

/-- Trees of conjunctions and disjunctions over tests. -/
inductive IsCondition : Expr → Prop
  | atom {e : Expr} (h : IsAtom e) : IsCondition e
  | allOf {parts : List Expr} (h : ∀ e ∈ parts, IsCondition e) : IsCondition (.allOf parts)
  | anyOf {parts : List Expr} (h : ∀ e ∈ parts, IsCondition e) : IsCondition (.anyOf parts)

/-- Trees with a conjunction or a disjunction that has no parts. -/
inductive HasEmpty : Expr → Prop
  | noneOfAll : HasEmpty (.allOf [])
  | noneOfAny : HasEmpty (.anyOf [])
  | inAll {parts : List Expr} {e : Expr} (he : e ∈ parts) (h : HasEmpty e) :
      HasEmpty (.allOf parts)
  | inAny {parts : List Expr} {e : Expr} (he : e ∈ parts) (h : HasEmpty e) :
      HasEmpty (.anyOf parts)

theorem atoms_of_isTest {e : Expr} (h : e.IsTest) : e.atoms = [e] := by
  cases e with
  | allOf parts => exact h.elim
  | anyOf parts => exact h.elim
  | _ => rfl

theorem truth_of_isTest {e : Expr} (h : e.IsTest) (v : Expr → Truth) : e.truth v = v e := by
  cases e with
  | allOf parts => exact h.elim
  | anyOf parts => exact h.elim
  | _ => rfl

section

variable (db : Relations) (members : List Scope) (scope : Scope)

mutual

/-- What a tree selects is what it says if each test says what it selects. -/
theorem truth_value : ∀ e : Expr,
    (e.value db members scope).truth = e.truth fun a => (a.value db members scope).truth
  | .allOf parts => by
    rw [Expr.value, Cell.truth_ofTruth, Expr.truth, allTruths_value parts]
  | .anyOf parts => by
    rw [Expr.value, Cell.truth_ofTruth, Expr.truth, allTruths_value parts]
  | .column _ => rfl
  | .literal _ => rfl
  | .countDistinct _ => rfl
  | .compare _ _ _ => rfl
  | .like _ _ _ => rfl
  | .inValues _ _ _ => rfl
  | .inQuery _ _ _ => rfl
  | .coalesce _ _ => rfl

theorem allTruths_value : ∀ es : List Expr,
    truths db members scope es = Expr.allTruths (fun a => (a.value db members scope).truth) es
  | [] => rfl
  | e :: es => by rw [truths, Expr.allTruths, truth_value e, allTruths_value es]

end

end

/-! ## Tests are atomic -/

theorem readAs_operand {e : Expr} (h : e.IsOperand) (hnamed : e.Named) {ps : List Piece}
    (hps : e.pieces = .ok ps) : ReadAs ps IsAtomic := by
  cases e with
  | column c =>
    cases hps
    exact readAs_column hnamed
  | literal l => exact readAs_literal hps
  | countDistinct c =>
    cases hps
    exact readAs_countDistinct hnamed
  | coalesce v f =>
    rw [Expr.pieces] at hps
    obtain ⟨vs, hvs, hps⟩ := bind_eq_ok.1 hps
    obtain ⟨fs, hfs, hps⟩ := bind_eq_ok.1 hps
    cases hps
    exact readAs_coalesce (expr_balanced v hnamed.1 hvs) (expr_balanced f hnamed.2 hfs)
  | compare l o r => exact h.elim
  | like c w negated => exact h.elim
  | inValues c vs negated => exact h.elim
  | inQuery c q negated => exact h.elim
  | allOf parts => exact h.elim
  | anyOf parts => exact h.elim

/-- A test is written as one condition that is not taken apart. -/
theorem readAs_test {e : Expr} (h : e.IsTest) (hnamed : e.Named) {ps : List Piece}
    (hps : e.pieces = .ok ps) : ReadAs ps IsAtomic := by
  cases e with
  | compare l o r =>
    rw [Expr.pieces] at hps
    obtain ⟨ls, hls, hps⟩ := bind_eq_ok.1 hps
    obtain ⟨rs, hrs, hps⟩ := bind_eq_ok.1 hps
    cases hps
    refine readAs_compare hnamed.2.1 (readAs_operand h.1 hnamed.1 hls)
      (readAs_operand h.2 hnamed.2.2 hrs) fun ts us hts hus => ?_
    obtain ⟨hopening, hclosing⟩ := isOperator_ne hnamed.2.1
    exact hts.append (.token ⟨rfl, rfl⟩ hopening hclosing hus.nested)
  | like c w negated =>
    cases hps
    exact readAs_like hnamed _ negated
  | inValues c vs negated =>
    rw [Expr.pieces] at hps
    obtain ⟨values, hvalues, hps⟩ := bind_eq_ok.1 hps
    cases hps
    exact readAs_in hnamed negated (readAs_listed (readAs_literals hvalues))
  | inQuery c q negated =>
    rw [Expr.pieces] at hps
    obtain ⟨query, hquery, hps⟩ := bind_eq_ok.1 hps
    cases hps
    exact readAs_in hnamed.1 negated (query_balanced q hnamed.2 hquery)
  | column c => exact h.elim
  | literal l => exact h.elim
  | countDistinct c => exact h.elim
  | allOf parts => exact h.elim
  | anyOf parts => exact h.elim
  | coalesce v f => exact h.elim

/-! ## Reading back -/

/-- Pieces whose text is read as a formula over conditions, each by its own tokens. -/
def Shows (b : Binding) (ps : List Piece) (f : Formula Expr) : Prop :=
  ReadAs ps fun ts => Parses b ts (f.map Expr.tokens)

/-- A tree that is written and reads back: the text is a conjunction over the tests of the
tree in their order, and says what the tree says. -/
def ReadsBack (e : Expr) : Prop :=
  ∃ ps f, e.pieces = .ok ps ∧ Shows .conjunction ps f ∧ f.leaves = e.atoms ∧
    ∀ v, f.truth v = e.truth v

theorem tokens_of_pieces {e : Expr} {ps : List Piece} (h : e.pieces = .ok ps) :
    e.tokens = Sql.tokens (charsOf ps) := by
  have htext : e.text? = .ok (Piece.join ps) := by
    rw [Expr.text?, h]
    rfl
  rw [Expr.tokens, htext, ← toList_join]

theorem pieces_of_text {e : Expr} {text : String} (h : e.text? = .ok text) :
    ∃ ps, e.pieces = .ok ps ∧ Piece.join ps = text := map_eq_ok.1 h

theorem readsBack_of_isAtom {e : Expr} (h : IsAtom e) (hnamed : e.Named) : ReadsBack e := by
  obtain ⟨text, htext⟩ := h.written
  obtain ⟨ps, hps, -⟩ := pieces_of_text htext
  have hatomic := readAs_test h.test hnamed hps
  obtain ⟨ts, os, hreads, hts⟩ := hatomic
  refine ⟨ps, .leaf e, hps, ⟨ts, os, hreads, ?_⟩, (atoms_of_isTest h.test).symm,
    fun v => (truth_of_isTest h.test v).symm⟩
  have htokens : e.tokens = ts := by rw [tokens_of_pieces hps, tokens_of_reads hreads]
  rw [Formula.map, htokens]
  exact .one (.atom hts)

/-- Some trees with a word between any two. The word is given with what it binds: how texts
that are joined by it are read, and what they say. -/
theorem shows_joined {b : Binding} {op : Truth → Truth → Truth} {unit : Truth} {code : String}
    {t : Token} (hcode : Closed code.toList [t] code.toList)
    (happ : ∃ c cs, code.toList = c :: cs ∧ IsBoundary c)
    (hone : ∀ ts f, Parses .conjunction ts f → Parses b ts f) (hunit : ∀ a, op a unit = a)
    (hjoin : ∀ (ts us : List Token) (f g : Formula Expr),
      Parses .conjunction ts (f.map Expr.tokens) → Parses b us (g.map Expr.tokens) →
        ∃ k : Formula Expr, Parses b (ts ++ t :: us) (k.map Expr.tokens) ∧
          k.leaves = f.leaves ++ g.leaves ∧ ∀ v, k.truth v = op (f.truth v) (g.truth v))
    {e : Expr} {es : List Expr} (h : ∀ a ∈ e :: es, ReadsBack a) :
    ∃ pss f, allPieces (e :: es) = .ok pss ∧ Shows b (separated code pss) f ∧
      f.leaves = Expr.allAtoms (e :: es) ∧
      (∀ v, f.truth v = (Expr.allTruths v (e :: es)).foldr op unit) ∧
      pss.length = (e :: es).length := by
  -- on what is behind the first tree, so that in a step the word stands before it
  induction es generalizing e with
  | nil =>
    obtain ⟨ps, f, hps, hshows, hleaves, htruth⟩ := h e List.mem_cons_self
    refine ⟨[ps], f, ?_, hshows.mono fun ts hts => hone ts _ hts, ?_, fun v => ?_, rfl⟩
    · rw [allPieces, hps]
      rfl
    · rw [hleaves, Expr.allAtoms, Expr.allAtoms, List.append_nil]
    · rw [htruth, Expr.allTruths, Expr.allTruths, List.foldr_cons, List.foldr_nil, hunit]
  | cons e' es ih =>
    obtain ⟨ps, f, hps, hshows, hleaves, htruth⟩ := h e List.mem_cons_self
    obtain ⟨pss, g, hpss, hlater, hleaves', htruth', hlength⟩ :=
      ih fun a ha => h a (List.mem_cons_of_mem e ha)
    obtain ⟨qs, rest, rfl⟩ := List.exists_cons_of_length_eq_add_one hlength
    obtain ⟨ts, os, hts, hparse⟩ := hshows
    obtain ⟨us, os', hus, hparse'⟩ := hlater
    obtain ⟨k, hk, hkleaves, hktruth⟩ := hjoin ts us f g hparse hparse'
    have hright : ReadAs (separated code (qs :: rest)) (· = us) := ⟨us, os', hus, rfl⟩
    have hword : ReadAs (.code code :: separated code (qs :: rest)) (· = t :: us) := by
      refine .code hcode hright ?_
      rintro _ rfl
      rfl
    have hall : ReadAs (ps ++ .code code :: separated code (qs :: rest)) (· = ts ++ t :: us) := by
      refine ReadAs.append ⟨ts, os, hts, rfl⟩ hword (startsApart_code happ) ?_
      rintro _ _ rfl rfl
      rfl
    refine ⟨ps :: qs :: rest, k, ?_, hall.mono ?_, ?_, fun v => ?_, ?_⟩
    · rw [allPieces, hps, hpss]
      rfl
    · rintro _ rfl
      exact hk
    · rw [hkleaves, hleaves, hleaves']
      rfl
    · rw [hktruth, htruth, htruth', Expr.allTruths]
      rfl
    · rw [List.length_cons, hlength]
      rfl

/-- Parts with `AND` between any two are one conjunction. -/
theorem shows_and {e : Expr} {es : List Expr} (h : ∀ a ∈ e :: es, ReadsBack a) :
    ∃ pss f, allPieces (e :: es) = .ok pss ∧ Shows .conjunction (separated " AND " pss) f ∧
      f.leaves = Expr.allAtoms (e :: es) ∧
      (∀ v, f.truth v = Truth.all (Expr.allTruths v (e :: es))) ∧
      pss.length = (e :: es).length :=
  shows_joined (t := .word "AND") ⟨by decide, by decide⟩ ⟨' ', _, rfl, .inl rfl⟩
    (fun _ _ hts => hts) Truth.both_true (fun _ _ _ _ hts hus => hts.append (by decide) hus) h

/-- Parts with `OR` between any two are one disjunction. -/
theorem shows_or {e : Expr} {es : List Expr} (h : ∀ a ∈ e :: es, ReadsBack a) :
    ∃ pss f, allPieces (e :: es) = .ok pss ∧ Shows .disjunction (separated " OR " pss) f ∧
      f.leaves = Expr.allAtoms (e :: es) ∧
      (∀ v, f.truth v = Truth.any (Expr.allTruths v (e :: es))) ∧
      pss.length = (e :: es).length :=
  shows_joined (t := .word "OR") ⟨by decide, by decide⟩ ⟨' ', _, rfl, .inl rfl⟩
    (fun _ _ hts => .alone hts) Truth.either_false
    (fun _ _ f g hts hus => ⟨.either f g, .or hts (by decide) hus, rfl, fun _ => rfl⟩) h

/-- A tree in which every node has parts and every name is one reads back as a conjunction. -/
theorem readsBack_of_condition {e : Expr} (h : IsCondition e) (hnamed : e.Named)
    (hparts : ¬HasEmpty e) : ReadsBack e := by
  induction h with
  | atom h => exact readsBack_of_isAtom h hnamed
  | @allOf parts _ ih =>
    have hread : ∀ a ∈ parts, ReadsBack a := fun a ha =>
      ih a ha (allNamed_iff.1 hnamed a ha) fun hempty => hparts (.inAll ha hempty)
    cases parts with
    | nil => exact (hparts .noneOfAll).elim
    | cons e es =>
      obtain ⟨pss, f, hpss, hshows, hleaves, htruth, -⟩ := shows_and hread
      refine ⟨separated " AND " pss, f, ?_, hshows, hleaves, htruth⟩
      rw [Expr.pieces, hpss]
      rfl
  | @anyOf parts _ ih =>
    have hread : ∀ a ∈ parts, ReadsBack a := fun a ha =>
      ih a ha (allNamed_iff.1 hnamed a ha) fun hempty => hparts (.inAny ha hempty)
    cases parts with
    | nil => exact (hparts .noneOfAny).elim
    | cons e es =>
      cases es with
      | nil =>
        -- a single part is written as it is, so it reads as the conjunction that it is
        obtain ⟨ps, f, hps, hshows, hleaves, htruth⟩ := hread e List.mem_cons_self
        refine ⟨ps, f, ?_, hshows, ?_, fun v => ?_⟩
        · rw [Expr.pieces, allPieces, hps]
          rfl
        · rw [hleaves, Expr.atoms, Expr.allAtoms, Expr.allAtoms, List.append_nil]
        · rw [htruth, Expr.truth, Expr.allTruths, Expr.allTruths]
          exact (Truth.either_false _).symm
      | cons e' es =>
        -- several parts are enclosed, and what is enclosed can be read beside any word
        obtain ⟨pss, f, hpss, hshows, hleaves, htruth, hlength⟩ := shows_or hread
        refine ⟨.code "(" :: separated " OR " pss ++ [.code ")"], f, ?_, ?_, hleaves, htruth⟩
        · have hseveral : pss.length ≠ 1 := by
            rw [hlength]
            simp
          rw [Expr.pieces, hpss]
          simp [bind, Except.bind, pure, Except.pure, hseveral]
        · exact .enclosed [] [] ⟨by decide, by decide⟩ hshows fun us hus =>
            .one (.group hus)

/-! ## Trees that are written -/

theorem exists_allPieces {es : List Expr} (h : ∀ e ∈ es, ∃ ps, e.pieces = .ok ps) :
    ∃ pss, allPieces es = .ok pss := by
  induction es with
  | nil => exact ⟨[], rfl⟩
  | cons e es ih =>
    obtain ⟨⟨ps, hps⟩, hrest⟩ := List.forall_mem_cons.1 h
    obtain ⟨pss, hpss⟩ := ih hrest
    refine ⟨ps :: pss, ?_⟩
    rw [allPieces, hps, hpss]
    rfl

/-- A tree is written if each of its nodes has parts, whatever the names in it are. -/
theorem exists_pieces {e : Expr} (h : IsCondition e) (hparts : ¬HasEmpty e) :
    ∃ ps, e.pieces = .ok ps := by
  induction h with
  | atom h =>
    obtain ⟨text, htext⟩ := h.written
    obtain ⟨ps, hps, -⟩ := pieces_of_text htext
    exact ⟨ps, hps⟩
  | @allOf parts _ ih =>
    obtain ⟨pss, hpss⟩ := exists_allPieces fun a ha => ih a ha fun hempty =>
      hparts (.inAll ha hempty)
    cases parts with
    | nil => exact (hparts .noneOfAll).elim
    | cons e es =>
      rw [Expr.pieces, hpss]
      exact ⟨_, rfl⟩
  | @anyOf parts _ ih =>
    obtain ⟨pss, hpss⟩ := exists_allPieces fun a ha => ih a ha fun hempty =>
      hparts (.inAny ha hempty)
    cases parts with
    | nil => exact (hparts .noneOfAny).elim
    | cons e es =>
      rw [Expr.pieces, hpss]
      exact ⟨_, rfl⟩

/-- Parts are not written if one of them is not. -/
theorem fails_allPieces {e : Expr} {es : List Expr} (he : e ∈ es) (h : Fails e.pieces) :
    Fails (allPieces es) := by
  induction es with
  | nil => cases he
  | cons first es ih =>
    rw [allPieces]
    rcases List.mem_cons.1 he with rfl | hes
    · exact fails_bind.2 (.inl h)
    · -- a part before the one that fails may fail first
      cases first.pieces with
      | error fault => exact fails_error fault
      | ok ps => exact fails_bind.2 (.inr ⟨ps, rfl, fails_bind.2 (.inl (ih hes))⟩)

theorem fails_of_hasEmpty {e : Expr} (h : HasEmpty e) : Fails e.pieces := by
  induction h with
  | noneOfAll => exact ⟨_, rfl⟩
  | noneOfAny => exact ⟨_, rfl⟩
  | @inAll parts e he _ ih =>
    have hfull : parts.isEmpty = false := List.isEmpty_eq_false_iff.2 (List.ne_nil_of_mem he)
    rw [Expr.pieces, hfull]
    exact fails_bind.2 (.inl (fails_allPieces he ih))
  | @inAny parts e he _ ih =>
    have hfull : parts.isEmpty = false := List.isEmpty_eq_false_iff.2 (List.ne_nil_of_mem he)
    rw [Expr.pieces, hfull]
    exact fails_bind.2 (.inl (fails_allPieces he ih))

/-- A tree of conjunctions and disjunctions over tests is written exactly if every node of it
has parts. If what it names are names, then its text has one reading in the grammar of
conditions, in which `AND` binds tighter than `OR` and parentheses override this. The
conditions that are not taken apart in it are the tests of the tree in their order, and
whatever truth is assigned to each of them, the reading says what the tree says. -/
theorem reading_of_condition {e : Expr} (h : IsCondition e) :
    ((∃ fault, e.text? = .error fault) ↔ HasEmpty e) ∧
      (¬HasEmpty e → e.Named → ∃ (text : String) (f : Formula Expr), e.text? = .ok text ∧
        (∀ g, Parses .disjunction (tokens text.toList) g ↔ g = f.map Expr.tokens) ∧
        f.leaves = e.atoms ∧ ∀ v, f.truth v = e.truth v) := by
  refine ⟨⟨?_, ?_⟩, fun hparts hnamed => ?_⟩
  · rintro ⟨fault, hfault⟩
    by_contra hparts
    obtain ⟨ps, hps⟩ := exists_pieces h hparts
    rw [Expr.text?, hps] at hfault
    cases hfault
  · intro hempty
    obtain ⟨fault, hfault⟩ := fails_of_hasEmpty hempty
    refine ⟨fault, ?_⟩
    rw [Expr.text?, hfault]
    rfl
  · obtain ⟨ps, f, hps, hshows, hleaves, htruth⟩ := readsBack_of_condition h hnamed hparts
    have hparses : Parses .disjunction (tokens (Piece.join ps).toList) (f.map Expr.tokens) := by
      rw [toList_join]
      exact .alone hshows.tokens
    refine ⟨Piece.join ps, f, by rw [Expr.text?, hps]; rfl, fun g => ⟨fun hg => ?_, ?_⟩, hleaves,
      htruth⟩
    · exact hg.unique hparses
    · rintro rfl
      exact hparses

/-- A disjunction in a conjunction in a disjunction, with nodes of one part, over tests one of
which holds words and parentheses of its own. -/
def sampleCondition : Expr :=
  .anyOf [
    .allOf [.like ⟨"t0", "name"⟩ "Fire" false,
      .anyOf [.compare (.column ⟨"t0", "cmc"⟩) "<" (.literal (.integer 3)),
        .anyOf [.inValues ⟨"t0", "name"⟩ [.text "Fire OR (", .text "Ice"] true]]],
    .allOf [.inQuery ⟨"t0", "name"⟩ (.select (.mk [⟨"t1", "name"⟩] "Card" "t1" []
      [.anyOf [.like ⟨"t1", "name"⟩ "Fire" false, .like ⟨"t1", "name"⟩ "Ice" true]] [] none))
      false]]

theorem sampleCondition_reading :
    sampleCondition.text? = .ok ("(t0.name LIKE '%Fire%' AND (t0.cmc < 3 OR " ++
      "t0.name NOT IN ('Fire OR (', 'Ice')) OR t0.name IN (SELECT t1.name FROM Card t1 " ++
      "WHERE (t1.name LIKE '%Fire%' OR t1.name NOT LIKE '%Ice%')))") ∧
    ∃ (text : String) (f : Formula Expr), sampleCondition.text? = .ok text ∧
      (∀ g, Parses .disjunction (tokens text.toList) g ↔ g = f.map Expr.tokens) ∧
      f.leaves.length = 4 ∧ ∀ v, f.truth v = sampleCondition.truth v := by
  have htable : "Card" ∈ tableNames := by decide
  have hcolumn : HasColumn "Card" "name" := by decide
  have hsource : ∀ n, IsSource (aliasName n, "Card") := fun n => ⟨⟨n, rfl⟩, htable⟩
  have hname : ∀ n, Sources.Offer [(aliasName n, "Card")] ⟨aliasName n, "name"⟩ := fun n =>
    ⟨"Card", List.mem_singleton_self _, hcolumn⟩
  have hcmc : Sources.Offer [(aliasName 0, "Card")] ⟨aliasName 0, "cmc"⟩ :=
    ⟨"Card", List.mem_singleton_self _, by decide⟩
  have hless : IsOperator "<" := List.mem_map_of_mem (by decide : Operator.less ∈ _)
  have htexts : ∀ v ∈ [Literal.text "Fire OR (", .text "Ice"], v.IsWritable :=
    List.forall_mem_cons.2 ⟨trivial, List.forall_mem_singleton.2 trivial⟩
  have hquery : Query.Scoped (.select (.mk [⟨"t1", "name"⟩] "Card" "t1" []
      [.anyOf [.like ⟨"t1", "name"⟩ "Fire" false, .like ⟨"t1", "name"⟩ "Ice" true]] [] none)) :=
    ⟨List.forall_mem_singleton.2 (hsource 1), List.cons_ne_nil _ _,
      List.forall_mem_singleton.2 (hname 1), trivial,
      ⟨⟨List.cons_ne_nil _ _, hname 1, hname 1, trivial⟩, trivial⟩, trivial⟩
  have hnamed : sampleCondition.Named := by
    refine expr_named (List.forall_mem_singleton.2 (hsource 0)) _ ⟨List.cons_ne_nil _ _,
      ⟨List.cons_ne_nil _ _, hname 0, ⟨List.cons_ne_nil _ _, ⟨hcmc, hless, trivial⟩, ?_⟩, trivial⟩,
      ⟨List.cons_ne_nil _ _, ⟨hname 0, hquery⟩, trivial⟩, trivial⟩
    exact ⟨⟨List.cons_ne_nil _ _, ⟨hname 0, htexts⟩, trivial⟩, trivial⟩
  have hpair : ∀ {a b : Expr}, IsCondition a → IsCondition b → ∀ e ∈ [a, b], IsCondition e :=
    fun ha hb => List.forall_mem_cons.2 ⟨ha, List.forall_mem_singleton.2 hb⟩
  have hcondition : IsCondition sampleCondition := by
    refine .anyOf (hpair (.allOf (hpair (.atom ?_) (.anyOf (hpair (.atom ?_)
      (.anyOf (List.forall_mem_singleton.2 (.atom ?_))))))) (.allOf
        (List.forall_mem_singleton.2 (.atom ?_))))
    · exact ⟨trivial, _, rfl⟩
    · exact ⟨⟨trivial, trivial⟩, _, rfl⟩
    · exact ⟨trivial, _, rfl⟩
    · exact ⟨trivial, _, rfl⟩
  have htext : sampleCondition.text? = .ok ("(t0.name LIKE '%Fire%' AND (t0.cmc < 3 OR " ++
      "t0.name NOT IN ('Fire OR (', 'Ice')) OR t0.name IN (SELECT t1.name FROM Card t1 " ++
      "WHERE (t1.name LIKE '%Fire%' OR t1.name NOT LIKE '%Ice%')))") := by decide +kernel
  -- what is written has no empty node, so the text need not be searched for one
  obtain ⟨hfails, hreads⟩ := reading_of_condition hcondition
  have hparts : ¬HasEmpty sampleCondition := by
    intro hempty
    obtain ⟨fault, hfault⟩ := hfails.2 hempty
    rw [htext] at hfault
    cases hfault
  obtain ⟨text, f, hwritten, hreading, hleaves, htruth⟩ := hreads hparts hnamed
  exact ⟨htext, text, f, hwritten, hreading, by rw [hleaves]; rfl, htruth⟩

end CardArchive
