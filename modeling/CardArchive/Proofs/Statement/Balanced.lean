import CardArchive.Proofs.Statement.Precedence
import CardArchive.Proofs.Statement.Reading

/-!
# Written trees have matching parentheses

Whatever is written of a tree, its text is read as tokens whose parentheses match, as long as
the names in it are words. So what stands in the parentheses of a test, a list of values or a
nested statement with conditions of its own, ends where the test ends, and the tests are not
taken apart by the grammar of conditions.

## What this module delivers

* `IsName` and `Expr.Named`: trees in which all names are words that join no conditions.
* `expr_named`, `query_named`: trees that can be read against the tables are among these.
* `ReadAs`: pieces whose text is read as tokens of some form, with `ReadAs.append`,
  `ReadAs.code` and `ReadAs.enclosed`.
* `readAs_like`, `readAs_in`, `readAs_compare`: the tests, which are atomic.
* `expr_balanced`, `query_balanced`: what is written has matching parentheses.
-/

set_option autoImplicit false

namespace CardArchive

open Sql

/-! ## Names -/

/-- A name that is read as one word, which joins no conditions. -/
def IsName (w : String) : Prop := IsWord w ∧ Binding.operand.Admits (.word w)

/-- A column whose source and name are names. -/
def Column.Named (c : Column) : Prop := IsName c.source ∧ IsName c.name

mutual

/-- Whether all that a value or a condition names are names. -/
def Expr.Named : Expr → Prop
  | .column c => c.Named
  | .literal _ => True
  | .countDistinct c => c.Named
  | .compare l o r => l.Named ∧ IsOperator o ∧ r.Named
  | .like c _ _ => c.Named
  | .inValues c _ _ => c.Named
  | .inQuery c q _ => c.Named ∧ q.Named
  | .allOf parts => allNamed parts
  | .anyOf parts => allNamed parts
  | .coalesce v f => v.Named ∧ f.Named

/-- Whether all that values or conditions name are names. -/
def allNamed : List Expr → Prop
  | [] => True
  | e :: es => e.Named ∧ allNamed es

/-- Whether all that a join names are names. -/
def Join.Named : Join → Prop
  | .mk table source condition _ => IsName table ∧ IsName source ∧ condition.Named

/-- Whether all that joins name are names. -/
def joinsNamed : List Join → Prop
  | [] => True
  | j :: js => j.Named ∧ joinsNamed js

/-- Whether all that a condition on groups names are names. -/
def havingNamed : Option Expr → Prop
  | none => True
  | some e => e.Named

/-- Whether all that a selection names are names. -/
def Select.Named : Select → Prop
  | .mk columns table source joins conditions groupBy having =>
    (∀ c ∈ columns ++ groupBy, c.Named) ∧ (IsName table ∧ IsName source) ∧ joinsNamed joins ∧
      allNamed conditions ∧ havingNamed having

/-- Whether all that selections name are names. -/
def selectsNamed : List Select → Prop
  | [] => True
  | s :: ss => s.Named ∧ selectsNamed ss

/-- Whether all that a query names are names. -/
def Query.Named : Query → Prop
  | .select s => s.Named
  | .intersect parts => selectsNamed parts

end

theorem allNamed_iff {es : List Expr} : allNamed es ↔ ∀ e ∈ es, e.Named := by
  induction es with
  | nil => simp [allNamed]
  | cons e es ih => simp [allNamed, ih]

/-! ### Trees over the tables -/

theorem isName_aliasName (n : Nat) : IsName (aliasName n) := by
  have hupper : (aliasName n).toList.map Char.toUpper =
      'T' :: (Nat.repr n).toList.map Char.toUpper := by
    rw [aliasName, String.toList_append]
    rfl
  refine ⟨isWord_aliasName n, ?_, ?_⟩
  · rw [Token.isAnd, hupper]
    rfl
  · rw [Token.isOr, hupper]
    rfl

theorem isName_of_mem_tableNames {w : String} (h : w ∈ tableNames) : IsName w := by
  have hall : ∀ w ∈ tableNames, Binding.operand.Admits (.word w) := by decide
  exact ⟨isWord_tableNames h, hall w h⟩

theorem isName_of_mem_columnNames {w : String} (h : w ∈ columnNames) : IsName w := by
  have hall : ∀ w ∈ columnNames, Binding.operand.Admits (.word w) := by decide
  exact ⟨isWord_columnNames h, hall w h⟩

theorem isName_of_isSource {p : String × String} (h : IsSource p) : IsName p.1 ∧ IsName p.2 := by
  obtain ⟨source, table⟩ := p
  obtain ⟨⟨n, hsource⟩, htable⟩ := h
  have hsource : source = aliasName n := hsource
  rw [hsource]
  exact ⟨isName_aliasName n, isName_of_mem_tableNames htable⟩

theorem named_of_offer {sources : Sources} (hs : ∀ p ∈ sources, IsSource p) {c : Column}
    (h : sources.Offer c) : c.Named := by
  obtain ⟨table, hmem, hcolumn⟩ := h
  have hsource := isName_of_isSource (hs _ hmem)
  exact ⟨hsource.1, isName_of_mem_columnNames (columnNames_of_hasColumn hcolumn)⟩

mutual

/-- What a tree names is a name if the tree can be read against the tables. -/
theorem expr_named {sources : Sources} (hs : ∀ p ∈ sources, IsSource p) :
    ∀ e : Expr, e.Scoped sources → e.Named
  | .column _, h => named_of_offer hs h
  | .literal _, _ => trivial
  | .countDistinct _, h => named_of_offer hs h
  | .compare l _ r, ⟨hl, ho, hr⟩ => ⟨expr_named hs l hl, ho, expr_named hs r hr⟩
  | .like _ _ _, h => named_of_offer hs h
  | .inValues _ _ _, ⟨hc, _⟩ => named_of_offer hs hc
  | .inQuery _ q _, ⟨hc, hq⟩ => ⟨named_of_offer hs hc, query_named q hq⟩
  | .allOf parts, ⟨_, hparts⟩ => all_named hs parts hparts
  | .anyOf parts, ⟨_, hparts⟩ => all_named hs parts hparts
  | .coalesce v f, ⟨hv, hf⟩ => ⟨expr_named hs v hv, expr_named hs f hf⟩

theorem all_named {sources : Sources} (hs : ∀ p ∈ sources, IsSource p) :
    ∀ es : List Expr, allScoped sources es → allNamed es
  | [], _ => trivial
  | e :: es, ⟨he, hes⟩ => ⟨expr_named hs e he, all_named hs es hes⟩

theorem joins_named {sources : Sources} (hs : ∀ p ∈ sources, IsSource p) :
    ∀ js : List Join, (∀ j ∈ js, IsSource j.named) → joinsScoped sources js → joinsNamed js
  | [], _, _ => trivial
  | .mk table source condition outer :: js, hnamed, ⟨hj, hjs⟩ => by
    have hown : IsSource (source, table) := hnamed _ List.mem_cons_self
    -- the condition of a join can name the table of the join itself
    have hmore : ∀ p ∈ sources ++ [(source, table)], IsSource p :=
      List.forall_mem_append.2 ⟨hs, List.forall_mem_singleton.2 hown⟩
    have hrest : ∀ j ∈ js, IsSource j.named := fun j h => hnamed j (List.mem_cons_of_mem _ h)
    obtain ⟨hsource, htable⟩ := isName_of_isSource hown
    exact ⟨⟨htable, hsource, expr_named hmore condition hj⟩, joins_named hmore js hrest hjs⟩

theorem having_named {sources : Sources} (hs : ∀ p ∈ sources, IsSource p) :
    ∀ having : Option Expr, havingScoped sources having → havingNamed having
  | none, _ => trivial
  | some e, h => expr_named hs e h

theorem select_named : ∀ s : Select, s.Scoped → s.Named
  | .mk columns table source joins conditions groupBy having,
      ⟨hs, _, hcolumns, hjoins, hconditions, hhaving⟩ => by
    have hown : IsSource (source, table) := hs _ List.mem_cons_self
    have hnamed : ∀ j ∈ joins, IsSource j.named := fun j hj =>
      hs _ (List.mem_cons_of_mem _ (List.mem_map_of_mem hj))
    obtain ⟨hsource, htable⟩ := isName_of_isSource hown
    refine ⟨fun c hc => named_of_offer hs (hcolumns c hc), ⟨htable, hsource⟩, ?_, ?_, ?_⟩
    · exact joins_named (List.forall_mem_singleton.2 hown) joins hnamed hjoins
    · exact all_named hs conditions hconditions
    · exact having_named hs having hhaving

theorem selects_named : ∀ ss : List Select, selectsScoped ss → selectsNamed ss
  | [], _ => trivial
  | s :: ss, ⟨hs, hss⟩ => ⟨select_named s hs, selects_named ss hss⟩

theorem query_named : ∀ q : Query, q.Scoped → q.Named
  | .select s, h => select_named s h
  | .intersect parts, ⟨_, hparts⟩ => selects_named parts hparts

end

/-! ## Pieces read as tokens of some form -/

/-- Pieces whose text is read, by itself, as tokens of some form. -/
def ReadAs (ps : List Piece) (P : List Token → Prop) : Prop :=
  ∃ ts os, Reads (charsOf ps) ts os ∧ P ts

section

variable {ps qs : List Piece} {P Q R : List Token → Prop}

theorem ReadAs.mono (h : ReadAs ps P) (hPQ : ∀ ts, P ts → Q ts) : ReadAs ps Q := by
  obtain ⟨ts, os, hreads, hP⟩ := h
  exact ⟨ts, os, hreads, hPQ ts hP⟩

/-- The tokens of the text are of that form. -/
theorem ReadAs.tokens (h : ReadAs ps P) : P (tokens (charsOf ps)) := by
  obtain ⟨ts, os, hreads, hP⟩ := h
  rwa [tokens_of_reads hreads]

/-- Two parts side by side, of which the second starts apart from the first. -/
theorem ReadAs.append (hp : ReadAs ps P) (hq : ReadAs qs Q) (happ : StartsApart qs)
    (hR : ∀ ts us, P ts → Q us → R (ts ++ us)) : ReadAs (ps ++ qs) R := by
  obtain ⟨ts, os, hts, hP⟩ := hp
  obtain ⟨us, os', hus, hQ⟩ := hq
  obtain ⟨c, cs, hchars, hc⟩ := happ
  rw [hchars] at hus
  refine ⟨ts ++ us, os ++ os', ?_, hR ts us hP hQ⟩
  have hreads := reads_append hts hc hus
  rwa [← hchars, charsOf, charsOf, ← List.flatMap_append] at hreads

/-- Code before a part. -/
theorem ReadAs.code {code : String} {ts : List Token} (hcode : Closed code.toList ts code.toList)
    (hq : ReadAs qs Q) (hR : ∀ us, Q us → R (ts ++ us)) : ReadAs (.code code :: qs) R := by
  obtain ⟨us, os, hus, hQ⟩ := hq
  exact ⟨ts ++ us, _, closed_append hcode hus, hR us hQ⟩

theorem readAs_nil (h : P []) : ReadAs [] P := ⟨[], [], ⟨[], .between, rfl, trivial, rfl, rfl⟩, h⟩

/-- A part with code before it in which parentheses are opened, and closed behind it. -/
theorem ReadAs.enclosed {code : String} (ts ws : List Token)
    (hcode : Closed code.toList (ts ++ opening :: ws) code.toList) (h : ReadAs ps P)
    (hR : ∀ us, P us → R (ts ++ opening :: (ws ++ us ++ closing :: []))) :
    ReadAs (.code code :: ps ++ [.code ")"]) R := by
  have hparenthesis : Closed ")".toList [closing] ")".toList := ⟨by decide, by decide⟩
  have hclose : ReadAs [.code ")"] (· = [closing]) := .code hparenthesis (readAs_nil rfl) (by
    rintro _ rfl
    rfl)
  have hend : ReadAs (ps ++ [.code ")"]) fun us => ∃ vs, P vs ∧ us = vs ++ [closing] := by
    refine h.append hclose (startsApart_code ⟨')', [], rfl, .inr (.inl rfl)⟩) ?_
    rintro vs _ hvs rfl
    exact ⟨vs, hvs, rfl⟩
  -- the code before it can go on behind the opening parenthesis
  refine .code hcode hend ?_
  rintro _ ⟨vs, hvs, rfl⟩
  have hsplit : ts ++ opening :: ws ++ (vs ++ [closing]) =
      ts ++ opening :: (ws ++ vs ++ closing :: []) := by simp
  rw [hsplit]
  exact hR vs hvs

/-- A condition that is not taken apart has matching parentheses. -/
theorem ReadAs.balanced (h : ReadAs ps IsAtomic) : ReadAs ps Balanced :=
  h.mono fun _ hts => balanced_of_nested hts.nested

end

/-! ## Written values and tests -/

theorem word_ne_parenthesis (w : String) : Token.word w ≠ opening ∧ Token.word w ≠ closing :=
  ⟨fun h => Token.noConfusion h, fun h => Token.noConfusion h⟩

theorem readAs_column {c : Column} (h : c.Named) : ReadAs c.pieces IsAtomic := by
  obtain ⟨⟨hsource, hsource'⟩, hname, hname'⟩ := h
  have hchars : charsOf c.pieces = c.source.toList ++ '.' :: c.name.toList := by
    rw [Column.pieces, charsOf_code]
    simp
  have hreads := reads_dotted hsource hname
  rw [← hchars] at hreads
  refine ⟨_, _, hreads, isAtomic_of_isFlat ?_⟩
  intro t ht
  simp only [List.mem_cons, List.not_mem_nil, or_false] at ht
  rcases ht with rfl | rfl | rfl
  · exact ⟨hsource', word_ne_parenthesis _⟩
  · decide
  · exact ⟨hname', word_ne_parenthesis _⟩

theorem readAs_quoted (s : String) : ReadAs [.quoted s] IsAtomic := by
  have hchars : charsOf [.quoted s] = '\'' :: doubled s.toList ++ ['\''] := by
    simp [charsOf, Piece.text]
  have hreads := reads_literal s
  rw [← hchars] at hreads
  refine ⟨_, _, hreads, isAtomic_of_isFlat ?_⟩
  intro t ht
  rw [List.mem_singleton.1 ht]
  exact ⟨⟨rfl, rfl⟩, fun h => Token.noConfusion h, fun h => Token.noConfusion h⟩

theorem readAs_integer (n : Int) : ReadAs [.code (toString n)] IsAtomic := by
  have hnumber : ∀ s, IsFlat Binding.operand.Admits [Token.number s] := by
    intro s t ht
    rw [List.mem_singleton.1 ht]
    exact ⟨⟨rfl, rfl⟩, fun h => Token.noConfusion h, fun h => Token.noConfusion h⟩
  rw [ReadAs, charsOf_code]
  cases n with
  | ofNat m =>
    exact ⟨_, _, reads_number (isNumber_toString m), isAtomic_of_isFlat (hnumber _)⟩
  | negSucc m =>
    have hchars : (toString (Int.negSucc m)).toList = '-' :: (toString (m + 1)).toList := by
      have happend : toString (Int.negSucc m) = "-" ++ toString (m + 1) := rfl
      rw [happend, String.toList_append]
      rfl
    rw [hchars]
    refine ⟨_, _, reads_minus (isNumber_toString (m + 1)), isAtomic_of_isFlat ?_⟩
    exact List.forall_mem_cons.2 ⟨by decide, hnumber _⟩

theorem readAs_literal {l : Literal} {ps : List Piece} (h : l.pieces = .ok ps) :
    ReadAs ps IsAtomic := by
  cases l with
  | text s =>
    cases h
    exact readAs_quoted s
  | integer n =>
    cases h
    exact readAs_integer n
  | unsupported w => cases h

section

variable {ps qs : List Piece} {P Q R : List Token → Prop}

theorem isOperator_ne {o : String} (h : IsOperator o) :
    Token.symbol o ≠ opening ∧ Token.symbol o ≠ closing := by
  simp only [IsOperator, Operator.all, List.map_cons, List.map_nil, List.mem_cons,
    List.not_mem_nil, or_false] at h
  rcases h with rfl | rfl | rfl | rfl | rfl | rfl <;> decide

/-- A comparison of two values. -/
theorem readAs_compare {o : String} (ho : IsOperator o) (hp : ReadAs ps P) (hq : ReadAs qs Q)
    (hR : ∀ ts us, P ts → Q us → R (ts ++ .symbol o :: us)) :
    ReadAs (ps ++ .code (" " ++ o ++ " ") :: qs) R := by
  have hcode : Closed (" " ++ o ++ " ").toList [.symbol o] (" " ++ o ++ " ").toList := by
    simp only [IsOperator, Operator.all, List.map_cons, List.map_nil, List.mem_cons,
      List.not_mem_nil, or_false] at ho
    rcases ho with rfl | rfl | rfl | rfl | rfl | rfl <;> exact ⟨by decide, by decide⟩
  have happ : StartsApart (.code (" " ++ o ++ " ") :: qs) := by
    rw [String.append_assoc]
    exact startsApart_blank _ _
  have hright : ReadAs (.code (" " ++ o ++ " ") :: qs) fun vs =>
      ∃ us, Q us ∧ vs = .symbol o :: us := .code hcode hq fun us hus => ⟨us, hus, rfl⟩
  refine hp.append hright happ ?_
  rintro ts _ hts ⟨us, hus, rfl⟩
  exact hR ts us hts hus

/-- The tokens of a test, or of its negation. -/
def testTokens (negated : Bool) (word : String) : List Token :=
  if negated then [.word "NOT", .word word] else [.word word]

theorem closed_like (negated : Bool) : Closed (keyword negated "LIKE").toList
    (testTokens negated "LIKE") (keyword negated "LIKE").toList := by
  cases negated <;> exact ⟨by decide, by decide⟩

theorem closed_in (negated : Bool) : Closed (keyword negated "IN" ++ "(").toList
    (testTokens negated "IN" ++ [opening]) (keyword negated "IN" ++ "(").toList := by
  cases negated <;> exact ⟨by decide, by decide⟩

theorem readAs_like {c : Column} (hc : c.Named) (word : String) (negated : Bool) :
    ReadAs (c.pieces ++ [.code (keyword negated "LIKE"), .quoted word]) IsAtomic := by
  have htest : ReadAs [.code (keyword negated "LIKE"), .quoted word]
      (Nested Binding.operand.Admits) := by
    refine .code (closed_like negated) (readAs_quoted word) fun us hus => ?_
    have hflat : IsFlat Binding.operand.Admits (testTokens negated "LIKE") := by
      cases negated <;> decide
    exact (nested_of_isFlat hflat).append hus.nested
  have happ := startsApart_test "LIKE" negated "" [.quoted word]
  rw [String.append_empty] at happ
  exact (readAs_column hc).append htest happ fun _ _ hts hus => hts.append hus

/-- A test for a list: what stands in its parentheses is not looked into. -/
theorem readAs_in {c : Column} (hc : c.Named) (negated : Bool) (h : ReadAs ps Balanced) :
    ReadAs (c.pieces ++ .code (keyword negated "IN" ++ "(") :: ps ++ [.code ")"]) IsAtomic := by
  have htest : ReadAs (.code (keyword negated "IN" ++ "(") :: ps ++ [.code ")"])
      (Nested Binding.operand.Admits) := by
    refine .enclosed (testTokens negated "IN") [] (closed_in negated) h fun us hus => ?_
    have hflat : IsFlat Binding.operand.Admits (testTokens negated "IN") := by
      cases negated <;> decide
    exact (nested_of_isFlat hflat).append (.group hus .nil)
  rw [List.append_assoc]
  exact (readAs_column hc).append htest (startsApart_test "IN" negated "(" _)
    fun _ _ hts hus => hts.append hus

/-- A function of what stands in its parentheses. -/
theorem readAs_call {code : String} (name : String) (ws : List Token)
    (hname : IsFlat Binding.operand.Admits [.word name])
    (hcode : Closed code.toList (.word name :: opening :: ws) code.toList) (hws : Balanced ws)
    (h : ReadAs ps Balanced) : ReadAs (.code code :: ps ++ [.code ")"]) IsAtomic := by
  refine .enclosed [.word name] ws hcode h fun us hus => ?_
  exact (isAtomic_of_isFlat hname).append (.group (hws.append hus) .nil)

theorem readAs_countDistinct {c : Column} (hc : c.Named) :
    ReadAs (.code "COUNT(DISTINCT " :: c.pieces ++ [.code ")"]) IsAtomic :=
  readAs_call "COUNT" [.word "DISTINCT"] (by decide) ⟨by decide, by decide⟩
    (nested_of_isFlat (by decide)) (readAs_column hc).balanced

/-- Parts with the same code between any two. -/
theorem readAs_separated {code : String} (ts : List Token)
    (hcode : Closed code.toList ts code.toList) (hts : Balanced ts)
    (happ : ∃ c cs, code.toList = c :: cs ∧ IsBoundary c) {pss : List (List Piece)}
    (h : ∀ ps ∈ pss, ReadAs ps Balanced) : ReadAs (separated code pss) Balanced := by
  induction pss with
  | nil => exact readAs_nil .nil
  | cons ps pss ih =>
    rw [List.forall_mem_cons] at h
    cases pss with
    | nil => exact h.1
    | cons qs rest =>
      have hlater : ReadAs (.code code :: separated code (qs :: rest)) Balanced :=
        .code hcode (ih h.2) fun us hus => hts.append hus
      exact h.1.append hlater (startsApart_code happ) fun _ _ hts hus => hts.append hus

theorem closed_comma : Closed ", ".toList [.symbol ","] ", ".toList := ⟨by decide, by decide⟩

theorem boundary_comma : ∃ c cs, ", ".toList = c :: cs ∧ IsBoundary c :=
  ⟨',', [' '], rfl, .inr (.inr rfl)⟩

theorem readAs_coalesce (hp : ReadAs ps Balanced) (hq : ReadAs qs Balanced) :
    ReadAs (.code "COALESCE(" :: ps ++ .code ", " :: qs ++ [.code ")"]) IsAtomic := by
  have hboth : ReadAs (ps ++ .code ", " :: qs) Balanced := by
    have hright : ReadAs (.code ", " :: qs) Balanced :=
      .code closed_comma hq fun us hus => (nested_of_isFlat (by decide)).append hus
    exact hp.append hright (startsApart_code boundary_comma) fun _ _ hts hus => hts.append hus
  exact readAs_call "COALESCE" [] (by decide) ⟨by decide, by decide⟩ .nil hboth

/-- A table and its alias behind some words. -/
theorem readAs_source {k table source : String} (ts : List Token)
    (hk : Closed k.toList ts k.toList) (hts : Balanced ts) (htable : IsName table)
    (hsource : IsName source) : ReadAs [.code (k ++ table ++ " " ++ source)] Balanced := by
  have hchars : charsOf [.code (k ++ table ++ " " ++ source)] =
      k.toList ++ (table.toList ++ ' ' :: source.toList) := by
    rw [charsOf_code]
    simp
  have hreads := closed_append hk (reads_source htable.1 hsource.1)
  rw [← hchars] at hreads
  refine ⟨_, _, hreads, hts.append (nested_of_isFlat ?_)⟩
  intro t ht
  simp only [List.mem_cons, List.not_mem_nil, or_false] at ht
  rcases ht with rfl | rfl
  · exact ⟨trivial, word_ne_parenthesis _⟩
  · exact ⟨trivial, word_ne_parenthesis _⟩

/-- Two pieces of code are as good as one. -/
theorem ReadAs.fuse {a b : String} (h : ReadAs (.code a :: .code b :: qs) P) :
    ReadAs (.code (a ++ b) :: qs) P := by
  have hchars : charsOf (.code (a ++ b) :: qs) = charsOf (.code a :: .code b :: qs) := by
    simp [charsOf, Piece.text]
  rwa [ReadAs, hchars]

end

/-! ## Everything written has matching parentheses -/

theorem readAs_literals {vs : List Literal} {pss : List (List Piece)}
    (h : vs.mapM Literal.pieces = .ok pss) : ∀ ps ∈ pss, ReadAs ps Balanced := by
  induction vs generalizing pss with
  | nil =>
    cases h
    exact List.forall_mem_nil _
  | cons v vs ih =>
    rw [List.mapM_cons] at h
    obtain ⟨ps, hps, h⟩ := bind_eq_ok.1 h
    obtain ⟨rest, hrest, h⟩ := bind_eq_ok.1 h
    cases h
    exact List.forall_mem_cons.2
      ⟨(readAs_literal hps).balanced, ih hrest⟩

theorem readAs_columns {cs : List Column} (h : ∀ c ∈ cs, c.Named) :
    ∀ ps ∈ cs.map Column.pieces, ReadAs ps Balanced := by
  intro ps hps
  obtain ⟨c, hc, rfl⟩ := List.mem_map.1 hps
  exact (readAs_column (h c hc)).balanced

theorem readAs_listed {pss : List (List Piece)} (h : ∀ ps ∈ pss, ReadAs ps Balanced) :
    ReadAs (separated ", " pss) Balanced :=
  readAs_separated _ closed_comma (nested_of_isFlat (by decide)) boundary_comma h

/-- Parts with a word between any two. -/
theorem readAs_joined {word : String} (hword : word = "AND" ∨ word = "OR" ∨ word = "INTERSECT")
    {pss : List (List Piece)} (h : ∀ ps ∈ pss, ReadAs ps Balanced) :
    ReadAs (separated (" " ++ word ++ " ") pss) Balanced := by
  have hcode : Closed (" " ++ word ++ " ").toList [.word word] (" " ++ word ++ " ").toList := by
    rcases hword with rfl | rfl | rfl <;> exact ⟨by decide, by decide⟩
  refine readAs_separated _ hcode (nested_of_isFlat ?_) ?_ h
  · intro t ht
    rw [List.mem_singleton.1 ht]
    exact ⟨trivial, word_ne_parenthesis word⟩
  · exact ⟨' ', (word ++ " ").toList, by simp, .inl rfl⟩

/-- A clause behind its words. -/
theorem readAs_clause {code : String} (ts : List Token) {ps : List Piece}
    (hcode : Closed code.toList ts code.toList) (hts : IsFlat Binding.disjunction.Admits ts)
    (h : ReadAs ps Balanced) : ReadAs (.code code :: ps) Balanced :=
  .code hcode h fun _ hus => (nested_of_isFlat hts).append hus

/-! One case for each constructor. In each, the parts have matching parentheses by induction, and
the code around them opens as many as it closes. -/

mutual

/-- A value or a condition that is written has matching parentheses. -/
theorem expr_balanced : ∀ e : Expr, e.Named → ∀ {ps}, e.pieces = .ok ps → ReadAs ps Balanced
  | .column c, hc, _, h => by
    cases h
    exact (readAs_column hc).balanced
  | .literal l, _, _, h => (readAs_literal h).balanced
  | .countDistinct c, hc, _, h => by
    cases h
    exact (readAs_countDistinct hc).balanced
  | .compare l o r, ⟨hl, ho, hr⟩, _, h => by
    rw [Expr.pieces] at h
    obtain ⟨ps, hps, h⟩ := bind_eq_ok.1 h
    obtain ⟨qs, hqs, h⟩ := bind_eq_ok.1 h
    cases h
    refine readAs_compare ho (expr_balanced l hl hps) (expr_balanced r hr hqs) ?_
    intro ts us hts hus
    exact hts.append (.token trivial (isOperator_ne ho).1 (isOperator_ne ho).2 hus)
  | .like c w negated, hc, _, h => by
    cases h
    exact (readAs_like hc _ negated).balanced
  | .inValues c vs negated, hc, _, h => by
    rw [Expr.pieces] at h
    obtain ⟨values, hvalues, h⟩ := bind_eq_ok.1 h
    cases h
    exact (readAs_in hc negated (readAs_listed (readAs_literals hvalues))).balanced
  | .inQuery c q negated, ⟨hc, hq⟩, _, h => by
    rw [Expr.pieces] at h
    obtain ⟨query, hquery, h⟩ := bind_eq_ok.1 h
    cases h
    exact (readAs_in hc negated (query_balanced q hq hquery)).balanced
  | .allOf parts, hparts, _, h => by
    rw [Expr.pieces] at h
    split at h
    · cases h
    · obtain ⟨written, hwritten, h⟩ := bind_eq_ok.1 h
      cases h
      exact readAs_joined (.inl rfl) (all_balanced parts hparts hwritten)
  | .anyOf parts, hparts, _, h => by
    rw [Expr.pieces] at h
    split at h
    · cases h
    · obtain ⟨written, hwritten, h⟩ := bind_eq_ok.1 h
      cases h
      have hor := readAs_joined (.inr (.inl rfl)) (all_balanced parts hparts hwritten)
      split
      · exact hor
      · exact .enclosed [] [] ⟨by decide, by decide⟩ hor fun us hus =>
          .group hus .nil
  | .coalesce v f, ⟨hv, hf⟩, _, h => by
    rw [Expr.pieces] at h
    obtain ⟨ps, hps, h⟩ := bind_eq_ok.1 h
    obtain ⟨qs, hqs, h⟩ := bind_eq_ok.1 h
    cases h
    exact (readAs_coalesce (expr_balanced v hv hps) (expr_balanced f hf hqs)).balanced

theorem all_balanced : ∀ es : List Expr, allNamed es → ∀ {pss}, allPieces es = .ok pss →
    ∀ ps ∈ pss, ReadAs ps Balanced
  | [], _, _, h => by
    cases h
    exact List.forall_mem_nil _
  | e :: es, ⟨he, hes⟩, _, h => by
    rw [allPieces] at h
    obtain ⟨p, hp, h⟩ := bind_eq_ok.1 h
    obtain ⟨ps, hps, h⟩ := bind_eq_ok.1 h
    cases h
    exact List.forall_mem_cons.2 ⟨expr_balanced e he hp, all_balanced es hes hps⟩

theorem joins_balanced : ∀ js : List Join, joinsNamed js → ∀ {pss}, joinPieces js = .ok pss →
    ∀ ps ∈ pss, ReadAs ps Balanced
  | [], _, _, h => by
    cases h
    exact List.forall_mem_nil _
  | .mk table source condition outer :: js, ⟨⟨htable, hsource, hcondition⟩, hjs⟩, _, h => by
    rw [joinPieces, Join.pieces] at h
    obtain ⟨join, hjoin, h⟩ := bind_eq_ok.1 h
    obtain ⟨on, hon, hjoin⟩ := bind_eq_ok.1 hjoin
    obtain ⟨ps, hps, h⟩ := bind_eq_ok.1 h
    cases hjoin
    cases h
    refine List.forall_mem_cons.2 ⟨ReadAs.fuse ?_, joins_balanced js hjs hps⟩
    have hnamed : ReadAs
        [.code ((if outer then "LEFT JOIN " else "JOIN ") ++ table ++ " " ++ source)] Balanced := by
      cases outer
      · exact readAs_source [.word "JOIN"] ⟨by decide, by decide⟩
          (nested_of_isFlat (by decide)) htable hsource
      · exact readAs_source [.word "LEFT", .word "JOIN"] ⟨by decide, by decide⟩
          (nested_of_isFlat (by decide)) htable hsource
    have hon : ReadAs (.code " ON " :: on) Balanced :=
      readAs_clause [.word "ON"] ⟨by decide, by decide⟩ (by decide)
        (expr_balanced condition hcondition hon)
    exact hnamed.append hon (startsApart_code ⟨' ', ['O', 'N', ' '], rfl, .inl rfl⟩)
      fun _ _ hts hus => hts.append hus

theorem having_balanced : ∀ having : Option Expr, havingNamed having →
    ∀ {pss}, havingPieces having = .ok pss → ∀ ps ∈ pss, ReadAs ps Balanced
  | none, _, _, h => by
    cases h
    exact List.forall_mem_nil _
  | some e, he, _, h => by
    rw [havingPieces] at h
    obtain ⟨p, hp, h⟩ := bind_eq_ok.1 h
    cases h
    intro ps hps
    rw [List.mem_singleton.1 hps]
    exact readAs_clause [.word "HAVING"] ⟨by decide, by decide⟩ (by decide)
      (expr_balanced e he hp)

theorem select_balanced : ∀ s : Select, s.Named → ∀ {ps}, s.pieces = .ok ps → ReadAs ps Balanced
  | .mk columns table source joins conditions groupBy having,
      ⟨hcolumns, ⟨htable, hsource⟩, hjoins, hconditions, hhaving⟩, _, h => by
    rw [Select.pieces] at h
    obtain ⟨js, hjs, h⟩ := bind_eq_ok.1 h
    obtain ⟨ts, hts, h⟩ := bind_eq_ok.1 h
    obtain ⟨gs, hgs, h⟩ := bind_eq_ok.1 h
    cases h
    obtain ⟨hcolumns, hgroupBy⟩ := List.forall_mem_append.1 hcolumns
    have hcols := readAs_listed (readAs_columns hcolumns)
    have hgroups := readAs_listed (readAs_columns hgroupBy)
    have htests := readAs_joined (.inl rfl) (all_balanced conditions hconditions hts)
    have hselect : ReadAs (.code "SELECT " :: separated ", " (columns.map Column.pieces))
        Balanced := readAs_clause [.word "SELECT"] ⟨by decide, by decide⟩ (by decide) hcols
    have hfrom : ReadAs [.code ("FROM " ++ table ++ " " ++ source)] Balanced :=
      readAs_source [.word "FROM"] ⟨by decide, by decide⟩ (nested_of_isFlat (by decide))
        htable hsource
    have hwhere : ReadAs (.code "WHERE " :: separated " AND " ts) Balanced :=
      readAs_clause [.word "WHERE"] ⟨by decide, by decide⟩ (by decide) htests
    have hby : ReadAs (.code "GROUP BY " :: separated ", " (groupBy.map Column.pieces)) Balanced :=
      readAs_clause [.word "GROUP", .word "BY"] ⟨by decide, by decide⟩ (by decide) hgroups
    -- the clauses in the order of the text; two of them can be missing
    have hclauses : ∀ ps ∈ (.code "SELECT " :: separated ", " (columns.map Column.pieces)) ::
        [.code ("FROM " ++ table ++ " " ++ source)] :: js, ReadAs ps Balanced :=
      List.forall_mem_cons.2 ⟨hselect,
        List.forall_mem_cons.2 ⟨hfrom, joins_balanced joins hjoins hjs⟩⟩
    refine readAs_separated [] ⟨by decide, by decide⟩ .nil ⟨' ', [], rfl, .inl rfl⟩ ?_
    refine List.forall_mem_append.2 ⟨List.forall_mem_append.2 ⟨List.forall_mem_append.2
      ⟨hclauses, ?_⟩, ?_⟩, having_balanced having hhaving hgs⟩
    · split
      · exact List.forall_mem_nil _
      · exact List.forall_mem_cons.2 ⟨hwhere, List.forall_mem_nil _⟩
    · split
      · exact List.forall_mem_nil _
      · exact List.forall_mem_cons.2 ⟨hby, List.forall_mem_nil _⟩

theorem selects_balanced : ∀ ss : List Select, selectsNamed ss → ∀ {pss},
    selectPieces ss = .ok pss → ∀ ps ∈ pss, ReadAs ps Balanced
  | [], _, _, h => by
    cases h
    exact List.forall_mem_nil _
  | s :: ss, ⟨hs, hss⟩, _, h => by
    rw [selectPieces] at h
    obtain ⟨p, hp, h⟩ := bind_eq_ok.1 h
    obtain ⟨ps, hps, h⟩ := bind_eq_ok.1 h
    cases h
    exact List.forall_mem_cons.2 ⟨select_balanced s hs hp, selects_balanced ss hss hps⟩

theorem query_balanced : ∀ q : Query, q.Named → ∀ {ps}, q.pieces = .ok ps → ReadAs ps Balanced
  | .select s, hs, _, h => select_balanced s hs h
  | .intersect parts, hparts, _, h => by
    rw [Query.pieces] at h
    split at h
    · cases h
    · obtain ⟨written, hwritten, h⟩ := bind_eq_ok.1 h
      cases h
      exact readAs_joined (.inr (.inr rfl)) (selects_balanced parts hparts hwritten)

end

end CardArchive
