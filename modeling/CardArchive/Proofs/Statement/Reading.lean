import CardArchive.Proofs.Outcome
import CardArchive.Proofs.Statement.Readable
import CardArchive.Statement.Limits

/-!
# Written statements read back

A tree that is scoped is written without a failure, and its text is read as what the
tree says: the literals are the texts of the tree in order, every other token is one of
the library's own, and the tables named after `FROM` and `JOIN` are those of the tree.
What stands outside the literals does not depend on the texts: it is the code of the
same tree with all texts emptied.

## What this module delivers

* `expr_readable`, `select_readable`, `query_readable`: trees that are scoped are
  written and readable.
* `Expr.emptied`, `Select.emptied` and `select_emptied`: the code of a tree without its
  texts.
* `text_readable`: all of this for the text of a selection.
-/

set_option autoImplicit false

namespace CardArchive

open Sql

/-! ## Readable trees -/

theorem columnNames_of_hasColumn {table column : String} (h : HasColumn table column) :
    column ∈ columnNames := by
  obtain ⟨columns, htable, hcolumn⟩ := h
  exact List.mem_flatMap.2 ⟨(table, columns), htable, hcolumn⟩

/-- A column of the sources is written and readable. -/
theorem readable_offered {sources : Sources} (hs : ∀ p ∈ sources, IsSource p) {c : Column}
    (h : sources.Offer c) : Readable c.pieces [] [] := by
  obtain ⟨table, hmem, hcolumn⟩ := h
  obtain ⟨⟨n, hn⟩, -⟩ := hs _ hmem
  have hsource : c.source = aliasName n := hn
  rw [Column.pieces, hsource]
  exact readable_column (columnNames_of_hasColumn hcolumn)

theorem allReadable_columns {sources : Sources} (hs : ∀ p ∈ sources, IsSource p) {cs : List Column}
    (h : ∀ c ∈ cs, sources.Offer c) : AllReadable (cs.map Column.pieces) [] [] := by
  induction cs with
  | nil => exact .nil
  | cons c cs ih =>
    exact .cons (readable_offered hs (h c List.mem_cons_self))
      (ih fun d hd => h d (List.mem_cons_of_mem c hd))

theorem literal_readable {l : Literal} (h : l.IsWritable) :
    ∃ ps, l.pieces = .ok ps ∧ Readable ps l.texts [] := by
  cases l with
  | text s => exact ⟨_, rfl, readable_quoted s⟩
  | integer n => exact ⟨_, rfl, readable_integer n⟩
  | unsupported w => exact h.elim

theorem literals_readable {vs : List Literal} (h : ∀ v ∈ vs, v.IsWritable) :
    ∃ ps, vs.mapM Literal.pieces = .ok ps ∧ AllReadable ps (vs.flatMap Literal.texts) [] := by
  induction vs with
  | nil => exact ⟨[], rfl, .nil⟩
  | cons v vs ih =>
    obtain ⟨p, hp, hread⟩ := literal_readable (h v List.mem_cons_self)
    obtain ⟨ps, hps, hreads⟩ := ih fun w hw => h w (List.mem_cons_of_mem v hw)
    refine ⟨p :: ps, ?_, .cons hread hreads⟩
    rw [List.mapM_cons, hp, hps]
    rfl

/-- The code of a test, and of its negation. -/
theorem isComplete_test {word : String} (h : word = "LIKE" ∨ word = "IN") (negated : Bool) :
    IsComplete (keyword negated word) ∧ IsComplete (keyword negated word ++ "(") := by
  rcases h with rfl | rfl <;> cases negated <;> decide

theorem startsApart_test (word : String) (negated : Bool) (rest : String) (qs : List Piece) :
    StartsApart (.code (keyword negated word ++ rest) :: qs) := by
  apply startsApart_code
  cases negated with
  | false =>
    refine ⟨' ', word.toList ++ ' ' :: rest.toList, ?_, .inl rfl⟩
    simp [keyword]
  | true =>
    refine ⟨' ', "NOT ".toList ++ word.toList ++ ' ' :: rest.toList, ?_, .inl rfl⟩
    simp [keyword]

theorem isComplete_operator {o : String} (h : IsOperator o) : IsComplete (" " ++ o ++ " ") := by
  simp only [IsOperator, Operator.all, List.map_cons, List.map_nil, List.mem_cons,
    List.not_mem_nil, or_false] at h
  rcases h with rfl | rfl | rfl | rfl | rfl | rfl <;> decide

theorem startsApart_blank (code : String) (qs : List Piece) :
    StartsApart (.code (" " ++ code) :: qs) := by
  apply startsApart_code
  refine ⟨' ', code.toList, ?_, .inl rfl⟩
  simp

/-- A closing parenthesis behind a clause. -/
theorem Readable.parenthesis {ps : List Piece} {ss : List String} {sources : Sources}
    (h : Readable ps ss sources) : Readable (ps ++ [.code ")"]) ss sources := by
  have hclose : Readable [.code ")"] [] [] := .code (by decide) .nil
  have happend := h.append hclose (startsApart_code ⟨')', [], rfl, .inr (.inl rfl)⟩)
  simpa only [List.append_nil] using happend

/-- A clause of several parts is left out if it has none. -/
theorem allReadable_clause (code between : String) (hcode : IsComplete code)
    (hbetween : IsComplete between) (happ : ∃ c cs, between.toList = c :: cs ∧ IsBoundary c)
    {ps : List (List Piece)} {ss : List String} {sources : Sources}
    (h : AllReadable ps ss sources) :
    AllReadable (if ps.isEmpty then [] else [.code code :: separated between ps]) ss sources := by
  cases ps with
  | nil => exact h
  | cons p ps =>
    have hone := AllReadable.cons (Readable.code hcode (.separated hbetween happ h)) .nil
    rwa [List.append_nil, List.append_nil] at hone

/-! One case for each constructor. In each, the parts are readable by induction, the code
between them is complete, and every part but the first starts apart from the one before. -/

mutual

/-- A value or a condition that is scoped is written and readable. -/
theorem expr_readable {sources : Sources} (hs : ∀ p ∈ sources, IsSource p) :
    ∀ e : Expr, e.Scoped sources → ∃ ps, e.pieces = .ok ps ∧ Readable ps e.texts e.introduced
  | .column c, h => ⟨_, rfl, readable_offered hs h⟩
  | .literal l, h => by
    obtain ⟨ps, hps, hread⟩ := literal_readable h
    exact ⟨ps, by rw [Expr.pieces, hps], hread⟩
  | .countDistinct c, h => by
    refine ⟨_, by rw [Expr.pieces], ?_⟩
    exact .code (by decide) (readable_offered hs h).parenthesis
  | .compare l o r, ⟨hl, ho, hr⟩ => by
    obtain ⟨ps, hps, hleft⟩ := expr_readable hs l hl
    obtain ⟨qs, hqs, hright⟩ := expr_readable hs r hr
    refine ⟨ps ++ .code (" " ++ o ++ " ") :: qs, by rw [Expr.pieces, hps, hqs]; rfl, ?_⟩
    refine hleft.append (.code (isComplete_operator ho) hright) ?_
    -- the blank before the operator ends what is on the left
    rw [String.append_assoc]
    exact startsApart_blank _ _
  | .like c w negated, h => by
    refine ⟨_, by rw [Expr.pieces], ?_⟩
    refine (readable_offered hs h).append
      (.code (isComplete_test (.inl rfl) negated).1 (readable_quoted _)) ?_
    have happ := startsApart_test "LIKE" negated "" [.quoted ("%" ++ w ++ "%")]
    rwa [String.append_empty] at happ
  | .inValues c vs negated, ⟨hc, hvs⟩ => by
    obtain ⟨ps, hps, hvalues⟩ := literals_readable hvs
    refine ⟨_, by rw [Expr.pieces, hps]; rfl, ?_⟩
    refine Readable.parenthesis ((readable_offered hs hc).append
      (.code (isComplete_test (.inr rfl) negated).2 ?_) (startsApart_test _ negated _ _))
    exact .separated (by decide) ⟨',', [' '], rfl, .inr (.inr rfl)⟩ hvalues
  | .inQuery c q negated, ⟨hc, hq⟩ => by
    obtain ⟨ps, hps, hquery⟩ := query_readable q hq
    refine ⟨_, by rw [Expr.pieces, hps]; rfl, ?_⟩
    exact Readable.parenthesis ((readable_offered hs hc).append
      (.code (isComplete_test (.inr rfl) negated).2 hquery) (startsApart_test _ negated _ _))
  | .allOf parts, ⟨hne, hparts⟩ => by
    obtain ⟨ps, hps, hread, -⟩ := all_readable hs parts hparts
    have hfull : parts.isEmpty = false := by simp [hne]
    refine ⟨separated " AND " ps, by rw [Expr.pieces, hfull, hps]; rfl, ?_⟩
    exact .separated (by decide) ⟨' ', ['A', 'N', 'D', ' '], rfl, .inl rfl⟩ hread
  | .anyOf parts, ⟨hne, hparts⟩ => by
    obtain ⟨ps, hps, hread, -⟩ := all_readable hs parts hparts
    have hfull : parts.isEmpty = false := by simp [hne]
    refine ⟨_, by rw [Expr.pieces, hfull, hps]; rfl, ?_⟩
    have hor : Readable (separated " OR " ps) (allTexts parts) (allIntroduced parts) :=
      .separated (by decide) ⟨' ', ['O', 'R', ' '], rfl, .inl rfl⟩ hread
    -- a single alternative is written without parentheses
    by_cases hone : ps.length = 1
    · rw [if_pos hone]
      exact hor
    · rw [if_neg hone]
      exact Readable.parenthesis (.code (by decide) hor)
  | .coalesce v f, ⟨hv, hf⟩ => by
    obtain ⟨ps, hps, hvalue⟩ := expr_readable hs v hv
    obtain ⟨qs, hqs, hfallback⟩ := expr_readable hs f hf
    refine ⟨_, by rw [Expr.pieces, hps, hqs]; rfl, ?_⟩
    refine Readable.parenthesis (.code (by decide) (hvalue.append (.code (by decide) hfallback) ?_))
    exact startsApart_code ⟨',', [' '], rfl, .inr (.inr rfl)⟩

theorem all_readable {sources : Sources} (hs : ∀ p ∈ sources, IsSource p) :
    ∀ es : List Expr, allScoped sources es → ∃ ps, allPieces es = .ok ps ∧
      AllReadable ps (allTexts es) (allIntroduced es) ∧ ps.length = es.length
  | [], _ => ⟨[], rfl, .nil, rfl⟩
  | e :: es, ⟨he, hes⟩ => by
    obtain ⟨p, hp, hread⟩ := expr_readable hs e he
    obtain ⟨ps, hps, hreads, hlength⟩ := all_readable hs es hes
    refine ⟨p :: ps, by rw [allPieces, hp, hps]; rfl, .cons hread hreads, ?_⟩
    rw [List.length_cons, List.length_cons, hlength]

theorem joins_readable {sources : Sources} (hs : ∀ p ∈ sources, IsSource p) :
    ∀ js : List Join, (∀ j ∈ js, IsSource j.named) → joinsScoped sources js →
      ∃ ps, joinPieces js = .ok ps ∧ AllReadable ps (joinsTexts js) (joinsIntroduced js)
  | [], _, _ => ⟨[], rfl, .nil⟩
  | .mk table source condition outer :: js, hnamed, ⟨hj, hjs⟩ => by
    have hown : IsSource (source, table) := hnamed _ List.mem_cons_self
    -- the condition of a join sees the tables before it and its own
    have hmore : ∀ p ∈ sources ++ [(source, table)], IsSource p := by
      intro p hp
      rcases List.mem_append.1 hp with hp | hp
      · exact hs p hp
      · rw [List.mem_singleton.1 hp]
        exact hown
    obtain ⟨on, hon, hcondition⟩ := expr_readable hmore condition hj
    obtain ⟨ps, hps, hreads⟩ :=
      joins_readable hmore js (fun j h => hnamed j (List.mem_cons_of_mem _ h)) hjs
    refine ⟨_, by rw [joinPieces, Join.pieces, hon, hps]; rfl, .cons ?_ hreads⟩
    -- the source and `ON` are one piece of the text, but are read one after the other
    have hcode : (if outer then "LEFT JOIN " else "JOIN ") ∈ sourceCodes := by
      cases outer <;> decide
    have hsource := readable_source hcode hown
    exact Readable.fuse (hsource.append (.code (by decide) hcondition)
      (startsApart_code ⟨' ', ['O', 'N', ' '], rfl, .inl rfl⟩))

theorem having_readable {sources : Sources} (hs : ∀ p ∈ sources, IsSource p) :
    ∀ having : Option Expr, havingScoped sources having → ∃ ps, havingPieces having = .ok ps ∧
      AllReadable ps (havingTexts having) (havingIntroduced having)
  | none, _ => ⟨[], rfl, .nil⟩
  | some e, h => by
    obtain ⟨p, hp, hread⟩ := expr_readable hs e h
    refine ⟨_, by rw [havingPieces, hp]; rfl, ?_⟩
    have hclause : Readable (.code "HAVING " :: p) e.texts e.introduced :=
      .code (by decide) hread
    have hone := AllReadable.cons hclause .nil
    rwa [List.append_nil, List.append_nil] at hone

/-- A selection that is scoped is written and readable. -/
theorem select_readable :
    ∀ s : Select, s.Scoped → ∃ ps, s.pieces = .ok ps ∧ Readable ps s.texts s.introduced
  | .mk columns table source joins conditions groupBy having,
      ⟨hs, _, hcolumns, hjoins, hconditions, hhaving⟩ => by
    have hown : IsSource (source, table) := hs _ List.mem_cons_self
    have hfirst : ∀ p ∈ [(source, table)], IsSource p := by
      intro p hp
      rw [List.mem_singleton.1 hp]
      exact hown
    have hnamed : ∀ j ∈ joins, IsSource j.named := fun j hj =>
      hs _ (List.mem_cons_of_mem _ (List.mem_map_of_mem hj))
    obtain ⟨js, hjs, hjread⟩ := joins_readable hfirst joins hnamed hjoins
    obtain ⟨ts, hts, htread, -⟩ := all_readable hs conditions hconditions
    obtain ⟨gs, hgs, hgread⟩ := having_readable hs having hhaving
    -- the clauses in the order of the text
    have hcomma : ∃ c cs, ", ".toList = c :: cs ∧ IsBoundary c :=
      ⟨',', [' '], rfl, .inr (.inr rfl)⟩
    have hcols := allReadable_columns hs fun c hc => hcolumns c (List.mem_append_left _ hc)
    have hgroup := allReadable_columns hs fun c hc => hcolumns c (List.mem_append_right _ hc)
    have hselect : Readable (.code "SELECT " :: separated ", " (columns.map Column.pieces)) [] [] :=
      .code (by decide) (.separated (by decide) hcomma hcols)
    have hfrom := readable_source (k := "FROM ") (by decide) hown
    have hwhere := allReadable_clause "WHERE " " AND " (by decide) (by decide)
      ⟨' ', ['A', 'N', 'D', ' '], rfl, .inl rfl⟩ htread
    have hby := allReadable_clause "GROUP BY " _ (by decide) (by decide) hcomma hgroup
    rw [List.isEmpty_map] at hby
    refine ⟨_, by rw [Select.pieces, hjs, hts, hgs]; rfl, ?_⟩
    -- only joins, conditions and groups hold texts; the source comes before the joins
    have hclauses := (((AllReadable.cons hselect (.cons hfrom hjread)).append hwhere).append
      hby).append hgread
    have htexts : Select.texts (.mk columns table source joins conditions groupBy having) =
        [] ++ ([] ++ joinsTexts joins) ++ allTexts conditions ++ [] ++ havingTexts having := by
      simp only [Select.texts, List.nil_append, List.append_nil]
    have hsources : Select.introduced (.mk columns table source joins conditions groupBy having) =
        [] ++ ([(source, table)] ++ joinsIntroduced joins) ++ allIntroduced conditions ++ [] ++
          havingIntroduced having := by
      simp only [Select.introduced, List.nil_append, List.append_nil, List.singleton_append]
    rw [htexts, hsources]
    exact .separated (by decide) ⟨' ', [], rfl, .inl rfl⟩ hclauses

theorem selects_readable :
    ∀ ss : List Select, selectsScoped ss → ∃ ps, selectPieces ss = .ok ps ∧
      AllReadable ps (selectsTexts ss) (selectsIntroduced ss)
  | [], _ => ⟨[], rfl, .nil⟩
  | s :: ss, ⟨hs, hss⟩ => by
    obtain ⟨p, hp, hread⟩ := select_readable s hs
    obtain ⟨ps, hps, hreads⟩ := selects_readable ss hss
    exact ⟨p :: ps, by rw [selectPieces, hp, hps]; rfl, .cons hread hreads⟩

theorem query_readable :
    ∀ q : Query, q.Scoped → ∃ ps, q.pieces = .ok ps ∧ Readable ps q.texts q.introduced
  | .select s, h => by
    obtain ⟨ps, hps, hread⟩ := select_readable s h
    exact ⟨ps, by rw [Query.pieces, hps], hread⟩
  | .intersect parts, ⟨hne, hparts⟩ => by
    obtain ⟨ps, hps, hread⟩ := selects_readable parts hparts
    have hfull : parts.isEmpty = false := by simp [hne]
    refine ⟨separated " INTERSECT " ps, by rw [Query.pieces, hfull, hps]; rfl, ?_⟩
    exact .separated (by decide) ⟨' ', "INTERSECT ".toList, rfl, .inl rfl⟩ hread

end

/-! ## Trees without their texts -/

/-- A literal with an empty text. -/
def Literal.emptied : Literal → Literal
  | .text _ => .text ""
  | l => l

mutual

/-- A value or a condition with all of its texts emptied. -/
def Expr.emptied : Expr → Expr
  | .column c => .column c
  | .literal l => .literal l.emptied
  | .countDistinct c => .countDistinct c
  | .compare l o r => .compare l.emptied o r.emptied
  | .like c _ negated => .like c "" negated
  | .inValues c vs negated => .inValues c (vs.map Literal.emptied) negated
  | .inQuery c q negated => .inQuery c q.emptied negated
  | .allOf parts => .allOf (allEmptied parts)
  | .anyOf parts => .anyOf (allEmptied parts)
  | .coalesce v f => .coalesce v.emptied f.emptied

/-- Values or conditions with all of their texts emptied. -/
def allEmptied : List Expr → List Expr
  | [] => []
  | e :: es => e.emptied :: allEmptied es

/-- A join with all of its texts emptied. -/
def Join.emptied : Join → Join
  | .mk table source condition outer => .mk table source condition.emptied outer

/-- Joins with all of their texts emptied. -/
def joinsEmptied : List Join → List Join
  | [] => []
  | j :: js => j.emptied :: joinsEmptied js

/-- A condition on groups with all of its texts emptied. -/
def havingEmptied : Option Expr → Option Expr
  | none => none
  | some e => some e.emptied

/-- A selection with all of its texts emptied. -/
def Select.emptied : Select → Select
  | .mk columns table source joins conditions groupBy having =>
    .mk columns table source (joinsEmptied joins) (allEmptied conditions) groupBy
      (havingEmptied having)

/-- Selections with all of their texts emptied. -/
def selectsEmptied : List Select → List Select
  | [] => []
  | s :: ss => s.emptied :: selectsEmptied ss

/-- A query with all of its texts emptied. -/
def Query.emptied : Query → Query
  | .select s => .select s.emptied
  | .intersect parts => .intersect (selectsEmptied parts)

end

/-- Two computations agree on what `view` shows of their results. -/
def Agree {α β : Type} (view : α → β) (x y : Except StatementFault α) : Prop :=
  x.map view = y.map view

theorem Agree.refl {α β : Type} (view : α → β) (x : Except StatementFault α) : Agree view x x := rfl

theorem agree_ok {α β : Type} {view : α → β} {a b : α} (h : view a = view b) :
    Agree view (.ok a) (.ok b) := by
  rw [Agree, Except.map, Except.map, h]

/-- Steps that agree for results that look the same agree after steps that agree. -/
theorem Agree.bind {α β γ δ : Type} {view : α → β} {view' : γ → δ} {x y : Except StatementFault α}
    {f g : α → Except StatementFault γ} (h : Agree view x y)
    (hfg : ∀ a b, view a = view b → Agree view' (f a) (g b)) : Agree view' (x >>= f) (y >>= g) := by
  cases x with
  | error e =>
    cases y with
    | error e' =>
      cases h
      rfl
    | ok b => cases h
  | ok a =>
    cases y with
    | error e' => cases h
    | ok b => exact hfg a b (Except.ok.inj h)

theorem codeOf_append (ps qs : List Piece) : codeOf (ps ++ qs) = codeOf ps ++ codeOf qs :=
  List.flatMap_append

theorem codeOf_cons (p : Piece) (ps : List Piece) : codeOf (p :: ps) = codeOf [p] ++ codeOf ps := by
  rw [← codeOf_append]
  rfl

/-- The code of separated parts is the code of each of them, with the separator between
any two. -/
theorem codeOf_separated (code : String) (ps : List (List Piece)) :
    codeOf (separated code ps) = ((ps.map codeOf).intersperse code.toList).flatten := by
  induction ps with
  | nil => rfl
  | cons p ps ih =>
    cases ps with
    | nil => exact (List.append_nil _).symm
    | cons q ps =>
      have hsplit : separated code (p :: q :: ps) =
          p ++ .code code :: separated code (q :: ps) := rfl
      rw [hsplit, codeOf_append, codeOf_cons, codeOf_code, ih]
      rfl

theorem codeOf_separated_congr (code : String) {ps qs : List (List Piece)}
    (h : ps.map codeOf = qs.map codeOf) :
    codeOf (separated code ps) = codeOf (separated code qs) := by
  rw [codeOf_separated, codeOf_separated, h]

theorem codeOf_literal (l : Literal) : Agree codeOf l.emptied.pieces l.pieces := by
  cases l with
  | text s => exact agree_ok rfl
  | integer n => exact Agree.refl codeOf _
  | unsupported w => exact Agree.refl codeOf _

theorem codeOf_literals (vs : List Literal) :
    Agree (List.map codeOf) ((vs.map Literal.emptied).mapM Literal.pieces)
      (vs.mapM Literal.pieces) := by
  induction vs with
  | nil => exact Agree.refl _ _
  | cons v vs ih =>
    rw [List.map_cons, List.mapM_cons, List.mapM_cons]
    refine (codeOf_literal v).bind fun p q hp => ih.bind fun ps qs hps => agree_ok ?_
    rw [List.map_cons, List.map_cons, hp, hps]

theorem isEmpty_allEmptied (es : List Expr) : (allEmptied es).isEmpty = es.isEmpty := by
  cases es with
  | nil => rfl
  | cons e es => rfl

theorem isEmpty_selectsEmptied (ss : List Select) : (selectsEmptied ss).isEmpty = ss.isEmpty := by
  cases ss with
  | nil => rfl
  | cons s ss => rfl

theorem isEmpty_of_map_codeOf {ps qs : List (List Piece)} (h : ps.map codeOf = qs.map codeOf) :
    ps.isEmpty = qs.isEmpty := by
  rw [← List.isEmpty_map (f := codeOf), h, List.isEmpty_map]

mutual

/-- The code of a value or a condition does not depend on its texts. -/
theorem expr_emptied : ∀ e : Expr, Agree codeOf e.emptied.pieces e.pieces
  | .column c => Agree.refl codeOf _
  | .literal l => codeOf_literal l
  | .countDistinct c => Agree.refl codeOf _
  | .compare l o r => by
    rw [Expr.emptied, Expr.pieces, Expr.pieces]
    refine (expr_emptied l).bind fun p q hp => (expr_emptied r).bind fun p' q' hp' => agree_ok ?_
    rw [codeOf_append, codeOf_append, codeOf_cons _ p', codeOf_cons _ q', hp, hp']
  | .like c w negated => by
    rw [Expr.emptied, Expr.pieces, Expr.pieces]
    refine agree_ok ?_
    rw [codeOf_append, codeOf_append]
    rfl
  | .inValues c vs negated => by
    rw [Expr.emptied, Expr.pieces, Expr.pieces]
    refine (codeOf_literals vs).bind fun ps qs hps => agree_ok ?_
    have hsep := codeOf_separated_congr ", " hps
    simp only [codeOf_append, codeOf_cons _ (separated _ _), hsep]
  | .inQuery c q negated => by
    rw [Expr.emptied, Expr.pieces, Expr.pieces]
    refine (query_emptied q).bind fun p q hp => agree_ok ?_
    simp only [codeOf_append, codeOf_cons _ p, codeOf_cons _ q, hp]
  | .allOf parts => by
    rw [Expr.emptied, Expr.pieces, Expr.pieces, isEmpty_allEmptied]
    cases parts.isEmpty with
    | true => exact Agree.refl codeOf _
    | false =>
      refine (all_emptied parts).bind fun ps qs hps => agree_ok ?_
      exact codeOf_separated_congr " AND " hps
  | .anyOf parts => by
    rw [Expr.emptied, Expr.pieces, Expr.pieces, isEmpty_allEmptied]
    cases parts.isEmpty with
    | true => exact Agree.refl codeOf _
    | false =>
      refine (all_emptied parts).bind fun ps qs hps => agree_ok ?_
      -- as many alternatives as before, so the parentheses are the same
      have hlength : ps.length = qs.length := by simpa using congrArg List.length hps
      have hsep := codeOf_separated_congr " OR " hps
      rw [hlength]
      by_cases hone : qs.length = 1
      · rw [if_pos hone, if_pos hone, hsep]
      · rw [if_neg hone, if_neg hone]
        simp only [codeOf_append, codeOf_cons _ (separated _ _), hsep]
  | .coalesce v f => by
    rw [Expr.emptied, Expr.pieces, Expr.pieces]
    refine (expr_emptied v).bind fun p q hp => (expr_emptied f).bind fun p' q' hp' => agree_ok ?_
    simp only [codeOf_append, codeOf_cons _ p, codeOf_cons _ q, codeOf_cons _ p',
      codeOf_cons _ q', hp, hp']

theorem all_emptied : ∀ es : List Expr,
    Agree (List.map codeOf) (allPieces (allEmptied es)) (allPieces es)
  | [] => Agree.refl _ _
  | e :: es => by
    rw [allEmptied, allPieces, allPieces]
    refine (expr_emptied e).bind fun p q hp => (all_emptied es).bind fun ps qs hps => agree_ok ?_
    rw [List.map_cons, List.map_cons, hp, hps]

theorem joins_emptied : ∀ js : List Join,
    Agree (List.map codeOf) (joinPieces (joinsEmptied js)) (joinPieces js)
  | [] => Agree.refl _ _
  | .mk table source condition outer :: js => by
    rw [joinsEmptied, joinPieces, joinPieces, Join.emptied, Join.pieces, Join.pieces]
    have hjoin : Agree codeOf _ _ := (expr_emptied condition).bind fun p q hp =>
      agree_ok (a := .code ((if outer then "LEFT JOIN " else "JOIN ") ++ table ++ " " ++ source ++
        " ON ") :: p) (b := .code ((if outer then "LEFT JOIN " else "JOIN ") ++ table ++ " " ++
        source ++ " ON ") :: q) (by rw [codeOf_cons _ p, codeOf_cons _ q, hp])
    refine hjoin.bind fun p q hp => (joins_emptied js).bind fun ps qs hps => agree_ok ?_
    rw [List.map_cons, List.map_cons, hp, hps]

theorem having_emptied : ∀ having : Option Expr,
    Agree (List.map codeOf) (havingPieces (havingEmptied having)) (havingPieces having)
  | none => Agree.refl _ _
  | some e => by
    rw [havingEmptied, havingPieces, havingPieces]
    refine (expr_emptied e).bind fun p q hp => agree_ok ?_
    rw [List.map_cons, List.map_cons, codeOf_cons _ p, codeOf_cons _ q, hp]

/-- The code of a selection does not depend on its texts. -/
theorem select_emptied : ∀ s : Select, Agree codeOf s.emptied.pieces s.pieces
  | .mk columns table source joins conditions groupBy having => by
    rw [Select.emptied, Select.pieces, Select.pieces]
    refine (joins_emptied joins).bind fun js js' hjs => ?_
    refine (all_emptied conditions).bind fun ts ts' hts => ?_
    refine (having_emptied having).bind fun gs gs' hgs => agree_ok ?_
    -- emptying the texts neither adds nor drops the clause of the conditions
    have hwhere : (if ts.isEmpty then [] else [Piece.code "WHERE " :: separated " AND " ts]).map
        codeOf = (if ts'.isEmpty then [] else [Piece.code "WHERE " :: separated " AND " ts']).map
        codeOf := by
      rw [isEmpty_of_map_codeOf hts]
      cases ts'.isEmpty with
      | true => rfl
      | false =>
        simp only [Bool.false_eq_true, if_false, List.map_cons, List.map_nil,
          codeOf_cons _ (separated _ _), codeOf_separated_congr " AND " hts]
    apply codeOf_separated_congr
    simp only [List.map_append, List.map_cons, hjs, hwhere, hgs]

theorem selects_emptied : ∀ ss : List Select,
    Agree (List.map codeOf) (selectPieces (selectsEmptied ss)) (selectPieces ss)
  | [] => Agree.refl _ _
  | s :: ss => by
    rw [selectsEmptied, selectPieces, selectPieces]
    refine (select_emptied s).bind fun p q hp => (selects_emptied ss).bind fun ps qs hps =>
      agree_ok ?_
    rw [List.map_cons, List.map_cons, hp, hps]

theorem query_emptied : ∀ q : Query, Agree codeOf q.emptied.pieces q.pieces
  | .select s => select_emptied s
  | .intersect parts => by
    rw [Query.emptied, Query.pieces, Query.pieces, isEmpty_selectsEmptied]
    cases parts.isEmpty with
    | true => exact Agree.refl codeOf _
    | false =>
      refine (selects_emptied parts).bind fun ps qs hps => agree_ok ?_
      exact codeOf_separated_congr " INTERSECT " hps

end

/-- The text of a scoped selection, read back: its literals, its other tokens, its tables,
and what stands outside its literals. -/
theorem text_readable {s : Select} (h : s.Scoped) :
    ∃ text, s.text? = .ok text ∧ literals (tokens text.toList) = s.texts ∧
      (∀ t ∈ tokens text.toList, IsOwn t ∨ ∃ w, t = .literal w) ∧
      introductions (tokens text.toList) = s.introduced ∧
      ∃ qs, s.emptied.pieces = .ok qs ∧ outside text.toList = codeOf qs := by
  obtain ⟨ps, hps, ts, hts⟩ := select_readable s h
  have hchars : (Piece.join ps).toList = charsOf ps := toList_join ps
  have htokens : tokens (Piece.join ps).toList = ts := by
    rw [hchars]
    exact tokens_of_reads hts.reads
  -- the emptied tree is written as well, as both agree on their outcome
  have hsame := select_emptied s
  rw [Agree, hps] at hsame
  obtain ⟨qs, hqs, hcode⟩ := map_eq_ok.1 hsame
  refine ⟨Piece.join ps, by rw [Select.text?, hps]; rfl, ?_, ?_, ?_, qs, hqs, ?_⟩
  · rw [htokens, hts.literals]
  · rw [htokens]
    exact hts.own
  · have hall := hts.introduces []
    rwa [List.append_nil, ← htokens, introductions, List.append_nil] at hall
  · rw [hchars, outside_of_reads hts.reads, hcode]

end CardArchive
