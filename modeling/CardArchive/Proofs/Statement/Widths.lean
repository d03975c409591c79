import CardArchive.Proofs.Outcome
import CardArchive.Proofs.Statement.Heights
import CardArchive.Proofs.Text.Numerals

/-!
# Lengths of written statements

The number of bytes of a written tree is bounded part by part: what stands between two parts
is code of the library, and so are the words around them, so only names and literals can be
long. A selection with so many joins and conditions of bounded lengths has a bounded length
itself.

## What this module delivers

* `width` and `utf8ByteSize_join`: the bytes of some pieces.
* `width_separated_le`: parts with code between them.
* `Expr.Within`, `Select.Within`: trees that are written within a number of bytes.
* `within_compare`, `within_selectColumn`, `within_cardsOnly`: one rule for each kind.
-/

set_option autoImplicit false

namespace CardArchive

/-! ## Bytes of pieces -/

/-- Number of bytes of some pieces. -/
def width (ps : List Piece) : Nat := (ps.map fun p => p.text.utf8ByteSize).sum

@[simp]
theorem width_nil : width [] = 0 := rfl

@[simp]
theorem width_cons (p : Piece) (ps : List Piece) :
    width (p :: ps) = p.text.utf8ByteSize + width ps := by
  simp only [width, List.map_cons, List.sum_cons]

@[simp]
theorem width_append (ps qs : List Piece) : width (ps ++ qs) = width ps + width qs := by
  simp only [width, List.map_append, List.sum_append]

theorem utf8ByteSize_join (ps : List Piece) : (Piece.join ps).utf8ByteSize = width ps := by
  induction ps with
  | nil => rfl
  | cons p ps ih =>
    rw [Piece.join, List.map_cons, String.join_cons, String.utf8ByteSize_append, width_cons, ← ih]
    rfl

/-- Parts of a bounded length, with code between any two. -/
theorem width_separated_le (code : String) {bound : Nat} {parts : List (List Piece)}
    (h : ∀ p ∈ parts, width p ≤ bound) :
    width (separated code parts) ≤ parts.length * (bound + code.utf8ByteSize) := by
  induction parts with
  | nil => exact Nat.zero_le _
  | cons p parts ih =>
    obtain ⟨hp, hparts⟩ := List.forall_mem_cons.1 h
    rw [List.length_cons, Nat.succ_mul]
    cases parts with
    | nil =>
      rw [separated_single]
      omega
    | cons q parts =>
      have hrest := ih hparts
      have hstep : separated code (p :: q :: parts) =
          p ++ Piece.code code :: separated code (q :: parts) := rfl
      have hcode : (Piece.code code).text = code := rfl
      rw [hstep, width_append, width_cons, hcode]
      omega

/-! ## Values and conditions -/

/-- A value or a condition is written within so many bytes. -/
def Expr.Within (e : Expr) (bound : Nat) : Prop :=
  ∃ ps, e.pieces = .ok ps ∧ width ps ≤ bound

/-- A join is written within so many bytes. -/
def Join.Within (j : Join) (bound : Nat) : Prop :=
  ∃ ps, j.pieces = .ok ps ∧ width ps ≤ bound

/-- A selection is written within so many bytes. -/
def Select.Within (s : Select) (bound : Nat) : Prop :=
  ∃ ps, s.pieces = .ok ps ∧ width ps ≤ bound

theorem width_column (c : Column) :
    width c.pieces = c.source.utf8ByteSize + c.name.utf8ByteSize + 1 := by
  have hpoint : ".".utf8ByteSize = 1 := rfl
  simp only [Column.pieces, width_cons, width_nil, Piece.text, String.utf8ByteSize_append, hpoint]
  omega

theorem within_column {c : Column} {source name : Nat} (hsource : c.source.utf8ByteSize ≤ source)
    (hname : c.name.utf8ByteSize ≤ name) : (Expr.column c).Within (source + name + 1) := by
  refine ⟨c.pieces, rfl, ?_⟩
  rw [width_column]
  omega

/-- An integer that can be printed has as many digits at most, and a sign. -/
theorem within_integer {n : Int} (h : Text.IsWritable n) :
    (Expr.literal (.integer n)).Within (Text.digitLimit + 1) := by
  refine ⟨[.code (toString n)], rfl, ?_⟩
  rw [width_cons, width_nil, Piece.text, Nat.add_zero]
  exact Text.utf8ByteSize_toString_le h

theorem within_compare {l r : Expr} {o : String} {left right : Nat} (hl : l.Within left)
    (hr : r.Within right) :
    (Expr.compare l o r).Within (left + right + (o.utf8ByteSize + 2)) := by
  obtain ⟨ls, hls, hleft⟩ := hl
  obtain ⟨rs, hrs, hright⟩ := hr
  refine ⟨ls ++ .code (" " ++ o ++ " ") :: rs, ?_, ?_⟩
  · rw [Expr.pieces, hls, hrs]
    rfl
  · have hblank : " ".utf8ByteSize = 1 := rfl
    simp only [width_append, width_cons, Piece.text, String.utf8ByteSize_append, hblank]
    omega

theorem within_join (table source : String) {condition : Expr} {bound : Nat}
    (h : condition.Within bound) :
    (Join.mk table source condition false).Within
      (table.utf8ByteSize + source.utf8ByteSize + bound + 10) := by
  obtain ⟨ps, hps, hbound⟩ := h
  refine ⟨.code ("JOIN " ++ table ++ " " ++ source ++ " ON ") :: ps, ?_, ?_⟩
  · rw [Join.pieces, hps]
    rfl
  · have hjoin : "JOIN ".utf8ByteSize = 5 := rfl
    have hblank : " ".utf8ByteSize = 1 := rfl
    have hon : " ON ".utf8ByteSize = 4 := rfl
    simp only [width_cons, Piece.text, String.utf8ByteSize_append, hjoin, hblank, hon]
    omega

theorem allPieces_within {es : List Expr} {bound : Nat} (h : ∀ e ∈ es, e.Within bound) :
    ∃ parts, allPieces es = .ok parts ∧ parts.length = es.length ∧
      ∀ p ∈ parts, width p ≤ bound := by
  induction es with
  | nil => exact ⟨[], rfl, rfl, List.forall_mem_nil _⟩
  | cons e es ih =>
    obtain ⟨⟨ps, hps, hbound⟩, hes⟩ := List.forall_mem_cons.1 h
    obtain ⟨parts, hparts, hlength, hall⟩ := ih hes
    refine ⟨ps :: parts, ?_, congrArg (· + 1) hlength, List.forall_mem_cons.2 ⟨hbound, hall⟩⟩
    rw [allPieces, hps, hparts]
    rfl

theorem joinPieces_within {js : List Join} {bound : Nat} (h : ∀ j ∈ js, j.Within bound) :
    ∃ parts, joinPieces js = .ok parts ∧ parts.length = js.length ∧
      ∀ p ∈ parts, width p ≤ bound := by
  induction js with
  | nil => exact ⟨[], rfl, rfl, List.forall_mem_nil _⟩
  | cons j js ih =>
    obtain ⟨⟨ps, hps, hbound⟩, hjs⟩ := List.forall_mem_cons.1 h
    obtain ⟨parts, hparts, hlength, hall⟩ := ih hjs
    refine ⟨ps :: parts, ?_, congrArg (· + 1) hlength, List.forall_mem_cons.2 ⟨hbound, hall⟩⟩
    rw [joinPieces, hps, hparts]
    rfl

theorem selectPieces_within {ss : List Select} {bound : Nat} (h : ∀ s ∈ ss, s.Within bound) :
    ∃ parts, selectPieces ss = .ok parts ∧ parts.length = ss.length ∧
      ∀ p ∈ parts, width p ≤ bound := by
  induction ss with
  | nil => exact ⟨[], rfl, rfl, List.forall_mem_nil _⟩
  | cons s ss ih =>
    obtain ⟨⟨ps, hps, hbound⟩, hss⟩ := List.forall_mem_cons.1 h
    obtain ⟨parts, hparts, hlength, hall⟩ := ih hss
    refine ⟨ps :: parts, ?_, congrArg (· + 1) hlength, List.forall_mem_cons.2 ⟨hbound, hall⟩⟩
    rw [selectPieces, hps, hparts]
    rfl

/-! ## Selections -/

/-- A selection of one column is written in at most three clauses and one for each join. The
clause of the conditions is the longest. -/
theorem within_selectColumn {c : Column} {table : String} {joins : List Join}
    {conditions : List Expr} {bound : Nat}
    (hcolumn : c.source.utf8ByteSize + c.name.utf8ByteSize + 8 ≤ bound)
    (htable : table.utf8ByteSize + c.source.utf8ByteSize + 6 ≤ bound)
    (hjoins : ∀ j ∈ joins, j.Within bound) (hconditions : ∀ e ∈ conditions, e.Within bound) :
    (selectColumn c table joins conditions).Within
      ((joins.length + 3) * (bound + 6 + conditions.length * (bound + 5) + 1)) := by
  obtain ⟨js, hjs, hjoined, hjsbound⟩ := joinPieces_within hjoins
  obtain ⟨es, hes, htested, hesbound⟩ := allPieces_within hconditions
  have htests := width_separated_le " AND " hesbound
  have hand : " AND ".utf8ByteSize = 5 := rfl
  have hblank : " ".utf8ByteSize = 1 := rfl
  have hselect : "SELECT ".utf8ByteSize = 7 := rfl
  have hfrom : "FROM ".utf8ByteSize = 5 := rfl
  have hwhere : "WHERE ".utf8ByteSize = 6 := rfl
  rw [hand, htested] at htests
  have hpieces : (selectColumn c table joins conditions).pieces = .ok (separated " "
      ((.code "SELECT " :: c.pieces) :: [.code ("FROM " ++ table ++ " " ++ c.source)] :: js ++
        if es.isEmpty then [] else [.code "WHERE " :: separated " AND " es])) := by
    rw [selectColumn, Select.pieces, hjs, hes, havingPieces]
    simp only [ok_bind, List.isEmpty_nil, if_true, List.append_nil, List.map_cons, List.map_nil,
      separated_single]
    rfl
  refine ⟨_, hpieces, ?_⟩
  have hparts : ∀ p ∈ (.code "SELECT " :: c.pieces) ::
      [.code ("FROM " ++ table ++ " " ++ c.source)] :: js ++
        (if es.isEmpty then [] else [.code "WHERE " :: separated " AND " es]),
      width p ≤ bound + 6 + conditions.length * (bound + 5) := by
    intro p hp
    simp only [List.cons_append, List.mem_cons, List.mem_append] at hp
    rcases hp with rfl | rfl | hp | hp
    · rw [width_cons, width_column, Piece.text, hselect]
      omega
    · simp only [width_cons, width_nil, Piece.text, String.utf8ByteSize_append, hfrom, hblank]
      omega
    · have hjoin := hjsbound p hp
      omega
    · split at hp
      · cases hp
      · obtain rfl := List.mem_singleton.1 hp
        rw [width_cons, Piece.text, hwhere]
        omega
  refine (width_separated_le _ hparts).trans ?_
  rw [hblank]
  refine Nat.mul_le_mul_right _ ?_
  simp only [List.cons_append, List.length_cons, List.length_append, hjoined]
  split <;> simp

/-- What is written of a search before its selections. -/
def cardsOpening : List Piece :=
  [.code "SELECT ", .code (aliasName 0 ++ "." ++ "card_name"), .code ", ",
    .code (aliasName 0 ++ "." ++ "expansion"), .code ", ", .code (aliasName 0 ++ "." ++ "number"),
    .code " ", .code ("FROM " ++ printingTable ++ " " ++ aliasName 0), .code " ", .code "WHERE ",
    .code (aliasName 0 ++ "." ++ "card_name"), .code (keyword false "IN" ++ "(")]

/-- A search that constrains cards alone is written in little more than its selections. -/
theorem within_cardsOnly {selections : List Select} {bound : Nat}
    (h : ∀ s ∈ selections, s.Within bound) :
    (cardsOnly (aliasName 0) selections).Within (200 + selections.length * (bound + 11)) := by
  cases selections with
  | nil =>
    refine ⟨_, rfl, Nat.le_trans ?_ (Nat.le_add_right 200 _)⟩
    decide +kernel
  | cons s ss =>
    obtain ⟨parts, hparts, hlength, hall⟩ := selectPieces_within h
    have hwritten := width_separated_le " INTERSECT " hall
    have hcode : " INTERSECT ".utf8ByteSize = 11 := rfl
    have hopening : width cardsOpening ≤ 190 := by decide +kernel
    have hclosing : width [.code ")"] = 1 := rfl
    rw [hcode, hlength] at hwritten
    rw [cardsOnly_of_ne_nil (List.cons_ne_nil s ss)]
    refine ⟨cardsOpening ++ (separated " INTERSECT " parts ++ [.code ")"]), ?_, ?_⟩
    · rw [selectPrintings, Select.pieces]
      simp only [joinPieces, allPieces, havingPieces, Expr.pieces, Query.pieces, hparts, ok_bind]
      rfl
    · rw [width_append, width_append, hclosing]
      omega

end CardArchive
