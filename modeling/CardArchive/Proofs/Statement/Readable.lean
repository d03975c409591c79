import CardArchive.Proofs.Statement.Lexer
import CardArchive.Proofs.Statement.Scope

/-!
# Readable clauses

A statement is written in pieces. Some pieces are readable if their text is read, by
itself, as literals with given texts and otherwise as tokens that the library writes
itself, with given tables behind `FROM` and `JOIN`. Two readable clauses side by side
are readable if the second starts with a character that no token of the first goes on
with.

## What this module delivers

* `IsOwn`, `literals`, `introductions`: what is asked of the tokens of a text.
* `Readable` with `Readable.append`, `Readable.code` and `Readable.separated`.
* `readable_column`, `readable_quoted`, `readable_integer`, `readable_source`: the
  clauses of one name or value.
-/

set_option autoImplicit false

namespace CardArchive

open Sql

/-! ## Tokens of the library -/

/-- The words of statements other than `FROM` and `JOIN`. -/
def keywords : List String :=
  ["SELECT", "LEFT", "ON", "WHERE", "AND", "OR", "NOT", "LIKE", "IN", "GROUP", "BY", "HAVING",
   "COUNT", "DISTINCT", "COALESCE", "INTERSECT"]

/-- The words that a table with its alias follows. -/
def sourceKeywords : List String := ["FROM", "JOIN"]

/-- The marks between the words of statements. -/
def punctuation : List String := [".", ",", "(", ")", "-"]

/-- The tokens that the library writes itself. -/
inductive IsOwn : Token → Prop
  | keyword {w : String} (h : w ∈ keywords ∨ w ∈ sourceKeywords) : IsOwn (.word w)
  | table {w : String} (h : w ∈ tableNames) : IsOwn (.word w)
  | column {w : String} (h : w ∈ columnNames) : IsOwn (.word w)
  | source (n : Nat) : IsOwn (.word (aliasName n))
  | operator {s : String} (h : IsOperator s) : IsOwn (.symbol s)
  | punctuation {s : String} (h : s ∈ punctuation) : IsOwn (.symbol s)
  | integer (n : Nat) : IsOwn (.number (toString n))

/-- The texts of the literals among some tokens. -/
def literals (ts : List Token) : List String :=
  ts.filterMap fun
    | .literal s => some s
    | _ => none

/-- The tables with their aliases behind each `FROM` and `JOIN`. -/
def introductions : List Token → Sources
  | [] => []
  | .word k :: rest =>
    (if k ∈ sourceKeywords then
      match rest with
      | .word table :: .word source :: _ => [(source, table)]
      | _ => []
    else []) ++ introductions rest
  | _ :: rest => introductions rest

/-! ## Readable pieces -/

/-- The characters of some pieces. -/
def charsOf (ps : List Piece) : List Char := ps.flatMap fun p => p.text.toList

/-- The characters of the code among some pieces. -/
def codeOf (ps : List Piece) : List Char :=
  ps.flatMap fun
    | .code s => s.toList
    | .quoted _ => []

theorem charsOf_code (s : String) : charsOf [.code s] = s.toList := List.append_nil _

theorem codeOf_code (s : String) : codeOf [.code s] = s.toList := List.append_nil _

theorem toList_join (ps : List Piece) : (Piece.join ps).toList = charsOf ps := by
  induction ps with
  | nil => rfl
  | cons p ps ih =>
    have hcons : Piece.join (p :: ps) = p.text ++ Piece.join ps := by
      simp [Piece.join]
    rw [hcons, String.toList_append, ih]
    rfl

/-- What the text of some pieces is read as: some tokens with the given literals and the
given tables, all others of the library's own. -/
structure Reading (ps : List Piece) (ss : List String) (sources : Sources) (ts : List Token) :
    Prop where
  reads : Reads (charsOf ps) ts (codeOf ps)
  own : ∀ t ∈ ts, IsOwn t ∨ ∃ s, t = .literal s
  literals : literals ts = ss
  introduces : ∀ rest, introductions (ts ++ rest) = sources ++ introductions rest

/-- Pieces whose text is read with the given literals and the given tables. -/
def Readable (ps : List Piece) (ss : List String) (sources : Sources) : Prop :=
  ∃ ts, Reading ps ss sources ts

/-- Pieces that start with a character which no token before them goes on with. -/
def StartsApart (ps : List Piece) : Prop :=
  ∃ c cs, charsOf ps = c :: cs ∧ IsBoundary c

/-- Marks, operators, and words other than `FROM` and `JOIN`. -/
def IsPlain : Token → Prop
  | .word w => w ∈ keywords
  | .symbol s => s ∈ Operator.all.map Operator.text ∨ s ∈ punctuation
  | _ => False

instance : DecidablePred IsPlain
  | .word w => inferInstanceAs (Decidable (w ∈ keywords))
  | .symbol s => inferInstanceAs (Decidable (s ∈ Operator.all.map Operator.text ∨ s ∈ punctuation))
  | .number _ | .literal _ | .name _ | .comment | .unclosed => inferInstanceAs (Decidable False)

/-- Code that is complete: it ends between two tokens, and all of them are plain. -/
def IsComplete (code : String) : Prop :=
  (scan .between code.toList = (tokens code.toList, .between) ∧
    outside code.toList = code.toList) ∧ ∀ t ∈ tokens code.toList, IsPlain t

instance (code : String) : Decidable (IsComplete code) :=
  inferInstanceAs (Decidable ((scan .between code.toList = (tokens code.toList, .between) ∧
    outside code.toList = code.toList) ∧ ∀ t ∈ tokens code.toList, IsPlain t))

theorem isOwn_of_isPlain {t : Token} (h : IsPlain t) : IsOwn t := by
  cases t with
  | word w => exact .keyword (.inl h)
  | symbol s =>
    rcases h with h | h
    · exact .operator h
    · exact .punctuation h
  | number s => exact h.elim
  | literal s => exact h.elim
  | name s => exact h.elim
  | comment => exact h.elim
  | unclosed => exact h.elim

theorem literals_append (ts us : List Token) :
    literals (ts ++ us) = literals ts ++ literals us := by
  simp [literals]

theorem not_mem_sourceKeywords {w : String} (h : w ∈ keywords) : w ∉ sourceKeywords := by
  intro hs
  revert h
  simp only [sourceKeywords, List.mem_cons, List.not_mem_nil, or_false] at hs
  rcases hs with rfl | rfl <;> decide

theorem introductions_word {k : String} (h : k ∉ sourceKeywords) (rest : List Token) :
    introductions (.word k :: rest) = introductions rest := by
  simp [introductions, h]

theorem introductions_source {k : String} (h : k ∈ sourceKeywords) (table source : String)
    (rest : List Token) :
    introductions (.word k :: .word table :: .word source :: rest) =
      (source, table) :: introductions (.word table :: .word source :: rest) := by
  simp [introductions, h]

/-- Plain tokens introduce nothing. -/
theorem introductions_plain {ts : List Token} (h : ∀ t ∈ ts, IsPlain t) (rest : List Token) :
    introductions (ts ++ rest) = introductions rest := by
  induction ts with
  | nil => rfl
  | cons t ts ih =>
    have htail := ih fun u hu => h u (List.mem_cons_of_mem t hu)
    have ht := h t List.mem_cons_self
    rw [List.cons_append]
    cases t with
    | word w => rw [introductions_word (not_mem_sourceKeywords ht), htail]
    | symbol s => exact htail
    | number s => exact ht.elim
    | literal s => exact ht.elim
    | name s => exact ht.elim
    | comment => exact ht.elim
    | unclosed => exact ht.elim

/-- No token of the library's own is a literal. -/
theorem literals_own {ts : List Token} (h : ∀ t ∈ ts, IsOwn t) : literals ts = [] := by
  rw [literals, List.filterMap_eq_nil_iff]
  intro t ht
  cases h t ht with
  | keyword h => rfl
  | table h => rfl
  | column h => rfl
  | source n => rfl
  | operator h => rfl
  | punctuation h => rfl
  | integer n => rfl

theorem literals_plain {ts : List Token} (h : ∀ t ∈ ts, IsPlain t) : literals ts = [] :=
  literals_own fun t ht => isOwn_of_isPlain (h t ht)

theorem Readable.nil : Readable [] [] [] := by
  refine ⟨[], ⟨[], .between, rfl, trivial, rfl, rfl⟩, ?_, rfl, fun rest => rfl⟩
  intro t ht
  cases ht

/-- Two clauses side by side. -/
theorem Readable.append {ps qs : List Piece} {ss ss' : List String} {sources sources' : Sources}
    (hp : Readable ps ss sources) (hq : Readable qs ss' sources') (happ : StartsApart qs) :
    Readable (ps ++ qs) (ss ++ ss') (sources ++ sources') := by
  obtain ⟨ts, hts⟩ := hp
  obtain ⟨us, hus⟩ := hq
  obtain ⟨c, cs, hchars, hc⟩ := happ
  refine ⟨ts ++ us, ?_, ?_, ?_, ?_⟩
  · have hreads := hus.reads
    rw [hchars] at hreads
    have happend := reads_append hts.reads hc hreads
    rw [← hchars] at happend
    simpa only [charsOf, codeOf, List.flatMap_append] using happend
  · intro t ht
    rcases List.mem_append.1 ht with ht | ht
    · exact hts.own t ht
    · exact hus.own t ht
  · rw [literals_append, hts.literals, hus.literals]
  · intro rest
    rw [List.append_assoc, hts.introduces, hus.introduces, List.append_assoc]

/-- Complete code before a clause. -/
theorem Readable.code {code : String} {qs : List Piece} {ss : List String} {sources : Sources}
    (hcode : IsComplete code) (hq : Readable qs ss sources) :
    Readable (.code code :: qs) ss sources := by
  obtain ⟨hclosed, hplain⟩ := hcode
  obtain ⟨us, hus⟩ := hq
  refine ⟨tokens code.toList ++ us, ?_, ?_, ?_, ?_⟩
  · exact closed_append hclosed hus.reads
  · intro t ht
    rcases List.mem_append.1 ht with ht | ht
    · exact .inl (isOwn_of_isPlain (hplain t ht))
    · exact hus.own t ht
  · rw [literals_append, literals_plain hplain, hus.literals]
    rfl
  · intro rest
    rw [List.append_assoc, introductions_plain hplain, hus.introduces]

/-- Several clauses, each readable by itself. -/
inductive AllReadable : List (List Piece) → List String → Sources → Prop
  | nil : AllReadable [] [] []
  | cons {p : List Piece} {ps : List (List Piece)} {ss ss' : List String}
      {sources sources' : Sources} (hp : Readable p ss sources)
      (hps : AllReadable ps ss' sources') : AllReadable (p :: ps) (ss ++ ss') (sources ++ sources')

theorem AllReadable.append {ps qs : List (List Piece)} {ss ss' : List String}
    {sources sources' : Sources} (hp : AllReadable ps ss sources)
    (hq : AllReadable qs ss' sources') :
    AllReadable (ps ++ qs) (ss ++ ss') (sources ++ sources') := by
  induction hp with
  | nil => exact hq
  | cons hp _ ih =>
    rw [List.append_assoc, List.append_assoc]
    exact .cons hp ih

theorem startsApart_code {code : String} {qs : List Piece}
    (h : ∃ c cs, code.toList = c :: cs ∧ IsBoundary c) : StartsApart (.code code :: qs) := by
  obtain ⟨c, cs, hcode, hc⟩ := h
  refine ⟨c, cs ++ charsOf qs, ?_, hc⟩
  have happend : charsOf (.code code :: qs) = code.toList ++ charsOf qs := rfl
  rw [happend, hcode]
  rfl

/-- Clauses with the same complete code between any two. -/
theorem Readable.separated {code : String} (hcode : IsComplete code)
    (happ : ∃ c cs, code.toList = c :: cs ∧ IsBoundary c) {ps : List (List Piece)}
    {ss : List String} {sources : Sources} (h : AllReadable ps ss sources) :
    Readable (separated code ps) ss sources := by
  induction h with
  | nil => exact .nil
  | @cons p ps ss ss' sources sources' hp hps ih =>
    cases ps with
    | nil =>
      cases hps
      rw [List.append_nil, List.append_nil]
      exact hp
    | cons q qs => exact .append hp (.code hcode ih) (startsApart_code happ)

/-! ## Clauses of one token or name -/

/-- Names that can be seen to be words. -/
theorem isWord_of_all {w : String} (h : w.toList.all continuesWord = true)
    (hfirst : w.toList.head?.any startsWord = true) : IsWord w := by
  cases hw : w.toList with
  | nil =>
    rw [hw] at hfirst
    cases hfirst
  | cons c cs =>
    rw [hw] at h hfirst
    exact ⟨c, cs, hw, hfirst, fun d hd => List.all_eq_true.1 h d (List.mem_cons_of_mem c hd)⟩

theorem isWord_tableNames {w : String} (h : w ∈ tableNames) : IsWord w := by
  have hall : ∀ w ∈ tableNames, w.toList.all continuesWord = true ∧
      w.toList.head?.any startsWord = true := by decide
  exact isWord_of_all (hall w h).1 (hall w h).2

theorem isWord_columnNames {w : String} (h : w ∈ columnNames) : IsWord w := by
  have hall : ∀ w ∈ columnNames, w.toList.all continuesWord = true ∧
      w.toList.head?.any startsWord = true := by decide
  exact isWord_of_all (hall w h).1 (hall w h).2

theorem isNumber_toString (n : Nat) : IsNumber (toString n) := by
  have hchars : (toString n).toList = Nat.toDigits 10 n := Nat.toList_repr
  refine ⟨?_, ?_⟩
  · rw [hchars]
    exact Nat.toDigits_ne_nil
  · intro d hd
    rw [hchars] at hd
    exact Nat.isDigit_of_mem_toDigits (by decide) (by decide) hd

theorem isWord_aliasName (n : Nat) : IsWord (aliasName n) := by
  obtain ⟨-, hdigits⟩ := isNumber_toString n
  refine ⟨'t', (Nat.repr n).toList, ?_, by decide, ?_⟩
  · rw [aliasName, String.toList_append]
    rfl
  · intro d hd
    simp [continuesWord, hdigits d hd]

theorem aliasName_not_mem (n : Nat) : aliasName n ∉ sourceKeywords := by
  intro h
  simp only [sourceKeywords, List.mem_cons, List.not_mem_nil, or_false] at h
  have hfirst : (aliasName n).toList.head? = some 't' := by
    rw [aliasName, String.toList_append]
    rfl
  rcases h with h | h
  · rw [h] at hfirst
    exact absurd hfirst (by decide)
  · rw [h] at hfirst
    exact absurd hfirst (by decide)

theorem tableNames_not_mem {w : String} (h : w ∈ tableNames) : w ∉ sourceKeywords := by
  revert w
  decide

theorem columnNames_not_mem {w : String} (h : w ∈ columnNames) : w ∉ sourceKeywords := by
  revert w
  decide

/-- A piece of code that is read as tokens of the library's own. -/
theorem readable_of_reads {code : String} (ts : List Token) {sources : Sources}
    (h : Reads code.toList ts code.toList) (hown : ∀ t ∈ ts, IsOwn t)
    (hintroduces : ∀ rest, introductions (ts ++ rest) = sources ++ introductions rest) :
    Readable [.code code] [] sources := by
  refine ⟨ts, ?_, fun t ht => .inl (hown t ht), literals_own hown, hintroduces⟩
  rw [charsOf_code, codeOf_code]
  exact h

/-- A column under a numbered alias. -/
theorem readable_column {n : Nat} {name : String} (h : name ∈ columnNames) :
    Readable [.code (aliasName n ++ "." ++ name)] [] [] := by
  apply readable_of_reads [.word (aliasName n), .symbol ".", .word name]
  · have hchars : (aliasName n ++ "." ++ name).toList =
        (aliasName n).toList ++ '.' :: name.toList := by
      simp
    rw [hchars]
    exact reads_dotted (isWord_aliasName n) (isWord_columnNames h)
  · intro t ht
    simp only [List.mem_cons, List.not_mem_nil, or_false] at ht
    rcases ht with rfl | rfl | rfl
    · exact .source n
    · exact .punctuation (by decide)
    · exact .column h
  · -- neither the alias nor the column is a word that a table follows
    intro rest
    have hskip : introductions (.symbol "." :: .word name :: rest) =
        introductions (.word name :: rest) := rfl
    rw [List.cons_append, introductions_word (aliasName_not_mem n), List.cons_append,
      List.cons_append, List.nil_append, hskip, introductions_word (columnNames_not_mem h)]
    rfl

/-- A quoted text is one literal. -/
theorem readable_quoted (s : String) : Readable [.quoted s] [s] [] := by
  refine ⟨[.literal s], ?_, ?_, rfl, fun rest => rfl⟩
  · have hchars : charsOf [.quoted s] = '\'' :: doubled s.toList ++ ['\''] := by
      simp [charsOf, Piece.text]
    rw [hchars]
    exact reads_literal s
  · intro t ht
    rw [List.mem_singleton.1 ht]
    exact .inr ⟨s, rfl⟩

/-- An integer is a number, with a minus sign before it if it is negative. -/
theorem readable_integer (n : Int) : Readable [.code (toString n)] [] [] := by
  cases n with
  | ofNat m =>
    refine readable_of_reads _ (reads_number (isNumber_toString m)) ?_ fun rest => rfl
    intro t ht
    rw [List.mem_singleton.1 ht]
    exact .integer m
  | negSucc m =>
    have hchars : (toString (Int.negSucc m)).toList = '-' :: (toString (m + 1)).toList := by
      have happend : toString (Int.negSucc m) = "-" ++ toString (m + 1) := rfl
      rw [happend, String.toList_append]
      rfl
    have hreads := reads_minus (isNumber_toString (m + 1))
    rw [← hchars] at hreads
    refine readable_of_reads _ hreads ?_ fun rest => rfl
    intro t ht
    simp only [List.mem_cons, List.not_mem_nil, or_false] at ht
    rcases ht with rfl | rfl
    · exact .punctuation (by decide)
    · exact .integer (m + 1)

/-- The codes before a table with its alias. -/
def sourceCodes : List String := ["FROM ", "JOIN ", "LEFT JOIN "]

theorem closed_sourceCode {k : String} (h : k ∈ sourceCodes) :
    ∃ ts w, Closed k.toList (ts ++ [.word w]) k.toList ∧ (∀ t ∈ ts, IsPlain t) ∧
      w ∈ sourceKeywords := by
  simp only [sourceCodes, List.mem_cons, List.not_mem_nil, or_false] at h
  rcases h with rfl | rfl | rfl
  · exact ⟨[], "FROM", ⟨by decide, by decide⟩, by decide, by decide⟩
  · exact ⟨[], "JOIN", ⟨by decide, by decide⟩, by decide, by decide⟩
  · exact ⟨[.word "LEFT"], "JOIN", ⟨by decide, by decide⟩, by decide, by decide⟩

/-- Two words with a blank between them. -/
theorem reads_source {w v : String} (hw : IsWord w) (hv : IsWord v) :
    Reads (w.toList ++ ' ' :: v.toList) [.word w, .word v] (w.toList ++ ' ' :: v.toList) := by
  have hblank : Closed [' '] [] [' '] := ⟨by decide, by decide⟩
  exact reads_append (reads_word hw) (.inl rfl) (closed_append hblank (reads_word hv))

/-- A table with its alias is introduced behind each of these codes. -/
theorem readable_source {k table source : String} (hk : k ∈ sourceCodes)
    (hsource : IsSource (source, table)) :
    Readable [.code (k ++ table ++ " " ++ source)] [] [(source, table)] := by
  obtain ⟨ts, w, hclosed, hplain, hw⟩ := closed_sourceCode hk
  obtain ⟨⟨n, hn⟩, htable⟩ := hsource
  obtain rfl : source = aliasName n := hn
  apply readable_of_reads (ts ++ [.word w] ++ [.word table, .word (aliasName n)])
  · have hchars : (k ++ table ++ " " ++ aliasName n).toList =
        k.toList ++ (table.toList ++ ' ' :: (aliasName n).toList) := by
      simp
    rw [hchars]
    exact closed_append hclosed (reads_source (isWord_tableNames htable) (isWord_aliasName n))
  · intro t ht
    simp only [List.append_assoc, List.mem_append, List.mem_cons, List.not_mem_nil,
      or_false] at ht
    rcases ht with ht | rfl | rfl | rfl
    · exact isOwn_of_isPlain (hplain t ht)
    · exact .keyword (.inr hw)
    · exact .table htable
    · exact .source n
  · -- the word introduces the two behind it, which introduce nothing themselves
    intro rest
    simp only [List.append_assoc, List.cons_append, List.nil_append]
    rw [introductions_plain hplain, introductions_source hw,
      introductions_word (tableNames_not_mem htable), introductions_word (aliasName_not_mem n)]

/-- Two pieces of code are as good as one. -/
theorem Readable.fuse {a b : String} {qs : List Piece} {ss : List String} {sources : Sources}
    (h : Readable (.code a :: .code b :: qs) ss sources) :
    Readable (.code (a ++ b) :: qs) ss sources := by
  obtain ⟨ts, hts⟩ := h
  have hchars : charsOf (.code (a ++ b) :: qs) = charsOf (.code a :: .code b :: qs) := by
    simp [charsOf, Piece.text]
  have hcode : codeOf (.code (a ++ b) :: qs) = codeOf (.code a :: .code b :: qs) := by
    simp [codeOf]
  refine ⟨ts, ?_, hts.own, hts.literals, hts.introduces⟩
  rw [hchars, hcode]
  exact hts.reads

end CardArchive
