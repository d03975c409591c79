import CardArchive.Statement.Text
import Mathlib.Tactic

/-!
# How a written statement is read

The reader of statements goes through the characters once. What it reads next depends
on where it is: between tokens, in a word or a number, in a quoted text, behind an
apostrophe that may end the text or be the first of two, in a comment. A quoted text
ends at the first apostrophe that is not doubled.

A text that ends outside quoted texts and comments can be read part by part: the parts
are separated by characters that no token goes on with.

## What this module delivers

* `Token`, `Place` and `Place.step`: what is read, and one character.
* `tokens` and `outside`: the tokens of a text, and its characters outside literals.
* `Reads` and `Closed`: a part of a text that reads as some tokens by itself.
* `reads_append`, `closed_append`: two parts side by side.
* `reads_word`, `reads_number`, `reads_literal`: the parts of one token.
-/

set_option autoImplicit false

namespace CardArchive.Sql

/-! ## Tokens -/

/-- One token of a statement. -/
inductive Token where
  | word (s : String)
  | number (s : String)
  | literal (s : String)
  | name (s : String)
  | symbol (s : String)
  | comment
  | unclosed
deriving DecidableEq

/-- Characters that only separate tokens. -/
def isBlank (c : Char) : Bool := c == ' ' || c == '\t' || c == '\n' || c == '\r' || c == '\x0c'

/-- Characters that a word starts with. -/
def startsWord (c : Char) : Bool := c.isAlpha || c == '_' || 0x80 ≤ c.toNat

/-- Characters that a word goes on with. -/
def continuesWord (c : Char) : Bool := startsWord c || c.isDigit || c == '$'

/-- Characters that start and end a quoted text or name. -/
def isMark (c : Char) : Bool := c == '\'' || c == '"' || c == '\x60'

/-- Characters that a symbol of two characters or a comment can start with. -/
def startsPair (c : Char) : Bool :=
  c == '<' || c == '>' || c == '=' || c == '!' || c == '|' || c == '-' || c == '/'

/-- The symbols of two characters. -/
def pairs : List (Char × Char) :=
  [('!', '='), ('<', '='), ('>', '='), ('<', '>'), ('=', '='), ('|', '|'), ('<', '<'), ('>', '>'),
   ('-', '>')]

/-- Where the reader is; `read` is what it has read of a token so far. -/
inductive Place where
  | between
  | word (read : List Char)
  | number (read : List Char)
  | quoted (mark : Char) (read : List Char)
  | closing (mark : Char) (read : List Char)
  | symbol (first : Char)
  | lineComment
  | blockComment (star : Bool)
deriving DecidableEq

/-- The token of a quoted text: a literal between apostrophes, else a name. -/
def quotedToken (mark : Char) (read : List Char) : Token :=
  if mark = '\'' then .literal (String.ofList read) else .name (String.ofList read)

namespace Place

/-- The token that the end of the text leaves. -/
def finish : Place → List Token
  | between => []
  | word read => [.word (String.ofList read)]
  | number read => [.number (String.ofList read)]
  | quoted _ _ => [.unclosed]
  | closing mark read => [quotedToken mark read]
  | symbol c => [.symbol (String.singleton c)]
  | lineComment => [.comment]
  | blockComment _ => [.unclosed]

/-- The first character of a token, or one between tokens. -/
def first (c : Char) : List Token × Place :=
  if isBlank c then ([], between)
  else if startsWord c then ([], word [c])
  else if c.isDigit then ([], number [c])
  else if isMark c then ([], quoted c [])
  else if startsPair c then ([], symbol c)
  else ([.symbol (String.singleton c)], between)

/-- A character that ends the token before it. -/
def ending (p : Place) (c : Char) : List Token × Place := (p.finish ++ (first c).1, (first c).2)

/-- One more character. -/
def step : Place → Char → List Token × Place
  | between, c => first c
  | word read, c =>
    if continuesWord c then ([], word (read ++ [c])) else ending (word read) c
  | number read, c =>
    if continuesWord c || c == '.' then ([], number (read ++ [c])) else ending (number read) c
  | quoted mark read, c =>
    if c = mark then ([], closing mark read) else ([], quoted mark (read ++ [c]))
  -- a second mark stands for one in the text, anything else has left the text
  | closing mark read, c =>
    if c = mark then ([], quoted mark (read ++ [c])) else ending (closing mark read) c
  | symbol d, c =>
    if pairs.contains (d, c) then ([.symbol (String.ofList [d, c])], between)
    else if d = '-' ∧ c = '-' then ([], lineComment)
    else if d = '/' ∧ c = '*' then ([], blockComment false)
    else ending (symbol d) c
  | lineComment, c => if c = '\n' then ([.comment], between) else ([], lineComment)
  | blockComment star, c =>
    if star && c == '/' then ([.comment], between) else ([], blockComment (c == '*'))

@[simp]
theorem step_between (c : Char) : between.step c = first c := rfl

/-- Whether the character just read belongs to a literal. -/
def inLiteral : Place → Bool
  | quoted mark _ => mark == '\''
  | closing mark _ => mark == '\''
  | _ => false

/-- Whether every quoted text and comment has ended, but for a character that may still
come. -/
def AtRest : Place → Prop
  | between | word _ | number _ => True
  | closing mark _ => isMark mark = true
  | _ => False

end Place

/-- The tokens that some characters complete, and where they leave the reader. -/
def scan : Place → List Char → List Token × Place
  | p, [] => ([], p)
  | p, c :: cs => ((p.step c).1 ++ (scan (p.step c).2 cs).1, (scan (p.step c).2 cs).2)

/-- The tokens of a text. -/
def tokens (cs : List Char) : List Token :=
  (scan .between cs).1 ++ (scan .between cs).2.finish

/-- The characters of a text that are read outside literals, by where the reader is. -/
def outsideFrom : Place → List Char → List Char
  | _, [] => []
  | p, c :: cs =>
    if (p.step c).2.inLiteral then outsideFrom (p.step c).2 cs
    else c :: outsideFrom (p.step c).2 cs

/-- The characters of a text that stand outside its literals. -/
def outside (cs : List Char) : List Char := outsideFrom .between cs

/-! ## Parts of a text -/

theorem scan_append (p : Place) (xs ys : List Char) :
    scan p (xs ++ ys) =
      ((scan p xs).1 ++ (scan (scan p xs).2 ys).1, (scan (scan p xs).2 ys).2) := by
  induction xs generalizing p with
  | nil => rfl
  | cons x xs ih => simp only [List.cons_append, scan, ih, List.append_assoc]

theorem outsideFrom_append (p : Place) (xs ys : List Char) :
    outsideFrom p (xs ++ ys) = outsideFrom p xs ++ outsideFrom (scan p xs).2 ys := by
  induction xs generalizing p with
  | nil => rfl
  | cons x xs ih =>
    simp only [List.cons_append, outsideFrom, scan, ih]
    split
    · rfl
    · rfl

/-- A part that reads as `ts` by itself, ends outside quoted texts and comments, and has
the characters `os` outside its literals. -/
def Reads (cs : List Char) (ts : List Token) (os : List Char) : Prop :=
  ∃ us p, scan .between cs = (us, p) ∧ p.AtRest ∧ us ++ p.finish = ts ∧ outside cs = os

/-- A part that reads as `ts` by itself and ends between two tokens. -/
def Closed (cs : List Char) (ts : List Token) (os : List Char) : Prop :=
  scan .between cs = (ts, .between) ∧ outside cs = os

/-- Characters that no word, number or quoted text goes on with. -/
def IsBoundary (c : Char) : Prop := c = ' ' ∨ c = ')' ∨ c = ','

theorem tokens_of_reads {cs : List Char} {ts : List Token} {os : List Char} (h : Reads cs ts os) :
    tokens cs = ts := by
  obtain ⟨us, p, hscan, -, hts, -⟩ := h
  rw [tokens, hscan]
  exact hts

theorem outside_of_reads {cs : List Char} {ts : List Token} {os : List Char}
    (h : Reads cs ts os) : outside cs = os := by
  obtain ⟨us, p, -, -, -, hos⟩ := h
  exact hos

/-- Behind a part that is at rest, a boundary ends the token before it. -/
theorem step_boundary {p : Place} (hp : p.AtRest) {c : Char} (hc : IsBoundary c) :
    p.step c = p.ending c := by
  cases p with
  | between => rfl
  | word read =>
    have hends : continuesWord c = false := by rcases hc with rfl | rfl | rfl <;> decide
    simp [Place.step, hends]
  | number read =>
    have hends : (continuesWord c || c == '.') = false := by
      rcases hc with rfl | rfl | rfl <;> decide
    simp [Place.step, hends]
  | closing mark read =>
    -- no boundary is a mark, so none of them doubles the one before
    have hends : c ≠ mark := by
      rintro rfl
      have hmark : isMark c = true := hp
      rcases hc with rfl | rfl | rfl <;> exact absurd hmark (by decide)
    simp [Place.step, hends]
  | quoted mark read => exact hp.elim
  | symbol d => exact hp.elim
  | lineComment => exact hp.elim
  | blockComment star => exact hp.elim

/-- A character that ends the token before it is read as at the start of a text. -/
theorem scan_ending {p : Place} {c : Char} (h : p.step c = p.ending c) (cs : List Char) :
    scan p (c :: cs) = (p.finish ++ (scan .between (c :: cs)).1, (scan .between (c :: cs)).2) := by
  simp only [scan, h, Place.ending, Place.step_between, List.append_assoc]

theorem outsideFrom_ending {p : Place} {c : Char} (h : p.step c = p.ending c) (cs : List Char) :
    outsideFrom p (c :: cs) = outside (c :: cs) := by
  rw [outside, outsideFrom, outsideFrom, h]
  rfl

/-- Two parts side by side, where the second starts with a boundary. -/
theorem reads_append {xs ys : List Char} {c : Char} {ts us : List Token} {os qs : List Char}
    (hx : Reads xs ts os) (hc : IsBoundary c) (hy : Reads (c :: ys) us qs) :
    Reads (xs ++ c :: ys) (ts ++ us) (os ++ qs) := by
  obtain ⟨ts', p, hscan, hrest, rfl, rfl⟩ := hx
  obtain ⟨us', q, hscan', hrest', rfl, rfl⟩ := hy
  refine ⟨ts' ++ (p.finish ++ us'), q, ?_, hrest', ?_, ?_⟩
  · rw [scan_append, hscan, scan_ending (step_boundary hrest hc), hscan']
  · simp only [List.append_assoc]
  · rw [outside, outsideFrom_append, hscan, outsideFrom_ending (step_boundary hrest hc)]
    rfl

/-- Two parts side by side, where the first ends between two tokens. -/
theorem closed_append {xs ys : List Char} {ts us : List Token} {os qs : List Char}
    (hx : Closed xs ts os) (hy : Reads ys us qs) : Reads (xs ++ ys) (ts ++ us) (os ++ qs) := by
  obtain ⟨hscan, rfl⟩ := hx
  obtain ⟨us', q, hscan', hrest', rfl, rfl⟩ := hy
  refine ⟨ts ++ us', q, ?_, hrest', ?_, ?_⟩
  · rw [scan_append, hscan, hscan']
  · rw [List.append_assoc]
  · rw [outside, outsideFrom_append, hscan]
    rfl

/-! ## Parts of one token -/

/-- A name that is read as one word. -/
def IsWord (w : String) : Prop :=
  ∃ c cs, w.toList = c :: cs ∧ startsWord c = true ∧ ∀ d ∈ cs, continuesWord d = true

/-- A number that is read as one token: some decimal digits. -/
def IsNumber (w : String) : Prop :=
  w.toList ≠ [] ∧ ∀ d ∈ w.toList, d.isDigit = true

/-- A character with a property that no blank has is no blank. -/
theorem isBlank_eq_false {p : Char → Bool} {c : Char} (h : p c = true)
    (hblank : [' ', '\t', '\n', '\r', '\x0c'].any p = false) : isBlank c = false := by
  by_contra hb
  have hmem : c ∈ [' ', '\t', '\n', '\r', '\x0c'] := by
    simp only [Bool.not_eq_false, isBlank, Bool.or_eq_true, beq_iff_eq, or_assoc] at hb
    simpa using hb
  exact List.any_eq_false.1 hblank c hmem h

theorem first_of_startsWord {c : Char} (h : startsWord c = true) :
    Place.first c = ([], .word [c]) := by
  have hblank : isBlank c = false := isBlank_eq_false h rfl
  simp [Place.first, hblank, h]

/-- Digits come before the letters, and a word starts with none of them. -/
theorem startsWord_of_isDigit {c : Char} (h : c.isDigit = true) : startsWord c = false := by
  simp only [Char.isDigit, Bool.and_eq_true, decide_eq_true_eq, ge_iff_le,
    UInt32.le_iff_toNat_le] at h
  obtain ⟨hlow, hhigh⟩ := h
  have hnot : c ≠ '_' := by
    rintro rfl
    exact absurd hhigh (by decide)
  have hupper : c.isUpper = false := by
    apply decide_eq_false
    rintro ⟨hletter, -⟩
    exact absurd ((UInt32.le_iff_toNat_le.1 hletter).trans hhigh) (by decide)
  have hlower : c.isLower = false := by
    have hbefore : decide ('a'.val ≤ c.val) = false := by
      apply decide_eq_false
      intro hletter
      exact absurd ((UInt32.le_iff_toNat_le.1 hletter).trans hhigh) (by decide)
    change (decide ('a'.val ≤ c.val) && _) = false
    rw [hbefore, Bool.false_and]
  have hascii : decide (0x80 ≤ c.toNat) = false := by
    apply decide_eq_false
    intro hbeyond
    exact absurd (hbeyond.trans hhigh) (by decide)
  change (c.isUpper || c.isLower || c == '_' || decide (0x80 ≤ c.toNat)) = false
  rw [hupper, hlower, beq_false_of_ne hnot, hascii]
  rfl

theorem first_of_isDigit {c : Char} (h : c.isDigit = true) :
    Place.first c = ([], .number [c]) := by
  have hblank : isBlank c = false := isBlank_eq_false (p := Char.isDigit) h rfl
  simp [Place.first, hblank, startsWord_of_isDigit h, h]

theorem step_word (read : List Char) {c : Char} (h : continuesWord c = true) :
    (Place.word read).step c = ([], .word (read ++ [c])) := by
  simp [Place.step, h]

theorem step_number (read : List Char) {c : Char} (h : c.isDigit = true) :
    (Place.number read).step c = ([], .number (read ++ [c])) := by
  simp [Place.step, continuesWord, h]

/-- A token that goes on with each of some characters is read to the end of them. -/
theorem scan_run {place : List Char → Place} {cs : List Char}
    (h : ∀ read, ∀ d ∈ cs, (place read).step d = ([], place (read ++ [d]))) (read : List Char) :
    scan (place read) cs = ([], place (read ++ cs)) := by
  induction cs generalizing read with
  | nil => simp [scan]
  | cons c cs ih =>
    have hrest := ih (fun read d hd => h read d (List.mem_cons_of_mem c hd)) (read ++ [c])
    rw [scan, h read c List.mem_cons_self, hrest]
    simp

theorem outsideFrom_run {place : List Char → Place} {cs : List Char}
    (h : ∀ read, ∀ d ∈ cs, (place read).step d = ([], place (read ++ [d])))
    (hplace : ∀ read, (place read).inLiteral = false) (read : List Char) :
    outsideFrom (place read) cs = cs := by
  induction cs generalizing read with
  | nil => rfl
  | cons c cs ih =>
    have hrest := ih (fun read d hd => h read d (List.mem_cons_of_mem c hd)) (read ++ [c])
    rw [outsideFrom, h read c List.mem_cons_self, hplace, hrest]
    rfl

/-- A word by itself is left in the reader as it is. -/
theorem scan_isWord {w : String} (h : IsWord w) :
    scan .between w.toList = ([], .word w.toList) ∧ outside w.toList = w.toList := by
  obtain ⟨c, cs, hw, hc, hcs⟩ := h
  have hstart : Place.between.step c = ([], .word [c]) := first_of_startsWord hc
  have hsteps : ∀ read, ∀ d ∈ cs, (Place.word read).step d = ([], .word (read ++ [d])) :=
    fun read d hd => step_word read (hcs d hd)
  rw [hw]
  constructor
  · rw [scan, hstart, scan_run hsteps]
    rfl
  · rw [outside, outsideFrom, hstart, outsideFrom_run hsteps fun _ => rfl]
    rfl

/-- A number by itself is left in the reader as it is. -/
theorem scan_isNumber {w : String} (h : IsNumber w) :
    scan .between w.toList = ([], .number w.toList) ∧ outside w.toList = w.toList := by
  obtain ⟨hne, hdigits⟩ := h
  obtain ⟨c, cs, hw⟩ := List.exists_cons_of_ne_nil hne
  rw [hw] at hdigits
  have hstart : Place.between.step c = ([], .number [c]) :=
    first_of_isDigit (hdigits c List.mem_cons_self)
  have hsteps : ∀ read, ∀ d ∈ cs, (Place.number read).step d = ([], .number (read ++ [d])) :=
    fun read d hd => step_number read (hdigits d (List.mem_cons_of_mem c hd))
  rw [hw]
  constructor
  · rw [scan, hstart, scan_run hsteps]
    rfl
  · rw [outside, outsideFrom, hstart, outsideFrom_run hsteps fun _ => rfl]
    rfl

theorem finish_word (w : String) : [] ++ (Place.word w.toList).finish = [.word w] := by
  rw [Place.finish, String.ofList_toList]
  rfl

theorem finish_number (w : String) : [] ++ (Place.number w.toList).finish = [.number w] := by
  rw [Place.finish, String.ofList_toList]
  rfl

theorem reads_word {w : String} (h : IsWord w) : Reads w.toList [.word w] w.toList := by
  obtain ⟨hscan, hout⟩ := scan_isWord h
  exact ⟨[], .word w.toList, hscan, trivial, finish_word w, hout⟩

theorem reads_number {w : String} (h : IsNumber w) : Reads w.toList [.number w] w.toList := by
  obtain ⟨hscan, hout⟩ := scan_isNumber h
  exact ⟨[], .number w.toList, hscan, trivial, finish_number w, hout⟩

/-- A digit behind a minus sign ends it: the two are no pair, and start no comment. -/
theorem step_minus {c : Char} (h : c.isDigit = true) :
    (Place.symbol '-').step c = (Place.symbol '-').ending c := by
  have hpair : pairs.contains ('-', c) = false := by
    by_contra hp
    simp only [pairs, Bool.not_eq_false, List.contains_eq_mem, List.mem_cons, Prod.mk.injEq,
      List.not_mem_nil, or_false, decide_eq_true_eq] at hp
    obtain rfl : c = '>' := by simpa using hp
    exact absurd h (by decide)
  have hdash : c ≠ '-' := by
    rintro rfl
    exact absurd h (by decide)
  simp only [Place.step, hpair, hdash]
  rfl

/-- A minus sign with a number behind it, which is no comment. -/
theorem reads_minus {w : String} (h : IsNumber w) :
    Reads ('-' :: w.toList) [.symbol "-", .number w] ('-' :: w.toList) := by
  obtain ⟨hscan, hout⟩ := scan_isNumber h
  obtain ⟨hne, hdigits⟩ := h
  obtain ⟨c, cs, hw⟩ := List.exists_cons_of_ne_nil hne
  have hc : c.isDigit = true := hdigits c (by rw [hw]; exact List.mem_cons_self)
  have hminus : Place.between.step '-' = ([], .symbol '-') := by decide
  -- behind the sign the number is read as it is by itself
  have hrest := scan_ending (step_minus hc) cs
  have hrestout := outsideFrom_ending (step_minus hc) cs
  rw [← hw, hscan] at hrest
  rw [← hw, hout] at hrestout
  refine ⟨[.symbol "-"], .number w.toList, ?_, trivial, ?_, ?_⟩
  · rw [scan, hminus, hrest]
    rfl
  · rw [← finish_number w]
    rfl
  · rw [outside, outsideFrom, hminus, hrestout]
    rfl

/-- Two words with a dot between them. -/
theorem reads_dotted {w v : String} (hw : IsWord w) (hv : IsWord v) :
    Reads (w.toList ++ '.' :: v.toList) [.word w, .symbol ".", .word v]
      (w.toList ++ '.' :: v.toList) := by
  obtain ⟨hscan, hout⟩ := scan_isWord hw
  have hdot : Closed ['.'] [.symbol "."] ['.'] := ⟨by decide, by decide⟩
  obtain ⟨us, p, hscan', hrest, hus, hout'⟩ := closed_append hdot (reads_word hv)
  have hends : (Place.word w.toList).step '.' = (Place.word w.toList).ending '.' := by
    have hno : continuesWord '.' = false := by decide
    simp [Place.step, hno]
  rw [List.singleton_append] at hscan' hout'
  refine ⟨(Place.word w.toList).finish ++ us, p, ?_, hrest, ?_, ?_⟩
  · rw [scan_append, hscan, scan_ending hends, hscan']
    rfl
  · rw [List.append_assoc, hus, ← List.nil_append (Place.word w.toList).finish, finish_word]
    rfl
  · rw [outside, outsideFrom_append, hscan, outsideFrom_ending hends, hout']
    rw [outside] at hout
    rw [hout]

/-! ## Literals -/

/-- Inside a literal, a text with every apostrophe doubled is read back as it was: each
pair of apostrophes is left at once, and nothing else looks like an end. -/
theorem scan_doubled (read cs : List Char) :
    scan (.quoted '\'' read) (doubled cs) = ([], .quoted '\'' (read ++ cs)) := by
  induction cs generalizing read with
  | nil => simp [doubled, scan]
  | cons c cs ih =>
    by_cases hc : c = '\''
    · subst hc
      have hopen : (Place.quoted '\'' read).step '\'' = ([], .closing '\'' read) := rfl
      have hback : (Place.closing '\'' read).step '\'' = ([], .quoted '\'' (read ++ ['\''])) := rfl
      rw [doubled, if_pos rfl, scan, hopen, scan, hback, ih]
      simp
    · have hstep : (Place.quoted '\'' read).step c = ([], .quoted '\'' (read ++ [c])) := by
        simp [Place.step, hc]
      rw [doubled, if_neg hc, scan, hstep, ih]
      simp

theorem outsideFrom_doubled (read cs : List Char) :
    outsideFrom (.quoted '\'' read) (doubled cs) = [] := by
  induction cs generalizing read with
  | nil => rfl
  | cons c cs ih =>
    by_cases hc : c = '\''
    · subst hc
      have hopen : (Place.quoted '\'' read).step '\'' = ([], .closing '\'' read) := rfl
      have hback : (Place.closing '\'' read).step '\'' = ([], .quoted '\'' (read ++ ['\''])) := rfl
      rw [doubled, if_pos rfl, outsideFrom, hopen, outsideFrom, hback, ih]
      rfl
    · have hstep : (Place.quoted '\'' read).step c = ([], .quoted '\'' (read ++ [c])) := by
        simp [Place.step, hc]
      rw [doubled, if_neg hc, outsideFrom, hstep, ih]
      rfl

/-- A quoted text is read as one literal, and as the text that was quoted. None of its
characters is outside. -/
theorem reads_literal (s : String) :
    Reads ('\'' :: doubled s.toList ++ ['\'']) [.literal s] [] := by
  have hopen : Place.between.step '\'' = ([], .quoted '\'' []) := by decide
  refine ⟨[], .closing '\'' s.toList, ?_, rfl, ?_, ?_⟩
  · rw [List.cons_append, scan, hopen, scan_append, scan_doubled]
    rfl
  · rw [Place.finish, quotedToken, if_pos rfl, String.ofList_toList]
    rfl
  · rw [outside, List.cons_append, outsideFrom, hopen]
    change outsideFrom (.quoted '\'' []) (doubled s.toList ++ ['\'']) = []
    rw [outsideFrom_append, outsideFrom_doubled, scan_doubled]
    rfl

end CardArchive.Sql
