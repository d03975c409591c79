import CardArchive.Json.Reader
import CardArchive.Json.Writer
import CardArchive.Proofs.Text.Numerals

/-!
# Numbers are read back

A number is written as a numeral: digits, after a sign if it is negative, a fraction if it
is no integer, and an exponent if it is very large or very small. A reader that comes upon
a numeral takes exactly the numeral, whatever follows it in a list or an object. An
integer is read back as itself, and a floating point number as one that only its text
determines.

## What this module delivers

* `Numeral`: the parts of a number, with its text and its value.
* `Closes`: what can follow a value.
* `readNumber?_text`: a numeral is read as its value.
* `readScalar_int`, `readScalar_float`: what is read of a written number.
-/

set_option autoImplicit false

namespace CardArchive.Json

open CardArchive.Number

/-! ## Numerals -/

/-- The parts of a number: its sign, the digits before and after the point, and an exponent
with its sign. There is no point if there are no digits after it. -/
structure Numeral where
  negative : Bool
  whole : List Char
  fraction : List Char
  exponent : Option (Bool × List Char)

namespace Numeral

/-- The digits after the point, with the point. -/
def fractionText (n : Numeral) : List Char := if n.fraction.isEmpty then [] else '.' :: n.fraction

/-- The exponent, if there is one. -/
def exponentText (n : Numeral) : List Char :=
  match n.exponent with
  | none => []
  | some (negative, digits) => 'e' :: (if negative then '-' else '+') :: digits

/-- The text without its sign. -/
def body (n : Numeral) : List Char := n.whole ++ n.fractionText ++ n.exponentText

/-- The text of a numeral. -/
def text (n : Numeral) : List Char := if n.negative then '-' :: n.body else n.body

/-- The power of ten that the exponent says. -/
def power (n : Numeral) : Int :=
  match n.exponent with
  | some (true, digits) => -Int.ofNat (digitsValue digits)
  | some (false, digits) => Int.ofNat (digitsValue digits)
  | none => 0

/-- Whether a numeral is that of an integer. -/
def isInteger (n : Numeral) : Bool := n.fraction.isEmpty && n.exponent.isNone

/-- The value that a numeral is read as. -/
def value (style : Style) (n : Numeral) : Value :=
  if n.isInteger then
    .int (if n.negative then -Int.ofNat (digitsValue n.whole) else Int.ofNat (digitsValue n.whole))
  else style.fractional ⟨n.negative, digitsValue (n.whole ++ n.fraction),
    n.power - n.fraction.length⟩

/-- A numeral has a digit before the point, and no zeros in front of it. -/
structure Valid (n : Numeral) : Prop where
  whole_ne_nil : n.whole ≠ []
  whole : ∀ c ∈ n.whole, c.isDigit = true
  leading : n.whole = ['0'] ∨ n.whole.head? ≠ some '0'
  fraction : ∀ c ∈ n.fraction, c.isDigit = true
  exponent : ∀ e ∈ n.exponent, e.2 ≠ [] ∧ ∀ c ∈ e.2, c.isDigit = true

end Numeral

/-- What can follow a value: the end, or the next mark of a list or an object. -/
def Closes (cs : List Char) : Prop := ∀ c rest, cs = c :: rest → c = ',' ∨ c = ']' ∨ c = '\x7d'

/-- A text that starts with none of some characters. -/
def Avoids (p : Char → Bool) (cs : List Char) : Prop := ∀ c rest, cs = c :: rest → p c = false

theorem Closes.avoids {cs : List Char} (h : Closes cs) {p : Char → Bool} (hcomma : p ',' = false)
    (hbracket : p ']' = false) (hbrace : p '\x7d' = false) : Avoids p cs := by
  intro c rest hcs
  rcases h c rest hcs with rfl | rfl | rfl
  · exact hcomma
  · exact hbracket
  · exact hbrace

theorem closes_nil : Closes [] := fun _ _ h => nomatch h

theorem avoids_cons {p : Char → Bool} {c : Char} (h : p c = false) (cs : List Char) :
    Avoids p (c :: cs) := by
  intro d rest hd
  cases hd
  exact h

/-! ## Parts of a numeral -/

theorem digitsOf_append {ds cs : List Char} (hds : ∀ c ∈ ds, c.isDigit = true)
    (hcs : Avoids Char.isDigit cs) : digitsOf (ds ++ cs) = ds := by
  have hrest : cs.takeWhile (fun c => c.isDigit) = [] := by
    cases cs with
    | nil => rfl
    | cons c cs => rw [List.takeWhile_cons_of_neg (by simp [hcs c cs rfl])]
  rw [digitsOf, List.takeWhile_append_of_pos hds, hrest, List.append_nil]

theorem wholePart_append {ds cs : List Char} (hne : ds ≠ []) (hds : ∀ c ∈ ds, c.isDigit = true)
    (hleading : ds = ['0'] ∨ ds.head? ≠ some '0') (hcs : Avoids Char.isDigit cs) :
    wholePart (ds ++ cs) = ds := by
  rcases hleading with rfl | hleading
  · rfl
  · obtain ⟨d, rest, rfl⟩ := List.exists_cons_of_ne_nil hne
    have hzero : d ≠ '0' := by
      rintro rfl
      exact hleading rfl
    have hdigits := digitsOf_append hds hcs
    rw [List.cons_append] at hdigits ⊢
    rw [wholePart]
    · exact hdigits
    · exact fun r hr => hzero (List.cons.inj hr).1

section

variable {n : Numeral} {cs : List Char}

/-- An exponent starts with its mark, so nothing else stands behind the digits. -/
theorem avoids_exponentText {p : Char → Bool} (hmark : p 'e' = false) (hcs : Avoids p cs) :
    Avoids p (n.exponentText ++ cs) := by
  rw [Numeral.exponentText]
  cases n.exponent with
  | none => exact hcs
  | some e => exact avoids_cons hmark _

theorem avoids_fractionText {p : Char → Bool} (hpoint : p '.' = false) (hcs : Avoids p cs) :
    Avoids p (n.fractionText ++ cs) := by
  rw [Numeral.fractionText]
  cases n.fraction with
  | nil => exact hcs
  | cons d ds => exact avoids_cons hpoint _

variable (h : n.Valid)
include h

theorem fractionPart_append (hdigit : Avoids Char.isDigit cs) (hpoint : Avoids (· == '.') cs) :
    fractionPart (n.fractionText ++ cs) = n.fraction := by
  rw [Numeral.fractionText]
  cases hn : n.fraction with
  | nil =>
    rw [List.isEmpty_nil, if_pos rfl, List.nil_append]
    cases cs with
    | nil => rfl
    | cons c cs =>
      rw [fractionPart]
      intro r hr
      have hc := hpoint c cs rfl
      rw [(List.cons.inj hr).1] at hc
      cases hc
  | cons d ds =>
    have hdigits := digitsOf_append h.fraction hdigit
    rw [hn] at hdigits
    rw [List.isEmpty_cons, if_neg Bool.false_ne_true, List.cons_append, fractionPart, hdigits]

theorem exponentPart?_append (hcs : Closes cs) :
    exponentPart? (n.exponentText ++ cs) = n.exponent.map fun e => (e.1, 2, e.2) := by
  have hdigit : Avoids Char.isDigit cs := hcs.avoids rfl rfl rfl
  rw [Numeral.exponentText]
  cases hn : n.exponent with
  | none =>
    rw [List.nil_append, Option.map_none]
    cases cs with
    | nil => rfl
    | cons c cs =>
      have hmark : (c == 'e' || c == 'E') = false :=
        hcs.avoids (p := fun c => c == 'e' || c == 'E') rfl rfl rfl c cs rfl
      unfold exponentPart?
      simp only [hmark, Bool.false_eq_true, if_false]
  | some e =>
    obtain ⟨negative, ds⟩ := e
    obtain ⟨hne, hds⟩ := h.exponent (negative, ds) hn
    have hsome : ds.isEmpty = false := by simpa using hne
    have hdigits := digitsOf_append hds hdigit
    cases negative with
    | true =>
      simp only [if_true, List.cons_append, exponentPart?, BEq.rfl, Bool.true_or, hdigits, hsome,
        Bool.false_eq_true, if_false, Option.map_some]
    | false =>
      simp only [Bool.false_eq_true, if_false, List.cons_append, exponentPart?, BEq.rfl,
        Bool.true_or, hdigits, hsome, if_true, Option.map_some]

/-! ## Whole numerals -/

/-- A numeral starts with a digit behind its sign. -/
theorem Numeral.Valid.body_cons : ∃ d rest, d.isDigit = true ∧ n.body = d :: rest := by
  obtain ⟨d, rest, hd⟩ := List.exists_cons_of_ne_nil h.whole_ne_nil
  refine ⟨d, rest ++ n.fractionText ++ n.exponentText, h.whole d (hd ▸ List.mem_cons_self), ?_⟩
  rw [Numeral.body, hd, List.cons_append, List.cons_append]

/-- The sign of a numeral is told apart from its digits. -/
theorem sign_of_text {negative : Bool} {body : List Char}
    (hsign : (match n.text ++ cs with
      | '-' :: r => (true, r)
      | r => (false, r)) = (negative, body)) :
    negative = n.negative ∧ body = n.body ++ cs := by
  obtain ⟨d, rest, hd, hbody⟩ := h.body_cons
  rw [Numeral.text] at hsign
  cases hn : n.negative with
  | true =>
    rw [hn, if_pos rfl] at hsign
    cases hsign
    exact ⟨rfl, rfl⟩
  | false =>
    rw [hn, if_neg Bool.false_ne_true, hbody] at hsign
    split at hsign
    · -- a digit is no sign
      rename_i r hr
      obtain rfl : d = '-' := (List.cons.inj hr).1
      cases hd
    · cases hsign
      rw [hbody]
      exact ⟨rfl, rfl⟩

/-- A numeral is read as its value, to its last character. -/
theorem readNumber?_text (style : Style) (hcs : Closes cs) :
    readNumber? style (n.text ++ cs) = some (n.value style, n.text.length) := by
  have hdigit : Avoids Char.isDigit cs := hcs.avoids rfl rfl rfl
  have hpoint : Avoids (· == '.') cs := hcs.avoids rfl rfl rfl
  -- what stands behind each part
  have hexponent : Avoids Char.isDigit (n.exponentText ++ cs) := avoids_exponentText rfl hdigit
  have hfraction : Avoids Char.isDigit (n.fractionText ++ (n.exponentText ++ cs)) :=
    avoids_fractionText rfl hexponent
  have hwhole : wholePart (n.body ++ cs) = n.whole := by
    rw [Numeral.body, List.append_assoc, List.append_assoc]
    exact wholePart_append h.whole_ne_nil h.whole h.leading hfraction
  have hafterWhole : (n.body ++ cs).drop n.whole.length =
      n.fractionText ++ (n.exponentText ++ cs) := by
    rw [Numeral.body, List.append_assoc, List.append_assoc, List.drop_left]
  have hfractionPart := fractionPart_append h hexponent (avoids_exponentText rfl hpoint)
  have hwidth : n.fractionText.length = if n.fraction.isEmpty then 0 else n.fraction.length + 1 := by
    rw [Numeral.fractionText]
    split <;> rfl
  have hafterFraction : (n.fractionText ++ (n.exponentText ++ cs)).drop
      (if n.fraction.isEmpty then 0 else n.fraction.length + 1) = n.exponentText ++ cs := by
    rw [← hwidth, List.drop_left]
  have hsome : n.whole.isEmpty = false := by simpa using h.whole_ne_nil
  unfold readNumber?
  split
  rename_i negative body hsign
  obtain ⟨rfl, rfl⟩ : negative = n.negative ∧ body = n.body ++ cs := sign_of_text h hsign
  simp only [hwhole, hsome, Bool.false_eq_true, if_false, hafterWhole, hfractionPart,
    hafterFraction, exponentPart?_append h hcs]
  -- what is left is the value and the length, by the parts that are there
  clear hsign hwhole hafterWhole hfractionPart hafterFraction hwidth hfraction hexponent
  obtain ⟨negative, whole, fraction, exponent⟩ := n
  cases fraction <;> rcases exponent with _ | ⟨_ | _, ds⟩ <;> cases negative <;>
    simp [Numeral.value, Numeral.isInteger, Numeral.text, Numeral.body, Numeral.fractionText,
      Numeral.exponentText, Numeral.power] <;> omega

end

/-! ## Integers -/

/-- A number other than zero does not start with a zero. -/
theorem head?_toDigits {m : Nat} (h : m ≠ 0) : (Nat.toDigits 10 m).head? ≠ some '0' := by
  induction m using Nat.strong_induction_on with
  | _ m ih =>
    rcases Nat.lt_or_ge m 10 with hm | hm
    · have hdigit : ∀ d < 10, d ≠ 0 → Nat.digitChar d ≠ '0' := by decide
      rw [Nat.toDigits_of_lt_base hm, List.head?_cons, Ne, Option.some.injEq]
      exact hdigit m hm h
    · have hquotient : m / 10 ≠ 0 := by omega
      have hfirst := ih (m / 10) (by omega) hquotient
      rw [Nat.toDigits_of_base_le (by decide) hm,
        List.head?_append_of_ne_nil _ Nat.toDigits_ne_nil]
      exact hfirst

theorem leading_toDigits (m : Nat) :
    Nat.toDigits 10 m = ['0'] ∨ (Nat.toDigits 10 m).head? ≠ some '0' := by
  by_cases h : m = 0
  · rw [h]
    exact .inl rfl
  · exact .inr (head?_toDigits h)

theorem digitsValue_toDigits (m : Nat) : digitsValue (Nat.toDigits 10 m) = m := by
  have hfold := @Nat.ofDigitChars_eq_foldl 10 (Nat.toDigits 10 m) 0
  rw [Nat.ofDigitChars_ten_toDigits] at hfold
  exact hfold.symm

/-- The numeral of an integer. -/
def intNumeral : Int → Numeral
  | .ofNat m => ⟨false, Nat.toDigits 10 m, [], none⟩
  | .negSucc m => ⟨true, Nat.toDigits 10 (m + 1), [], none⟩

theorem valid_intNumeral (n : Int) : (intNumeral n).Valid := by
  have hvalid : ∀ negative m, (⟨negative, Nat.toDigits 10 m, [], none⟩ : Numeral).Valid :=
    fun negative m => ⟨Nat.toDigits_ne_nil, fun _ => Text.isDigit_of_mem_toDigits m,
      leading_toDigits m, List.forall_mem_nil _, fun e he => nomatch he⟩
  cases n with
  | ofNat m => exact hvalid false m
  | negSucc m => exact hvalid true (m + 1)

theorem text_intNumeral (n : Int) : (intNumeral n).text = (toString n).toList := by
  cases n with
  | ofNat m =>
    rw [Text.toList_ofNat]
    exact (List.append_nil _).trans (List.append_nil _)
  | negSucc m =>
    rw [Text.toList_negSucc]
    exact congrArg ('-' :: ·) ((List.append_nil _).trans (List.append_nil _))

theorem value_intNumeral (style : Style) (n : Int) : (intNumeral n).value style = .int n := by
  cases n with
  | ofNat m =>
    have hvalue := digitsValue_toDigits m
    simp [intNumeral, Numeral.value, Numeral.isInteger, hvalue]
  | negSucc m =>
    have hvalue := digitsValue_toDigits (m + 1)
    simp [intNumeral, Numeral.value, Numeral.isInteger, hvalue]
    omega

/-! ## Floating point numbers -/

/-- A numeral without a sign that is no integer. -/
structure Numeral.Fractional (n : Numeral) : Prop where
  valid : n.Valid
  isInteger : n.isInteger = false
  negative : n.negative = false

theorem isDigit_of_mem_zeros {k : Nat} {c : Char} (h : c ∈ List.replicate k '0') :
    c.isDigit = true := by
  rw [List.eq_of_mem_replicate h]
  rfl

section

variable {ds : List Char} (hne : ds ≠ []) (hds : ∀ c ∈ ds, c.isDigit = true)
  (hleading : ds.head? ≠ some '0')
include hne hds hleading

/-- Plain notation has a point. -/
theorem exists_plain (leading : Int) : ∃ n : Numeral, n.Fractional ∧ plain ds leading = n.body := by
  unfold plain
  split
  · -- zeros stand between the point and the digits
    have hfraction : ∀ c ∈ List.replicate (-leading - 1).toNat '0' ++ ds, c.isDigit = true := by
      intro c hc
      rcases List.mem_append.1 hc with hc | hc
      · exact isDigit_of_mem_zeros hc
      · exact hds c hc
    have hsome : (List.replicate (-leading - 1).toNat '0' ++ ds).isEmpty = false := by
      simp [hne]
    refine ⟨⟨false, ['0'], List.replicate (-leading - 1).toNat '0' ++ ds, none⟩,
      ⟨⟨List.cons_ne_nil _ _, by simp, .inl rfl, hfraction, fun e he => nomatch he⟩, ?_, rfl⟩, ?_⟩
    · rw [Numeral.isInteger, hsome, Bool.false_and]
    · simp [Numeral.body, Numeral.fractionText, Numeral.exponentText, hne]
  · split
    · -- zeros stand behind the digits, and one more behind the point
      have hwhole : ∀ c ∈ ds ++ List.replicate (leading.toNat + 1 - ds.length) '0',
          c.isDigit = true := by
        intro c hc
        rcases List.mem_append.1 hc with hc | hc
        · exact hds c hc
        · exact isDigit_of_mem_zeros hc
      refine ⟨⟨false, ds ++ List.replicate (leading.toNat + 1 - ds.length) '0', ['0'], none⟩,
        ⟨⟨by simp [hne], hwhole, .inr ?_, by simp, fun e he => nomatch he⟩, rfl, rfl⟩, ?_⟩
      · rw [List.head?_append_of_ne_nil _ hne]
        exact hleading
      · simp [Numeral.body, Numeral.fractionText, Numeral.exponentText]
    · -- the point stands among the digits
      rename_i hlength
      have hshort : leading.toNat + 1 < ds.length := by omega
      have hsome : (ds.drop (leading.toNat + 1)).isEmpty = false := by
        simpa using hshort
      refine ⟨⟨false, ds.take (leading.toNat + 1), ds.drop (leading.toNat + 1), none⟩,
        ⟨⟨by simp [hne], fun c hc => hds c (List.mem_of_mem_take hc), .inr ?_,
          fun c hc => hds c (List.mem_of_mem_drop hc), fun e he => nomatch he⟩, ?_, rfl⟩, ?_⟩
      · rw [List.head?_take, if_neg (by omega)]
        exact hleading
      · rw [Numeral.isInteger, hsome, Bool.false_and]
      · simp only [Numeral.body, Numeral.fractionText, Numeral.exponentText, hsome,
          Bool.false_eq_true, if_false, List.append_nil]

omit hne hleading in
theorem exists_scientific {d : Char} (hd : d.isDigit = true) (hzero : d ≠ '0') (leading : Int) :
    ∃ n : Numeral, n.Fractional ∧ scientific false (d :: ds) leading = n.body := by
  have hexponent : ∃ es, es ≠ [] ∧ (∀ c ∈ es, c.isDigit = true) ∧
      exponentText leading = (if leading < 0 then '-' else '+') :: es := by
    refine ⟨_, ?_, ?_, rfl⟩
    · split
      · exact List.cons_ne_nil _ _
      · rw [Nat.toList_repr]
        exact Nat.toDigits_ne_nil
    · intro c hc
      have hdigits : ∀ c ∈ (Nat.repr leading.natAbs).toList, c.isDigit = true := by
        rw [Nat.toList_repr]
        exact fun c => Text.isDigit_of_mem_toDigits _
      split at hc
      · rcases List.mem_cons.1 hc with rfl | hc
        · rfl
        · exact hdigits c hc
      · exact hdigits c hc
  obtain ⟨es, hes, hdigits, htext⟩ := hexponent
  refine ⟨⟨false, [d], ds, some (decide (leading < 0), es)⟩,
    ⟨⟨List.cons_ne_nil _ _, by simpa using hd, .inr (by simpa using hzero), hds, ?_⟩, ?_, rfl⟩, ?_⟩
  · intro e he
    cases he
    exact ⟨hes, hdigits⟩
  · rw [Numeral.isInteger, Option.isNone_some, Bool.and_false]
  · cases ds with
    | nil => simp [scientific, htext, Numeral.body, Numeral.fractionText, Numeral.exponentText]
    | cons d' ds => simp [scientific, htext, Numeral.body, Numeral.fractionText, Numeral.exponentText]

end

/-- The digits of a floating point number are written as a numeral that is no integer. -/
theorem exists_write (d : Digits) : ∃ n : Numeral, n.Fractional ∧ shownLayout.write d = n.body := by
  have hds : ∀ c ∈ Nat.toDigits 10 d.digits, c.isDigit = true :=
    fun c => Text.isDigit_of_mem_toDigits d.digits
  unfold Layout.write
  simp only [Nat.toList_repr]
  split
  · refine ⟨⟨false, ['0'], ['0'], none⟩, ⟨⟨List.cons_ne_nil _ _, by simp, .inl rfl, by simp,
      fun e he => nomatch he⟩, rfl, rfl⟩, rfl⟩
  · rename_i hdigits
    split
    · exact exists_plain Nat.toDigits_ne_nil hds (head?_toDigits hdigits) _
    · have hleading := head?_toDigits hdigits
      obtain ⟨c, cs, hcs⟩ := List.exists_cons_of_ne_nil (Nat.toDigits_ne_nil (b := 10) (n := d.digits))
      rw [hcs] at hds hleading ⊢
      obtain ⟨hc, hrest⟩ := List.forall_mem_cons.1 hds
      exact exists_scientific hrest hc (by simpa using hleading) _

/-! ## Numbers in a text -/

section

variable {style : Style} {cs : List Char} (hcs : Closes cs)
include hcs

/-- A numeral is no word. -/
theorem readScalar_text {n : Numeral} (h : n.Valid) (p : Nat) : ∃ q,
    readScalar style (n.text ++ cs) p = .ok (n.value style, ⟨cs, q⟩) := by
  obtain ⟨d, rest, hd, hbody⟩ := h.body_cons
  -- words start with letters, the last one behind a sign
  have hword : (words style).find? (fun w => w.1.isPrefixOf (n.text ++ cs)) = none := by
    have hletter : ∀ c : Char, c.isDigit = false → (c == d) = false := by
      intro c hc
      rw [beq_eq_false_iff_ne]
      rintro rfl
      rw [hd] at hc
      cases hc
    have hfirst : ∀ c : Char, c.isDigit = false → c ≠ '-' → ∀ r,
        (c :: r).isPrefixOf (n.text ++ cs) = false := by
      intro c hc hminus r
      rw [Numeral.text]
      cases n.negative with
      | true => simp [List.isPrefixOf, hminus]
      | false => simp [List.isPrefixOf, hbody, hletter c hc]
    have hsecond : ∀ c : Char, c.isDigit = false → ∀ r,
        ('-' :: c :: r).isPrefixOf (n.text ++ cs) = false := by
      intro c hc r
      rw [Numeral.text]
      cases n.negative with
      | true => simp [List.isPrefixOf, hbody, hletter c hc]
      | false => simp [List.isPrefixOf, hbody, hletter '-' rfl]
    rw [List.find?_eq_none]
    intro w hw
    rw [Bool.not_eq_true]
    rcases List.mem_append.1 hw with hw | hw
    · simp only [List.mem_cons, List.not_mem_nil, or_false] at hw
      rcases hw with rfl | rfl | rfl <;> exact hfirst _ rfl (by decide) _
    · split at hw
      · simp only [List.mem_cons, List.not_mem_nil, or_false] at hw
        rcases hw with rfl | rfl | rfl
        · exact hfirst _ rfl (by decide) _
        · exact hfirst _ rfl (by decide) _
        · exact hsecond _ rfl _
      · cases hw
  refine ⟨p + n.text.length, ?_⟩
  rw [readScalar, hword]
  simp only [readNumber?_text h style hcs, List.drop_left]

/-- A written integer is read back. -/
theorem readScalar_int (n : Int) (p : Nat) : ∃ q,
    readScalar style ((write (.int n)).toList ++ cs) p = .ok (.int n, ⟨cs, q⟩) := by
  have hread : ∃ q, readScalar style ((intNumeral n).text ++ cs) p = _ :=
    readScalar_text hcs (valid_intNumeral n) p
  rw [text_intNumeral, value_intNumeral] at hread
  exact hread

end

/-- What a written floating point number is read as. -/
def rereadFloat (x : Float) : Value :=
  match readScalar ordinary (writeFloat x).toList 0 with
  | .ok (v, _) => v
  | .error _ => .null

/-- A written floating point number is a numeral that is no integer, or the name of a
number that is none. -/
theorem exists_writeFloat (x : Float) :
    (∃ n : Numeral, n.Valid ∧ n.isInteger = false ∧ (writeFloat x).toList = n.text) ∨
      ∃ y, ∀ (cs : List Char) (p : Nat), ∃ q,
        readScalar ordinary ((writeFloat x).toList ++ cs) p = .ok (.float y, ⟨cs, q⟩) := by
  unfold writeFloat shown
  cases exact x with
  | finite negative num den =>
    obtain ⟨n, hn, htext⟩ := exists_write (shortest num den)
    refine .inl ⟨{ n with negative := negative }, ⟨hn.valid.1, hn.valid.2, hn.valid.3, hn.valid.4,
      hn.valid.5⟩, hn.isInteger, ?_⟩
    simp only [withSign, String.toList_ofList, htext]
    cases negative <;> rfl
  | infinite negative =>
    cases negative with
    | true => exact .inr ⟨infinity true, fun cs p => ⟨_, rfl⟩⟩
    | false => exact .inr ⟨infinity false, fun cs p => ⟨_, rfl⟩⟩
  | undefined => exact .inr ⟨undefinedFloat, fun cs p => ⟨_, rfl⟩⟩

/-- A written floating point number is read as a floating point number that only its text
determines. -/
theorem readScalar_float (x : Float) : ∃ y, rereadFloat x = .float y ∧
    ∀ (cs : List Char), Closes cs → ∀ (p : Nat), ∃ q,
      readScalar ordinary ((writeFloat x).toList ++ cs) p = .ok (.float y, ⟨cs, q⟩) := by
  -- what is read with nothing behind it is what is read before any mark
  have hsame : ∀ y, (∀ (cs : List Char), Closes cs → ∀ (p : Nat), ∃ q,
      readScalar ordinary ((writeFloat x).toList ++ cs) p = .ok (.float y, ⟨cs, q⟩)) →
      rereadFloat x = .float y := by
    intro y hread
    obtain ⟨q, hq⟩ := hread [] closes_nil 0
    rw [List.append_nil] at hq
    rw [rereadFloat, hq]
  rcases exists_writeFloat x with ⟨n, hvalid, hfraction, htext⟩ | ⟨y, hread⟩
  · obtain ⟨y, hy⟩ : ∃ y, n.value ordinary = .float y := by
      rw [Numeral.value, hfraction, if_neg Bool.false_ne_true]
      exact ⟨_, rfl⟩
    have hread : ∀ (cs : List Char), Closes cs → ∀ (p : Nat), ∃ q,
        readScalar ordinary ((writeFloat x).toList ++ cs) p = .ok (.float y, ⟨cs, q⟩) := by
      intro cs hcs p
      rw [htext, ← hy]
      exact readScalar_text hcs hvalid p
    exact ⟨y, hsame y hread, hread⟩
  · exact ⟨y, hsame y fun cs _ p => hread cs p, fun cs _ p => hread cs p⟩

end CardArchive.Json
