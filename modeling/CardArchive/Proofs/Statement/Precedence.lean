import CardArchive.Proofs.Statement.Lexer
import CardArchive.Statement.Cell

/-!
# How a written condition is read

A condition joins others by the words `AND` and `OR`, of which `AND` binds tighter, and
parentheses override this. What stands between two such words is not taken apart, and
neither is what stands in parentheses behind the start of it, as in a list of values or a
nested statement. The grammar has three levels, one for each strength of binding, and gives
every text at most one reading.

## What this module delivers

* `Formula` and `Formula.truth`: a condition that has been read, and what it says.
* `Nested` and `Nested.unique`: tokens with matching parentheses, and where they end.
* `Parses` and `Parses.unique`: the grammar of conditions, and that it is unambiguous.
* `Parses.append`: the reading of two conjunctions with `AND` between them.
-/

set_option autoImplicit false

namespace CardArchive

/-! ## Formulas -/

/-- A condition that has been read: other conditions, joined. -/
inductive Formula (α : Type) where
  | leaf (a : α)
  | both (left right : Formula α)
  | either (left right : Formula α)

namespace Formula

variable {α β : Type}

/-- The same formula over other conditions. -/
def map (m : α → β) : Formula α → Formula β
  | leaf a => leaf (m a)
  | both f g => both (f.map m) (g.map m)
  | either f g => either (f.map m) (g.map m)

/-- The conditions that are joined, from left to right. -/
def leaves : Formula α → List α
  | leaf a => [a]
  | both f g => f.leaves ++ g.leaves
  | either f g => f.leaves ++ g.leaves

/-- What a formula says if each condition says what it is assigned. -/
def truth (v : α → Truth) : Formula α → Truth
  | leaf a => v a
  | both f g => (f.truth v).both (g.truth v)
  | either f g => (f.truth v).either (g.truth v)

end Formula

theorem Truth.both_assoc (a b c : Truth) : (a.both b).both c = a.both (b.both c) := by
  revert a b c
  decide

theorem Truth.both_true (a : Truth) : a.both (some true) = a := by
  revert a
  decide

theorem Truth.either_false (a : Truth) : a.either (some false) = a := by
  revert a
  decide

namespace Sql

/-! ## Nested tokens -/

/-- The token that opens a pair of parentheses. -/
def opening : Token := .symbol "("

/-- The token that closes one. -/
def closing : Token := .symbol ")"

/-- Tokens whose parentheses match, and of which those outside of parentheses have a
property. -/
inductive Nested : (Token → Prop) → List Token → Prop
  | nil {p : Token → Prop} : Nested p []
  | token {p : Token → Prop} {t : Token} {ts : List Token} (ht : p t) (hopening : t ≠ opening)
      (hclosing : t ≠ closing) (hts : Nested p ts) : Nested p (t :: ts)
  | group {p : Token → Prop} {inner ts : List Token} (hinner : Nested (fun _ => True) inner)
      (hts : Nested p ts) : Nested p (opening :: (inner ++ closing :: ts))

namespace Nested

variable {p q : Token → Prop} {ts us : List Token}

theorem append (hts : Nested p ts) (hus : Nested p us) : Nested p (ts ++ us) := by
  induction hts with
  | nil => exact hus
  | token ht hopening hclosing _ ih => exact .token ht hopening hclosing (ih hus)
  | @group p inner ts hinner _ _ ih =>
    have hsplit : opening :: (inner ++ closing :: ts) ++ us =
        opening :: (inner ++ closing :: (ts ++ us)) := by simp
    rw [hsplit]
    exact .group hinner (ih hus)

theorem mono (hpq : ∀ t, p t → q t) (h : Nested p ts) : Nested q ts := by
  induction h with
  | nil => exact .nil
  | token ht hopening hclosing _ ih => exact .token (hpq _ ht) hopening hclosing (ih hpq)
  | group hinner _ _ ih => exact .group hinner (ih hpq)

/-- A token that nested tokens do not go on with. -/
def Stops (p : Token → Prop) (t : Token) : Prop := t = closing ∨ t ≠ opening ∧ ¬p t

theorem Stops.ne_opening {t : Token} (h : Stops p t) : t ≠ opening := by
  rcases h with rfl | ⟨hne, -⟩
  · decide
  · exact hne

theorem Stops.not_token {t : Token} (h : Stops p t) (ht : p t) : t = closing :=
  h.resolve_right fun hno => hno.2 ht

/-- Nested tokens end at the first token that they do not go on with, so they end in one
place only. -/
theorem unique (h : Nested p ts) (h' : Nested p us) {t u : Token} {vs ws : List Token}
    (ht : Stops p t) (hu : Stops p u) (hsame : ts ++ t :: vs = us ++ u :: ws) :
    ts = us ∧ t = u ∧ vs = ws := by
  induction h generalizing us t u vs ws with
  | nil =>
    cases h' with
    | nil => exact ⟨rfl, List.cons.inj hsame⟩
    | token hfirst _ hclosing _ =>
      obtain ⟨rfl, -⟩ := List.cons.inj hsame
      exact absurd (ht.not_token hfirst) hclosing
    | group _ _ => exact absurd (List.cons.inj hsame).1 ht.ne_opening
  | token hfirst hopening hclosing _ ih =>
    cases h' with
    | nil =>
      obtain ⟨rfl, -⟩ := List.cons.inj hsame
      exact absurd (hu.not_token hfirst) hclosing
    | token _ _ _ hus =>
      obtain ⟨rfl, hrest⟩ := List.cons.inj hsame
      obtain ⟨rfl, hstop⟩ := ih hus ht hu hrest
      exact ⟨rfl, hstop⟩
    | group _ _ => exact absurd (List.cons.inj hsame).1 hopening
  | @group p inner ts hinner _ ihinner ih =>
    cases h' with
    | nil => exact absurd (List.cons.inj hsame).1.symm hu.ne_opening
    | token _ hopening _ _ => exact absurd (List.cons.inj hsame).1.symm hopening
    | @group _ inner' us hinner' hus =>
      -- the parentheses close at one place, and what is left ends at one place
      have hrest : inner ++ closing :: (ts ++ t :: vs) = inner' ++ closing :: (us ++ u :: ws) := by
        simpa using hsame
      obtain ⟨rfl, -, hrest⟩ := ihinner hinner' (.inl rfl) (.inl rfl) hrest
      obtain ⟨rfl, hstop⟩ := ih hus ht hu hrest
      exact ⟨rfl, hstop⟩

/-- Nested tokens hold no token that they do not go on with, but within parentheses. -/
theorem not_split {t : Token} {vs : List Token} (h : Nested p (ts ++ t :: vs)) (hts : Nested p ts)
    (ht : Stops p t) : False := by
  have hsame : (ts ++ t :: vs) ++ closing :: [] = ts ++ t :: (vs ++ [closing]) := by simp
  have hlength := congrArg List.length (unique h hts (.inl rfl) ht hsame).1
  simp at hlength

end Nested

/-! ## The grammar -/

/-- The word of a conjunction, in capitals or not. -/
def Token.isAnd : Token → Bool
  | .word w => w.toList.map Char.toUpper == ['A', 'N', 'D']
  | _ => false

/-- The word of a disjunction, in capitals or not. -/
def Token.isOr : Token → Bool
  | .word w => w.toList.map Char.toUpper == ['O', 'R']
  | _ => false

/-- How tight the words of a text bind that stand outside of parentheses. -/
inductive Binding where
  | operand
  | conjunction
  | disjunction

/-- The tokens that can stand outside of parentheses. -/
def Binding.Admits : Binding → Token → Prop
  | operand, t => t.isAnd = false ∧ t.isOr = false
  | conjunction, t => t.isOr = false
  | disjunction, _ => True

instance (b : Binding) (t : Token) : Decidable (b.Admits t) :=
  match b with
  | .operand => inferInstanceAs (Decidable (t.isAnd = false ∧ t.isOr = false))
  | .conjunction => inferInstanceAs (Decidable (t.isOr = false))
  | .disjunction => inferInstanceAs (Decidable True)

/-- A condition that is not taken apart: it starts with no parenthesis, and what joins
conditions stands within parentheses. -/
structure IsAtomic (ts : List Token) : Prop where
  starts : ∃ t us, ts = t :: us ∧ t ≠ opening
  nested : Nested Binding.operand.Admits ts

/-- Tokens outside of parentheses. -/
def IsFlat (p : Token → Prop) (ts : List Token) : Prop :=
  ∀ t ∈ ts, p t ∧ t ≠ opening ∧ t ≠ closing

theorem nested_of_isFlat {p : Token → Prop} {ts : List Token} (h : IsFlat p ts) :
    Nested p ts := by
  induction ts with
  | nil => exact .nil
  | cons t ts ih =>
    obtain ⟨ht, hopening, hclosing⟩ := h t List.mem_cons_self
    exact .token ht hopening hclosing (ih fun u hu => h u (List.mem_cons_of_mem t hu))

instance (b : Binding) (ts : List Token) : Decidable (IsFlat b.Admits ts) :=
  inferInstanceAs (Decidable (∀ t ∈ ts, b.Admits t ∧ t ≠ opening ∧ t ≠ closing))

/-- Tokens with matching parentheses. -/
abbrev Balanced : List Token → Prop := Nested Binding.disjunction.Admits

theorem balanced_of_nested {p : Token → Prop} {ts : List Token} (h : Nested p ts) :
    Balanced ts := h.mono fun _ _ => trivial

/-- An atomic condition goes on with tokens that join none. -/
theorem IsAtomic.append {ts us : List Token} (hts : IsAtomic ts)
    (hus : Nested Binding.operand.Admits us) : IsAtomic (ts ++ us) := by
  obtain ⟨t, rest, rfl, hne⟩ := hts.starts
  exact ⟨⟨t, rest ++ us, rfl, hne⟩, hts.nested.append hus⟩

theorem isAtomic_of_isFlat {t : Token} {ts : List Token}
    (h : IsFlat Binding.operand.Admits (t :: ts)) : IsAtomic (t :: ts) :=
  ⟨⟨t, ts, rfl, (h t List.mem_cons_self).2.1⟩, nested_of_isFlat h⟩

/-- The grammar of conditions, with the formula that a text is read as. Its leaves are the
tokens of the conditions that are not taken apart. -/
inductive Parses : Binding → List Token → Formula (List Token) → Prop
  | atom {ts : List Token} (h : IsAtomic ts) : Parses .operand ts (.leaf ts)
  | group {ts : List Token} {f : Formula (List Token)} (h : Parses .disjunction ts f) :
      Parses .operand (opening :: (ts ++ [closing])) f
  | one {ts : List Token} {f : Formula (List Token)} (h : Parses .operand ts f) :
      Parses .conjunction ts f
  | and {ts us : List Token} {t : Token} {f g : Formula (List Token)} (hf : Parses .operand ts f)
      (ht : t.isAnd = true) (hg : Parses .conjunction us g) :
      Parses .conjunction (ts ++ t :: us) (.both f g)
  | alone {ts : List Token} {f : Formula (List Token)} (h : Parses .conjunction ts f) :
      Parses .disjunction ts f
  | or {ts us : List Token} {t : Token} {f g : Formula (List Token)}
      (hf : Parses .conjunction ts f) (ht : t.isOr = true) (hg : Parses .disjunction us g) :
      Parses .disjunction (ts ++ t :: us) (.either f g)

theorem isOr_of_isAnd {t : Token} (h : t.isAnd = true) : t.isOr = false := by
  cases t with
  | word w =>
    have hupper : w.toList.map Char.toUpper = ['A', 'N', 'D'] := beq_iff_eq.1 h
    rw [Token.isOr, hupper]
    decide
  | _ => rfl

/-- A word that joins conditions is no parenthesis. -/
theorem ne_parenthesis {t : Token} (h : t.isAnd = true ∨ t.isOr = true) :
    t ≠ opening ∧ t ≠ closing := by
  constructor
  · rintro rfl
    revert h
    decide
  · rintro rfl
    revert h
    decide

theorem stops_of_isAnd {t : Token} (h : t.isAnd = true) :
    Nested.Stops Binding.operand.Admits t := by
  refine .inr ⟨(ne_parenthesis (.inl h)).1, fun hno => ?_⟩
  rw [hno.1] at h
  cases h

theorem stops_of_isOr {t : Token} (h : t.isOr = true) :
    Nested.Stops Binding.conjunction.Admits t := by
  refine .inr ⟨(ne_parenthesis (.inr h)).1, fun hno => ?_⟩
  have hno : t.isOr = false := hno
  rw [hno] at h
  cases h

namespace Parses

variable {b : Binding} {ts us : List Token} {f g : Formula (List Token)}

/-- What has been read has matching parentheses, and outside of them only what its binding
admits. -/
theorem nested (h : Parses b ts f) : Nested b.Admits ts := by
  induction h with
  | atom h => exact h.nested
  | group _ ih => exact .group ih .nil
  | one _ ih => exact ih.mono fun t ht => ht.2
  | and _ ht _ ihf ihg =>
    obtain ⟨hopening, hclosing⟩ := ne_parenthesis (.inl ht)
    exact (ihf.mono fun t ht => ht.2).append (.token (isOr_of_isAnd ht) hopening hclosing ihg)
  | alone _ ih => exact ih.mono fun _ _ => trivial
  | or _ ht _ ihf ihg =>
    obtain ⟨hopening, hclosing⟩ := ne_parenthesis (.inr ht)
    exact (ihf.mono fun _ _ => trivial).append (.token trivial hopening hclosing ihg)

/-- A text has at most one reading: a condition that is not taken apart starts with no
parenthesis, and a text can be split at one word only. -/
theorem unique (hf : Parses b ts f) (hg : Parses b ts g) : f = g := by
  generalize hsame : ts = us at hg
  induction hf generalizing us g with
  | atom h =>
    subst hsame
    cases hg with
    | atom _ => rfl
    | group _ =>
      obtain ⟨t, rest, hstart, hne⟩ := h.starts
      exact absurd (List.cons.inj hstart).1.symm hne
  | group _ ih =>
    cases hg with
    | atom h =>
      obtain ⟨t, rest, rfl, hne⟩ := h.starts
      exact absurd (List.cons.inj hsame).1.symm hne
    | group hg => exact ih _ (List.append_cancel_right (List.cons.inj hsame).2) hg
  | one hf ih =>
    subst hsame
    cases hg with
    | one hg => exact ih _ rfl hg
    | and hg ht _ => exact (hf.nested.not_split hg.nested (stops_of_isAnd ht)).elim
  | and hf ht _ ihf ihg =>
    cases hg with
    | one hg =>
      subst hsame
      exact (hg.nested.not_split hf.nested (stops_of_isAnd ht)).elim
    | and hg ht' hg' =>
      obtain ⟨hleft, -, hright⟩ :=
        hf.nested.unique hg.nested (stops_of_isAnd ht) (stops_of_isAnd ht') hsame
      rw [ihf _ hleft hg, ihg _ hright hg']
  | alone hf ih =>
    subst hsame
    cases hg with
    | alone hg => exact ih _ rfl hg
    | or hg ht _ => exact (hf.nested.not_split hg.nested (stops_of_isOr ht)).elim
  | or hf ht _ ihf ihg =>
    cases hg with
    | alone hg =>
      subst hsame
      exact (hg.nested.not_split hf.nested (stops_of_isOr ht)).elim
    | or hg ht' hg' =>
      obtain ⟨hleft, -, hright⟩ :=
        hf.nested.unique hg.nested (stops_of_isOr ht) (stops_of_isOr ht') hsame
      rw [ihf _ hleft hg, ihg _ hright hg']

/-- Two conjunctions with `AND` between them are one. Its formula joins the conditions of the
first to what is left one after the other, which says the same. -/
theorem append {α : Type} {m : α → List Token} {f g : Formula α} {t : Token}
    (hf : Parses .conjunction ts (f.map m)) (ht : t.isAnd = true)
    (hg : Parses .conjunction us (g.map m)) :
    ∃ k : Formula α, Parses .conjunction (ts ++ t :: us) (k.map m) ∧
      k.leaves = f.leaves ++ g.leaves ∧
      ∀ v, k.truth v = (f.truth v).both (g.truth v) := by
  generalize hread : f.map m = read at hf
  generalize hb : Binding.conjunction = b at hf
  induction hf generalizing f with
  | atom _ => cases hb
  | group _ => cases hb
  | one hf =>
    subst hread
    exact ⟨.both f g, .and hf ht hg, rfl, fun v => rfl⟩
  | @and first rest t' f₁ f₂ hf₁ ht' _ _ ih =>
    cases f with
    | leaf a => cases hread
    | either f g => cases hread
    | both f₁' f₂' =>
      obtain ⟨hread₁, hread₂⟩ := Formula.both.inj hread
      obtain ⟨k, hk, hleaves, htruth⟩ := ih hread₂ rfl
      subst hread₁
      refine ⟨.both f₁' k, ?_, ?_, fun v => ?_⟩
      · rw [List.append_assoc, List.cons_append]
        exact .and hf₁ ht' hk
      · rw [Formula.leaves, hleaves, Formula.leaves, List.append_assoc]
      · rw [Formula.truth, htruth, Formula.truth, Truth.both_assoc]
  | alone _ => cases hb
  | or _ _ _ => cases hb

end Parses

end Sql

end CardArchive
