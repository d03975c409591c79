import CardArchive.Value.Access

/-!
# Mana costs

A mana cost is a text of symbols in braces. A symbol whose content is all digits
is generic mana: its amount counts under the one symbol `{1}`. Every other symbol
counts by the number of its occurrences. Text outside braces is skipped.

## What this module delivers

* `groups`: the contents of the braces of a text, in order.
* `Counts` and `Counts.plus`: amounts by symbol, in the order of first use.
* `parseManaCost`: the amounts of a cost. It fails only on a group of digits that
  are no decimal digits.
-/

set_option autoImplicit false

namespace CardArchive

open Text (isDigitLike)

/-- Contents of the braces of a text, from left to right. A group goes from an
opening brace to the next closing one; `opened` holds the content read so far of
the group that is open, in reverse order. -/
def groupsFrom : Option (List Char) → List Char → List (List Char)
  | _, [] => []
  | none, c :: cs => groupsFrom (if c = '\x7b' then some [] else none) cs
  | some content, c :: cs =>
    if c = '\x7d' then content.reverse :: groupsFrom none cs
    else groupsFrom (some (c :: content)) cs

/-- Contents of the braces of a text, from left to right. -/
def groups (cs : List Char) : List (List Char) := groupsFrom none cs

/-- Amounts by symbol, in the order of first use. -/
abbrev Counts := List (String × Nat)

/-- The amount of a symbol, zero if it has none. -/
def Counts.amount (symbol : String) : Counts → Nat
  | [] => 0
  | (s, n) :: rest => if s = symbol then n else Counts.amount symbol rest

/-- The amounts with `n` more of a symbol; a new symbol comes last. -/
def Counts.plus (symbol : String) (n : Nat) : Counts → Counts
  | [] => [(symbol, n)]
  | (s, m) :: rest => if s = symbol then (s, m + n) :: rest else (s, m) :: Counts.plus symbol n rest

/-- The symbol of generic mana. -/
def genericMana : String := "\x7b1\x7d"

/-- The symbol with the given content. -/
def symbolOf (content : List Char) : String := String.ofList ('\x7b' :: content ++ ['\x7d'])

/-- Whether a group is an amount of generic mana. -/
def isAmount (content : List Char) : Bool := !content.isEmpty && content.all isDigitLike

/-- What a group adds to the amounts: nothing, or an amount of one symbol. -/
def contribution (content : List Char) : Except ShapeFault (Option (String × Nat)) :=
  if isAmount content then do
    let n ← (Value.text (String.ofList content)).toInteger
    pure (if 0 < n then some (genericMana, n.toNat) else none)
  else .ok (some (symbolOf content, 1))

/-- The amounts after some more groups. -/
def countGroups (counts : Counts) : List (List Char) → Except ShapeFault Counts
  | [] => .ok counts
  | g :: gs => do
    let c ← contribution g
    countGroups (match c with
      | some (s, n) => counts.plus s n
      | none => counts) gs

/-- The amounts of a cost by symbol. -/
def parseManaCost (cost : String) : Except ShapeFault Counts :=
  countGroups [] (groups cost.toList)

@[simp]
theorem groups_nil : groups [] = [] := rfl

@[simp]
theorem countGroups_nil (counts : Counts) : countGroups counts [] = .ok counts := rfl

/-- Adding to a symbol adds to its amount. -/
@[simp]
theorem Counts.amount_plus_self (symbol : String) (n : Nat) (counts : Counts) :
    (counts.plus symbol n).amount symbol = counts.amount symbol + n := by
  induction counts with
  | nil => simp [plus, amount]
  | cons p rest ih =>
    obtain ⟨s, m⟩ := p
    by_cases h : s = symbol <;> simp [plus, amount, h, ih]

/-- Adding to a symbol leaves the other amounts as they were. -/
theorem Counts.amount_plus_ne {symbol other : String} (h : other ≠ symbol) (n : Nat)
    (counts : Counts) : (counts.plus symbol n).amount other = counts.amount other := by
  induction counts with
  | nil => simp [plus, amount, Ne.symm h]
  | cons p rest ih =>
    obtain ⟨s, m⟩ := p
    by_cases hs : s = symbol
    · subst hs; simp [plus, amount, Ne.symm h]
    · by_cases ho : s = other <;> simp [plus, amount, hs, ho, ih, h]

end CardArchive
