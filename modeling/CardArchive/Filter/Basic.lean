import CardArchive.Value.Basic

/-!
# Filters

A search is a collection of filters. Each belongs to a category, and is either a
value that takes part in a mode, or a comparison. The collection only records
what was entered; checking and compiling are done elsewhere.

## What this module delivers

* `Category`: the fifteen categories in compile order, with `Category.all`.
* `Mode`, `Operator`, `Stat`: the other three vocabularies, with their texts.
* `Entry` and `Filters`: one filter, and all that were entered.
* `Filters.entries`: the filters of one category in the order of entry.
-/

set_option autoImplicit false

namespace CardArchive

/-- How a value takes part in its category. -/
inductive Mode where
  | mustInclude
  | disallow
  | oneOf
deriving DecidableEq

namespace Mode

/-- Every mode, in compile order. -/
def all : List Mode := [mustInclude, disallow, oneOf]

/-- Text of a mode. -/
def text : Mode → String
  | mustInclude => "must_include"
  | disallow => "disallow"
  | oneOf => "one_of"

/-- The mode with the given text. -/
def ofText? (s : String) : Option Mode := all.find? fun m => m.text == s

end Mode

/-- A numeric comparison. -/
inductive Operator where
  | unequal
  | equal
  | less
  | lessEqual
  | greater
  | greaterEqual
deriving DecidableEq

namespace Operator

/-- Every operator. -/
def all : List Operator := [unequal, equal, less, lessEqual, greater, greaterEqual]

/-- Text of an operator. -/
def text : Operator → String
  | unequal => "!="
  | equal => "="
  | less => "<"
  | lessEqual => "<="
  | greater => ">"
  | greaterEqual => ">="

/-- The operator with the given text. -/
def ofText? (s : String) : Option Operator := all.find? fun o => o.text == s

/-- Whether a comparison with this operator holds, given the order of its sides. -/
def holds : Operator → Ordering → Bool
  | unequal, o => o != .eq
  | equal, o => o == .eq
  | less, o => o == .lt
  | lessEqual, o => o != .gt
  | greater, o => o == .gt
  | greaterEqual, o => o != .lt

end Operator

/-- A number of a card that can be compared. -/
inductive Stat where
  | cmc
  | power
  | toughness
  | loyalty
deriving DecidableEq

namespace Stat

/-- Every statistic. -/
def all : List Stat := [cmc, power, toughness, loyalty]

/-- Text of a statistic. -/
def text : Stat → String
  | cmc => "cmc"
  | power => "power"
  | toughness => "toughness"
  | loyalty => "loyalty"

/-- Name of a statistic in messages. -/
def label : Stat → String
  | cmc => "CMC"
  | power => "POWER"
  | toughness => "TOUGHNESS"
  | loyalty => "LOYALTY"

/-- A statistic in a message. -/
def quoted (s : Stat) : String := "<Stat." ++ s.label ++ ": " ++ Text.quoted s.text ++ ">"

/-- The statistic with the given text. -/
def ofText? (s : String) : Option Stat := all.find? fun t => t.text == s

end Stat

/-- A category of filters. -/
inductive Category where
  | name
  | text
  | color
  | colorIdentity
  | supertype
  | type
  | subtype
  | stat
  | statVersusStat
  | manaType
  | set
  | block
  | artist
  | rarity
  | flavorText
deriving DecidableEq

namespace Category

/-- Every category, in compile order. -/
def all : List Category :=
  [name, text, color, colorIdentity, supertype, type, subtype, stat, statVersusStat, manaType,
   set, block, artist, rarity, flavorText]

/-- Label of a category in messages. -/
def label : Category → String
  | name => "name"
  | text => "text"
  | color => "color"
  | colorIdentity => "color_identity"
  | supertype => "supertype"
  | type => "type"
  | subtype => "subtype"
  | stat => "stat"
  | statVersusStat => "stat_versus_stat"
  | manaType => "mana_type"
  | set => "set"
  | block => "block"
  | artist => "artist"
  | rarity => "rarity"
  | flavorText => "flavor_text"

/-- Label of a category in words. -/
def words (c : Category) : String :=
  String.ofList (c.label.toList.map fun ch => if ch = '_' then ' ' else ch)

/-- Whether a category constrains the card; the others constrain the printing. -/
def isCardLevel : Category → Bool
  | set | block | artist | rarity | flavorText => false
  | _ => true

/-- Every category is listed. -/
theorem mem_all (c : Category) : c ∈ all := by
  cases c <;> simp [all]

end Category

/-- One side of a comparison. -/
inductive Term where
  | stat (s : Stat)
  | value (v : Value)

/-- One filter of a category. -/
inductive Entry where
  | value (value : String) (mode : Mode)
  | comparison (left : Term) (operator : Operator) (right : Term)

/-- All filters of a search, in the order of entry. -/
structure Filters where
  recorded : List (Category × Entry)

namespace Filters

/-- No filters. -/
def empty : Filters := ⟨[]⟩

/-- The filters with one more. -/
def add (f : Filters) (c : Category) (e : Entry) : Filters := ⟨f.recorded ++ [(c, e)]⟩

/-- The filters of one category. -/
def entries (f : Filters) (c : Category) : List Entry :=
  f.recorded.filterMap fun r => if r.1 = c then some r.2 else none

/-- Whether nothing was entered. -/
def isEmpty (f : Filters) : Bool := f.recorded.isEmpty

/-- The categories that hold a filter, in compile order. -/
def active (f : Filters) : List Category := Category.all.filter fun c => !(f.entries c).isEmpty

@[simp]
theorem entries_empty (c : Category) : empty.entries c = [] := rfl

/-- A new filter comes last in its own category and changes no other one. -/
theorem entries_add (f : Filters) (c d : Category) (e : Entry) :
    (f.add c e).entries d = if c = d then f.entries d ++ [e] else f.entries d := by
  by_cases h : c = d <;> simp [add, entries, List.filterMap_append, h]

end Filters

end CardArchive
