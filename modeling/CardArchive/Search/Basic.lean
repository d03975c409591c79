import CardArchive.Catalog
import CardArchive.Filter.Compose
import CardArchive.Text.Integer
import CardArchive.Text.UpperCase

/-!
# Searches

A search collects filters over a catalog. Each filter is checked when it is
added: words are not empty and hold no blank, values belong to the vocabulary of
their category, and numbers are numbers. A refused filter leaves the search as it
was, and the error says how to mend it.

## What this module delivers

* `Argument`: what a filter can be given.
* `Search`: a catalog and the filters entered.
* `Search.byValue`: a filter of any category of words or values.
* `Search.byStat`, `Search.byStats`, `Search.byMana`: the numeric filters.
* `Search.text?`: the statement of the search, and `Search.printed?`, which does not
  print numbers of too many digits.
-/

set_option autoImplicit false

namespace CardArchive

/-- What a filter can be given: a value, or a member of one of the vocabularies of
filters. -/
inductive Argument where
  | value (v : Value)
  | mode (m : Mode)
  | operator (o : Operator)
  | stat (s : Stat)

/-- Name of a mode in messages. -/
def Mode.label : Mode → String
  | mustInclude => "MUST_INCLUDE"
  | disallow => "DISALLOW"
  | oneOf => "ONE_OF"

/-- Name of an operator in messages. -/
def Operator.label : Operator → String
  | unequal => "UNEQUAL"
  | equal => "EQUAL"
  | less => "LESS"
  | lessEqual => "LESS_EQUAL"
  | greater => "GREATER"
  | greaterEqual => "GREATER_EQUAL"

/-- An argument in a message. -/
def Argument.quoted : Argument → String
  | value v => v.quoted
  | mode m => "<InclusionMode." ++ m.label ++ ": " ++ Text.quoted m.text ++ ">"
  | operator o => "<Comparison." ++ o.label ++ ": " ++ Text.quoted o.text ++ ">"
  | stat s => s.quoted

/-- An argument that is the given text. -/
def Argument.ofText (s : String) : Argument := .value (.text s)

namespace Search

/-! ## Checks of one argument -/

/-- The mode that an argument stands for; a truth value means required or
forbidden. -/
def checkMode : Argument → Except QueryError Mode
  | .mode m => .ok m
  | .value (.bool b) => .ok (if b then .mustInclude else .disallow)
  | .value (.text s) =>
    match Mode.ofText? s with
    | some m => .ok m
    | none => .error (.unknownMode (Text.quoted s))
  | a => .error (.unknownMode a.quoted)

/-- The statistic that an argument stands for, in upper or lower case. -/
def checkStat : Argument → Except QueryError Stat
  | .stat s => .ok s
  | .value (.text s) =>
    match Stat.ofText? (Text.lowerAscii s) with
    | some t => .ok t
    | none => .error (.unknownStat (Text.quoted s) (Stat.all.map Stat.text))
  | a => .error (.unknownStat a.quoted (Stat.all.map Stat.text))

/-- The operator that an argument stands for. -/
def checkOperator : Argument → Except QueryError Operator
  | .operator o => .ok o
  | .value (.text s) =>
    match Operator.ofText? s with
    | some o => .ok o
    | none => .error (.unknownOperator (Text.quoted s) (Operator.all.map Operator.text))
  | a => .error (.unknownOperator a.quoted (Operator.all.map Operator.text))

/-- The integer that an argument is; a truth value is none. -/
def checkInteger (what : String) : Argument → Except QueryError Int
  | .value (.int n) => .ok n
  | a => .error (.notInteger what a.quoted)

/-- The word that an argument is: a text that is not empty and holds no blank. -/
def checkWord : Argument → Except QueryError String
  | .value .null => .error .missingWord
  | .value (.text s) =>
    if s.isEmpty then .error .emptyWord
    else if s.toList.any Text.isBlank then .error (.blankInWord (Text.quoted s))
    else .ok s
  | a => .error (.wordNotText a.quoted)

/-- The mana symbol that an argument stands for, in upper case and in braces. -/
def checkSymbol : Argument → Except QueryError String
  | .value (.text s) =>
    if s.isEmpty then .error (.badSymbol (Text.quoted s))
    else
      let upper := (Text.upper s).toList
      .ok (if upper.head? = some '\x7b' then String.ofList upper
        else String.ofList ('\x7b' :: upper ++ ['\x7d']))
  | a => .error (.badSymbol a.quoted)

/-- Whether an argument is missing. -/
def isMissing : Argument → Bool
  | .value .null => true
  | _ => false

/-- Whether an argument belongs to a vocabulary, and as which text. -/
def member? (catalog : Catalog) (vocabulary : String) (a : Argument) :
    Except Failure (Option String) :=
  match a with
  | .value v => do
    let found ← (catalog.contains vocabulary v).mapError Failure.shape
    match found, v with
    | true, .text s => pure (some s)
    | _, _ => pure none
  | _ => do
    let _ ← (catalog.contains vocabulary .null).mapError Failure.shape
    pure none

/-- The text of an argument that belongs to a vocabulary; `what` names it in the
error. -/
def checkMember (catalog : Catalog) (vocabulary what : String) (a : Argument) :
    Except Failure String := do
  match ← member? catalog vocabulary a with
  | some s => pure s
  | none =>
    let known ← (catalog.values vocabulary).mapError Failure.shape
    throw (.query (.unsupported what a.quoted known))

end Search

/-- A catalog and the filters entered. -/
structure Search where
  catalog : Catalog
  filters : Filters

namespace Search

/-- The search without filters. -/
def start (catalog : Catalog) : Search := ⟨catalog, Filters.empty⟩

/-- The search with one more filter. -/
def record (s : Search) (c : Category) (e : Entry) : Search := ⟨s.catalog, s.filters.add c e⟩

/-- The search without its filters. -/
def clear (s : Search) : Search := ⟨s.catalog, Filters.empty⟩

/-- Whether no filter was entered. -/
def isEmpty (s : Search) : Bool := s.filters.isEmpty

/-- The vocabulary of the values of a category; the others take words or numbers. -/
def vocabularyOf? : Category → Option String
  | .color | .colorIdentity => some "colors"
  | .supertype => some "supertypes"
  | .type => some "types"
  | .subtype => some "subtypes"
  | .set => some "sets"
  | .block => some "blocks"
  | .artist => some "artists"
  | .rarity => some "rarities"
  | _ => none

/-- A filter on a word in the name, the text or the flavor text. -/
def byWord (s : Search) (c : Category) (word mode : Argument) : Except Failure Search := do
  let word ← (checkWord word).mapError Failure.query
  let mode ← (checkMode mode).mapError Failure.query
  pure (s.record c (.value word mode))

/-- A filter on a value of a vocabulary. -/
def byMember (s : Search) (c : Category) (vocabulary : String) (value mode : Argument) :
    Except Failure Search := do
  if isMissing value then throw (.query (.missingValue c.label))
  -- a bad mode is named before a bad value
  let mode ← (checkMode mode).mapError Failure.query
  let member ← checkMember s.catalog vocabulary c.words value
  pure (s.record c (.value member mode))

/-- A filter on a word or a value, as its category asks for. -/
def byValue (s : Search) (c : Category) (value mode : Argument) : Except Failure Search :=
  match vocabularyOf? c with
  | some vocabulary => s.byMember c vocabulary value mode
  | none => s.byWord c value mode

/-- A filter that compares a statistic with an integer. -/
def byStat (s : Search) (stat operator value : Argument) : Except Failure Search := do
  let stat ← (checkStat stat).mapError Failure.query
  let operator ← (checkOperator operator).mapError Failure.query
  let value ← (checkInteger "Stat value" value).mapError Failure.query
  pure (s.record .stat (.comparison (.stat stat) operator (.value (.int value))))

/-- A filter that compares two different statistics of a card. -/
def byStats (s : Search) (left operator right : Argument) : Except Failure Search := do
  let left ← (checkStat left).mapError Failure.query
  let operator ← (checkOperator operator).mapError Failure.query
  let right ← (checkStat right).mapError Failure.query
  if left = right then throw (.query (.sameStat left.text))
  pure (s.record .statVersusStat (.comparison (.stat left) operator (.stat right)))

/-- A filter that compares the amount of a mana symbol in the cost. -/
def byMana (s : Search) (symbol operator quantity : Argument) : Except Failure Search := do
  let symbol ← (checkSymbol symbol).mapError Failure.query
  let operator ← (checkOperator operator).mapError Failure.query
  let quantity ← (checkInteger "Mana quantity" quantity).mapError Failure.query
  -- the catalog is asked last, so a bad quantity is named first
  let symbol ← checkMember s.catalog "mana_types" "mana symbol" (.ofText symbol)
  pure (s.record .manaType
    (.comparison (.value (.text symbol)) operator (.value (.int quantity))))

/-- The statement of the search. -/
def statement? (s : Search) : Except Failure Select := statement s.catalog.blocks s.filters

/-- The text of the statement of the search. -/
def text? (s : Search) : Except Failure String := compose s.catalog.blocks s.filters

end Search

/-- Whether the number that a filter compares with has few enough digits to be printed. -/
def Entry.isPrintable : Entry → Bool
  | .comparison _ _ (.value (.int n)) => n.natAbs < Nat.pow 10 Text.digitLimit
  | _ => true

/-- Whether all numbers of a search can be printed. -/
def Filters.arePrintable (f : Filters) : Bool := f.recorded.all fun r => r.2.isPrintable

/-- The text of the statement of the search as it is printed. -/
def Search.printed? (s : Search) : Except Failure String := do
  let text ← s.text?
  if s.filters.arePrintable then pure text else throw (.refused .longInteger)

end CardArchive
