import CardArchive.Text.Quoted

/-!
# Causes of failure

Every way in which an operation of the archive can fail, by cause. The wording
of each cause is given once, in the function `message` of its type; two causes
are the same failure exactly if they are equal, whatever their wording.

## What this module delivers

* `ShapeFault`: a value that lacks the shape an operation needs.
* `ImportFault`: set data that can be read but not stored.
* `ReadingFault`: text that is no well-formed data.
* `StorageFault`: a row or a transaction that the tables refuse.
* `StatementRefusal`: a statement that is not printed, or that the database does not answer.
* `StatementFault`: a statement tree or a filter that has no text.
* `QueryError`: an argument that a search filter refuses, with a hint.
* `DeckFault`: deck data that breaks a rule of decks.
* `TransferFault`: a file that could not be fetched.
* `Failure`: any of them, with `Failure.message`.
* `shaped` and `stored`: the two faults met most, as failures.
-/

set_option autoImplicit false

namespace CardArchive

open Text (quoted)

/-- A value that lacks the shape an operation needs; `kind` names what it is. -/
inductive ShapeFault where
  | notContainer (kind : String)
  | notIterable (kind : String)
  | notIndexable (kind : String)
  | textIndex
  | listIndex
  | noMember (kind member : String)
  | missingKey (written : String)
  | notInteger (written : String)
  | manyDigits (count : Nat)
  | notConvertible (kind : String)
  | undefinedInteger
  | infiniteInteger
  | largeForFloat
  | largeRatio
  | notText (kind : String)
  | unhashable (kind : String)
  | unordered (left right : String)
  | notGroupable (kind : String)
  | groupedText
  | wrongArgumentCount
deriving DecidableEq

/-- Wording of the refusal to read a number of so many digits. -/
def digitsMessage (count : Nat) : String :=
  "Exceeds the limit (4300 digits) for integer string conversion: value has " ++ toString count ++
    " digits; use sys.set_int_max_str_digits() to increase the limit"

/-- Wording of a shape fault. -/
def ShapeFault.message : ShapeFault → String
  | notContainer k => "argument of type '" ++ k ++ "' is not iterable"
  | notIterable k => "'" ++ k ++ "' object is not iterable"
  | notIndexable k => "'" ++ k ++ "' object is not subscriptable"
  | textIndex => "string indices must be integers, not 'str'"
  | listIndex => "list indices must be integers or slices, not str"
  | noMember k m => "'" ++ k ++ "' object has no attribute '" ++ m ++ "'"
  | missingKey w => w
  | notInteger w => "invalid literal for int() with base 10: " ++ w
  | manyDigits n => digitsMessage n
  | notConvertible k =>
    "int() argument must be a string, a bytes-like object or a real number, not '" ++ k ++ "'"
  | undefinedInteger => "cannot convert float NaN to integer"
  | infiniteInteger => "cannot convert float infinity to integer"
  | largeForFloat => "int too large to convert to float"
  | largeRatio => "integer division result too large for a float"
  | notText k => "expected string or bytes-like object, got '" ++ k ++ "'"
  | unhashable k => "unhashable type: '" ++ k ++ "'"
  | unordered l r =>
    "'<' not supported between instances of '" ++ l ++ "' and '" ++ r ++ "'"
  | notGroupable k => "unsupported format string passed to " ++ k ++ ".__format__"
  | groupedText => "Cannot specify ',' with 's'."
  | wrongArgumentCount => "wrong number of arguments"

/-- Set data that can be read but not stored. -/
inductive ImportFault where
  | missingField (field : String)
  | unnumbered (card set : String)
  | noLayout (card : String)
  | faceCount (card : String) (count : Nat)
  | unknownVocabulary (name : String)
  | noSetObject (path : String)
deriving DecidableEq

/-- Wording of an import fault. -/
def ImportFault.message : ImportFault → String
  | missingField f => "Set object is missing required field '" ++ f ++ "'"
  | unnumbered c s => "Card " ++ c ++ " in " ++ s ++ " has no number or rarity"
  | noLayout c => "Card " ++ c ++ " has related faces but no layout"
  | faceCount c n =>
    "Card " ++ c ++ " has an unsupported number of faces: " ++ toString n
  | unknownVocabulary v => "Unknown vocabulary: " ++ v
  | noSetObject p => "No set object found in " ++ p

/-- Text that is no well-formed data. -/
inductive ReadingFault where
  | noFile (path : String)
  | malformed (reason : String)
  | undecodable
  | tooNested
  | manyDigits (count : Nat)
  | malformedStream
  | badTimestamp (written : String)
  | notTimestamp
deriving DecidableEq

/-- Wording of a reading fault. -/
def ReadingFault.message : ReadingFault → String
  | noFile p => "[Errno 2] No such file or directory: " ++ quoted p
  | malformed r => r
  | undecodable => "'utf-8' codec can't decode the file"
  | tooNested => "maximum recursion depth exceeded while decoding JSON"
  | manyDigits n => digitsMessage n
  | malformedStream => "parse error: premature EOF"
  | badTimestamp w => "Invalid isoformat string: " ++ w
  | notTimestamp => "fromisoformat: argument must be str"

/-- A row or a transaction that the tables refuse. -/
inductive StorageFault where
  | brokenReference
  | duplicateKey (table : String) (columns : List String)
  | missingValue (table column : String)
  | outsideWord
  | unstorable (position : Nat) (kind : String)
  | largeSum
  | alreadyOpen
deriving DecidableEq

/-- Wording of a storage fault. -/
def StorageFault.message : StorageFault → String
  | brokenReference => "FOREIGN KEY constraint failed"
  | duplicateKey t cs =>
    "UNIQUE constraint failed: " ++ ", ".intercalate (cs.map fun c => t ++ "." ++ c)
  | missingValue t c => "NOT NULL constraint failed: " ++ t ++ "." ++ c
  | outsideWord => "integer too large to be stored"
  | unstorable p k =>
    "Error binding parameter " ++ toString p ++ ": type '" ++ k ++ "' is not supported"
  | largeSum => "integer overflow"
  | alreadyOpen => "cannot start a transaction within a transaction"

/-- What keeps the statement of a search from being printed or answered. -/
inductive StatementRefusal where
  | longInteger
  | longStatement
  | nullCharacter
  | deepCondition (limit : Nat)
  | manySources (limit : Nat)
  | manyJoins (limit : Nat)
  | longPattern
deriving DecidableEq

/-- Wording of a refusal. -/
def StatementRefusal.message : StatementRefusal → String
  | longInteger =>
    "Exceeds the limit (4300 digits) for integer string conversion; " ++
      "use sys.set_int_max_str_digits() to increase the limit"
  | longStatement => "query string is too large"
  | nullCharacter => "the query contains a null character"
  | deepCondition n => "Expression tree is too large (maximum depth " ++ toString n ++ ")"
  | manySources n => "too many FROM clause terms, max: " ++ toString n
  | manyJoins n => "at most " ++ toString n ++ " tables in a join"
  | longPattern => "LIKE or GLOB pattern too complex"

/-- A statement tree or a filter that has no text. -/
inductive StatementFault where
  | unsupportedLiteral (written : String)
  | emptyConjunction
  | emptyDisjunction
  | emptyIntersection
  | expectedValue
  | expectedComparison
  | noValues
deriving DecidableEq

/-- Wording of a statement fault. -/
def StatementFault.message : StatementFault → String
  | unsupportedLiteral w => "Unsupported literal: " ++ w
  | emptyConjunction => "Empty conjunction"
  | emptyDisjunction => "Empty disjunction"
  | emptyIntersection => "Empty INTERSECT"
  | expectedValue => "Expected a value"
  | expectedComparison => "Expected a comparison"
  | noValues => "Category marked active but holds no values"

/-- An argument that a search filter refuses. Written forms are quoted already. -/
inductive QueryError where
  | unknownMode (written : String)
  | unknownStat (written : String) (valid : List String)
  | unknownOperator (written : String) (valid : List String)
  | notInteger (what written : String)
  | missingWord
  | wordNotText (written : String)
  | emptyWord
  | blankInWord (written : String)
  | badSymbol (written : String)
  | missingValue (category : String)
  | unsupported (what written : String) (known : List String)
  | sameStat (stat : String)
  | badComparison (written : String)
  | integerExpected (written : String)
  | unknownCategory (written : String) (valid : List String)
deriving DecidableEq

/-- What is wrong with the argument. -/
def QueryError.message : QueryError → String
  | unknownMode w => "Invalid inclusion mode: " ++ w
  | unknownStat w _ => "Unknown stat: " ++ w
  | unknownOperator w _ => "Unknown comparison operator: " ++ w
  | notInteger what w => what ++ " must be an integer, got " ++ w
  | missingWord => "Search word can't be null"
  | wordNotText w => "Search word must be a string, got " ++ w
  | emptyWord => "Search word can't be empty"
  | blankInWord w => "Search word can't contain whitespace: " ++ w
  | badSymbol w => "Invalid mana symbol: " ++ w
  | missingValue c => c ++ " value can't be null"
  | unsupported what w _ => "Unsupported " ++ what ++ ": " ++ w
  | sameStat s => "Can't compare " ++ s ++ " with itself"
  | badComparison w => "Invalid comparison: " ++ w
  | integerExpected w => "Expected an integer, got " ++ w
  | unknownCategory w _ => "Unknown filter category: " ++ w

/-- Number of known values that a hint shows. -/
def shownValues : Nat := 10

/-- How to mend the argument. -/
def QueryError.hint : QueryError → String
  | unknownMode _ => "Use must_include, disallow or one_of"
  | unknownStat _ valid => "Valid stats: " ++ ", ".intercalate valid
  | unknownOperator _ valid => "Valid operators: " ++ ", ".intercalate valid
  | missingWord | emptyWord => "Pass a non-empty word"
  | blankInWord _ => "Add each word with its own call"
  | badSymbol _ => "Use a symbol such as \x7bU\x7d or \x7b1\x7d"
  | unsupported _ _ known =>
    "Known values: " ++ ", ".intercalate (known.take shownValues) ++
      (if shownValues < known.length then ", ..." else "")
  | sameStat _ => "Pick two different stats"
  | badComparison _ => "Use the form power>3, power>=toughness or \x7bU\x7d>=2"
  | unknownCategory _ valid => "Valid categories: " ++ ", ".intercalate valid
  | notInteger _ _ | wordNotText _ | missingValue _ | integerExpected _ =>
    "Check the value and try again"

/-- Deck data that breaks a rule of decks. -/
inductive DeckFault where
  | noCreation
  | badQuantity (card : String)
  | uncategorized (card : String)
  | noName
  | noDescription
  | noHistory
  | unknownDeck (id : String)
  | idTaken (id : Int)
  | creationTaken (id creation : String)
  | unknownPrinting (card set number : String)
deriving DecidableEq

/-- Wording of a deck fault. -/
def DeckFault.message : DeckFault → String
  | noCreation => "Deck instance creation time must be a datetime"
  | badQuantity c => "Quantity of " ++ c ++ " must be a positive integer"
  | uncategorized c => c ++ " is not in any category"
  | noName => "Deck name can't be empty"
  | noDescription => "Deck description can't be null"
  | noHistory => "A deck must have at least one instance in its history"
  | unknownDeck id => "No deck with id " ++ id
  | idTaken id => "Deck id " ++ toString id ++ " is already in use"
  | creationTaken id c => "Deck " ++ id ++ " already has an instance created at " ++ c
  | unknownPrinting c s n => "Unknown printing: " ++ c ++ " (" ++ s ++ " #" ++ n ++ ")"

/-- A file that could not be fetched. -/
inductive TransferFault where
  | status (reason : String)
  | interrupted (kind reason : String)
  | disk (reason : String)
  | noLocation
  | foreignRedirect (target : String)
  | badAddress (reason : String)
  | tooManyRedirects (limit : Nat)
  | badName (name : String)
  | exhausted (attempts : Int) (last : String) (onDisk : Bool)
deriving DecidableEq

/-- Wording of a transfer fault. -/
def TransferFault.message : TransferFault → String
  | status r => r
  | interrupted _ r => r
  | disk r => r
  | noLocation => "Redirect response missing location header"
  | foreignRedirect t => "Redirect to non-allowed domain: " ++ t
  | badAddress r => r
  | tooManyRedirects n => "Too many redirects (max " ++ toString n ++ ")"
  | badName n => "Invalid MTGJSON file name: " ++ n
  | exhausted n last _ =>
    "Download failed after " ++ toString n ++ " attempts: " ++ last

/-- Any failure of an operation of the archive. -/
inductive Failure where
  | shape (fault : ShapeFault)
  | ingest (fault : ImportFault)
  | reading (fault : ReadingFault)
  | storage (fault : StorageFault)
  | statement (fault : StatementFault)
  | refused (cause : StatementRefusal)
  | query (error : QueryError)
  | deck (fault : DeckFault)
  | transfer (fault : TransferFault)
  /-- A vocabulary that could not be loaded, with the wording of the cause. -/
  | catalog (vocabulary reason : String)
deriving DecidableEq

/-- Wording of a failure. -/
def Failure.message : Failure → String
  | shape f => f.message
  | ingest f => f.message
  | reading f => f.message
  | storage f => f.message
  | statement f => f.message
  | refused r => r.message
  | query e => e.message ++ ". Hint: " ++ e.hint
  | deck f => f.message
  | transfer f => f.message
  | catalog v r => "Failed to load vocabulary '" ++ v ++ "': " ++ r

/-- A reading that can fail for the shape of a value. -/
def shaped {α : Type} (r : Except ShapeFault α) : Except Failure α := r.mapError Failure.shape

/-- An access to the tables that can be refused. -/
def stored {α : Type} (r : Except StorageFault α) : Except Failure α := r.mapError Failure.storage

@[simp]
theorem shaped_ok {α : Type} (a : α) : shaped (.ok a) = .ok a := rfl

@[simp]
theorem stored_ok {α : Type} (a : α) : stored (.ok a) = .ok a := rfl

end CardArchive
