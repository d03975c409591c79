import CardArchive.Deck.Storage
import CardArchive.Download.Record
import CardArchive.Search.Call
import CardArchive.Server.Tools
import CardArchive.Server.Views
import CardArchive.Store.Matches
import CardArchive.Store.Vocabulary

/-!
# Answers of the server

The server answers calls of its tools from the tables. Whatever a caller can do
wrong comes back as an answer that names the error. The catalog that searches are
checked against is loaded at the first search and kept.

## What this module delivers

* `searchFor`: the search that the arguments of a call describe.
* `Tool` answers: one function for each tool.
* `Server` and `Server.call`: a call of a tool by its name.
* `Server.answer`: a call from outside, whose arguments are checked first.
-/

set_option autoImplicit false

namespace CardArchive

/-- An answer that names an error, with a hint if there is one. -/
def errorAnswer (message : String) (hint : Option String) : Value :=
  .object (("error", .text message) :: (match hint with
    | some h => [("hint", .text h)]
    | none => []))

/-! ## Searches -/

/-- An integer between two bounds; what is no integer counts as the fallback. -/
def clamped (v : Value) (low : Int) (high : Option Int) (fallback : Int) : Int :=
  let n := match v with
    | .int n => n
    | _ => fallback
  match high with
  | some h => min (max low n) h
  | none => max low n

/-- A list among the arguments, empty if it is not given. -/
def listed (args : Value) (field : String) : Except ShapeFault (List Value) := do
  let v ← args.memberOr field (.list [])
  v.elements

/-- A field of an entry as an argument of a filter. -/
def argumentOf (entry : Value) (field : String) : Except ShapeFault Argument :=
  (entry.memberOf field).map Argument.value

/-- The category that an entry names. -/
def categoryOf (entry : Value) : Except Failure Category := do
  let name ← shaped (entry.memberOf "category")
  shaped name.checkHashable
  match name with
  | .text s =>
    match filterNames.find? fun n => n.1 == s with
    | some n => pure n.2
    | none => throw (.query (.unknownCategory name.quoted (filterNames.map Prod.fst)))
  | _ => throw (.query (.unknownCategory name.quoted (filterNames.map Prod.fst)))

/-- The search with the filter that an entry describes. -/
def addFilter (s : Search) (entry : Value) : Except Failure Search := do
  let category ← categoryOf entry
  let value ← shaped (argumentOf entry "value")
  let mode ← shaped (entry.memberOr "mode" (.text Mode.mustInclude.text))
  s.byValue category value (.value mode)

/-- The search with the comparison that the named fields of an entry describe. -/
def addComparison (record : Search → Argument → Argument → Argument → Except Failure Search)
    (left right : String) (s : Search) (entry : Value) : Except Failure Search := do
  let l ← shaped (argumentOf entry left)
  let o ← shaped (argumentOf entry "operator")
  let r ← shaped (argumentOf entry right)
  record s l o r

/-- The search with what each entry adds. -/
def addEntries (add : Search → Value → Except Failure Search) (s : Search) :
    List Value → Except Failure Search
  | [] => .ok s
  | e :: es => do
    let s ← add s e
    addEntries add s es

/-- The search that the arguments of a call describe. -/
def searchFor (catalog : Catalog) (args : Value) : Except Failure Search := do
  let filters ← shaped (listed args "filters")
  let s ← addEntries addFilter (Search.start catalog) filters
  let stats ← shaped (listed args "stats")
  let s ← addEntries (addComparison Search.byStat "stat" "value") s stats
  let versus ← shaped (listed args "stat_versus_stat")
  let s ← addEntries (addComparison Search.byStats "left" "right") s versus
  let mana ← shaped (listed args "mana")
  addEntries (addComparison Search.byMana "symbol" "quantity") s mana

/-- A page of the printings that a search selects, with their number. -/
def searchAnswer (t : Tables) (s : Search) (args : Value) : Except Failure Value := do
  let limit ← shaped (args.memberOf "limit")
  let offset ← shaped (args.memberOf "offset")
  let offset := clamped offset 0 none 0
  let page ← t.page s (clamped limit 1 (some pageMaximum) pageDefault) offset
  let total ← t.count s
  let wanted ← shaped (args.memberOf "include_sql")
  let text ← s.printed?
  pure (.object ([("printings", .list (page.map PrintingRow.listed)), ("total_count", .int total),
    ("offset", .int offset)] ++ (if wanted.truthy then [("sql", .text text)] else [])))

/-- Answer to a search. -/
def answerSearch (catalog : Catalog) (t : Tables) (args : Value) : Except Failure Value :=
  match searchFor catalog args with
  | .ok s => searchAnswer t s args
  | .error (.query e) => .ok (errorAnswer e.message (some e.hint))
  | .error e => .error e

/-! ## The other tools -/

/-- A card by the value that names it. A number finds the card that is stored under
its digits, but only a text finds groups of faces. -/
def detailsFor (t : Tables) (name : Value) : Except Failure (Option CardDetails) := do
  let key ← stored (storedText 1 name)
  let found := key.bind t.details?
  match name with
  | .text _ => pure found
  | _ => pure (found.map fun d => { d with groups := [] })

/-- Answer to the question for a card. -/
def answerCard (t : Tables) (args : Value) : Except Failure Value := do
  let name ← shaped (args.memberOf "name")
  if !name.truthy then pure (errorAnswer "'name' must be provided" none)
  else
    match ← detailsFor t name with
    | some d => pure d.toValue
    | none => pure (errorAnswer "Card not found"
        (some "Try search_cards with a name filter on one word of the card name"))

/-- Answer to the question for a vocabulary. -/
def answerVocabulary (t : Tables) (args : Value) : Except Failure Value := do
  let name ← shaped (args.memberOf "vocabulary")
  shaped name.checkHashable
  let found := match name with
    | .text s => t.vocabulary? s
    | _ => none
  match found with
  | some v =>
    let values ← shaped v.listed
    pure (.object [("vocabulary", name), ("values", .list values)])
  | none => pure (errorAnswer ("Unknown vocabulary: " ++ name.shown)
      (some ("Valid vocabularies: " ++ ", ".intercalate vocabularyNames)))

/-- Answer to the question for the decks. -/
def answerDecks (t : Tables) : Value :=
  .object [("decks", .list (t.deckNames.map fun d =>
    .object [("id", .int d.1), ("name", .text d.2)]))]

/-- Answer to the question for a deck. -/
def answerDeck (t : Tables) (args : Value) : Except Failure Value := do
  match ← shaped (args.memberOf "deck_id") with
  | .int id =>
    match t.deck id with
    | .ok d => pure d.toValue
    | .error (.deck e) => pure (errorAnswer e.message none)
    | .error e => throw e
  | _ => pure (errorAnswer "'deck_id' must be an integer" none)

/-- Answer to the question for the state of the data. -/
def answerStatus (t : Tables) : Transfer Value := do
  let status ← Transfer.status
  pure (.object ((Value.setField "printing_count" (.int t.printings.length) status.fields) ++
    [("card_count", .int t.cards.length)]))

/-! ## Calls -/

/-- The server: the catalog that it has loaded, if it has. -/
structure Server where
  catalog : Option Catalog

namespace Server

/-- The server before the first call. -/
def fresh : Server := ⟨none⟩

/-- The catalog of the server, which loads one if it has none. -/
def load (s : Server) (t : Tables) : Except Failure Catalog :=
  match s.catalog with
  | some c => .ok c
  | none => t.catalog

/-- A call of a search, after which the server has a catalog. Arguments that have no
fields are refused before one is loaded. -/
def search (s : Server) (t : Tables) (args : Value) : Server × Except Failure Value :=
  match shaped (args.memberOf "limit") with
  | .error e => (s, .error e)
  | .ok _ =>
    match s.load t with
    | .ok c => (⟨some c⟩, answerSearch c t args)
    | .error e => (s, .error e)

/-- A call of a tool by its name. -/
def call (s : Server) (t : Tables) (name : String) (args : Value) : Server × Transfer Value :=
  match Tool.ofName? name with
  | some .searchCards =>
    let (s, result) := s.search t args
    (s, Transfer.ofExcept result)
  | some .getCard => (s, Transfer.ofExcept (answerCard t args))
  | some .listVocabulary => (s, Transfer.ofExcept (answerVocabulary t args))
  | some .listDecks => (s, pure (answerDecks t))
  | some .getDeck => (s, Transfer.ofExcept (answerDeck t args))
  | some .dataStatus => (s, answerStatus t)
  | none => (s, pure (errorAnswer ("Unknown tool: " ++ name) none))

/-- Whether the arguments of a call from outside fit the tool; those of an unknown
tool are not checked. -/
def acceptsCall (name : String) (args : Value) : Bool :=
  (Tool.ofName? name).all fun t => t.schema.accepts args

/-- A call from outside: the answer, or nothing if the arguments do not fit or the
call fails. -/
def answer (t : Tables) (name : String) (args : Value) : Transfer (Option Value) :=
  if acceptsCall name args then
    tryCatch (some <$> (fresh.call t name args).2) fun _ => pure none
  else pure none

end Server

end CardArchive
