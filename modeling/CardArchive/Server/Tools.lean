import CardArchive.Filter.Basic
import CardArchive.Server.Schema

/-!
# Tools

The server offers six tools. Each has a name, a description and a schema of its
arguments.

## What this module delivers

* `Tool`: the six tools, with `Tool.all`.
* `Tool.name`, `Tool.description`, `Tool.schema`: how a tool is shown.
* `filterNames`: the categories of filters by name.
* `vocabularyNames`: the vocabularies that can be listed.
-/

set_option autoImplicit false

namespace CardArchive

/-- What the server can be asked. -/
inductive Tool where
  | searchCards
  | getCard
  | listVocabulary
  | listDecks
  | getDeck
  | dataStatus
deriving DecidableEq

/-- The categories of the filters of values and words, by name. -/
def filterNames : List (String × Category) :=
  [("name", .name), ("text", .text), ("flavor_text", .flavorText), ("color", .color),
   ("color_identity", .colorIdentity), ("supertype", .supertype), ("type", .type),
   ("subtype", .subtype), ("set", .set), ("block", .block), ("artist", .artist),
   ("rarity", .rarity)]

/-- The vocabularies that can be listed. -/
def vocabularyNames : List String :=
  ["colors", "supertypes", "types", "subtypes", "rarities", "mana_types", "blocks", "artists",
   "sets", "relationship_types"]

/-- Number of printings on a page unless a limit is given. -/
def pageDefault : Int := 20

/-- Largest number of printings on a page. -/
def pageMaximum : Int := 100

/-- A text of any content. -/
def anyText : Schema := .text [] none none

/-- The text of a statistic. -/
def statSchema : Schema := .text (Stat.all.map Stat.text) none none

/-- The text of an operator. -/
def operatorSchema : Schema := .text (Operator.all.map Operator.text) none none

/-- Any integer. -/
def anyInteger : Schema := .integer none none none none

/-- The arguments of a search. -/
def searchSchema : Schema :=
  .object
    [("filters", .list (.object
        [("category", .text (filterNames.map Prod.fst) none none), ("value", anyText),
         ("mode", .text (Mode.all.map Mode.text) none (some Mode.mustInclude.text))]
        ["category", "value"])),
     ("stats", .list (.object
        [("stat", statSchema), ("operator", operatorSchema), ("value", anyInteger)]
        ["stat", "operator", "value"])),
     ("stat_versus_stat", .list (.object
        [("left", statSchema), ("operator", operatorSchema), ("right", statSchema)]
        ["left", "operator", "right"])),
     ("mana", .list (.object
        [("symbol", .text [] (some "Mana symbol such as \x7bU\x7d, \x7b1\x7d or \x7bW/U\x7d") none),
         ("operator", operatorSchema), ("quantity", anyInteger)]
        ["symbol", "operator", "quantity"])),
     ("limit", .integer (some 1) (some pageMaximum)
        (some "Page size, 20 unless given, at most 100") (some pageDefault)),
     ("offset", .integer (some 0) none (some "Printings to skip before the page starts") (some 0)),
     ("include_sql", .boolean (some "Also return the SQL the filters compiled to") (some false))]
    []

namespace Tool

/-- Every tool, in the order shown. -/
def all : List Tool := [searchCards, getCard, listVocabulary, listDecks, getDeck, dataStatus]

/-- Name of a tool. -/
def name : Tool → String
  | searchCards => "search_cards"
  | getCard => "get_card"
  | listVocabulary => "list_vocabulary"
  | listDecks => "list_decks"
  | getDeck => "get_deck"
  | dataStatus => "data_status"

/-- Description of a tool. -/
def description : Tool → String
  | searchCards =>
    "Search Magic: The Gathering printings with structured filters. " ++
    "Each filter has a category, a value and a mode: must_include (value required), " ++
    "disallow (value forbidden) or one_of (at least one one_of value per category). " ++
    "Numeric filters compare stats, two stats, or mana symbol counts."
  | getCard => "Look up one card by its exact name, with printings, stats and related faces."
  | listVocabulary => "List the legal values of a filter vocabulary (colors, types, sets, ...)."
  | listDecks => "List saved decks as id and name."
  | getDeck => "Get a saved deck with its full history of instances."
  | dataStatus =>
    "Report what the local database holds: card and printing counts, " ++
    "the MTGJSON build it came from and whether a newer build exists."

/-- Arguments of a tool. -/
def schema : Tool → Schema
  | searchCards => searchSchema
  | getCard =>
    .object [("name", .text [] (some "Full card name, e.g. 'Air Elemental'") none)] ["name"]
  | listVocabulary => .object [("vocabulary", .text vocabularyNames none none)] ["vocabulary"]
  | listDecks => .object [] []
  | getDeck => .object [("deck_id", anyInteger)] ["deck_id"]
  | dataStatus => .object [] []

/-- The tool with a name. -/
def ofName? (s : String) : Option Tool := all.find? fun t => t.name == s

/-- A tool as it is shown. -/
def toValue (t : Tool) : Value :=
  .object [("name", .text t.name), ("description", .text t.description),
    ("inputSchema", t.schema.toValue)]

end Tool

end CardArchive
