import CardArchive.Cli.Options
import CardArchive.Search.Basic
import CardArchive.Search.Comparison
import CardArchive.Text.Integer

/-!
# Commands

The program has five commands, each with options of its own. The filters of a
search are given by options: one for each category in each mode, and one for each
kind of comparison.

## What this module delivers

* `Command` and `Invocation`: what a command line asks for.
* `parseInvocation`: the invocation of a list of words, or the line that explains
  the wrong use.
* `SearchOptions.search`: the search that the options of a search describe.
-/

set_option autoImplicit false

namespace CardArchive.Cli

/-- Name of the program. -/
def programName : String := "manaflood"

/-- The file that is fetched and imported unless another is named. -/
def defaultFile : String := "AllPrintings"

/-- Options of a search: filters in the order given, comparisons by kind, the page
and whether the statement is shown. -/
structure SearchOptions where
  filters : List (String × String)
  stats : List String
  versus : List String
  mana : List String
  limit : Int
  offset : Int
  showStatement : Bool

/-- What is to be done. -/
inductive Command where
  | download (file : String) (force : Bool)
  | ingest (file : Option String) (single : Bool)
  | status
  | search (options : SearchOptions)
  | decks
  | nothing

/-- What is to be done, and in which directory. -/
structure Invocation where
  directory : String
  command : Command

/-- The names of the filter options with their categories, in the order in which
the filters are entered. -/
def filterStems : List (String × Category) :=
  [("name", .name), ("text", .text), ("flavor", .flavorText), ("color", .color),
   ("identity", .colorIdentity), ("supertype", .supertype), ("type", .type), ("subtype", .subtype),
   ("set", .set), ("block", .block), ("artist", .artist), ("rarity", .rarity)]

/-- What stands before the name of a filter option in each mode. -/
def modeStems : List (String × Mode) :=
  [("", .mustInclude), ("not-", .disallow), ("any-", .oneOf)]

/-- Name of the option of a filter in a mode. -/
def filterOption (mode stem : String) : String := "--" ++ mode ++ stem

/-- Refuses a text that is no integer or lies below a bound. -/
def atLeast (low : Int) : String → Option String := fun s =>
  match Text.readInteger? s.toList with
  | none => some ("expected an integer, got " ++ Text.quoted s)
  | some n => if n < low then some ("must be at least " ++ toString low ++ ", got " ++ toString n) else none

/-- The options of a search. -/
def searchSpecs : List OptionSpec :=
  helpOption ::
    (filterStems.flatMap fun s => modeStems.map fun m =>
      ⟨[filterOption m.1 s.1], .value anyValue⟩) ++
    [⟨["--stat"], .value anyValue⟩, ⟨["--stat-vs"], .value anyValue⟩,
     ⟨["--mana"], .value anyValue⟩, ⟨["--limit"], .value (atLeast 1)⟩,
     ⟨["--offset"], .value (atLeast 0)⟩, ⟨["--show-sql"], .nothing⟩]

/-- The options of a download. -/
def downloadSpecs : List OptionSpec :=
  [helpOption, ⟨["--file"], .value anyValue⟩, ⟨["--force"], .nothing⟩]

/-- The options of an import. -/
def ingestSpecs : List OptionSpec :=
  [helpOption, ⟨["--file"], .value anyValue⟩, ⟨["--set"], .nothing⟩]

/-- The options of the program itself. -/
def programSpecs : List OptionSpec := [helpOption, ⟨["--data-dir"], .value anyValue⟩]

/-- The integer of an option, with the value it has unless given. -/
def Given.integer (g : Given) (key : String) (fallback : Int) : Int :=
  ((g.last? key).bind fun s => Text.readInteger? s.toList).getD fallback

/-- Number of printings shown unless a limit is given. -/
def defaultLimit : Int := 20

/-- The options of a search. -/
def searchOptions (g : Given) : SearchOptions :=
  ⟨g.options, g.valuesOf "--stat", g.valuesOf "--stat-vs", g.valuesOf "--mana",
   g.integer "--limit" defaultLimit, g.integer "--offset" 0, g.has "--show-sql"⟩

/-- The commands with their options. -/
def commands : List (String × List OptionSpec × (Given → Command)) :=
  [("download", downloadSpecs, fun g =>
      .download ((g.last? "--file").getD defaultFile) (g.has "--force")),
   ("import", ingestSpecs, fun g => .ingest (g.last? "--file") (g.has "--set")),
   ("status", [helpOption], fun _ => .status),
   ("search", searchSpecs, fun g => .search (searchOptions g)),
   ("decks", [helpOption], fun _ => .decks)]

/-- An early end, with the line that explains a wrong use. -/
inductive Stop where
  | help
  | misuse (line : String)
deriving DecidableEq

/-- The line that explains a wrong use of a command. -/
def Refusal.stop (command : String) : Refusal → Stop
  | .help => .help
  | .misuse message => .misuse (command ++ ": error: " ++ message)

/-- The command with a name, and how its words are read. -/
def parseCommand (words : List String) : Except Stop (Command × List String) :=
  match words with
  | [] => .ok (.nothing, [])
  | name :: rest =>
    match commands.find? fun c => c.1 == name with
    | none =>
      .error (.misuse (programName ++ ": error: argument command: invalid choice: " ++
        Text.quoted name ++ " (choose from " ++
        ", ".intercalate (commands.map fun c => Text.quoted c.1) ++ ")"))
    | some (_, specs, build) => do
      let (given, _) ← (read specs false rest).mapError (Refusal.stop (programName ++ " " ++ name))
      pure (build given, given.extras)

/-- The directory of the data unless another is named. -/
def defaultDirectory : String := "./data"

/-- The invocation of a list of words. -/
def parseInvocation (words : List String) : Except Stop Invocation := do
  let (given, command) ← (read programSpecs true words).mapError (Refusal.stop programName)
  let (command, extras) ← parseCommand (command.getD [])
  let left := given.extras ++ extras
  if !left.isEmpty then
    throw (.misuse (programName ++ ": error: unrecognized arguments: " ++ " ".intercalate left))
  pure ⟨(given.last? "--data-dir").getD defaultDirectory, command⟩

/-! ## The search of some options -/

/-- The search with one more filter for each value. -/
def addValues (s : Search) (c : Category) (m : Mode) : List String → Except Failure Search
  | [] => .ok s
  | v :: vs => do
    let s ← s.byValue c (.ofText v) (.mode m)
    addValues s c m vs

/-- The search with the values of one option after the other. -/
def addFilters (o : SearchOptions) (s : Search) :
    List (String × Category × Mode) → Except Failure Search
  | [] => .ok s
  | (name, c, m) :: rest => do
    let values := o.filters.filterMap fun p => if p.1 = name then some p.2 else none
    let s ← addValues s c m values
    addFilters o s rest

/-- Every filter option with its category and mode, in the order of entry. -/
def filterOrder : List (String × Category × Mode) :=
  filterStems.flatMap fun s => modeStems.map fun m => (filterOption m.1 s.1, s.2, m.2)

/-- The integer on the right side of a comparison. -/
def rightInteger (s : String) : Except QueryError Int :=
  match Text.readInteger? s.toList with
  | some n => .ok n
  | none => .error (.integerExpected (Text.quoted s))

/-- The search with comparisons of a statistic with a number. -/
def addStats (s : Search) : List String → Except Failure Search
  | [] => .ok s
  | e :: es => do
    let (l, o, r) ← (parseComparison e).mapError Failure.query
    let n ← (rightInteger r).mapError Failure.query
    let s ← s.byStat (.ofText l) (.operator o) (.value (.int n))
    addStats s es

/-- The search with comparisons of two statistics. -/
def addVersus (s : Search) : List String → Except Failure Search
  | [] => .ok s
  | e :: es => do
    let (l, o, r) ← (parseComparison e).mapError Failure.query
    let s ← s.byStats (.ofText l) (.operator o) (.ofText r)
    addVersus s es

/-- The search with comparisons of the amount of a mana symbol. -/
def addMana (s : Search) : List String → Except Failure Search
  | [] => .ok s
  | e :: es => do
    let (l, o, r) ← (parseComparison e).mapError Failure.query
    let n ← (rightInteger r).mapError Failure.query
    let s ← s.byMana (.ofText l) (.operator o) (.value (.int n))
    addMana s es

/-- The search that some options describe: values first, category by category and
mode by mode, then the comparisons. -/
def SearchOptions.search (o : SearchOptions) (catalog : Catalog) : Except Failure Search := do
  let s ← addFilters o (Search.start catalog) filterOrder
  let s ← addStats s o.stats
  let s ← addVersus s o.versus
  addMana s o.mana

end CardArchive.Cli
