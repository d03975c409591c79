import CardArchive.Cli.Command
import CardArchive.Cli.Path
import CardArchive.Cli.Size
import CardArchive.Deck.Storage
import CardArchive.Download.Attempts
import CardArchive.Store.Matches
import CardArchive.Store.SetFile
import CardArchive.Store.Vocabulary

/-!
# Running commands

A command works in one directory, which holds the data files, the record of the
last download and the database. What it prints is collected, also if it fails
later.

## What this module delivers

* `Place` and `Places`: directories with their files and tables.
* `Console`: computations that print and change a place.
* `download`, `ingest`, `showStatus`, `search`, `listDecks`: the commands.
* `run`: the outcome of a list of words.
-/

set_option autoImplicit false

namespace CardArchive.Cli

/-- A directory with its files and the tables of its database. -/
structure Place where
  files : Directory
  tables : Tables

/-- The directories by their paths. -/
abbrev Places := List (String × Place)

/-- The place at a path; a new one is empty. -/
def Places.get (places : Places) (path : String) : Place :=
  (valueOf? (reachedPath path) places).getD ⟨Directory.empty, Tables.empty⟩

/-- The places with another one at a path. -/
def Places.put (places : Places) (path : String) (place : Place) : Places :=
  putKey (reachedPath path) place places

/-- What stands at a path. -/
def Places.find? (places : Places) (path : String) : Option Content :=
  let (directory, name) := splitPath path
  (valueOf? (reachedPath directory) places).bind fun p => p.files.find? name

/-- A place at work, with the answers still to come from outside and the text
printed so far. -/
structure Desk where
  place : Place
  replies : List Reply
  output : String

/-- A computation that prints and changes a place. What it did stays done if it
fails. -/
abbrev Console (α : Type) := ExceptT Failure (StateM Desk) α

/-- Prints a text. -/
def print (s : String) : Console Unit := modify fun d => { d with output := d.output ++ s }

/-- Prints a text and ends the line. -/
def printLine (s : String) : Console Unit := print (s ++ "\n")

/-- A result that prints nothing. -/
def need {α : Type} : Except Failure α → Console α
  | .ok a => pure a
  | .error e => throw e

/-! ## Numbers in a text -/

/-- A whole number in groups of three digits. -/
def countText (n : Nat) : String := Number.grouped n

/-- A value as a number in groups of three digits. -/
def groupedValue : Value → Except ShapeFault String
  | .int n => .ok (Number.grouped n)
  | .bool b => .ok (if b then "1" else "0")
  | .float x => .ok (Number.groupedShown x)
  | .text _ => .error .groupedText
  | v => .error (.notGroupable v.kind)

/-- A text with blanks after it up to a width. -/
def padRight (width : Nat) (s : String) : String :=
  s ++ String.ofList (List.replicate (width - s.length) ' ')

/-- A text with blanks before it up to a width. -/
def padLeft (width : Nat) (s : String) : String :=
  String.ofList (List.replicate (width - s.length) ' ') ++ s

/-! ## Transfers at a place -/

/-- The outcome of a transfer in the directory of a place, and the progress that it
reported. -/
def transferred {α : Type} (work : Transfer α) : Console (Except Failure α × List (Nat × Int)) := do
  let desk ← get
  let (result, exchange) := work.run.run (Exchange.start desk.replies desk.place.files)
  set { desk with
    place := { desk.place with files := exchange.files }
    replies := exchange.replies }
  pure (result, exchange.progress)

/-- A transfer without progress. -/
def transfer {α : Type} (work : Transfer α) : Console α := do
  let (result, _) ← transferred work
  need result

/-- Prints a bar for each step of the progress. -/
def printProgress : List (Nat × Int) → Console Unit
  | [] => pure ()
  | (n, total) :: rest => do
    let bar ← need (shaped (progressBar n total barWidth))
    print bar
    printProgress rest

/-! ## Import -/

/-- Prints a line for each set that was taken in. -/
def printImport : List (Nat × Nat) → Console Unit
  | [] => pure ()
  | (sets, printings) :: rest => do
    print ("\r  Importing... " ++ countText sets ++ " sets, " ++ countText printings ++ " printings")
    printImport rest

/-- Takes in a file; the number of new printings. -/
def importFile (path content : String) (single : Bool) : Console Nat := do
  let desk ← get
  let db : Database := ⟨desk.place.tables, false⟩
  if single then
    let (db, result) := db.importSet path content
    set { desk with place := { desk.place with tables := db.tables } }
    need result
  else
    let run := db.importSets content
    set { desk with place := { desk.place with tables := run.database.tables } }
    printImport run.progress
    need run.result

/-- Puts a number of printings into the record. -/
def recordCount (count : Nat) : Console Unit := do
  let desk ← get
  let files ← need (desk.place.files.updateCount (.int count))
  set { desk with place := { desk.place with files := files } }

/-- Prints how many printings an import brought. -/
def printImported (total : Nat) : Console Unit :=
  printLine ("\nImported " ++ countText total ++ " printings.")

/-- Prints which file is taken in, and its size in bytes. -/
def printLoading (path : String) (size : Nat) : Console Unit :=
  printLine ("Loading " ++ (splitPath path).2 ++ " (" ++ formatSizeOf (Float.ofNat size) ++ ")")

/-- Size of a directory as it is shown. -/
def folderSize : Nat := 4096

/-- Takes in what is known to be there. -/
def ingestFile (path : String) (content : Content) (single : Bool) : Console Unit :=
  match content with
  | .text s => do
    printLoading path s.utf8ByteSize
    let total ← importFile path s single
    printImported total
    recordCount total
  | .bytes b => do
    printLoading path b.length
    throw (.reading .malformedStream)
  | .folder => do
    printLoading path folderSize
    throw (.transfer (Transfer.refusal .folder))

/-- Takes in the named file, or the newest one of the directory. -/
def ingest (places : Places) (directory : String) (file : Option String) (single : Bool) :
    Console Unit := do
  let desk ← get
  match file.map normalPath <|> desk.place.files.newest?.map (joinPath directory) with
  | none =>
    printLine "Error: No JSON data file found in data directory."
    printLine "Run 'manaflood download' first."
  | some path =>
    match places.find? path with
    | none => printLine ("Error: File not found: " ++ path)
    | some content => ingestFile path content single

/-! ## Download -/

/-- A moment as it is shown, if it is known. -/
def shownMoment (t : Option Timestamp) : String := (t.map Timestamp.shown).getD Value.null.shown

/-- Whether the data is current; if it is, prints so. -/
def isCurrent : Console Bool := do
  printLine "Comparing local data with the published MTGJSON build..."
  if ← transfer Transfer.isStale then pure false
  else
    let status ← transfer Transfer.status
    let count ← need (shaped (groupedValue status.printingCount))
    printLine ("Data is already up to date (" ++ count ++ " printings, fetched " ++
      shownMoment status.lastUpdated ++ ").")
    printLine "Pass --force to fetch it again."
    pure true

/-- Fetches a file and takes it in. -/
def fetch (directory name : String) (now : Timestamp) : Console Unit := do
  printLine ("Fetching " ++ storedName name ++ " from MTGJSON")
  let (result, progress) ← transferred (Transfer.download name Transfer.defaultRetries now)
  printProgress progress
  let stored ← need result
  let path := joinPath directory stored
  printLine ("\nSaved " ++ path ++ "\n")
  let desk ← get
  let total ← importFile path ((desk.place.files.read? stored).getD "") (name != defaultFile)
  recordCount total
  printImported total

/-- Prints how a computation fails. -/
def reported (work : Console Unit) : Console Unit :=
  tryCatch work fun e => do
    printLine ("\nError: " ++ e.message)
    throw e

/-- Fetches a file unless the data is current, and takes it in. -/
def download (directory name : String) (force : Bool) (now : Timestamp) : Console Unit :=
  reported do
    let current ← if force then pure false else isCurrent
    if !current then fetch directory name now

/-! ## Status, searches and decks -/

/-- Width of the labels of the status. -/
def labelWidth : Nat := 14

/-- Prints what is known of the data. -/
def showStatus : Console Unit := do
  let status ← transfer Transfer.status
  let count ← need (shaped (groupedValue status.printingCount))
  let rows := [("Last updated", (status.lastUpdated.map Timestamp.shown).getD "Never"),
    ("Printings", count), ("Version", (status.version.orElse (.text "Unknown")).shown),
    ("Stale", if status.isStale then "Yes" else "No")]
  printLine "ManaFlood Data Status"
  printLine "========================================"
  printLine ("\n".intercalate (rows.map fun r => "  " ++ padRight labelWidth (r.1 ++ ":") ++ r.2))
  if status.isStale then printLine "\nRun 'manaflood download' to refresh."

/-- A printing in the list of a search. -/
def printingLine (r : PrintingRow) : String :=
  r.card ++ "  [" ++ r.expansion ++ " #" ++ r.number ++ ", " ++ r.rarity ++ "]\n"

/-- Prints a page of the printings that a search selects. -/
def showMatches (s : Search) (options : SearchOptions) : Console Unit := do
  let desk ← get
  if options.showStatement then
    let text ← need s.printed?
    printLine (text ++ "\n")
  let page ← need (desk.place.tables.page s options.limit options.offset)
  let total ← need (desk.place.tables.count s)
  print (String.join (page.map printingLine))
  printLine ("\n" ++ toString page.length ++ " of " ++ countText total ++ " printings shown.")

/-- Prints the decks. -/
def listDecks : Console Unit := do
  let desk ← get
  let decks := desk.place.tables.deckNames
  if decks.isEmpty then printLine "No decks saved."
  print (String.join (decks.map fun d => "  " ++ padLeft 4 (toString d.1) ++ "  " ++ d.2 ++ "\n"))

/-! ## Whole runs -/

/-- What a run leaves: the text it printed, the last words of its complaint, its exit
code if it gave one, and the failure that ended it. -/
structure Outcome where
  output : String
  complaint : String
  exit : Option Nat
  failure : Option Failure

/-- What is printed on a call for help, or without a command. -/
def helpText : String :=
  "usage: " ++ programName ++ " [-h] [--data-dir DATA_DIR] \x7b" ++
    ",".intercalate (commands.map Prod.fst) ++ "\x7d ...\n"

/-- A search; arguments that a filter refuses are complained about. -/
def search (options : SearchOptions) : Console (Option QueryError) := do
  let desk ← get
  let catalog ← need desk.place.tables.catalog
  match options.search catalog with
  | .ok s => showMatches s options *> pure none
  | .error (.query e) => pure (some e)
  | .error e => throw e

/-- The computation of a command, with the exit code and the complaint that it ends
with. -/
def perform (places : Places) (directory : String) (now : Timestamp) :
    Command → Console (Option Nat × String)
  | .download file force => download directory file force now *> pure (none, "")
  | .ingest file single => ingest places directory file single *> pure (none, "")
  | .status => showStatus *> pure (none, "")
  | .search options => do
    match ← search options with
    | none => pure (some 0, "")
    | some e => pure (some 2, "Error: " ++ (Failure.query e).message)
  | .decks => listDecks *> pure (none, "")
  | .nothing => print helpText *> pure (none, "")

/-- The outcome of an invocation, and the places after it. -/
def invoke (places : Places) (replies : List Reply) (now : Timestamp) (i : Invocation) :
    Places × Outcome :=
  let directory := normalPath i.directory
  let place := places.get directory
  let places := places.put directory place
  let (result, desk) := (perform places directory now i.command).run.run ⟨place, replies, ""⟩
  let places := places.put directory desk.place
  match result with
  | .ok (exit, complaint) => (places, ⟨desk.output, complaint, exit, none⟩)
  | .error e => (places, ⟨desk.output, "", none, some e⟩)

/-- The outcome of a list of words, and the places after it. -/
def run (places : Places) (replies : List Reply) (now : Timestamp) (words : List String) :
    Places × Outcome :=
  match parseInvocation words with
  | .ok i => invoke places replies now i
  | .error .help => (places, ⟨helpText, "", some 0, none⟩)
  | .error (.misuse line) => (places, ⟨"", line, some 2, none⟩)

end CardArchive.Cli
