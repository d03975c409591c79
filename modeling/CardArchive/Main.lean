import CardArchive.Cli.Run

/-!
# The program

The command line over the files of a directory. The program has no connection to
the outside and starts with an empty database; it reads the record of the last
download, the default file and the file that an import names, and writes back the
record.

## What this module delivers

* `main`: one run of the program.
-/

set_option autoImplicit false

namespace CardArchive.Cli

/-- Content of a file, if it can be read. -/
def contentOf? (path : String) : IO (Option String) := do
  try
    let s ← IO.FS.readFile path
    pure (some s)
  catch _ => pure none

/-- The paths of the files that an invocation may read. -/
def readPaths (i : Invocation) : List String :=
  let named := match i.command with
    | .ingest (some file) _ => [normalPath file]
    | _ => []
  let directory := normalPath i.directory
  [joinPath directory Directory.recordName, joinPath directory (storedName defaultFile)] ++ named

/-- The places with the file at a path, if it can be read. -/
def withFile (places : Places) (path : String) : IO Places := do
  match ← contentOf? path with
  | none => pure places
  | some content =>
    let (directory, name) := splitPath path
    let place := places.get directory
    pure (places.put directory { place with files := place.files.write name content })

/-- The places that an invocation reads from. -/
def placesFor (words : List String) : IO Places :=
  match parseInvocation words with
  | .ok i => (readPaths i).foldlM withFile []
  | .error _ => pure []

/-- Writes the record of a directory, if there is one. -/
def writeRecordOf (directory : String) (p : Place) : IO Unit := do
  match p.files.read? Directory.recordName with
  | none => pure ()
  | some content =>
    IO.FS.createDirAll directory
    IO.FS.writeFile (joinPath directory Directory.recordName) content

/-- The moment that no clock tells. -/
def noMoment : Timestamp := ⟨1970, 1, 1, 0, 0, 0, 0, some 0, false⟩

end CardArchive.Cli

open CardArchive Cli in
/-- Runs the program on the words of the command line; its exit code. -/
def main (words : List String) : IO UInt32 := do
  let places ← placesFor words
  let (places, outcome) := run places [] noMoment words
  places.forM fun p => writeRecordOf p.1 p.2
  IO.print outcome.output
  let complaint := match outcome.failure with
    | some e => e.message
    | none => outcome.complaint
  if !complaint.isEmpty then IO.eprintln complaint
  pure (UInt32.ofNat (outcome.exit.getD (if outcome.failure.isSome then 1 else 0)))
