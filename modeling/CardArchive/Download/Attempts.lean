import CardArchive.Download.Record

/-!
# Downloads

A file is fetched in several attempts with growing pauses between them. An attempt
that fails on the way or at the disk is made again and leaves no file behind; any
other failure ends the download, and so does a file that can not be taken away. Once
the file is stored, a new record is written.

## What this module delivers

* `Transfer.attempts`: the attempts at one file.
* `Transfer.download`: a published file by its name.
-/

set_option autoImplicit false

namespace CardArchive.Transfer

/-- Whether an attempt that fails so is made again. -/
def isRetried : Failure → Bool
  | .transfer (.status _) => true
  | .transfer (.interrupted _ _) => true
  | .transfer (.disk _) => true
  | _ => false

/-- Whether a failure is one of the disk. -/
def isOnDisk : Failure → Bool
  | .transfer (.disk _) => true
  | _ => false

/-- The failure of a download whose attempts are used up, after the last one of
them. -/
def exhausted (attempts : Int) (last : Option Failure) : Failure :=
  .transfer (.exhausted attempts ((last.map Failure.message).getD Value.null.shown)
    (last.any isOnDisk))

/-- A pause before an attempt that is not the first one. -/
def pause (number : Nat) : Transfer Unit :=
  modify fun e => { e with pauses := e.pauses ++ [Nat.pow 2 (number - 2)] }

/-- Takes a file away, whether there is one or not. -/
def clear (name : String) : Transfer Unit := do
  reach name
  modify fun e => { e with files := e.files.remove name }

/-- The attempts at a file from the given number on, `left` of them; `last` is how the
one before failed. -/
def attemptsFrom (address name : String) (total : Int) :
    (left number : Nat) → (last : Option Failure) → Transfer Unit
  | 0, _, last => throw (exhausted total last)
  | left + 1, number, last => do
    if last.isSome then pause number
    let outcome ← tryCatch (save address name *> pure none) fun e => pure (some e)
    match outcome with
    | none => pure ()
    | some e =>
      if isRetried e then
        -- also a complete file of an earlier download is gone then
        clear name
        attemptsFrom address name total left (number + 1) (some e)
      else throw e

/-- The attempts at a file: one, and as many more as there are retries. -/
def attempts (address name : String) (retries : Int) : Transfer Unit :=
  attemptsFrom address name (retries + 1) (retries + 1).toNat 1 none

/-- The record of a download at a moment. -/
def newRecord (name : String) (now : Timestamp) (build : Value) : Except ShapeFault Value := do
  let version ← build.memberOf "version"
  let date ← build.memberOf "date"
  pure (.object [("file", .text name), ("downloaded_at", .text now.text), ("version", version),
    ("date", date), ("printing_count", .int 0)])

/-- Records a stored file and its build. -/
def keep (name : String) (now : Timestamp) (build : Value) : Transfer Unit := do
  let record ← ofExcept (shaped (newRecord name now build))
  reach Directory.recordName
  modify fun e => { e with files := e.files.writeRecord record }

/-- Number of retries of a download unless another one is asked for. -/
def defaultRetries : Int := 3

/-- A published file, written into the directory; its stored name. -/
def download (name : String) (retries : Int) (now : Timestamp) : Transfer String := do
  let address ← ofExcept ((fileAddress name).mapError Failure.transfer)
  -- the build is asked for first, and its failure is not retried
  let published ← build
  attempts address (storedName name) retries
  keep (storedName name) now published
  pure (storedName name)

end CardArchive.Transfer
