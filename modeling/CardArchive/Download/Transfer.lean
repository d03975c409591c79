import CardArchive.Address.Basic
import CardArchive.Download.Directory
import CardArchive.Download.FileName
import CardArchive.Json.Limits
import CardArchive.Text.UpperCase
import CardArchive.Value.Access

/-!
# Transfers

Files are requested from one trusted host only. A redirect is followed by hand, so
that every address is checked before it is requested, and only a limited number of
requests is made for one file.

## What this module delivers

* `Response`, `Reply` and `Exchange`: what the other side answers, and what has
  been asked of it so far.
* `Levels`: how deep the values may be nested that are read meanwhile.
* `Delivery`: a response with what breaks its body off.
* `Transfer`: computations that talk to the other side and change the directory.
* `Transfer.follow`: the response behind the redirects of an address.
* `Transfer.build`: the description of the published build.
* `Transfer.save`: a published file written into the directory.
-/

set_option autoImplicit false

namespace CardArchive

/-- What answers a request. -/
structure Response where
  status : Nat
  headers : List (String × String)
  body : String
deriving DecidableEq

namespace Response

/-- Value of a header, whose name may be written in upper or lower case. The values of
several headers of the name are one value, with commas between them. -/
def header? (r : Response) (name : String) : Option String :=
  let values := (r.headers.filter fun h => Text.lowerAscii h.1 == Text.lowerAscii name).map Prod.snd
  if values.isEmpty then none else some (", ".intercalate values)

/-- Whether the response points elsewhere. -/
def isRedirect (r : Response) : Bool := r.status / 100 == 3

/-- Whether the response brings what was asked for. -/
def isSuccess (r : Response) : Bool := r.status / 100 == 2

/-- What a status that is no success says. -/
def statusWords (r : Response) : String :=
  match r.status / 100 with
  | 1 => "Informational response"
  | 3 => "Redirect response"
  | 4 => "Client error"
  | 5 => "Server error"
  | _ => "Invalid status code"

/-- Refuses a response that is no success; `address` is what was asked for. -/
def check (r : Response) (address : String) : Except TransferFault Unit :=
  if r.isSuccess then .ok ()
  else .error (.status (r.statusWords ++ " '" ++ toString r.status ++ "' for url '" ++ address ++
    "'"))

end Response

/-- What breaks a body off: a fault on the way, or one of the disk that it is written
to. -/
inductive Break where
  | interrupted (kind reason : String)
  | disk (reason : String)
deriving DecidableEq

/-- The fault of a transfer whose body breaks off. -/
def Break.fault : Break → TransferFault
  | interrupted kind reason => .interrupted kind reason
  | disk reason => .disk reason

/-- The other side's answer to a request: a response, a success whose body breaks off
after the blocks that have arrived, or a fault on the way. -/
inductive Reply where
  | response (r : Response)
  | broken (headers : List (String × String)) (arrived : String) (cut : Break)
  | fault (f : TransferFault)
deriving DecidableEq

/-- A response as it arrives, with what breaks its body off, if anything. -/
structure Delivery where
  response : Response
  cut : Option Break
deriving DecidableEq

/-- What an answer delivers, if it is no fault. -/
def Reply.delivery : Reply → Except TransferFault Delivery
  | response r => .ok ⟨r, none⟩
  | broken headers arrived cut => .ok ⟨⟨200, headers, arrived⟩, some cut⟩
  | fault f => .error f

/-- Refuses a response whose body breaks off. -/
def Delivery.check (d : Delivery) : Except TransferFault Unit :=
  match d.cut with
  | none => .ok ()
  | some cut => .error cut.fault

/-- How many lists and objects around each other are read at most, in the record by the
two functions that read it and in a published build. What the callers have left of the
stack decides it. -/
structure Levels where
  status : Nat
  staleness : Nat
  build : Nat

/-- What a short chain of callers leaves of the stack. -/
def Levels.usual : Levels := ⟨970, 970, 960⟩

/-- An exchange with the other side: the answers still to come, the addresses
requested, the pauses made between attempts in seconds, the progress reported as
bytes received and expected, the directory that is written to, and how deep values may
be nested. -/
structure Exchange where
  replies : List Reply
  requests : List String
  pauses : List Nat
  progress : List (Nat × Int)
  files : Directory
  levels : Levels

/-- The exchange before the first request. -/
def Exchange.start (replies : List Reply) (files : Directory)
    (levels : Levels := Levels.usual) : Exchange :=
  ⟨replies, [], [], [], files, levels⟩

/-- A computation that talks to the other side. What it did stays done if it
fails. -/
abbrev Transfer (α : Type) := ExceptT Failure (StateM Exchange) α

/-- Largest number of requests for one file. -/
def requestLimit : Nat := 5

/-- Number of bytes of a block in which a body arrives. -/
def blockSize : Nat := 65536

/-- The fault of a request that nobody answers. -/
def unanswered : TransferFault := .interrupted "ConnectError" "offline"

/-- The numbers of bytes received after each block of a body. -/
def received (size : Nat) : List Nat :=
  (List.range ((size + blockSize - 1) / blockSize)).map fun k => min ((k + 1) * blockSize) size

namespace Transfer

/-- A result that needs no exchange. -/
def ofExcept {α : Type} : Except Failure α → Transfer α
  | .ok a => pure a
  | .error e => throw e

/-- The answer to a request. -/
def request (address : String) : Transfer Delivery := do
  let exchange ← get
  set { exchange with
    replies := exchange.replies.tail
    requests := exchange.requests ++ [address] }
  let reply := exchange.replies.headD (.fault unanswered)
  ofExcept (reply.delivery.mapError Failure.transfer)

/-- The address that a redirect from `address` points to, if it may be requested. -/
def target (address : String) (r : Response) : Except TransferFault String := do
  -- an empty location is as good as none
  let location := (r.header? "location").getD ""
  if location.isEmpty then throw .noLocation
  let resolved ← (Address.resolve address.toList location.toList).mapError TransferFault.badAddress
  let target := String.ofList resolved
  if Address.isAllowed target then pure target else throw (.foreignRedirect target)

/-- The response behind the redirects of an address, for which at most `limit` more
requests are made. -/
def followFrom (address : String) : Nat → Transfer Delivery
  | 0 => throw (.transfer (.tooManyRedirects requestLimit))
  | limit + 1 => do
    let d ← request address
    if d.response.isRedirect then
      let next ← ofExcept ((target address d.response).mapError Failure.transfer)
      followFrom next limit
    else pure d

/-- The response behind the redirects of an address. -/
def follow (address : String) : Transfer Delivery := followFrom address requestLimit

/-- A text without the mark that may stand at its beginning. -/
def withoutMark (cs : List Char) : List Char :=
  match cs with
  | '\ufeff' :: rest => rest
  | _ => cs

/-- The value of a body. -/
def bodyValue (levels : Nat) (body : String) : Except Failure Value :=
  let cs := withoutMark body.toList
  match Json.excess? levels cs with
  | some fault => .error (.reading fault)
  | none =>
    match Json.readRaw Json.ordinary cs with
    | .ok v => .ok v.settle
    | .error problem => .error (.reading (.malformed (problem.message cs)))

/-- The description of the published build. -/
def build : Transfer Value := do
  let d ← follow metaAddress
  ofExcept (d.check.mapError Failure.transfer)
  ofExcept ((d.response.check metaAddress).mapError Failure.transfer)
  let exchange ← get
  let v ← ofExcept (bodyValue exchange.levels.build d.response.body)
  ofExcept (shaped (v.memberOr "data" v))

/-- The number of bytes that a response announces. -/
def announced (r : Response) : Except Failure Int :=
  match r.header? "content-length" with
  | none => .ok 0
  | some s => shaped (Value.text s).toInteger

/-- How the disk refuses a name. -/
def refusal : Obstacle → TransferFault
  | .longName => .disk "File name too long"
  | .folder => .disk "Is a directory"

/-- Refuses a name under which no file can be written or taken away. -/
def reach (name : String) : Transfer Unit := do
  let exchange ← get
  match exchange.files.obstacle? name with
  | some o => throw (.transfer (refusal o))
  | none => pure ()

/-- The file at an address, written into the directory under a name. -/
def save (address name : String) : Transfer Unit := do
  let d ← follow address
  ofExcept ((d.response.check address).mapError Failure.transfer)
  -- an announcement that is no number fails before the file is written
  let expected ← ofExcept (announced d.response)
  reach name
  let body := d.response.body
  modify fun e =>
    { e with
      files := e.files.write name body
      progress := e.progress ++ (received body.utf8ByteSize).map fun n => (n, expected) }
  -- a body that breaks off leaves what has arrived of it
  ofExcept (d.check.mapError Failure.transfer)

end Transfer

end CardArchive
