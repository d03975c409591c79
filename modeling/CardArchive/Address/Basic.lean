import CardArchive.Address.Host

/-!
# Web addresses

A web address has a scheme, a host part, a path with parameters, a query and a
fragment. A relative address is read against a base address: its path replaces
the last segment of the base, and the segments `.` and `..` are then worked off.

## What this module delivers

* `Parts` and `parse`: the parts of an address, or why it has none.
* `Parts.text`: the address with the given parts.
* `resolve`: a relative address read against a base.
* `isAllowed`: the addresses that files may be fetched from.
-/

set_option autoImplicit false

namespace CardArchive.Address

/-- The parts of an address. -/
structure Parts where
  scheme : List Char
  host : List Char
  path : List Char
  parameters : List Char
  query : List Char
  fragment : List Char
deriving DecidableEq

/-- Schemes whose addresses can be relative. -/
def relativeSchemes : List String :=
  ["", "ftp", "http", "gopher", "nntp", "imap", "wais", "file", "https", "shttp", "mms",
   "prospero", "rtsp", "rtsps", "rtspu", "sftp", "svn", "svn+ssh", "ws", "wss"]

/-- Schemes whose addresses have a host part. -/
def hostSchemes : List String :=
  ["", "ftp", "http", "gopher", "nntp", "telnet", "imap", "wais", "file", "mms", "https", "shttp",
   "snews", "prospero", "rtsp", "rtsps", "rtspu", "rsync", "svn", "svn+ssh", "sftp", "nfs", "git",
   "git+ssh", "ws", "wss"]

/-- Schemes whose paths end in parameters. -/
def parameterSchemes : List String :=
  ["", "ftp", "hdl", "prospero", "http", "imap", "https", "shttp", "rtsp", "rtsps", "rtspu", "sip",
   "sips", "mms", "sftp", "tel"]

/-- Whether a scheme is in a list. -/
def isAmong (scheme : List Char) (schemes : List String) : Bool :=
  schemes.contains (String.ofList scheme)

/-- A letter of the ASCII alphabet. -/
def isLetter (c : Char) : Bool := ('a' ≤ c && c ≤ 'z') || ('A' ≤ c && c ≤ 'Z')

/-- A character of a scheme. -/
def isSchemeChar (c : Char) : Bool :=
  isLetter c || c.isDigit || c == '+' || c == '-' || c == '.'

/-- The lower case form of a letter. -/
def lowerLetter (c : Char) : Char :=
  if 'A' ≤ c ∧ c ≤ 'Z' then Char.ofNat (c.toNat + 32) else c

/-- The address without leading blanks and controls, and without tabs and line
breaks anywhere. -/
def cleaned (cs : List Char) : List Char :=
  (cs.dropWhile fun c => c.toNat ≤ 32).filter fun c => c != '\t' && c != '\r' && c != '\n'

/-- A scheme in lower case and the rest, if the address starts with a scheme. -/
def splitScheme (cs : List Char) : Option (List Char × List Char) :=
  let front := cs.takeWhile (· != ':')
  match front, cs.drop front.length with
  | c :: more, ':' :: rest =>
    if isLetter c && more.all isSchemeChar then some ((c :: more).map lowerLetter, rest) else none
  | _, _ => none

/-- The text before and after the first `sep`, if there is one. -/
def splitFirst (sep : Char) (cs : List Char) : List Char × List Char :=
  let front := cs.takeWhile (· != sep)
  (front, cs.drop (front.length + 1))

/-- A character that ends the host part. -/
def endsHost (c : Char) : Bool := c == '/' || c == '?' || c == '#'

/-- The characters that compatibility forms turn into one that ends or divides a
host part. -/
def disguised : List Nat :=
  [0x2047, 0x2048, 0x2049, 0x2100, 0x2101, 0x2105, 0x2106, 0x2A74, 0xFE13, 0xFE16, 0xFE55, 0xFE56,
   0xFE5F, 0xFE6B, 0xFF03, 0xFF0F, 0xFF1A, 0xFF1F, 0xFF20]

/-- The content of the first brackets of a host part. -/
def bracketed (host : List Char) : List Char :=
  (splitFirst ']' (splitFirst '[' host).2).1

/-- What is wrong with the brackets of a host part, if anything. -/
def checkBrackets (host : List Char) : Except String Unit :=
  if host.contains '[' != host.contains ']' then .error "Invalid IPv6 URL"
  else if host.contains '[' then checkBracketedHost (bracketed host)
  else .ok ()

/-- Refuses a host part with a disguised character. -/
def checkDisguised (host : List Char) : Except String Unit :=
  if host.any fun c => disguised.contains c.toNat then
    .error ("netloc '" ++ String.ofList host ++
      "' contains invalid characters under NFKC normalization")
  else .ok ()

/-- The host part and the rest of an address without its scheme. -/
def splitHost (cs : List Char) : List Char × List Char :=
  match cs with
  | '/' :: '/' :: rest =>
    let host := rest.takeWhile fun c => !endsHost c
    (host, rest.drop host.length)
  | _ => ([], cs)

/-- The path and its parameters, which follow the first semicolon of the last
segment. -/
def splitParameters (path : List Char) : List Char × List Char :=
  let last := (path.reverse.takeWhile (· != '/')).reverse
  if last.contains ';' then
    let parts := splitFirst ';' last
    (path.take (path.length - last.length) ++ parts.1, parts.2)
  else (path, [])

/-- The parts of an address; `base` is the scheme of an address that names none. -/
def parse (base : List Char) (cs : List Char) : Except String Parts := do
  let text := cleaned cs
  let (scheme, rest) := (splitScheme text).getD (base, text)
  let (host, rest) := splitHost rest
  checkBrackets host
  let (rest, fragment) := splitFirst '#' rest
  let (path, query) := splitFirst '?' rest
  checkDisguised host
  let (path, parameters) :=
    if isAmong scheme parameterSchemes then splitParameters path else (path, [])
  pure ⟨scheme, host, path, parameters, query, fragment⟩

/-- A part with its mark in front, nothing if it is empty. -/
def marked (mark : Char) (cs : List Char) : List Char := if cs.isEmpty then [] else mark :: cs

/-- The address with the given parts. -/
def Parts.text (p : Parts) : List Char :=
  let path := p.path ++ marked ';' p.parameters
  let hosted :=
    if !p.host.isEmpty || (!p.scheme.isEmpty && isAmong p.scheme hostSchemes) ||
        path.take 2 == ['/', '/'] then
      '/' :: '/' :: p.host ++
        (if !path.isEmpty && path.head? != some '/' then '/' :: path else path)
    else path
  (if p.scheme.isEmpty then [] else p.scheme ++ [':']) ++ hosted ++ marked '?' p.query ++
    marked '#' p.fragment

/-- The segments with `.` and `..` worked off; `kept` holds those before, the last
one first. -/
def workOff (kept : List (List Char)) : List (List Char) → List (List Char)
  | [] => kept.reverse
  | s :: rest =>
    if s = ['.', '.'] then workOff kept.tail rest
    else if s = ['.'] then workOff kept rest
    else workOff (s :: kept) rest

/-- The segments without empty ones between the first and the last. -/
def withoutInnerGaps : List (List Char) → List (List Char)
  | [] => []
  | first :: rest =>
    match rest.getLast? with
    | none => [first]
    | some last => first :: rest.dropLast.filter (fun s => !s.isEmpty) ++ [last]

/-- The segments of a base path that a relative path is added to. -/
def baseSegments (path : List Char) : List (List Char) :=
  let segments := splitOn '/' path
  if segments.getLast? = some [] then segments else segments.dropLast

/-- Segments joined by slashes. -/
def joined : List (List Char) → List Char
  | [] => []
  | [s] => s
  | s :: rest => s ++ '/' :: joined rest

/-- A relative path read against a base path. -/
def resolvePath (base path : List Char) : List Char :=
  let segments :=
    if path.head? = some '/' then splitOn '/' path
    else withoutInnerGaps (baseSegments base ++ splitOn '/' path)
  let last := segments.getLast?.getD []
  let kept := workOff [] segments ++ (if last = ['.'] ∨ last = ['.', '.'] then [[]] else [])
  let text := joined kept
  if text.isEmpty then ['/'] else text

/-- A relative address read against a base. -/
def resolve (base relative : List Char) : Except String (List Char) :=
  if base.isEmpty then .ok relative
  else if relative.isEmpty then .ok base
  else do
    let b ← parse [] base
    let r ← parse b.scheme relative
    if r.scheme ≠ b.scheme ∨ !isAmong r.scheme relativeSchemes then pure relative
    else if isAmong r.scheme hostSchemes && !r.host.isEmpty then pure r.text
    else
      let host := if isAmong r.scheme hostSchemes then b.host else r.host
      if r.path.isEmpty && r.parameters.isEmpty then
        pure (Parts.text ⟨r.scheme, host, b.path, b.parameters,
          if r.query.isEmpty then b.query else r.query, r.fragment⟩)
      else
        pure (Parts.text ⟨r.scheme, host, resolvePath b.path r.path, r.parameters, r.query,
          r.fragment⟩)

/-- The hosts that files may be fetched from. -/
def allowedHosts : List String := ["mtgjson.com"]

/-- Whether files may be fetched from an address: its scheme is secure and its
host part is exactly an allowed host. -/
def isAllowed (address : String) : Bool :=
  match parse [] address.toList with
  | .ok p => p.scheme == "https".toList && allowedHosts.contains (String.ofList p.host)
  | .error _ => false

end CardArchive.Address
