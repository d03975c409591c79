import CardArchive.Text.Quoted

/-!
# Hosts in brackets

A host between brackets is an address of eight groups of four digits in base
sixteen, with one run of zero groups left out, or an address of a future version.
An address of four decimal numbers may stand for the last two groups, but not
alone.

## What this module delivers

* `splitOn`: the parts of a text between separators.
* `isDottedAddress`: an address of four decimal numbers.
* `isGroupedAddress`: an address of eight groups.
* `checkBracketedHost`: what is wrong with a host in brackets.
-/

set_option autoImplicit false

namespace CardArchive.Address

/-- The parts of a text between separators; there is always at least one. -/
def splitOn (sep : Char) : List Char → List (List Char)
  | [] => [[]]
  | c :: cs =>
    if c = sep then [] :: splitOn sep cs
    else
      match splitOn sep cs with
      | part :: parts => (c :: part) :: parts
      | [] => [[c]]

/-- Whether a character is a digit in base sixteen. -/
def isHex (c : Char) : Bool :=
  c.isDigit || ('a' ≤ c && c ≤ 'f') || ('A' ≤ c && c ≤ 'F')

/-- Value of a run of decimal digits. -/
def decimalValue (cs : List Char) : Nat := cs.foldl (fun n c => 10 * n + (c.toNat - 48)) 0

/-- One of the four numbers of a dotted address: up to three digits, no leading
zero, at most 255. -/
def isOctet (cs : List Char) : Bool :=
  !cs.isEmpty && cs.all (fun c => c.isDigit) && cs.length ≤ 3 &&
    (cs == ['0'] || cs.head? != some '0') && decimalValue cs ≤ 255

/-- An address of four decimal numbers. -/
def isDottedAddress (cs : List Char) : Bool :=
  let parts := splitOn '.' cs
  parts.length == 4 && parts.all isOctet

/-- One of the groups of an address: one to four digits in base sixteen. -/
def isGroup (cs : List Char) : Bool := !cs.isEmpty && cs.length ≤ 4 && cs.all isHex

/-- The groups of an address, a dotted address at the end counted as two. -/
def addressParts? (cs : List Char) : Option (List (List Char)) :=
  let parts := splitOn ':' cs
  if cs.isEmpty || parts.length < 3 then none
  else
    let last := parts.getLast?.getD []
    if last.contains '.' then
      if isDottedAddress last then some (parts.dropLast ++ [['0'], ['0']]) else none
    else some parts

/-- The places of the empty parts that are neither the first nor the last. -/
def innerGaps (parts : List (List Char)) : List Nat :=
  (List.range parts.length).filter fun i =>
    0 < i && i + 1 < parts.length && (parts[i]?.getD []).isEmpty

/-- The groups on one side of the gap; an empty part at the outer end is allowed
only if it is alone there. -/
def sideGroups? (outer : List Char) (side : List (List Char)) : Option (List (List Char)) :=
  if outer.isEmpty then if side.length = 1 then some [] else none else some side

/-- Whether the parts are an address: eight groups, or fewer with one gap. -/
def areGroups (parts : List (List Char)) : Bool :=
  match innerGaps parts with
  | [] => parts.length == 8 && parts.all isGroup
  | [gap] =>
    let low := parts.drop (gap + 1)
    match sideGroups? (parts.head?.getD []) (parts.take gap),
      sideGroups? (parts.getLast?.getD []) low with
    | some hi, some lo => hi.length + lo.length ≤ 7 && hi.all isGroup && lo.all isGroup
    | _, _ => false
  | _ => false

/-- An address of eight groups, perhaps followed by the name of a zone. -/
def isGroupedAddress (cs : List Char) : Bool :=
  let body := cs.takeWhile (· != '%')
  let zone := cs.drop (body.length + 1)
  let zoneFits := body.length == cs.length || (!zone.isEmpty && !zone.contains '%')
  zoneFits &&
    match addressParts? body with
    | some parts => parts.length ≤ 9 && areGroups parts
    | none => false

/-- An address of a future version: `v`, a version in base sixteen, a point and
more. -/
def isFutureAddress (cs : List Char) : Bool :=
  match cs with
  | 'v' :: rest =>
    let version := rest.takeWhile isHex
    !version.isEmpty &&
      match rest.drop version.length with
      | '.' :: c :: more => (c :: more).all (· != '\n')
      | _ => false
  | _ => false

/-- What is wrong with a host in brackets, if anything. -/
def checkBracketedHost (cs : List Char) : Except String Unit :=
  if cs.head? = some 'v' then
    if isFutureAddress cs then .ok () else .error "IPvFuture address is invalid"
  else if isDottedAddress cs then .error "An IPv4 address cannot be in brackets"
  else if isGroupedAddress cs then .ok ()
  else .error (String.ofList (Text.quotedChars cs) ++
    " does not appear to be an IPv4 or IPv6 address")

/-- There is always a part. -/
theorem splitOn_ne_nil (sep : Char) (cs : List Char) : splitOn sep cs ≠ [] := by
  cases cs with
  | nil => simp [splitOn]
  | cons c cs =>
    simp only [splitOn]
    split
    · simp
    · split <;> simp

/-- The parts before a separator are followed by the parts after it. -/
theorem splitOn_append (sep : Char) (cs ds : List Char) :
    splitOn sep (cs ++ sep :: ds) = splitOn sep cs ++ splitOn sep ds := by
  induction cs with
  | nil => simp [splitOn]
  | cons c cs ih =>
    rw [List.cons_append, splitOn, ih, splitOn]
    split
    · rfl
    · obtain ⟨part, parts, hparts⟩ := List.exists_cons_of_ne_nil (splitOn_ne_nil sep cs)
      rw [hparts]
      rfl

/-- Without a separator there is only one part. -/
theorem splitOn_of_notMem {sep : Char} {cs : List Char} (h : sep ∉ cs) :
    splitOn sep cs = [cs] := by
  induction cs with
  | nil => rfl
  | cons c cs ih =>
    rw [List.mem_cons, not_or] at h
    rw [splitOn, if_neg (Ne.symm h.1), ih h.2]

end CardArchive.Address
