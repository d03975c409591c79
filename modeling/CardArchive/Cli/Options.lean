import CardArchive.Text.Digit
import CardArchive.Text.Quoted

/-!
# Options of a command line

A command line is a list of words. A word that starts with a hyphen is an option,
unless it is a negative number or holds a space; every word after `--` is an
argument. An option may be shortened to a start that no other option has, and its
value follows as the next word or after an equals sign.

## What this module delivers

* `OptionSpec`: an option that a command knows.
* `Mark` and `classify`: what each word is.
* `read`: the options given and the words left over.
* `Refusal`: the ways in which reading ends early.
-/

set_option autoImplicit false

namespace CardArchive.Cli

/-- What an option takes: nothing, a request for help, or a value, which `check`
refuses with a reason. -/
inductive Need where
  | nothing
  | help
  | value (check : String → Option String)

/-- An option: its names, of which the last one identifies it, and what it takes. -/
structure OptionSpec where
  names : List String
  need : Need

/-- The name that identifies an option. -/
def OptionSpec.key (o : OptionSpec) : String := o.names.getLast?.getD ""

/-- The names of an option in messages. -/
def OptionSpec.title (o : OptionSpec) : String := "/".intercalate o.names

/-- An early end of reading: a request for help, or a wrong use. -/
inductive Refusal where
  | help
  | misuse (message : String)
deriving DecidableEq

/-- A refusal that names an option. -/
def OptionSpec.misuse (o : OptionSpec) (reason : String) : Refusal :=
  .misuse ("argument " ++ o.title ++ ": " ++ reason)

/-- A text written after the name of an option in the same word; `marked` if an
equals sign divides them. -/
structure Attached where
  marked : Bool
  text : List Char

/-- What a word of a command line is. -/
inductive Mark where
  | argument
  | divider
  | unknown
  | option (o : OptionSpec) (attached : Option Attached)

/-- The option with exactly the given name. -/
def find? (options : List OptionSpec) (name : String) : Option OptionSpec :=
  options.find? fun o => o.names.contains name

/-- The text before and after the first equals sign, if there is one. -/
def splitEquals (cs : List Char) : List Char × Option (List Char) :=
  let front := cs.takeWhile (· != '=')
  if front.length < cs.length then (front, some (cs.drop (front.length + 1))) else (front, none)

/-- The names that a shortened long option can mean. -/
def longMatches (options : List OptionSpec) (word : List Char) :
    List (String × OptionSpec × Option Attached) :=
  let (start, value) := splitEquals word
  options.flatMap fun o =>
    (o.names.filter fun n => start.isPrefixOf n.toList).map fun n =>
      (n, o, value.map fun v => ⟨true, v⟩)

/-- The names that a short option can mean, with the rest of the word attached. -/
def shortMatches (options : List OptionSpec) (word : List Char) :
    List (String × OptionSpec × Option Attached) :=
  options.flatMap fun o =>
    o.names.filterMap fun n =>
      if n.toList = word.take 2 then some (n, o, some ⟨false, word.drop 2⟩)
      else if word.isPrefixOf n.toList then some (n, o, none)
      else none

/-- The digits after a hyphen that make a negative number. -/
def isNegativeNumber (word : List Char) : Bool :=
  match word with
  | '-' :: rest =>
    let body := if rest.getLast? = some '\n' then rest.dropLast else rest
    let whole := body.takeWhile Text.isDecimal
    match body.drop whole.length with
    | [] => !whole.isEmpty
    | '.' :: places => !places.isEmpty && places.all Text.isDecimal
    | _ => false
  | _ => false

/-- What a word is that starts with a hyphen and names no option exactly. -/
def classifyShortened (options : List OptionSpec) (word : List Char) : Except Refusal Mark :=
  let found :=
    if word.take 2 = ['-', '-'] then longMatches options word else shortMatches options word
  match found with
  | [(_, o, attached)] => .ok (.option o attached)
  | [] =>
    if isNegativeNumber word || word.contains ' ' then .ok .argument else .ok .unknown
  -- several names fit, and none of them is preferred
  | several =>
    .error (.misuse ("ambiguous option: " ++ String.ofList word ++ " could match " ++
      ", ".intercalate (several.map Prod.fst)))

/-- What a word is before any divider. -/
def classifyWord (options : List OptionSpec) (s : String) : Except Refusal Mark :=
  let word := s.toList
  match word with
  | '-' :: _ :: _ =>
    match find? options s with
    | some o => .ok (.option o none)
    | none =>
      match splitEquals word with
      | (front, some value) =>
        match find? options (String.ofList front) with
        | some o => .ok (.option o (some ⟨true, value⟩))
        | none => classifyShortened options word
      | (_, none) => classifyShortened options word
  | _ => .ok .argument

/-- What each word is. After the first divider every word is an argument. -/
def classify (options : List OptionSpec) : List String → Except Refusal (List (String × Mark))
  | [] => .ok []
  | s :: rest =>
    if s = "--" then .ok ((s, .divider) :: rest.map fun w => (w, .argument))
    else do
      let mark ← classifyWord options s
      let marks ← classify options rest
      pure ((s, mark) :: marks)

/-- The options given, each with its value, and the words left over. -/
structure Given where
  options : List (String × String)
  extras : List String

/-- Whether a text attached to an option that takes nothing is a run of further
short options. -/
def checkShortRun (options : List OptionSpec) (o : OptionSpec) (marked : Bool) :
    List Char → Except Refusal Unit
  | [] => if marked then .error (o.misuse ("ignored explicit argument " ++ Text.quoted "")) else .ok ()
  | c :: cs =>
    if marked || c == '-' then
      .error (o.misuse ("ignored explicit argument " ++ Text.quoted (String.ofList (c :: cs))))
    else
      match find? options (String.ofList ['-', c]) with
      | none => .ok ()
      | some next =>
        match cs with
        | [] => .ok ()
        | '=' :: value =>
          .error (next.misuse ("ignored explicit argument " ++
            Text.quoted (String.ofList value)))
        | d :: ds => checkShortRun options next false (d :: ds)

/-- Whether the word of an option is a short one, `-x`. -/
def isShort (word : String) : Bool :=
  match word.toList with
  | '-' :: c :: _ => c != '-'
  | _ => false

/-- Refuses a text attached to an option that takes nothing. -/
def checkAttached (options : List OptionSpec) (o : OptionSpec) (word : String) (a : Attached) :
    Except Refusal Unit :=
  if isShort word then checkShortRun options o a.marked a.text
  else .error (o.misuse ("ignored explicit argument " ++ Text.quoted (String.ofList a.text)))

/-- The value of an option, unless its check refuses it. -/
def checkValue (o : OptionSpec) (check : String → Option String) (value : String) :
    Except Refusal (String × String) :=
  match check value with
  | some reason => .error (o.misuse reason)
  | none => .ok (o.key, value)

/-- Reads marked words up to the command, which is the first argument if
`hasCommand`. The command comes back with all words after it. -/
def readMarked (options : List OptionSpec) (hasCommand : Bool) :
    List (String × Mark) → Except Refusal (Given × Option (List String))
  | [] => .ok (⟨[], []⟩, none)
  -- the command takes all words after it, options or not
  | (s, .argument) :: rest =>
    if hasCommand then .ok (⟨[], []⟩, some (s :: rest.map Prod.fst))
    else do
      let (given, command) ← readMarked options hasCommand rest
      pure (⟨given.options, s :: given.extras⟩, command)
  -- a divider in front of the command is itself taken for it
  | (s, .divider) :: rest =>
    if hasCommand && !rest.isEmpty then .ok (⟨[], []⟩, some (s :: rest.map Prod.fst))
    else do
      let (given, command) ← readMarked options hasCommand rest
      pure (⟨given.options, s :: given.extras⟩, command)
  | (s, .unknown) :: rest => do
    let (given, command) ← readMarked options hasCommand rest
    pure (⟨given.options, s :: given.extras⟩, command)
  | (s, .option o attached) :: rest =>
    match o.need, attached with
    | .value check, some a => do
      let pair ← checkValue o check (String.ofList a.text)
      let (given, command) ← readMarked options hasCommand rest
      pure (⟨pair :: given.options, given.extras⟩, command)
    -- the value is the next word, unless that is an option or the divider
    | .value check, none =>
      match rest with
      | (v, .argument) :: rest => do
        let pair ← checkValue o check v
        let (given, command) ← readMarked options hasCommand rest
        pure (⟨pair :: given.options, given.extras⟩, command)
      | _ => .error (o.misuse "expected one argument")
    | .help, some a => do
      checkAttached options o s a
      .error .help
    | .help, none => .error .help
    | .nothing, some a => do
      checkAttached options o s a
      let (given, command) ← readMarked options hasCommand rest
      pure (⟨(o.key, "") :: given.options, given.extras⟩, command)
    | .nothing, none => do
      let (given, command) ← readMarked options hasCommand rest
      pure (⟨(o.key, "") :: given.options, given.extras⟩, command)

/-- The options and the command of a list of words. -/
def read (options : List OptionSpec) (hasCommand : Bool) (words : List String) :
    Except Refusal (Given × Option (List String)) := do
  let marks ← classify options words
  readMarked options hasCommand marks

/-- The values given for an option, in order. -/
def Given.valuesOf (g : Given) (key : String) : List String :=
  g.options.filterMap fun p => if p.1 = key then some p.2 else none

/-- The last value given for an option. -/
def Given.last? (g : Given) (key : String) : Option String := (g.valuesOf key).getLast?

/-- Whether an option was given. -/
def Given.has (g : Given) (key : String) : Bool := !(g.valuesOf key).isEmpty

/-- The option that asks for help. -/
def helpOption : OptionSpec := ⟨["-h", "--help"], .help⟩

/-- A check that accepts every value. -/
def anyValue : String → Option String := fun _ => none

end CardArchive.Cli
