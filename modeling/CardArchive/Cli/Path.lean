import CardArchive.Address.Host

/-!
# Paths

A path is shown without empty parts and without parts that stay where they are.

## What this module delivers

* `normalPath`: the shown form of a path.
* `reachedPath`: the path without steps back.
* `joinPath`: a path inside another one.
* `splitPath`: the directory of a path and the name of the file in it.
-/

set_option autoImplicit false

namespace CardArchive.Cli

/-- The parts of a path that lead somewhere. -/
def pathParts (path : String) : List (List Char) :=
  (Address.splitOn '/' path.toList).filter fun p => !p.isEmpty && p != ['.']

/-- What a path from the root starts with: one slash, or two if exactly two stand
there. -/
def rootOf : List Char → List Char
  | '/' :: '/' :: '/' :: _ => ['/']
  | '/' :: '/' :: _ => ['/', '/']
  | '/' :: _ => ['/']
  | _ => []

/-- A path from its root and its parts. -/
def pathOf (root : List Char) (parts : List (List Char)) : String :=
  let text := root ++ ['/'].intercalate parts
  if text.isEmpty then "." else String.ofList text

/-- The shown form of a path. -/
def normalPath (path : String) : String := pathOf (rootOf path.toList) (pathParts path)

/-- The parts of a path without those that a step back undoes; `kept` holds the parts
so far, the last one first. -/
def walk (kept : List (List Char)) : List (List Char) → List (List Char)
  | [] => kept.reverse
  | p :: rest =>
    match kept with
    | last :: others =>
      if p = ['.', '.'] ∧ last ≠ ['.', '.'] then walk others rest else walk (p :: kept) rest
    | [] => walk [p] rest

/-- The path of the same directory without steps back. -/
def reachedPath (path : String) : String :=
  pathOf (rootOf path.toList) (walk [] (pathParts path))

/-- The path of a file in a directory. -/
def joinPath (directory name : String) : String :=
  -- the root already ends with a slash, and another one would lead to another root
  normalPath (if directory.endsWith "/" then directory ++ name else directory ++ "/" ++ name)

/-- The directory of a path and the name of the file in it. -/
def splitPath (path : String) : String × String :=
  let parts := pathParts path
  (pathOf (rootOf path.toList) parts.dropLast, String.ofList (parts.getLast?.getD []))

end CardArchive.Cli
