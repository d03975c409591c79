import CardArchive.Failure
import CardArchive.Filter.Compile

/-!
# Catalog

The catalog holds the legal values of every vocabulary and the sets of every
block. It is read once from a source and then only asked.

## What this module delivers

* `Vocabulary`: the values of one vocabulary.
* `Catalog`: all vocabularies and the blocks.
* `Catalog.ofVocabularies`: a catalog of given values, which must hold every
  required vocabulary.
* `Source` of a catalog and `Catalog.load`: a catalog read vocabulary by
  vocabulary, with the name of the first one that fails.
* `Catalog.contains`, `Catalog.values`: the questions.
-/

set_option autoImplicit false

namespace CardArchive

/-- The values of one vocabulary. A set can be stored without a name; such a value
is noted by `unnamed`. -/
structure Vocabulary where
  values : List String
  unnamed : Bool
deriving DecidableEq

namespace Vocabulary

/-- The vocabulary of some values, each once. -/
def ofList (values : List String) : Vocabulary := ⟨values.eraseDups, false⟩

/-- Whether a value belongs to the vocabulary. -/
def holds (v : Vocabulary) (value : Value) : Bool :=
  match value with
  | .text s => v.values.contains s
  | .null => v.unnamed
  | _ => false

/-- The values in order, where the missing one can only stand alone. -/
def listed (v : Vocabulary) : Except ShapeFault (List Value) :=
  if !v.unnamed then .ok ((Text.sorted v.values).map Value.text)
  else if v.values.isEmpty then .ok [.null]
  else .error (.unordered "str" "NoneType")

/-- The values in order. A value without a name can not be ordered. -/
def sorted (v : Vocabulary) : Except ShapeFault (List String) :=
  if v.unnamed then .error (.unordered "str" "NoneType") else .ok (Text.sorted v.values)

end Vocabulary

/-- The vocabularies that every catalog has, in the order of loading. -/
def requiredVocabularies : List String :=
  ["colors", "supertypes", "types", "subtypes", "rarities", "mana_types", "blocks", "artists",
   "sets"]

/-- All vocabularies and the sets of each block. -/
structure Catalog where
  vocabularies : List (String × Vocabulary)
  blocks : Blocks

/-- What a catalog is read from. -/
structure CatalogSource where
  vocabulary : String → Except String Vocabulary
  blocks : Except String Blocks

namespace Catalog

/-- The vocabulary with a name. -/
def vocabulary? (c : Catalog) (name : String) : Option Vocabulary :=
  (c.vocabularies.find? fun v => v.1 == name).map Prod.snd

/-- The catalog of some vocabularies, unless a required one is missing. -/
def ofVocabularies (vocabularies : List (String × Vocabulary)) (blocks : Blocks) :
    Except Failure Catalog :=
  match requiredVocabularies.find? fun n => !(vocabularies.any fun v => v.1 == n) with
  | some n => .error (.catalog n (Text.quoted n))
  | none => .ok ⟨vocabularies, blocks⟩

/-- The named vocabularies of a source, in order. -/
def loadVocabularies (source : CatalogSource) :
    List String → Except Failure (List (String × Vocabulary))
  | [] => .ok []
  | n :: ns => do
    let v ← (source.vocabulary n).mapError (Failure.catalog n)
    let rest ← loadVocabularies source ns
    pure ((n, v) :: rest)

/-- The catalog of a source. A failure of the blocks counts as one of the
vocabulary of blocks. -/
def load (source : CatalogSource) : Except Failure Catalog := do
  let vocabularies ← loadVocabularies source requiredVocabularies
  let blocks ← source.blocks.mapError (Failure.catalog "blocks")
  pure ⟨vocabularies, blocks⟩

/-- Whether a value belongs to a vocabulary. -/
def contains (c : Catalog) (name : String) (value : Value) : Except ShapeFault Bool :=
  match c.vocabulary? name with
  | none => .error (.missingKey (Text.quoted name))
  | some v => do
    value.checkHashable
    pure (v.holds value)

/-- The values of a vocabulary, in order. -/
def values (c : Catalog) (name : String) : Except ShapeFault (List String) :=
  match c.vocabulary? name with
  | none => .error (.missingKey (Text.quoted name))
  | some v => v.sorted

end Catalog

end CardArchive
