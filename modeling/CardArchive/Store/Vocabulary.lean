import CardArchive.Catalog
import CardArchive.Store.Tables

/-!
# Vocabularies of the tables

Every vocabulary lists the values of one column as they are stored now.

## What this module delivers

* `Tables.vocabulary`: a vocabulary by name.
* `Tables.blockSets`: the sets of each block.
* `Tables.catalog`: the catalog of what is stored.
-/

set_option autoImplicit false

namespace CardArchive.Tables

/-- The names of the sets; a set may be stored without one. -/
def setNames (t : Tables) : Vocabulary :=
  ⟨(t.expansions.filterMap ExpansionRow.name).eraseDups,
    t.expansions.any fun e => e.name.isNone⟩

/-- The artists of the printings that name one. -/
def artists (t : Tables) : List String :=
  (t.printings.map PrintingRow.artist).filter fun a => a != ""

/-- The layouts of the groups of faces. -/
def layouts (t : Tables) : List String :=
  t.pairs.map PairRow.layout ++ t.triples.map TripleRow.layout

/-- The vocabulary with a name. -/
def vocabulary? (t : Tables) (name : String) : Option Vocabulary :=
  match name with
  | "colors" => some (.ofList (t.colors.map LabelRow.label))
  | "supertypes" => some (.ofList (t.supertypes.map LabelRow.label))
  | "types" => some (.ofList (t.types.map LabelRow.label))
  | "subtypes" => some (.ofList (t.subtypes.map LabelRow.label))
  | "rarities" => some (.ofList (t.printings.map PrintingRow.rarity))
  | "mana_types" => some (.ofList (t.mana.map ManaRow.symbol))
  | "blocks" => some (.ofList (t.blocks.map BlockRow.block))
  | "artists" => some (.ofList t.artists)
  | "sets" => some t.setNames
  | "relationship_types" => some (.ofList t.layouts)
  | _ => none

/-- The vocabulary with a name that must be known. -/
def vocabulary (t : Tables) (name : String) : Except Failure Vocabulary :=
  match t.vocabulary? name with
  | some v => .ok v
  | none => .error (.ingest (.unknownVocabulary name))

/-- The sets of each block. -/
def blockSets (t : Tables) : Blocks :=
  (t.blocks.map BlockRow.block).eraseDups.map fun b =>
    (b, (t.blocks.filter fun r => r.block == b).map BlockRow.expansion)

/-- The tables as the source of a catalog. -/
def catalogSource (t : Tables) : CatalogSource :=
  ⟨fun name => (t.vocabulary name).mapError Failure.message, .ok t.blockSets⟩

/-- The catalog of what is stored. -/
def catalog (t : Tables) : Except Failure Catalog := Catalog.load t.catalogSource

end CardArchive.Tables
