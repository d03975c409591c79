import CardArchive.Store.Tables
import Mathlib.Tactic

/-!
# Names in statements

A statement is read against the tables of the archive: it may select from a table
that is there, under an alias, and name a column that this table has. Each selection
is read on its own: what it names it has introduced itself, so a nested selection
names nothing of the one around it.

## What this module delivers

* `schema`: the tables with their columns, and `columns_of_mem_relations`, that the
  stored rows have exactly these.
* `Expr.Scoped`, `Select.Scoped`, `Query.Scoped`: trees that can be read.
* `Select.introduced`: the tables under their aliases, in the order of the text.
-/

set_option autoImplicit false

namespace CardArchive

/-! ## Tables and columns -/

/-- Every table with its columns. -/
def schema : List (String × List String) :=
  [("Card", ["name", "text", "cmc", "mana_cost"]), ("Color", ["card_name", "color"]),
   ("ColorIdentity", ["card_name", "color"]), ("Supertype", ["card_name", "type"]),
   ("Type", ["card_name", "type"]), ("Subtype", ["card_name", "type"]),
   ("Mana", ["card_name", "mana_type", "quantity"]),
   ("PowerToughness", ["card_name", "power", "power_value", "toughness", "toughness_value"]),
   ("Loyalty", ["card_name", "loyalty", "loyalty_value"]),
   ("Expansion", ["expansion", "abbrv", "size", "release_date"]), ("Block", ["expansion", "block"]),
   ("CardExpansion", ["card_name", "expansion", "number", "rarity", "flavor_text", "artist"]),
   ("TwoCards", ["card_a", "card_b", "type", "total_cmc"]),
   ("ThreeCards", ["card_a", "card_b", "card_c", "type", "total_cmc"]),
   ("Deck", ["id", "name", "description"]), ("DeckInstance", ["deck_id", "creation"]),
   ("DeckInstanceCategory", ["deck_id", "creation", "category"]),
   ("DeckInstanceCard",
    ["deck_id", "creation", "card_name", "expansion", "number", "quantity"]),
   ("DeckInstanceCardCategory", ["deck_id", "creation", "card_name", "category"])]

/-- The names of the tables. -/
def tableNames : List String := schema.map Prod.fst

/-- The names of the columns of all tables. -/
def columnNames : List String := schema.flatMap Prod.snd

/-- Whether a table has a column. -/
def HasColumn (table column : String) : Prop :=
  ∃ columns, (table, columns) ∈ schema ∧ column ∈ columns

instance (table column : String) : Decidable (HasColumn table column) :=
  decidable_of_iff (∃ e ∈ schema, e.1 = table ∧ column ∈ e.2) <| by
    constructor
    · rintro ⟨⟨t, columns⟩, he, rfl, hc⟩
      exact ⟨columns, he, hc⟩
    · rintro ⟨columns, he, hc⟩
      exact ⟨(table, columns), he, rfl, hc⟩

/-- The stored tables are those of the schema, and their rows have its columns. -/
theorem listing_schema (t : Tables) :
    List.Forall₂ (fun e s => e.1 = s.1 ∧ ∀ r ∈ e.2, r.map Prod.fst = s.2) t.listing schema := by
  unfold Tables.listing schema
  repeat
    refine .cons ⟨rfl, fun r hr => ?_⟩ ?_
    · obtain ⟨row, -, rfl⟩ := List.mem_map.1 hr
      rfl
  exact .nil

theorem exists_of_mem_forall₂ {α β : Type} {R : α → β → Prop} {xs : List α} {ys : List β}
    (h : List.Forall₂ R xs ys) {x : α} (hx : x ∈ xs) : ∃ y ∈ ys, R x y := by
  induction h with
  | nil => cases hx
  | @cons a b as bs hab _ ih =>
    rcases List.mem_cons.1 hx with rfl | hx
    · exact ⟨b, List.mem_cons_self, hab⟩
    · obtain ⟨y, hy, hR⟩ := ih hx
      exact ⟨y, List.mem_cons_of_mem b hy, hR⟩

/-- Every row that a statement reads from a table of the schema has its columns. -/
theorem columns_of_mem_relations (t : Tables) {table : String} {r : Record}
    (h : r ∈ t.relations table) :
    ∃ columns, (table, columns) ∈ schema ∧ r.map Prod.fst = columns := by
  unfold Tables.relations Tables.recordsOf at h
  split at h
  · rename_i e he
    have hname : e.1 = table := by simpa using List.find?_some he
    obtain ⟨s, hs, hsame, hcolumns⟩ :=
      exists_of_mem_forall₂ (listing_schema t) (List.mem_of_find?_eq_some he)
    exact ⟨s.2, by rw [← hname, hsame]; exact hs, hcolumns r h⟩
  · cases h

/-! ## Trees that can be read -/

/-- Some aliases with the tables that they stand for. -/
abbrev Sources := List (String × String)

/-- A column names one of the sources and a column of its table. -/
def Sources.Offer (sources : Sources) (c : Column) : Prop :=
  ∃ table, (c.source, table) ∈ sources ∧ HasColumn table c.name

/-- A numbered alias for a table of the schema. -/
def IsSource (p : String × String) : Prop := (∃ n, p.1 = aliasName n) ∧ p.2 ∈ tableNames

/-- A literal that can be written. -/
def Literal.IsWritable : Literal → Prop
  | .unsupported _ => False
  | _ => True

/-- A text that an operator has. -/
def IsOperator (text : String) : Prop := text ∈ Operator.all.map Operator.text

/-- The alias and the table of a join. -/
def Join.named : Join → String × String
  | .mk table source _ _ => (source, table)

mutual

/-- A value or a condition that can be read where some sources are known: it names
their columns only, and lacks nothing that has to be written. -/
def Expr.Scoped (sources : Sources) : Expr → Prop
  | .column c => sources.Offer c
  | .literal l => l.IsWritable
  | .countDistinct c => sources.Offer c
  | .compare l o r => l.Scoped sources ∧ IsOperator o ∧ r.Scoped sources
  | .like c _ _ => sources.Offer c
  | .inValues c vs _ => sources.Offer c ∧ ∀ v ∈ vs, v.IsWritable
  | .inQuery c q _ => sources.Offer c ∧ q.Scoped
  | .allOf parts => parts ≠ [] ∧ allScoped sources parts
  | .anyOf parts => parts ≠ [] ∧ allScoped sources parts
  | .coalesce v f => v.Scoped sources ∧ f.Scoped sources

/-- Values or conditions that can be read. -/
def allScoped (sources : Sources) : List Expr → Prop
  | [] => True
  | e :: es => e.Scoped sources ∧ allScoped sources es

/-- A join whose condition can be read once its own table is known as well. -/
def Join.Scoped (sources : Sources) : Join → Prop
  | .mk table source condition _ => condition.Scoped (sources ++ [(source, table)])

/-- Joins that can be read one after the other. -/
def joinsScoped (sources : Sources) : List Join → Prop
  | [] => True
  | j :: js => j.Scoped sources ∧ joinsScoped (sources ++ [j.named]) js

/-- A condition on groups that can be read, or none. -/
def havingScoped (sources : Sources) : Option Expr → Prop
  | none => True
  | some e => e.Scoped sources

/-- A selection that can be read on its own. -/
def Select.Scoped : Select → Prop
  | .mk columns table source joins conditions groupBy having =>
    (∀ p ∈ (source, table) :: joins.map Join.named, IsSource p) ∧ columns ≠ [] ∧
      (∀ c ∈ columns ++ groupBy, Sources.Offer ((source, table) :: joins.map Join.named) c) ∧
      joinsScoped [(source, table)] joins ∧
      allScoped ((source, table) :: joins.map Join.named) conditions ∧
      havingScoped ((source, table) :: joins.map Join.named) having

/-- Selections that can be read. -/
def selectsScoped : List Select → Prop
  | [] => True
  | s :: ss => s.Scoped ∧ selectsScoped ss

/-- A query that can be read on its own. -/
def Query.Scoped : Query → Prop
  | .select s => s.Scoped
  | .intersect parts => parts ≠ [] ∧ selectsScoped parts

end

theorem allScoped_iff {sources : Sources} {es : List Expr} :
    allScoped sources es ↔ ∀ e ∈ es, e.Scoped sources := by
  induction es with
  | nil => simp [allScoped]
  | cons e es ih => simp [allScoped, ih]

theorem selectsScoped_iff {ss : List Select} : selectsScoped ss ↔ ∀ s ∈ ss, s.Scoped := by
  induction ss with
  | nil => simp [selectsScoped]
  | cons s ss ih => simp [selectsScoped, ih]

/-! ## Tables in the order of the text -/

mutual

/-- The tables that a value or a condition introduces, with their aliases, in the order
of the text. -/
def Expr.introduced : Expr → Sources
  | .compare l _ r => l.introduced ++ r.introduced
  | .inQuery _ q _ => q.introduced
  | .allOf parts => allIntroduced parts
  | .anyOf parts => allIntroduced parts
  | .coalesce v f => v.introduced ++ f.introduced
  | _ => []

/-- The tables that values or conditions introduce. -/
def allIntroduced : List Expr → Sources
  | [] => []
  | e :: es => e.introduced ++ allIntroduced es

/-- The tables that a join introduces: its own one and those of its condition. -/
def Join.introduced : Join → Sources
  | .mk table source condition _ => (source, table) :: condition.introduced

/-- The tables that joins introduce. -/
def joinsIntroduced : List Join → Sources
  | [] => []
  | j :: js => j.introduced ++ joinsIntroduced js

/-- The tables that a condition on groups introduces. -/
def havingIntroduced : Option Expr → Sources
  | none => []
  | some e => e.introduced

/-- The tables that a selection introduces. -/
def Select.introduced : Select → Sources
  | .mk _ table source joins conditions _ having =>
    (source, table) :: joinsIntroduced joins ++ allIntroduced conditions ++ havingIntroduced having

/-- The tables that selections introduce. -/
def selectsIntroduced : List Select → Sources
  | [] => []
  | s :: ss => s.introduced ++ selectsIntroduced ss

/-- The tables that a query introduces. -/
def Query.introduced : Query → Sources
  | .select s => s.introduced
  | .intersect parts => selectsIntroduced parts

end

@[simp]
theorem allIntroduced_append (es fs : List Expr) :
    allIntroduced (es ++ fs) = allIntroduced es ++ allIntroduced fs := by
  induction es with
  | nil => rfl
  | cons e es ih => simp only [List.cons_append, allIntroduced, ih, List.append_assoc]

end CardArchive
