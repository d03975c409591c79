import CardArchive.Proofs.Filter.Scoped
import CardArchive.Proofs.Statement.Reading

/-!
# Statements of searches

Whatever requests built a search, its statement is made and written. The statement is
well scoped and takes its aliases in turn, and its text is read back as the tree says:
what a caller or the catalog supplied stays inside literals.

## What this module delivers

* `statement_after`: the statement of a search that requests built, and its text.
* `statement_wellScoped`: aliases in turn, and columns of the right tables.
* `statement_literals`: the texts of the tree are the literals of the text, and nothing
  else depends on them.
-/

set_option autoImplicit false

namespace CardArchive

open Sql

/-- The statement of a search that requests built: it is made, scoped and written. -/
theorem statement_after (catalog : Catalog) (requests : List Request) :
    ∃ (fragments : List Fragment) (count : Nat) (text : String),
      (Search.after catalog requests).statement? =
        .ok (selectPrintings (aliasName 0) (outerConditions (aliasName 0) fragments)) ∧
      (selectPrintings (aliasName 0) (outerConditions (aliasName 0) fragments)).Scoped ∧
      (selectPrintings (aliasName 0) (outerConditions (aliasName 0) fragments)).introduced.map
        Prod.fst = (List.range count).map aliasName ∧
      (selectPrintings (aliasName 0) (outerConditions (aliasName 0) fragments)).text? = .ok text ∧
      (Search.after catalog requests).text? = .ok text := by
  obtain ⟨hcatalog, hfit⟩ := fit_after catalog requests
  have hstatement := statement_eq catalog.blocks hfit
  have hscoped := statement_scoped catalog.blocks hfit
  obtain ⟨text, htext, -⟩ := text_readable hscoped
  refine ⟨_, _, text, ?_, hscoped, statement_introduced catalog.blocks hfit, htext, ?_⟩
  · rw [Search.statement?, hcatalog, hstatement]
  · rw [Search.text?, compose, hcatalog, hstatement]
    change (Select.text? _).mapError Failure.statement = .ok text
    rw [htext]
    rfl

/-- **Aliases in turn.** A search that any requests built has a statement and a text. The
tables behind `FROM` and `JOIN`, read from left to right in the text, are those of the
tree, and their aliases are `t0`, `t1` and so on, each once. Every column of the tree
names an alias of its own selection and a column of the table under it. -/
theorem statement_wellScoped (catalog : Catalog) (requests : List Request) :
    ∃ (statement : Select) (text : String),
      (Search.after catalog requests).statement? = .ok statement ∧
      (Search.after catalog requests).text? = .ok text ∧
      introductions (tokens text.toList) = statement.introduced ∧
      statement.introduced.map Prod.fst =
        (List.range statement.introduced.length).map aliasName ∧
      statement.Scoped := by
  obtain ⟨fragments, count, text, hstatement, hscoped, haliases, hwritten, htext⟩ :=
    statement_after catalog requests
  obtain ⟨text', hwritten', -, -, hintroductions, -⟩ := text_readable hscoped
  obtain rfl : text' = text := Except.ok.inj (hwritten'.symm.trans hwritten)
  refine ⟨_, text', hstatement, htext, hintroductions, ?_, hscoped⟩
  have hlength := congrArg List.length haliases
  simp only [List.length_map, List.length_range] at hlength
  rw [hlength]
  exact haliases

/-- **Texts stay in literals.** In the text of a search that any requests built over any
catalog, the literals are read as the values and the wrapped words of the tree, in order,
and every other token is one that the library writes itself. The characters outside
literals are the code of the same tree with all of its texts emptied. -/
theorem statement_literals (catalog : Catalog) (requests : List Request) :
    ∃ (statement : Select) (text : String) (code : List Piece),
      (Search.after catalog requests).statement? = .ok statement ∧
      (Search.after catalog requests).text? = .ok text ∧
      literals (tokens text.toList) = statement.texts ∧
      (∀ t ∈ tokens text.toList, IsOwn t ∨ ∃ w, t = .literal w) ∧
      statement.emptied.pieces = .ok code ∧
      outside text.toList = codeOf code := by
  obtain ⟨fragments, count, text, hstatement, hscoped, -, hwritten, htext⟩ :=
    statement_after catalog requests
  obtain ⟨text', hwritten', hliterals, hown, -, code, hcode, houtside⟩ := text_readable hscoped
  obtain rfl : text' = text := Except.ok.inj (hwritten'.symm.trans hwritten)
  exact ⟨_, text', code, hstatement, htext, hliterals, hown, hcode, houtside⟩

end CardArchive
