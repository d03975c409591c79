import CardArchive.Proofs.Search.Selected
import CardArchive.Proofs.Statement.Taken

/-!
# Searches that are answered

The statement of a search is printed, looked at by the database, and answered if it is
taken. A search whose statement is taken, without a word that is too long, is given the
printings that its statement says. A search whose statement is not taken is given nothing.

## What this module delivers

* `Search.IsTaken`: a search whose statement is taken within a frame.
* `prepared_eq_ok_iff`: the statements that are taken, by their texts.
* `found_of_isTaken`, `found_of_not_prepared`: what the database gives.
* `Tables.Finds` and `finds_of_isTaken`: the printings that a search is given.
-/

set_option autoImplicit false

namespace CardArchive

/-- The database takes the statement of a search within a frame, and no word of it is too
long to be looked for. -/
def Search.IsTaken (s : Search) (f : Frame) : Prop :=
  ∃ statement, s.prepared f = .ok statement ∧ statement.hasLongWord = false

theorem isTaken_iff_any {s : Search} {f : Frame} :
    ((s.prepared f).toOption.any fun statement => !statement.hasLongWord) = true ↔
      s.IsTaken f := by
  simp only [Option.any_eq_true, toOption_eq_some, Bool.not_eq_true', Search.IsTaken]

instance (s : Search) (f : Frame) : Decidable (s.IsTaken f) := decidable_of_iff _ isTaken_iff_any

section

variable {t : Tables} {s : Search} {f : Frame}

theorem printed?_eq_ok_iff {text : String} :
    s.printed? = .ok text ↔ s.text? = .ok text ∧ s.filters.arePrintable = true := by
  rw [Search.printed?, bind_eq_ok]
  constructor
  · rintro ⟨written, hwritten, h⟩
    split at h
    · obtain rfl := Except.ok.inj h
      exact ⟨hwritten, by assumption⟩
    · cases h
  · rintro ⟨hwritten, hprintable⟩
    exact ⟨text, hwritten, if_pos hprintable⟩

/-- A statement is taken if it can be printed and is within all limits. -/
theorem prepared_eq_ok_iff {statement : Select} :
    s.prepared f = .ok statement ↔ ∃ text, s.printed? = .ok text ∧
      s.statement? = .ok statement ∧ f.Takes statement text := by
  simp only [Search.prepared, bind_eq_ok]
  constructor
  · rintro ⟨text, htext, made, hmade, h⟩
    cases hrefusal : f.refusal? made text with
    | some r =>
      rw [hrefusal] at h
      cases h
    | none =>
      rw [hrefusal] at h
      obtain rfl := Except.ok.inj h
      exact ⟨text, htext, hmade, Frame.refusal?_eq_none_iff.1 hrefusal⟩
  · rintro ⟨text, htext, hmade, htakes⟩
    refine ⟨text, htext, statement, hmade, ?_⟩
    rw [Frame.refusal?_eq_none_iff.2 htakes]
    rfl

/-- A statement that is taken is the one that is written. -/
theorem written_of_prepared {statement : Select} (h : s.prepared f = .ok statement) :
    s.written = .ok statement := by
  obtain ⟨text, htext, hmade, -⟩ := prepared_eq_ok_iff.1 h
  obtain ⟨hwritten, -⟩ := printed?_eq_ok_iff.1 htext
  rw [Search.statement?] at hmade
  rw [Search.text?, compose, hmade, ok_bind] at hwritten
  rw [Search.written, Search.statement?, hmade, ok_bind, hwritten]
  rfl

/-- Without long words, a statement that is taken is answered by what it says. -/
theorem answered_of_hasLongWord {statement : Select} (h : statement.hasLongWord = false) :
    t.answered statement =
      .ok ((statement.rows t.relations Scope.empty).map PrintingKey.ofCells) := by
  rw [Tables.answered, Select.overruns_eq_false _ _ _ h]
  rfl

/-- A search whose statement is taken is given what it selects. -/
theorem found_of_isTaken (h : s.IsTaken f) : t.found f s = t.select s := by
  obtain ⟨statement, hprepared, hwords⟩ := h
  rw [Tables.found, hprepared, Tables.select, written_of_prepared hprepared]
  exact answered_of_hasLongWord hwords

/-- A search whose statement is not taken is given nothing. -/
theorem found_of_not_prepared {e : Failure} (h : s.prepared f = .error e) :
    t.found f s = .error e := by
  rw [Tables.found, h]
  rfl

/-- What is taken where a page is listed is taken in every frame. -/
theorem Search.IsTaken.of_listing (h : s.IsTaken .listing) (f : Frame) : s.IsTaken f := by
  obtain ⟨statement, hprepared, hwords⟩ := h
  obtain ⟨text, htext, hmade, htakes⟩ := prepared_eq_ok_iff.1 hprepared
  exact ⟨statement, prepared_eq_ok_iff.2 ⟨text, htext, hmade, htakes.of_listing f⟩, hwords⟩

/-- A search is given the stored printings that have a property, each of them once, and
nothing else. -/
def Tables.Finds (t : Tables) (f : Frame) (s : Search) (P : PrintingRow → Prop) : Prop :=
  ∃ keys, t.found f s = .ok keys ∧ keys.Nodup ∧ (∀ k ∈ keys, ∃ r ∈ t.printings, r.key = k) ∧
    ∀ r ∈ t.printings, r.key ∈ keys ↔ P r

theorem finds_of_isTaken {P : PrintingRow → Prop} (htaken : s.IsTaken f) (h : t.Selects s P) :
    t.Finds f s P := by
  obtain ⟨keys, hselect, hkeys⟩ := h
  exact ⟨keys, (found_of_isTaken htaken).trans hselect, hkeys⟩

end

end CardArchive
