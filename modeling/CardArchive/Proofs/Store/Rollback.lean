import CardArchive.Proofs.Store.Calls

/-!
# Sets that fail

A set is taken in row by row. When it fails, in its first card or in the last group of
faces, the rows inserted so far are in the tables already; the transaction that was begun
before the first of them is what takes them back. Here the insertions are followed one by
one, on a connection that knows its rows as they are and as they were when its transaction
was begun.

## What this module delivers

* `Inserting`: work that inserts rows and keeps them when it fails.
* `Inserting.set`: a set that is taken in row by row.
* `Follows` and `set_follows`: it has the outcome of `Tables.addSet`.
* `Connection` and `Connection.insertSet`: the work in its transaction.
* `insertSet_database`: what the connection shows is what the database does.
* `insertSet_undone`: a set that fails leaves nothing behind.
-/

set_option autoImplicit false

namespace CardArchive

/-! ## Work that inserts rows -/

/-- Work on the tables, row by row. The rows inserted before a failure stay. -/
abbrev Inserting (α : Type) := ExceptT Failure (StateM Tables) α

namespace Inserting

variable {α β γ δ : Type}

/-- The outcome of work, and the rows after it. -/
def runFrom (p : Inserting α) (t : Tables) : Except Failure α × Tables := (ExceptT.run p).run t

/-- What is read before a row is made. -/
def reading (r : Except Failure α) : Inserting α := ExceptT.mk (pure r)

/-- One statement, which inserts its row or fails before it does. `out` takes the tables
and the result out of what the statement comes to. -/
def statement (out : β → Tables × α) (work : Tables → Except Failure β) : Inserting α :=
  ExceptT.mk fun t =>
    match work t with
    | .ok b => (.ok (out b).2, (out b).1)
    | .error e => (.error e, t)

/-- A statement that comes to the tables alone. -/
def alone (t : Tables) : Tables × Unit := (t, ())

/-! ### A card row by row -/

/-- Some labels of a card. -/
def labels (s : Side) (card : Option String) : List Value → Inserting Unit
  | [] => pure ()
  | v :: vs => do
    let label ← reading (stored (storedText 2 v))
    statement alone fun t => stored (t.addLabel s card label)
    labels s card vs

/-- The labels in a field of a card. -/
def labelField (s : Side) (name : Option String) (card : Value) (field : String)
    (fallback : List Value) : Inserting Unit := do
  let found ← reading (shaped (CardData.labels card field fallback))
  labels s name found

/-- The amounts of mana of a card. -/
def amounts (card : Option String) : Counts → Inserting Unit
  | [] => pure ()
  | (symbol, n) :: rest => do
    let quantity ← reading (stored (storedInteger n))
    statement alone fun t => stored (t.addMana card symbol quantity)
    amounts card rest

/-- What is stored of a card beside its own row. The statistics are a single row. -/
def details (name : Option String) (card : Value) : Inserting Unit := do
  labelField .color name card "colors" [Tables.colorless]
  labelField .colorIdentity name card "colorIdentity" [Tables.colorless]
  labelField .supertype name card "supertypes" []
  labelField .type name card "types" []
  labelField .subtype name card "subtypes" []
  let manaCost ← reading (shaped (CardData.textField card "manaCost"))
  let counts ← reading (shaped (CardData.amounts manaCost))
  amounts name counts
  statement alone fun t => t.addStatistics name card

/-- The row of a card, and its details if the row is new. -/
def cardRow (name card : Value) : Inserting Unit := do
  let text ← reading (shaped (CardData.textField card "text"))
  let cmc ← reading (shaped (CardData.cost card CardData.costFields))
  let manaCost ← reading (shaped (CardData.textField card "manaCost"))
  let storedName ← reading (stored (storedText 1 name))
  let text ← reading (stored (storedText 2 text))
  let cmc ← reading (stored (storedInteger cmc))
  let manaCost ← reading (stored (storedText 4 manaCost))
  let isNew ← statement id fun t => stored (t.addCard storedName text cmc manaCost)
  if isNew then details storedName card else pure ()

/-- A card and its printing, and whether the printing is new. -/
def cardData (expansion card : Value) : Inserting Bool := do
  let name ← reading (shaped (CardData.name card))
  cardRow name card
  statement id fun t => t.addPrintingRow expansion name card

/-! ### A set row by row -/

/-- The cards of a set: the number of new printings, and the cards with several faces. -/
def cards (expansion : Value) : List Value → Inserting (Nat × List (Value × List Value))
  | [] => pure (0, [])
  | card :: rest => do
    let isNew ← cardData expansion card
    let faces ← reading (shaped (CardData.faces? card))
    let later ← cards expansion rest
    pure ((if isNew then 1 else 0) + later.1,
      (faces.map fun names => (card, names)).toList ++ later.2)

/-- The groups of faces of some cards, each of which is a single row. -/
def allFaces : List (Value × List Value) → Inserting Unit
  | [] => pure ()
  | (card, names) :: rest => do
    statement alone fun t => t.addFaces card names
    allFaces rest

/-- The row of a set and that of its block. -/
def setRow (name set : Value) : Inserting Unit := do
  let code ← reading (shaped (set.item "code"))
  let code ← reading (shaped (code.textFor "upper"))
  let size ← reading (shaped (Tables.claimedSize set))
  let released ← reading (shaped (set.item "releaseDate"))
  let storedName ← reading (stored (storedText 1 name))
  let size ← reading (stored (storedInteger size))
  let released ← reading (stored (storedText 4 released))
  statement alone fun t => stored (t.addExpansion storedName (some (Text.upper code)) size released)
  let block ← reading (shaped (set.memberOf "block"))
  if !block.truthy then pure ()
  else
    let block ← reading (stored (storedText 2 block))
    statement alone fun t => stored (t.addBlock storedName block)

/-- A set of the given name with all its cards, and the number of new printings. -/
def set (name set : Value) : Inserting Nat := do
  setRow name set
  let found ← reading (shaped (set.item "cards"))
  let found ← reading (shaped found.elements)
  let intake ← cards name found
  allFaces intake.2
  pure intake.1

/-! ## The same outcome -/

@[simp]
theorem runFrom_pure (a : α) (t : Tables) : (pure a : Inserting α).runFrom t = (.ok a, t) := rfl

theorem runFrom_bind (p : Inserting α) (q : α → Inserting β) (t : Tables) :
    (p >>= q).runFrom t =
      match p.runFrom t with
      | (.ok a, t') => (q a).runFrom t'
      | (.error e, t') => (.error e, t') := by
  simp only [runFrom, ExceptT.run_bind, StateT.run_bind]
  cases h : StateT.run (ExceptT.run p) t with
  | mk r t' =>
    cases r <;> rfl

/-- Work row by row that comes to `r`: it has the same result or the same failure, ends
with the same tables if it succeeds, and has only inserted rows in any case. -/
structure Follows (out : β → Tables × α) (p : Inserting α) (t : Tables) (r : Except Failure β) :
    Prop where
  outcome : (p.runFrom t).1 = r.map fun b => (out b).2
  tables : ∀ b, r = .ok b → (p.runFrom t).2 = (out b).1
  grows : t.Grows (p.runFrom t).2

/-- One piece of work after the other. -/
theorem Follows.bind {out : β → Tables × α} {out' : δ → Tables × γ} {p : Inserting α}
    {q : α → Inserting γ} {t : Tables} {r : Except Failure β} {g : β → Except Failure δ}
    (hp : Follows out p t r) (hq : ∀ b, r = .ok b → Follows out' (q (out b).2) (out b).1 (g b)) :
    Follows out' (p >>= q) t (r >>= g) := by
  obtain ⟨houtcome, htables, hgrows⟩ := hp
  cases hrun : p.runFrom t with
  | mk outcome t' =>
    rw [hrun] at houtcome htables hgrows
    -- the second piece runs only after a success, from the tables that the first one left
    cases r with
    | error e =>
      obtain rfl : outcome = .error e := houtcome
      have hwhole : (p >>= q).runFrom t = (.error e, t') := by rw [runFrom_bind, hrun]
      refine ⟨?_, ?_, ?_⟩
      · rw [hwhole]
        rfl
      · intro d hd
        cases hd
      · rw [hwhole]
        exact hgrows
    | ok b =>
      obtain rfl : outcome = .ok (out b).2 := houtcome
      obtain rfl : t' = (out b).1 := htables b rfl
      have hwhole : (p >>= q).runFrom t = (q (out b).2).runFrom (out b).1 := by
        rw [runFrom_bind, hrun]
      obtain ⟨hnext, hlast, hmore⟩ := hq b rfl
      exact ⟨by rw [hwhole]; exact hnext, by rw [hwhole]; exact hlast,
        by rw [hwhole]; exact hgrows.trans hmore⟩

/-- What is read is read the same, and the work goes on with it. -/
theorem Follows.read {out : β → Tables × γ} {q : α → Inserting γ} {t : Tables}
    {r : Except Failure α} {g : α → Except Failure β}
    (hq : ∀ a, r = .ok a → Follows out (q a) t (g a)) :
    Follows out (reading r >>= q) t (r >>= g) := by
  have hread : Follows (fun a => (t, a)) (reading r) t r := by
    refine ⟨?_, fun _ _ => rfl, Tables.Grows.refl t⟩
    cases r <;> rfl
  exact hread.bind hq

/-- A statement is the work itself. -/
theorem Follows.single {out : β → Tables × α} {work : Tables → Except Failure β} {t : Tables}
    (hgrows : ∀ b, work t = .ok b → t.Grows (out b).1) :
    Follows out (statement out work) t (work t) := by
  have hrun : (statement out work).runFrom t =
      match work t with
      | .ok b => (.ok (out b).2, (out b).1)
      | .error e => (.error e, t) := rfl
  cases hwork : work t with
  | error e =>
    rw [hwork] at hrun
    refine ⟨by rw [hrun]; rfl, ?_, by rw [hrun]; exact Tables.Grows.refl t⟩
    intro b hb
    cases hb
  | ok b =>
    rw [hwork] at hrun
    refine ⟨by rw [hrun]; rfl, ?_, by rw [hrun]; exact hgrows b hwork⟩
    rintro _ ⟨⟩
    rw [hrun]

/-- Nothing more to do. -/
theorem Follows.done {out : β → Tables × α} {t : Tables} {b : β} {a : α} (h : out b = (t, a)) :
    Follows out (pure a) t (.ok b) := by
  refine ⟨by rw [runFrom_pure, Except.map, h], ?_, Tables.Grows.refl t⟩
  rintro _ ⟨⟩
  rw [runFrom_pure, h]

theorem stored_bind (r : Except StorageFault α) (g : α → Except StorageFault β) :
    stored (r >>= g) = stored r >>= fun a => stored (g a) := by
  cases r <;> rfl

theorem labels_follows (s : Side) (card : Option String) (vs : List Value) (t : Tables) :
    Follows alone (labels s card vs) t (stored (t.addLabels s card vs)) := by
  -- induction on the labels, from any tables: those before a failing one have been inserted
  induction vs generalizing t with
  | nil => exact Follows.done rfl
  | cons v vs ih =>
    rw [Tables.addLabels, stored_bind]
    refine Follows.read fun label _ => ?_
    rw [stored_bind]
    have hrow : Follows alone (statement alone fun t => stored (t.addLabel s card label)) t
        (stored (t.addLabel s card label)) :=
      Follows.single fun t' h => Tables.addLabel_grows (stored_eq_ok.1 h)
    exact hrow.bind fun t' _ => ih t'

theorem labelField_follows (s : Side) (name : Option String) (card : Value) (field : String)
    (fallback : List Value) (t : Tables) :
    Follows alone (labelField s name card field fallback) t
      (t.addLabelField s name card field fallback) :=
  Follows.read fun found _ => labels_follows s name found t

theorem amounts_follows (card : Option String) (counts : Counts) (t : Tables) :
    Follows alone (amounts card counts) t (stored (t.addAmounts card counts)) := by
  induction counts generalizing t with
  | nil => exact Follows.done rfl
  | cons count rest ih =>
    obtain ⟨symbol, n⟩ := count
    rw [Tables.addAmounts, stored_bind]
    refine Follows.read fun quantity _ => ?_
    rw [stored_bind]
    have hrow : Follows alone (statement alone fun t => stored (t.addMana card symbol quantity)) t
        (stored (t.addMana card symbol quantity)) :=
      Follows.single fun t' h => Tables.addMana_grows (stored_eq_ok.1 h)
    exact hrow.bind fun t' _ => ih t'

theorem details_follows (name : Option String) (card : Value) (t : Tables) :
    Follows alone (details name card) t (t.addDetails name card) := by
  refine (labelField_follows .color name card "colors" _ t).bind fun t _ => ?_
  refine (labelField_follows .colorIdentity name card "colorIdentity" _ t).bind fun t _ => ?_
  refine (labelField_follows .supertype name card "supertypes" _ t).bind fun t _ => ?_
  refine (labelField_follows .type name card "types" _ t).bind fun t _ => ?_
  refine (labelField_follows .subtype name card "subtypes" _ t).bind fun t _ => ?_
  refine Follows.read fun manaCost _ => ?_
  refine Follows.read fun counts _ => ?_
  refine (amounts_follows name counts t).bind fun t _ => ?_
  exact Follows.single fun t' h => Tables.addStatistics_grows h

theorem cardRow_follows (name card : Value) (t : Tables) :
    Follows alone (cardRow name card) t (t.addCardRow name card) := by
  refine Follows.read fun text _ => ?_
  refine Follows.read fun cmc _ => ?_
  refine Follows.read fun manaCost _ => ?_
  refine Follows.read fun storedName _ => ?_
  refine Follows.read fun text _ => ?_
  refine Follows.read fun cmc _ => ?_
  refine Follows.read fun manaCost _ => ?_
  have hrow : Follows id (statement id fun t => stored (t.addCard storedName text cmc manaCost)) t
      (stored (t.addCard storedName text cmc manaCost)) :=
    Follows.single fun b h => Tables.addCard_grows (stored_eq_ok.1 h)
  refine hrow.bind fun b _ => ?_
  obtain ⟨t', isNew⟩ := b
  cases isNew with
  | true => exact details_follows storedName card t'
  | false => exact Follows.done rfl

theorem cardData_follows (expansion card : Value) (t : Tables) :
    Follows id (cardData expansion card) t (t.addCardData expansion card) := by
  refine Follows.read fun name _ => ?_
  refine (cardRow_follows name card t).bind fun t _ => ?_
  exact Follows.single fun b h => Tables.addPrintingRow_grows h

/-- What some cards come to, the tables on one side and the rest on the other. -/
def intake (i : Tables.Intake) : Tables × Nat × List (Value × List Value) :=
  (i.tables, i.added, i.faces)

theorem cards_follows (expansion : Value) (found : List Value) (t : Tables) :
    Follows intake (cards expansion found) t (t.addCards expansion found) := by
  induction found generalizing t with
  | nil => exact Follows.done rfl
  | cons card rest ih =>
    refine (cardData_follows expansion card t).bind fun b _ => ?_
    obtain ⟨t', isNew⟩ := b
    refine Follows.read fun faces _ => ?_
    exact (ih t').bind fun later _ => Follows.done rfl

theorem allFaces_follows (groups : List (Value × List Value)) (t : Tables) :
    Follows alone (allFaces groups) t (t.addAllFaces groups) := by
  induction groups generalizing t with
  | nil => exact Follows.done rfl
  | cons group rest ih =>
    obtain ⟨card, names⟩ := group
    have hrow : Follows alone (statement alone fun t => t.addFaces card names) t
        (t.addFaces card names) := Follows.single fun t' h => Tables.addFaces_grows h
    exact hrow.bind fun t' _ => ih t'

theorem setRow_follows (name set : Value) (t : Tables) :
    Follows alone (setRow name set) t (t.addSetRow name set) := by
  -- everything is read before the first row is inserted
  refine Follows.read fun code _ => ?_
  refine Follows.read fun code _ => ?_
  refine Follows.read fun size _ => ?_
  refine Follows.read fun released _ => ?_
  refine Follows.read fun storedName _ => ?_
  refine Follows.read fun size _ => ?_
  refine Follows.read fun released _ => ?_
  have hrow : Follows alone (statement alone fun t =>
      stored (t.addExpansion storedName (some (Text.upper code)) size released)) t
      (stored (t.addExpansion storedName (some (Text.upper code)) size released)) :=
    Follows.single fun t' h => Tables.addExpansion_grows (stored_eq_ok.1 h)
  refine hrow.bind fun t' _ => ?_
  refine Follows.read fun block _ => ?_
  by_cases hblock : block.truthy = true
  · simp only [hblock, Bool.not_true, Bool.false_eq_true, if_false]
    refine Follows.read fun block _ => ?_
    exact Follows.single fun b h => Tables.addBlock_grows (stored_eq_ok.1 h)
  · simp only [hblock, Bool.not_false, if_true]
    exact Follows.done rfl

/-- A set that is taken in row by row comes to what `Tables.addSet` says. -/
theorem set_follows (name found : Value) (t : Tables) :
    Follows id (set name found) t (t.addSet name found) := by
  refine (setRow_follows name found t).bind fun t _ => ?_
  refine Follows.read fun listed _ => ?_
  refine Follows.read fun listed _ => ?_
  refine (cards_follows name listed t).bind fun i _ => ?_
  exact (allFaces_follows i.faces i.tables).bind fun t _ => Follows.done rfl

end Inserting

/-! ## The transaction -/

/-- The rows as they are, and as they were when the open transaction was begun. -/
structure Connection where
  rows : Tables
  saved : Option Tables

namespace Connection

/-- A connection without an open transaction. -/
def closed (t : Tables) : Connection := ⟨t, none⟩

/-- What is known of a connection from outside. -/
def database (c : Connection) : Database := ⟨c.rows, c.saved.isSome⟩

/-- A transaction is begun, which remembers the rows. -/
def begin (c : Connection) : Except StorageFault Connection :=
  if c.saved.isSome then .error .alreadyOpen else .ok { c with saved := some c.rows }

/-- The transaction ends, and the rows stay as they are. -/
def commit (c : Connection) : Connection := { c with saved := none }

/-- The transaction ends, and the rows are again those that it remembers. -/
def rollback (c : Connection) : Connection := ⟨c.saved.getD c.rows, none⟩

/-- Work in a transaction of its own, which a failure rolls back. -/
def atomically {α : Type} (c : Connection) (work : Inserting α) : Connection × Except Failure α :=
  match c.begin with
  | .error e => (c, .error (.storage e))
  | .ok c =>
    match work.runFrom c.rows with
    | (.ok a, rows) => ({ c with rows := rows }.commit, .ok a)
    | (.error e, rows) => ({ c with rows := rows }.rollback, .error e)

/-- A set is taken in row by row. -/
def insertSet (c : Connection) (set : Value) : Connection × Except Failure Nat :=
  match setName set with
  | .error e => (c, .error e)
  | .ok name => c.atomically (Inserting.set name set)

/-- Work in a transaction of its own keeps its rows, or a failure after any number of
insertions leaves the connection as it was. -/
theorem atomically_closed {α : Type} (t : Tables) (work : Inserting α) :
    (closed t).atomically work =
      match work.runFrom t with
      | (.ok a, rows) => (closed rows, .ok a)
      | (.error e, _) => (closed t, .error e) := by
  change (match work.runFrom t with
    | (.ok a, rows) => (Connection.commit ⟨rows, some t⟩, .ok a)
    | (.error e, rows) => (Connection.rollback ⟨rows, some t⟩, .error e) :
      Connection × Except Failure α) = _
  cases work.runFrom t with
  | mk outcome rows =>
    cases outcome <;> rfl

/-- Work in a transaction, row by row, is what `Database.transact` makes of its outcome. -/
theorem atomically_database {α : Type} {c : Connection} {work : Inserting α}
    {whole : Tables → Except Failure (Tables × α)}
    (h : Inserting.Follows id work c.rows (whole c.rows)) :
    ((c.atomically work).1.database, (c.atomically work).2) = c.database.transact whole := by
  obtain ⟨t, saved⟩ := c
  cases saved with
  -- inside an open transaction neither of the two begins
  | some s => rfl
  | none =>
    obtain ⟨houtcome, htables, -⟩ := h
    have hconnection := atomically_closed t work
    cases hwhole : whole t with
    | error e =>
      rw [hwhole] at houtcome
      have hrun : work.runFrom t = (.error e, (work.runFrom t).2) := Prod.ext houtcome rfl
      rw [hrun] at hconnection
      change (((closed t).atomically work).1.database, ((closed t).atomically work).2) = _
      rw [hconnection]
      simp [Database.transact, database, closed, hwhole]
    | ok b =>
      rw [hwhole] at houtcome htables
      have hrun : work.runFrom t = (.ok b.2, b.1) := Prod.ext houtcome (htables b rfl)
      rw [hrun] at hconnection
      change (((closed t).atomically work).1.database, ((closed t).atomically work).2) = _
      rw [hconnection]
      simp [Database.transact, database, closed, hwhole]

/-- What a connection shows of a set that is taken in is what the database does. -/
theorem insertSet_database (c : Connection) (set : Value) :
    ((c.insertSet set).1.database, (c.insertSet set).2) = c.database.insertSet set := by
  unfold insertSet Database.insertSet
  cases setName set with
  | error e => rfl
  | ok name => exact atomically_database (Inserting.set_follows name set c.rows)

/-- Work that fails in its transaction leaves the connection as it was. -/
theorem atomically_error {α : Type} {t : Tables} {work : Inserting α} {e : Failure}
    (h : ((closed t).atomically work).2 = .error e) :
    (closed t).atomically work = (closed t, .error e) := by
  rw [atomically_closed] at h ⊢
  cases hrun : work.runFrom t with
  | mk outcome rows =>
    rw [hrun] at h
    cases outcome with
    | ok a => cases h
    | error e' =>
      obtain rfl := Except.error.inj h
      rfl

/-- A set that fails leaves the connection as it was. -/
theorem insertSet_error {t : Tables} {set : Value} {e : Failure}
    (h : ((closed t).insertSet set).2 = .error e) :
    (closed t).insertSet set = (closed t, .error e) := by
  unfold insertSet at h ⊢
  cases hname : setName set with
  | error e' =>
    rw [hname] at h
    obtain rfl := Except.error.inj h
    rfl
  | ok name =>
    rw [hname] at h
    exact atomically_error h

end Connection

/-- A set that fails leaves a database without an open transaction as it was: the rows that
were inserted one by one before the failure are gone, the transaction is over, and all later
calls are answered as if the set had never been handed over. -/
theorem insertSet_undone {db : Database} (hclosed : db.isOpen = false) {set : Value} {e : Failure}
    (hfailed : (db.insertSet set).2 = .error e) :
    (db.insertSet set).1 = db ∧
      (Connection.closed db.tables).insertSet set = (Connection.closed db.tables, .error e) ∧
      ∀ calls, (db.insertSet set).1.answers calls = db.answers calls := by
  obtain ⟨t, isOpen⟩ := db
  obtain rfl : isOpen = false := hclosed
  -- row by row and as a whole, the set fails alike
  have hsame : (((Connection.closed t).insertSet set).1.database,
      ((Connection.closed t).insertSet set).2) = Database.insertSet ⟨t, false⟩ set :=
    Connection.insertSet_database (Connection.closed t) set
  have hrows : (Connection.closed t).insertSet set = (Connection.closed t, .error e) :=
    Connection.insertSet_error ((congrArg Prod.snd hsame).trans hfailed)
  rw [hrows] at hsame
  have hback : (Database.insertSet ⟨t, false⟩ set).1 = ⟨t, false⟩ := (congrArg Prod.fst hsame).symm
  exact ⟨hback, hrows, fun calls => by rw [hback]⟩

/-- A set whose second card has no rarity. -/
def brokenSet : Value :=
  .object [("name", .text "Alpha"), ("code", .text "LEA"), ("releaseDate", .text "1993-08-05"),
    ("cards", .list [
      .object [("name", .text "Ornithopter"), ("number", .text "1"), ("rarity", .text "common"),
        ("types", .list [.text "Artifact", .text "Creature"])],
      .object [("name", .text "Mountain"), ("number", .text "2")]])]

/-- The set with the broken card has put two cards into the tables when it fails, and
neither of them stays. -/
theorem brokenSet_undone :
    Database.empty.isOpen = false ∧
      (Database.empty.insertSet brokenSet).2 =
        .error (.ingest (.unnumbered "Mountain" "Alpha")) ∧
      ((Inserting.set (.text "Alpha") brokenSet).runFrom .empty).2.cards.length = 2 ∧
      (Database.empty.insertSet brokenSet).1 = Database.empty := by
  have hfailed : (Database.empty.insertSet brokenSet).2 =
      .error (.ingest (.unnumbered "Mountain" "Alpha")) := by decide +kernel
  exact ⟨rfl, hfailed, by decide +kernel, (insertSet_undone rfl hfailed).1⟩

end CardArchive
