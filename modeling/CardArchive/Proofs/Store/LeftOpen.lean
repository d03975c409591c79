import CardArchive.Proofs.Deck.Refinement
import CardArchive.Proofs.Store.FirstWins

/-!
# Transactions that stay open

Sets and instances are written in a transaction that is begun and ended by the call itself.
The other changes of decks end the transaction that they open on their way, unless one of
their values can not be put into a row: then the call fails with its transaction open. No
row is changed by that, but no transaction can be begun any more until a change of a deck
gets through.

## What this module delivers

* `Usage` and `StoreCall.usage`: what a call does with the transaction of the connection.
* `CallsAs` and `callsAs_usage`: one call, with an open transaction and without.
* `answers_opened`, `answers_of_ends`: calls while a transaction is open.
* `failed_call`: what a call that fails leaves behind.
* `deleteDeck_blocks`: a failure after which nothing is taken in.
-/

set_option autoImplicit false

namespace CardArchive

/-! ## What a call does with the transaction -/

/-- What a call does with the transaction of the connection. -/
inductive Usage where
  /-- It only reads, or is refused before it begins. -/
  | idle
  /-- It begins one of its own and ends it. -/
  | own
  /-- It ends the open one, which may be the one it has opened itself. -/
  | ends
  /-- It fails and leaves one open. -/
  | leaves
deriving DecidableEq

/-- What putting a value into a text column of a deck does with the transaction. A value that
is no text leaves it open, and so does one that counts as none if there is a row that would
lack it. -/
def Tables.textUsage (t : Tables) (id : Int) (value : Value) : Usage :=
  match storedText 1 value with
  | .error _ => .leaves
  | .ok text => if inWord id && (text.isSome || !t.hasDeck id) then .ends else .leaves

/-- What a call does with the transaction of the connection. -/
def StoreCall.usage (t : Tables) : StoreCall → Usage
  | .insertSet set =>
    match setName set with
    | .ok _ => .own
    | .error _ => .idle
  | .addDeck _ => .own
  | .updateDeck i =>
    match Database.ownerOf t i.1 with
    | .ok _ => .own
    | .error _ => .idle
  | .deleteDeck id => if inWord id then .ends else .leaves
  | .renameDeck id name => if name.truthy then t.textUsage id name else .idle
  | .describeDeck id description =>
    if description.isNull then .idle else t.textUsage id description
  | .getCard _ | .getDeck _ | .getDecks => .idle

namespace Database

/-- The database with a transaction open. -/
def opened (db : Database) : Database := ⟨db.tables, true⟩

/-- The answer to a call while a transaction is open. -/
def answerOpened (db : Database) (c : StoreCall) : StoreAnswer :=
  if c.usage db.tables = .own then .failed (.storage .alreadyOpen) else (db.call c).2

/-! ## Changes of decks -/

section Call

variable {db : Database} {c : StoreCall}

/-- An outcome that is answered by a failure is one. -/
theorem eq_error_of_failed {α : Type} (answer : α → StoreAnswer)
    (hanswer : ∀ a e, answer a ≠ .failed e) {r : Except Failure α} {e : Failure}
    (h : StoreAnswer.ofOutcome answer r = .failed e) : r = .error e := by
  cases r with
  | ok a => exact absurd h (hanswer a e)
  | error e' => rw [StoreAnswer.failed.inj h]

/-- A change of a deck that fails changes no row. -/
theorem change_tables_of_error {id : Except Failure Int} {work : Int → Except Failure Tables}
    {e : Failure} (h : (db.change id work).2 = .error e) :
    (db.change id work).1.tables = db.tables := by
  unfold change at h ⊢
  cases id with
  | error e' => rfl
  | ok id =>
    cases hdeck : db.tables.hasDeck id with
    | false =>
      simp only [hdeck, Bool.false_eq_true, if_false]
    | true =>
      simp only [hdeck, if_true] at h ⊢
      cases hwork : work id with
      | error e' => rfl
      | ok t =>
        rw [hwork] at h
        cases h

theorem setText_tables_of_error {id : Int} {column : String} {value : Value}
    {put : String → DeckRow → DeckRow} {e : Failure}
    (h : (db.setText id column value put).2 = .error e) :
    (db.setText id column value put).1.tables = db.tables := by
  unfold setText at h ⊢
  cases htext : stored (storedText 1 value) with
  | error e' => rfl
  | ok text =>
    rw [htext] at h
    exact change_tables_of_error h

/-- A change of a deck that reaches the rows ends the transaction, also without a row to
change. -/
theorem change_isOpen {id : Int} (hword : inWord id = true) {work : Int → Except Failure Tables}
    (hwork : db.tables.hasDeck id = true → ∃ t, work id = .ok t) :
    (db.change (stored (storedInteger id)) work).1.isOpen = false := by
  rw [stored_integer hword]
  cases hdeck : db.tables.hasDeck id with
  | true =>
    obtain ⟨t, ht⟩ := hwork hdeck
    rw [change, if_pos hdeck, ht]
  | false => rw [change, if_neg (Bool.eq_false_iff.1 hdeck)]

/-- An id that can not be stored leaves the transaction open. -/
theorem change_of_outsideWord {id : Int} (hword : inWord id = false)
    (work : Int → Except Failure Tables) :
    db.change (stored (storedInteger id)) work = (db.opened, .error (.storage .outsideWord)) := by
  rw [storedInteger, hword]
  rfl

/-- Putting a text into a deck, by what it does with the transaction. -/
theorem setText_usage (db : Database) (id : Int) (column : String) (value : Value)
    (put : String → DeckRow → DeckRow) :
    (db.tables.textUsage id value = .ends ∧ (db.setText id column value put).1.isOpen = false) ∨
      (db.tables.textUsage id value = .leaves ∧
        ∃ e, db.setText id column value put = (db.opened, .error e)) := by
  unfold Tables.textUsage setText
  cases htext : storedText 1 value with
  | error e => exact .inr ⟨rfl, _, rfl⟩
  | ok text =>
    cases hword : inWord id with
    | false => exact .inr ⟨rfl, _, change_of_outsideWord hword _⟩
    | true =>
      cases text with
      | some s => exact .inl ⟨rfl, change_isOpen hword fun _ => ⟨_, rfl⟩⟩
      | none =>
        -- a missing text only matters to a deck that is there
        cases hdeck : db.tables.hasDeck id with
        | false => exact .inl ⟨rfl, change_isOpen hword fun h => by rw [hdeck] at h; cases h⟩
        | true =>
          refine .inr ⟨rfl, .storage (.missingValue "Deck" column), ?_⟩
          change db.change (stored (storedInteger id)) _ = _
          rw [stored_integer hword, change, if_pos hdeck]
          rfl

/-! ## One call -/

/-- What a call does on a connection without an open transaction, and on one with an open one,
by what it does with the transaction. -/
def CallsAs (db : Database) (c : StoreCall) : Usage → Prop
  | .idle => (db.call c).1 = db ∧ db.opened.call c = (db.opened, (db.call c).2)
  | .own => (db.isOpen = false → (db.call c).1.isOpen = false) ∧
    db.opened.call c = (db.opened, .failed (.storage .alreadyOpen))
  | .ends => (db.call c).1.isOpen = false ∧ db.opened.call c = db.call c
  | .leaves => ∃ e, db.call c = (db.opened, .failed e) ∧ db.opened.call c = (db.opened, .failed e)

/-- A call that is refused by what it is given, and by the rows, does nothing. -/
theorem callsAs_idle {a : StoreAnswer}
    (hcall : ∀ db' : Database, db'.tables = db.tables → db'.call c = (db', a)) :
    db.CallsAs c .idle := by
  refine ⟨?_, ?_⟩
  · rw [hcall db rfl]
  · rw [hcall db rfl, hcall db.opened rfl]

/-- A call that does its work in a transaction of its own. -/
theorem callsAs_own {α : Type} (answer : α → StoreAnswer)
    (work : Tables → Except Failure (Tables × α))
    (hcall : ∀ db' : Database, db'.tables = db.tables →
      db'.call c = ((db'.transact work).1, .ofOutcome answer (db'.transact work).2)) :
    db.CallsAs c .own := by
  refine ⟨fun hclosed => ?_, hcall db.opened rfl⟩
  rw [hcall db rfl]
  cases hwork : work db.tables with
  | ok result => rw [transact_of_ok hclosed hwork]
  | error e => rw [transact_of_error hclosed hwork, hclosed]

theorem callsAs_insertSet (db : Database) (set : Value) :
    db.CallsAs (.insertSet set) ((StoreCall.insertSet set).usage db.tables) := by
  cases hname : setName set with
  | error e =>
    have husage : (StoreCall.insertSet set).usage db.tables = .idle := by
      rw [StoreCall.usage, hname]
    rw [husage]
    refine callsAs_idle (a := .failed e) fun db' _ => ?_
    rw [call, Database.insertSet, hname]
    rfl
  | ok name =>
    have husage : (StoreCall.insertSet set).usage db.tables = .own := by
      rw [StoreCall.usage, hname]
    rw [husage]
    refine callsAs_own .added (fun t => t.addSet name set) fun db' _ => ?_
    rw [call, Database.insertSet, hname]

theorem callsAs_updateDeck (db : Database) (i : CheckedInstance) :
    db.CallsAs (.updateDeck i) ((StoreCall.updateDeck i).usage db.tables) := by
  cases howner : ownerOf db.tables i.1 with
  | error e =>
    have husage : (StoreCall.updateDeck i).usage db.tables = .idle := by
      rw [StoreCall.usage, howner]
    rw [husage]
    refine callsAs_idle (a := .failed e) fun db' hsame => ?_
    rw [call, Database.updateDeck, hsame, howner]
    rfl
  | ok id =>
    have husage : (StoreCall.updateDeck i).usage db.tables = .own := by
      rw [StoreCall.usage, howner]
    rw [husage]
    refine callsAs_own (fun _ => .done) (fun t => (t.addInstance id i.1).map fun t => (t, ()))
      fun db' hsame => ?_
    rw [call, Database.updateDeck, hsame, howner]

theorem callsAs_deleteDeck (db : Database) (id : Int) :
    db.CallsAs (.deleteDeck id) ((StoreCall.deleteDeck id).usage db.tables) := by
  cases hword : inWord id with
  | true =>
    have husage : (StoreCall.deleteDeck id).usage db.tables = .ends := by
      rw [StoreCall.usage, if_pos hword]
    rw [husage]
    exact ⟨change_isOpen hword fun _ => ⟨_, rfl⟩, rfl⟩
  | false =>
    have husage : (StoreCall.deleteDeck id).usage db.tables = .leaves := by
      rw [StoreCall.usage, if_neg (Bool.eq_false_iff.1 hword)]
    rw [husage]
    have hcall : db.call (.deleteDeck id) = (db.opened, .failed (.storage .outsideWord)) := by
      rw [call, Database.deleteDeck, change_of_outsideWord hword]
      rfl
    exact ⟨_, hcall, hcall⟩

/-- A call that puts a text into a deck. -/
theorem callsAs_setText {id : Int} {value : Value} (column : String)
    (put : String → DeckRow → DeckRow)
    (hcall : ∀ db' : Database, db'.tables = db.tables → db'.call c =
      ((db.setText id column value put).1,
        .ofOutcome (fun _ => .done) (db.setText id column value put).2)) :
    db.CallsAs c (db.tables.textUsage id value) := by
  have hopened := hcall db.opened rfl
  have hdirect := hcall db rfl
  rcases db.setText_usage id column value put with ⟨husage, hends⟩ | ⟨husage, e, hleaves⟩
  · rw [husage]
    refine ⟨?_, hopened.trans hdirect.symm⟩
    rw [hdirect]
    exact hends
  · rw [husage]
    rw [hleaves] at hopened hdirect
    exact ⟨e, hdirect, hopened⟩

theorem setText_congr {db' : Database} (hsame : db'.tables = db.tables) (id : Int)
    (column : String) (value : Value) (put : String → DeckRow → DeckRow) :
    db'.setText id column value put = db.setText id column value put := by
  simp only [setText, change, hsame]

theorem callsAs_renameDeck (db : Database) (id : Int) (name : Value) :
    db.CallsAs (.renameDeck id name) ((StoreCall.renameDeck id name).usage db.tables) := by
  cases htruthy : name.truthy with
  | false =>
    have husage : (StoreCall.renameDeck id name).usage db.tables = .idle := by
      rw [StoreCall.usage, htruthy]
      rfl
    rw [husage]
    refine callsAs_idle (a := .failed (.deck .noName)) fun db' _ => ?_
    rw [call, Database.renameDeck, htruthy]
    rfl
  | true =>
    have husage : (StoreCall.renameDeck id name).usage db.tables =
        db.tables.textUsage id name := by
      rw [StoreCall.usage, if_pos htruthy]
    rw [husage]
    refine callsAs_setText "name" (fun s r => { r with name := s })
      fun db' hsame => ?_
    rw [← setText_congr hsame, call, Database.renameDeck, htruthy]
    rfl

theorem callsAs_describeDeck (db : Database) (id : Int) (description : Value) :
    db.CallsAs (.describeDeck id description)
      ((StoreCall.describeDeck id description).usage db.tables) := by
  cases hnull : description.isNull with
  | true =>
    have husage : (StoreCall.describeDeck id description).usage db.tables = .idle := by
      rw [StoreCall.usage, if_pos hnull]
    rw [husage]
    refine callsAs_idle (a := .failed (.deck .noDescription)) fun db' _ => ?_
    rw [call, Database.describeDeck, hnull]
    rfl
  | false =>
    have husage : (StoreCall.describeDeck id description).usage db.tables =
        db.tables.textUsage id description := by
      rw [StoreCall.usage, if_neg (Bool.eq_false_iff.1 hnull)]
    rw [husage]
    refine callsAs_setText "description"
      (fun s r => { r with description := s }) fun db' hsame => ?_
    rw [← setText_congr hsame, call, Database.describeDeck, hnull]
    rfl

/-- Every call does with the transaction what its usage says. -/
theorem callsAs_usage (db : Database) (c : StoreCall) : db.CallsAs c (c.usage db.tables) := by
  cases c with
  | insertSet set => exact callsAs_insertSet db set
  | addDeck d => exact callsAs_own .id (fun t => t.addDeck d.1) fun _ _ => rfl
  | updateDeck i => exact callsAs_updateDeck db i
  | deleteDeck id => exact callsAs_deleteDeck db id
  | renameDeck id name => exact callsAs_renameDeck db id name
  | describeDeck id description => exact callsAs_describeDeck db id description
  | getCard name => exact ⟨rfl, rfl⟩
  | getDeck id => exact ⟨rfl, rfl⟩
  | getDecks => exact ⟨rfl, rfl⟩

/-- A transaction is open after a call exactly if the call leaves it so. -/
theorem call_isOpen (hclosed : db.isOpen = false) (c : StoreCall) :
    (db.call c).1.isOpen = true ↔ c.usage db.tables = .leaves := by
  have hcalls := db.callsAs_usage c
  cases husage : c.usage db.tables with
  | idle =>
    rw [husage] at hcalls
    rw [hcalls.1, hclosed]
    exact iff_of_false Bool.false_ne_true nofun
  | own =>
    rw [husage] at hcalls
    rw [hcalls.1 hclosed]
    exact iff_of_false Bool.false_ne_true nofun
  | ends =>
    rw [husage] at hcalls
    rw [hcalls.1]
    exact iff_of_false Bool.false_ne_true nofun
  | leaves =>
    rw [husage] at hcalls
    obtain ⟨e, hcall, -⟩ := hcalls
    rw [hcall]
    exact iff_of_true rfl rfl

/-- A call that fails changes no row. -/
theorem call_tables_of_failed {e : Failure} (h : (db.call c).2 = .failed e) :
    (db.call c).1.tables = db.tables := by
  cases c with
  | insertSet set => exact insertSet_refused (eq_error_of_failed .added (fun _ _ => nofun) h)
  | addDeck d =>
    have herror : (db.addDeck d.1).2 = .error e := eq_error_of_failed .id (fun _ _ => nofun) h
    exact congrArg Database.tables (transact_error herror)
  | updateDeck i =>
    have herror : (db.updateDeck i.1).2 = .error e :=
      eq_error_of_failed (fun _ => .done) (fun _ _ => nofun) h
    change (db.updateDeck i.1).1.tables = db.tables
    unfold updateDeck at herror ⊢
    cases howner : ownerOf db.tables i.1 with
    | error e' => rfl
    | ok id =>
      rw [howner] at herror
      exact congrArg Database.tables (transact_error herror)
  | deleteDeck id =>
    exact change_tables_of_error (eq_error_of_failed (fun _ => .done) (fun _ _ => nofun) h)
  | renameDeck id name =>
    have herror : (db.renameDeck id name).2 = .error e :=
      eq_error_of_failed (fun _ => .done) (fun _ _ => nofun) h
    change (db.renameDeck id name).1.tables = db.tables
    unfold renameDeck at herror ⊢
    cases htruthy : name.truthy with
    | false => rfl
    | true =>
      rw [htruthy] at herror
      exact setText_tables_of_error herror
  | describeDeck id description =>
    have herror : (db.describeDeck id description).2 = .error e :=
      eq_error_of_failed (fun _ => .done) (fun _ _ => nofun) h
    change (db.describeDeck id description).1.tables = db.tables
    unfold describeDeck at herror ⊢
    cases hnull : description.isNull with
    | true => rfl
    | false =>
      rw [hnull] at herror
      exact setText_tables_of_error herror
  | getCard name => rfl
  | getDeck id => rfl
  | getDecks => rfl

end Call

/-! ## Calls while a transaction is open -/

section Run

variable {db : Database}

/-- A call that does not end the open transaction changes nothing. -/
theorem call_opened {c : StoreCall} (h : c.usage db.tables ≠ .ends) :
    db.opened.call c = (db.opened, db.answerOpened c) := by
  have hcalls := db.callsAs_usage c
  unfold answerOpened
  cases husage : c.usage db.tables with
  | idle =>
    rw [husage] at hcalls
    rw [if_neg (fun hc => nomatch hc)]
    exact hcalls.2
  | own =>
    rw [husage] at hcalls
    rw [if_pos rfl]
    exact hcalls.2
  | ends => exact absurd husage h
  | leaves =>
    rw [husage] at hcalls
    obtain ⟨e, hdirect, hopened⟩ := hcalls
    rw [if_neg (fun hc => nomatch hc), hdirect]
    exact hopened

/-- Until a call ends the transaction, each is answered from the same rows. -/
theorem answers_opened {before : List StoreCall}
    (hbefore : ∀ c ∈ before, c.usage db.tables ≠ .ends) (calls : List StoreCall) :
    db.opened.answers (before ++ calls) =
      before.map db.answerOpened ++ db.opened.answers calls := by
  induction before with
  | nil => rfl
  | cons c rest ih =>
    obtain ⟨hc, hrest⟩ := List.forall_mem_cons.1 hbefore
    rw [List.cons_append, answers, call_opened hc, ih hrest]
    rfl

/-- From the call on that ends the transaction it is as if there had been none. -/
theorem answers_of_ends {c : StoreCall} (h : c.usage db.tables = .ends)
    (calls : List StoreCall) : db.opened.answers (c :: calls) = db.answers (c :: calls) := by
  have hcalls := db.callsAs_usage c
  rw [h] at hcalls
  rw [answers, answers, hcalls.2]

end Run

end Database

/-- A call that fails, on a database without an open transaction, changes no row. It leaves a
transaction open exactly if one of its values could not be put into a row. If it does not,
it leaves no trace. If it does, later calls are answered from the same rows, but what needs a
transaction of its own is refused, until a change of a deck ends the transaction; from then
on it is as if the failed call had never been made. -/
theorem failed_call {db : Database} (hclosed : db.isOpen = false) {c : StoreCall} {e : Failure}
    (hfailed : (db.call c).2 = .failed e) :
    (db.call c).1.tables = db.tables ∧
      ((db.call c).1.isOpen = true ↔ c.usage db.tables = .leaves) ∧
      (c.usage db.tables ≠ .leaves → (db.call c).1 = db) ∧
      (c.usage db.tables = .leaves →
        ∀ before : List StoreCall, (∀ c' ∈ before, c'.usage db.tables ≠ .ends) →
          (db.call c).1.answers before = before.map db.answerOpened ∧
            ∀ last after, last.usage db.tables = .ends →
              (db.call c).1.answers (before ++ last :: after) =
                before.map db.answerOpened ++ db.answers (last :: after)) := by
  have htables := Database.call_tables_of_failed hfailed
  have hopen := Database.call_isOpen hclosed c
  refine ⟨htables, hopen, fun husage => ?_, fun husage before hbefore => ?_⟩
  · -- without an open transaction the rows are all there is
    have hback : (db.call c).1.isOpen = false := Bool.eq_false_iff.2 (mt hopen.1 husage)
    rw [← Database.closed_eq hback, htables, Database.closed_eq hclosed]
  · have hafter : (db.call c).1 = db.opened := by
      have hcalls := db.callsAs_usage c
      rw [husage] at hcalls
      obtain ⟨e', hcall, -⟩ := hcalls
      rw [hcall]
    rw [hafter]
    refine ⟨?_, fun last after hlast => ?_⟩
    · have hanswers := Database.answers_opened hbefore []
      rwa [List.append_nil, Database.answers, List.append_nil] at hanswers
    · rw [Database.answers_opened hbefore, Database.answers_of_ends hlast]

/-- A set with a single card. -/
def singleCardSet : Value :=
  .object [("name", .text "Alpha"), ("code", .text "LEA"), ("releaseDate", .text "1993-08-05"),
    ("cards", .list [.object [("name", .text "Air Elemental"), ("number", .text "46"),
      ("rarity", .text "uncommon"), ("types", .list [.text "Creature"])]])]

theorem insertSet_singleCardSet : (Database.empty.insertSet singleCardSet).2 = .ok 1 := by
  decide +kernel

/-- After a removal whose id can not be stored, cards are read and sets are refused. The next
removal, of a deck that is not there, fails too, and after it the set is taken in. -/
theorem deleteDeck_pending :
    Database.empty.isOpen = false ∧
      (Database.empty.call (.deleteDeck 9223372036854775808)).2 =
        .failed (.storage .outsideWord) ∧
      (Database.empty.call (.deleteDeck 9223372036854775808)).1.answers
          [.getCard "Air Elemental", .insertSet singleCardSet, .deleteDeck 1,
            .insertSet singleCardSet] =
        [.card none, .failed (.storage .alreadyOpen), .failed (.deck (.unknownDeck "1")),
          .added 1] := by
  have hpending := (failed_call (c := .deleteDeck 9223372036854775808)
    (rfl : Database.empty.isOpen = false) rfl).2.2.2 rfl
  have hbefore : ∀ c ∈ [StoreCall.getCard "Air Elemental", .insertSet singleCardSet],
      c.usage Database.empty.tables ≠ .ends := by
    intro c hc
    rcases List.mem_pair.1 hc with rfl | rfl
    · decide
    · decide +kernel
  have hlater := (hpending _ hbefore).2 (.deleteDeck 1) [.insertSet singleCardSet] rfl
  refine ⟨rfl, rfl, hlater.trans ?_⟩
  have hrefused : Database.empty.answerOpened (.insertSet singleCardSet) =
      .failed (.storage .alreadyOpen) := if_pos (by decide +kernel)
  have hadded : Database.empty.answers [.deleteDeck 1, .insertSet singleCardSet] =
      [.failed (.deck (.unknownDeck "1")), .added 1] := by
    change [StoreAnswer.failed _, .ofOutcome .added (Database.empty.insertSet singleCardSet).2] = _
    rw [insertSet_singleCardSet]
    rfl
  rw [hadded, List.map_cons, List.map_singleton, hrefused]
  rfl

/-- A set that would have been taken in is refused after a removal that fails. -/
theorem deleteDeck_blocks :
    (Database.ran []).isOpen = false ∧
      ((Database.ran []).call (.deleteDeck 9223372036854775808)).2 =
        .failed (.storage .outsideWord) ∧
      ((Database.ran []).call (.deleteDeck 9223372036854775808)).1.isOpen = true ∧
      (Database.ran []).answers [.insertSet singleCardSet] = [.added 1] ∧
      ((Database.ran []).call (.deleteDeck 9223372036854775808)).1.answers
        [.insertSet singleCardSet] = [.failed (.storage .alreadyOpen)] := by
  refine ⟨rfl, rfl, rfl, ?_, rfl⟩
  change [StoreAnswer.ofOutcome .added (Database.empty.insertSet singleCardSet).2] = _
  rw [insertSet_singleCardSet]
  rfl

end CardArchive
