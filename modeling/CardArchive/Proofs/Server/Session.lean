import CardArchive.Proofs.Store.Stock
import CardArchive.Server.Answers
import CardArchive.Store.SetFile

/-!
# Sessions

A session is a server that runs while its database grows: sets are taken in, one by one
or from files, tools are called, and now and then the server itself is filled with sets,
after which it starts without a catalog. The catalog is loaded by the first search and
kept until the next fill.

## What this module delivers

* `Event`, `Session.step` and `Session.run`: what happens in a session.
* `searched`: whether there was a search since the last fill.
* `step_server`: the server after one event.
* `LoadedAt`, `Keeps` and `keeps_run`: the catalog that the server of a session keeps.
-/

set_option autoImplicit false

namespace CardArchive

/-- What can happen in a session: a set is taken in, alone or from a file of one set or of
many, the server is filled with sets, or a tool is called. -/
inductive Event where
  | insertSet (set : Value)
  | importSet (path content : String)
  | importSets (content : String)
  | fill (sets : List Value)
  | call (name : String) (args : Value)

/-- A running server and its database. -/
structure Session where
  database : Database
  server : Server

namespace Event

/-- Whether the server is filled. -/
def isFill : Event → Bool
  | fill _ => true
  | _ => false

/-- Whether cards are searched, with arguments that have fields. -/
def isSearch : Event → Bool
  | call name args => name == Tool.searchCards.name && args.isObject
  | _ => false

end Event

/-- Whether there was a search since the last fill, or since the start if there was no
fill. -/
def searched (events : List Event) : Bool :=
  events.foldl (fun known e => !e.isFill && (known || e.isSearch)) false

namespace Session

/-- The session of a new server over a database. -/
def start (db : Database) : Session := ⟨db, .fresh⟩

/-- The session after a change of the database that succeeded. A session is not continued
after one that failed. -/
def continued {α : Type} (server : Server) : Database × Except Failure α → Option Session
  | (db, .ok _) => some ⟨db, server⟩
  | (_, .error _) => none

/-- The session after an event. A call of a tool always counts, whatever its answer. -/
def step (s : Session) : Event → Option Session
  | .insertSet set => continued s.server (s.database.insertSet set)
  | .importSet path content => continued s.server (s.database.importSet path content)
  | .importSets content =>
    continued s.server ((s.database.importSets content).database,
      (s.database.importSets content).result)
  | .fill sets => continued .fresh (s.database.insertSets sets)
  | .call name args => some ⟨s.database, (s.server.call s.database.tables name args).1⟩

/-- The session after some events. -/
def run (s : Session) (events : List Event) : Option Session := events.foldlM step s

/-- The answer of the running server to a search. -/
def search (s : Session) (args : Value) : Transfer Value :=
  (s.server.call s.database.tables Tool.searchCards.name args).2

end Session

/-! ## The server after a call -/

theorem ofName?_eq_searchCards {name : String} :
    Tool.ofName? name = some .searchCards ↔ name = Tool.searchCards.name := by
  constructor
  · intro h
    have hname : (Tool.searchCards.name == name) = true := by
      have hfits := List.find?_some h
      exact hfits
    exact (eq_of_beq hname).symm
  · rintro rfl
    rfl

/-- Only a search can change the server, and it leaves a catalog. -/
theorem call_server (s : Server) (t : Tables) (name : String) (args : Value) :
    (s.call t name args).1 =
      if name = Tool.searchCards.name then (s.search t args).1 else s := by
  by_cases h : name = Tool.searchCards.name
  · rw [if_pos h, Server.call, ofName?_eq_searchCards.2 h]
  · rw [if_neg h, Server.call]
    split
    · rename_i hsearch
      exact absurd (ofName?_eq_searchCards.1 hsearch) h
    · rfl
    · rfl
    · rfl
    · rfl
    · rfl
    · rfl

theorem call_search (s : Server) (t : Tables) (args : Value) :
    (s.call t Tool.searchCards.name args).2 = Transfer.ofExcept (s.search t args).2 := rfl

/-- Arguments without fields are refused, whatever the server knows. -/
theorem search_refused (s : Server) (t : Tables) {args : Value} (h : args.isObject = false) :
    s.search t args = (s, .error (.shape (.noMember args.kind "get"))) := by
  rw [Server.search, Value.memberOf, Value.memberOr_of_not_isObject h]
  rfl

/-- A server with a catalog answers a search from it, and keeps it. -/
theorem search_kept (c : Catalog) (t : Tables) (args : Value) :
    Server.search ⟨some c⟩ t args = (⟨some c⟩, answerSearch c t args) := by
  cases h : args.isObject with
  | true =>
    obtain ⟨w, hw⟩ := Value.memberOf_of_isObject h "limit"
    rw [Server.search, hw]
    rfl
  | false =>
    have hfilters : searchFor c args = .error (.shape (.noMember args.kind "get")) := by
      rw [searchFor, listed, Value.memberOr_of_not_isObject h]
      rfl
    rw [search_refused _ _ h, answerSearch, hfilters]

/-- A fresh server answers a search from the catalog of what is stored now, and keeps it. -/
theorem search_fresh {t : Tables} {c : Catalog} (hc : t.catalog = .ok c) {args : Value}
    (h : args.isObject = true) :
    Server.fresh.search t args = (⟨some c⟩, answerSearch c t args) := by
  have hload : Server.fresh.load t = .ok c := hc
  obtain ⟨w, hw⟩ := Value.memberOf_of_isObject h "limit"
  rw [Server.search, hw, hload]
  rfl

/-! ## The catalog of a session -/

theorem continued_eq_some {α : Type} {server : Server} {x : Database × Except Failure α}
    {s : Session} (h : Session.continued server x = some s) :
    s.server = server ∧ ∃ a, x = (s.database, .ok a) := by
  obtain ⟨db, result⟩ := x
  cases result with
  | error e => cases h
  | ok a =>
    cases h
    exact ⟨rfl, a, rfl⟩

/-- After a fill the server is fresh, after a search it is as that search has left it, and
no other event changes it. -/
theorem step_server {s next : Session} {e : Event} (h : s.step e = some next) :
    (e.isFill = true ∧ next.server = .fresh) ∨
      (e.isFill = false ∧ e.isSearch = true ∧ ∃ args : Value, args.isObject = true ∧
        next.server = (s.server.search s.database.tables args).1) ∨
      (e.isFill = false ∧ e.isSearch = false ∧ next.server = s.server) := by
  cases e with
  | insertSet set => exact .inr (.inr ⟨rfl, rfl, (continued_eq_some h).1⟩)
  | importSet path content => exact .inr (.inr ⟨rfl, rfl, (continued_eq_some h).1⟩)
  | importSets content => exact .inr (.inr ⟨rfl, rfl, (continued_eq_some h).1⟩)
  | fill sets => exact .inl ⟨rfl, (continued_eq_some h).1⟩
  | call name args =>
    have hserver := call_server s.server s.database.tables name args
    cases h
    by_cases hname : name = Tool.searchCards.name
    · rw [if_pos hname] at hserver
      cases hargs : args.isObject with
      | true =>
        refine .inr (.inl ⟨rfl, ?_, args, hargs, hserver⟩)
        rw [Event.isSearch, hname, hargs]
        rfl
      | false =>
        -- a search that is refused for its arguments loads nothing
        rw [search_refused _ _ hargs] at hserver
        refine .inr (.inr ⟨rfl, ?_, hserver⟩)
        rw [Event.isSearch, hargs, Bool.and_false]
    · rw [if_neg hname] at hserver
      refine .inr (.inr ⟨rfl, ?_, hserver⟩)
      rw [Event.isSearch, beq_false_of_ne hname, Bool.false_and]

theorem searched_append (events : List Event) (e : Event) :
    searched (events ++ [e]) = (!e.isFill && (searched events || e.isSearch)) := by
  rw [searched, List.foldl_append]
  rfl

theorem run_append {s next : Session} {events : List Event} {e : Event}
    (h : s.run (events ++ [e]) = some next) :
    ∃ mid, s.run events = some mid ∧ mid.step e = some next := by
  rw [Session.run, List.foldlM_append] at h
  obtain ⟨mid, hmid, hnext⟩ := Option.bind_eq_some_iff.1 h
  obtain ⟨last, hstep, hlast⟩ := Option.bind_eq_some_iff.1 hnext
  cases hlast
  exact ⟨mid, hmid, hstep⟩

/-- The catalog of a server was loaded by the first search since the last fill. That
search came after the events `before`, in the session `found`. -/
structure LoadedAt (db : Database) (events before : List Event) (found : Session) (c : Catalog) :
    Prop where
  first : ∃ search rest, events = before ++ search :: rest ∧ search.isSearch = true ∧
    ∀ e ∈ rest, e.isFill = false
  unsearched : searched before = false
  reached : (Session.start db).run before = some found
  loaded : found.database.tables.catalog = .ok c

theorem LoadedAt.append {db : Database} {events before : List Event} {found : Session}
    {c : Catalog} (h : LoadedAt db events before found c) {e : Event} (he : e.isFill = false) :
    LoadedAt db (events ++ [e]) before found c := by
  obtain ⟨search, rest, rfl, hsearch, hrest⟩ := h.first
  refine ⟨⟨search, rest ++ [e], by simp, hsearch, ?_⟩, h.unsearched, h.reached, h.loaded⟩
  intro d hd
  rcases List.mem_append.1 hd with hd | hd
  · exact hrest d hd
  · rw [List.mem_singleton.1 hd]
    exact he

/-- What the server of a session knows: nothing without a search since the last fill, and
else the catalog of what was stored at the first one. -/
structure Keeps (db : Database) (events : List Event) (s : Session) : Prop where
  fresh : searched events = false → s.server = .fresh
  kept : searched events = true → ∃ before found c, LoadedAt db events before found c ∧
    s.server = ⟨some c⟩

theorem keeps_start (db : Database) : Keeps db [] (Session.start db) :=
  ⟨fun _ => rfl, fun h => by cases h⟩

/-- One event preserves what the server knows. -/
theorem keeps_step {db : Database} {events : List Event} {s next : Session} {e : Event}
    (hrun : (Session.start db).run events = some s) (h : Keeps db events s)
    (hstep : s.step e = some next) : Keeps db (events ++ [e]) next := by
  rcases step_server hstep with ⟨hfill, hserver⟩ | ⟨hfill, hsearch, args, hargs, hserver⟩ |
    ⟨hfill, hsearch, hserver⟩
  · -- a fill makes the server start again
    have hnone : searched (events ++ [e]) = false := by rw [searched_append, hfill]; rfl
    exact ⟨fun _ => hserver, fun hsome => absurd (hnone.symm.trans hsome) Bool.false_ne_true⟩
  · have hsome : searched (events ++ [e]) = true := by
      rw [searched_append, hfill, hsearch, Bool.or_true]
      rfl
    refine ⟨fun hnone => absurd (hnone.symm.trans hsome) Bool.false_ne_true, fun _ => ?_⟩
    cases hknown : searched events with
    | false =>
      -- the first search loads what is stored now
      obtain ⟨c, hc, -⟩ := catalog_loads s.database.tables
      refine ⟨events, s, c, ⟨⟨e, [], rfl, hsearch, by simp⟩, hknown, hrun, hc⟩, ?_⟩
      rw [hserver, h.fresh hknown, search_fresh hc hargs]
    | true =>
      -- a later search finds the catalog there
      obtain ⟨before, found, c, hloaded, hkept⟩ := h.kept hknown
      refine ⟨before, found, c, hloaded.append hfill, ?_⟩
      rw [hserver, hkept, search_kept]
  · -- any other event keeps what the server knows
    have hsame : searched (events ++ [e]) = searched events := by
      rw [searched_append, hfill, hsearch, Bool.or_false, Bool.not_false, Bool.true_and]
    refine ⟨fun hnone => ?_, fun hsome => ?_⟩
    · rw [hserver, h.fresh (hsame.symm.trans hnone)]
    · obtain ⟨before, found, c, hloaded, hkept⟩ := h.kept (hsame.symm.trans hsome)
      exact ⟨before, found, c, hloaded.append hfill, hserver.trans hkept⟩

/-- After any events, the server knows nothing if there was no search since the last fill,
and else keeps the catalog of the first one. -/
theorem keeps_run {db : Database} {events : List Event} {s : Session}
    (h : (Session.start db).run events = some s) : Keeps db events s := by
  induction events using List.reverseRecOn generalizing s with
  | nil =>
    cases h
    exact keeps_start db
  | append_singleton events e ih =>
    obtain ⟨mid, hmid, hstep⟩ := run_append h
    exact keeps_step hmid (ih hmid) hstep

end CardArchive
