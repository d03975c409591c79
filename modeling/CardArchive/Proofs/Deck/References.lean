import CardArchive.Proofs.Deck.Writing

/-!
# What the rows of decks refer to

Nothing in the tables binds the rows of decks to the printings they name, or to each other.
The printings of an instance are looked up before its first row is written, and no printing
is ever removed; what is removed of a deck is removed from all of its tables. So no row of a
deck ever names a printing, a deck, an instance or a category that is not there.

## What this module delivers

* `Tables.DecksRefer`: every reference from a row of a deck is to a row that is there.
* `Tables.Printed`, `Printed.of_reaches`: the references to printings, over one call.
* `Stores.mem_members` and its siblings: the references between the rows of decks.
* `decksRefer_ran`: all of them, after any calls.
-/

set_option autoImplicit false

namespace CardArchive

namespace Tables

/-- A deck is there, and an instance of it of a moment. -/
def HasMoment (t : Tables) (deck : Int) (creation : String) : Prop :=
  (∃ d ∈ t.decks, d.id = deck) ∧ ⟨deck, creation⟩ ∈ t.instances

/-- The rows of decks refer to rows that are there, to printings as well as to each other. -/
structure DecksRefer (t : Tables) : Prop where
  printed : ∀ r ∈ t.quantities, ∃ p ∈ t.printings,
    p.card = r.card ∧ p.expansion = r.expansion ∧ p.number = r.number
  positive : ∀ r ∈ t.quantities, 1 ≤ r.quantity
  categorized : ∀ r ∈ t.quantities, ∃ category, ⟨r.deck, r.creation, r.card, category⟩ ∈ t.members
  instances : ∀ r ∈ t.instances, t.HasMoment r.deck r.creation
  categories : ∀ r ∈ t.categories, t.HasMoment r.deck r.creation
  quantities : ∀ r ∈ t.quantities, t.HasMoment r.deck r.creation
  members : ∀ r ∈ t.members, t.HasMoment r.deck r.creation
  filed : ∀ r ∈ t.members, ⟨r.deck, r.creation, r.category⟩ ∈ t.categories
  started : ∀ d ∈ t.decks, ∃ i ∈ t.instances, i.deck = d.id

/-! ## References to printings -/

/-- Every quantity is of a printing that is stored. -/
def Printed (t : Tables) : Prop :=
  ∀ r ∈ t.quantities, t.hasPrinting r.card r.expansion r.number = true

namespace Printed

variable {t t' : Tables} {id : Int}

/-- Printings only have to stay, and quantities may go. -/
theorem mono (h : t.Printed) (hquantities : ∀ r ∈ t'.quantities, r ∈ t.quantities)
    (hprintings : ∀ p ∈ t.printings, p ∈ t'.printings) : t'.Printed := by
  intro r hr
  obtain ⟨p, hp, hsame⟩ := List.any_eq_true.1 (h r (hquantities r hr))
  exact List.any_eq_true.2 ⟨p, hprintings p hp, hsame⟩

theorem insertion (h : t.Printed) (hstep : Insertion t t') : t'.Printed := by
  cases hstep with
  | printing r _ _ _ => exact h.mono (fun _ hq => hq) fun p hp => List.mem_append_left _ hp
  | label s r _ _ => cases s <;> exact h.mono (fun _ hq => hq) fun _ hp => hp
  | _ => exact h.mono (fun _ hq => hq) fun _ hp => hp

/-- Printings that pass the check are stored. -/
theorem knows_of_checkPrintings {quantities : List (Printing × Int)} {u : Unit}
    (h : t.checkPrintings quantities = .ok u) : ∀ q ∈ quantities, t.Knows q.1 := by
  induction quantities with
  | nil => exact fun q hq => nomatch hq
  | cons q rest ih =>
    unfold checkPrintings at h
    obtain ⟨number, hnumber, h⟩ := bind_eq_ok.1 h
    obtain rfl := storedNumber_eq_ok (stored_eq_ok.1 hnumber)
    obtain ⟨hknown, h⟩ := refuse_eq_ok.1 h
    exact List.forall_mem_cons.2 ⟨by simpa [Knows] using hknown, ih h⟩

theorem addInstance (h : t.Printed) {i : DeckInstance} (hadded : t.addInstance id i = .ok t') :
    t'.Printed := by
  unfold Tables.addInstance at hadded
  obtain ⟨-, hadded⟩ := refuse_eq_ok.1 hadded
  obtain ⟨u, hchecked, hadded⟩ := bind_eq_ok.1 hadded
  obtain ⟨rows, hrows, hadded⟩ := bind_eq_ok.1 hadded
  obtain rfl := pure_eq_ok.1 hadded
  obtain ⟨rfl, -, -⟩ := addQuantities_eq_ok (stored_eq_ok.1 hrows)
  -- the new rows are of the printings that were checked, under the numbers that were looked up
  intro r hr
  rcases List.mem_append.1 hr with hr | hr
  · exact h r hr
  · obtain ⟨q, hq, rfl⟩ := List.mem_map.1 hr
    exact knows_of_checkPrintings hchecked q hq

theorem addInstances (h : t.Printed) {is : List DeckInstance}
    (hadded : t.addInstances id is = .ok t') : t'.Printed := by
  induction is generalizing t with
  | nil =>
    cases hadded
    exact h
  | cons i rest ih =>
    unfold Tables.addInstances at hadded
    obtain ⟨mid, hmid, hadded⟩ := bind_eq_ok.1 hadded
    exact ih (h.addInstance hmid) hadded

theorem addDeck (h : t.Printed) {d : Deck} (hadded : t.addDeck d = .ok (t', id)) : t'.Printed := by
  unfold Tables.addDeck at hadded
  obtain ⟨_, -, hadded⟩ := bind_eq_ok.1 hadded
  obtain ⟨_, -, hadded⟩ := bind_eq_ok.1 hadded
  obtain ⟨_, -, hadded⟩ := bind_eq_ok.1 hadded
  obtain ⟨name, -, hadded⟩ := bind_eq_ok.1 hadded
  obtain ⟨description, -, hadded⟩ := bind_eq_ok.1 hadded
  obtain ⟨mid, hmid, hadded⟩ := bind_eq_ok.1 hadded
  cases hadded
  have hrow : Printed { t with decks := t.decks ++ [⟨id, name, description⟩] } := h
  exact hrow.addInstances hmid

/-- Whatever a call does, quantities stay bound to stored printings. -/
theorem of_reaches (h : t.Printed) (hreaches : t.Reaches t') : t'.Printed := by
  cases hreaches with
  | same => exact h
  | rows hgrows => exact hgrows.preserves (fun _ _ hstep h => h.insertion hstep) h
  | deck hd hadded => exact h.addDeck hadded
  | entry hdeck hi hadded => exact h.addInstance hadded
  | removal id => exact h.mono (fun _ hq => (List.mem_filter.1 hq).1) fun _ hp => hp
  | text id put hid hname => exact h.mono (fun _ hq => hq) fun _ hp => hp

theorem exists_printing (h : t.Printed) {r : QuantityRow} (hr : r ∈ t.quantities) :
    ∃ p ∈ t.printings, p.card = r.card ∧ p.expansion = r.expansion ∧ p.number = r.number := by
  obtain ⟨p, hp, hsame⟩ := List.any_eq_true.1 (h r hr)
  simp only [Bool.and_eq_true, beq_iff_eq] at hsame
  exact ⟨p, hp, hsame.1.1, hsame.1.2, hsame.2⟩

end Printed

/-! ## References between the rows of decks -/

namespace Stores

variable {t : Tables} {ss : List Snapshot}

/-- The moment of a snapshot is there. -/
theorem hasMoment (h : t.Stores ss) {s : Snapshot} (hs : s ∈ ss) :
    t.HasMoment s.deck s.creation := by
  obtain ⟨d, hd, hid⟩ := List.mem_map.1 (hasDeck_iff.1 (h.owned s hs))
  refine ⟨⟨d, hd, hid⟩, ?_⟩
  rw [h.holds.instances]
  exact List.mem_map_of_mem hs

theorem hasMoment_of_instance (h : t.Stores ss) {r : InstanceRow} (hr : r ∈ t.instances) :
    t.HasMoment r.deck r.creation := by
  rw [h.holds.instances] at hr
  obtain ⟨s, hs, rfl⟩ := List.mem_map.1 hr
  exact h.hasMoment hs

theorem mem_categories (h : t.Stores ss) {r : DeckCategoryRow} : r ∈ t.categories ↔
    ∃ s ∈ ss, ∃ c ∈ s.state.categories, r = ⟨s.deck, s.creation, c.1⟩ := by
  simp only [h.holds.categories, Snapshot.categoryRows, List.mem_flatMap, List.mem_map, eq_comm]

theorem mem_members (h : t.Stores ss) {r : MemberRow} : r ∈ t.members ↔
    ∃ s ∈ ss, ∃ c ∈ s.state.categories, ∃ card ∈ c.2, r = ⟨s.deck, s.creation, card, c.1⟩ := by
  simp only [h.holds.members, Snapshot.memberRows, List.mem_flatMap, List.mem_map, eq_comm]

theorem mem_quantities (h : t.Stores ss) {r : QuantityRow} : r ∈ t.quantities ↔
    ∃ s ∈ ss, ∃ q ∈ s.state.quantities, r = Snapshot.quantityRow s.deck s.creation q := by
  simp only [h.holds.quantities, Snapshot.quantityRows, List.mem_flatMap, List.mem_map, eq_comm]

theorem hasMoment_of_category (h : t.Stores ss) {r : DeckCategoryRow} (hr : r ∈ t.categories) :
    t.HasMoment r.deck r.creation := by
  obtain ⟨s, hs, c, -, rfl⟩ := h.mem_categories.1 hr
  exact h.hasMoment hs

theorem hasMoment_of_member (h : t.Stores ss) {r : MemberRow} (hr : r ∈ t.members) :
    t.HasMoment r.deck r.creation := by
  obtain ⟨s, hs, c, -, card, -, rfl⟩ := h.mem_members.1 hr
  exact h.hasMoment hs

theorem hasMoment_of_quantity (h : t.Stores ss) {r : QuantityRow} (hr : r ∈ t.quantities) :
    t.HasMoment r.deck r.creation := by
  obtain ⟨s, hs, q, -, rfl⟩ := h.mem_quantities.1 hr
  exact h.hasMoment hs

theorem positive (h : t.Stores ss) {r : QuantityRow} (hr : r ∈ t.quantities) :
    1 ≤ r.quantity := by
  obtain ⟨s, -, q, hq, rfl⟩ := h.mem_quantities.1 hr
  exact s.checked.positive q hq

/-- The card of a quantity is in a category of its instance. -/
theorem categorized (h : t.Stores ss) {r : QuantityRow} (hr : r ∈ t.quantities) :
    ∃ category, ⟨r.deck, r.creation, r.card, category⟩ ∈ t.members := by
  obtain ⟨s, hs, q, hq, rfl⟩ := h.mem_quantities.1 hr
  obtain ⟨c, hc, hcard⟩ := DeckInstance.mem_cardsOf.1 (s.checked.categorized q hq)
  exact ⟨c.1, h.mem_members.2 ⟨s, hs, c, hc, q.1.card, hcard, rfl⟩⟩

/-- A card is in a category that its instance has. -/
theorem filed (h : t.Stores ss) {r : MemberRow} (hr : r ∈ t.members) :
    ⟨r.deck, r.creation, r.category⟩ ∈ t.categories := by
  obtain ⟨s, hs, c, hc, card, -, rfl⟩ := h.mem_members.1 hr
  exact h.mem_categories.2 ⟨s, hs, c, hc, rfl⟩

theorem exists_instance (h : t.Stores ss) {d : DeckRow} (hd : d ∈ t.decks) :
    ∃ i ∈ t.instances, i.deck = d.id := by
  obtain ⟨s, hs, hdeck⟩ := h.started d hd
  refine ⟨s.row, ?_, hdeck⟩
  rw [h.holds.instances]
  exact List.mem_map_of_mem hs

theorem decksRefer (h : t.Stores ss) (hprinted : t.Printed) : t.DecksRefer where
  printed _ hr := hprinted.exists_printing hr
  positive _ hr := h.positive hr
  categorized _ hr := h.categorized hr
  instances _ hr := h.hasMoment_of_instance hr
  categories _ hr := h.hasMoment_of_category hr
  quantities _ hr := h.hasMoment_of_quantity hr
  members _ hr := h.hasMoment_of_member hr
  filed _ hr := h.filed hr
  started _ hd := h.exists_instance hd

end Stores

end Tables

/-! ## Any calls -/

/-- After any calls, of which some may fail: every quantity is positive, of a printing that is
stored and of a card in a category of its instance; every row of a deck's history is of a
deck and an instance that are there, and every card is in a category that its instance has;
and every deck has an instance. -/
theorem decksRefer_ran (calls : List StoreCall) : (Database.ran calls).tables.DecksRefer := by
  have hprinted : (Database.ran calls).tables.Printed :=
    Database.ran_induction (P := fun db => db.tables.Printed) (fun _ hr => nomatch hr)
      (fun db c h => h.of_reaches (db.call_reaches c)) calls
  obtain ⟨ss, hstores⟩ := Database.stores_ran calls
  exact hstores.decksRefer hprinted

end CardArchive
