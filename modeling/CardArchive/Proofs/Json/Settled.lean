import CardArchive.Json.Reader
import CardArchive.Json.Writer
import CardArchive.Proofs.Outcome
import CardArchive.Value.Access

/-!
# Settled values

What is read in the ordinary style has no decimals, and after repeated names are settled
each object has every name once. Settling such a value again leaves it as it is, and so
does every way in which a record is changed.

## What this module delivers

* `Value.Settled`: the values that the ordinary reader gives.
* `settle_of_settled`: they have no repeated names to settle.
* `settled_of_readText`: what is read of a text is settled.
* `settled_setField`, `settled_of_lookup`: a settled object after a change, and its fields.
-/

set_option autoImplicit false

namespace CardArchive

mutual

/-- Whether a value is one that the ordinary reader can give: it has no decimals, and its
objects have every name once. -/
def Value.Settled : Value → Prop
  | .decimal _ => False
  | .list vs => settledItems vs
  | .object fs => (fs.map Prod.fst).Nodup ∧ settledFields fs
  | _ => True

/-- Whether all items of a list are settled. -/
def settledItems : List Value → Prop
  | [] => True
  | v :: rest => v.Settled ∧ settledItems rest

/-- Whether the values of all fields are settled. -/
def settledFields : List (String × Value) → Prop
  | [] => True
  | (_, v) :: rest => v.Settled ∧ settledFields rest

end

theorem settledItems_iff {vs : List Value} : settledItems vs ↔ ∀ v ∈ vs, v.Settled := by
  induction vs with
  | nil => simp [settledItems]
  | cons v vs ih => rw [settledItems, ih, List.forall_mem_cons]

theorem settledFields_iff {fs : List (String × Value)} :
    settledFields fs ↔ ∀ f ∈ fs, f.2.Settled := by
  induction fs with
  | nil => simp [settledFields]
  | cons f fs ih => rw [settledFields, ih, List.forall_mem_cons]

theorem settleItems_eq_map (vs : List Value) : Value.settleItems vs = vs.map Value.settle := by
  induction vs with
  | nil => rfl
  | cons v vs ih => rw [Value.settleItems, ih, List.map_cons]

theorem settleFields_eq_map (fs : List (String × Value)) :
    Value.settleFields fs = fs.map fun f => (f.1, f.2.settle) := by
  induction fs with
  | nil => rfl
  | cons f fs ih => rw [Value.settleFields, ih, List.map_cons]

/-! ## Fields -/

section

variable {name : String} {v : Value} {fs : List (String × Value)}

/-- Setting a field adds its name, if it is not there. -/
theorem names_setField :
    (Value.setField name v fs).map Prod.fst =
      if name ∈ fs.map Prod.fst then fs.map Prod.fst else fs.map Prod.fst ++ [name] := by
  induction fs with
  | nil => rfl
  | cons f fs ih =>
    obtain ⟨k, w⟩ := f
    rw [Value.setField]
    by_cases hk : k = name
    · subst hk
      simp
    · have hne : name ≠ k := fun h => hk h.symm
      simp only [if_neg hk, List.map_cons, ih, List.mem_cons, hne, false_or]
      split <;> rfl

theorem nodup_setField (h : (fs.map Prod.fst).Nodup) :
    ((Value.setField name v fs).map Prod.fst).Nodup := by
  rw [names_setField]
  split
  · exact h
  · rename_i hnew
    exact List.nodup_append.2 ⟨h, List.nodup_singleton _, fun a ha b hb =>
      fun heq => hnew (List.mem_singleton.1 hb ▸ heq ▸ ha)⟩

theorem mem_setField {f : String × Value} (h : f ∈ Value.setField name v fs) :
    f = (name, v) ∨ f ∈ fs := by
  induction fs with
  | nil => exact .inl (List.mem_singleton.1 h)
  | cons g fs ih =>
    obtain ⟨k, w⟩ := g
    rw [Value.setField] at h
    split at h
    · rcases List.mem_cons.1 h with h | h
      · exact .inl h
      · exact .inr (List.mem_cons_of_mem _ h)
    · rcases List.mem_cons.1 h with h | h
      · exact .inr (h ▸ List.mem_cons_self)
      · rcases ih h with h | h
        · exact .inl h
        · exact .inr (List.mem_cons_of_mem _ h)

/-- An object with another value in a field is settled if both are. -/
theorem settled_setField (hv : v.Settled) (h : (Value.object fs).Settled) :
    (Value.object (Value.setField name v fs)).Settled := by
  refine ⟨nodup_setField h.1, settledFields_iff.2 fun f hf => ?_⟩
  rcases mem_setField hf with rfl | hf
  · exact hv
  · exact settledFields_iff.1 h.2 f hf

/-- The object of some fields has every name once. -/
theorem settled_ofFields (h : ∀ f ∈ fs, f.2.Settled) : (Value.ofFields fs).Settled := by
  have run : ∀ (fs acc : List (String × Value)), (∀ f ∈ fs, f.2.Settled) →
      (Value.object acc).Settled →
      (Value.object (fs.foldl (fun acc f => Value.setField f.1 f.2 acc) acc)).Settled := by
    intro fs
    induction fs with
    | nil => exact fun acc _ hacc => hacc
    | cons f fs ih =>
      intro acc hfs hacc
      obtain ⟨hf, hrest⟩ := List.forall_mem_cons.1 hfs
      exact ih _ hrest (settled_setField hf hacc)
  exact run fs [] h ⟨List.nodup_nil, trivial⟩

theorem setField_of_not_mem (h : name ∉ fs.map Prod.fst) :
    Value.setField name v fs = fs ++ [(name, v)] := by
  induction fs with
  | nil => rfl
  | cons f fs ih =>
    obtain ⟨k, w⟩ := f
    rw [List.map_cons, List.mem_cons, not_or] at h
    have hk : k ≠ name := fun hk => h.1 hk.symm
    rw [Value.setField, if_neg hk, ih h.2, List.cons_append]

/-- Fields without repeated names are the object's own. -/
theorem ofFields_of_nodup (h : (fs.map Prod.fst).Nodup) : Value.ofFields fs = .object fs := by
  have run : ∀ (fs acc : List (String × Value)), ((acc ++ fs).map Prod.fst).Nodup →
      fs.foldl (fun acc f => Value.setField f.1 f.2 acc) acc = acc ++ fs := by
    intro fs
    induction fs with
    | nil => exact fun acc _ => (List.append_nil acc).symm
    | cons f fs ih =>
      intro acc hacc
      have hnew : f.1 ∉ acc.map Prod.fst := by
        rw [List.map_append, List.map_cons] at hacc
        exact fun hmem => (List.nodup_append.1 hacc).2.2 _ hmem _ List.mem_cons_self rfl
      have happend : acc ++ f :: fs = acc ++ [f] ++ fs := by simp
      rw [List.foldl_cons, setField_of_not_mem hnew, happend]
      rw [happend] at hacc
      exact ih _ hacc
  rw [Value.ofFields, run fs [] h, List.nil_append]

theorem settled_of_lookup (h : (Value.object fs).Settled) (hlookup : Value.lookup name fs = some v) :
    v.Settled := by
  have hfields := settledFields_iff.1 h.2
  clear h
  induction fs with
  | nil => cases hlookup
  | cons f fs ih =>
    obtain ⟨k, w⟩ := f
    obtain ⟨hw, hrest⟩ := List.forall_mem_cons.1 hfields
    rw [Value.lookup] at hlookup
    split at hlookup
    · cases hlookup
      exact hw
    · exact ih hlookup hrest

end

/-- A field of a settled object is settled, and so is what stands for a missing one. -/
theorem settled_of_memberOr {v w fallback : Value} {name : String} (hv : v.Settled)
    (hfallback : fallback.Settled) (h : v.memberOr name fallback = .ok w) : w.Settled := by
  cases v with
  | object fs =>
    obtain rfl := Except.ok.inj h
    cases hlookup : Value.lookup name fs with
    | none => exact hfallback
    | some w => exact settled_of_lookup hv hlookup
  | _ => cases h

/-! ## Settling -/

mutual

/-- A settled value has no repeated names left. -/
theorem settle_of_settled : ∀ (v : Value), v.Settled → v.settle = v
  | .null, _ | .bool _, _ | .int _, _ | .float _, _ | .text _, _ => rfl
  | .decimal _, h => h.elim
  | .list vs, h => congrArg Value.list (settleItems_of_settled vs h)
  | .object fs, h => by
    rw [Value.settle, settleFields_of_settled fs h.2, ofFields_of_nodup h.1]

theorem settleItems_of_settled : ∀ (vs : List Value), settledItems vs → Value.settleItems vs = vs
  | [], _ => rfl
  | v :: vs, h => by
    rw [Value.settleItems, settle_of_settled v h.1, settleItems_of_settled vs h.2]

theorem settleFields_of_settled : ∀ (fs : List (String × Value)), settledFields fs →
    Value.settleFields fs = fs
  | [], _ => rfl
  | (k, v) :: fs, h => by
    rw [Value.settleFields, settle_of_settled v h.1, settleFields_of_settled fs h.2]

end

namespace Json

/-! ## What is read -/

theorem settled_readNumber {cs : List Char} {v : Value} {n : Nat}
    (h : readNumber? ordinary cs = some (v, n)) : v.settle.Settled := by
  unfold readNumber? at h
  split at h
  dsimp only at h
  split_ifs at h <;> cases h <;> trivial

theorem settled_readScalar {cs : List Char} {p : Nat} {v : Value} {c : Cursor}
    (h : readScalar ordinary cs p = .ok (v, c)) : v.settle.Settled := by
  unfold readScalar at h
  split at h
  · rename_i w u hword
    cases h
    have hmem := List.mem_of_find?_eq_some hword
    simp only [words, ordinary, if_true, List.cons_append, List.nil_append, List.mem_cons,
      Prod.mk.injEq, List.not_mem_nil, or_false] at hmem
    rcases hmem with ⟨-, rfl⟩ | ⟨-, rfl⟩ | ⟨-, rfl⟩ | ⟨-, rfl⟩ | ⟨-, rfl⟩ | ⟨-, rfl⟩ <;> trivial
  · split at h
    · rename_i hnumber
      cases h
      exact settled_readNumber hnumber
    · cases h

/-- What is read with some fuel is settled once its names are, be it a value, items or
fields. -/
def ReadsSettled (fuel : Nat) : Prop :=
  (∀ c v next, readValue ordinary fuel c = .ok (v, next) → v.settle.Settled) ∧
  (∀ c vs next, readItems ordinary fuel c = .ok (vs, next) → ∀ v ∈ vs, v.settle.Settled) ∧
  (∀ c fs next, readFields ordinary fuel c = .ok (fs, next) → ∀ f ∈ fs, f.2.settle.Settled)

theorem settled_list {vs : List Value} (h : ∀ v ∈ vs, v.settle.Settled) :
    (Value.list vs).settle.Settled := by
  rw [Value.settle, settleItems_eq_map]
  exact settledItems_iff.2 (List.forall_mem_map.2 h)

theorem settled_object {fs : List (String × Value)} (h : ∀ f ∈ fs, f.2.settle.Settled) :
    (Value.object fs).settle.Settled := by
  rw [Value.settle, settleFields_eq_map]
  exact settled_ofFields (List.forall_mem_map.2 h)

section

variable {fuel : Nat} (ih : ReadsSettled fuel)
include ih

theorem settled_readValue {c next : Cursor} {v : Value}
    (h : readValue ordinary (fuel + 1) c = .ok (v, next)) : v.settle.Settled := by
  rw [readValue.eq_def] at h
  split at h
  · cases ‹_ + 1 = 0›
  · obtain ⟨⟨s, after⟩, -, h⟩ := bind_eq_ok.1 h
    cases h
    trivial
  · rename_i hfuel
    obtain rfl := Nat.succ.inj hfuel
    split at h
    · cases h
      trivial
    · obtain ⟨⟨vs, after⟩, hvs, h⟩ := bind_eq_ok.1 h
      cases h
      exact settled_list (ih.2.1 _ _ _ hvs)
  · rename_i hfuel
    obtain rfl := Nat.succ.inj hfuel
    split at h
    · cases h
      exact ⟨List.nodup_nil, trivial⟩
    · obtain ⟨⟨fs, after⟩, hfs, h⟩ := bind_eq_ok.1 h
      cases h
      exact settled_object (ih.2.2 _ _ _ hfs)
  · exact settled_readScalar h

theorem settled_readItems {c next : Cursor} {vs : List Value}
    (h : readItems ordinary (fuel + 1) c = .ok (vs, next)) : ∀ v ∈ vs, v.settle.Settled := by
  rw [readItems] at h
  obtain ⟨⟨v, after⟩, hv, h⟩ := bind_eq_ok.1 h
  have hfirst := ih.1 _ _ _ hv
  dsimp only at h
  split at h
  · cases h
    simpa using hfirst
  · obtain ⟨⟨ws, last⟩, hws, h⟩ := bind_eq_ok.1 h
    cases h
    exact List.forall_mem_cons.2 ⟨hfirst, ih.2.1 _ _ _ hws⟩
  · cases h

theorem settled_readFields {c next : Cursor} {fs : List (String × Value)}
    (h : readFields ordinary (fuel + 1) c = .ok (fs, next)) : ∀ f ∈ fs, f.2.settle.Settled := by
  rw [readFields.eq_def] at h
  split at h
  · cases ‹_ + 1 = 0›
  · rename_i hfuel
    obtain rfl := Nat.succ.inj hfuel
    obtain ⟨⟨name, after⟩, -, h⟩ := bind_eq_ok.1 h
    dsimp only at h
    split at h
    · obtain ⟨⟨v, behind⟩, hv, h⟩ := bind_eq_ok.1 h
      have hfirst := ih.1 _ _ _ hv
      dsimp only at h
      split at h
      · cases h
        simpa using hfirst
      · obtain ⟨⟨gs, last⟩, hgs, h⟩ := bind_eq_ok.1 h
        cases h
        exact List.forall_mem_cons.2 ⟨hfirst, ih.2.2 _ _ _ hgs⟩
      · cases h
    · cases h
  · cases h

end

theorem readsSettled (fuel : Nat) : ReadsSettled fuel := by
  induction fuel with
  | zero => exact ⟨fun _ _ _ h => (nomatch h), fun _ _ _ h => (nomatch h), fun _ _ _ h => (nomatch h)⟩
  | succ fuel ih =>
    exact ⟨fun _ _ _ h => settled_readValue ih h, fun _ _ _ h => settled_readItems ih h,
      fun _ _ _ h => settled_readFields ih h⟩

/-- What is read of a whole text in the ordinary style is settled once its names are. -/
theorem settled_of_readRaw {cs : List Char} {v : Value} (h : readRaw ordinary cs = .ok v) :
    v.settle.Settled := by
  obtain ⟨⟨w, next⟩, hw, h⟩ := bind_eq_ok.1 h
  dsimp only at h
  split at h
  · cases h
    exact (readsSettled _).1 _ _ _ hw
  · cases h

/-- What is read of a text is settled. -/
theorem settled_of_readText {s : String} {v : Value} (h : readText s = .ok v) : v.Settled := by
  obtain ⟨w, hw, rfl⟩ := map_eq_ok.1 h
  exact settled_of_readRaw hw

end Json

end CardArchive
