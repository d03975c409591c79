import CardArchive.Proofs.Json.Numerals
import CardArchive.Proofs.Json.Settled
import CardArchive.Proofs.Json.Texts

/-!
# Values are read back

What is written of a value is read as the same value, but for its floating point numbers,
each of which becomes what its text is read as. This needs a value that a reader of the
ordinary style can give: one without decimals, whose objects have every name once.

## What this module delivers

* `Value.reread`: what is left of a value that is written and read.
* `readsBack`: a written value is read back, whatever closes it.
* `readText_write`: a text that was written is read back.
* `reread_of_isExact`: a value without floating point numbers stays as it is.
-/

set_option autoImplicit false

namespace CardArchive

/-! ## Values to be read back -/

mutual

/-- What is left of a value that is written and read: each floating point number is what its
text is read as. -/
def Value.reread : Value → Value
  | .float x => Json.rereadFloat x
  | .list vs => .list (rereadItems vs)
  | .object fs => .object (rereadFields fs)
  | .null => .null
  | .bool b => .bool b
  | .int n => .int n
  | .decimal d => .decimal d
  | .text s => .text s

/-- What is left of the items of a list. -/
def rereadItems : List Value → List Value
  | [] => []
  | v :: rest => v.reread :: rereadItems rest

/-- What is left of the fields of an object. -/
def rereadFields : List (String × Value) → List (String × Value)
  | [] => []
  | (k, v) :: rest => (k, v.reread) :: rereadFields rest

end

namespace Json

/-! ## First characters -/

/-- A character that a number or a word starts with. -/
def StartsScalar (c : Char) : Prop := c.isDigit = true ∨ c ∈ ['-', 'I', 'N', 'n', 't', 'f']

theorem StartsScalar.ne {c d : Char} (h : StartsScalar c) (hdigit : d.isDigit = false)
    (hd : d ∉ ['-', 'I', 'N', 'n', 't', 'f']) : c ≠ d := by
  rintro rfl
  rcases h with h | h
  · rw [hdigit] at h
    cases h
  · exact hd h

theorem exists_start_numeral {n : Numeral} (h : n.Valid) :
    ∃ c rest, n.text = c :: rest ∧ StartsScalar c := by
  obtain ⟨d, rest, hd, hbody⟩ := h.body_cons
  rw [Numeral.text]
  cases n.negative with
  | true => exact ⟨'-', n.body, rfl, .inr (by simp)⟩
  | false => exact ⟨d, rest, hbody, .inl hd⟩

theorem exists_start_float (x : Float) :
    ∃ c rest, (writeFloat x).toList = c :: rest ∧ StartsScalar c := by
  unfold writeFloat Number.shown
  cases Number.exact x with
  | finite negative num den =>
    obtain ⟨n, hn, htext⟩ := exists_write (Number.shortest num den)
    have hvalid : ({ n with negative := negative } : Numeral).Valid :=
      ⟨hn.valid.1, hn.valid.2, hn.valid.3, hn.valid.4, hn.valid.5⟩
    obtain ⟨c, rest, hc, hstart⟩ := exists_start_numeral hvalid
    refine ⟨c, rest, ?_, hstart⟩
    rw [← hc]
    simp only [Number.withSign, String.toList_ofList, htext]
    cases negative <;> rfl
  | infinite negative =>
    cases negative with
    | true => exact ⟨'-', _, rfl, .inr (by simp)⟩
    | false => exact ⟨'I', _, rfl, .inr (by simp)⟩
  | undefined => exact ⟨'N', _, rfl, .inr (by simp)⟩

/-- A scalar is told apart from texts, lists and objects by its first character. -/
theorem readValue_scalar {style : Style} {c : Char} (h : StartsScalar c) (fuel : Nat)
    (cs : List Char) (p : Nat) :
    readValue style (fuel + 1) ⟨c :: cs, p⟩ = readScalar style (c :: cs) p := by
  have hquote : c ≠ '"' := h.ne rfl (by decide)
  have hbracket : c ≠ '[' := h.ne rfl (by decide)
  have hbrace : c ≠ '\x7b' := h.ne rfl (by decide)
  rw [readValue]
  · exact fun r hr => hquote (List.cons.inj hr).1
  · exact fun r hr => hbracket (List.cons.inj hr).1
  · exact fun r hr => hbrace (List.cons.inj hr).1

/-- The text of a value starts with something that is neither blank nor the end of a list. -/
theorem exists_start {v : Value} (h : v.Settled) :
    ∃ c rest, (write v).toList = c :: rest ∧ isSpace c = false ∧ c ≠ ']' := by
  have hscalar : ∀ {c : Char}, StartsScalar c → isSpace c = false ∧ c ≠ ']' := by
    intro c hc
    have hblanks : c ≠ ' ' ∧ c ≠ '\t' ∧ c ≠ '\n' ∧ c ≠ '\r' :=
      ⟨hc.ne rfl (by decide), hc.ne rfl (by decide), hc.ne rfl (by decide), hc.ne rfl (by decide)⟩
    refine ⟨?_, hc.ne rfl (by decide)⟩
    simp [isSpace, hblanks]
  cases v with
  | null => exact ⟨'n', _, rfl, by decide, by decide⟩
  | bool b => cases b <;> exact ⟨_, _, rfl, by decide, by decide⟩
  | int n =>
    obtain ⟨c, rest, hc, hstart⟩ := exists_start_numeral (valid_intNumeral n)
    rw [text_intNumeral] at hc
    exact ⟨c, rest, hc, hscalar hstart⟩
  | float x =>
    obtain ⟨c, rest, hc, hstart⟩ := exists_start_float x
    exact ⟨c, rest, hc, hscalar hstart⟩
  | decimal d => exact h.elim
  | text s =>
    rw [write, toList_escape]
    exact ⟨'"', _, rfl, by decide, by decide⟩
  | list vs =>
    rw [write, String.toList_append, String.toList_append]
    exact ⟨'[', _, rfl, by decide, by decide⟩
  | object fs =>
    rw [write, String.toList_append, String.toList_append]
    exact ⟨'\x7b', _, rfl, by decide, by decide⟩

/-! ## Blanks -/

theorem skipSpace_cons {c : Char} (h : isSpace c = false) (cs : List Char) (p : Nat) :
    skipSpace ordinary (c :: cs) p = ⟨c :: cs, p⟩ := by
  rw [skipSpace, show ordinary.isSpace c = false from h, if_neg Bool.false_ne_true]

/-- A blank is skipped. -/
theorem skipSpace_blank {c : Char} (h : isSpace c = false) (cs : List Char) (p : Nat) :
    skipSpace ordinary (' ' :: c :: cs) p = ⟨c :: cs, p + 1⟩ := by
  rw [skipSpace, show ordinary.isSpace ' ' = true from rfl, if_pos rfl, skipSpace_cons h]

theorem closes_cons {c : Char} (h : c = ',' ∨ c = ']' ∨ c = '\x7d') (cs : List Char) :
    Closes (c :: cs) := by
  intro d rest hd
  cases hd
  exact h

/-! ## Steps of the reader -/

section

variable {fuel p q r : Nat} {text cs more : List Char} {v : Value} {c : Char}

/-- The last item is read up to the end of its list. -/
theorem readItems_last (hread : readValue ordinary fuel ⟨text, p⟩ = .ok (v, ⟨']' :: cs, q⟩)) :
    readItems ordinary (fuel + 1) ⟨text, p⟩ = .ok ([v], ⟨cs, q + 1⟩) := by
  rw [readItems, hread]
  simp only [bind, Except.bind, Cursor.skip, skipSpace_cons (show isSpace ']' = false from rfl)]
  rfl

/-- An item with more behind it is read before these. -/
theorem readItems_more {vs : List Value} (hc : isSpace c = false)
    (hread : readValue ordinary fuel ⟨text, p⟩ = .ok (v, ⟨',' :: ' ' :: c :: more, q⟩))
    (hrest : readItems ordinary fuel ⟨c :: more, q + 2⟩ = .ok (vs, ⟨cs, r⟩)) :
    readItems ordinary (fuel + 1) ⟨text, p⟩ = .ok (v :: vs, ⟨cs, r⟩) := by
  rw [readItems, hread]
  simp only [bind, Except.bind, Cursor.skip, skipSpace_cons (show isSpace ',' = false from rfl),
    skipSpace_blank hc, hrest]
  rfl

/-- The last field is read up to the end of its object. -/
theorem readFields_last {name : String} (hc : isSpace c = false)
    (hname : readString text (p + 1) = .ok (name, ⟨':' :: ' ' :: c :: more, q⟩))
    (hread : readValue ordinary fuel ⟨c :: more, q + 2⟩ = .ok (v, ⟨'\x7d' :: cs, r⟩)) :
    readFields ordinary (fuel + 1) ⟨'"' :: text, p⟩ = .ok ([(name, v)], ⟨cs, r + 1⟩) := by
  rw [readFields, hname]
  simp only [bind, Except.bind, Cursor.skip, skipSpace_cons (show isSpace ':' = false from rfl),
    skipSpace_blank hc, hread, skipSpace_cons (show isSpace '\x7d' = false from rfl)]
  rfl

/-- A field with more behind it is read before these. -/
theorem readFields_more {name : String} {fs : List (String × Value)} {d : Char}
    {later : List Char} {q' : Nat} (hc : isSpace c = false) (hd : isSpace d = false)
    (hname : readString text (p + 1) = .ok (name, ⟨':' :: ' ' :: c :: more, q⟩))
    (hread : readValue ordinary fuel ⟨c :: more, q + 2⟩ = .ok (v, ⟨',' :: ' ' :: d :: later, r⟩))
    (hrest : readFields ordinary fuel ⟨d :: later, r + 2⟩ = .ok (fs, ⟨cs, q'⟩)) :
    readFields ordinary (fuel + 1) ⟨'"' :: text, p⟩ = .ok ((name, v) :: fs, ⟨cs, q'⟩) := by
  rw [readFields, hname]
  simp only [bind, Except.bind, Cursor.skip, skipSpace_cons (show isSpace ':' = false from rfl),
    skipSpace_blank hc, hread, skipSpace_cons (show isSpace ',' = false from rfl),
    skipSpace_blank hd, hrest]
  rfl

/-- A list is read by its items. -/
theorem readValue_list {vs : List Value} (hc : isSpace c = false) (hend : c ≠ ']')
    (hread : readItems ordinary fuel ⟨c :: more, p + 1⟩ = .ok (vs, ⟨cs, q⟩)) :
    readValue ordinary (fuel + 1) ⟨'[' :: c :: more, p⟩ = .ok (.list vs, ⟨cs, q⟩) := by
  rw [readValue, skipSpace_cons hc]
  split
  · rename_i hnext
    cases hnext
    exact absurd rfl hend
  · rw [hread]
    rfl

/-- An object is read by its fields. -/
theorem readValue_object {fs : List (String × Value)}
    (hread : readFields ordinary fuel ⟨'"' :: more, p + 1⟩ = .ok (fs, ⟨cs, q⟩)) :
    readValue ordinary (fuel + 1) ⟨'\x7b' :: '"' :: more, p⟩ = .ok (.object fs, ⟨cs, q⟩) := by
  rw [readValue, skipSpace_cons (show isSpace '"' = false from rfl)]
  split
  · rename_i hnext
    cases hnext
  · rw [hread]
    rfl

end

/-! ## Values -/

section

variable {fuel : Nat} {cs : List Char}

theorem toList_items (v : Value) {vs : List Value} (h : vs ≠ []) :
    (", ".intercalate (writeItems (v :: vs))).toList =
      (write v).toList ++ ',' :: ' ' :: (", ".intercalate (writeItems vs)).toList := by
  have hne : writeItems vs ≠ [] := by
    cases vs with
    | nil => exact absurd rfl h
    | cons w ws => exact List.cons_ne_nil _ _
  rw [writeItems, String.intercalate_cons_of_ne_nil hne, String.toList_append,
    String.toList_append, List.append_assoc]
  rfl

theorem toList_item (v : Value) :
    (", ".intercalate (writeItems [v])).toList = (write v).toList := by
  rw [writeItems, writeItems, String.intercalate_singleton]

/-- The items of a list start as its first one does. -/
theorem exists_start_items {vs : List Value} (hne : vs ≠ []) (h : settledItems vs) :
    ∃ c rest, (", ".intercalate (writeItems vs)).toList = c :: rest ∧ isSpace c = false ∧
      c ≠ ']' := by
  obtain ⟨v, ws, rfl⟩ := List.exists_cons_of_ne_nil hne
  obtain ⟨c, rest, hc, hstart⟩ := exists_start h.1
  cases ws with
  | nil =>
    rw [toList_item]
    exact ⟨c, rest, hc, hstart⟩
  | cons w ws =>
    rw [toList_items v (List.cons_ne_nil w ws), hc]
    exact ⟨c, _, rfl, hstart⟩

/-- A written name, up to the value of its field. -/
theorem toList_field (k : String) (v : Value) :
    (escape k ++ ": " ++ write v).toList =
      '"' :: (k.toList.flatMap escapeChar ++ '"' :: ':' :: ' ' :: (write v).toList) := by
  rw [String.toList_append, String.toList_append, toList_escape]
  simp

theorem toList_fields (k : String) (v : Value) {fs : List (String × Value)} (h : fs ≠ []) :
    (", ".intercalate (writeFields ((k, v) :: fs))).toList =
      '"' :: (k.toList.flatMap escapeChar ++ '"' :: ':' :: ' ' :: ((write v).toList ++
        ',' :: ' ' :: (", ".intercalate (writeFields fs)).toList)) := by
  have hne : writeFields fs ≠ [] := by
    obtain ⟨f, gs, rfl⟩ := List.exists_cons_of_ne_nil h
    exact List.cons_ne_nil _ _
  rw [writeFields, String.intercalate_cons_of_ne_nil hne, String.toList_append,
    String.toList_append, toList_field]
  simp

theorem toList_lastField (k : String) (v : Value) :
    (", ".intercalate (writeFields [(k, v)])).toList =
      '"' :: (k.toList.flatMap escapeChar ++ '"' :: ':' :: ' ' :: (write v).toList) := by
  rw [writeFields, writeFields, String.intercalate_singleton, toList_field]

theorem exists_start_fields {fs : List (String × Value)} (hne : fs ≠ []) :
    ∃ rest, (", ".intercalate (writeFields fs)).toList = '"' :: rest := by
  obtain ⟨⟨k, v⟩, gs, rfl⟩ := List.exists_cons_of_ne_nil hne
  cases gs with
  | nil =>
    rw [toList_lastField]
    exact ⟨_, rfl⟩
  | cons g gs =>
    rw [toList_fields k v (List.cons_ne_nil g gs)]
    exact ⟨_, rfl⟩

end

/-- A written value is read back up to whatever closes it. The fuel is enough if it is
twice the length of the text, as every step takes a character. -/
def ReadsBack (v : Value) : Prop :=
  ∀ (fuel : Nat), 2 * (write v).toList.length ≤ fuel → ∀ {cs : List Char}, Closes cs → ∀ p, ∃ q,
    readValue ordinary fuel ⟨(write v).toList ++ cs, p⟩ = .ok (v.reread, ⟨cs, q⟩)

/-- Written items are read back up to the end of their list. -/
def ItemsReadBack (vs : List Value) : Prop :=
  ∀ (fuel : Nat), 2 * (", ".intercalate (writeItems vs)).toList.length + 1 ≤ fuel →
    ∀ (cs : List Char) p, ∃ q,
    readItems ordinary fuel ⟨(", ".intercalate (writeItems vs)).toList ++ ']' :: cs, p⟩ =
      .ok (rereadItems vs, ⟨cs, q⟩)

/-- Written fields are read back up to the end of their object. -/
def FieldsReadBack (fs : List (String × Value)) : Prop :=
  ∀ (fuel : Nat), 2 * (", ".intercalate (writeFields fs)).toList.length + 1 ≤ fuel →
    ∀ (cs : List Char) p, ∃ q,
    readFields ordinary fuel ⟨(", ".intercalate (writeFields fs)).toList ++ '\x7d' :: cs, p⟩ =
      .ok (rereadFields fs, ⟨cs, q⟩)

/-- A value whose text starts as a scalar is read back as a scalar is. -/
theorem readsBack_of_scalar {v : Value}
    (hstart : ∃ c rest, (write v).toList = c :: rest ∧ StartsScalar c)
    (hread : ∀ {cs : List Char}, Closes cs → ∀ p, ∃ q,
      readScalar ordinary ((write v).toList ++ cs) p = .ok (v.reread, ⟨cs, q⟩)) : ReadsBack v := by
  intro fuel hfuel cs hcs p
  obtain ⟨c, rest, hc, hscalar⟩ := hstart
  obtain ⟨q, hq⟩ := hread hcs p
  rw [hc] at hfuel hq ⊢
  obtain ⟨k, rfl⟩ : ∃ k, fuel = k + 1 := ⟨fuel - 1, by rw [List.length_cons] at hfuel; omega⟩
  rw [List.cons_append] at hq ⊢
  exact ⟨q, (readValue_scalar hscalar k _ p).trans hq⟩

theorem readsBack_null : ReadsBack .null :=
  readsBack_of_scalar ⟨'n', _, rfl, .inr (by simp)⟩ fun _ p => ⟨p + 4, rfl⟩

theorem readsBack_bool (b : Bool) : ReadsBack (.bool b) := by
  cases b with
  | true => exact readsBack_of_scalar ⟨'t', _, rfl, .inr (by simp)⟩ fun _ p => ⟨p + 4, rfl⟩
  | false => exact readsBack_of_scalar ⟨'f', _, rfl, .inr (by simp)⟩ fun _ p => ⟨p + 5, rfl⟩

theorem readsBack_int (n : Int) : ReadsBack (.int n) := by
  have hstart := exists_start_numeral (valid_intNumeral n)
  rw [text_intNumeral] at hstart
  exact readsBack_of_scalar (v := .int n) hstart fun hcs p => readScalar_int hcs n p

theorem readsBack_float (x : Float) : ReadsBack (.float x) := by
  obtain ⟨y, hy, hread⟩ := readScalar_float x
  refine readsBack_of_scalar (v := .float x) (exists_start_float x) fun hcs p => ?_
  rw [Value.reread, hy]
  exact hread _ hcs p

theorem readsBack_text (s : String) : ReadsBack (.text s) := by
  intro fuel hfuel cs hcs p
  rw [write, toList_escape, List.cons_append, List.append_assoc, List.singleton_append] at *
  obtain ⟨k, rfl⟩ : ∃ k, fuel = k + 1 := ⟨fuel - 1, by rw [List.length_cons] at hfuel; omega⟩
  obtain ⟨q, hq⟩ := readString_escape s cs (p + 1)
  refine ⟨q, ?_⟩
  rw [readValue, hq]
  rfl

theorem itemsReadBack_cons {v : Value} {vs : List Value} (hv : ReadsBack v)
    (hvs : vs ≠ [] → ItemsReadBack vs) (hsettled : settledItems vs) : ItemsReadBack (v :: vs) := by
  intro fuel hfuel cs p
  obtain ⟨k, rfl⟩ : ∃ k, fuel = k + 1 := ⟨fuel - 1, by omega⟩
  by_cases hne : vs = []
  · subst hne
    rw [toList_item] at hfuel ⊢
    obtain ⟨q, hq⟩ := hv k (by omega) (closes_cons (.inr (.inl rfl)) cs) p
    exact ⟨q + 1, readItems_last hq⟩
  · obtain ⟨c, rest, hc, hspace, -⟩ := exists_start_items hne hsettled
    rw [toList_items v hne] at hfuel ⊢
    simp only [List.length_append, List.length_cons] at hfuel
    simp only [List.cons_append, List.append_assoc]
    obtain ⟨q, hq⟩ := hv k (by omega) (closes_cons (.inl rfl) (' ' ::
      ((", ".intercalate (writeItems vs)).toList ++ ']' :: cs))) p
    obtain ⟨r, hr⟩ := hvs hne k (by omega) cs (q + 2)
    rw [hc] at hq hr ⊢
    exact ⟨r, readItems_more hspace hq hr⟩

theorem fieldsReadBack_cons {k : String} {v : Value} {fs : List (String × Value)}
    (hv : ReadsBack v) (hsettled : v.Settled) (hfs : fs ≠ [] → FieldsReadBack fs) :
    FieldsReadBack ((k, v) :: fs) := by
  intro fuel hfuel cs p
  obtain ⟨n, rfl⟩ : ∃ n, fuel = n + 1 := ⟨fuel - 1, by omega⟩
  obtain ⟨c, rest, hc, hspace, -⟩ := exists_start hsettled
  by_cases hne : fs = []
  · subst hne
    rw [toList_lastField] at hfuel ⊢
    simp only [List.length_append, List.length_cons] at hfuel
    simp only [List.cons_append, List.append_assoc]
    obtain ⟨q, hq⟩ := readString_escape k (':' :: ' ' :: ((write v).toList ++ '\x7d' :: cs)) (p + 1)
    obtain ⟨r, hr⟩ := hv n (by omega) (closes_cons (.inr (.inr rfl)) cs) (q + 2)
    rw [hc] at hq hr ⊢
    exact ⟨r + 1, readFields_last hspace hq hr⟩
  · obtain ⟨later, hlater⟩ := exists_start_fields hne
    rw [toList_fields k v hne] at hfuel ⊢
    simp only [List.length_append, List.length_cons] at hfuel
    simp only [List.cons_append, List.append_assoc]
    obtain ⟨q, hq⟩ := readString_escape k (':' :: ' ' :: ((write v).toList ++ ',' :: ' ' ::
      ((", ".intercalate (writeFields fs)).toList ++ '\x7d' :: cs))) (p + 1)
    obtain ⟨r, hr⟩ := hv n (by omega) (closes_cons (.inl rfl) (' ' ::
      ((", ".intercalate (writeFields fs)).toList ++ '\x7d' :: cs))) (q + 2)
    obtain ⟨q', hq'⟩ := hfs hne n (by omega) cs (r + 2)
    rw [hc, hlater] at hq hr ⊢
    rw [hlater] at hq'
    exact ⟨q', readFields_more hspace rfl hq hr hq'⟩

theorem readsBack_list {vs : List Value} (hsettled : settledItems vs)
    (h : vs ≠ [] → ItemsReadBack vs) : ReadsBack (.list vs) := by
  intro fuel hfuel cs hcs p
  have htext : (write (.list vs)).toList =
      '[' :: ((", ".intercalate (writeItems vs)).toList ++ [']']) := by
    rw [write, String.toList_append, String.toList_append]
    rfl
  rw [htext] at hfuel ⊢
  simp only [List.length_append, List.length_cons, List.length_nil] at hfuel
  obtain ⟨k, rfl⟩ : ∃ k, fuel = k + 1 := ⟨fuel - 1, by omega⟩
  simp only [List.cons_append, List.append_assoc, List.nil_append]
  by_cases hne : vs = []
  · subst hne
    exact ⟨p + 2, rfl⟩
  · obtain ⟨c, rest, hc, hspace, hend⟩ := exists_start_items hne hsettled
    obtain ⟨q, hq⟩ := h hne k (by omega) cs (p + 1)
    rw [hc] at hq ⊢
    exact ⟨q, readValue_list hspace hend hq⟩

theorem readsBack_object {fs : List (String × Value)} (h : fs ≠ [] → FieldsReadBack fs) :
    ReadsBack (.object fs) := by
  intro fuel hfuel cs hcs p
  have htext : (write (.object fs)).toList =
      '\x7b' :: ((", ".intercalate (writeFields fs)).toList ++ ['\x7d']) := by
    rw [write, String.toList_append, String.toList_append]
    rfl
  rw [htext] at hfuel ⊢
  simp only [List.length_append, List.length_cons, List.length_nil] at hfuel
  obtain ⟨k, rfl⟩ : ∃ k, fuel = k + 1 := ⟨fuel - 1, by omega⟩
  simp only [List.cons_append, List.append_assoc, List.nil_append]
  by_cases hne : fs = []
  · subst hne
    exact ⟨p + 2, rfl⟩
  · obtain ⟨rest, hrest⟩ := exists_start_fields hne
    obtain ⟨q, hq⟩ := h hne k (by omega) cs (p + 1)
    rw [hrest] at hq ⊢
    exact ⟨q, readValue_object hq⟩

mutual

theorem readsBack : ∀ (v : Value), v.Settled → ReadsBack v
  | .null, _ => readsBack_null
  | .bool b, _ => readsBack_bool b
  | .int n, _ => readsBack_int n
  | .float x, _ => readsBack_float x
  | .decimal _, h => h.elim
  | .text s, _ => readsBack_text s
  | .list vs, h => readsBack_list h (itemsReadBack vs h)
  | .object fs, h => readsBack_object (fieldsReadBack fs h.2)

theorem itemsReadBack : ∀ (vs : List Value), settledItems vs → vs ≠ [] → ItemsReadBack vs
  | [], _, hne => absurd rfl hne
  | v :: vs, h, _ => itemsReadBack_cons (readsBack v h.1) (itemsReadBack vs h.2) h.2

theorem fieldsReadBack : ∀ (fs : List (String × Value)), settledFields fs → fs ≠ [] →
    FieldsReadBack fs
  | [], _, hne => absurd rfl hne
  | (_, v) :: fs, h, _ => fieldsReadBack_cons (readsBack v h.1) h.1 (fieldsReadBack fs h.2)

end

/-! ## Whole texts -/

theorem rereadFields_eq_map (fs : List (String × Value)) :
    rereadFields fs = fs.map fun f => (f.1, f.2.reread) := by
  induction fs with
  | nil => rfl
  | cons f fs ih => rw [rereadFields, ih, List.map_cons]

mutual

/-- What is left of a settled value is settled. -/
theorem settled_reread : ∀ (v : Value), v.Settled → v.reread.Settled
  | .null, _ | .bool _, _ | .int _, _ | .text _, _ => trivial
  | .float x, _ => by
    obtain ⟨y, hy, -⟩ := readScalar_float x
    rw [Value.reread, hy]
    trivial
  | .decimal _, h => h.elim
  | .list vs, h => settledItems_reread vs h
  | .object fs, h => by
    refine ⟨?_, settledFields_reread fs h.2⟩
    rw [rereadFields_eq_map, List.map_map]
    exact h.1

theorem settledItems_reread : ∀ (vs : List Value), settledItems vs → settledItems (rereadItems vs)
  | [], _ => trivial
  | v :: vs, h => ⟨settled_reread v h.1, settledItems_reread vs h.2⟩

theorem settledFields_reread : ∀ (fs : List (String × Value)), settledFields fs →
    settledFields (rereadFields fs)
  | [], _ => trivial
  | (_, v) :: fs, h => ⟨settled_reread v h.1, settledFields_reread fs h.2⟩

end

/-- **What is written is read back**, but for floating point numbers, each of which becomes
what its text is read as. -/
theorem readText_write {v : Value} (h : v.Settled) : readText (write v) = .ok v.reread := by
  obtain ⟨c, rest, hc, hspace, -⟩ := exists_start h
  obtain ⟨q, hq⟩ := readsBack v h (2 * (write v).toList.length + 2) (by omega) closes_nil 0
  have hskip : skipSpace ordinary (write v).toList 0 = ⟨(write v).toList ++ [], 0⟩ := by
    rw [List.append_nil, hc, skipSpace_cons hspace]
  have hraw : readRaw ordinary (write v).toList = .ok v.reread := by
    rw [readRaw, hskip, hq]
    rfl
  rw [readText, hraw, ← settle_of_settled _ (settled_reread v h)]
  exact congrArg Except.ok (congrArg Value.settle (settle_of_settled _ (settled_reread v h)))

end Json

/-- A field of an object is left as its own value is. -/
theorem lookup_rereadFields (name : String) (fs : List (String × Value)) :
    Value.lookup name (rereadFields fs) = (Value.lookup name fs).map Value.reread := by
  induction fs with
  | nil => rfl
  | cons f fs ih =>
    obtain ⟨k, v⟩ := f
    rw [rereadFields, Value.lookup, Value.lookup]
    split
    · rfl
    · exact ih

/-! ## Values without floating point numbers -/

mutual

/-- Whether a value holds no floating point number, not even further inside. -/
def Value.isExact : Value → Bool
  | .float _ => false
  | .list vs => areExact vs
  | .object fs => areExactFields fs
  | _ => true

/-- Whether no item of a list holds a floating point number. -/
def areExact : List Value → Bool
  | [] => true
  | v :: rest => v.isExact && areExact rest

/-- Whether no field holds a floating point number. -/
def areExactFields : List (String × Value) → Bool
  | [] => true
  | (_, v) :: rest => v.isExact && areExactFields rest

end

mutual

/-- A value without floating point numbers stays as it is. -/
theorem reread_of_isExact : ∀ (v : Value), v.isExact = true → v.reread = v
  | .null, _ | .bool _, _ | .int _, _ | .text _, _ | .decimal _, _ => rfl
  | .float _, h => nomatch h
  | .list vs, h => congrArg Value.list (rereadItems_of_isExact vs h)
  | .object fs, h => congrArg Value.object (rereadFields_of_isExact fs h)

theorem rereadItems_of_isExact : ∀ (vs : List Value), areExact vs = true → rereadItems vs = vs
  | [], _ => rfl
  | v :: vs, h => by
    obtain ⟨hv, hvs⟩ := Bool.and_eq_true_iff.1 h
    rw [rereadItems, reread_of_isExact v hv, rereadItems_of_isExact vs hvs]

theorem rereadFields_of_isExact : ∀ (fs : List (String × Value)), areExactFields fs = true →
    rereadFields fs = fs
  | [], _ => rfl
  | (k, v) :: fs, h => by
    obtain ⟨hv, hfs⟩ := Bool.and_eq_true_iff.1 h
    rw [rereadFields, reread_of_isExact v hv, rereadFields_of_isExact fs hfs]

end

end CardArchive
