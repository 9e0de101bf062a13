/-!
# Tables in key order

A `Table α` is a finite map from text keys to `α` whose entries are kept in
strictly increasing key order. Keys are compared by code point, which is also
the order of their UTF-8 bytes. Because the entries are sorted and the keys
distinct, two tables that agree at every key are equal (`Table.ext_get?`), so
the order in which a table was filled never shows.

The base operations are `insert` and `get?`, bound together by `get?_insert`.
A list with repeated keys becomes a table through `ofList`, where the last of
equal keys wins, and `toList` gives the entries back in key order.
-/

namespace NetReplay

universe u v

/-- Finite maps from text keys, with the entries in strictly increasing key
order. -/
structure Table (α : Type u) where
  /-- The entries, in key order. -/
  toList : List (String × α)
  /-- The keys strictly increase along the entries. -/
  ordered : (toList.map Prod.fst).Pairwise (· < ·)

namespace Table

variable {α : Type u} {β : Type v}

theorem ext_toList {s t : Table α} (h : s.toList = t.toList) : s = t := by
  cases s; cases t; cases h; rfl

instance [DecidableEq α] : DecidableEq (Table α) := fun s t =>
  decidable_of_iff (s.toList = t.toList) ⟨ext_toList, fun h => h ▸ rfl⟩

def empty : Table α := ⟨[], List.Pairwise.nil⟩

instance : EmptyCollection (Table α) := ⟨empty⟩

instance : Inhabited (Table α) := ⟨empty⟩

def keys (t : Table α) : List String := t.toList.map Prod.fst

def values (t : Table α) : List α := t.toList.map Prod.snd

def size (t : Table α) : Nat := t.toList.length

def isEmpty (t : Table α) : Bool := t.toList.isEmpty

def get? (t : Table α) (key : String) : Option α := t.toList.lookup key

def contains (t : Table α) (key : String) : Bool := (t.get? key).isSome

@[simp] theorem get?_empty (key : String) : (empty : Table α).get? key = none := rfl

/-! ## Insertion -/

/-- Puts an entry in its place, in front of the first larger key, replacing
one of the same key. -/
def insertEntry (key : String) (a : α) : List (String × α) → List (String × α)
  | [] => [(key, a)]
  | (k, b) :: rest =>
    if key < k then (key, a) :: (k, b) :: rest
    else if key = k then (key, a) :: rest
    else (k, b) :: insertEntry key a rest

@[simp] theorem insertEntry_nil (key : String) (a : α) :
    insertEntry key a [] = [(key, a)] := rfl

theorem insertEntry_cons (key k : String) (a b : α) (rest : List (String × α)) :
    insertEntry key a ((k, b) :: rest) =
      if key < k then (key, a) :: (k, b) :: rest
      else if key = k then (key, a) :: rest
      else (k, b) :: insertEntry key a rest := rfl

theorem mem_keys_insertEntry (key x : String) (a : α) (l : List (String × α)) :
    x ∈ (insertEntry key a l).map Prod.fst ↔ x = key ∨ x ∈ l.map Prod.fst := by
  induction l with
  | nil => simp
  | cons e rest ih =>
      obtain ⟨k, b⟩ := e
      rw [insertEntry_cons]
      split
      · simp
      · split
        · rename_i h
          simp [h]
        · simp only [List.map_cons, List.mem_cons, ih]
          exact or_left_comm

/-- Of two keys that are not in increasing order and differ, the second comes
first. -/
theorem lt_of_not_lt_of_ne {x y : String} (hlt : ¬ x < y) (hne : x ≠ y) :
    y < x :=
  Std.lt_of_le_of_ne (String.not_lt.mp hlt) (Ne.symm hne)

theorem ordered_insertEntry (key : String) (a : α) {l : List (String × α)}
    (h : (l.map Prod.fst).Pairwise (· < ·)) :
    ((insertEntry key a l).map Prod.fst).Pairwise (· < ·) := by
  induction l with
  | nil => simp
  | cons e rest ih =>
      obtain ⟨k, b⟩ := e
      simp only [List.map_cons, List.pairwise_cons] at h
      rw [insertEntry_cons]
      split
      · rename_i hlt
        simp only [List.map_cons, List.pairwise_cons, List.mem_cons]
        refine ⟨fun x hx => ?_, h⟩
        cases hx with
        | inl hx => exact hx ▸ hlt
        | inr hx => exact String.lt_trans hlt (h.1 x hx)
      · rename_i hlt
        split
        · rename_i heq
          subst heq
          simpa using h
        · rename_i hne
          simp only [List.map_cons, List.pairwise_cons]
          refine ⟨fun x hx => ?_, ih h.2⟩
          cases (mem_keys_insertEntry key x a rest).mp hx with
          | inl hx => exact hx ▸ lt_of_not_lt_of_ne hlt hne
          | inr hx => exact h.1 x hx

/-- The table with `a` at `key`, whatever was there before. -/
def insert (t : Table α) (key : String) (a : α) : Table α :=
  ⟨insertEntry key a t.toList, ordered_insertEntry key a t.ordered⟩

theorem lookup_entry (x k : String) (b : α) (rest : List (String × α)) :
    ((k, b) :: rest).lookup x = if x = k then some b else rest.lookup x := by
  by_cases h : x = k
  · simp [h]
  · simp [List.lookup_cons, h, beq_eq_false_iff_ne.mpr h]

theorem lookup_insertEntry (key x : String) (a : α) (l : List (String × α)) :
    (insertEntry key a l).lookup x = if x = key then some a else l.lookup x := by
  induction l with
  | nil => simp [lookup_entry]
  | cons e rest ih =>
      obtain ⟨k, b⟩ := e
      rw [insertEntry_cons]
      split
      · simp [lookup_entry]
      · split
        · rename_i h
          subst h
          by_cases hx : x = key <;> simp [lookup_entry, hx]
        · rename_i hne
          simp only [lookup_entry, ih]
          by_cases hx : x = key
          · simp [hx, hne]
          · simp [hx]

/-- Inserting changes the value at the given key and at no other. -/
theorem get?_insert (t : Table α) (key x : String) (a : α) :
    (t.insert key a).get? x = if x = key then some a else t.get? x :=
  lookup_insertEntry key x a t.toList

theorem lookup_eq_none_iff (key : String) (l : List (String × α)) :
    l.lookup key = none ↔ key ∉ l.map Prod.fst := by
  induction l with
  | nil => simp
  | cons e rest ih =>
      obtain ⟨k, b⟩ := e
      by_cases h : key = k <;> simp [lookup_entry, h, ih]

/-- In a sorted list whose first key is above `key`, nothing is found. -/
theorem lookup_eq_none_of_lt {key k : String} {a : α} {l : List (String × α)}
    (h : (((k, a) :: l).map Prod.fst).Pairwise (· < ·)) (hlt : key < k) :
    ((k, a) :: l).lookup key = none := by
  rw [lookup_eq_none_iff, List.map_cons, List.mem_cons, not_or]
  rw [List.map_cons, List.pairwise_cons] at h
  exact ⟨fun he => by subst he; exact String.lt_irrefl _ hlt,
    fun hm => String.lt_irrefl key (String.lt_trans hlt (h.1 key hm))⟩

theorem eq_of_lookup_eq {l m : List (String × α)}
    (hl : (l.map Prod.fst).Pairwise (· < ·)) (hm : (m.map Prod.fst).Pairwise (· < ·))
    (h : ∀ key, l.lookup key = m.lookup key) : l = m := by
  induction l generalizing m with
  | nil =>
      cases m with
      | nil => rfl
      | cons e m =>
          obtain ⟨k, b⟩ := e
          simpa [lookup_entry] using h k
  | cons d l ih =>
      obtain ⟨j, a⟩ := d
      cases m with
      | nil => simpa [lookup_entry] using h j
      | cons e m =>
          obtain ⟨k, b⟩ := e
          have hj := h j
          have hk := h k
          have hjk : j = k := by
            by_cases hlt : j < k
            · rw [lookup_eq_none_of_lt hm hlt] at hj
              simp at hj
            · refine Decidable.byContradiction fun hne => ?_
              rw [lookup_eq_none_of_lt hl (lt_of_not_lt_of_ne hlt hne)] at hk
              simp at hk
          subst hjk
          simp only [lookup_entry, if_true, Option.some.injEq] at hj
          subst hj
          simp only [List.map_cons, List.pairwise_cons] at hl hm
          rw [ih hl.2 hm.2 fun key => ?_]
          by_cases hkey : key = j
          · subst hkey
            rw [(lookup_eq_none_iff key l).mpr fun hc => String.lt_irrefl _ (hl.1 _ hc),
              (lookup_eq_none_iff key m).mpr fun hc => String.lt_irrefl _ (hm.1 _ hc)]
          · simpa [lookup_entry, hkey] using h key

/-- Two tables with the same value at every key are the same table. -/
theorem ext_get? {s t : Table α} (h : ∀ key, s.get? key = t.get? key) : s = t :=
  ext_toList (eq_of_lookup_eq s.ordered t.ordered h)

/-! ## Lists of entries and key-preserving maps -/

/-- The table of a list of entries; of equal keys the last wins. -/
def ofList (l : List (String × α)) : Table α :=
  l.foldl (fun t e => t.insert e.1 e.2) empty

/-- Applies `f` to every entry and keeps the keys. -/
def map (f : String → α → β) (t : Table α) : Table β :=
  ⟨t.toList.map fun e => (e.1, f e.1 e.2), by simpa [Function.comp_def] using t.ordered⟩

@[simp] theorem toList_map (f : String → α → β) (t : Table α) :
    (t.map f).toList = t.toList.map fun e => (e.1, f e.1 e.2) := rfl

end Table

end NetReplay
