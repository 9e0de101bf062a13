import NetReplay.Table
import NetReplay.Proofs.Text.Utf8

/-!
# Entries and look-up

The entries of a table and the values found by look-up are the same thing
(`mem_toList_iff`), so a table can be described by either. Filling a table from
a list leaves the last of equal keys (`get?_ofList`), and a table is the table
of its own entries (`ofList_toList`). The keys are in the order of their bytes
(`pairwise_utf8_keys`).
-/

namespace NetReplay

namespace Table

universe u v

variable {α : Type u} {β : Type v}

theorem mem_iff_lookup_eq {l : List (String × α)} (h : (l.map Prod.fst).Nodup) (key : String)
    (a : α) : (key, a) ∈ l ↔ l.lookup key = some a := by
  induction l with
  | nil => simp
  | cons e rest ih =>
      obtain ⟨k, b⟩ := e
      rw [List.map_cons, List.nodup_cons] at h
      rw [lookup_entry, List.mem_cons, ih h.2]
      by_cases hkey : key = k
      · have hnone : rest.lookup k = none := (lookup_eq_none_iff k rest).mpr h.1
        simp only [hkey, hnone, if_true, Prod.mk.injEq, true_and, Option.some.injEq]
        constructor
        · rintro (rfl | hsome)
          · rfl
          · cases hsome
        · rintro rfl
          exact Or.inl rfl
      · simp [hkey]

theorem nodup_keys (t : Table α) : (t.toList.map Prod.fst).Nodup := by
  refine List.nodup_iff_pairwise_ne.mpr (t.ordered.imp ?_)
  rintro j _ hlt rfl
  exact String.lt_irrefl j hlt

/-- The entries of a table are what look-up finds. -/
theorem mem_toList_iff (t : Table α) (key : String) (a : α) :
    (key, a) ∈ t.toList ↔ t.get? key = some a :=
  mem_iff_lookup_eq t.nodup_keys key a

theorem mem_keys_iff (t : Table α) (key : String) : key ∈ t.keys ↔ (t.get? key).isSome := by
  rw [Option.isSome_iff_ne_none, Ne, get?, lookup_eq_none_iff, Decidable.not_not, keys]

/-- The keys are in the order of their bytes. -/
theorem pairwise_utf8_keys (t : Table α) :
    t.keys.Pairwise fun j k => j.toUTF8.toList < k.toUTF8.toList :=
  t.ordered.imp fun {_ _} h => (Text.lt_iff_utf8_lt _ _).mp h

/-- Entries of smaller keys come before. -/
theorem mem_of_lt_of_split {t : Table α} {front back : List (String × α)} {j k : String} {a b : α}
    (hsplit : t.toList = front ++ (k, b) :: back) (hmem : (j, a) ∈ t.toList) (hlt : j < k) :
    (j, a) ∈ front := by
  have hordered := t.ordered
  rw [hsplit, List.map_append, List.map_cons, List.pairwise_append, List.pairwise_cons] at hordered
  rw [hsplit, List.mem_append, List.mem_cons] at hmem
  rcases hmem with hfront | heq | hback
  · exact hfront
  · cases heq
    exact absurd hlt (String.lt_irrefl _)
  · have hgt := hordered.2.1.1 j (List.mem_map_of_mem hback)
    exact absurd (String.lt_trans hlt hgt) (String.lt_irrefl _)

/-! ## Filling a table -/

theorem lookup_append_singleton (l : List (String × α)) (k key : String) (a : α) :
    (l ++ [(k, a)]).lookup key = (l.lookup key).or (if key = k then some a else none) := by
  rw [List.lookup_append, lookup_entry, List.lookup_nil]

/-- Entries put in one after the other: the last of equal keys counts, and what
was there before counts where there is none. -/
theorem get?_foldl_insert (l : List (String × α)) (t : Table α) (key : String) :
    (l.foldl (fun t e => t.insert e.1 e.2) t).get? key =
      (l.reverse.lookup key).or (t.get? key) := by
  induction l generalizing t with
  | nil => simp
  | cons e rest ih =>
      obtain ⟨k, b⟩ := e
      rw [List.foldl_cons, ih, get?_insert, List.reverse_cons, lookup_append_singleton,
        Option.or_assoc]
      congr 1
      by_cases hkey : key = k <;> simp [hkey]

theorem get?_ofList (l : List (String × α)) (key : String) :
    (ofList l).get? key = l.reverse.lookup key := by
  rw [ofList, get?_foldl_insert, get?_empty, Option.or_none]

theorem isSome_get?_ofList (l : List (String × α)) (key : String) :
    ((ofList l).get? key).isSome ↔ key ∈ l.map Prod.fst := by
  rw [get?_ofList, Option.isSome_iff_ne_none, Ne, lookup_eq_none_iff, Decidable.not_not,
    List.map_reverse, List.mem_reverse]

/-- The table of things that were put in one by one has their keys. -/
theorem isSome_get?_foldl_insert (keyOf : β → String) (valueOf : β → α) (l : List β)
    (key : String) :
    ((l.foldl (fun t b => t.insert (keyOf b) (valueOf b)) empty).get? key).isSome ↔
      key ∈ l.map keyOf := by
  have hlist : l.foldl (fun t b => t.insert (keyOf b) (valueOf b)) empty =
      ofList (l.map fun b => (keyOf b, valueOf b)) := by
    rw [ofList, List.foldl_map]
  rw [hlist, isSome_get?_ofList, List.map_map]
  rfl

theorem lookup_reverse {l : List (String × α)} (h : (l.map Prod.fst).Nodup) (key : String) :
    l.reverse.lookup key = l.lookup key := by
  have hreverse : (l.reverse.map Prod.fst).Nodup :=
    ((List.reverse_perm l).map Prod.fst).nodup_iff.mpr h
  apply Option.ext
  intro a
  rw [← mem_iff_lookup_eq hreverse, List.mem_reverse, mem_iff_lookup_eq h]

/-- A table is the table of its own entries. -/
theorem ofList_toList (t : Table α) : ofList t.toList = t := by
  refine ext_get? fun key => ?_
  rw [get?_ofList, lookup_reverse t.nodup_keys, get?]

theorem lookup_map (f : String → α → β) (l : List (String × α)) (key : String) :
    (l.map fun e => (e.1, f e.1 e.2)).lookup key = (l.lookup key).map (f key) := by
  induction l with
  | nil => rfl
  | cons e rest ih =>
      obtain ⟨k, b⟩ := e
      rw [List.map_cons, lookup_entry, lookup_entry, ih]
      by_cases hkey : key = k <;> simp [hkey]

theorem get?_map (f : String → α → β) (t : Table α) (key : String) :
    (t.map f).get? key = (t.get? key).map (f key) :=
  lookup_map f t.toList key

theorem map_insert (t : Table α) (key : String) (a : α) (f : String → α → β) :
    (t.insert key a).map f = (t.map f).insert key (f key a) := by
  refine ext_get? fun k => ?_
  rw [get?_map, get?_insert, get?_insert, get?_map]
  by_cases hk : k = key
  · rw [if_pos hk, if_pos hk, hk, Option.map_some]
  · rw [if_neg hk, if_neg hk]

theorem foldl_insert_toList (t : Table α) :
    t.toList.foldl (fun u e => u.insert e.1 e.2) empty = t :=
  ofList_toList t

/-- Filling a table with what a function makes of the entries of another. -/
theorem foldl_insert_map (t : Table α) (f : α → β) :
    t.toList.foldl (fun u e => u.insert e.1 (f e.2)) empty = t.map fun _ a => f a := by
  rw [← ofList_toList (t.map fun _ a => f a), ofList, toList_map, List.foldl_map]

end Table

end NetReplay
