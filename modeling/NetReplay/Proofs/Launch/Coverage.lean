import NetReplay.Launch.WorkItem

/-!
# A launch covers its index space

The items of a usable launch take every position of the index space once, and
come in lexicographic order of group and place (`Launch.Covers`,
`covers_workItems`). That a dispatch calls its body on these items is proved with
the dispatch.

A usable launch has in each dimension as many items as its groups have together
(`toNat_items_eq`). So a position is a group and a place in the group, found by
division with remainder, and the number of a position never exceeds the number
of items: no product or sum of words wraps (`toNat_globalId`).
-/

namespace NetReplay

namespace Dim3

theorem get?_fin (d : Dim3) (dim : Fin 3) : d.get? dim = some (d.get dim) := by
  rw [get?, dif_pos dim.isLt]

theorem ext_get {a b : Dim3} (h : ∀ dim, a.get dim = b.get dim) : a = b := by
  obtain ⟨x, y, z⟩ := a
  obtain ⟨x', y', z'⟩ := b
  have hx : x = x' := h 0
  have hy : y = y' := h 1
  have hz : z = z' := h 2
  rw [hx, hy, hz]

/-- The coordinates in the order in which positions are compared. -/
def rank (d : Dim3) : List UInt64 := [d.z, d.y, d.x]

theorem rank_append_lt {a b : Dim3} (h : a.rank < b.rank) (u v : List UInt64) :
    a.rank ++ u < b.rank ++ v := by
  simp only [rank, List.cons_append, List.nil_append, List.cons_lt_cons_iff,
    List.not_lt_nil, and_false, or_false] at h ⊢
  rcases h with hz | ⟨hz, hy | ⟨hy, hx⟩⟩
  · exact Or.inl hz
  · exact Or.inr ⟨hz, Or.inl hy⟩
  · exact Or.inr ⟨hz, Or.inr ⟨hy, Or.inl hx⟩⟩

theorem mem_positions_iff (size c : Dim3) :
    c ∈ size.positions ↔ ∀ dim, c.get dim < size.get dim := by
  constructor
  · intro h
    simp only [positions, List.mem_flatMap, List.mem_map, List.mem_range] at h
    obtain ⟨z, hz, y, hy, x, hx, rfl⟩ := h
    have hlt : ∀ {n : Nat} {bound : UInt64}, n < bound.toNat → UInt64.ofNat n < bound := by
      intro n bound hn
      have hbound := bound.toNat_lt
      rw [UInt64.lt_iff_toNat_lt, UInt64.toNat_ofNat_of_lt' (Nat.lt_trans hn hbound)]
      exact hn
    intro dim
    match dim with
    | 0 => exact hlt hx
    | 1 => exact hlt hy
    | 2 => exact hlt hz
  · intro h
    simp only [positions, List.mem_flatMap, List.mem_map, List.mem_range]
    refine ⟨c.z.toNat, h 2, c.y.toNat, h 1, c.x.toNat, h 0, ?_⟩
    simp only [UInt64.ofNat_toNat]

theorem pairwise_map_ofNat (bound : UInt64) :
    (List.range bound.toNat).Pairwise fun m n => UInt64.ofNat m < UInt64.ofNat n := by
  have hbound := bound.toNat_lt
  refine List.Pairwise.imp_of_mem ?_ List.pairwise_lt_range
  intro m n hm hn hlt
  rw [List.mem_range] at hm hn
  rw [UInt64.lt_iff_toNat_lt, UInt64.toNat_ofNat_of_lt' (Nat.lt_trans hm hbound),
    UInt64.toNat_ofNat_of_lt' (Nat.lt_trans hn hbound)]
  exact hlt

/-- Positions are listed in increasing order. -/
theorem pairwise_positions (size : Dim3) : size.positions.Pairwise fun a b => a.rank < b.rank := by
  rw [positions, List.pairwise_flatMap]
  refine ⟨fun z _ => ?_, (pairwise_map_ofNat size.z).imp ?_⟩
  · rw [List.pairwise_flatMap]
    refine ⟨fun y _ => ?_, (pairwise_map_ofNat size.y).imp ?_⟩
    · rw [List.pairwise_map]
      refine (pairwise_map_ofNat size.x).imp ?_
      intro m n hx
      simp [rank, List.cons_lt_cons_iff, hx]
    · intro m n hy a ha b hb
      simp only [List.mem_map, List.mem_range] at ha hb
      obtain ⟨_, -, rfl⟩ := ha
      obtain ⟨_, -, rfl⟩ := hb
      simp [rank, List.cons_lt_cons_iff, hy]
  · intro m n hz a ha b hb
    simp only [List.mem_flatMap, List.mem_map, List.mem_range] at ha hb
    obtain ⟨_, -, _, -, rfl⟩ := ha
    obtain ⟨_, -, _, -, rfl⟩ := hb
    simp [rank, List.cons_lt_cons_iff, hz]

end Dim3

/-- The coordinates of the group and the place, in the order in which items are
compared: group z, y, x, then place z, y, x. -/
def WorkItem.rank (w : WorkItem) : List UInt64 := w.group.rank ++ w.place.rank

/-- The position of an item in the whole launch. -/
def WorkItem.position (w : WorkItem) : Nat × Nat × Nat :=
  ((w.globalId 0).toNat, (w.globalId 1).toNat, (w.globalId 2).toNat)

namespace Launch

/-! ## Groups and places -/

theorem mem_workItems_iff (l : Launch) (w : WorkItem) :
    w ∈ l.workItems ↔
      w.group ∈ l.groups.positions ∧ w.place ∈ l.groupSize.positions ∧
        w.groupSize = l.groupSize := by
  simp only [workItems, List.mem_flatMap, List.mem_map]
  constructor
  · rintro ⟨group, hgroup, place, hplace, rfl⟩
    exact ⟨hgroup, hplace, rfl⟩
  · obtain ⟨group, place, size⟩ := w
    rintro ⟨hgroup, hplace, rfl⟩
    exact ⟨group, hgroup, place, hplace, rfl⟩

/-- Items run in increasing order. -/
theorem pairwise_workItems (l : Launch) : l.workItems.Pairwise fun v w => v.rank < w.rank := by
  rw [workItems, List.pairwise_flatMap]
  refine ⟨fun group _ => ?_, (Dim3.pairwise_positions l.groups).imp ?_⟩
  · rw [List.pairwise_map]
    exact (Dim3.pairwise_positions l.groupSize).imp fun h => List.append_left_lt h
  · intro a b hgroups v hv w hw
    obtain ⟨_, -, rfl⟩ := List.mem_map.mp hv
    obtain ⟨_, -, rfl⟩ := List.mem_map.mp hw
    exact Dim3.rank_append_lt hgroups _ _

theorem nodup_workItems (l : Launch) : l.workItems.Nodup := by
  refine List.nodup_iff_pairwise_ne.mpr (l.pairwise_workItems.imp ?_)
  rintro v _ hlt rfl
  exact List.lt_irrefl _ hlt

/-- In a dimension without misfit the groups have together as many items as the
launch. -/
theorem toNat_items_eq {l : Launch} {dim : Fin 3} (h : ¬ l.Misfit dim) :
    0 < (l.groupSize.get dim).toNat ∧
      (l.groups.get dim).toNat * (l.groupSize.get dim).toNat = (l.items.get dim).toNat := by
  rw [Misfit, not_or, Decidable.not_not] at h
  obtain ⟨hsize, hdivides⟩ := h
  have hpos : 0 < (l.groupSize.get dim).toNat := by
    refine Nat.pos_of_ne_zero fun h0 => hsize ?_
    rw [← UInt64.toNat_inj, h0]
    rfl
  have hmax : max (l.groupSize.get dim) 1 = l.groupSize.get dim := by
    show (if l.groupSize.get dim ≤ 1 then 1 else l.groupSize.get dim) = l.groupSize.get dim
    split
    · rename_i hle
      rw [UInt64.le_iff_toNat_le] at hle
      rw [← UInt64.toNat_inj]
      exact Nat.le_antisymm hpos hle
    · rfl
  have hmod : (l.items.get dim).toNat % (l.groupSize.get dim).toNat = 0 := by
    rw [← UInt64.toNat_mod, hdivides]
    rfl
  refine ⟨hpos, ?_⟩
  rw [groups, Dim3.get_zipWith, hmax, UInt64.toNat_div]
  exact Nat.div_mul_cancel (Nat.dvd_of_mod_eq_zero hmod)

/-! ## Positions in the whole launch -/

theorem globalId_eq (w : WorkItem) (dim : Fin 3) :
    w.globalId dim = w.group.get dim * w.groupSize.get dim + w.place.get dim := by
  simp only [WorkItem.globalId, WorkItem.groupId, WorkItem.localId, Dim3.get?_fin,
    Option.getD_some]

theorem groupId_eq (w : WorkItem) (dim : Fin 3) : w.groupId dim = w.group.get dim := by
  rw [WorkItem.groupId, Dim3.get?_fin, Option.getD_some]

theorem localId_eq (w : WorkItem) (dim : Fin 3) : w.localId dim = w.place.get dim := by
  rw [WorkItem.localId, Dim3.get?_fin, Option.getD_some]

/-- The position of an item is counted without wrapping, and is one of the
launch. -/
theorem toNat_globalId {l : Launch} (h : ∀ dim, ¬ l.Misfit dim) {w : WorkItem}
    (hw : w ∈ l.workItems) (dim : Fin 3) :
    (w.group.get dim).toNat * (l.groupSize.get dim).toNat + (w.place.get dim).toNat <
        (l.items.get dim).toNat ∧
      (w.globalId dim).toNat =
        (w.group.get dim).toNat * (l.groupSize.get dim).toNat + (w.place.get dim).toNat := by
  obtain ⟨hgroup, hplace, hsize⟩ := (mem_workItems_iff l w).mp hw
  have hgroup : (w.group.get dim).toNat < (l.groups.get dim).toNat :=
    (Dim3.mem_positions_iff _ _).mp hgroup dim
  have hplace : (w.place.get dim).toNat < (l.groupSize.get dim).toNat :=
    (Dim3.mem_positions_iff _ _).mp hplace dim
  have hitems := (toNat_items_eq (h dim)).2
  have hbound := (l.items.get dim).toNat_lt
  have hnext := Nat.mul_le_mul_right (l.groupSize.get dim).toNat (Nat.succ_le_of_lt hgroup)
  rw [Nat.succ_mul, hitems] at hnext
  refine ⟨by omega, ?_⟩
  rw [globalId_eq, hsize, UInt64.toNat_add, UInt64.toNat_mul, Nat.mod_add_mod,
    Nat.mod_eq_of_lt (by omega)]

theorem eq_of_globalId_eq {l : Launch} (h : ∀ dim, ¬ l.Misfit dim) {v w : WorkItem}
    (hv : v ∈ l.workItems) (hw : w ∈ l.workItems)
    (hposition : ∀ dim : Fin 3, v.globalId dim = w.globalId dim) : v = w := by
  obtain ⟨-, hvplace, hvsize⟩ := (mem_workItems_iff l v).mp hv
  obtain ⟨-, hwplace, hwsize⟩ := (mem_workItems_iff l w).mp hw
  have hsame : ∀ dim, v.group.get dim = w.group.get dim ∧ v.place.get dim = w.place.get dim := by
    intro dim
    have hvplace : (v.place.get dim).toNat < (l.groupSize.get dim).toNat :=
      (Dim3.mem_positions_iff _ _).mp hvplace dim
    have hwplace : (w.place.get dim).toNat < (l.groupSize.get dim).toNat :=
      (Dim3.mem_positions_iff _ _).mp hwplace dim
    have heq := congrArg UInt64.toNat (hposition dim)
    rw [(toNat_globalId h hv dim).2, (toNat_globalId h hw dim).2] at heq
    have hpos := (toNat_items_eq (h dim)).1
    have hdiv := congrArg (· / (l.groupSize.get dim).toNat) heq
    have hmod := congrArg (· % (l.groupSize.get dim).toNat) heq
    simp only [Nat.mul_comm _ (l.groupSize.get dim).toNat,
      Nat.mul_add_div hpos, Nat.div_eq_of_lt hvplace, Nat.div_eq_of_lt hwplace,
      Nat.mul_add_mod, Nat.mod_eq_of_lt hvplace, Nat.mod_eq_of_lt hwplace] at hdiv hmod
    exact ⟨UInt64.toNat_inj.mp hdiv, UInt64.toNat_inj.mp hmod⟩
  obtain ⟨vgroup, vplace, vsize⟩ := v
  obtain ⟨wgroup, wplace, wsize⟩ := w
  congr
  · exact Dim3.ext_get fun dim => (hsame dim).1
  · exact Dim3.ext_get fun dim => (hsame dim).2
  · exact hvsize.trans hwsize.symm

/-- Every position of the launch is that of an item: the quotient gives the
group and the remainder the place. -/
theorem exists_item_at {l : Launch} (h : ∀ dim, ¬ l.Misfit dim) (c : Dim3)
    (hc : ∀ dim, c.get dim < l.items.get dim) :
    ∃ w ∈ l.workItems, ∀ dim : Fin 3, w.globalId dim = c.get dim := by
  have hget : ∀ (f : UInt64 → UInt64 → UInt64) (dim : Fin 3),
      (Dim3.zipWith f c l.groupSize).get dim = f (c.get dim) (l.groupSize.get dim) :=
    fun f dim => Dim3.get_zipWith f c l.groupSize dim
  let w : WorkItem := ⟨Dim3.zipWith (· / ·) c l.groupSize, Dim3.zipWith (· % ·) c l.groupSize,
    l.groupSize⟩
  have hw : w ∈ l.workItems := by
    refine (mem_workItems_iff l w).mpr ⟨(Dim3.mem_positions_iff _ _).mpr fun dim => ?_,
      (Dim3.mem_positions_iff _ _).mpr fun dim => ?_, rfl⟩
    · obtain ⟨hpos, hitems⟩ := toNat_items_eq (h dim)
      have hlt : (c.get dim).toNat < (l.items.get dim).toNat := hc dim
      rw [hget, UInt64.lt_iff_toNat_lt, UInt64.toNat_div]
      refine Nat.div_lt_of_lt_mul ?_
      rw [Nat.mul_comm, hitems]
      exact hlt
    · rw [hget, UInt64.lt_iff_toNat_lt, UInt64.toNat_mod]
      exact Nat.mod_lt _ (toNat_items_eq (h dim)).1
  refine ⟨w, hw, fun dim => ?_⟩
  rw [← UInt64.toNat_inj, (toNat_globalId h hw dim).2, hget, hget, UInt64.toNat_div,
    UInt64.toNat_mod, Nat.mul_comm]
  exact Nat.div_add_mod _ _

/-! ## Coverage -/

theorem mem_map_position_iff {l : Launch} (h : ∀ dim, ¬ l.Misfit dim) (x y z : Nat) :
    (x, y, z) ∈ l.workItems.map WorkItem.position ↔
      x < l.items.x.toNat ∧ y < l.items.y.toNat ∧ z < l.items.z.toNat := by
  rw [List.mem_map]
  constructor
  · rintro ⟨w, hw, hposition⟩
    have hlt : ∀ dim : Fin 3, (w.globalId dim).toNat < (l.items.get dim).toNat := by
      intro dim
      rw [(toNat_globalId h hw dim).2]
      exact (toNat_globalId h hw dim).1
    rw [WorkItem.position, Prod.mk.injEq, Prod.mk.injEq] at hposition
    obtain ⟨rfl, rfl, rfl⟩ := hposition
    exact ⟨hlt 0, hlt 1, hlt 2⟩
  · rintro ⟨hx, hy, hz⟩
    have hword : ∀ {n : Nat} {bound : UInt64}, n < bound.toNat → (UInt64.ofNat n).toNat = n :=
      fun {n bound} hn => UInt64.toNat_ofNat_of_lt' (Nat.lt_trans hn bound.toNat_lt)
    obtain ⟨w, hw, hids⟩ := exists_item_at h ⟨UInt64.ofNat x, UInt64.ofNat y, UInt64.ofNat z⟩ <| by
      intro dim
      rw [UInt64.lt_iff_toNat_lt]
      match dim with
      | 0 => exact Nat.lt_of_le_of_lt (Nat.le_of_eq (hword hx)) hx
      | 1 => exact Nat.lt_of_le_of_lt (Nat.le_of_eq (hword hy)) hy
      | 2 => exact Nat.lt_of_le_of_lt (Nat.le_of_eq (hword hz)) hz
    refine ⟨w, hw, ?_⟩
    rw [WorkItem.position, Prod.mk.injEq, Prod.mk.injEq]
    exact ⟨(congrArg UInt64.toNat (hids 0)).trans (hword hx),
      (congrArg UInt64.toNat (hids 1)).trans (hword hy),
      (congrArg UInt64.toNat (hids 2)).trans (hword hz)⟩

theorem nodup_map_position {l : Launch} (h : ∀ dim, ¬ l.Misfit dim) :
    (l.workItems.map WorkItem.position).Nodup := by
  rw [List.nodup_iff_pairwise_ne, List.pairwise_map]
  refine List.Pairwise.imp_of_mem ?_ (List.nodup_iff_pairwise_ne.mp l.nodup_workItems)
  intro v w hv hw hne hposition
  rw [WorkItem.position, WorkItem.position, Prod.mk.injEq, Prod.mk.injEq] at hposition
  obtain ⟨hx, hy, hz⟩ := hposition
  refine hne (eq_of_globalId_eq h hv hw fun dim => ?_)
  match dim with
  | 0 => exact UInt64.toNat_inj.mp hx
  | 1 => exact UInt64.toNat_inj.mp hy
  | 2 => exact UInt64.toNat_inj.mp hz

theorem workItems_eq_nil {l : Launch} (h : ∀ dim, ¬ l.Misfit dim) {dim : Fin 3}
    (hzero : l.items.get dim = 0) : l.workItems = [] := by
  rw [List.eq_nil_iff_forall_not_mem]
  intro w hw
  have hlt := (toNat_globalId h hw dim).1
  rw [hzero] at hlt
  exact Nat.not_lt_zero _ hlt

/-- A list of items covers a launch. -/
structure Covers (l : Launch) (items : List WorkItem) : Prop where
  /-- Each position of the index space is that of one item, and no other is of any. -/
  once : ∀ x y z : Nat, (items.map WorkItem.position).count (x, y, z) =
    if x < l.items.x.toNat ∧ y < l.items.y.toNat ∧ z < l.items.z.toNat then 1 else 0
  /-- Items come in the order of group z, y, x and then of place z, y, x. -/
  ordered : items.Pairwise fun v w => v.rank < w.rank
  place : ∀ w ∈ items, ∀ dim : Fin 3, w.localId dim < l.groupSize.get dim
  group : ∀ w ∈ items, ∀ dim : Fin 3, w.groupId dim < l.groups.get dim
  /-- The product in a position does not wrap. -/
  product : ∀ w ∈ items, ∀ dim : Fin 3,
    (w.groupId dim).toNat * (l.groupSize.get dim).toNat < UInt64.size
  /-- The sum in a position does not wrap. -/
  sum : ∀ w ∈ items, ∀ dim : Fin 3,
    (w.groupId dim).toNat * (l.groupSize.get dim).toNat + (w.localId dim).toNat < UInt64.size
  global : ∀ w ∈ items, ∀ dim : Fin 3, (w.globalId dim).toNat =
    (w.groupId dim).toNat * (l.groupSize.get dim).toNat + (w.localId dim).toNat
  /-- There are no items when a dimension is empty. -/
  empty : (∃ dim, l.items.get dim = 0) → items = []

/-- The items of a usable launch cover it. -/
theorem covers_workItems {l : Launch} (h : l.validate = .ok ()) : l.Covers l.workItems := by
  have h := (validate_eq_ok_iff l).mp h
  have hglobal : ∀ w ∈ l.workItems, ∀ dim : Fin 3, (w.globalId dim).toNat =
      (w.groupId dim).toNat * (l.groupSize.get dim).toNat + (w.localId dim).toNat := by
    intro w hw dim
    rw [groupId_eq, localId_eq]
    exact (toNat_globalId h hw dim).2
  have hsum : ∀ w ∈ l.workItems, ∀ dim : Fin 3,
      (w.groupId dim).toNat * (l.groupSize.get dim).toNat + (w.localId dim).toNat <
        UInt64.size := by
    intro w hw dim
    rw [← hglobal w hw dim]
    exact (w.globalId dim).toNat_lt
  refine ⟨fun x y z => ?_, l.pairwise_workItems, fun w hw dim => ?_, fun w hw dim => ?_,
    fun w hw dim => Nat.lt_of_le_of_lt (Nat.le_add_right _ _) (hsum w hw dim), hsum, hglobal,
    fun ⟨_, hzero⟩ => workItems_eq_nil h hzero⟩
  · rw [(nodup_map_position h).count]
    simp only [mem_map_position_iff h]
  · rw [localId_eq]
    exact (Dim3.mem_positions_iff _ _).mp ((mem_workItems_iff l w).mp hw).2.1 dim
  · rw [groupId_eq]
    exact (Dim3.mem_positions_iff _ _).mp ((mem_workItems_iff l w).mp hw).1 dim

end Launch

end NetReplay
