import NetReplay.Program.Descriptor
import NetReplay.Proofs.Launch.Coverage

/-!
# Launches made of groups

A statement counts groups, and its launch has as many items as the groups have
together (`Launch.itemsAsked`), as long as a word counts them. Then the launch is
usable when no group is empty, and its groups are those of the statement
(`Statement.launch_decides`).

A product that no word counts becomes the largest word. Such a launch is refused
when the size of a group does not divide that word; otherwise it is usable and has
fewer groups than were asked for (`validate_ofGroups_decides`).

The check of a launch names the lowest dimension with a misfit
(`validate_eq_error_iff`), and both results are read off from where the misfits of
such a launch are (`misfit_ofGroups_iff`).
-/

namespace NetReplay

/-! ## Limited products -/

/-- In a limited product it does not show whether a factor was limited before. -/
theorem Word.min_mul_min (limit m n : Nat) : min (m * min n limit) limit = min (m * n) limit := by
  rcases Nat.le_total n limit with hn | hn
  · rw [Nat.min_eq_left hn]
  · rw [Nat.min_eq_right hn]
    rcases Nat.eq_zero_or_pos m with rfl | hpos
    · rw [Nat.zero_mul, Nat.zero_mul]
    · have hlimit : limit ≤ m * limit := Nat.le_mul_of_pos_left limit hpos
      have hproduct : limit ≤ m * n := Nat.le_trans hlimit (Nat.mul_le_mul_left m hn)
      rw [Nat.min_eq_right hlimit, Nat.min_eq_right hproduct]

namespace Dim3

/-- The number of positions of an index space, counted without a limit. -/
def volume (d : Dim3) : Nat := d.x.toNat * d.y.toNat * d.z.toNat

theorem toNat_total (d : Dim3) : d.total.toNat = min d.volume (UInt64.size - 1) := by
  rw [total, Word.toNat_saturatingMul, Word.toNat_saturatingMul, Nat.mul_comm, Word.min_mul_min,
    Nat.mul_comm, volume]

/-- A size is given by at most three dimensions, and a missing one counts as 1. -/
theorem exists_ofDims?_eq_some {dims : List UInt64} (h : dims.length ≤ 3) :
    ∃ d, ofDims? dims = some d ∧ ∀ dim : Fin 3, d.get dim = dims.getD dim 1 := by
  match dims with
  | [] | [_] | [_, _] | [_, _, _] =>
      refine ⟨_, rfl, fun dim => ?_⟩
      match dim with
      | 0 | 1 | 2 => rfl
  | _ :: _ :: _ :: _ :: _ =>
      simp only [List.length_cons] at h
      omega

end Dim3

namespace Launch

/-! ## The lowest misfit -/

theorem find?_misfit_eq_some_iff (l : Launch) (dim : Fin 3) :
    (List.finRange 3).find? l.Misfit = some dim ↔
      l.Misfit dim ∧ ∀ lower < dim, ¬ l.Misfit lower := by
  rw [List.find?_eq_some_iff_getElem]
  simp only [List.getElem_finRange, List.length_finRange, decide_eq_true_eq, Bool.not_eq_true',
    decide_eq_false_iff_not]
  refine and_congr_right fun _ => ?_
  constructor
  · rintro ⟨i, hi, rfl, hlower⟩ lower hlt
    exact hlower lower hlt
  · intro hlower
    exact ⟨dim, dim.isLt, rfl, fun j hj => hlower ⟨j, Nat.lt_trans hj dim.isLt⟩ hj⟩

/-- A launch is refused for the lowest dimension with a misfit. -/
theorem validate_eq_error_iff (l : Launch) (cause : DeviceError) :
    l.validate = .error cause ↔ ∃ dim, l.Misfit dim ∧ (∀ lower < dim, ¬ l.Misfit lower) ∧
      cause = .invalidWorkSize dim (l.items.get dim) (l.groupSize.get dim) := by
  rw [validate]
  cases hfind : (List.finRange 3).find? l.Misfit with
  | none =>
      simp only [reduceCtorEq, false_iff, not_exists]
      rintro dim ⟨hmisfit, hlowest, -⟩
      rw [(find?_misfit_eq_some_iff l dim).mpr ⟨hmisfit, hlowest⟩] at hfind
      cases hfind
  | some first =>
      obtain ⟨hmisfit, hlowest⟩ := (find?_misfit_eq_some_iff l first).mp hfind
      simp only [Except.error.injEq]
      constructor
      · rintro rfl
        exact ⟨first, hmisfit, hlowest, rfl⟩
      · rintro ⟨dim, hdim, hlower, rfl⟩
        rw [(find?_misfit_eq_some_iff l dim).mpr ⟨hdim, hlower⟩] at hfind
        cases hfind
        rfl

/-! ## Totals -/

/-- A usable launch has as many items as its groups have together. -/
theorem volume_items {l : Launch} (h : l.validate = .ok ()) :
    l.items.volume = l.groups.volume * l.groupSize.volume := by
  have hitems : ∀ dim, (l.items.get dim).toNat =
      (l.groups.get dim).toNat * (l.groupSize.get dim).toNat :=
    fun dim => (toNat_items_eq ((validate_eq_ok_iff l).mp h dim)).2.symm
  have hx : l.items.x.toNat = l.groups.x.toNat * l.groupSize.x.toNat := hitems 0
  have hy : l.items.y.toNat = l.groups.y.toNat * l.groupSize.y.toNat := hitems 1
  have hz : l.items.z.toNat = l.groups.z.toNat * l.groupSize.z.toNat := hitems 2
  rw [Dim3.volume, Dim3.volume, Dim3.volume, hx, hy, hz]
  ac_rfl

/-- So the limited totals multiply, too. -/
theorem totalItems_eq {l : Launch} (h : l.validate = .ok ()) :
    l.totalItems = Word.saturatingMul l.groups.total l.groupSize.total := by
  rw [← UInt64.toNat_inj, totalItems, Dim3.toNat_total, volume_items h, Word.toNat_saturatingMul,
    Dim3.toNat_total, Dim3.toNat_total, Word.min_mul_min, Nat.mul_comm (min _ _), Word.min_mul_min,
    Nat.mul_comm]

/-! ## Groups and their items -/

/-- The items that groups of a given size have together in one dimension, counted
without a limit. -/
def itemsAsked (groups groupSize : Dim3) (dim : Fin 3) : Nat :=
  (groups.get dim).toNat * (groupSize.get dim).toNat

section

variable {groups groupSize : Dim3} {dim : Fin 3}

theorem toNat_items_ofGroups (groups groupSize : Dim3) (dim : Fin 3) :
    ((ofGroups groups groupSize).items.get dim).toNat =
      min (itemsAsked groups groupSize dim) (UInt64.size - 1) := by
  rw [ofGroups, Dim3.get_zipWith, Word.toNat_saturatingMul, itemsAsked]

theorem toNat_items_ofGroups_of_lt (h : itemsAsked groups groupSize dim < UInt64.size) :
    ((ofGroups groups groupSize).items.get dim).toNat = itemsAsked groups groupSize dim := by
  rw [toNat_items_ofGroups, Nat.min_eq_left (Nat.le_sub_one_of_lt h)]

theorem toNat_items_ofGroups_of_le (h : UInt64.size ≤ itemsAsked groups groupSize dim) :
    ((ofGroups groups groupSize).items.get dim).toNat = UInt64.size - 1 := by
  rw [toNat_items_ofGroups, Nat.min_eq_right (Nat.le_trans (Nat.sub_le _ _) h)]

/-- Groups fit unless they are empty, or their items are too many to be counted and the
largest word is no multiple of their size. -/
theorem misfit_ofGroups_iff (groups groupSize : Dim3) (dim : Fin 3) :
    (ofGroups groups groupSize).Misfit dim ↔ groupSize.get dim = 0 ∨
      UInt64.size ≤ itemsAsked groups groupSize dim ∧
        ¬ (groupSize.get dim).toNat ∣ UInt64.size - 1 := by
  have hmod : (ofGroups groups groupSize).items.get dim % groupSize.get dim ≠ 0 ↔
      ¬ (groupSize.get dim).toNat ∣ ((ofGroups groups groupSize).items.get dim).toNat := by
    rw [Nat.dvd_iff_mod_eq_zero, ← UInt64.toNat_mod, ne_eq, ← UInt64.toNat_inj, UInt64.toNat_zero]
  show groupSize.get dim = 0 ∨ (ofGroups groups groupSize).items.get dim % groupSize.get dim ≠ 0 ↔ _
  rw [hmod]
  refine or_congr_right ?_
  rcases Nat.lt_or_ge (itemsAsked groups groupSize dim) UInt64.size with hfits | hlarge
  · rw [toNat_items_ofGroups_of_lt hfits]
    exact ⟨fun h => absurd (Nat.dvd_mul_left _ _) h, fun h => absurd hfits (Nat.not_lt.mpr h.1)⟩
  · rw [toNat_items_ofGroups_of_le hlarge]
    exact ⟨fun h => ⟨hlarge, h⟩, And.right⟩

/-- Groups whose items can be counted are those of their launch. -/
theorem get_groups_ofGroups (hmisfit : ¬ (ofGroups groups groupSize).Misfit dim)
    (h : itemsAsked groups groupSize dim < UInt64.size) :
    (ofGroups groups groupSize).groups.get dim = groups.get dim := by
  obtain ⟨hpos, hitems⟩ := toNat_items_eq hmisfit
  rw [toNat_items_ofGroups_of_lt h] at hitems
  exact UInt64.toNat_inj.mp (Nat.eq_of_mul_eq_mul_right hpos hitems)

/-- Of groups whose items cannot be counted, the launch has fewer. -/
theorem get_groups_ofGroups_lt (hmisfit : ¬ (ofGroups groups groupSize).Misfit dim)
    (h : UInt64.size ≤ itemsAsked groups groupSize dim) :
    (ofGroups groups groupSize).groups.get dim < groups.get dim := by
  obtain ⟨-, hitems⟩ := toNat_items_eq hmisfit
  rw [toNat_items_ofGroups_of_le h] at hitems
  have hless : ((ofGroups groups groupSize).groups.get dim).toNat * (groupSize.get dim).toNat <
      (groups.get dim).toNat * (groupSize.get dim).toNat :=
    Nat.lt_of_le_of_lt (Nat.le_of_eq hitems) (Nat.lt_of_lt_of_le (by decide) h)
  exact Nat.lt_of_mul_lt_mul_right hless

end

/-- A launch made of groups is usable when no group is empty and, where the items are too
many to be counted, the size of a group divides the largest word. Where they can be
counted, the groups and the items of a usable launch are those that were asked for. Where
not, the launch is as large as can be counted, and the groups are fewer. -/
theorem validate_ofGroups_decides (groups groupSize : Dim3) :
    ((ofGroups groups groupSize).validate = .ok () ↔
        ∀ dim, groupSize.get dim ≠ 0 ∧ (itemsAsked groups groupSize dim < UInt64.size ∨
          (groupSize.get dim).toNat ∣ UInt64.size - 1)) ∧
      ((ofGroups groups groupSize).validate = .ok () → ∀ dim,
        (itemsAsked groups groupSize dim < UInt64.size →
          (ofGroups groups groupSize).groups.get dim = groups.get dim ∧
            ((ofGroups groups groupSize).items.get dim).toNat = itemsAsked groups groupSize dim) ∧
        (UInt64.size ≤ itemsAsked groups groupSize dim →
          (ofGroups groups groupSize).groups.get dim < groups.get dim ∧
            ((ofGroups groups groupSize).items.get dim).toNat = UInt64.size - 1)) := by
  refine ⟨?_, fun hvalid dim => ?_⟩
  · rw [validate_eq_ok_iff]
    refine forall_congr' fun dim => ?_
    rw [misfit_ofGroups_iff, not_or, Decidable.not_and_iff_not_or_not, Nat.not_le,
      Decidable.not_not]
  · have hmisfit := (validate_eq_ok_iff _).mp hvalid dim
    exact ⟨fun h => ⟨get_groups_ofGroups hmisfit h, toNat_items_ofGroups_of_lt h⟩,
      fun h => ⟨get_groups_ofGroups_lt hmisfit h, toNat_items_ofGroups_of_le h⟩⟩

/-- Of 2^63 groups of three items, a third is lost: the launch is usable, and its items
are fewer than were asked for. -/
theorem exists_shortened_launch :
    (ofGroups ⟨9223372036854775808, 1, 1⟩ ⟨3, 1, 1⟩).validate = .ok () ∧
      (ofGroups ⟨9223372036854775808, 1, 1⟩ ⟨3, 1, 1⟩).groups = ⟨6148914691236517205, 1, 1⟩ ∧
      UInt64.size ≤ itemsAsked ⟨9223372036854775808, 1, 1⟩ ⟨3, 1, 1⟩ 0 ∧
      ((ofGroups ⟨9223372036854775808, 1, 1⟩ ⟨3, 1, 1⟩).items.get 0).toNat <
        itemsAsked ⟨9223372036854775808, 1, 1⟩ ⟨3, 1, 1⟩ 0 :=
  ⟨(validate_eq_ok_iff _).mpr (by decide), by decide, by decide, by decide⟩

end Launch

/-! ## Statements -/

namespace Program

namespace Statement

/-- A statement of at most three dimensions, whose items can be counted, has a launch of
just these items. It is usable when no group is empty, and is otherwise refused for the
lowest empty dimension. When it is usable its groups are those of the statement, and its
total is the product of all items, or of the two totals, up to the largest word. A
statement of more dimensions is refused with the number of them. -/
theorem launch_decides (index : Nat) (s : Statement) :
    (s.globalSize.length ≤ 3 → s.localSize.length ≤ 3 →
      (∀ dim : Fin 3, (s.globalSize.getD dim 1).toNat * (s.localSize.getD dim 1).toNat <
        UInt64.size) →
      ∃ l, s.launch index = .ok l ∧
        (∀ dim : Fin 3, (l.items.get dim).toNat =
            (s.globalSize.getD dim 1).toNat * (s.localSize.getD dim 1).toNat ∧
          l.groupSize.get dim = s.localSize.getD dim 1) ∧
        (l.validate = .ok () ↔ ∀ dim : Fin 3, s.localSize.getD dim 1 ≠ 0) ∧
        (∀ dim : Fin 3, s.localSize.getD dim 1 = 0 →
          (∀ lower < dim, s.localSize.getD lower 1 ≠ 0) →
          l.validate = .error (.invalidWorkSize dim 0 0)) ∧
        (l.validate = .ok () →
          (∀ dim : Fin 3, l.groups.get dim = s.globalSize.getD dim 1) ∧
          l.totalItems.toNat =
            min (l.items.x.toNat * l.items.y.toNat * l.items.z.toNat) (UInt64.size - 1) ∧
          l.totalItems = Word.saturatingMul l.groups.total l.groupSize.total)) ∧
    (3 < s.globalSize.length ∨ 3 < s.localSize.length →
      s.launch index = .error (.invalidWorkDimensions index
        (max s.globalSize.length s.localSize.length))) := by
  refine ⟨fun hglobal hlocal hcounted => ?_, fun hmany => ?_⟩
  · obtain ⟨groups, hgroups, hgroupsGet⟩ := Dim3.exists_ofDims?_eq_some hglobal
    obtain ⟨groupSize, hsize, hsizeGet⟩ := Dim3.exists_ofDims?_eq_some hlocal
    simp only [← hgroupsGet, ← hsizeGet] at hcounted ⊢
    have hmisfit : ∀ dim, (Launch.ofGroups groups groupSize).Misfit dim ↔
        groupSize.get dim = 0 := by
      intro dim
      rw [Launch.misfit_ofGroups_iff, or_iff_left]
      exact fun h => absurd (hcounted dim) (Nat.not_lt.mpr h.1)
    have hitems : ∀ dim, ((Launch.ofGroups groups groupSize).items.get dim).toNat =
        (groups.get dim).toNat * (groupSize.get dim).toNat :=
      fun dim => Launch.toNat_items_ofGroups_of_lt (hcounted dim)
    have hlaunch : s.launch index = .ok (Launch.ofGroups groups groupSize) := by
      rw [launch, workSizes, hgroups, hsize]
      rfl
    refine ⟨_, hlaunch, fun dim => ⟨hitems dim, rfl⟩, ?_, fun dim hzero hlower => ?_,
      fun hvalid => ⟨fun dim => ?_, Dim3.toNat_total _, Launch.totalItems_eq hvalid⟩⟩
    · rw [Launch.validate_eq_ok_iff]
      exact forall_congr' fun dim => not_congr (hmisfit dim)
    · have hempty : (Launch.ofGroups groups groupSize).items.get dim = 0 := by
        rw [← UInt64.toNat_inj, hitems, hzero]
        exact Nat.mul_zero _
      refine (Launch.validate_eq_error_iff _ _).mpr
        ⟨dim, (hmisfit dim).mpr hzero, fun lower hlt h => hlower lower hlt ((hmisfit lower).mp h), ?_⟩
      rw [hempty, show (Launch.ofGroups groups groupSize).groupSize = groupSize from rfl, hzero]
    · exact Launch.get_groups_ofGroups ((Launch.validate_eq_ok_iff _).mp hvalid dim) (hcounted dim)
  · rw [launch, workSizes]
    rcases hmany with hglobal | hlocal
    · rw [(Dim3.ofDims?_eq_none_iff _).mpr hglobal]
      rfl
    · rw [(Dim3.ofDims?_eq_none_iff _).mpr hlocal]
      cases Dim3.ofDims? s.globalSize <;> rfl

end Statement

end Program

end NetReplay
