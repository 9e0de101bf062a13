import NetReplay.Host.Binding
import NetReplay.Proofs.Host.Memory
import NetReplay.Proofs.Kernel.Views

/-!
# Bound arguments are the buffers themselves

The binding of a list of arguments lists each of their buffers once and leads
every argument back to its own buffer (`Binding.Of`, `exists_ofArgs`). A frame over
the listed buffers stands for the memory in which its slots are put back
(`Frame.StandsFor`). A kernel body cannot tell the two apart (`Frame.view_agree`):
an element written through one argument is at once that of every other argument
with the same buffer, exactly as if it were written in memory.
-/

namespace NetReplay

namespace Host

namespace Binding

/-- A binding for a list of arguments. -/
structure Of (args : List BufferHandle) (b : Binding) : Prop where
  nodup : b.bound.Nodup
  mem_iff : ∀ h, h ∈ b.bound ↔ h ∈ args
  /-- Every argument is led back to its own buffer. -/
  positions : b.positions.map (b.bound[·]?) = args.map some

theorem of_empty : Of [] empty := ⟨List.nodup_nil, fun _ => Iff.rfl, rfl⟩

theorem of_add {args : List BufferHandle} {b : Binding} (hb : Of args b) (h : BufferHandle) :
    Of (args ++ [h]) (b.add h) := by
  rw [add]
  cases hidx : b.bound.idxOf? h with
  | some slot =>
      obtain ⟨hlt, heq, -⟩ := List.findIdx?_eq_some_iff_getElem.mp hidx
      have hslot : b.bound[slot]? = some h := by
        rw [List.getElem?_eq_getElem hlt, eq_of_beq heq]
      have hmem : h ∈ args := (hb.mem_iff h).mp (List.mem_of_getElem? hslot)
      refine ⟨hb.nodup, fun k => ?_, ?_⟩
      · rw [hb.mem_iff k, List.mem_append, List.mem_singleton]
        refine ⟨Or.inl, fun hk => hk.elim id ?_⟩
        rintro rfl
        exact hmem
      · simp only [List.map_append, hb.positions, List.map_cons, List.map_nil, hslot]
  | none =>
      have hnot : h ∉ b.bound := List.idxOf?_eq_none_iff.mp hidx
      refine ⟨?_, fun k => ?_, ?_⟩
      · refine List.nodup_append.mpr ⟨hb.nodup, List.nodup_cons.mpr ⟨List.not_mem_nil, List.nodup_nil⟩, ?_⟩
        intro j hj k hk hjk
        rw [List.mem_singleton] at hk
        exact hnot (hk ▸ hjk ▸ hj)
      · rw [List.mem_append, List.mem_append, hb.mem_iff k]
      · -- The old positions still lead to the old buffers, which stay in front.
        have hold : b.positions.map ((b.bound ++ [h])[·]?) = b.positions.map (b.bound[·]?) := by
          refine List.map_congr_left fun p hp => ?_
          have hsome : b.bound[p]? ∈ b.positions.map (b.bound[·]?) := List.mem_map_of_mem hp
          rw [hb.positions, List.mem_map] at hsome
          obtain ⟨k, -, hk⟩ := hsome
          exact List.getElem?_append_left (List.getElem?_eq_some_iff.mp hk.symm).1
        simp only [List.map_append, hold, hb.positions, List.map_cons, List.map_nil,
          List.getElem?_concat_length]

theorem addAll_eq_ok {m : Memory} {args : List BufferHandle} (hmem : ∀ h ∈ args, m.contains h)
    (kernel : String) (index : Nat) (b : Binding) :
    addAll m kernel index b args = .ok (args.foldl add b) := by
  induction args generalizing index b with
  | nil => rfl
  | cons h args ih =>
      rw [addAll, if_pos (hmem h (List.mem_cons_self ..)), List.foldl_cons]
      exact ih (fun k hk => hmem k (List.mem_cons_of_mem h hk)) _ _

/-- Binding fails for the first argument without a buffer, and for no other reason. -/
theorem addAll_cases (m : Memory) (kernel : String) (index : Nat) (b : Binding)
    (args : List BufferHandle) :
    (∀ h ∈ args, m.contains h) ∨
      ∃ k h, args[k]? = some h ∧ m.contains h = false ∧
        (∀ j < k, ∀ g, args[j]? = some g → m.contains g) ∧
        addAll m kernel index b args = .error (.argBindingFailed kernel (index + k)
          (DeviceError.invalidBufferHandle h.id).message) := by
  induction args generalizing index b with
  | nil => exact Or.inl (by simp)
  | cons h args ih =>
      rw [addAll]
      cases hmem : m.contains h with
      | false => exact Or.inr ⟨0, h, rfl, hmem, by simp, rfl⟩
      | true =>
          rcases ih (index + 1) (b.add h) with hall | ⟨k, g, hg, hnone, hfront, herror⟩
          · exact Or.inl (List.forall_mem_cons.mpr ⟨hmem, hall⟩)
          · refine Or.inr ⟨k + 1, g, hg, hnone, fun j hj i hi => ?_, ?_⟩
            · cases j with
              | zero =>
                  cases hi
                  exact hmem
              | succ j => exact hfront j (Nat.lt_of_succ_lt_succ hj) i hi
            · rw [if_pos rfl, herror, Nat.add_right_comm, Nat.add_assoc]

/-- What adding one argument preserves is preserved by adding several. -/
theorem foldl_add_preserves (invariant : List BufferHandle → Binding → Prop)
    (hadd : ∀ before b h, invariant before b → invariant (before ++ [h]) (b.add h))
    {before : List BufferHandle} {b : Binding} (hb : invariant before b)
    (args : List BufferHandle) : invariant (before ++ args) (args.foldl add b) := by
  induction args generalizing before b with
  | nil => rwa [List.append_nil]
  | cons h args ih =>
      rw [List.foldl_cons, ← List.singleton_append, ← List.append_assoc]
      exact ih (hadd before b h hb)

theorem of_foldl (args : List BufferHandle) : Of args (args.foldl add empty) :=
  foldl_add_preserves Of (fun _ _ h hb => of_add hb h) of_empty args

/-- Arguments that all have a buffer are bound. -/
theorem exists_ofArgs {m : Memory} {args : List BufferHandle} (hmem : ∀ h ∈ args, m.contains h)
    (kernel : String) : ∃ b, ofArgs m kernel args = .ok b ∧ Of args b :=
  ⟨_, addAll_eq_ok hmem kernel 0 empty, of_foldl args⟩

theorem Of.length_positions {args : List BufferHandle} {b : Binding} (hb : Of args b) :
    b.positions.length = args.length := by
  rw [← List.length_map (b.bound[·]?), hb.positions, List.length_map]

/-- The position of an argument is that of its buffer. -/
theorem Of.position_cases {args : List BufferHandle} {b : Binding} (hb : Of args b) (arg : Nat) :
    (b.positions[arg]? = none ∧ args[arg]? = none) ∨
      ∃ p h, b.positions[arg]? = some p ∧ args[arg]? = some h ∧ b.bound[p]? = some h := by
  have hbound : b.positions[arg]?.map (b.bound[·]?) = args[arg]?.map some := by
    rw [← List.getElem?_map, ← List.getElem?_map, hb.positions]
  cases hp : b.positions[arg]? with
  | none =>
      rw [hp, Option.map_none, eq_comm, Option.map_eq_none_iff] at hbound
      exact Or.inl ⟨rfl, hbound⟩
  | some p =>
      rw [hp, Option.map_some, eq_comm, Option.map_eq_some_iff] at hbound
      obtain ⟨h, harg, hp⟩ := hbound
      exact Or.inr ⟨p, h, rfl, harg, hp.symm⟩

end Binding

namespace Frame

/-- The memory that a frame stands for: that in which its slots are put back. -/
structure StandsFor (binding : Binding) (taken : Memory) (f : Frame) (m : Memory) : Prop where
  positions : f.positions = binding.positions
  length : f.slots.length = binding.bound.length
  restored : taken.restoreAll (binding.bound.zip f.slots) = m

/-- A body runs on the slots of a dispatch as it does on memory itself. -/
theorem view_agree {args : List BufferHandle} {binding : Binding} (hb : binding.Of args)
    {taken : Memory} (hmem : ∀ h ∈ args, taken.contains h) :
    view.Agree (Memory.view args) (StandsFor binding taken) where
  count f m hf := by
    show f.positions.length = args.length
    rw [hf.positions, hb.length_positions]
  contents? f m hf arg := by
    show f.positions[arg]?.bind (f.slots[·]?) = (args[arg]?.bind m.get?).map Buffer.contents
    rw [hf.positions]
    rcases hb.position_cases arg with ⟨hp, harg⟩ | ⟨p, h, hp, harg, hbound⟩
    · rw [hp, harg]
      rfl
    · rw [hp, harg]
      obtain ⟨b, hget⟩ := Memory.exists_of_contains (hmem h (List.mem_of_getElem? harg))
      have hrestored := Memory.get?_restoreAll_zip hb.nodup hf.length hbound taken
      rw [hf.restored, hget] at hrestored
      exact hrestored.symm
  write f m hf arg index x := by
    show StandsFor binding taken (f.write arg index x) ((Memory.view args).write m arg index x)
    rw [write, Memory.view, hf.positions]
    dsimp only
    rcases hb.position_cases arg with ⟨hp, harg⟩ | ⟨p, h, hp, harg, hbound⟩
    · rw [hp, harg]
      exact hf
    · rw [hp, harg]
      refine ⟨rfl, (List.length_modify ..).trans hf.length, ?_⟩
      rw [← hf.restored]
      exact Memory.restoreAll_zip_modify hb.nodup hf.length hbound taken _

end Frame

end Host

end NetReplay
