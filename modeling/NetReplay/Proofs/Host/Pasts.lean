import Mathlib.Data.List.Induction
import NetReplay.Proofs.Host.Refusal

/-!
# The past of a clone

Behind a clone are the calls made of it and, before it was made, of the clone that it
is a copy of (`Family.pastsAfter`). What a clone has for itself depends on nothing
else: it is found by going through these calls alone (`Local.replay`), whatever its
relatives have done in the meantime (`Family.clones_after`).
-/

namespace NetReplay

namespace Host

/-! ## Replaying calls -/

namespace Local

/-- What a clone has for itself at first. -/
def start : Local := ⟨false, .empty, []⟩

/-- The kernel that compiling gives. -/
def compiled? (own : Local) (name source : String) : Option CompiledKernel :=
  if own.initialized && occursIn name.toList source.toList then
    (own.registry.get? name).map (CompiledKernel.mk name)
  else none

/-- What a call changes about a clone, memory aside. -/
def apply (own : Local) : Call → Local
  | .setup => { own with initialized := true }
  | .register name body => { own with registry := own.registry.insert name body }
  | .createKernel name source =>
    { own with kernels := own.kernels ++ (own.compiled? name source).toList }
  | .createBuffer .. | .writeBuffer .. | .readBuffer .. | .bufferSize _ | .runKernel .. => own

/-- What a clone has for itself after some calls. -/
def replay (past : List Call) : Local := past.foldl apply start

theorem replay_concat (past : List Call) (c : Call) :
    replay (past ++ [c]) = (replay past).apply c := by
  rw [replay, List.foldl_append]
  rfl

end Local

open DeviceM

/-- Compiling answers the next handle, or fails and changes nothing. -/
theorem createKernel_cases (host : Host) (name source : String) :
    (∃ kernel, host.compiled? name source = some kernel ∧
        (createKernel name source).runFrom host =
          (.ok ⟨host.kernelCount + 1⟩, host.withKernel kernel)) ∨
      host.compiled? name source = none ∧
        ∃ e, (createKernel name source).runFrom host = (.error e, host) := by
  rw [Local.compiled?]
  cases hinit : host.initialized with
  | false => exact Or.inr ⟨rfl, _, by rw [createKernel, runFrom_ensureInitialized_bind hinit]⟩
  | true =>
      rw [runFrom_createKernel hinit, Bool.true_and]
      cases host.registry.get? name with
      | none =>
          refine Or.inr ⟨?_, _, rfl⟩
          rw [Option.map_none, ite_self]
      | some body =>
          dsimp only
          by_cases hoccurs : occursIn name.toList source.toList = true
          · rw [if_pos hoccurs, if_pos hoccurs]
            exact Or.inl ⟨_, rfl, rfl⟩
          · rw [if_neg hoccurs, if_neg hoccurs]
            exact Or.inr ⟨rfl, _, rfl⟩

theorem toLocal_createKernel (host : Host) (name source : String) :
    ((createKernel name source).runFrom host).2.toLocal =
      host.toLocal.apply (.createKernel name source) := by
  rw [Local.apply]
  rcases createKernel_cases host name source with ⟨kernel, hkernel, hrun⟩ | ⟨hnone, e, hrun⟩
  · rw [hrun, hkernel]
    rfl
  · rw [hrun, hnone, Option.toList_none, List.append_nil]

/-- What a call changes about a clone does not depend on memory. -/
theorem toLocal_perform (c : Call) (host : Host) :
    (c.perform.runFrom host).2.toLocal = host.toLocal.apply c := by
  cases c with
  | setup =>
      rw [Call.perform, runFrom_bind_pure_snd, runFrom_setup, Local.apply]
      cases hinit : host.initialized with
      | false => rfl
      | true =>
          rw [if_pos rfl, ← hinit]
  | register name body => rfl
  | createKernel name source =>
      rw [Call.perform, runFrom_bind_pure_snd, toLocal_createKernel]
  | createBuffer byteSize writable =>
      rw [Call.perform, runFrom_bind_pure_snd, toLocal_createBuffer, Local.apply]
  | writeBuffer h data =>
      rw [Call.perform, runFrom_bind_pure_snd, toLocal_writeBuffer, Local.apply]
  | readBuffer h count =>
      rw [Call.perform, runFrom_bind_pure_snd, toLocal_readBuffer, Local.apply]
  | bufferSize h => rw [Call.perform, runFrom_bind_pure_snd, toLocal_bufferSize, Local.apply]
  | runKernel h launch args =>
      rw [Call.perform, runFrom_bind_pure_snd, toLocal_runKernel, Local.apply]

/-! ## Pasts in a family -/

namespace Family

theorem after_concat (f : Family) (ops : List Operation) (op : Operation) :
    f.after (ops ++ [op]) = (f.after ops).step op :=
  List.foldl_append

/-- The calls behind the clones after an operation: a call is added to the past of
its clone, and a further clone has the past of the one it is made from. -/
def pastsStep (pasts : List (List Call)) : Operation → List (List Call)
  | .call i c =>
    match pasts[i]? with
    | some past => pasts.set i (past ++ [c])
    | none => pasts
  | .clone i => pasts ++ pasts[i]?.toList

/-- The calls behind the clones that operations leave behind, starting from one
host. -/
def pastsAfter (ops : List Operation) : List (List Call) := ops.foldl pastsStep [[]]

theorem pastsAfter_append (ops later : List Operation) :
    pastsAfter (ops ++ later) = later.foldl pastsStep (pastsAfter ops) :=
  List.foldl_append

theorem clones_step {f : Family} {pasts : List (List Call)}
    (h : f.clones = pasts.map Local.replay) (op : Operation) :
    (f.step op).clones = (pastsStep pasts op).map Local.replay := by
  cases op with
  | call i c =>
      rw [step, host?, h, List.getElem?_map, pastsStep]
      cases pasts[i]? with
      | none => exact h
      | some past =>
          dsimp only [Option.map_some, update]
          rw [h, toLocal_perform, List.map_set, Local.replay_concat]
  | clone i =>
      rw [step, clone, h, List.getElem?_map, pastsStep]
      cases pasts[i]? with
      | none =>
          dsimp only [Option.map_none]
          rw [Option.toList_none, List.append_nil, h]
      | some past =>
          dsimp only [Option.map_some, Option.toList_some]
          rw [List.map_append]
          rfl

/-- What each clone has for itself is what its own past gives. -/
theorem clones_after (available : Nat) (ops : List Operation) :
    ((ofHost (new available)).after ops).clones = (pastsAfter ops).map Local.replay := by
  suffices hall : ∀ (f : Family) (pasts : List (List Call)), f.clones = pasts.map Local.replay →
      (f.after ops).clones = (ops.foldl pastsStep pasts).map Local.replay from hall _ _ rfl
  induction ops with
  | nil => exact fun f pasts h => h
  | cons op ops ih => exact fun f pasts h => ih _ _ (clones_step h op)

/-- A past only grows. -/
theorem exists_pastsStep {pasts : List (List Call)} {i : Nat} {past : List Call}
    (h : pasts[i]? = some past) (op : Operation) :
    ∃ more, (pastsStep pasts op)[i]? = some (past ++ more) := by
  obtain ⟨hlt, -⟩ := List.getElem?_eq_some_iff.mp h
  cases op with
  | call j c =>
      rw [pastsStep]
      by_cases hij : j = i
      · rw [hij, h]
        exact ⟨[c], List.getElem?_set_self hlt⟩
      · refine ⟨[], ?_⟩
        rw [List.append_nil]
        cases pasts[j]? with
        | none => exact h
        | some other => exact (List.getElem?_set_ne hij).trans h
  | clone j =>
      refine ⟨[], ?_⟩
      rw [pastsStep, List.getElem?_append_left hlt, List.append_nil, h]

theorem exists_pastsAfter {ops : List Operation} {i : Nat} {past : List Call}
    (h : (pastsAfter ops)[i]? = some past) (later : List Operation) :
    ∃ more, (pastsAfter (ops ++ later))[i]? = some (past ++ more) := by
  induction later using List.reverseRecOn with
  | nil => exact ⟨[], by rwa [List.append_nil, List.append_nil]⟩
  | append_singleton later op ih =>
      obtain ⟨more, hmore⟩ := ih
      obtain ⟨next, hnext⟩ := exists_pastsStep hmore op
      refine ⟨more ++ next, ?_⟩
      rw [← List.append_assoc, ← List.append_assoc, ← hnext, pastsAfter_append]
      rfl

/-- Every call of a past was made at some time, of a clone that had the calls before it
behind it. -/
theorem exists_of_prefix_pastsAfter {ops : List Operation} {i : Nat} {past before : List Call}
    {c : Call} (h : (pastsAfter ops)[i]? = some past) (hpast : before ++ [c] <+: past) :
    ∃ front back j, ops = front ++ .call j c :: back ∧ (pastsAfter front)[j]? = some before := by
  induction ops using List.reverseRecOn generalizing i past with
  | nil =>
      have hnil : past = [] := List.mem_singleton.mp (List.mem_of_getElem? h)
      rw [hnil, List.prefix_nil] at hpast
      exact absurd hpast (List.append_ne_nil_of_right_ne_nil _ (List.cons_ne_nil _ _))
  | append_singleton ops op ih =>
      have hold : ∀ {k : Nat} {own : List Call}, (pastsAfter ops)[k]? = some own →
          before ++ [c] <+: own → ∃ front back j, ops ++ [op] = front ++ .call j c :: back ∧
            (pastsAfter front)[j]? = some before := fun hown hprefix => by
        obtain ⟨front, back, j, rfl, hj⟩ := ih hown hprefix
        exact ⟨front, back ++ [op], j, by rw [List.append_assoc, List.cons_append], hj⟩
      rw [pastsAfter_append] at h
      change (pastsStep (pastsAfter ops) op)[i]? = some past at h
      cases op with
      | call j d =>
          rw [pastsStep] at h
          cases hj : (pastsAfter ops)[j]? with
          | none =>
              rw [hj] at h
              exact hold h hpast
          | some own =>
              rw [hj, List.getElem?_set] at h
              split at h
              · -- The call belongs to this clone: it is the last of its past, or an earlier one is
                -- meant.
                obtain ⟨-, hnext⟩ := Option.ite_none_right_eq_some.mp h
                obtain rfl := Option.some.inj hnext
                rcases List.prefix_concat_iff.mp hpast with heq | hprefix
                · obtain ⟨rfl, hcd⟩ := List.append_inj' heq rfl
                  obtain rfl := List.singleton_inj.mp hcd
                  exact ⟨ops, [], j, rfl, hj⟩
                · exact hold hj hprefix
              · exact hold h hpast
      | clone j =>
          rw [pastsStep, List.getElem?_append] at h
          split at h
          · exact hold h hpast
          · exact hold (Option.mem_toList.mp (List.mem_of_getElem? h)) hpast

/-- After operations on a new host, the clone of a number is the given host, and the
given calls are behind it. -/
structure HasPast (available : Nat) (ops : List Operation) (i : Nat) (past : List Call)
    (host : Host) : Prop where
  found : ((ofHost (new available)).after ops).host? i = some host
  calls : (pastsAfter ops)[i]? = some past

variable {available : Nat} {ops : List Operation} {i : Nat} {past : List Call} {host : Host}

theorem HasPast.toLocal (h : HasPast available ops i past host) :
    host.toLocal = Local.replay past := by
  obtain ⟨own, hown, rfl⟩ := Option.map_eq_some_iff.mp h.found
  rw [clones_after, List.getElem?_map, h.calls] at hown
  exact (Option.some.inj hown).symm

/-- Every past belongs to a clone. -/
theorem exists_hasPast_of_calls (available : Nat) (h : (pastsAfter ops)[i]? = some past) :
    ∃ host, HasPast available ops i past host := by
  have hown : ((ofHost (new available)).after ops).clones[i]? = some (Local.replay past) := by
    rw [clones_after, List.getElem?_map, h, Option.map_some]
  exact ⟨_, ⟨by rw [host?, hown, Option.map_some], h⟩⟩

/-- Every clone has a past. -/
theorem exists_hasPast (h : ((ofHost (new available)).after ops).host? i = some host) :
    ∃ past, HasPast available ops i past host := by
  obtain ⟨own, hown, -⟩ := Option.map_eq_some_iff.mp h
  rw [clones_after, List.getElem?_map] at hown
  obtain ⟨past, hpast, -⟩ := Option.map_eq_some_iff.mp hown
  exact ⟨past, h, hpast⟩

theorem HasPast.later (h : HasPast available ops i past host) (later : List Operation) :
    ∃ more host', HasPast available (ops ++ later) i (past ++ more) host' := by
  obtain ⟨more, hmore⟩ := exists_pastsAfter h.calls later
  exact ⟨more, exists_hasPast_of_calls available hmore⟩

/-- A copy starts with the past of the clone that it is made from. -/
theorem HasPast.copy (h : HasPast available ops i past host) :
    HasPast available (ops ++ [.clone i])
      ((ofHost (new available)).after ops).clones.length past host where
  found := by
    obtain ⟨own, hown, rfl⟩ := Option.map_eq_some_iff.mp h.found
    rw [after_concat, step, clone, hown, host?]
    exact congrArg (Option.map _) List.getElem?_concat_length
  calls := by
    rw [clones_after, List.length_map, pastsAfter_append]
    change (pastsAfter ops ++ (pastsAfter ops)[i]?.toList)[_]? = _
    rw [h.calls]
    exact List.getElem?_concat_length

end Family

end Host

end NetReplay
