import NetReplay.Proofs.Host.Pasts

/-!
# Kernel handles of clones

A kernel is compiled from what its clone has behind it at that time: the setup, and
the last body registered under the name (`Compiles`). The handle that compiling
answers is the position of the kernel in the table of the clone, to which later calls
only add and which a copy takes over. So a handle stands for its kernel on every clone
that has the call which compiled it behind it, whatever else was done there or by
other clones (`kernels_of_clones`).
-/

namespace NetReplay

namespace Host

/-- A kernel occurs in a source when the characters of its name stand there in a
row. -/
theorem occursIn_iff (pattern text : List Char) :
    occursIn pattern text = true ↔ pattern <:+: text := by
  induction text with
  | nil => rw [occursIn, List.isEmpty_iff, List.infix_nil]
  | cons c rest ih =>
      rw [occursIn, Bool.or_eq_true, List.isPrefixOf_iff_prefix, ih, List.infix_cons_iff]

/-! ## What a past leaves behind -/

/-- The last body registered under a name. -/
def Registered (past : List Call) (name : String) (body : Kernel.Body) : Prop :=
  ∃ front back, past = front ++ .register name body :: back ∧
    ∀ other, .register name other ∉ back

/-- After these calls a kernel of this name and source compiles, to this body. -/
structure Compiles (past : List Call) (name source : String) (body : Kernel.Body) : Prop where
  setUp : .setup ∈ past
  registered : Registered past name body
  mentioned : name.toList <:+: source.toList

theorem not_registered_nil (name : String) (body : Kernel.Body) : ¬ Registered [] name body := by
  rintro ⟨front, back, hpast, -⟩
  exact List.append_ne_nil_of_right_ne_nil _ (List.cons_ne_nil _ _) hpast.symm

/-- A further call decides on the name it registers and leaves the others alone. -/
theorem registered_concat_iff (past : List Call) (c : Call) (name : String) (body : Kernel.Body) :
    Registered (past ++ [c]) name body ↔
      c = .register name body ∨ Registered past name body ∧ ∀ other, c ≠ .register name other := by
  constructor
  · rintro ⟨front, back, hpast, hlast⟩
    rcases List.eq_nil_or_concat back with rfl | ⟨init, d, rfl⟩
    · exact Or.inl (List.singleton_inj.mp (List.append_inj' hpast rfl).2)
    · rw [List.concat_eq_append] at hpast hlast
      rw [← List.cons_append, ← List.append_assoc] at hpast
      obtain ⟨rfl, hcd⟩ := List.append_inj' hpast rfl
      obtain rfl := List.singleton_inj.mp hcd
      refine Or.inr ⟨⟨front, init, rfl, fun other hother => ?_⟩, fun other hc => ?_⟩
      · exact hlast other (List.mem_append_left _ hother)
      · exact hlast other (List.mem_append_right _ (List.mem_singleton.mpr hc.symm))
  · rintro (rfl | ⟨⟨front, back, rfl, hlast⟩, hc⟩)
    · exact ⟨past, [], rfl, fun _ => List.not_mem_nil⟩
    · refine ⟨front, back ++ [c], by rw [List.append_assoc, List.cons_append], fun other => ?_⟩
      rw [List.mem_append, List.mem_singleton, not_or]
      exact ⟨hlast other, (hc other).symm⟩

namespace Local

/-- Only a registration of the name changes what is found under it. -/
theorem get?_registry_apply_of_ne {c : Call} {name : String}
    (hc : ∀ body, c ≠ .register name body) (own : Local) :
    (own.apply c).registry.get? name = own.registry.get? name := by
  cases c with
  | register other body =>
      have hne : name ≠ other := fun hname => hc body (by rw [hname])
      rw [apply, Table.get?_insert, if_neg hne]
  | _ => rfl

theorem get?_registry_replay (past : List Call) (name : String) (body : Kernel.Body) :
    (replay past).registry.get? name = some body ↔ Registered past name body := by
  induction past using List.reverseRecOn with
  | nil => exact iff_of_false nofun (not_registered_nil name body)
  | append_singleton past c ih =>
      rw [replay_concat]
      by_cases hc : ∃ other, c = .register name other
      · obtain ⟨other, rfl⟩ := hc
        rw [registered_concat_iff, apply, Table.get?_insert, if_pos rfl, Option.some.injEq,
          Call.register.injEq, and_iff_right rfl, or_iff_left]
        exact fun h => h.2 other rfl
      · rw [not_exists] at hc
        rw [registered_concat_iff, get?_registry_apply_of_ne hc, ih, and_iff_left hc,
          or_iff_right (hc body)]

end Local

/-- There is only one body that was registered last. -/
theorem Registered.unique {past : List Call} {name : String} {body other : Kernel.Body}
    (h : Registered past name body) (hother : Registered past name other) : body = other := by
  rw [← Local.get?_registry_replay] at h hother
  exact Option.some.inj (h.symm.trans hother)

namespace Local

theorem initialized_apply (own : Local) (c : Call) :
    (own.apply c).initialized = true ↔ own.initialized = true ∨ c = .setup := by
  cases c with
  | setup => exact iff_of_true rfl (Or.inr rfl)
  | _ => exact ⟨Or.inl, fun h => h.resolve_right nofun⟩

theorem initialized_replay (past : List Call) :
    (replay past).initialized = true ↔ .setup ∈ past := by
  induction past using List.reverseRecOn with
  | nil => exact iff_of_false nofun List.not_mem_nil
  | append_singleton past c ih =>
      rw [replay_concat, initialized_apply, ih, List.mem_append, List.mem_singleton,
        eq_comm (a := c)]

theorem compiled?_replay (past : List Call) (name source : String) (kernel : CompiledKernel) :
    (replay past).compiled? name source = some kernel ↔
      kernel.name = name ∧ Compiles past name source kernel.body := by
  rw [compiled?]
  constructor
  · intro h
    obtain ⟨hcond, hkernel⟩ := Option.ite_none_right_eq_some.mp h
    obtain ⟨hinit, hoccurs⟩ := Bool.and_eq_true_iff.mp hcond
    obtain ⟨body, hbody, rfl⟩ := Option.map_eq_some_iff.mp hkernel
    exact ⟨rfl, (initialized_replay past).mp hinit, (get?_registry_replay past name body).mp hbody,
      (occursIn_iff _ _).mp hoccurs⟩
  · rintro ⟨rfl, hsetUp, hbody, hmentioned⟩
    rw [(initialized_replay past).mpr hsetUp, (occursIn_iff _ _).mpr hmentioned,
      (get?_registry_replay past kernel.name kernel.body).mpr hbody]
    rfl

theorem kernels_prefix_apply (own : Local) (c : Call) :
    own.kernels <+: (own.apply c).kernels := by
  cases c with
  | createKernel name source => exact List.prefix_append ..
  | _ => exact List.prefix_refl _

/-- Later calls only add to the compiled kernels. -/
theorem kernels_prefix_replay (past more : List Call) :
    (replay past).kernels <+: (replay (past ++ more)).kernels := by
  induction more using List.reverseRecOn with
  | nil => simp only [List.append_nil, List.prefix_refl]
  | append_singleton more c ih =>
      rw [← List.append_assoc, replay_concat]
      exact ih.trans (kernels_prefix_apply _ c)

/-- Every compiled kernel goes back to the call that compiled it, and its place is the
next one of that time. -/
theorem exists_of_kernels_replay {past : List Call} {k : Nat} {kernel : CompiledKernel}
    (h : (replay past).kernels[k]? = some kernel) :
    ∃ before source, before ++ [.createKernel kernel.name source] <+: past ∧
      Compiles before kernel.name source kernel.body ∧ (replay before).kernels.length = k := by
  induction past using List.reverseRecOn with
  | nil => cases h
  | append_singleton past c ih =>
      have hold : (replay past).kernels[k]? = some kernel →
          ∃ before source, before ++ [.createKernel kernel.name source] <+: past ++ [c] ∧
            Compiles before kernel.name source kernel.body ∧
            (replay before).kernels.length = k := fun hkernel => by
        obtain ⟨before, source, hprefix, hcompiled⟩ := ih hkernel
        exact ⟨before, source, hprefix.trans (List.prefix_append ..), hcompiled⟩
      rw [replay_concat] at h
      cases c with
      | createKernel name source =>
          rw [apply, List.getElem?_append] at h
          split at h
          · exact hold h
          · rename_i hlength
            have hkernel := Option.mem_toList.mp (List.mem_of_getElem? h)
            obtain ⟨rfl, hcompiles⟩ := (compiled?_replay past name source kernel).mp hkernel
            rw [hkernel, Option.toList_some] at h
            have hlt := (List.getElem?_eq_some_iff.mp h).1
            rw [List.length_singleton] at hlt
            exact ⟨past, source, List.prefix_refl _, hcompiles, by omega⟩
      | _ => exact hold h

end Local

/-! ## Handles -/

/-- A handle stands for a kernel: no dispatch is refused because of it, and a dispatch
that can be carried out runs the body of the kernel. -/
structure StandsFor (host : Host) (h : KernelHandle) (kernel : CompiledKernel) : Prop where
  accepted : ∀ launch args,
    ((runKernel h launch args).runFrom host).1 ≠ .error (.invalidKernelHandle h.id)
  runs : ∀ launch args, launch.validate = .ok () → (∀ a ∈ args, host.memory.contains a) →
    (runKernel h launch args).runFrom host = (.ok (), { host with
      memory := kernel.body.runAll (Memory.view args) launch.workItems host.memory })

theorem standsFor_of_kernel? {host : Host} (hinit : host.initialized = true) {h : KernelHandle}
    {kernel : CompiledKernel} (hkernel : host.kernel? h = some kernel) :
    StandsFor host h kernel where
  accepted launch args herror := by
    rcases runKernel_cases hinit h launch args with ⟨e, hrefuses, hrun⟩ | ⟨_, -, -, -, hrun⟩
    · rw [hrun] at herror
      cases hrefuses with
      | kernel hnone => cases hnone.symm.trans hkernel
      | launch | argument => cases herror
    · rw [hrun] at herror
      cases herror
  runs launch args hlaunch hargs := runKernel_eq hinit hkernel hlaunch hargs

theorem exists_kernel?_iff (host : Host) (h : KernelHandle) :
    (∃ kernel, host.kernel? h = some kernel) ↔ 1 ≤ h.id ∧ h.id ≤ host.kernelCount := by
  rw [← Option.ne_none_iff_exists', ne_eq, kernel?_eq_none_iff]
  omega

/-- A handle out of range is refused in any dispatch, which changes nothing. -/
theorem runKernel_of_kernel?_eq_none {host : Host} (hinit : host.initialized = true)
    {h : KernelHandle} (hkernel : host.kernel? h = none) (launch : Launch)
    (args : List BufferHandle) :
    (runKernel h launch args).runFrom host = (.error (.invalidKernelHandle h.id), host) :=
  runKernel_of_refuses hinit (.kernel hkernel)

namespace Family

variable {available : Nat} {ops : List Operation} {i : Nat} {past : List Call} {host : Host}

theorem HasPast.compiled?_eq_some_iff (h : HasPast available ops i past host)
    (name source : String) (kernel : CompiledKernel) :
    host.compiled? name source = some kernel ↔
      kernel.name = name ∧ Compiles past name source kernel.body := by
  rw [h.toLocal, Local.compiled?_replay]

/-- A kernel that compiles gets the next handle. -/
theorem HasPast.createKernel_of_compiles (h : HasPast available ops i past host)
    {name source : String} {body : Kernel.Body} (hcompiles : Compiles past name source body) :
    (createKernel name source).runFrom host =
      (.ok ⟨host.kernelCount + 1⟩, host.withKernel ⟨name, body⟩) := by
  have hsome : host.compiled? name source = some ⟨name, body⟩ :=
    (h.compiled?_eq_some_iff name source ⟨name, body⟩).mpr ⟨rfl, hcompiles⟩
  rcases createKernel_cases host name source with ⟨kernel, hkernel, hrun⟩ | ⟨hnone, -⟩
  · cases hkernel.symm.trans hsome
    exact hrun
  · cases hnone.symm.trans hsome

/-- Only a kernel that compiles gets a handle, which is the next one. -/
theorem HasPast.compiles_of_answer (h : HasPast available ops i past host) {name source : String}
    {answer : KernelHandle} (hanswer : ((createKernel name source).runFrom host).1 = .ok answer) :
    ∃ body, Compiles past name source body ∧ answer = ⟨host.kernelCount + 1⟩ := by
  rcases createKernel_cases host name source with ⟨kernel, hkernel, hrun⟩ | ⟨-, e, hrun⟩
  · rw [hrun] at hanswer
    exact ⟨kernel.body, ((h.compiled?_eq_some_iff name source kernel).mp hkernel).2,
      (Except.ok.inj hanswer).symm⟩
  · rw [hrun] at hanswer
    cases hanswer

/-- What does not compile leaves the clone as it was. -/
theorem HasPast.createKernel_of_not_compiles (h : HasPast available ops i past host)
    {name source : String} (hcompiles : ∀ body, ¬ Compiles past name source body) :
    ∃ e, (createKernel name source).runFrom host = (.error e, host) := by
  rcases createKernel_cases host name source with ⟨kernel, hkernel, -⟩ | ⟨-, herror⟩
  · exact absurd ((h.compiled?_eq_some_iff name source kernel).mp hkernel).2
      (hcompiles kernel.body)
  · exact herror

/-- In the operations a kernel was compiled under a handle, by a clone that had the
calls before it behind it; this call is part of the given past. -/
inductive CompiledUnder (available : Nat) (ops : List Operation) (past : List Call) :
    KernelHandle → CompiledKernel → Prop
  | intro {front back : List Operation} {j : Nat} {before : List Call} {host : Host}
      {name source : String} {h : KernelHandle} {body : Kernel.Body}
      (hops : ops = front ++ .call j (.createKernel name source) :: back)
      (hbefore : HasPast available front j before host)
      (hanswer : ((createKernel name source).runFrom host).1 = .ok h)
      (hbody : Registered before name body)
      (hpast : before ++ [.createKernel name source] <+: past) :
      CompiledUnder available ops past h ⟨name, body⟩

/-- What was compiled under a handle is found under it on every clone that has the
call behind it. -/
theorem HasPast.kernel?_of_compiledUnder (hhost : HasPast available ops i past host)
    {h : KernelHandle} {kernel : CompiledKernel}
    (hkernel : CompiledUnder available ops past h kernel) : host.kernel? h = some kernel := by
  cases hkernel with
  | @intro front back j before first name source h body _ hbefore hanswer hbody hpast =>
      obtain ⟨more, rfl⟩ := hpast
      obtain ⟨other, hcompiles, rfl⟩ := hbefore.compiles_of_answer hanswer
      obtain rfl := hcompiles.registered.unique hbody
      have hcompiled : (Local.replay before).compiled? name source = some ⟨name, other⟩ :=
        (Local.compiled?_replay before name source ⟨name, other⟩).mpr ⟨rfl, hcompiles⟩
      -- The kernel was added behind those of that time, and later calls leave it there.
      obtain ⟨rest, hrest⟩ :=
        Local.kernels_prefix_replay (before ++ [.createKernel name source]) more
      rw [Local.replay_concat, Local.apply, hcompiled, ← hhost.toLocal, ← hbefore.toLocal,
        List.append_assoc] at hrest
      rw [kernel?, ← hrest]
      exact (List.getElem?_append_right (Nat.le_refl _)).trans
        (congrArg _ (Nat.sub_self first.kernels.length))

/-- What is found under a handle was compiled under it. -/
theorem HasPast.compiledUnder_of_kernel? (hhost : HasPast available ops i past host)
    {h : KernelHandle} {kernel : CompiledKernel} (hkernel : host.kernel? h = some kernel) :
    CompiledUnder available ops past h kernel := by
  rcases h with ⟨_ | k⟩
  · cases hkernel
  · have hk : (Local.replay past).kernels[k]? = some kernel := by
      rw [← hhost.toLocal]
      exact hkernel
    obtain ⟨before, source, hpast, hcompiles, hlength⟩ := Local.exists_of_kernels_replay hk
    obtain ⟨front, back, j, hops, hcalls⟩ := exists_of_prefix_pastsAfter hhost.calls hpast
    obtain ⟨first, hbefore⟩ := exists_hasPast_of_calls available hcalls
    refine .intro hops hbefore ?_ hcompiles.registered hpast
    rw [hbefore.createKernel_of_compiles hcompiles, kernelCount, hbefore.toLocal, hlength]

end Family

/-- Every clone has a past, which later operations leave at the front of its past and
which a copy starts with. A kernel compiles exactly when the past of its clone has the
setup and a registration of its name and its source mentions the name; it gets the
handle behind those in use, and whatever else is compiled changes nothing. The handles
in use are those under which kernels were compiled in the past of the clone, by itself or
by the clones it is a copy of, and each of them stands for the body that was the last one
registered when its kernel was compiled. All other handles are refused. -/
theorem kernels_of_clones (available : Nat) :
    (∀ ops i host, ((Family.ofHost (new available)).after ops).host? i = some host →
      ∃ past, Family.HasPast available ops i past host) ∧
    ∀ ops i past host, Family.HasPast available ops i past host →
      (∀ later, ∃ more next, Family.HasPast available (ops ++ later) i (past ++ more) next) ∧
      Family.HasPast available (ops ++ [.clone i])
        ((Family.ofHost (new available)).after ops).clones.length past host ∧
      (∀ name source body, Compiles past name source body →
        (createKernel name source).runFrom host =
          (.ok ⟨host.kernelCount + 1⟩, host.withKernel ⟨name, body⟩)) ∧
      (∀ name source, (∀ body, ¬ Compiles past name source body) →
        ∃ e, (createKernel name source).runFrom host = (.error e, host)) ∧
      (∀ h kernel, Family.CompiledUnder available ops past h kernel → StandsFor host h kernel) ∧
      (∀ h, (∃ kernel, Family.CompiledUnder available ops past h kernel) ↔
        1 ≤ h.id ∧ h.id ≤ host.kernelCount) ∧
      ∀ h, ¬ (1 ≤ h.id ∧ h.id ≤ host.kernelCount) → ∀ launch args,
        (runKernel h launch args).runFrom host =
          (.error (if host.initialized then .invalidKernelHandle h.id
            else .notInitialized deviceName), host) := by
  refine ⟨fun ops i host => Family.exists_hasPast, fun ops i past host hhost => ?_⟩
  have hused : ∀ h kernel, Family.CompiledUnder available ops past h kernel ↔
      host.kernel? h = some kernel := fun h kernel =>
    ⟨hhost.kernel?_of_compiledUnder, hhost.compiledUnder_of_kernel?⟩
  refine ⟨hhost.later, hhost.copy, fun name source body => hhost.createKernel_of_compiles,
    fun name source => hhost.createKernel_of_not_compiles, fun h kernel hkernel => ?_,
    fun h => ?_, fun h hrange launch args => ?_⟩
  · rw [hused] at hkernel
    exact standsFor_of_kernel? (Family.initialized_of_kernel? hhost.found hkernel) hkernel
  · rw [← exists_kernel?_iff]
    exact exists_congr (hused h)
  · cases hinit : host.initialized with
    | false => rw [runKernel, runFrom_ensureInitialized_bind hinit]; rfl
    | true =>
        refine runKernel_of_kernel?_eq_none hinit ?_ launch args
        rw [← exists_kernel?_iff, ← Option.ne_none_iff_exists', not_not] at hrange
        exact hrange

end Host

end NetReplay
