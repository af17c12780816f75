import PetalinuxDriver.Model.IntrProbe

/-!
# What a device of the interrupt demo leaves behind

The probe takes the private struct, the region, the mapping and the irq in this order, and the labels
at its end give back what was taken before the step that failed, except for the last one: it frees an
irq that was not requested. The mapping is given back nowhere, neither at the labels nor in the
removal, and the removal frees an irq whether one was requested or not. So everything fits as long as
no `request_irq` fails and no device is removed (`probes_accounted_iff`).
-/

set_option autoImplicit false

namespace PetalinuxDriver

open Library LedgerEntry

variable {cfg : PhysAddrConfig}

/-! ## Accounts -/

/-- The ledger can be read to its end, so that nothing was given back that was not held, and what is
held then is held for devices that are bound. -/
def EgModule.Accounted (s : EgModule cfg) : Prop :=
  ∃ held, replay 0 s.ledger = some held ∧ ∀ t ∈ held, t.1 ∈ s.bound

/-- The probe gets as far as `request_irq`, and that fails. -/
def EgProbeEnv.requestFails (env : EgProbeEnv cfg) : Bool :=
  env.rMem.isSome && env.kmalloc.isSome && env.requestMemRegion && env.ioremap.isSome &&
    env.rIrq.isSome && decide (env.requestIrq ≠ 0)

/-- A probe in which no `request_irq` fails. -/
def EgCall.benign : EgCall cfg → Bool
  | .probe _ env => !env.requestFails
  | .remove _ => false

/-! ## What a probe does -/

/-- Resources that are taken for a device. -/
def tokens (dev : Nat) (rs : List (EgResource cfg)) : List (Nat × EgResource cfg) :=
  rs.map fun r => (dev, r)

/-- How a probe ends. -/
inductive EgProbeOutcome (dev : Nat) (env : EgProbeEnv cfg) (s : EgModule cfg) :
    EgModule cfg × Int → Prop
  /-- It fails, and gives back what it took. -/
  | unwound (s' : EgModule cfg) (rc : Int) (rs : List (EgResource cfg)) (hrc : rc ≠ 0)
      (hledger : s'.ledger = s.ledger ++
        ((tokens dev rs).map acquire ++ (tokens dev rs).reverse.map release))
      (hmapping : ∀ baseAddr, EgResource.mapping baseAddr ∉ rs)
      (hbound : s'.bound = s.bound) (hirq : env.requestFails = false) :
      EgProbeOutcome dev env s (s', rc)
  /-- It succeeds. -/
  | probed (s' : EgModule cfg) (rs : List (EgResource cfg)) (baseAddr : Nat)
      (hledger : s'.ledger = s.ledger ++ (tokens dev rs).map acquire)
      (hmapping : EgResource.mapping baseAddr ∈ rs)
      (hbound : s'.bound = s.bound) (hirq : env.requestFails = false) :
      EgProbeOutcome dev env s (s', 0)
  /-- Its `request_irq` fails. -/
  | requestFailed (s' : EgModule cfg) (rc : Int) (rs : List (EgResource cfg)) (baseAddr : Nat)
      (rs' : List (EgResource cfg)) (hrc : rc ≠ 0)
      (hledger : s'.ledger = s.ledger ++
        ((tokens dev rs).map acquire ++ (tokens dev rs').map release))
      (hmapping : EgResource.mapping baseAddr ∈ rs)
      (hkept : ∀ baseAddr, EgResource.mapping baseAddr ∉ rs')
      (hbound : s'.bound = s.bound) (hirq : env.requestFails = true) :
      EgProbeOutcome dev env s (s', rc)

/-- **How a probe ends.** -/
theorem egModuleProbe_outcome (dev : Nat) (env : EgProbeEnv cfg) (s : EgModule cfg) :
    EgProbeOutcome dev env s (egModuleProbe dev env s) := by
  have hneg : -enodev ≠ 0 ∧ -enomem ≠ 0 ∧ -ebusy ≠ 0 ∧ -eio ≠ 0 := by decide
  unfold egModuleProbe
  cases hmem : env.rMem with
  | none =>
    refine .unwound s _ [] hneg.1 ?_ (by simp) rfl ?_
    · simp [tokens]
    · simp [EgProbeEnv.requestFails, hmem]
  | some range =>
    cases hkmalloc : env.kmalloc with
    | none =>
      refine .unwound s _ [] hneg.2.1 ?_ (by simp) rfl ?_
      · simp [tokens]
      · simp [EgProbeEnv.requestFails, hkmalloc]
    | some struct =>
      obtain ⟨p, lp⟩ := struct
      obtain ⟨memStart, memEnd⟩ := range
      simp only [egModuleProbeMem]
      cases hregion : env.requestMemRegion with
      | false =>
        refine .unwound _ _ [.localStruct p] hneg.2.2.1 ?_ (by simp) rfl ?_
        · simp [egModuleError1, EgModule.enter, EgModule.setDrvdata, tokens]
        · simp [EgProbeEnv.requestFails, hregion]
      | true =>
        cases hioremap : env.ioremap with
        | none =>
          refine .unwound _ _ [.localStruct p, .memRegion memStart (memEnd - memStart + 1)]
            hneg.2.2.2 ?_ (by simp) rfl ?_
          · simp [egModuleError2, egModuleError1, EgModule.enter,
              EgModule.setDrvdata, tokens, EgModuleLocal.memLen]
          · simp [EgProbeEnv.requestFails, hioremap]
        | some baseAddr =>
          simp only [egModuleProbeIrq]
          cases hirq : env.rIrq with
          | none =>
            refine .probed _ [.localStruct p, .memRegion memStart (memEnd - memStart + 1),
              .mapping baseAddr] baseAddr ?_ (by simp) rfl ?_
            · simp [EgModule.enter, EgModule.setDrvdata, tokens, EgModuleLocal.memLen]
            · simp [EgProbeEnv.requestFails, hirq]
          | some start =>
            by_cases hrequest : env.requestIrq = 0
            · simp only [hrequest, ne_eq, not_true_eq_false, if_false]
              refine .probed _ [.localStruct p, .memRegion memStart (memEnd - memStart + 1),
                .mapping baseAddr, .irq (start.setWidth 32).toInt p] baseAddr ?_ (by simp) rfl ?_
              · simp [EgModule.enter, EgModule.setDrvdata, tokens, EgModuleLocal.memLen]
              · simp [EgProbeEnv.requestFails, hrequest]
            · simp only [hrequest, ne_eq, not_false_eq_true, if_true]
              refine .requestFailed _ _ [.localStruct p,
                .memRegion memStart (memEnd - memStart + 1), .mapping baseAddr] baseAddr
                [.irq (start.setWidth 32).toInt p, .memRegion memStart (memEnd - memStart + 1),
                  .localStruct p] hrequest ?_ (by simp) (by simp) rfl ?_
              · simp [egModuleError3, egModuleError2, egModuleError1, EgModule.enter,
                  EgModule.setDrvdata, tokens, EgModuleLocal.memLen]
              · simp [EgProbeEnv.requestFails, hmem, hkmalloc, hregion, hioremap, hirq, hrequest]

/-! ## Mappings -/

/-- No mapping was given back, and every bound device has one. -/
structure EgModule.Mapped (s : EgModule cfg) : Prop where
  kept : ∀ dev baseAddr, release (dev, EgResource.mapping baseAddr) ∉ s.ledger
  bound : ∀ dev ∈ s.bound, ∃ baseAddr, acquire (dev, EgResource.mapping baseAddr) ∈ s.ledger

/-- A token is a resource of its device. -/
theorem mem_tokens {dev : Nat} {rs : List (EgResource cfg)} {t : Nat × EgResource cfg} :
    t ∈ tokens dev rs ↔ t.1 = dev ∧ t.2 ∈ rs := by
  obtain ⟨d, r⟩ := t
  simp only [tokens, List.mem_map, Prod.mk.injEq]
  constructor
  · rintro ⟨r', hr', rfl, rfl⟩
    exact ⟨rfl, hr'⟩
  · rintro ⟨rfl, hr⟩
    exact ⟨r, hr, rfl, rfl⟩

namespace EgModule

variable {s s' : EgModule cfg} {c : EgCall cfg}

/-- At first no device is bound. -/
theorem mapped_loaded : (loaded : EgModule cfg).Mapped where
  kept := fun _ _ => List.not_mem_nil
  bound := fun _ h => absurd h List.not_mem_nil

/-- At first nothing is held. -/
theorem accounted_loaded : (loaded : EgModule cfg).Accounted :=
  ⟨0, rfl, fun t ht => absurd ht (Multiset.notMem_zero t)⟩

/-- A probe, with what the driver core makes of its result. -/
theorem call_probe {dev : Nat} {env : EgProbeEnv cfg} (h : s.call (.probe dev env) = some s') :
    dev ∉ s.bound ∧ ∃ t rc, EgProbeOutcome dev env s (t, rc) ∧
      s' = if rc = 0 then { t with bound := dev :: t.bound } else t := by
  have houtcome := egModuleProbe_outcome dev env s
  rw [EgModule.call] at h
  split at h
  · cases h
  · rename_i hnew
    refine ⟨hnew, (egModuleProbe dev env s).1, (egModuleProbe dev env s).2, houtcome, ?_⟩
    split at h
    · rename_i t heq
      cases h
      rw [heq]
      rfl
    · rename_i t rc hrc heq
      cases h
      rw [heq]
      rw [if_neg hrc]

/-- A removal. -/
theorem call_remove {dev : Nat} (h : s.call (.remove dev) = some s') :
    dev ∈ s.bound ∧ s'.bound = s.bound.filter (· ≠ dev) ∧
      ∃ rs : List (EgResource cfg), s'.ledger = s.ledger ++ (tokens dev rs).map release ∧
        ∀ baseAddr, EgResource.mapping baseAddr ∉ rs := by
  rw [EgModule.call] at h
  split at h
  · rename_i hbound
    obtain ⟨t, hremove, ht⟩ := Option.map_eq_some_iff.mp h
    rw [← ht]
    unfold egModuleRemove at hremove
    split at hremove
    · cases hremove
    · rename_i p lp _
      cases hremove
      refine ⟨hbound, rfl, [.irq lp.irq p, .memRegion lp.memStart lp.memLen, .localStruct p], ?_,
        by simp⟩
      simp [enter, setDrvdata, tokens]
  · cases h

/-- What a call does: it takes and gives back, it binds a device, or it loses a mapping. -/
inductive CallOutcome (s s' : EgModule cfg) : Bool → Prop
  | unwound (taken : List (Nat × EgResource cfg))
      (hledger : s'.ledger = s.ledger ++ (taken.map acquire ++ taken.reverse.map release))
      (hkept : ∀ dev baseAddr, (dev, EgResource.mapping baseAddr) ∉ taken)
      (hbound : s'.bound = s.bound) : CallOutcome s s' true
  | bound (dev : Nat) (rs : List (EgResource cfg)) (baseAddr : Nat)
      (hledger : s'.ledger = s.ledger ++ (tokens dev rs).map acquire)
      (hmapping : EgResource.mapping baseAddr ∈ rs)
      (hbound : s'.bound = dev :: s.bound) : CallOutcome s s' true
  | lost (dev : Nat) (taken given : List (Nat × EgResource cfg)) (baseAddr : Nat)
      (hledger : s'.ledger = s.ledger ++ (taken.map acquire ++ given.map release))
      (hmapping : acquire (dev, EgResource.mapping baseAddr) ∈ s'.ledger)
      (hkept : ∀ dev baseAddr, (dev, EgResource.mapping baseAddr) ∉ given)
      (hbound : s'.bound ⊆ s.bound) (hnot : dev ∉ s'.bound) : CallOutcome s s' false

/-- Without a mapping among the resources no token is one. -/
theorem not_mem_tokens {dev : Nat} {rs : List (EgResource cfg)}
    (h : ∀ baseAddr, EgResource.mapping baseAddr ∉ rs) (d baseAddr : Nat) :
    (d, EgResource.mapping baseAddr) ∉ tokens dev rs := by
  intro hmem
  exact h baseAddr (mem_tokens.mp hmem).2

/-- **What a call does.** -/
theorem call_outcome (hmapped : s.Mapped) (h : s.call c = some s') :
    CallOutcome s s' c.benign := by
  cases c with
  | probe dev env =>
    obtain ⟨hnew, t, rc, houtcome, rfl⟩ := call_probe h
    cases houtcome with
    | unwound _ _ rs hrc hledger hmapping hbound hirq =>
      rw [if_neg hrc, EgCall.benign, hirq]
      exact .unwound (tokens dev rs) hledger (not_mem_tokens hmapping) hbound
    | probed _ rs baseAddr hledger hmapping hbound hirq =>
      rw [if_pos rfl, EgCall.benign, hirq]
      exact .bound dev rs baseAddr hledger hmapping (congrArg (List.cons dev) hbound)
    | requestFailed _ _ rs baseAddr rs' hrc hledger hmapping hkept hbound hirq =>
      rw [if_neg hrc, EgCall.benign, hirq]
      refine .lost dev (tokens dev rs) (tokens dev rs') baseAddr hledger ?_ (not_mem_tokens hkept) ?_
        ?_
      · rw [hledger]
        apply List.mem_append_right
        apply List.mem_append_left
        exact List.mem_map_of_mem (mem_tokens.mpr ⟨rfl, hmapping⟩)
      · rw [hbound]
        exact List.Subset.refl _
      · rw [hbound]
        exact hnew
  | remove dev =>
    obtain ⟨hdev, hbound, rs, hledger, hkept⟩ := call_remove h
    obtain ⟨baseAddr, hmem⟩ := hmapped.bound dev hdev
    refine .lost dev [] (tokens dev rs) baseAddr hledger ?_ (not_mem_tokens hkept) ?_ ?_
    · rw [hledger]
      exact List.mem_append_left _ hmem
    · rw [hbound]
      intro d hd
      exact (List.mem_filter.mp hd).1
    · rw [hbound]
      simp

/-- A call gives back no mapping. -/
theorem Mapped.call (h : s.Mapped) (hcall : s.call c = some s') : s'.Mapped := by
  have hkept : ∀ {taken given : List (Nat × EgResource cfg)},
      s'.ledger = s.ledger ++ (taken.map acquire ++ given.map release) →
      (∀ dev baseAddr, (dev, EgResource.mapping baseAddr) ∉ given) →
      ∀ dev baseAddr, release (dev, EgResource.mapping baseAddr) ∉ s'.ledger := by
    intro taken given hledger hgiven dev baseAddr
    rw [hledger]
    simp [h.kept dev baseAddr, hgiven dev baseAddr]
  have hstays : ∀ {log : List (LedgerEntry (Nat × EgResource cfg))}, s'.ledger = s.ledger ++ log →
      ∀ dev ∈ s.bound, ∃ baseAddr, acquire (dev, EgResource.mapping baseAddr) ∈ s'.ledger := by
    intro log hledger dev hdev
    obtain ⟨baseAddr, hmem⟩ := h.bound dev hdev
    refine ⟨baseAddr, ?_⟩
    rw [hledger]
    exact List.mem_append_left _ hmem
  have houtcome := call_outcome h hcall
  generalize c.benign = b at houtcome
  cases houtcome with
  | unwound taken hledger hnone hbound =>
    refine ⟨hkept hledger ?_, ?_⟩
    · intro dev baseAddr hmem
      exact hnone dev baseAddr (List.mem_reverse.mp hmem)
    · rw [hbound]
      exact hstays hledger
  | bound dev rs baseAddr hledger hmapping hbound =>
    refine ⟨?_, ?_⟩
    · have hnothing : s'.ledger = s.ledger ++ ((tokens dev rs).map acquire ++ [].map release) := by
        rw [hledger, List.map_nil, List.append_nil]
      exact hkept hnothing fun _ _ => List.not_mem_nil
    · rw [hbound, List.forall_mem_cons]
      refine ⟨⟨baseAddr, ?_⟩, hstays hledger⟩
      rw [hledger]
      apply List.mem_append_right
      exact List.mem_map_of_mem (mem_tokens.mpr ⟨rfl, hmapping⟩)
  | lost dev taken given baseAddr hledger hmapping hnone hbound hnot =>
    refine ⟨hkept hledger hnone, ?_⟩
    intro d hd
    exact hstays hledger d (hbound hd)

/-- What was taken for a device that is not bound, and not given back, is not accounted for. -/
theorem not_accounted_of_lost {t : Nat × EgResource cfg} (hmem : acquire t ∈ s.ledger)
    (hkept : release t ∉ s.ledger) (hbound : t.1 ∉ s.bound) : ¬ s.Accounted := by
  rintro ⟨held, hreplay, hheld⟩
  exact hbound (hheld t (mem_of_replay hreplay (Or.inr hmem) hkept))

/-- **One call.** What was accounted for is accounted for afterwards when no `request_irq` failed and
no device was removed. -/
theorem Accounted.call_iff (h : s.Accounted) (hmapped : s.Mapped) (hcall : s.call c = some s') :
    s'.Accounted ↔ c.benign = true := by
  obtain ⟨held, hreplay, hheld⟩ := h
  have hmapped' := hmapped.call hcall
  have houtcome := call_outcome hmapped hcall
  generalize c.benign = b at houtcome ⊢
  cases houtcome with
  | unwound taken hledger _ hbound =>
    simp only [iff_true]
    refine ⟨held, ?_, ?_⟩
    · rw [hledger, replay_append, hreplay]
      exact replay_unwound held taken
    · rw [hbound]
      exact hheld
  | bound dev rs baseAddr hledger _ hbound =>
    simp only [iff_true]
    refine ⟨held + ↑(tokens dev rs), ?_, ?_⟩
    · rw [hledger, replay_append, hreplay]
      exact replay_acquires held (tokens dev rs)
    · intro t ht
      rw [hbound]
      rcases Multiset.mem_add.mp ht with hold | hnew
      · exact List.mem_cons_of_mem _ (hheld t hold)
      · rw [(mem_tokens.mp (Multiset.mem_coe.mp hnew)).1]
        exact List.mem_cons_self
  | lost dev taken given baseAddr hledger hmapping hnone hbound hnot =>
    simp only [Bool.false_eq_true, iff_false]
    exact not_accounted_of_lost hmapping (hmapped'.kept dev baseAddr) hnot

end EgModule

/-- **Resources of the interrupt demo.** In a sequence of probes and removals, everything is accounted
for after each call exactly when no call is a removal, or a probe whose `request_irq` fails. -/
theorem probes_accounted_iff (calls : List (EgCall cfg)) (s : EgModule cfg)
    (h : exec EgModule.call .loaded calls = some s) :
    (∀ n t, exec EgModule.call .loaded (calls.take n) = some t → t.Accounted) ↔
      ∀ c ∈ calls, c.benign = true := by
  refine Reachable.exec_prefixes_iff ?_ EgModule.mapped_loaded EgModule.accounted_loaded h
  intro s c s' hmapped haccounted hcall
  exact ⟨hmapped.call hcall, haccounted.call_iff hmapped hcall⟩

/-- The answers to a probe that gets all it asks for. -/
def egProbeEnv : EgProbeEnv .addr64 where
  rMem := some (BitVec.ofNat 64 0xa0000000, BitVec.ofNat 64 0xa000ffff)
  kmalloc := some (0x1000, ⟨0, 0, 0, none⟩)
  requestMemRegion := true
  ioremap := some 0x2000
  rIrq := some 29
  requestIrq := 0

/-- A device is probed, and another one whose region is busy. -/
theorem probes_accounted_busyRegion :
    (exec EgModule.call .loaded
      [.probe 0 egProbeEnv, .probe 1 { egProbeEnv with requestMemRegion := false }]).isSome = true ∧
    ∀ n t, exec EgModule.call .loaded (List.take n
      [.probe 0 egProbeEnv, .probe 1 { egProbeEnv with requestMemRegion := false }]) = some t →
        t.Accounted :=
  ⟨rfl, (probes_accounted_iff _ _ rfl).mpr (by decide)⟩

/-- A device that is removed keeps its mapping. A probe whose `request_irq` fails keeps it, too, and
gives back an irq that it has not got. -/
theorem probes_not_accounted :
    (∃ t : EgModule .addr64, exec EgModule.call .loaded [.probe 0 egProbeEnv, .remove 0] = some t ∧
      ¬ t.Accounted) ∧
    ∃ t : EgModule .addr64,
      exec EgModule.call .loaded [.probe 0 { egProbeEnv with requestIrq := -ebusy }] = some t ∧
        ¬ t.Accounted := by
  refine ⟨⟨_, rfl, ?_⟩, ⟨_, rfl, ?_⟩⟩
  · apply EgModule.not_accounted_of_lost (t := (0, .mapping 0x2000))
    · decide
    · decide
    · decide
  · apply EgModule.not_accounted_of_lost (t := (0, .mapping 0x2000))
    · decide
    · decide
    · decide

end PetalinuxDriver
