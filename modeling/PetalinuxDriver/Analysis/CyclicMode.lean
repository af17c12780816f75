import PetalinuxDriver.Analysis.ControlRegister
import PetalinuxDriver.Analysis.CyclicPlacement

/-!
# The cyclic mode of the engine

Three things say that the channel is cyclic: the cyclic bit of the control register, which
`xilinx_dma_prep_dma_cyclic` sets, the flag `cyclic`, which `xilinx_dma_tx_submit` sets, and a
cyclic descriptor in the queues. `xilinx_dma_terminate_all` clears the bit only if the flag is set.

So between the prepare and the submit of a cyclic descriptor the bit is there and nothing else is.
In a run in which no batch is started and nothing is terminated meanwhile, and no reset or
terminate takes the bit away from a descriptor that is then submitted, the bit is right at every
start and gone after every terminate (`cyclic_mode`).
-/

set_option autoImplicit false

namespace PetalinuxDriver

open Library

variable {cfg : PhysAddrConfig}

/-! ## The bit -/

/-- The cyclic bit of the shadow. -/
def XilinxDmaChan.cyclicBit (s : XilinxDmaChan cfg) : Bool :=
  hasBits s.ctrlReg xilinxDmaCrCyclicBdEnMask

/-- A start leaves the cyclic bit as it is. -/
theorem hasBits_startCtrl (s : XilinxDmaChan cfg) :
    hasBits (startCtrl s) xilinxDmaCrCyclicBdEnMask = s.cyclicBit :=
  hasBits_congr (startCtrl_and (by decide) s)

/-- `xilinx_dma_start_transfer` as a whole leaves the cyclic bit as it is. -/
theorem startTransfer_cyclicBit (startOk : Bool) (s : XilinxDmaChan cfg) :
    (xilinxDmaStartTransfer startOk s).cyclicBit = s.cyclicBit := by
  have hreg := congrArg Prod.fst (startTransfer_control startOk s)
  cases hstart : canStart s with
  | false =>
    rw [hstart] at hreg
    exact congrArg (hasBits · xilinxDmaCrCyclicBdEnMask) hreg
  | true =>
    rw [hstart] at hreg
    exact (congrArg (hasBits · xilinxDmaCrCyclicBdEnMask) hreg).trans (hasBits_startCtrl s)

/-- The cyclic bit is one of the control register. -/
theorem control_cyclicBit {s t : XilinxDmaChan cfg} (h : t.control = s.control) :
    t.cyclicBit = s.cyclicBit :=
  congrArg (hasBits · xilinxDmaCrCyclicBdEnMask) (congrArg Prod.fst h)

/-- `xilinx_dma_terminate_all` clears the bit of a channel with the flag, and of no other. -/
theorem terminateAll_cyclicBit (haltOk : Bool) (s : XilinxDmaChan cfg) :
    (xilinxDmaTerminateAll haltOk s).cyclicBit = (!s.cyclic && s.cyclicBit) := by
  have hreg := congrArg Prod.fst (terminateAll_control haltOk s)
  have hbit := congrArg (hasBits · xilinxDmaCrCyclicBdEnMask) hreg
  have hrun : hasBits (s.ctrlReg &&& ~~~xilinxDmaCrRunstopMask) xilinxDmaCrCyclicBdEnMask =
      s.cyclicBit := hasBits_and_not_of_disjoint _ (by decide)
  refine Eq.trans hbit ?_
  simp only [haltCtrl]
  cases hcyc : s.cyclic with
  | false => simpa using hrun
  | true => exact hasBits_and_not _ _

/-- A terminate clears the flag. -/
theorem terminateAll_cyclic (haltOk : Bool) (s : XilinxDmaChan cfg) :
    (xilinxDmaTerminateAll haltOk s).cyclic = false := by
  unfold xilinxDmaTerminateAll
  simp only [freeDescriptors_eq, halt_eq, clearCyclic_eq]
  cases hcyc : s.cyclic <;> simp

/-- A terminate leaves nothing cyclic queued. -/
theorem terminateAll_marks (haltOk : Bool) (s : XilinxDmaChan cfg) :
    (xilinxDmaTerminateAll haltOk s).marks = [] := by
  unfold xilinxDmaTerminateAll
  simp only [freeDescriptors_eq, halt_eq, clearCyclic_eq]
  split <;> rfl

namespace VxdmaSys

/-! ## The condition -/

/-- The cyclic bit is there for a descriptor that was prepared and not submitted: the channel is
not marked cyclic. -/
def UnsubmittedBit (s : VxdmaSys cfg) : Prop :=
  s.chan.cyclic = false ∧ s.chan.cyclicBit = true ∧ ∃ d ∈ s.prepared, d.cyclic = true

instance (s : VxdmaSys cfg) : Decidable s.UnsubmittedBit :=
  inferInstanceAs (Decidable (_ ∧ _ ∧ _))

/-- The control register with which a submit gets to its locked section. -/
def submitCtrl (s : VxdmaSys cfg) (env : ResetEnv) : BitVec 32 :=
  if s.chan.err then env.dmacr else s.chan.ctrlReg

/-- What a submit that is not refused needs: a cyclic descriptor that is accepted finds its bit, and
a reset finds the bit only for a cyclic descriptor that is accepted or remains prepared. -/
structure SubmitInStep (s : VxdmaSys cfg) (i : Nat) (env : ResetEnv)
    (d : XilinxDmaTxDescriptor cfg) : Prop where
  accepted : d.cyclic = true → (s.chan.err = true → env.ok = true) →
    hasBits (s.submitCtrl env) xilinxDmaCrCyclicBdEnMask = true
  reset : s.chan.err = true → hasBits env.dmacr xilinxDmaCrCyclicBdEnMask = true →
    (d.cyclic = true ∧ env.ok = true) ∨ ∃ e ∈ s.prepared.eraseIdx i, e.cyclic = true

instance (s : VxdmaSys cfg) (i : Nat) (env : ResetEnv) (d : XilinxDmaTxDescriptor cfg) :
    Decidable (s.SubmitInStep i env d) :=
  decidable_of_iff ((d.cyclic = true → (s.chan.err = true → env.ok = true) →
      hasBits (s.submitCtrl env) xilinxDmaCrCyclicBdEnMask = true) ∧
    (s.chan.err = true → hasBits env.dmacr xilinxDmaCrCyclicBdEnMask = true →
      (d.cyclic = true ∧ env.ok = true) ∨ ∃ e ∈ s.prepared.eraseIdx i, e.cyclic = true))
    ⟨fun h => ⟨h.1, h.2⟩, fun h => ⟨h.accepted, h.reset⟩⟩

/-- No batch is started and nothing is terminated with the bit of a descriptor that was not
submitted, and submits are in step with the bit. -/
def ModeGuard (s : VxdmaSys cfg) (op : Op cfg) : Prop :=
  match op with
  | .txSubmit i _ env => s.chan.cyclic = false → ∀ d ∈ s.prepared[i]?, s.SubmitInStep i env d
  | .terminateAll _ => ¬ s.UnsubmittedBit
  | _ => ∀ r ∈ s.startEntry op, canStart r.1 = true → r.2 = true → ¬ s.UnsubmittedBit

instance (s : VxdmaSys cfg) (op : Op cfg) : Decidable (s.ModeGuard op) :=
  let starts (op : Op cfg) : Decidable (∀ r ∈ s.startEntry op,
    canStart r.1 = true → r.2 = true → ¬ s.UnsubmittedBit) := inferInstance
  match op with
  | .txSubmit i _ env => inferInstanceAs (Decidable (s.chan.cyclic = false →
      ∀ d ∈ s.prepared[i]?, s.SubmitInStep i env d))
  | .terminateAll _ => inferInstanceAs (Decidable (¬ s.UnsubmittedBit))
  | .prepSlaveSg _ => starts _
  | .prepDmaCyclic _ => starts _
  | .issuePending _ => starts _
  | .interrupt _ _ => starts _
  | .freeChanResources => starts _
  | .allocChanResources _ => starts _
  | .tasklet => starts _
  | .callbackReturn => starts _
  | .device _ _ _ => starts _

/-! ## The invariant -/

/-- Bit, flag and queues are in step. -/
structure ModeInv (s : VxdmaSys cfg) : Prop where
  placed : Placed s.chan
  queued : s.chan.cyclic = true → true ∈ s.chan.marks ∨ s.chan.marks = []
  flagged : s.chan.cyclic = true → s.chan.cyclicBit = true
  bit : s.chan.cyclicBit = true → s.chan.cyclic = true ∨ ∃ d ∈ s.prepared, d.cyclic = true

/-- Only the marks, the flag, the bit and what is prepared matter. -/
theorem ModeInv.of_eq {s s' : VxdmaSys cfg} (hs : ModeInv s) (hmarks : s'.chan.marks = s.chan.marks)
    (hcyc : s'.chan.cyclic = s.chan.cyclic) (hbit : s'.chan.cyclicBit = s.chan.cyclicBit)
    (hprep : s.prepared ⊆ s'.prepared) : ModeInv s' := by
  refine ⟨hs.placed.of_eq hmarks hcyc, ?_, ?_, ?_⟩
  · rw [hcyc, hmarks]
    exact hs.queued
  · rw [hcyc, hbit]
    exact hs.flagged
  · rw [hcyc, hbit]
    intro hset
    rcases hs.bit hset with hflag | ⟨d, hd, hdcyc⟩
    · exact Or.inl hflag
    · exact Or.inr ⟨d, hprep hd, hdcyc⟩

/-- When something that is not cyclic leaves the queues at the front, all stays in step. -/
theorem ModeInv.of_front {s s' : VxdmaSys cfg} {l : List Bool} (hs : ModeInv s) (hl : true ∉ l)
    (hmarks : s.chan.marks = l ++ s'.chan.marks) (hcyc : s'.chan.cyclic = s.chan.cyclic)
    (hbit : s'.chan.cyclicBit = s.chan.cyclicBit) (hprep : s'.prepared = s.prepared) :
    ModeInv s' := by
  refine ⟨(hs.placed.of_front hl hmarks hcyc).1, ?_, ?_, ?_⟩
  · rw [hcyc]
    intro hflag
    rcases hs.queued hflag with hmem | hnil
    · left
      rw [hmarks, List.mem_append] at hmem
      exact hmem.resolve_left hl
    · right
      rw [hmarks] at hnil
      exact (List.append_eq_nil_iff.mp hnil).2
  · rw [hcyc, hbit]
    exact hs.flagged
  · rw [hcyc, hbit, hprep]
    exact hs.bit

/-- With nothing queued, the flag may be on or off. -/
theorem ModeInv.of_empty {s : VxdmaSys cfg} (hmarks : s.chan.marks = [])
    (hflagged : s.chan.cyclic = true → s.chan.cyclicBit = true)
    (hbit : s.chan.cyclicBit = true → s.chan.cyclic = true ∨ ∃ d ∈ s.prepared, d.cyclic = true) :
    ModeInv s := by
  refine ⟨⟨?_, ?_⟩, fun _ => Or.inr hmarks, hflagged, hbit⟩
  · rw [hmarks]
    exact List.not_mem_nil
  · rw [hmarks]
    exact fun hmem => absurd hmem List.not_mem_nil

/-- A state that is in step has the bit on a channel not marked only for a prepared descriptor. -/
theorem ModeInv.unsubmittedBit_iff {s : VxdmaSys cfg} (hs : ModeInv s) :
    s.UnsubmittedBit ↔ s.chan.cyclic = false ∧ s.chan.cyclicBit = true := by
  constructor
  · rintro ⟨hcyc, hbit, -⟩
    exact ⟨hcyc, hbit⟩
  · rintro ⟨hcyc, hbit⟩
    refine ⟨hcyc, hbit, ?_⟩
    rcases hs.bit hbit with hflag | hprep
    · rw [hcyc] at hflag
      cases hflag
    · exact hprep

/-! ## One action -/

/-- What is not erased stays in a list. -/
theorem mem_eraseIdx_of_ne {α : Type} {l : List α} {i : Nat} {a b : α} (ha : l[i]? = some a)
    (hb : b ∈ l) (hne : b ≠ a) : b ∈ l.eraseIdx i := by
  obtain ⟨hi, rfl⟩ := List.getElem?_eq_some_iff.mp ha
  have hmem := (List.getElem_cons_eraseIdx_perm hi).mem_iff.mpr hb
  exact (List.mem_cons.mp hmem).resolve_left hne

/-- A submit that gets to its locked section keeps all in step. -/
theorem submitQueue_modeInv {s : VxdmaSys cfg} {i : Nat} {callback : Option Nat} {env : ResetEnv}
    {d : XilinxDmaTxDescriptor cfg} {w : List Event} (hs : ModeInv s) (hbug : s.chan.bug = false)
    (hd : s.prepared[i]? = some d) (hcyc : s.chan.cyclic = false)
    (hok : s.chan.err = true → env.ok = true) (hstep : s.SubmitInStep i env d)
    {chan : XilinxDmaChan cfg}
    (hchan : chan = (submitLocked { d with callback := callback }
      (resetFor s.chan (s.submitCtrl env) w)).1)
    (hend : chan.bug = false) :
    ModeInv { s with chan := chan, prepared := s.prepared.eraseIdx i } := by
  have hnone : true ∉ s.chan.marks := by
    intro hmem
    rw [hs.placed.marked hmem] at hcyc
    cases hcyc
  have hbefore : (resetFor s.chan (s.submitCtrl env) w).bug = false := hbug
  have hroom : (resetFor s.chan (s.submitCtrl env) w).descPendingcount < xilinxDmaCoalesceMax := by
    by_contra hfull
    rw [hchan, submitLocked_bug _ (by omega)] at hend
    cases hend
  have hmarks : chan.marks = s.chan.marks ++ [d.cyclic] := by
    rw [hchan]
    exact submitLocked_marks _ hbefore
  rw [submitLocked_queued _ hbefore hroom] at hchan
  have hflag : chan.cyclic = d.cyclic := by
    rw [hchan]
    simp [resetFor, hcyc]
  have hbit : chan.cyclicBit = hasBits (s.submitCtrl env) xilinxDmaCrCyclicBdEnMask := by
    rw [hchan]
    rfl
  have hmem : true ∈ chan.marks → d.cyclic = true := by
    rw [hmarks]
    intro h
    simpa [hnone] using h
  refine ⟨⟨?_, ?_⟩, ?_, ?_, ?_⟩
  · rw [hmarks]
    exact cyclicLast_concat.mpr hnone
  · rw [hflag]
    exact hmem
  · rw [hflag, hmarks]
    intro hd
    left
    simp [hd]
  · rw [hflag, hbit]
    exact fun hd => hstep.accepted hd hok
  · rw [hflag, hbit]
    intro hset
    cases hdcyc : d.cyclic with
    | true => exact Or.inl rfl
    | false =>
      right
      cases herr : s.chan.err with
      | true =>
        rw [submitCtrl, if_pos herr] at hset
        rcases hstep.reset herr hset with ⟨hd, -⟩ | hprep
        · rw [hdcyc] at hd
          cases hd
        · exact hprep
      | false =>
        rw [submitCtrl, if_neg (by simp [herr])] at hset
        rcases hs.bit hset with hflag | ⟨e, he, hecyc⟩
        · rw [hcyc] at hflag
          cases hflag
        · refine ⟨e, mem_eraseIdx_of_ne hd he ?_, hecyc⟩
          rintro rfl
          rw [hdcyc] at hecyc
          cases hecyc

/-- The marks and the flag are the same where an action starts the engine. -/
theorem startEntry_marks {s : VxdmaSys cfg} {op : Op cfg} {t : XilinxDmaChan cfg} {startOk : Bool}
    (h : s.startEntry op = some (t, startOk)) :
    t.marks = s.chan.marks ∧ t.cyclic = s.chan.cyclic := by
  rcases startEntry_cases h with ⟨-, rfl⟩ | ⟨status, -, -, rfl⟩
  · exact ⟨rfl, rfl⟩
  · have hack := (irqAck_sameHistory status s.chan).marks
    refine ⟨(irqComplete_marks _).trans hack, ?_⟩
    rw [irqComplete_eq, irqAck_eq]

/-- A start keeps all in step. -/
theorem start_modeInv {s s' : VxdmaSys cfg} {op : Op cfg} {t : XilinxDmaChan cfg} {startOk : Bool}
    (hs : ModeInv s) (hentry : s.startEntry op = some (t, startOk))
    (h : s.callStep op = some s') : ModeInv s' := by
  have ht := startEntry_marks hentry
  have hbit : t.cyclicBit = s.chan.cyclicBit := control_cyclicBit (startEntry_control hentry)
  obtain ⟨tasklet, rfl⟩ := callStep_start hentry h
  refine hs.of_eq ?_ ?_ ?_ (List.Subset.refl _)
  · exact (startTransfer_marks startOk t).trans ht.1
  · exact (startTransfer_cyclic startOk t).trans ht.2
  · exact (startTransfer_cyclicBit startOk t).trans hbit

/-- One guarded action keeps bit, flag and queues in step, unless it ends in a `BUG()`. -/
theorem callStep_modeInv {s s' : VxdmaSys cfg} {op : Op cfg} (hs : ModeInv s)
    (hok : s.ModeGuard op) (h : s.callStep op = some s') (hend : s'.chan.bug = false) :
    ModeInv s' := by
  obtain ⟨hbug, hstep⟩ := callStep_inv h
  cases hstep with
  | prepNull => exact hs.of_eq rfl rfl rfl (List.Subset.refl _)
  | prepDesc op chunks b d mem hentry hbuilt =>
    cases hcyc : b.cyclic with
    | false =>
      refine hs.of_eq rfl rfl ?_ (List.subset_append_left _ _)
      simp [XilinxDmaChan.cyclicBit, builtCtrl, hcyc]
    | true =>
      have hdcyc : d.cyclic = true := hbuilt.cyclic.trans hcyc
      have hset : hasBits (builtCtrl b s.chan) xilinxDmaCrCyclicBdEnMask = true := by
        simp only [builtCtrl, hcyc, if_true, hasBits, or_and_cancel]
        decide
      refine ⟨hs.placed.of_eq rfl rfl, hs.queued, fun _ => hset, fun _ => Or.inr ⟨d, ?_, hdcyc⟩⟩
      simp
  | submitRefused i callback env d hd hcyc =>
    refine ⟨hs.placed.of_eq rfl rfl, hs.queued, hs.flagged, fun _ => Or.inl hcyc⟩
  | submitFailed i callback env d w hd hcyc herr hfail =>
    refine ⟨hs.placed.of_eq rfl rfl, hs.queued, ?_, ?_⟩
    · intro hflag
      rw [hcyc] at hflag
      cases hflag
    · intro hset
      rcases (hok hcyc d hd).reset herr hset with ⟨-, hdone⟩ | hprep
      · rw [hfail] at hdone
        cases hdone
      · exact Or.inr hprep
  | submitQueue i callback env d c w hd hcyc hdone hw =>
    have hc : c = s.submitCtrl env := by
      have hlocked := congrArg Prod.fst (submitLocked_control { d with callback := callback }
        (s := resetFor s.chan c w) hbug)
      have hreg := hlocked.symm.trans (congrArg Prod.fst (callStep_txSubmit_control h))
      rw [submitCtrl]
      cases herr : s.chan.err <;> simpa [entersReset, hcyc, herr, resetFor, XilinxDmaChan.control]
        using hreg
    subst hc
    exact submitQueue_modeInv hs hbug hd hcyc hdone (hok hcyc d hd) rfl hend
  | issuePending startOk => exact start_modeInv hs rfl h
  | irqNone => exact hs
  | irqOther status =>
    refine hs.of_eq (irqAck_sameHistory status s.chan).marks ?_
      (control_cyclicBit (irqAck_control status s.chan)) (List.Subset.refl _)
    simp [taskletSchedule, irqAck_eq]
  | irqIoc status startOk hsome hioc =>
    have hentry : s.startEntry (.interrupt status startOk) =
        some (irqComplete (irqAck status s.chan), startOk) := by
      simp [startEntry, hsome, hioc]
    exact start_modeInv hs hentry h
  | terminateAll haltOk =>
    have hclear : (xilinxDmaTerminateAll haltOk s.chan).cyclicBit = false := by
      rw [terminateAll_cyclicBit]
      by_contra hset
      apply hok
      rw [hs.unsubmittedBit_iff]
      simpa using hset
    apply ModeInv.of_empty
    · exact terminateAll_marks haltOk s.chan
    · intro hflag
      rw [terminateAll_cyclic] at hflag
      cases hflag
    · intro hset
      rw [hclear] at hset
      cases hset
  | freeChanResources =>
    have hflag : (xilinxDmaFreeChanResources s.chan).cyclic = s.chan.cyclic := by
      simp [xilinxDmaFreeChanResources, dmaFreeCoherent, initFreeSegList, freeDescriptors_eq]
    have hbit := control_cyclicBit (freeChanResources_control s.chan)
    apply ModeInv.of_empty
    · exact freeDescriptors_marks s.chan
    · rw [hflag, hbit]
      exact hs.flagged
    · rw [hflag, hbit]
      exact hs.bit
  | allocChanResources zalloc =>
    cases zalloc with
    | none => exact hs.of_eq rfl rfl rfl (List.Subset.refl _)
    | some segP =>
      exact hs.of_eq rfl rfl (hasBits_or_irqAll _ (by decide)) (List.Subset.refl _)
  | tasklet =>
    obtain ⟨l, hl, hmarks⟩ := cleanup_marks { s.chan with tasklet := false }
    exact hs.of_front hl hmarks (cleanup_cyclic _) (control_cyclicBit (cleanup_control _)) rfl
  | callbackReturn =>
    obtain ⟨l, hl, hmarks⟩ := cleanupResume_marks s.cleanup s.chan
    exact hs.of_front hl hmarks (cleanupResume_cyclic _ _)
      (control_cyclicBit (cleanupResume_control _ _)) rfl
  | device => exact hs.of_eq rfl rfl rfl (List.Subset.refl _)

/-! ## Runs -/

/-- The cyclic bit says whether a batch has a cyclic descriptor. -/
def BitMatches (t : XilinxDmaChan cfg) (v : BitVec 32) : Prop :=
  hasBits v xilinxDmaCrCyclicBdEnMask = true ↔ ∃ d ∈ t.pendingList, d.cyclic = true

instance (t : XilinxDmaChan cfg) : DecidablePred (BitMatches t) := fun _ =>
  inferInstanceAs (Decidable (_ ↔ _))

/-- What an action has to do with the bit: the engine is made to go with the bit of its batch, and
a terminate clears it. -/
structure BitAgrees (s : VxdmaSys cfg) (op : Op cfg) (s' : VxdmaSys cfg) : Prop where
  starts : ∀ t startOk, s.startEntry op = some (t, startOk) → AtGoWrites (BitMatches t) startOk t
  terminated : ∀ haltOk, op = .terminateAll haltOk →
    hasBits s'.chan.ctrlReg xilinxDmaCrCyclicBdEnMask = false

/-- When all is in step, a batch that is started has a cyclic descriptor just when the flag is
set. -/
theorem ModeInv.batch_iff {s : VxdmaSys cfg} {op : Op cfg} {t : XilinxDmaChan cfg} {startOk : Bool}
    (hs : ModeInv s) (hentry : s.startEntry op = some (t, startOk)) (hstart : canStart t = true) :
    (∃ d ∈ t.pendingList, d.cyclic = true) ↔ s.chan.cyclic = true := by
  have hmarks := (startEntry_marks hentry).1
  have hsplit : t.marks = (t.doneList ++ t.activeList).map XilinxDmaTxDescriptor.cyclic ++
      t.pendingList.map XilinxDmaTxDescriptor.cyclic := by
    simp [XilinxDmaChan.marks, XilinxDmaChan.queues]
  have hne : t.pendingList.map XilinxDmaTxDescriptor.cyclic ≠ [] := by
    simpa using ((canStart_iff t).mp hstart).2.1
  have hbatch : (∃ d ∈ t.pendingList, d.cyclic = true) ↔
      true ∈ t.pendingList.map XilinxDmaTxDescriptor.cyclic := by
    simp
  rw [hbatch]
  constructor
  · intro hmem
    apply hs.placed.marked
    rw [← hmarks, hsplit]
    exact List.mem_append_right _ hmem
  · intro hflag
    rcases hs.queued hflag with hmem | hnil
    · -- a cyclic descriptor ahead of the batch would not be the last one
      rw [← hmarks, hsplit] at hmem
      rcases List.mem_append.mp hmem with hahead | hbatch
      · have hlast := hs.placed.last
        rw [← hmarks, hsplit, CyclicLast, List.dropLast_append_of_ne_nil hne] at hlast
        exact absurd (List.mem_append_left _ hahead) hlast
      · exact hbatch
    · rw [← hmarks, hsplit] at hnil
      exact absurd (List.append_eq_nil_iff.mp hnil).2 hne

/-- When all is in step, a start that goes through has the right bit just when the bit is not that
of a descriptor which was not submitted. -/
theorem ModeInv.start_bit_iff {s : VxdmaSys cfg} {op : Op cfg} {t : XilinxDmaChan cfg}
    {startOk : Bool} (hs : ModeInv s) (hentry : s.startEntry op = some (t, startOk)) :
    AtGoWrites (BitMatches t) startOk t ↔
      (canStart t = true → startOk = true → ¬ s.UnsubmittedBit) := by
  have hbit : hasBits (startCtrl t) xilinxDmaCrCyclicBdEnMask = s.chan.cyclicBit :=
    (hasBits_startCtrl t).trans (control_cyclicBit (startEntry_control hentry))
  rw [atGoWrites_iff]
  refine forall_congr' fun hstart => forall_congr' fun _ => ?_
  rw [BitMatches, hbit, hs.batch_iff hentry hstart, hs.unsubmittedBit_iff]
  have hflagged := hs.flagged
  cases hcyc : s.chan.cyclic with
  | false => simp
  | true => simpa using hflagged hcyc

/-- When all is in step, so does a terminate. -/
theorem ModeInv.terminate_bit_iff {s : VxdmaSys cfg} (hs : ModeInv s) (haltOk : Bool) :
    (xilinxDmaTerminateAll haltOk s.chan).cyclicBit = false ↔ ¬ s.UnsubmittedBit := by
  rw [terminateAll_cyclicBit, hs.unsubmittedBit_iff]
  cases s.chan.cyclic <;> cases s.chan.cyclicBit <;> simp

/-- **The cyclic mode agrees with the queue.** In every run from a probe that found the cyclic bit
clear, in which no batch is started and nothing is terminated with the bit of a descriptor that was
not submitted, and submits are in step with the bit: the engine is made to go with the cyclic bit
just when its batch has a cyclic descriptor, and `xilinx_dma_terminate_all` leaves the bit clear. -/
theorem cyclic_mode {hasSg : Bool} {ctrlOffset : Nat} {dmacr : BitVec 32} {s s' : VxdmaSys cfg}
    {op : Op cfg} (hprobe : hasBits dmacr xilinxDmaCrCyclicBdEnMask = false)
    (h : Reachable callStep ModeGuard (probed hasSg ctrlOffset dmacr) s) (hok : s.ModeGuard op)
    (hstep : s.callStep op = some s') : BitAgrees s op s' := by
  let Inv : VxdmaSys cfg → Prop := fun s => s.chan.bug = false → ModeInv s
  have hinv : Inv s := by
    refine h.invariant ?_ ?_
    · intro _
      have hbit : (probed hasSg ctrlOffset dmacr : VxdmaSys cfg).chan.cyclicBit = false := hprobe
      apply ModeInv.of_empty
      · rfl
      · intro hflag
        cases hflag
      · intro hset
        rw [hbit] at hset
        cases hset
    · intro t op t' hs hok hstep hend
      exact callStep_modeInv (hs (callStep_inv hstep).1) hok hstep hend
  have hs : ModeInv s := hinv (callStep_inv hstep).1
  refine ⟨fun t startOk hentry => ?_, fun haltOk hop => ?_⟩
  · rw [hs.start_bit_iff hentry]
    intro hstart hdone
    rcases startEntry_cases hentry with ⟨rfl, -⟩ | ⟨status, rfl, -, -⟩
    · exact hok (t, startOk) hentry hstart hdone
    · exact hok (t, startOk) hentry hstart hdone
  · subst hop
    rw [callStep_terminateAll hstep]
    exact (hs.terminate_bit_iff haltOk).mpr hok

/-- A cyclic descriptor is submitted behind an ordinary one. -/
def cyclicQueued : List (Op .addr32) :=
  [.allocChanResources (some 0), .prepSlaveSg ⟨[⟨0, 1⟩], .memToDev, none, true⟩,
    .prepDmaCyclic ⟨0, 1, 1, .memToDev, true⟩, .txSubmit 0 none ⟨0, true⟩,
    .txSubmit 0 none ⟨0, true⟩]

/-- A cyclic descriptor waits and is started. -/
theorem cyclic_mode_cyclicQueued :
    ∃ s s', exec callStep (probed true 0 0) cyclicQueued = some s ∧ canStart s.chan = true ∧
      s.callStep (.issuePending true) = some s' ∧ BitAgrees s (.issuePending true) s' := by
  have hexec : ((exec callStep (probed true 0 0) cyclicQueued).bind fun s =>
      (s.callStep (.issuePending true)).map fun _ =>
        (canStart s.chan, decide (s.ModeGuard (.issuePending true)))) = some (true, true) := by
    decide +kernel
  obtain ⟨s, hs, hexec⟩ := Option.bind_eq_some_iff.mp hexec
  obtain ⟨s', hs', hend⟩ := Option.map_eq_some_iff.mp hexec
  simp only [Prod.mk.injEq, decide_eq_true_eq] at hend
  have hrun : Reachable callStep ModeGuard (probed true 0 0) s :=
    Reachable.of_exec (by decide +kernel) hs
  exact ⟨s, s', hs, hend.1, hs', cyclic_mode (by decide) hrun hend.2 hs'⟩

/-- A cyclic descriptor is prepared and not submitted, and an ordinary one is. -/
def cyclicNotSubmitted : List (Op .addr32) :=
  [.prepDmaCyclic ⟨0, 1, 1, .memToDev, true⟩, .prepSlaveSg ⟨[⟨0, 1⟩], .memToDev, none, true⟩,
    .txSubmit 1 none ⟨0, true⟩]

/-- The ordinary one is started in cyclic mode, and a terminate leaves it in that mode. -/
theorem cyclic_mode_disagrees :
    ∃ s s₁ s₂ : VxdmaSys .addr32, Reachable callStep always (allocated true 0 0 0) s ∧
      s.callStep (.issuePending true) = some s₁ ∧ ¬ BitAgrees s (.issuePending true) s₁ ∧
      s.callStep (.terminateAll true) = some s₂ ∧ ¬ BitAgrees s (.terminateAll true) s₂ := by
  have hexec : ((exec callStep (allocated true 0 0 0) cyclicNotSubmitted).bind fun s =>
      (s.callStep (.issuePending true)).bind fun _ => (s.callStep (.terminateAll true)).map fun s₂ =>
        (decide (AtGoWrites (BitMatches s.chan) true s.chan),
          hasBits s₂.chan.ctrlReg xilinxDmaCrCyclicBdEnMask)) = some (false, true) := by
    decide +kernel
  obtain ⟨s, hs, hexec⟩ := Option.bind_eq_some_iff.mp hexec
  obtain ⟨s₁, hs₁, hexec⟩ := Option.bind_eq_some_iff.mp hexec
  obtain ⟨s₂, hs₂, hend⟩ := Option.map_eq_some_iff.mp hexec
  simp only [Prod.mk.injEq, decide_eq_false_iff_not] at hend
  have hrun : Reachable callStep always (allocated true 0 0 0) s :=
    Reachable.of_exec (Reachable.execOk_of_forall fun _ _ _ => trivial) hs
  refine ⟨s, s₁, s₂, hrun, hs₁, ?_, hs₂, ?_⟩
  · intro hagrees
    exact hend.1 (hagrees.starts s.chan true rfl)
  · intro hagrees
    have hclear := hagrees.terminated true rfl
    rw [hend.2] at hclear
    cases hclear

end VxdmaSys

end PetalinuxDriver
