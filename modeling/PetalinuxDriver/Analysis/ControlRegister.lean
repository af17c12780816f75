import PetalinuxDriver.Analysis.Queues

/-!
# The control register and its shadow

`ctrl_reg` shadows the control register of the device. Every function that changes the shadow
writes the register right after, with one exception: a reset stores what it read, and writes that
with the reset bit added. `control` is the shadow together with the value last written, and each
function of the driver has one lemma about it.

A start writes the register before it hands the batch to the engine, so the value that the engine
runs the batch with is that of `startCtrl` (`atGoWrites_iff`).
-/

set_option autoImplicit false

namespace PetalinuxDriver

variable {cfg : PhysAddrConfig}

/-! ## The value last written -/

/-- What an event writes to the control register. -/
def Event.controlValue (ctrlOffset : Nat) : Event → Option (BitVec 32)
  | .iowrite32 offset value =>
    if offset = ctrlOffset + xilinxDmaRegControl then some value else none
  | _ => none

/-- The value last written to the control register. -/
def lastControl (ctrlOffset : Nat) (log : List Event) : Option (BitVec 32) :=
  (log.filterMap (Event.controlValue ctrlOffset)).getLast?

/-- The last write to the control register is the one that counts. -/
@[simp] theorem lastControl_concat (ctrlOffset : Nat) (log : List Event) (value : BitVec 32) :
    lastControl ctrlOffset
      (log ++ [.iowrite32 (ctrlOffset + xilinxDmaRegControl) value]) = some value := by
  simp [lastControl, Event.controlValue]

/-- Events that do not write the control register do not count. -/
theorem lastControl_append_quiet {ctrlOffset : Nat} (log : List Event) {w : List Event}
    (h : ∀ e ∈ w, e.controlValue ctrlOffset = none) :
    lastControl ctrlOffset (log ++ w) = lastControl ctrlOffset log := by
  have hnone : w.filterMap (Event.controlValue ctrlOffset) = [] := List.filterMap_eq_nil_iff.mpr h
  simp [lastControl, hnone]

/-- A write to another register. -/
theorem controlValue_iowrite32_of_ne {ctrlOffset reg : Nat} (value : BitVec 32)
    (h : reg ≠ xilinxDmaRegControl) :
    (Event.iowrite32 (ctrlOffset + reg) value).controlValue ctrlOffset = none := by
  simpa [Event.controlValue] using h

/-- The write of an address into another register. -/
theorem controlValue_addrWrite {ctrlOffset reg n : Nat} (value : BitVec n)
    (h : reg ≠ xilinxDmaRegControl) :
    (addrWrite cfg (ctrlOffset + reg) value).controlValue ctrlOffset = none := by
  cases cfg with
  | addr32 => exact controlValue_iowrite32_of_ne _ h
  | addr64 => rfl

/-! ## Shadow and register -/

/-- The shadow and the value last written. -/
def XilinxDmaChan.control (s : XilinxDmaChan cfg) : BitVec 32 × Option (BitVec 32) :=
  (s.ctrlReg, lastControl s.ctrlOffset s.log)

/-- A step that leaves `ctrl_reg` and does not write the register leaves both. -/
theorem control_of_quiet {s t : XilinxDmaChan cfg} {w : List Event}
    (hreg : t.ctrlReg = s.ctrlReg) (hoffset : t.ctrlOffset = s.ctrlOffset)
    (hlog : t.log = s.log ++ w) (hw : ∀ e ∈ w, e.controlValue s.ctrlOffset = none) :
    t.control = s.control := by
  rw [XilinxDmaChan.control, hreg, hoffset, hlog, lastControl_append_quiet s.log hw]
  rfl

/-- A freed descriptor leaves the control register. -/
theorem freeTxDescriptor_control (s : XilinxDmaChan cfg) (segments : List SegPtr) :
    (xilinxDmaFreeTxDescriptor s segments).control = s.control := by
  rw [freeTxDescriptor_eq]
  rfl

/-- Freed lists leave the control register. -/
theorem freeDescriptors_control (s : XilinxDmaChan cfg) :
    (xilinxDmaFreeDescriptors s).control = s.control := by
  rw [freeDescriptors_eq]
  refine control_of_quiet rfl rfl rfl ?_
  intro e he
  obtain ⟨d, -, rfl⟩ := List.mem_map.mp he
  rfl

/-- A release leaves the control register. -/
theorem freeChanResources_control (s : XilinxDmaChan cfg) :
    (xilinxDmaFreeChanResources s).control = s.control := freeDescriptors_control s

/-- The acknowledgement writes the status register only. -/
theorem irqAck_control (status : BitVec 32) (s : XilinxDmaChan cfg) :
    (irqAck status s).control = s.control := by
  rw [irqAck_eq]
  refine control_of_quiet rfl rfl rfl ?_
  intro e he
  rw [List.mem_singleton.mp he]
  exact controlValue_iowrite32_of_ne _ (by decide)

/-- The completion leaves the control register. -/
theorem irqComplete_control (s : XilinxDmaChan cfg) : (irqComplete s).control = s.control := by
  rw [irqComplete_eq]
  refine control_of_quiet rfl rfl rfl ?_
  intro e he
  rcases mem_completeEvents he with rfl | ⟨d, -, rfl⟩
  · rfl
  · rfl

/-- A cleanup leaves the control register. -/
theorem cleanup_control (s : XilinxDmaChan cfg) :
    (xilinxDmaChanDescCleanup s).1.control = s.control := by
  obtain ⟨freed, rest, -, -, hcases⟩ := cleanupLoop_cases s.doneList s rfl
  have hcallback : ∀ (t : XilinxDmaChan cfg) (id : Nat),
      (t.emit (.callback id)).control = t.control := by
    intro t id
    refine control_of_quiet rfl rfl rfl ?_
    intro e he
    rw [List.mem_singleton.mp he]
    rfl
  unfold xilinxDmaChanDescCleanup
  rcases hcases with ⟨-, h⟩ | ⟨d, tl, -, -, -, h⟩ | ⟨d, tl, -, -, h⟩ | ⟨d, tl, -, -, h⟩ <;> rw [h]
  · rfl
  · rfl
  · exact hcallback _ _
  · exact hcallback _ _

/-- The rest of a cleanup leaves the control register. -/
theorem cleanupResume_control (pc : CleanupPc cfg) (s : XilinxDmaChan cfg) :
    (cleanupResume pc s).1.control = s.control := by
  cases pc with
  | idle => rfl
  | cyclicCallback => rfl
  | callback d => rw [cleanupResume, cleanup_control, freeTxDescriptor_control]

/-- An allocation enables the interrupts. -/
theorem allocChanResources_control (segP : DmaAddr cfg) (s : XilinxDmaChan cfg) :
    (xilinxDmaAllocChanResources (some segP) s).1.control =
      (s.ctrlReg ||| xilinxDmaXrIrqAllMask, some (s.ctrlReg ||| xilinxDmaXrIrqAllMask)) := by
  simp [xilinxDmaAllocChanResources, XilinxDmaChan.control, XilinxDmaChan.dmaCtrlWrite,
    XilinxDmaChan.emit]

/-- A halt clears the run bit. -/
theorem halt_control (haltOk : Bool) (s : XilinxDmaChan cfg) :
    (xilinxDmaHalt haltOk s).control =
      (s.ctrlReg &&& ~~~xilinxDmaCrRunstopMask, some (s.ctrlReg &&& ~~~xilinxDmaCrRunstopMask)) := by
  rw [halt_eq]
  simp [XilinxDmaChan.control]

/-- The end of a terminate clears the cyclic bit. -/
theorem clearCyclic_control (s : XilinxDmaChan cfg) :
    (clearCyclic s).control = (s.ctrlReg &&& ~~~xilinxDmaCrCyclicBdEnMask,
      some (s.ctrlReg &&& ~~~xilinxDmaCrCyclicBdEnMask)) := by
  rw [clearCyclic_eq]
  simp [XilinxDmaChan.control]

/-- What `xilinx_dma_terminate_all` leaves in the control register. -/
def haltCtrl (s : XilinxDmaChan cfg) : BitVec 32 :=
  let v := s.ctrlReg &&& ~~~xilinxDmaCrRunstopMask
  if s.cyclic then v &&& ~~~xilinxDmaCrCyclicBdEnMask else v

/-- A terminate clears the run bit and the cyclic bit. -/
theorem terminateAll_control (haltOk : Bool) (s : XilinxDmaChan cfg) :
    (xilinxDmaTerminateAll haltOk s).control = (haltCtrl s, some (haltCtrl s)) := by
  have hfree := freeDescriptors_control (xilinxDmaHalt haltOk s)
  rw [halt_control] at hfree
  have hreg : (xilinxDmaFreeDescriptors (xilinxDmaHalt haltOk s)).ctrlReg =
      s.ctrlReg &&& ~~~xilinxDmaCrRunstopMask := congrArg Prod.fst hfree
  have hcyc : (xilinxDmaFreeDescriptors (xilinxDmaHalt haltOk s)).cyclic = s.cyclic := by
    rw [freeDescriptors_eq, halt_eq]
  unfold xilinxDmaTerminateAll haltCtrl
  simp only [hcyc]
  split
  · rw [clearCyclic_control, hreg]
  · exact hfree

/-- A reset writes its bit, and imports what it reads afterwards. -/
theorem chanReset_control (env : ResetEnv) (s : XilinxDmaChan cfg) :
    (xilinxDmaChanReset env s).1.control =
      (env.dmacr, some (env.dmacr ||| xilinxDmaCrResetMask)) := by
  cases hok : env.ok with
  | true =>
    rw [chanReset_ok env hok]
    simp [XilinxDmaChan.control]
  | false =>
    rw [chanReset_failed env hok]
    simp [XilinxDmaChan.control]

/-- The locked part of a submit leaves the control register. -/
theorem submitLocked_control (d : XilinxDmaTxDescriptor cfg) {s : XilinxDmaChan cfg}
    (hbug : s.bug = false) : (submitLocked d s).1.control = s.control := by
  by_cases h : s.descPendingcount < xilinxDmaCoalesceMax
  · rw [submitLocked_queued d hbug h]
    refine control_of_quiet rfl rfl rfl ?_
    intro e he
    rw [List.mem_singleton.mp he]
    rfl
  · rw [submitLocked_bug d (by omega)]
    refine control_of_quiet rfl rfl rfl ?_
    intro e he
    rcases List.mem_cons.mp he with rfl | he
    · rfl
    · rw [List.mem_singleton.mp he]
      rfl

/-- The submit gets as far as a reset of the channel. -/
def entersReset (s : XilinxDmaChan cfg) : Bool := !s.cyclic && s.err

/-- A submit writes the control register when it resets, and only then. -/
theorem txSubmit_control (env : ResetEnv) (d : XilinxDmaTxDescriptor cfg) {s : XilinxDmaChan cfg}
    (hbug : s.bug = false) :
    (xilinxDmaTxSubmit env d s).1.control =
      if entersReset s then (env.dmacr, some (env.dmacr ||| xilinxDmaCrResetMask))
      else s.control := by
  unfold xilinxDmaTxSubmit entersReset
  cases hcyc : s.cyclic with
  | true => simp [freeTxDescriptor_control]
  | false =>
    cases herr : s.err with
    | false => simp [submitLocked_control d hbug]
    | true =>
      have hreset := chanReset_control env s
      cases hok : env.ok with
      | false =>
        rw [chanReset_failed env hok] at hreset ⊢
        simpa using hreset
      | true =>
        rw [chanReset_ok env hok] at hreset ⊢
        simp only [Bool.not_false, Bool.and_self, if_true, Bool.false_eq_true, if_false]
        refine Eq.trans (submitLocked_control d ?_) hreset
        exact hbug

/-! ## The start of a batch -/

/-- The last control write of a start is that of the run bit. -/
theorem lastControl_startEvents (log : List Event) (s : XilinxDmaChan cfg)
    (headDesc : XilinxDmaTxDescriptor cfg) :
    lastControl s.ctrlOffset (log ++ startEvents s headDesc) = some (startCtrl s) := by
  rw [startEvents, ← List.append_assoc]
  exact lastControl_concat _ _ _

/-- What makes the engine go writes other registers. -/
theorem goEvents_quiet (s : XilinxDmaChan cfg) (headDesc tailDesc : XilinxDmaTxDescriptor cfg) :
    ∀ e ∈ goEvents s headDesc tailDesc, e.controlValue s.ctrlOffset = none := by
  intro e he
  unfold goEvents at he
  split at he
  · rw [List.mem_singleton.mp he]
    exact controlValue_addrWrite _ (by decide)
  · rcases List.mem_cons.mp he with rfl | he
    · exact controlValue_addrWrite _ (by decide)
    · rw [List.mem_singleton.mp he]
      exact controlValue_iowrite32_of_ne _ (by decide)

/-- A start that gets past its guards leaves the value that it starts the engine with. -/
theorem startTransfer_control (startOk : Bool) (s : XilinxDmaChan cfg) :
    (xilinxDmaStartTransfer startOk s).control =
      if canStart s then (startCtrl s, some (startCtrl s)) else s.control := by
  cases hstart : canStart s with
  | false =>
    rw [startTransfer_blocked startOk hstart]
    rfl
  | true =>
    obtain ⟨headDesc, rest, hp⟩ := List.exists_cons_of_ne_nil ((canStart_iff s).mp hstart).2.1
    cases startOk with
    | false =>
      rw [startTransfer_timeout hp hstart]
      simp [XilinxDmaChan.control, lastControl_startEvents]
    | true =>
      rw [startTransfer_started hp hstart]
      simp only [XilinxDmaChan.control]
      rw [lastControl_append_quiet _ (goEvents_quiet s headDesc _), lastControl_startEvents]
      rfl

/-- The event is the write that makes the engine go: of TAILDESC, or of BTT in simple mode. -/
def Event.isGoWrite (ctrlOffset : Nat) : Event → Bool
  | .iowrite32 offset _ =>
    offset == ctrlOffset + xilinxDmaRegTaildesc || offset == ctrlOffset + xilinxDmaRegBtt
  | .writeq offset _ =>
    offset == ctrlOffset + xilinxDmaRegTaildesc || offset == ctrlOffset + xilinxDmaRegBtt
  | _ => false

/-- An address makes the engine go when it is written to TAILDESC or, as a length, to BTT. -/
theorem addrWrite_isGoWrite {ctrlOffset reg n : Nat} (value : BitVec n) :
    (addrWrite cfg (ctrlOffset + reg) value).isGoWrite ctrlOffset =
      (reg == xilinxDmaRegTaildesc || reg == xilinxDmaRegBtt) := by
  have hoffset : ∀ r, (ctrlOffset + reg == ctrlOffset + r) = (reg == r) := by
    intro r
    rw [Bool.eq_iff_iff]
    simp
  cases cfg <;> simp only [addrWrite, Event.isGoWrite, hoffset]

/-- No write of `xilinx_dma_start` makes the engine go. -/
theorem startEvents_isGoWrite (s : XilinxDmaChan cfg) (headDesc : XilinxDmaTxDescriptor cfg) :
    ∀ e ∈ startEvents s headDesc, e.isGoWrite s.ctrlOffset = false := by
  have hcontrol : ∀ v, (Event.iowrite32 (s.ctrlOffset + xilinxDmaRegControl) v).isGoWrite
      s.ctrlOffset = false := by
    intro v
    simp [Event.isGoWrite, xilinxDmaRegControl, xilinxDmaRegTaildesc, xilinxDmaRegBtt]
  have hcurdesc : (addrWrite cfg (s.ctrlOffset + xilinxDmaRegCurdesc) headDesc.phys).isGoWrite
      s.ctrlOffset = false := by
    rw [addrWrite_isGoWrite]
    decide
  unfold startEvents
  split <;> split <;> simp [hcontrol, hcurdesc]

/-- The last write makes the engine go, after the others. -/
theorem goEvents_isGoWrite (s : XilinxDmaChan cfg)
    (headDesc tailDesc : XilinxDmaTxDescriptor cfg) :
    ∃ w e, goEvents s headDesc tailDesc = w ++ [e] ∧ e.isGoWrite s.ctrlOffset = true := by
  unfold goEvents
  split
  · refine ⟨[], _, rfl, ?_⟩
    rw [addrWrite_isGoWrite]
    decide
  · refine ⟨[_], _, rfl, ?_⟩
    simp [Event.isGoWrite]

/-- At each write of a start that makes the engine go, the control register holds a value of which
`P` is true. -/
def AtGoWrites (P : BitVec 32 → Prop) (startOk : Bool) (t : XilinxDmaChan cfg) : Prop :=
  ∀ w e w', (xilinxDmaStartTransfer startOk t).log = w ++ e :: w' → t.log <+: w →
    e.isGoWrite t.ctrlOffset = true → ∃ v, lastControl t.ctrlOffset w = some v ∧ P v

/-- **What the engine runs a batch with.** A start that goes through makes the engine go with
`startCtrl` in its control register; one that is held back or times out does not make it go. -/
theorem atGoWrites_iff {P : BitVec 32 → Prop} {startOk : Bool} {t : XilinxDmaChan cfg} :
    AtGoWrites P startOk t ↔ (canStart t = true → startOk = true → P (startCtrl t)) := by
  constructor
  · intro h hstart hok
    subst hok
    obtain ⟨headDesc, rest, hp⟩ := List.exists_cons_of_ne_nil ((canStart_iff t).mp hstart).2.1
    obtain ⟨w, e, hgo, he⟩ := goEvents_isGoWrite t headDesc
      ((headDesc :: rest).getLast (List.cons_ne_nil _ _))
    have hquiet : ∀ e ∈ w, e.controlValue t.ctrlOffset = none := by
      intro e' he'
      apply goEvents_quiet t headDesc ((headDesc :: rest).getLast (List.cons_ne_nil _ _))
      rw [hgo]
      exact List.mem_append_left _ he'
    obtain ⟨v, hv, hP⟩ := h (t.log ++ startEvents t headDesc ++ w) e [] (by
      rw [startTransfer_started hp hstart]
      simp [hgo]) (by simp [List.append_assoc]) he
    rw [lastControl_append_quiet _ hquiet, lastControl_startEvents] at hv
    cases hv
    exact hP
  · intro h w e w' hlog hw he
    obtain ⟨u, rfl⟩ := hw
    have hnone : ∀ l : List Event, (xilinxDmaStartTransfer startOk t).log = t.log ++ l →
        u ++ e :: w' = l := by
      intro l hl
      rw [hl, List.append_assoc] at hlog
      exact (List.append_cancel_left hlog).symm
    cases hstart : canStart t with
    | false =>
      have hnil := hnone [] (by rw [startTransfer_blocked startOk hstart, List.append_nil])
      simp at hnil
    | true =>
      obtain ⟨headDesc, rest, hp⟩ := List.exists_cons_of_ne_nil ((canStart_iff t).mp hstart).2.1
      have hnotStart : e ∉ startEvents t headDesc := by
        intro hmem
        rw [startEvents_isGoWrite t headDesc e hmem] at he
        cases he
      cases startOk with
      | false =>
        have hsplit := hnone _ (by rw [startTransfer_timeout hp hstart])
        refine absurd ?_ hnotStart
        rw [← hsplit]
        simp
      | true =>
        have hsplit := hnone _ (by rw [startTransfer_started hp hstart, List.append_assoc])
        -- the write is one of those after the start of the engine
        rcases List.append_eq_append_iff.mp hsplit with ⟨as, has, hrest⟩ | ⟨bs, hbs, hgo⟩
        · cases as with
          | nil =>
            rw [List.append_nil] at has
            rw [← has]
            exact ⟨_, lastControl_startEvents _ _ _, h hstart rfl⟩
          | cons a as =>
            obtain ⟨rfl, -⟩ := List.cons.inj hrest
            exact absurd (by rw [has]; simp) hnotStart
        · refine ⟨startCtrl t, ?_, h hstart rfl⟩
          rw [hbs, ← List.append_assoc, lastControl_append_quiet, lastControl_startEvents]
          intro b hb
          apply goEvents_quiet t headDesc ((headDesc :: rest).getLast (List.cons_ne_nil _ _))
          rw [hgo]
          exact List.mem_append_left _ hb

instance (P : BitVec 32 → Prop) [DecidablePred P] (startOk : Bool) (t : XilinxDmaChan cfg) :
    Decidable (AtGoWrites P startOk t) :=
  decidable_of_iff (canStart t = true → startOk = true → P (startCtrl t)) atGoWrites_iff.symm

/-! ## Bits -/

/-- `hasBits` looks at the masked bits only. -/
theorem hasBits_congr {v w mask : BitVec 32} (h : v &&& mask = w &&& mask) :
    hasBits v mask = hasBits w mask := by
  rw [hasBits, h, hasBits]

/-- What an allocation turns into the control register keeps the bits outside the interrupt
mask. -/
theorem hasBits_or_irqAll (v : BitVec 32) {mask : BitVec 32}
    (h : xilinxDmaXrIrqAllMask &&& mask = 0#32) :
    hasBits (v ||| xilinxDmaXrIrqAllMask) mask = hasBits v mask := by
  simp [hasBits, BitVec.and_or_distrib_right, h]

/-- Bits that were set are found. -/
theorem or_and_cancel (v mask : BitVec 32) : (v ||| mask) &&& mask = mask := by
  ext i hi
  simp only [BitVec.getElem_and, BitVec.getElem_or]
  cases mask[i] <;> simp

/-- Bits that were cleared are not. -/
theorem hasBits_and_not (v mask : BitVec 32) : hasBits (v &&& ~~~mask) mask = false := by
  simp [hasBits, BitVec.and_assoc]

/-- Clearing other bits changes nothing. -/
theorem hasBits_and_not_of_disjoint (v : BitVec 32) {mask mask' : BitVec 32}
    (h : ~~~mask' &&& mask = mask) : hasBits (v &&& ~~~mask') mask = hasBits v mask := by
  simp [hasBits, BitVec.and_assoc, h]

/-- The coalesce field lies above the bits that the driver tests. -/
theorem shifted_count_and (n : Nat) :
    (BitVec.ofNat 32 n <<< xilinxDmaCrCoalesceShift) &&& genmask 15 1 = 0#32 := by
  have hmask : ∀ i : Fin 32, 16 ≤ i.val → (genmask 15 1)[i.val] = false := by decide
  ext i hi
  by_cases hlow : i < 16
  · simp [xilinxDmaCrCoalesceShift, hlow]
  · simp [hmask ⟨i, hi⟩ (by simpa using hlow)]

/-- A start changes nothing but the coalesce field and the run bit. -/
theorem startCtrl_and {mask : BitVec 32} (h : genmask 15 1 &&& mask = mask)
    (s : XilinxDmaChan cfg) : startCtrl s &&& mask = s.ctrlReg &&& mask := by
  have hclear : ∀ v, (v &&& ~~~xilinxDmaCrCoalesceMax) &&& genmask 15 1 = v &&& genmask 15 1 := by
    intro v
    rw [BitVec.and_assoc]
    congr 1
  have hcoalesced : coalesced s &&& genmask 15 1 = s.ctrlReg &&& genmask 15 1 := by
    unfold coalesced
    split
    · rw [BitVec.and_or_distrib_right, shifted_count_and, hclear, BitVec.or_zero]
    · rfl
  have hrunstop : xilinxDmaCrRunstopMask &&& genmask 15 1 = 0#32 := by decide
  have hstart : startCtrl s &&& genmask 15 1 = s.ctrlReg &&& genmask 15 1 := by
    rw [startCtrl, BitVec.and_or_distrib_right, hcoalesced, hrunstop, BitVec.or_zero]
  calc startCtrl s &&& mask = (startCtrl s &&& genmask 15 1) &&& mask := by
        rw [BitVec.and_assoc, h]
    _ = (s.ctrlReg &&& genmask 15 1) &&& mask := by rw [hstart]
    _ = s.ctrlReg &&& mask := by rw [BitVec.and_assoc, h]

/-- A start has the run bit set. -/
theorem startCtrl_runstop (s : XilinxDmaChan cfg) :
    startCtrl s &&& xilinxDmaCrRunstopMask = xilinxDmaCrRunstopMask := by
  exact or_and_cancel (coalesced s) xilinxDmaCrRunstopMask

namespace VxdmaSys

/-! ## What an action does to the control register -/

/-- What a whole submit leaves. -/
theorem callStep_txSubmit {s s' : VxdmaSys cfg} {i : Nat} {callback : Option Nat} {env : ResetEnv}
    (h : s.callStep (.txSubmit i callback env) = some s') :
    ∃ d, s.prepared[i]? = some d ∧ s' = { s with
      chan := (xilinxDmaTxSubmit env { d with callback := callback } s.chan).1
      prepared := s.prepared.eraseIdx i } := by
  have hbug : s.chan.bug = false := (callStep_inv h).1
  simp only [callStep, hbug, Bool.false_eq_true, if_false] at h
  cases hd : s.prepared[i]? with
  | none => simp [hd] at h
  | some d =>
    simp only [hd, Option.some.injEq] at h
    exact ⟨d, rfl, h.symm⟩

/-- A submit writes the control register only to reset the channel. -/
theorem callStep_txSubmit_control {s s' : VxdmaSys cfg} {i : Nat} {callback : Option Nat}
    {env : ResetEnv} (h : s.callStep (.txSubmit i callback env) = some s') :
    s'.chan.control =
      if entersReset s.chan then (env.dmacr, some (env.dmacr ||| xilinxDmaCrResetMask))
      else s.chan.control := by
  obtain ⟨d, -, rfl⟩ := callStep_txSubmit h
  exact txSubmit_control env _ (callStep_inv h).1

/-- What an action writes to the control register, other than a reset. -/
inductive WritesControl (s : VxdmaSys cfg) : Op cfg → BitVec 32 → Prop
  | build (op : Op cfg) (chunks : List (Chunk cfg)) (b : TxBuild)
      (h : op.entry s.chan = some (.build chunks b)) (hcyc : b.cyclic = true) :
      WritesControl s op (s.chan.ctrlReg ||| xilinxDmaCrCyclicBdEnMask)
  | alloc (zalloc : Option (DmaAddr cfg)) :
      WritesControl s (.allocChanResources zalloc) (s.chan.ctrlReg ||| xilinxDmaXrIrqAllMask)
  | start (op : Op cfg) (t : XilinxDmaChan cfg) (startOk : Bool)
      (h : s.startEntry op = some (t, startOk)) (hstart : canStart t = true) :
      WritesControl s op (startCtrl t)
  | halt (haltOk : Bool) : WritesControl s (.terminateAll haltOk) (haltCtrl s.chan)

/-- The channel in which a start is entered has the control register of the state. -/
theorem startEntry_control {s : VxdmaSys cfg} {op : Op cfg} {t : XilinxDmaChan cfg}
    {startOk : Bool} (h : s.startEntry op = some (t, startOk)) :
    t.control = s.chan.control := by
  rcases startEntry_cases h with ⟨-, rfl⟩ | ⟨status, -, -, rfl⟩
  · rfl
  · rw [irqComplete_control, irqAck_control]

/-- **Shadow and register over one action**: both stay, or a write makes them equal, or a reset
stores what it read. -/
theorem callStep_control {s s' : VxdmaSys cfg} {op : Op cfg} (h : s.callStep op = some s') :
    s'.chan.control = s.chan.control ∨
    (∃ v, WritesControl s op v ∧ s'.chan.control = (v, some v)) ∨
    (∃ i callback env, op = .txSubmit i callback env ∧ entersReset s.chan = true ∧
      s'.chan.control = (env.dmacr, some (env.dmacr ||| xilinxDmaCrResetMask))) := by
  have hstart : ∀ {t startOk}, s.startEntry op = some (t, startOk) →
      s'.chan.control = s.chan.control ∨ ∃ v, WritesControl s op v ∧ s'.chan.control = (v, some v) := by
    intro t startOk hentry
    obtain ⟨tasklet, rfl⟩ := callStep_start hentry h
    have hcontrol := startTransfer_control startOk t
    cases hcan : canStart t with
    | false =>
      rw [hcan, startEntry_control hentry] at hcontrol
      exact Or.inl hcontrol
    | true =>
      rw [hcan] at hcontrol
      exact Or.inr ⟨_, .start op t startOk hentry hcan, hcontrol⟩
  have hsubmit : ∀ i callback env, op = .txSubmit i callback env →
      s'.chan.control = s.chan.control ∨ (entersReset s.chan = true ∧
        s'.chan.control = (env.dmacr, some (env.dmacr ||| xilinxDmaCrResetMask))) := by
    rintro i callback env rfl
    have hcontrol := callStep_txSubmit_control h
    cases hreset : entersReset s.chan with
    | false =>
      rw [hreset] at hcontrol
      exact Or.inl hcontrol
    | true =>
      rw [hreset] at hcontrol
      exact Or.inr ⟨rfl, hcontrol⟩
  have hstep := (callStep_inv h).2
  cases hstep with
  | prepNull => exact Or.inl rfl
  | prepDesc op chunks b d mem hentry =>
    cases hcyc : b.cyclic with
    | false =>
      left
      simp [XilinxDmaChan.control, builtCtrl, builtEvents, hcyc]
    | true =>
      refine Or.inr (Or.inl ⟨_, .build op chunks b hentry hcyc, ?_⟩)
      simp [XilinxDmaChan.control, builtCtrl, builtEvents, hcyc]
  | submitRefused => exact Or.inl rfl
  | submitFailed i callback env =>
    rcases hsubmit i callback env rfl with hsame | hreset
    · exact Or.inl hsame
    · exact Or.inr (Or.inr ⟨i, callback, env, rfl, hreset⟩)
  | submitQueue i callback env =>
    rcases hsubmit i callback env rfl with hsame | hreset
    · exact Or.inl hsame
    · exact Or.inr (Or.inr ⟨i, callback, env, rfl, hreset⟩)
  | issuePending startOk =>
    rcases hstart rfl with hsame | hwrite
    · exact Or.inl hsame
    · exact Or.inr (Or.inl hwrite)
  | irqNone => exact Or.inl rfl
  | irqOther status => exact Or.inl (irqAck_control status s.chan)
  | irqIoc status startOk hsome hioc =>
    have hentry : s.startEntry (.interrupt status startOk) =
        some (irqComplete (irqAck status s.chan), startOk) := by
      simp [startEntry, hsome, hioc]
    rcases hstart hentry with hsame | hwrite
    · exact Or.inl hsame
    · exact Or.inr (Or.inl hwrite)
  | terminateAll haltOk =>
    exact Or.inr (Or.inl ⟨_, .halt haltOk, terminateAll_control haltOk s.chan⟩)
  | freeChanResources => exact Or.inl (freeChanResources_control s.chan)
  | allocChanResources zalloc =>
    cases zalloc with
    | none => exact Or.inl rfl
    | some segP =>
      exact Or.inr (Or.inl ⟨_, .alloc (some segP), allocChanResources_control segP s.chan⟩)
  | tasklet => exact Or.inl (cleanup_control _)
  | callbackReturn => exact Or.inl (cleanupResume_control _ _)
  | device => exact Or.inl rfl

end VxdmaSys

end PetalinuxDriver
