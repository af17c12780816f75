import PetalinuxDriver.Analysis.ControlRegister

/-!
# What a batch is started with

A batch completes by an interrupt, so the control register has to enable the interrupts when the
engine goes, and must not reset it. `xilinx_dma_alloc_chan_resources` turns the interrupts on once,
and every later write derives from `ctrl_reg`, except that a reset takes `ctrl_reg` from the
device. What the device shows at that moment depends on its history (`DmacrAllowed`): while a reset
is pending its bit reads 1, and after one has finished the interrupts are off.

In a run in which every reset reads back a value that was written last and was not itself a reset,
each batch is started sanely (`sane_at_starts`).
-/

set_option autoImplicit false

namespace PetalinuxDriver

open Library

variable {cfg : PhysAddrConfig}

/-- The engine runs and can interrupt: all interrupts are enabled, the run bit is set and the reset
bit is clear. -/
structure SaneControl (v : BitVec 32) : Prop where
  irqs : v &&& xilinxDmaXrIrqAllMask = xilinxDmaXrIrqAllMask
  runstop : v &&& xilinxDmaCrRunstopMask = xilinxDmaCrRunstopMask
  reset : v &&& xilinxDmaCrResetMask = 0#32

instance : DecidablePred SaneControl := fun v =>
  decidable_of_iff (v &&& xilinxDmaXrIrqAllMask = xilinxDmaXrIrqAllMask ∧
    v &&& xilinxDmaCrRunstopMask = xilinxDmaCrRunstopMask ∧ v &&& xilinxDmaCrResetMask = 0#32)
    ⟨fun h => ⟨h.1, h.2.1, h.2.2⟩, fun h => ⟨h.irqs, h.runstop, h.reset⟩⟩

/-! ## The device -/

/-- What a reset that has finished leaves in the control register. -/
structure PowerOnDefault (v : BitVec 32) : Prop where
  irqs : v &&& xilinxDmaXrIrqAllMask = 0#32
  runstop : v &&& xilinxDmaCrRunstopMask = 0#32
  reset : v &&& xilinxDmaCrResetMask = 0#32

instance : DecidablePred PowerOnDefault := fun v =>
  decidable_of_iff (v &&& xilinxDmaXrIrqAllMask = 0#32 ∧
    v &&& xilinxDmaCrRunstopMask = 0#32 ∧ v &&& xilinxDmaCrResetMask = 0#32)
    ⟨fun h => ⟨h.1, h.2.1, h.2.2⟩, fun h => ⟨h.irqs, h.runstop, h.reset⟩⟩

/-- The values that the control register may show, from the value that was written last. `stale`
says that the poll of a reset has timed out and no reset has succeeded since: then the reset may
still be pending, or it may have finished in the meantime. -/
def DmacrAllowed (stale : Bool) (last : Option (BitVec 32)) (v : BitVec 32) : Prop :=
  match last with
  | none => True
  | some w =>
    if stale then v = w ∨ v = w ||| xilinxDmaCrResetMask ∨ PowerOnDefault v
    else if hasBits w xilinxDmaCrResetMask then PowerOnDefault v
    else v = w

instance (stale : Bool) (last : Option (BitVec 32)) (v : BitVec 32) :
    Decidable (DmacrAllowed stale last v) := by
  cases last <;> unfold DmacrAllowed <;> infer_instance

/-! ## The invariant -/

/-- The bits that have to be right. -/
def soundMask : BitVec 32 := xilinxDmaXrIrqAllMask ||| xilinxDmaCrResetMask

/-- The interrupts are enabled and the reset bit is clear. -/
def SoundCtrl (v : BitVec 32) : Prop := v &&& soundMask = xilinxDmaXrIrqAllMask

/-- A sound value enables the interrupts. -/
theorem SoundCtrl.irqs {v : BitVec 32} (h : SoundCtrl v) :
    v &&& xilinxDmaXrIrqAllMask = xilinxDmaXrIrqAllMask := by
  have hmask : soundMask &&& xilinxDmaXrIrqAllMask = xilinxDmaXrIrqAllMask := by decide
  calc v &&& xilinxDmaXrIrqAllMask = (v &&& soundMask) &&& xilinxDmaXrIrqAllMask := by
        rw [BitVec.and_assoc, hmask]
    _ = xilinxDmaXrIrqAllMask := by rw [h, BitVec.and_self]

/-- A sound value has no reset bit. -/
theorem SoundCtrl.reset {v : BitVec 32} (h : SoundCtrl v) : v &&& xilinxDmaCrResetMask = 0#32 := by
  have hmask : soundMask &&& xilinxDmaCrResetMask = xilinxDmaCrResetMask := by decide
  calc v &&& xilinxDmaCrResetMask = (v &&& soundMask) &&& xilinxDmaCrResetMask := by
        rw [BitVec.and_assoc, hmask]
    _ = 0#32 := by
        rw [h]
        decide

/-- Clearing bits that do not matter keeps a value sound. -/
theorem SoundCtrl.and_not {v m : BitVec 32} (h : SoundCtrl v) (hm : ~~~m &&& soundMask = soundMask) :
    SoundCtrl (v &&& ~~~m) := by
  rw [SoundCtrl, BitVec.and_assoc, hm]
  exact h

/-- Setting bits that do not matter keeps a value sound. -/
theorem SoundCtrl.or {v m : BitVec 32} (h : SoundCtrl v)
    (hm : xilinxDmaXrIrqAllMask ||| (m &&& soundMask) = xilinxDmaXrIrqAllMask) :
    SoundCtrl (v ||| m) := by
  rw [SoundCtrl, BitVec.and_or_distrib_right, h]
  exact hm

/-- What a start writes is sound. -/
theorem SoundCtrl.startCtrl {s : XilinxDmaChan cfg} (h : SoundCtrl s.ctrlReg) :
    SoundCtrl (startCtrl s) := by
  have hmask : genmask 15 1 &&& soundMask = soundMask := by decide
  rw [SoundCtrl, startCtrl_and hmask]
  exact h

/-- What a terminate writes is sound. -/
theorem SoundCtrl.haltCtrl {s : XilinxDmaChan cfg} (h : SoundCtrl s.ctrlReg) :
    SoundCtrl (haltCtrl s) := by
  have hhalt : SoundCtrl (s.ctrlReg &&& ~~~xilinxDmaCrRunstopMask) := h.and_not (by decide)
  unfold PetalinuxDriver.haltCtrl
  split
  · exact hhalt.and_not (by decide)
  · exact hhalt

/-- The two conditions make a value sound. -/
theorem soundCtrl_of_bits {v : BitVec 32}
    (hirqs : v &&& xilinxDmaXrIrqAllMask = xilinxDmaXrIrqAllMask)
    (hreset : v &&& xilinxDmaCrResetMask = 0#32) : SoundCtrl v := by
  rw [SoundCtrl, soundMask, BitVec.and_or_distrib_left, hirqs, hreset, BitVec.or_zero]

/-- A start is sane exactly when the shadow is sound. -/
theorem sane_startCtrl_iff {s : XilinxDmaChan cfg} :
    SaneControl (startCtrl s) ↔ SoundCtrl s.ctrlReg := by
  constructor
  · intro h
    apply soundCtrl_of_bits
    · rw [← startCtrl_and (by decide)]
      exact h.irqs
    · rw [← startCtrl_and (by decide)]
      exact h.reset
  · intro h
    exact ⟨h.startCtrl.irqs, startCtrl_runstop s, h.startCtrl.reset⟩

/-- The reset bit that was written is there. -/
theorem or_reset_ne_zero (v : BitVec 32) :
    (v ||| xilinxDmaCrResetMask) &&& xilinxDmaCrResetMask ≠ 0#32 := by
  rw [or_and_cancel]
  decide

/-- The shadow is sound, and what was written last is the shadow, or the shadow in a reset. -/
structure ControlSound (c : BitVec 32 × Option (BitVec 32)) : Prop where
  shadow : SoundCtrl c.1
  last : c.2 = some c.1 ∨ c.2 = some (c.1 ||| xilinxDmaCrResetMask)

namespace VxdmaSys

/-- A reset reads back the value that was written last, and that was not a reset. -/
def ReadsBack (s : VxdmaSys cfg) (op : Op cfg) : Prop :=
  match op with
  | .txSubmit _ _ env => entersReset s.chan = true →
    lastControl s.chan.ctrlOffset s.chan.log = some env.dmacr ∧
      env.dmacr &&& xilinxDmaCrResetMask = 0#32
  | _ => True

instance (s : VxdmaSys cfg) (op : Op cfg) : Decidable (s.ReadsBack op) := by
  cases op <;> unfold ReadsBack <;> infer_instance

/-- Whatever is written outside a reset is sound when the shadow was. -/
theorem WritesControl.sound {s : VxdmaSys cfg} {op : Op cfg} {v : BitVec 32}
    (h : s.WritesControl op v) (hs : SoundCtrl s.chan.ctrlReg) : SoundCtrl v := by
  cases h with
  | build => exact hs.or (by decide)
  | alloc => exact hs.or (by decide)
  | start _ t startOk hentry =>
    have hreg : t.ctrlReg = s.chan.ctrlReg := congrArg Prod.fst (startEntry_control hentry)
    apply SoundCtrl.startCtrl
    rw [hreg]
    exact hs
  | halt => exact hs.haltCtrl

/-- One action keeps shadow and register sound, if a reset in it reads back what was written. -/
theorem callStep_controlSound {s s' : VxdmaSys cfg} {op : Op cfg} (hs : ControlSound s.chan.control)
    (hok : s.ReadsBack op) (h : s.callStep op = some s') : ControlSound s'.chan.control := by
  rcases callStep_control h with hsame | ⟨v, hv, hwrite⟩ | ⟨i, callback, env, rfl, hreset, hread⟩
  · rw [hsame]
    exact hs
  · rw [hwrite]
    exact ⟨hv.sound hs.shadow, Or.inl rfl⟩
  · -- what was written last is not a reset, so it is the shadow
    obtain ⟨hlast, hclear⟩ := hok hreset
    have hshadow : env.dmacr = s.chan.ctrlReg := by
      rcases hs.last with hvalue | hvalue
      · exact Option.some.inj (hlast.symm.trans hvalue)
      · have hdmacr : env.dmacr = s.chan.ctrlReg ||| xilinxDmaCrResetMask :=
          Option.some.inj (hlast.symm.trans hvalue)
        have hset := or_reset_ne_zero s.chan.ctrlReg
        rw [← hdmacr] at hset
        exact absurd hclear hset
    rw [hread, hshadow]
    exact ⟨hs.shadow, Or.inr rfl⟩

/-- The register is sound after the first allocation. -/
theorem allocated_controlSound (hasSg : Bool) (ctrlOffset : Nat) {dmacr : BitVec 32}
    (segP : DmaAddr cfg) (hprobe : dmacr &&& xilinxDmaCrResetMask = 0#32) :
    ControlSound (allocated hasSg ctrlOffset dmacr segP).chan.control := by
  have hcontrol : (allocated hasSg ctrlOffset dmacr segP).chan.control =
      (dmacr ||| xilinxDmaXrIrqAllMask, some (dmacr ||| xilinxDmaXrIrqAllMask)) :=
    allocChanResources_control segP (probedChan hasSg ctrlOffset dmacr)
  rw [hcontrol]
  refine ⟨?_, Or.inl rfl⟩
  apply soundCtrl_of_bits
  · exact or_and_cancel dmacr xilinxDmaXrIrqAllMask
  · rw [BitVec.and_or_distrib_right, hprobe]
    decide

/-- **The control register at the start of a batch.** In every run from an allocation on a channel
that was not probed in the middle of a reset, in which every reset reads back a value that was
written last and was not itself a reset: whenever the engine is made to go, the last value written
to the control register has all interrupts enabled, the run bit set and the reset bit clear. -/
theorem sane_at_starts {hasSg : Bool} {ctrlOffset : Nat} {dmacr : BitVec 32} {segP : DmaAddr cfg}
    {s : VxdmaSys cfg} (hprobe : dmacr &&& xilinxDmaCrResetMask = 0#32)
    (h : Reachable callStep ReadsBack (allocated hasSg ctrlOffset dmacr segP) s) {op : Op cfg}
    {t : XilinxDmaChan cfg} {startOk : Bool} (hentry : s.startEntry op = some (t, startOk)) :
    AtGoWrites SaneControl startOk t := by
  let Inv : VxdmaSys cfg → Prop := fun s => ControlSound s.chan.control
  have hinv : Inv s := h.invariant (allocated_controlSound hasSg ctrlOffset segP hprobe)
    fun _ _ _ hs hok hstep => callStep_controlSound hs hok hstep
  have hreg : t.ctrlReg = s.chan.ctrlReg := congrArg Prod.fst (startEntry_control hentry)
  have hsound : SoundCtrl t.ctrlReg := by
    rw [hreg]
    exact hinv.shadow
  rw [atGoWrites_iff]
  exact fun _ _ => sane_startCtrl_iff.mpr hsound

/-- An error before the first start, and a submit that resets the channel. -/
def resetBeforeStart : List (Op .addr32) :=
  [.prepSlaveSg ⟨[⟨0, 1⟩], .memToDev, none, true⟩, .interrupt xilinxDmaXrIrqErrorMask true,
    .txSubmit 0 none ⟨xilinxDmaXrIrqAllMask, true⟩]

/-- A submit resets the channel before the start. -/
theorem sane_at_starts_resetBeforeStart :
    ∃ s, exec callStep (allocated true 0 0 0) resetBeforeStart = some s ∧
      canStart s.chan = true ∧ AtGoWrites SaneControl true s.chan := by
  have hexec : (exec callStep (allocated true 0 0 0) resetBeforeStart).map
      (fun s => canStart s.chan) = some true := by
    decide +kernel
  obtain ⟨s, hs, hstart⟩ := Option.map_eq_some_iff.mp hexec
  have hrun : Reachable callStep ReadsBack (allocated true 0 0 0) s :=
    Reachable.of_exec (by decide +kernel) hs
  have hentry : s.startEntry (.issuePending true) = some (s.chan, true) := rfl
  exact ⟨s, hs, hstart, sane_at_starts (by decide) hrun hentry⟩

/-! ## What the device may answer -/

/-- Whether a reset that was entered may still be pending: its poll has timed out and none has
succeeded since. -/
def staleReset (stale : Bool) (s : VxdmaSys cfg) (op : Op cfg) (_ : VxdmaSys cfg) : Bool :=
  match op with
  | .txSubmit _ _ env => if entersReset s.chan then !env.ok else stale
  | _ => stale

/-- The device shows a reset a value that its history allows. -/
def DeviceAllows (sg : VxdmaSys cfg × Bool) (op : Op cfg) : Prop :=
  match op with
  | .txSubmit _ _ env => entersReset sg.1.chan = true →
    DmacrAllowed sg.2 (lastControl sg.1.chan.ctrlOffset sg.1.chan.log) env.dmacr
  | _ => True

instance (sg : VxdmaSys cfg × Bool) (op : Op cfg) : Decidable (DeviceAllows sg op) := by
  cases op <;> unfold DeviceAllows <;> infer_instance

/-- Of all values that the device may show, a reset takes over a sound one just when it reads back
what was written last and that was not a reset. -/
theorem reset_sound_iff {s : XilinxDmaChan cfg} (hs : ControlSound s.control) {stale : Bool}
    {v : BitVec 32} (hv : DmacrAllowed stale (lastControl s.ctrlOffset s.log) v) :
    SoundCtrl v ↔ lastControl s.ctrlOffset s.log = some v ∧ v &&& xilinxDmaCrResetMask = 0#32 := by
  have hdefault : PowerOnDefault v → ¬ SoundCtrl v := by
    intro hdef hsound
    have hirqs := hsound.irqs
    rw [hdef.irqs] at hirqs
    exact absurd hirqs (by decide)
  have hpending : ∀ w, v = w ||| xilinxDmaCrResetMask → ¬ SoundCtrl v := by
    rintro w rfl hsound
    exact or_reset_ne_zero w hsound.reset
  constructor
  · intro hsound
    refine ⟨?_, hsound.reset⟩
    cases hw : lastControl s.ctrlOffset s.log with
    | none =>
      rcases hs.last with hlast | hlast <;> rw [XilinxDmaChan.control, hw] at hlast <;> cases hlast
    | some w =>
      rw [hw] at hv
      simp only [DmacrAllowed] at hv
      split at hv
      · rcases hv with rfl | hset | hdef
        · rfl
        · exact absurd hsound (hpending w hset)
        · exact absurd hsound (hdefault hdef)
      · split at hv
        · exact absurd hsound (hdefault hv)
        · rw [hv]
  · rintro ⟨hlast, hclear⟩
    rcases hs.last with hvalue | hvalue
    · have hshadow : v = s.ctrlReg := Option.some.inj (hlast.symm.trans hvalue)
      rw [hshadow]
      exact hs.shadow
    · have hset : v = s.ctrlReg ||| xilinxDmaCrResetMask :=
        Option.some.inj (hlast.symm.trans hvalue)
      rw [hset] at hclear
      exact absurd hclear (or_reset_ne_zero _)

/-- The reset of a submit times out, and has finished when the next submit resets again. -/
def lateReset : List (Op .addr32) :=
  [.prepSlaveSg ⟨[⟨0, 1⟩], .memToDev, none, true⟩, .prepSlaveSg ⟨[⟨0, 1⟩], .memToDev, none, true⟩,
    .interrupt xilinxDmaXrIrqErrorMask true, .txSubmit 0 none ⟨xilinxDmaXrIrqAllMask, false⟩,
    .txSubmit 0 none ⟨0x00010002, true⟩]

/-- The batch after it is started without interrupts. -/
theorem not_sane_at_starts :
    ¬ ∀ (s : VxdmaSys .addr32) (stale : Bool),
      Reachable (withGhost callStep staleReset) DeviceAllows (allocated true 0 0 0, false)
        (s, stale) →
      ∀ op t startOk, s.startEntry op = some (t, startOk) → AtGoWrites SaneControl startOk t := by
  intro hclaim
  have hexec : (exec (withGhost callStep staleReset) (allocated true 0 0 0, false) lateReset).map
      (fun sg => decide (AtGoWrites SaneControl true sg.1.chan)) = some false := by
    decide +kernel
  obtain ⟨⟨s, stale⟩, hs, hgo⟩ := Option.map_eq_some_iff.mp hexec
  have hrun : Reachable (withGhost callStep staleReset) DeviceAllows
      (allocated true 0 0 0, false) (s, stale) := Reachable.of_exec (by decide +kernel) hs
  have hsane := hclaim s stale hrun (.issuePending true) s.chan true rfl
  exact absurd hsane (of_decide_eq_false hgo)

end VxdmaSys

end PetalinuxDriver
