import PetalinuxDriver.Analysis.ChannelTags
import PetalinuxDriver.Analysis.EngineChain

/-!
# The register windows of the channels

The channels of a device share one range of registers, and each one adds its own offset to whatever
it accesses. `chanRegisters` are the registers behind that offset. Every write of a channel, in
every run, is a write of one of them as a whole (`inWindow_of_reachable`), in the 32-bit build as
well as in the 64-bit build with its wider writes. The window ends before the offset of the other
direction, so the two channels of a device never write to the same byte (`channels_apart`).
-/

set_option autoImplicit false

namespace PetalinuxDriver

open Library

variable {cfg : PhysAddrConfig}

/-! ## Registers -/

/-- Where an event writes, and how many bytes. -/
def Event.access : Event → Option (Nat × Nat)
  | .iowrite32 offset _ => some (offset, 4)
  | .writeq offset _ => some (offset, 8)
  | _ => none

/-- The registers of a channel that the driver writes, with their sizes. -/
def chanRegisters (cfg : PhysAddrConfig) : List (Nat × Nat) :=
  [(xilinxDmaRegControl, 4), (xilinxDmaRegStatus, 4), (xilinxDmaRegCurdesc, cfg.width / 8),
    (xilinxDmaRegTaildesc, cfg.width / 8), (xilinxDmaRegSrcdstaddr, cfg.width / 8),
    (xilinxDmaRegBtt, 4)]

/-- If the event is a write, it is one of a whole register of the channel at this offset. -/
def Event.InWindow (cfg : PhysAddrConfig) (ctrlOffset : Nat) (e : Event) : Prop :=
  ∀ x ∈ e.access, ∃ r ∈ chanRegisters cfg, x = (ctrlOffset + r.1, r.2)

/-- The events write to different bytes. -/
def Event.Apart (e e' : Event) : Prop :=
  ∀ x ∈ e.access, ∀ y ∈ e'.access, x.1 + x.2 ≤ y.1 ∨ y.1 + y.2 ≤ x.1

/-- A word written to a register of the channel is in its window. -/
theorem iowrite32_inWindow {reg : Nat} (h : (reg, 4) ∈ chanRegisters cfg) (ctrlOffset : Nat)
    (value : BitVec 32) : (Event.iowrite32 (ctrlOffset + reg) value).InWindow cfg ctrlOffset := by
  intro x hx
  cases hx
  exact ⟨(reg, 4), h, rfl⟩

/-- An address written to a register of the channel is in its window. -/
theorem addrWrite_inWindow {n reg : Nat} (h : (reg, cfg.width / 8) ∈ chanRegisters cfg)
    (ctrlOffset : Nat) (value : BitVec n) :
    (addrWrite cfg (ctrlOffset + reg) value).InWindow cfg ctrlOffset := by
  intro x hx
  cases cfg with
  | addr32 =>
    cases hx
    exact ⟨(reg, 4), h, rfl⟩
  | addr64 =>
    cases hx
    exact ⟨(reg, 8), h, rfl⟩

/-- The control register is in the window. -/
theorem control_inWindow (ctrlOffset : Nat) (value : BitVec 32) :
    (Event.iowrite32 (ctrlOffset + xilinxDmaRegControl) value).InWindow cfg ctrlOffset :=
  iowrite32_inWindow (by simp [chanRegisters]) ctrlOffset value

/-- A control write is in the window. -/
theorem inWindow_of_isControlWrite {ctrlOffset : Nat} {e : Event}
    (h : e.isControlWrite ctrlOffset = true) : e.InWindow cfg ctrlOffset := by
  cases e with
  | iowrite32 offset value =>
    simp only [Event.isControlWrite, beq_iff_eq] at h
    rw [h]
    exact control_inWindow ctrlOffset value
  | _ => cases h

/-- What is no write has no place to be in. -/
theorem inWindow_of_not_isBusWrite {ctrlOffset : Nat} {e : Event} (h : e.isBusWrite = false) :
    e.InWindow cfg ctrlOffset := by
  cases e with
  | iowrite32 => cases h
  | writeq => cases h
  | _ =>
    intro x hx
    cases hx

/-- Every register lies before the offset of the other direction. -/
theorem chanRegisters_end : ∀ r ∈ chanRegisters cfg, r.1 + r.2 ≤ xilinxDmaS2mmCtrlOffset := by
  cases cfg <;> decide

/-- Writes in the windows of the two directions are apart. -/
theorem inWindow_apart {e e' : Event} (h : e.InWindow cfg xilinxDmaMm2sCtrlOffset)
    (h' : e'.InWindow cfg xilinxDmaS2mmCtrlOffset) : e.Apart e' := by
  intro x hx y hy
  obtain ⟨r, hr, rfl⟩ := h x hx
  obtain ⟨r', -, rfl⟩ := h' y hy
  have hend := chanRegisters_end r hr
  left
  simp only [xilinxDmaMm2sCtrlOffset]
  omega

/-- Two writes are apart from each other. -/
theorem Event.Apart.symm {e e' : Event} (h : e.Apart e') : e'.Apart e :=
  fun y hy x hx => (h x hx y hy).symm

/-! ## What the driver writes -/

/-- The channel stays at its offset, and what was written is in its window. -/
structure WritesOwn (s t : XilinxDmaChan cfg) : Prop where
  ctrlOffset : t.ctrlOffset = s.ctrlOffset
  log : ∃ w, t.log = s.log ++ w ∧ ∀ e ∈ w, e.InWindow cfg s.ctrlOffset

/-- What leaves the log writes nothing. -/
theorem WritesOwn.of_log_eq {s t : XilinxDmaChan cfg} (hoffset : t.ctrlOffset = s.ctrlOffset)
    (hlog : t.log = s.log) : WritesOwn s t :=
  ⟨hoffset, [], by rw [hlog, List.append_nil], by simp⟩

/-- Two steps in the window are one. -/
theorem WritesOwn.trans {s t u : XilinxDmaChan cfg} (h : WritesOwn s t) (h' : WritesOwn t u) :
    WritesOwn s u := by
  obtain ⟨w, hlog, hw⟩ := h.log
  obtain ⟨w', hlog', hw'⟩ := h'.log
  refine ⟨h'.ctrlOffset.trans h.ctrlOffset, w ++ w', ?_, ?_⟩
  · rw [hlog', hlog, List.append_assoc]
  · intro e he
    rcases List.mem_append.mp he with he | he
    · exact hw e he
    · rw [← h.ctrlOffset]
      exact hw' e he

/-- A start writes registers of the channel. -/
theorem startEvents_inWindow (s : XilinxDmaChan cfg) (headDesc : XilinxDmaTxDescriptor cfg) :
    ∀ e ∈ startEvents s headDesc, e.InWindow cfg s.ctrlOffset := by
  intro e he
  simp only [startEvents, List.mem_append, List.mem_singleton] at he
  rcases he with (he | he) | rfl
  · split at he
    · rw [List.mem_singleton.mp he]
      exact control_inWindow _ _
    · cases he
  · split at he
    · rw [List.mem_singleton.mp he]
      exact addrWrite_inWindow (by simp [chanRegisters]) _ _
    · cases he
  · exact control_inWindow _ _

/-- What makes the engine go writes registers of the channel. -/
theorem goEvents_inWindow (s : XilinxDmaChan cfg) (headDesc tailDesc : XilinxDmaTxDescriptor cfg) :
    ∀ e ∈ goEvents s headDesc tailDesc, e.InWindow cfg s.ctrlOffset := by
  intro e he
  unfold goEvents at he
  split at he
  · rw [List.mem_singleton.mp he]
    exact addrWrite_inWindow (by simp [chanRegisters]) _ _
  · simp only [List.mem_cons, List.not_mem_nil, or_false] at he
    rcases he with rfl | rfl
    · exact addrWrite_inWindow (by simp [chanRegisters]) _ _
    · exact iowrite32_inWindow (by simp [chanRegisters]) _ _

/-- `xilinx_dma_start_transfer` keeps to the window. -/
theorem startTransfer_writesOwn (startOk : Bool) (s : XilinxDmaChan cfg) :
    WritesOwn s (xilinxDmaStartTransfer startOk s) := by
  cases hstart : canStart s with
  | false =>
    rw [startTransfer_blocked startOk hstart]
    exact .of_log_eq rfl rfl
  | true =>
    obtain ⟨-, hne, -⟩ := (canStart_iff s).mp hstart
    obtain ⟨headDesc, rest, hp⟩ := List.exists_cons_of_ne_nil hne
    cases startOk with
    | false =>
      rw [startTransfer_timeout hp hstart]
      exact ⟨rfl, _, rfl, startEvents_inWindow s headDesc⟩
    | true =>
      rw [startTransfer_started hp hstart]
      refine ⟨rfl, _, List.append_assoc _ _ _, ?_⟩
      intro e he
      rcases List.mem_append.mp he with he | he
      · exact startEvents_inWindow s headDesc e he
      · exact goEvents_inWindow s headDesc _ e he

namespace VxdmaSys

/-- What one section writes. -/
theorem Section.writesOwn {env : CallEnv} {s t : XilinxDmaChan cfg} {c : Call cfg}
    {after : After cfg} (h : Section env s c t after) : WritesOwn s t := by
  have hcontrol : ∀ {t : XilinxDmaChan cfg} {w : List Event}, t.ctrlOffset = s.ctrlOffset →
      t.log = s.log ++ w → (∀ e ∈ w, e.isControlWrite s.ctrlOffset = true) → WritesOwn s t :=
    fun hoffset hlog hw => ⟨hoffset, _, hlog, fun e he => inWindow_of_isControlWrite (hw e he)⟩
  have hquiet : ∀ {t : XilinxDmaChan cfg} {w : List Event}, t.ctrlOffset = s.ctrlOffset →
      t.log = s.log ++ w → (∀ e ∈ w, e.isBusWrite = false) → WritesOwn s t :=
    fun hoffset hlog hw => ⟨hoffset, _, hlog, fun e he => inWindow_of_not_isBusWrite (hw e he)⟩
  have hack : WritesOwn s (irqAck env.status s) := by
    rw [irqAck_eq]
    refine ⟨rfl, _, rfl, ?_⟩
    intro e he
    rw [List.mem_singleton.mp he]
    exact iowrite32_inWindow (by simp [chanRegisters]) _ _
  have hdrop : WritesOwn s (xilinxDmaFreeDescriptors s) := by
    rw [freeDescriptors_eq]
    refine hquiet rfl rfl ?_
    intro e he
    obtain ⟨d, -, rfl⟩ := List.mem_map.mp he
    rfl
  cases h with
  | buildDone b => exact hcontrol rfl rfl (builtEvents_isControlWrite b s)
  | buildError =>
    rw [freeTxDescriptor_eq]
    exact .of_log_eq rfl rfl
  | submitRefused =>
    rw [freeTxDescriptor_eq]
    exact .of_log_eq rfl rfl
  | resetOk d w hok hw => exact hcontrol rfl rfl hw
  | resetFailed d w hok hw => exact hcontrol rfl rfl hw
  | queued d =>
    exact hquiet (w := [.cookieAssign d.id (nextCookie s)]) rfl rfl
      (by simp [Event.isBusWrite])
  | queuedBug d =>
    exact hquiet (w := [.cookieAssign d.id (nextCookie s), .bug]) rfl rfl
      (by simp [Event.isBusWrite])
  | issue => exact startTransfer_writesOwn env.startOk s
  | irqIoc => exact hack
  | irqOther => exact hack
  | irqLock =>
    have hcomplete : WritesOwn s (irqComplete s) := by
      rw [irqComplete_eq]
      refine hquiet rfl rfl ?_
      intro e he
      rcases mem_completeEvents he with rfl | ⟨d, -, rfl⟩ <;> rfl
    exact hcomplete.trans (startTransfer_writesOwn env.startOk _)
  | terminate =>
    rw [halt_eq]
    exact hcontrol rfl rfl (by simp)
  | terminateFree => exact hdrop
  | freeChan => exact hdrop
  | terminateClear =>
    rw [clearCyclic_eq]
    exact hcontrol rfl rfl (by simp)
  | _ => exact .of_log_eq rfl rfl

/-- A cleanup writes no register. -/
theorem cleanup_writesOwn (s : XilinxDmaChan cfg) : WritesOwn s (xilinxDmaChanDescCleanup s).1 := by
  obtain ⟨w, hlog, hw⟩ := cleanup_events s
  refine ⟨(cleanup_samePool s).ctrlOffset, w, hlog, ?_⟩
  intro e he
  obtain ⟨id, rfl⟩ := hw e he
  exact inWindow_of_not_isBusWrite rfl

/-- **What one action writes** is in the window of the channel. -/
theorem sectionStep_writesOwn {s s' : VxdmaSys cfg} {a : Act cfg}
    (h : s.sectionStep a = some s') : WritesOwn s.chan s'.chan := by
  obtain ⟨hbug, hstep⟩ := sectionStep_inv h
  cases hstep with
  | run i env c s' hc hleave =>
    rw [leave_chan hleave]
    exact (run_inv env hbug c).writesOwn
  | allocChanResources zalloc =>
    cases zalloc with
    | none => exact .of_log_eq rfl rfl
    | some segP =>
      refine ⟨rfl, _, rfl, ?_⟩
      intro e he
      rw [List.mem_singleton.mp he]
      exact control_inWindow _ _
  | tasklet =>
    have hclean := cleanup_writesOwn { s.chan with tasklet := false }
    exact ⟨hclean.ctrlOffset, hclean.log⟩
  | callbackReturn =>
    cases hpc : s.cleanup with
    | idle => exact .of_log_eq rfl rfl
    | cyclicCallback => exact .of_log_eq rfl rfl
    | callback d =>
      refine WritesOwn.trans ?_ (cleanup_writesOwn (xilinxDmaFreeTxDescriptor s.chan d.segments))
      rw [freeTxDescriptor_eq]
      exact .of_log_eq rfl rfl
  | _ => exact .of_log_eq rfl rfl

/-- A channel that was probed and that nobody uses. -/
def ofProbed (c : ProbedChannel cfg) : VxdmaSys cfg where
  chan := c.chan
  prepared := []
  cleanup := .idle
  calls := []

/-- **Every write is in the window**, whatever the callers do. -/
theorem inWindow_of_reachable {c : ProbedChannel cfg} {s : VxdmaSys cfg}
    (hprobed : ∀ e ∈ c.chan.log, e.InWindow cfg c.chan.ctrlOffset)
    (h : Reachable sectionStep always (ofProbed c) s) :
    ∀ e ∈ s.chan.log, e.InWindow cfg c.chan.ctrlOffset := by
  let Inv : VxdmaSys cfg → Prop := fun s => s.chan.ctrlOffset = c.chan.ctrlOffset ∧
    ∀ e ∈ s.chan.log, e.InWindow cfg c.chan.ctrlOffset
  have hinv : Inv s := by
    refine h.invariant ⟨rfl, hprobed⟩ ?_
    rintro s a s' ⟨hoffset, hlog⟩ - hstep
    obtain ⟨hkept, w, hw, hown⟩ := sectionStep_writesOwn hstep
    refine ⟨hkept.trans hoffset, ?_⟩
    intro e he
    rw [hw] at he
    rcases List.mem_append.mp he with he | he
    · exact hlog e he
    · rw [← hoffset]
      exact hown e he
  exact hinv.2

end VxdmaSys

/-! ## The channels of a device -/

/-- The offset of a probed channel is that of its direction, and its reset wrote to its window. -/
theorem ProbedChannel.ProbedFrom.window {c : ProbedChannel cfg} {node : ChannelNode}
    (h : c.ProbedFrom node) :
    (c.direction = .memToDev ∧ c.chan.ctrlOffset = xilinxDmaMm2sCtrlOffset ∨
      c.direction = .devToMem ∧ c.chan.ctrlOffset = xilinxDmaS2mmCtrlOffset) ∧
      ∀ e ∈ c.chan.log, e.InWindow cfg c.chan.ctrlOffset := by
  obtain ⟨xdev, xdev', hprobe, hallocs⟩ := h
  have hnone : (xilinxDmaChanProbe node xdev).2 = none := by rw [hprobe]
  obtain ⟨low, value, id, ctrlOffset, direction, deviceId, -, hkind, -, hsetup⟩ :=
    chanProbe_setup hnone
  rw [hprobe] at hsetup
  -- the part from the reset on succeeded
  have hdone : c.chan.ctrlOffset = ctrlOffset ∧ c.direction = direction ∧
      ∀ e ∈ c.chan.log, e.InWindow cfg ctrlOffset := by
    unfold setupChan at hsetup
    cases hreset : node.reset.ok with
    | false =>
      rw [chanReset_failed node.reset hreset] at hsetup
      cases hsetup
    | true =>
      rw [chanReset_ok node.reset hreset] at hsetup
      cases hirq : node.requestIrq with
      | some err =>
        rw [hirq] at hsetup
        cases hsetup
      | none =>
        rw [hirq] at hsetup
        have hadded := congrArg XilinxDmaDevice.allocs (congrArg Prod.fst hsetup)
        simp only [XilinxDmaDevice.storeChan_allocs] at hadded
        have hlast := List.append_cancel_left (hallocs.symm.trans hadded)
        obtain rfl := List.singleton_inj.mp hlast
        refine ⟨rfl, rfl, ?_⟩
        intro e he
        simp only [kzallocChan, List.nil_append, List.mem_singleton] at he
        rw [he]
        exact control_inWindow ctrlOffset _
  obtain ⟨hoffset, hdirection, hlog⟩ := hdone
  refine ⟨?_, hoffset ▸ hlog⟩
  rw [hoffset, hdirection]
  unfold ChannelNode.kind at hkind
  split at hkind
  · cases hkind
    exact Or.inl ⟨rfl, rfl⟩
  · split at hkind
    · cases hkind
      exact Or.inr ⟨rfl, rfl⟩
    · cases hkind

/-- **The channels of a device keep apart.** Whatever the clients of two channels of different
directions do, and however their calls interleave: each channel only writes whole registers of its
own window, and no byte of a register is written by both. -/
theorem channels_apart {node : DeviceNode} {xdev : XilinxDmaDevice cfg}
    (hprobe : xilinxDmaProbe node = (xdev, none)) {c c' : ProbedChannel cfg}
    (hc : c ∈ xdev.allocs) (hc' : c' ∈ xdev.allocs) (hdir : c.direction ≠ c'.direction)
    {s s' : VxdmaSys cfg}
    (h : Reachable VxdmaSys.sectionStep always (VxdmaSys.ofProbed c) s)
    (h' : Reachable VxdmaSys.sectionStep always (VxdmaSys.ofProbed c') s') :
    (∀ e ∈ s.chan.log, e.InWindow cfg c.chan.ctrlOffset) ∧
      ∀ e ∈ s.chan.log, ∀ e' ∈ s'.chan.log, e.Apart e' := by
  have hprobed : ∀ c ∈ xdev.allocs, ∃ node, c.ProbedFrom node := by
    have hfrom := probe_probedFrom hprobe
    intro c hc
    obtain ⟨i, hi, rfl⟩ := List.mem_iff_getElem.mp hc
    exact ⟨_, hfrom.get hi (hfrom.length_eq ▸ hi)⟩
  obtain ⟨child, hchild⟩ := hprobed c hc
  obtain ⟨child', hchild'⟩ := hprobed c' hc'
  obtain ⟨hoffset, hreset⟩ := hchild.window
  obtain ⟨hoffset', hreset'⟩ := hchild'.window
  have hown := VxdmaSys.inWindow_of_reachable hreset h
  have hown' := VxdmaSys.inWindow_of_reachable hreset' h'
  refine ⟨hown, ?_⟩
  intro e he e' he'
  have hin := hown e he
  have hin' := hown' e' he'
  rcases hoffset with ⟨hd, ho⟩ | ⟨hd, ho⟩ <;> rcases hoffset' with ⟨hd', ho'⟩ | ⟨hd', ho'⟩
  · exact absurd (hd.trans hd'.symm) hdir
  · rw [ho] at hin
    rw [ho'] at hin'
    exact inWindow_apart hin hin'
  · rw [ho] at hin
    rw [ho'] at hin'
    exact (inWindow_apart hin' hin).symm
  · exact absurd (hd.trans hd'.symm) hdir

/-- A device with one channel for each direction, and scatter-gather. -/
def twoChannelNode : DeviceNode where
  kzallocOk := true
  ioremap := none
  includeSg := true
  children := [slaveNode .memToDev 0, slaveNode .devToMem 0]
  asyncRegister := none
  controllerRegister := none

/-- A channel is allocated, and a descriptor is built, submitted and started. -/
def oneTransfer (direction : DmaTransferDirection) : List (VxdmaSys.Act .addr64) :=
  let env : CallEnv := ⟨⟨0, true⟩, 0, true, true⟩
  [.allocChanResources (some 0), .prepSlaveSg ⟨[⟨0x100000000, 4⟩], direction, none, true⟩] ++
    VxdmaSys.sections 2 env ++ [.txSubmit 0 none] ++ VxdmaSys.sections 3 env ++ [.issuePending] ++
    VxdmaSys.sections 1 env

/-- One transfer on each of two channels. -/
theorem channels_apart_oneTransfer :
    ∃ (xdev : XilinxDmaDevice .addr64) (c c' : ProbedChannel .addr64) (s s' : VxdmaSys .addr64),
      xilinxDmaProbe twoChannelNode = (xdev, none) ∧ c ∈ xdev.allocs ∧ c' ∈ xdev.allocs ∧
      exec VxdmaSys.sectionStep (VxdmaSys.ofProbed c) (oneTransfer .memToDev) = some s ∧
      exec VxdmaSys.sectionStep (VxdmaSys.ofProbed c') (oneTransfer .devToMem) = some s' ∧
      s.chan.activeList ≠ [] ∧ s'.chan.activeList ≠ [] ∧
      (∀ e ∈ s.chan.log, e.InWindow .addr64 c.chan.ctrlOffset) ∧
      ∀ e ∈ s.chan.log, ∀ e' ∈ s'.chan.log, e.Apart e' := by
  let c : ProbedChannel .addr64 := ⟨probedChan true 0 0, 1, .memToDev, chanTag .memToDev 0, 1⟩
  let c' : ProbedChannel .addr64 :=
    ⟨probedChan true 0x30 0, 2, .devToMem, chanTag .devToMem 0, 1⟩
  obtain ⟨xdev, hprobe, hallocs⟩ : ∃ xdev : XilinxDmaDevice .addr64,
      xilinxDmaProbe twoChannelNode = (xdev, none) ∧ xdev.allocs = [c, c'] := ⟨_, rfl, rfl⟩
  have hc : c ∈ xdev.allocs := by
    rw [hallocs]
    exact List.mem_cons_self
  have hc' : c' ∈ xdev.allocs := by
    rw [hallocs]
    exact List.mem_cons_of_mem c List.mem_cons_self
  have hexec : (exec VxdmaSys.sectionStep (VxdmaSys.ofProbed c) (oneTransfer .memToDev)).map
      (fun s => s.chan.activeList.isEmpty) = some false := by
    decide +kernel
  have hexec' : (exec VxdmaSys.sectionStep (VxdmaSys.ofProbed c') (oneTransfer .devToMem)).map
      (fun s => s.chan.activeList.isEmpty) = some false := by
    decide +kernel
  obtain ⟨s, hs, hactive⟩ := Option.map_eq_some_iff.mp hexec
  obtain ⟨s', hs', hactive'⟩ := Option.map_eq_some_iff.mp hexec'
  have hrun := Reachable.of_exec (Reachable.execOk_of_forall fun _ _ _ => trivial) hs
  have hrun' := Reachable.of_exec (Reachable.execOk_of_forall fun _ _ _ => trivial) hs'
  exact ⟨xdev, c, c', s, s', hprobe, hc, hc', hs, hs', List.isEmpty_eq_false_iff.mp hactive,
    List.isEmpty_eq_false_iff.mp hactive',
    channels_apart hprobe hc hc' (by decide) hrun hrun'⟩

end PetalinuxDriver
