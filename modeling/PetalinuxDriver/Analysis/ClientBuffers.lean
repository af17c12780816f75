import PetalinuxDriver.Analysis.ClientSteps
import PetalinuxDriver.Analysis.FifoCompletion

/-!
# Giving up buffers and channels

A client unmaps and frees its buffers after a wait, whichever way the wait ended, and releases its
channels after that or after a submit that failed. Nothing tells it that a transfer which timed out
is over; the loopback test waits for one of its two transfers only; and when one of its submits
fails, what the other one has queued stays where it is.

When at the end of each wait, and at each failed submit, nothing is left on `pending_list` and
`active_list` of either channel, no buffer and no channel is given up while a descriptor for it is
there, and the loopback test compares only after its receive descriptor has completed
(`buffers_released_safely`).
-/

set_option autoImplicit false

namespace PetalinuxDriver

open Library

variable {cfg : PhysAddrConfig}

/-! ## What is on the lists -/

/-- The descriptors that the engine has or will get. -/
def XilinxDmaChan.listed (s : XilinxDmaChan cfg) : List (XilinxDmaTxDescriptor cfg) :=
  s.activeList ++ s.pendingList

/-- The descriptor is on one of the two lists, or it has completed. -/
def XilinxDmaChan.Accounted (s : XilinxDmaChan cfg) (id : Nat) : Prop :=
  id ∈ s.listed.map XilinxDmaTxDescriptor.id ∨ id ∈ completedIds s

/-- A start moves descriptors from the one list to the other. -/
theorem startTransfer_listed (startOk : Bool) (s : XilinxDmaChan cfg) :
    (xilinxDmaStartTransfer startOk s).listed = s.listed := by
  obtain ⟨hqueues, hdone, -⟩ := startTransfer_queues startOk s
  rw [XilinxDmaChan.queues, XilinxDmaChan.queues, hdone] at hqueues
  exact List.append_cancel_left hqueues

/-- A start completes nothing. -/
theorem startTransfer_completedIds (startOk : Bool) (s : XilinxDmaChan cfg) :
    completedIds (xilinxDmaStartTransfer startOk s) = completedIds s := by
  have hquiet : ∀ {w : List Event}, (∀ e ∈ w, e.isBusWrite = true) →
      w.filterMap Event.completed = [] := fun hw =>
    List.filterMap_eq_nil_iff.mpr fun e he => (quiet_of_isBusWrite (hw e he)).2.1
  rcases startTransfer_cases startOk s with ⟨-, h⟩ | ⟨-, -, c, w, hw, h⟩ | ⟨-, -, c, w, hw, h⟩ <;>
    rw [h]
  · simp only [completedIds, List.filterMap_append, hquiet hw, List.append_nil]
  · simp only [completedIds, List.filterMap_append, hquiet hw, List.append_nil]

/-- The interrupt handler completes what is on `active_list`. -/
theorem irqComplete_accounted {s : XilinxDmaChan cfg} (hcyc : ∀ d ∈ s.activeList, d.cyclic = false)
    {id : Nat} (h : s.Accounted id) : (irqComplete s).Accounted id := by
  rw [irqComplete_eq]
  rcases h with h | h
  · rw [XilinxDmaChan.listed, List.map_append] at h
    rcases List.mem_append.mp h with h | h
    · obtain ⟨d, hd, rfl⟩ := List.mem_map.mp h
      refine Or.inr (mem_completedIds.mpr (List.mem_append_right _ ?_))
      refine List.mem_flatMap.mpr ⟨d, hd, ?_⟩
      simp [completeEvents, hcyc d hd]
    · exact Or.inl h
  · refine Or.inr (mem_completedIds.mpr (List.mem_append_left _ ?_))
    exact mem_completedIds.mp h

namespace VxdmaSys

/-- Without a submit, nothing comes onto empty lists. -/
theorem Section.listed_nil {env : CallEnv} {s t : XilinxDmaChan cfg} {c : Call cfg}
    {after : After cfg} (h : Section env s c t after) (hc : c.submitting = [])
    (hs : s.listed = []) : t.listed = [] := by
  by_cases hchanges : c.changesQueues = false
  · have hhistory := h.sameHistory hchanges
    rw [XilinxDmaChan.listed, hhistory.activeList, hhistory.pendingList]
    exact hs
  · cases h with
    | queued => cases hc
    | queuedBug => cases hc
    | issue =>
      rw [startTransfer_listed]
      exact hs
    | irqLock =>
      rw [startTransfer_listed, irqComplete_eq]
      exact (List.append_eq_nil_iff.mp hs).2
    | terminateFree =>
      rw [freeDescriptors_eq]
      rfl
    | freeChan =>
      rw [freeDescriptors_eq]
      rfl
    | _ => exact absurd rfl hchanges

/-- A descriptor leaves the lists by completing, unless the lists are freed. -/
theorem Section.accounted {env : CallEnv} {s t : XilinxDmaChan cfg} {c : Call cfg}
    {after : After cfg} (h : Section env s c t after) (hcyc : ∀ d ∈ s.activeList, d.cyclic = false)
    (hc : c.dropsLists = false ∨ s.listed = []) {id : Nat} (hid : s.Accounted id) :
    t.Accounted id := by
  by_cases hchanges : c.changesQueues = false
  · have hhistory := h.sameHistory hchanges
    rw [XilinxDmaChan.Accounted, XilinxDmaChan.listed, hhistory.activeList, hhistory.pendingList,
      hhistory.filterMap_log.2.1]
    exact hid
  · have hsubmit : ∀ (e : XilinxDmaTxDescriptor cfg),
        id ∈ s.listed.map XilinxDmaTxDescriptor.id →
        id ∈ (s.activeList ++ (s.pendingList ++ [e])).map XilinxDmaTxDescriptor.id := by
      intro e hmem
      rw [← List.append_assoc, List.map_append]
      exact List.mem_append_left _ hmem
    have hfreed : c.dropsLists = true → t = xilinxDmaFreeDescriptors s → t.Accounted id := by
      rintro hdrops rfl
      have hnil : s.listed = [] := hc.resolve_left (by rw [hdrops]; exact Bool.noConfusion)
      rcases hid with hid | hid
      · rw [hnil] at hid
        cases hid
      · rw [freeDescriptors_eq]
        refine Or.inr (mem_completedIds.mpr (List.mem_append_left _ ?_))
        exact mem_completedIds.mp hid
    cases h with
    | queued d =>
      rcases hid with hid | hid
      · exact Or.inl (hsubmit _ hid)
      · exact Or.inr (mem_completedIds.mpr (List.mem_append_left _ (mem_completedIds.mp hid)))
    | queuedBug d =>
      rcases hid with hid | hid
      · exact Or.inl (hsubmit _ hid)
      · exact Or.inr (mem_completedIds.mpr (List.mem_append_left _ (mem_completedIds.mp hid)))
    | issue =>
      rw [XilinxDmaChan.Accounted, startTransfer_listed, startTransfer_completedIds]
      exact hid
    | irqLock =>
      rw [XilinxDmaChan.Accounted, startTransfer_listed, startTransfer_completedIds]
      exact irqComplete_accounted hcyc hid
    | terminateFree => exact hfreed rfl rfl
    | freeChan => exact hfreed rfl rfl
    | _ => exact absurd rfl hchanges

/-- What a submit accepts is on `pending_list`. -/
theorem Section.submitted_listed {env : CallEnv} {s t : XilinxDmaChan cfg} {c : Call cfg}
    {d : XilinxDmaTxDescriptor cfg} {cookie : Int}
    (h : Section env s c t (.submitted d (.cookie cookie))) : t.Accounted d.id := by
  cases h
  refine Or.inl ?_
  simp [XilinxDmaChan.listed]

/-- The cleanup touches neither of the two lists. -/
theorem cleanup_listed (s : XilinxDmaChan cfg) :
    (xilinxDmaChanDescCleanup s).1.listed = s.listed := by
  obtain ⟨freed, rest, -, -, hcases⟩ := cleanupLoop_cases s.doneList s rfl
  unfold xilinxDmaChanDescCleanup
  rcases hcases with ⟨-, h⟩ | ⟨d, tl, -, -, -, h⟩ | ⟨d, tl, -, -, h⟩ | ⟨d, tl, -, -, h⟩ <;> rw [h] <;>
    rfl

/-- The rest of a cleanup leaves what is listed. -/
theorem cleanupResume_listed (pc : CleanupPc cfg) (s : XilinxDmaChan cfg) :
    (cleanupResume pc s).1.listed = s.listed := by
  cases pc with
  | idle => rfl
  | cyclicCallback => rfl
  | callback d =>
    have hfree := freeTxDescriptor_sameHistory s d.segments
    rw [cleanupResume, cleanup_listed, XilinxDmaChan.listed, hfree.activeList, hfree.pendingList]
    rfl

/-- Whatever is done to it, a log only grows, so what has completed has completed. -/
theorem accounted_of_listed {s t : XilinxDmaChan cfg} (hlisted : t.listed = s.listed)
    (hlog : ∃ w, t.log = s.log ++ w) {id : Nat} (h : s.Accounted id) : t.Accounted id := by
  obtain ⟨w, hlog⟩ := hlog
  rcases h with h | h
  · rw [XilinxDmaChan.Accounted, hlisted]
    exact Or.inl h
  · refine Or.inr (mem_completedIds.mpr ?_)
    rw [hlog]
    exact List.mem_append_left _ (mem_completedIds.mp h)

/-- An action other than a section leaves the lists alone. -/
theorem sectionStep_listed {s s' : VxdmaSys cfg} {a : Act cfg} (h : s.sectionStep a = some s')
    (ha : ∀ i env, a ≠ .run i env) :
    s'.chan.listed = s.chan.listed ∧ ∃ w, s'.chan.log = s.chan.log ++ w := by
  obtain ⟨hbug, hstep⟩ := sectionStep_inv h
  have hsame : ∃ w, s.chan.log = s.chan.log ++ w := ⟨[], (List.append_nil _).symm⟩
  cases hstep with
  | allocChanResources zalloc =>
    cases zalloc with
    | none => exact ⟨rfl, hsame⟩
    | some segP => exact ⟨rfl, _, rfl⟩
  | run i env => exact absurd rfl (ha i env)
  | tasklet =>
    obtain ⟨w, hlog, -⟩ := cleanup_log { s.chan with tasklet := false }
    exact ⟨cleanup_listed _, w, hlog⟩
  | callbackReturn =>
    obtain ⟨w, hlog, -⟩ := cleanupResume_log s.cleanup s.chan
    exact ⟨cleanupResume_listed _ _, w, hlog⟩
  | _ => exact ⟨rfl, hsame⟩

/-- **Empty lists stay empty** while no submit is in flight. -/
theorem sectionStep_listed_nil {s s' : VxdmaSys cfg} {a : Act cfg}
    (h : s.sectionStep a = some s') (hsubmit : s.NoSubmit) (hs : s.chan.listed = []) :
    s'.chan.listed = [] := by
  by_cases ha : ∃ i env, a = .run i env
  · obtain ⟨i, env, rfl⟩ := ha
    obtain ⟨c, hc, hsection, rfl⟩ := sectionStep_run h
    exact hsection.listed_nil (hsubmit c (List.mem_of_getElem? hc)) hs
  · rw [(sectionStep_listed h fun i env heq => ha ⟨i, env, heq⟩).1]
    exact hs

/-- **No descriptor is forgotten** while nobody frees the lists. -/
theorem sectionStep_accounted {s s' : VxdmaSys cfg} {a : Act cfg}
    (h : s.sectionStep a = some s') (hcyc : NonCyclic s)
    (hdrops : (∀ c ∈ s.calls, c.dropsLists = false) ∨ s.chan.listed = []) {id : Nat}
    (hid : s.chan.Accounted id) : s'.chan.Accounted id := by
  by_cases ha : ∃ i env, a = .run i env
  · obtain ⟨i, env, rfl⟩ := ha
    obtain ⟨c, hc, hsection, rfl⟩ := sectionStep_run h
    have hactive : ∀ d ∈ s.chan.activeList, d.cyclic = false := fun d hd =>
      hcyc.queues d (by simp [XilinxDmaChan.queues, hd])
    apply hsection.accounted hactive _ hid
    exact hdrops.imp_left fun hnone => hnone c (List.mem_of_getElem? hc)
  · obtain ⟨hlisted, hlog⟩ := sectionStep_listed h fun i env heq => ha ⟨i, env, heq⟩
    exact accounted_of_listed hlisted hlog hid

/-- Descriptors that are not cyclic stay so also over an allocation. -/
theorem sectionStep_nonCyclic_of_ne {s s' : VxdmaSys cfg} {a : Act cfg} (hs : NonCyclic s)
    (ha : ∀ args, a ≠ .prepDmaCyclic args) (h : s.sectionStep a = some s') : NonCyclic s' := by
  by_cases halloc : ∃ zalloc, a = .allocChanResources zalloc
  · obtain ⟨zalloc, rfl⟩ := halloc
    have hqueues : ((xilinxDmaAllocChanResources zalloc s.chan).1).queues = s.chan.queues :=
      (alloc_sameQueues zalloc s.chan).1
    rw [(sectionStep_allocChanResources h).2]
    refine ⟨?_, hs.prepared, hs.calls⟩
    rw [hqueues]
    exact hs.queues
  · apply sectionStep_nonCyclic hs _ h
    cases a with
    | prepDmaCyclic args => exact absurd rfl (ha args)
    | allocChanResources zalloc => exact absurd ⟨zalloc, rfl⟩ halloc
    | _ => trivial

end VxdmaSys

/-! ## What a client gives up -/

namespace ClientSide

/-- No listed descriptor is for this buffer. -/
def Spares (c : ClientSide cfg) (buf : ClientBuffer) : Prop :=
  ∀ d ∈ c.sys.chan.listed, (d.id, buf) ∉ c.buffers

instance (c : ClientSide cfg) (buf : ClientBuffer) : Decidable (c.Spares buf) :=
  inferInstanceAs (Decidable (∀ d ∈ c.sys.chan.listed, (d.id, buf) ∉ c.buffers))

/-- The latest transfer was accepted, as this descriptor. -/
def acceptedId (c : ClientSide cfg) : Option Nat :=
  match c.submitted with
  | some (id, .cookie _) => some id
  | _ => none

/-- The latest transfer has completed. -/
def Completed (c : ClientSide cfg) : Prop := ∃ id ∈ c.acceptedId, id ∈ completedIds c.sys.chan

instance (c : ClientSide cfg) : Decidable c.Completed :=
  match h : c.acceptedId with
  | none => isFalse (by simp [Completed, h])
  | some id => decidable_of_iff (id ∈ completedIds c.sys.chan) (by simp [Completed, h])

/-- Without an error, the cookie is that of an accepted descriptor. -/
theorem accepted_of_cookie {c : ClientSide cfg} (h : dmaSubmitError c.cookie = false) :
    ∃ id, c.acceptedId = some id := by
  unfold cookie at h
  unfold acceptedId
  split at h
  · rename_i id _ heq
    exact ⟨id, by rw [heq]⟩
  · rename_i err _
    cases err <;> cases h
  · cases h

end ClientSide

namespace ClientSys

/-- What an operation gives up is no longer in use, and what it reads has arrived. -/
def Safe (s : ClientSys cfg) : ClientOp → Prop
  | .unmap buf => (s.side .tx).Spares buf ∧ (s.side .rx).Spares buf
  | .kfree buf => (s.side .tx).Spares buf ∧ (s.side .rx).Spares buf
  | .on side .release => (s.side side).requested = true → (s.side side).sys.chan.listed = []
  | .compare => (s.side .rx).Completed
  | _ => True

instance (s : ClientSys cfg) (o : ClientOp) : Decidable (s.Safe o) := by
  unfold Safe
  split <;> infer_instance

/-- The next operation of the client is safe. -/
def ReleasesSafely (s : ClientSys cfg) : ClientAct cfg → Prop
  | .client _ => s.resting = true → ∀ o ∈ s.prog.head, s.Safe o
  | _ => True

instance (s : ClientSys cfg) : ∀ a, Decidable (s.ReleasesSafely a)
  | .client _ => inferInstanceAs (Decidable (s.resting = true → ∀ o ∈ s.prog.head, s.Safe o))
  | .ioctl => isTrue trivial
  | .channel _ _ => isTrue trivial
  | .callback _ => isTrue trivial

/-- The client takes the transfers to be over: it leaves a wait, or finds that a submit has
failed. -/
def givesUp (ans : ClientAnswer cfg) (s : ClientSys cfg) : Bool :=
  match s.prog with
  | .op (.on _ .wait) _ => true
  | .check (.submitted sides) _ _ => !s.finds ans (.submitted sides)
  | _ => false

/-- Where the client takes the transfers to be over, nothing is left on the lists. -/
def GivesUpDrained (s : ClientSys cfg) : ClientAct cfg → Prop
  | .client ans => s.resting = true → s.givesUp ans = true →
      (s.side .tx).sys.chan.listed = [] ∧ (s.side .rx).sys.chan.listed = []
  | _ => True

instance (s : ClientSys cfg) : ∀ a, Decidable (s.GivesUpDrained a)
  | .client ans => inferInstanceAs (Decidable (s.resting = true → s.givesUp ans = true →
      (s.side .tx).sys.chan.listed = [] ∧ (s.side .rx).sys.chan.listed = []))
  | .ioctl => isTrue trivial
  | .channel _ _ => isTrue trivial
  | .callback _ => isTrue trivial

end ClientSys

/-! ## What a client may assume -/

/-- What is known of the transfers: nothing is listed, and the latest transfer of a side was
accepted. -/
structure TransferFacts where
  drained : Bool
  accepted : DmaSide → Bool

/-- Nothing is given up unless nothing is listed. -/
def releaseTypestate : Typestate ClientOp ClientCheck TransferFacts where
  allowed f
    | .on _ .release => f.drained
    | .on _ _ => true
    | .unmap _ => f.drained
    | .kfree _ => f.drained
    | .compare => f.drained && f.accepted .rx
  after f
    | .on side (.submit _) => ⟨false, Function.update f.accepted side false⟩
    | .on _ .wait => { f with drained := true }
    | _ => f
  outcome f
    | .submitted _, false => { f with drained := true }
    | .submitted sides, true => { f with accepted := fun side => sides.contains side || f.accepted side }
    | _, _ => f
  final f := f.drained

/-- The client gives nothing up before it takes its transfers to be over. -/
def ClientProg.ReleasesAfterwards (test : ClientProg) : Prop :=
  test.conforms releaseTypestate ⟨true, fun _ => false⟩ = true

/-- The loopback test releases last. -/
theorem vxaxidmaTest_releasesAfterwards : vxaxidmaTest.ReleasesAfterwards := by
  show vxaxidmaTest.conforms releaseTypestate ⟨true, fun _ => false⟩ = true
  decide

/-- The matrix test releases last. -/
theorem xhlsTest_releasesAfterwards : xhlsTest.ReleasesAfterwards := by
  show xhlsTest.conforms releaseTypestate ⟨true, fun _ => false⟩ = true
  decide

/-! ## The invariant of one side -/

/-- What holds of a side when these facts are known. -/
structure SideInv (f : TransferFacts) (side : DmaSide) (c : ClientSide cfg) : Prop where
  nonCyclic : VxdmaSys.NonCyclic c.sys
  accounted : ∀ id ∈ c.acceptedId, c.sys.chan.Accounted id
  accepted : f.accepted side = true → (∃ id, c.acceptedId = some id) ∧ c.sys.NoSubmit
  drained : f.drained = true → c.sys.chan.listed = [] ∧ c.sys.NoSubmit
  keeps : f.drained = false → ∀ call ∈ c.sys.calls, call.dropsLists = false

namespace SideInv

variable {f f' : TransferFacts} {side : DmaSide} {c c' : ClientSide cfg}

/-- A client that rests may learn something, or forget it. -/
theorem learn (h : SideInv f side c) (hrest : c.resting = true)
    (haccepted : f'.accepted side = true → f.accepted side = true ∨ ∃ id, c.acceptedId = some id)
    (hdrained : f'.drained = true → f.drained = true ∨ c.sys.chan.listed = []) :
    SideInv f' side c := by
  have hno := ClientSide.noSubmit_of_resting hrest
  refine ⟨h.nonCyclic, h.accounted, ?_, ?_, ?_⟩
  · intro hacc
    rcases haccepted hacc with hold | hnew
    · exact h.accepted hold
    · exact ⟨hnew, hno⟩
  · intro hdr
    rcases hdrained hdr with hold | hnew
    · exact h.drained hold
    · exact ⟨hnew, hno⟩
  · intro _ call hcall
    have hirq := ClientSide.resting_iff.mp hrest call hcall
    cases call <;> first | rfl | cases hirq

/-- **An action on the channel.** -/
theorem act {a : VxdmaSys.Act cfg} {sys : VxdmaSys cfg} (h : SideInv f side c)
    (hstep : c.sys.sectionStep a = some sys) (hcyclic : ∀ args, a ≠ .prepDmaCyclic args)
    (hsubmit : ∀ i callback, a = .txSubmit i callback → f.drained = false ∧ f.accepted side = false)
    (hdrops : a = .terminateAll ∨ a = .freeChanResources → f.drained = true) :
    SideInv f side { c with sys := sys } := by
  have hno : c.sys.NoSubmit → f.drained = true ∨ f.accepted side = true → sys.NoSubmit := by
    intro hno hf
    refine VxdmaSys.sectionStep_noSubmit hno (fun i callback heq => ?_) hstep
    obtain ⟨hdr, hacc⟩ := hsubmit i callback heq
    rcases hf with hf | hf
    · rw [hdr] at hf
      cases hf
    · rw [hacc] at hf
      cases hf
  refine ⟨VxdmaSys.sectionStep_nonCyclic_of_ne h.nonCyclic hcyclic hstep, ?_, ?_, ?_, ?_⟩
  · intro id hid
    apply VxdmaSys.sectionStep_accounted hstep h.nonCyclic _ (h.accounted id hid)
    cases hdr : f.drained with
    | false => exact Or.inl (h.keeps hdr)
    | true => exact Or.inr (h.drained hdr).1
  · intro hacc
    exact ⟨(h.accepted hacc).1, hno (h.accepted hacc).2 (Or.inr hacc)⟩
  · intro hdr
    obtain ⟨hnil, hnone⟩ := h.drained hdr
    exact ⟨VxdmaSys.sectionStep_listed_nil hstep hnone hnil, hno hnone (Or.inl hdr)⟩
  · intro hdr
    refine VxdmaSys.sectionStep_keepsLists hstep ⟨fun heq => ?_, fun heq => ?_⟩ (h.keeps hdr)
    · rw [hdrops (Or.inl heq)] at hdr
      cases hdr
    · rw [hdrops (Or.inr heq)] at hdr
      cases hdr

/-- **An operation of the client** on this side. -/
theorem run {ans : ClientAnswer cfg} {o : ChannelOp} (h : SideInv f side c)
    (hrun : c.run ans o = some c')
    (hsubmit : ∀ buf, o = .submit buf → f.drained = false ∧ f.accepted side = false)
    (hrelease : o = .release → f.drained = true) : SideInv f side c' := by
  cases o with
  | request =>
    obtain rfl : c.request ans = c' := Option.some.inj hrun
    rcases c.request_cases ans with heq | ⟨sys, hsys, heq⟩
    · rw [heq]
      exact ⟨h.nonCyclic, h.accounted, h.accepted, h.drained, h.keeps⟩
    · have hact := h.act hsys (by simp) (by simp) (by simp)
      rw [heq]
      exact ⟨hact.nonCyclic, hact.accounted, hact.accepted, hact.drained, hact.keeps⟩
  | map =>
    cases hrun
    exact ⟨h.nonCyclic, h.accounted, h.accepted, h.drained, h.keeps⟩
  | prep dir len =>
    obtain ⟨sys, hsys, rfl⟩ := ClientSide.act_cases hrun
    exact h.act hsys (by simp) (by simp) (by simp)
  | submit buf =>
    have hfacts := hsubmit buf rfl
    have hforget : ∀ (c₁ : ClientSide cfg), VxdmaSys.NonCyclic c₁.sys → c₁.submitted = none →
        (∀ call ∈ c₁.sys.calls, call.dropsLists = false) → SideInv f side c₁ := by
      intro c₁ hcyc hnone hkeeps
      refine ⟨hcyc, fun id hid => ?_, fun hacc => ?_, fun hdr => ?_, fun _ => hkeeps⟩
      · simp [ClientSide.acceptedId, hnone] at hid
      · rw [hfacts.2] at hacc
        cases hacc
      · rw [hfacts.1] at hdr
        cases hdr
    rcases ClientSide.submit_cases hrun with ⟨-, rfl⟩ | ⟨d, ds, sys, -, hsys, rfl⟩
    · exact hforget _ h.nonCyclic rfl (h.keeps hfacts.1)
    · have hact := h.act hsys (by simp) (fun _ _ _ => hfacts) (by simp)
      exact hforget _ hact.nonCyclic rfl (hact.keeps hfacts.1)
  | initCompletion =>
    cases hrun
    exact ⟨h.nonCyclic, h.accounted, h.accepted, h.drained, h.keeps⟩
  | issuePending =>
    obtain ⟨sys, hsys, rfl⟩ := ClientSide.act_cases hrun
    exact h.act hsys (by simp) (by simp) (by simp)
  | wait =>
    cases hrun
    exact ⟨h.nonCyclic, h.accounted, h.accepted, h.drained, h.keeps⟩
  | release =>
    simp only [ClientSide.run] at hrun
    split at hrun
    · obtain ⟨sys, hsys, rfl⟩ := ClientSide.act_cases hrun
      have hact := h.act hsys (by simp) (by simp) fun _ => hrelease rfl
      exact ⟨hact.nonCyclic, hact.accounted, hact.accepted, hact.drained, hact.keeps⟩
    · cases hrun
      exact h

/-- A submit that returns was in flight, so nothing was known of this side. -/
theorem submitReturns {i : Nat} {env : CallEnv} {p : Nat × SubmitResult} (h : SideInv f side c)
    (hbug : c.sys.chan.bug = false) (hret : c.submitReturns i env = some p) :
    f.drained = false ∧ f.accepted side = false := by
  have hsome : ¬ c.sys.NoSubmit := by
    intro hno
    rw [ClientSide.submitReturns_none hbug hno] at hret
    cases hret
  constructor
  · cases hdr : f.drained with
    | false => rfl
    | true => exact absurd (h.drained hdr).2 hsome
  · cases hacc : f.accepted side with
    | false => rfl
    | true => exact absurd (h.accepted hacc).2 hsome

/-- **What happens without the client.** -/
theorem outside {a : VxdmaSys.Act cfg} (h : SideInv f side c) (hbug : c.sys.chan.bug = false)
    (hstep : ClientSide.OutsideStep c a c') : SideInv f side c' := by
  cases hstep with
  | interrupt sys hsys => exact h.act hsys (by simp) (by simp) (by simp)
  | run i env sys hsys =>
    have hact := h.act hsys (by simp) (by simp) (by simp)
    cases hret : c.submitReturns i env with
    | none =>
      rw [Option.none_or]
      exact hact
    | some p =>
      obtain ⟨hdr, hacc⟩ := h.submitReturns hbug hret
      refine ⟨hact.nonCyclic, fun id hid => ?_, fun hacc' => ?_, fun hdr' => ?_, hact.keeps⟩
      · -- an accepted descriptor is on its list
        obtain ⟨pid, r⟩ := p
        obtain ⟨call, d, hcall, hid', hsection⟩ := ClientSide.submitReturns_some hbug hret
        cases r with
        | cookie cookie =>
          obtain rfl : pid = id := by simpa [ClientSide.acceptedId] using hid
          have hchan : sys.chan = (call.run env c.sys.chan).1 := by
            obtain ⟨call', hcall', -, rfl⟩ := VxdmaSys.sectionStep_run hsys
            obtain rfl : call = call' := Option.some.inj (hcall.symm.trans hcall')
            rfl
          rw [← hid', hchan]
          exact hsection.submitted_listed
        | error err => simp [ClientSide.acceptedId] at hid
        | bug => simp [ClientSide.acceptedId] at hid
      · rw [hacc] at hacc'
        cases hacc'
      · rw [hdr] at hdr'
        cases hdr'
  | tasklet sys hsys => exact h.act hsys (by simp) (by simp) (by simp)
  | callbackReturn sys hcalled hsys =>
    have hact := h.act hsys (by simp) (by simp) (by simp)
    exact ⟨hact.nonCyclic, hact.accounted, hact.accepted, hact.drained, hact.keeps⟩
  | device p status app sys hsys => exact h.act hsys (by simp) (by simp) (by simp)

/-- A callback keeps what is known of a side. -/
theorem callback (h : SideInv f side c) (hstep : c.axidmaSyncCallback = some c') :
    SideInv f side c' := by
  obtain ⟨d, -, -, rfl⟩ := ClientSide.axidmaSyncCallback_cases hstep
  exact ⟨h.nonCyclic, h.accounted, h.accepted, h.drained, h.keeps⟩

/-- At first nothing is known of a side. -/
theorem probed (f : TransferFacts) (hf : ∀ side, f.accepted side = false) (side : DmaSide)
    (hasSg : Bool) (ctrlOffset : Nat) (dmacr : BitVec 32) :
    SideInv f side (.probed hasSg ctrlOffset dmacr : ClientSide cfg) := by
  have hcyc : VxdmaSys.NonCyclic (VxdmaSys.probed hasSg ctrlOffset dmacr : VxdmaSys cfg) :=
    ⟨fun d hd => absurd hd List.not_mem_nil, fun d hd => absurd hd List.not_mem_nil,
      fun c hc => absurd hc List.not_mem_nil⟩
  refine ⟨hcyc, ?_, ?_, ?_, ?_⟩
  · intro id hid
    cases hid
  · intro hacc
    rw [hf side] at hacc
    cases hacc
  · intro _
    refine ⟨rfl, fun call hcall => ?_⟩
    cases hcall
  · intro _ call hcall
    cases hcall

end SideInv

/-! ## Runs -/

namespace ClientSys

/-- What holds along a run: some facts with which what is left of the test conforms. -/
def ReleasesInv (s : ClientSys cfg) : Prop :=
  ∃ f, s.prog.conforms releaseTypestate f = true ∧ ∀ side, SideInv f side (s.side side)

/-- One side goes on, and the other one stays. -/
theorem setSide_sideInv {s : ClientSys cfg} {side : DmaSide} {c : ClientSide cfg}
    {f : TransferFacts} (hc : SideInv f side c)
    (hothers : ∀ other, other ≠ side → SideInv f other (s.side other)) (other : DmaSide) :
    SideInv f other ((s.setSide side c).side other) := by
  by_cases hother : other = side
  · subst hother
    rw [setSide_side]
    exact hc
  · rw [setSide_side_of_ne s c hother]
    exact hothers other hother

/-- At rest, what the client knows is as its typestate says. -/
theorem learn_op {s : ClientSys cfg} {f : TransferFacts} {o : ClientOp} {next : ClientProg}
    {ans : ClientAnswer cfg} (hsides : ∀ side, SideInv f side (s.side side))
    (hrest : s.resting = true) (hprog : s.prog = .op o next) (hok : s.GivesUpDrained (.client ans)) :
    ∀ side, SideInv (releaseTypestate.after f o) side (s.side side) := by
  intro side
  have hquiet := resting_iff.mp hrest side
  cases o with
  | on at' o =>
    cases o with
    | submit buf =>
      apply (hsides side).learn hquiet
      · intro hacc
        by_cases hside : side = at'
        · subst hside
          simp [releaseTypestate] at hacc
        · refine Or.inl ?_
          simpa [releaseTypestate, Function.update_of_ne hside] using hacc
      · intro hdr
        cases hdr
    | wait =>
      apply (hsides side).learn hquiet
      · exact fun hacc => Or.inl hacc
      · intro _
        obtain ⟨htx, hrx⟩ := hok hrest (by rw [givesUp, hprog])
        cases side with
        | tx => exact Or.inr htx
        | rx => exact Or.inr hrx
    | _ => exact hsides side
  | _ => exact hsides side

/-- The same of what a check finds. -/
theorem learn_check {s : ClientSys cfg} {f : TransferFacts} {c : ClientCheck}
    {failed next : ClientProg} {ans : ClientAnswer cfg}
    (hsides : ∀ side, SideInv f side (s.side side)) (hrest : s.resting = true)
    (hprog : s.prog = .check c failed next) (hok : s.GivesUpDrained (.client ans)) :
    ∀ side, SideInv (releaseTypestate.outcome f c (s.finds ans c)) side (s.side side) := by
  intro side
  have hquiet := resting_iff.mp hrest side
  cases c with
  | submitted sides =>
    cases hfinds : s.finds ans (.submitted sides) with
    | false =>
      apply (hsides side).learn hquiet
      · exact fun hacc => Or.inl hacc
      · intro _
        obtain ⟨htx, hrx⟩ := hok hrest (by rw [givesUp, hprog]; simp [hfinds])
        cases side with
        | tx => exact Or.inr htx
        | rx => exact Or.inr hrx
    | true =>
      apply (hsides side).learn hquiet
      · intro hacc
        rcases Bool.or_eq_true_iff.mp hacc with hmem | hold
        · refine Or.inr (ClientSide.accepted_of_cookie ?_)
          have hall := List.all_eq_true.mp hfinds side (List.contains_iff_mem.mp hmem)
          simpa using hall
        · exact Or.inl hold
      · exact fun hdr => Or.inl hdr
  | _ => cases s.finds ans _ <;> exact hsides side

/-- **One step of a run** in which the client gives up drained transfers only. -/
theorem clientStep_releasesInv {test : ClientProg} {s s' : ClientSys cfg} {a : ClientAct cfg}
    (htest : test.ReleasesAfterwards) (hs : s.ReleasesInv) (hok : s.GivesUpDrained a)
    (h : clientStep test s a = some s') : s'.ReleasesInv := by
  obtain ⟨f, hconforms, hsides⟩ := hs
  obtain ⟨hbug, hstep⟩ := clientStep_inv h
  cases hstep with
  | ioctl hdone =>
    rw [hdone] at hconforms
    refine ⟨⟨true, fun _ => false⟩, htest, fun side => ?_⟩
    have hside := hsides side
    have hdr : f.drained = true := hconforms
    refine ⟨hside.nonCyclic, hside.accounted, ?_, fun _ => hside.drained hdr, ?_⟩
    · intro hacc
      cases hacc
    · intro hdr
      cases hdr
  | check ans c failed next hrest hprog =>
    rw [hprog] at hconforms
    exact ⟨_, Script.conforms_check hconforms _, learn_check hsides hrest hprog hok⟩
  | on ans side o next c hrest hprog hrun =>
    have hlearned := learn_op hsides hrest hprog hok
    rw [hprog, Script.conforms_op] at hconforms
    refine ⟨_, hconforms.2, ?_⟩
    have hc : SideInv (releaseTypestate.after f (.on side o)) side c := by
      apply (hlearned side).run hrun
      · rintro buf rfl
        exact ⟨rfl, Function.update_self ..⟩
      · rintro rfl
        exact hconforms.1
    exact setSide_sideInv hc fun other _ => hlearned other
  | buffer ans o next hrest hprog ho =>
    have hlearned := learn_op hsides hrest hprog hok
    rw [hprog, Script.conforms_op] at hconforms
    exact ⟨_, hconforms.2, hlearned⟩
  | channel side a c hout =>
    refine ⟨f, hconforms, setSide_sideInv ((hsides side).outside (hbug side) hout) ?_⟩
    exact fun other _ => hsides other
  | callback side c hc =>
    refine ⟨f, hconforms, setSide_sideInv ((hsides side).callback hc) ?_⟩
    exact fun other _ => hsides other

/-- What is known makes the next operation safe. -/
theorem ReleasesInv.releasesSafely {s : ClientSys cfg} (hs : s.ReleasesInv) (a : ClientAct cfg) :
    s.ReleasesSafely a := by
  obtain ⟨f, hconforms, hsides⟩ := hs
  cases a with
  | client ans =>
    intro _ o ho
    have hallowed := Script.allowed_of_head hconforms ho
    have hspares : f.drained = true → ∀ side buf, (s.side side).Spares buf := by
      intro hdr side buf d hd
      rw [((hsides side).drained hdr).1] at hd
      cases hd
    cases o with
    | on side o =>
      cases o with
      | release => exact fun _ => ((hsides side).drained hallowed).1
      | _ => trivial
    | unmap buf => exact ⟨hspares hallowed .tx buf, hspares hallowed .rx buf⟩
    | kfree buf => exact ⟨hspares hallowed .tx buf, hspares hallowed .rx buf⟩
    | compare =>
      obtain ⟨hdr, hacc⟩ := (Bool.and_eq_true _ _).mp hallowed
      obtain ⟨⟨id, hid⟩, -⟩ := (hsides .rx).accepted hacc
      refine ⟨id, hid, ?_⟩
      rcases (hsides .rx).accounted id hid with hlisted | hcompleted
      · rw [((hsides .rx).drained hdr).1] at hlisted
        cases hlisted
      · exact hcompleted
  | _ => trivial

/-- The invariant holds after the probe. -/
theorem probed_releasesInv (hasSg : DmaSide → Bool) (ctrlOffset : DmaSide → Nat)
    (dmacr : DmaSide → BitVec 32) :
    (probed hasSg ctrlOffset dmacr : ClientSys cfg).ReleasesInv :=
  ⟨⟨true, fun _ => false⟩, rfl, fun side => SideInv.probed _ (fun _ => rfl) side _ _ _⟩

/-- **Nothing is given up while it is in use**, in every run of the loopback test or of the
accelerator's test that takes its transfers to be over only when nothing is listed. -/
theorem buffers_released_safely {test : ClientProg} {hasSg : DmaSide → Bool}
    {ctrlOffset : DmaSide → Nat} {dmacr : DmaSide → BitVec 32} {as : List (ClientAct cfg)}
    (htest : test = vxaxidmaTest ∨ test = xhlsTest)
    (h : ExecOk (clientStep test) GivesUpDrained (probed hasSg ctrlOffset dmacr) as) :
    ExecOk (clientStep test) ReleasesSafely (probed hasSg ctrlOffset dmacr) as := by
  have hreleases : test.ReleasesAfterwards := by
    rcases htest with rfl | rfl
    · exact vxaxidmaTest_releasesAfterwards
    · exact xhlsTest_releasesAfterwards
  exact Reachable.execOk_of_invariant h (probed_releasesInv hasSg ctrlOffset dmacr)
    (fun _ a hs _ => hs.releasesSafely a)
    fun _ _ _ hs hok hstep => clientStep_releasesInv hreleases hs hok hstep

/-- Both transfers of the loopback test complete before it leaves its wait. -/
def bothInTime : List (ClientAct .addr32) :=
  [.ioctl] ++ clientSteps 6 ++ prepSteps .rx ++ prepSteps .tx ++ clientSteps 1 ++
  startSteps .rx ++ startSteps .tx ++
  irqSteps .rx ++ [.channel .rx .tasklet] ++ callbackSteps .rx ++
  irqSteps .tx ++ [.channel .tx .tasklet] ++ callbackSteps .tx ++
  clientSteps 7 ++ sectionsOn .tx 3 ++ clientSteps 1 ++ sectionsOn .rx 3

/-- Both transfers of a loopback test complete in time. -/
theorem buffers_released_safely_bothInTime :
    ExecOk (clientStep vxaxidmaTest) ReleasesSafely sgProbed bothInTime ∧
      ((exec (clientStep vxaxidmaTest) sgProbed bothInTime).map
        fun s => (s.prog, completedIds (s.side .rx).sys.chan)) = some (.done, [0]) := by
  constructor
  · apply buffers_released_safely (Or.inl rfl)
    decide +kernel
  · decide +kernel

/-- The transmit transfer of the loopback test completes, the receive transfer does not. -/
def receivesLate : List (ClientAct .addr32) :=
  [.ioctl] ++ clientSteps 6 ++ prepSteps .rx ++ prepSteps .tx ++ clientSteps 1 ++
  startSteps .rx ++ startSteps .tx ++ irqSteps .tx ++ [.channel .tx .tasklet] ++
  callbackSteps .tx ++ clientSteps 2

/-- The loopback test has queued its receive descriptor and gets none for its transmit buffer. -/
def submitFails : List (ClientAct .addr32) :=
  [.ioctl] ++ clientSteps 6 ++ prepSteps .rx ++ [.client ⟨false, 0⟩] ++ clientSteps 2 ++
  clientSteps 1 ++ sectionsOn .tx 3 ++ clientSteps 1

/-- The first transfer of the accelerator's test times out. -/
def loadTimesOut : List (ClientAct .addr32) :=
  [.ioctl] ++ clientSteps 5 ++ prepSteps .tx ++ clientSteps 1 ++ startSteps .tx ++ clientSteps 2

/-- The loopback test unmaps a buffer that is being received into, or releases a channel on which a
descriptor waits; the accelerator's test unmaps a buffer that is being sent. -/
theorem buffers_released_unsafely :
    ¬ ExecOk (clientStep vxaxidmaTest) ReleasesSafely sgProbed receivesLate ∧
      ¬ ExecOk (clientStep vxaxidmaTest) ReleasesSafely sgProbed submitFails ∧
      ¬ ExecOk (clientStep xhlsTest) ReleasesSafely sgProbed loadTimesOut := by
  refine ⟨?_, ?_, ?_⟩
  · decide +kernel
  · decide +kernel
  · decide +kernel

end ClientSys

end PetalinuxDriver
