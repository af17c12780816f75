import PetalinuxDriver.Analysis.Queues
import PetalinuxDriver.Analysis.Steps

/-!
# Every call returns

No call loops, and none waits for another one: whatever it finds, it has only so many sections left
(`Call.toGo`), and the cleanup has only so many callbacks to make. `work` puts both together. Every
section, and every step of the cleanup, takes something of it, and only a new call adds to it, by no
more than the work that it brings (`sectionStep_work`). When nothing is left to do, no call is in
flight and the tasklet is not scheduled (`driver_comes_to_rest`).
-/

set_option autoImplicit false

namespace PetalinuxDriver

open Library

variable {cfg : PhysAddrConfig}

/-! ## What is left to do -/

/-- The number of sections that a call has left at most. -/
def Call.toGo : Call cfg → Nat
  | .build chunks _ => chunks.length + 2
  | .buildError _ => 1
  | .submit _ => 4
  | .submitRefused _ => 1
  | .submitErr _ => 3
  | .submitReset _ => 2
  | .submitLock _ => 1
  | .issue => 1
  | .irq => 3
  | .irqLock => 2
  | .irqSchedule => 1
  | .terminate => 4
  | .terminateFree => 3
  | .terminateCheck => 2
  | .terminateClear => 1
  | .freeChan => 3
  | .freeChanInit => 2
  | .freeChanCoherent => 1

/-- The descriptors that may yet be called back, but for the one that the cleanup holds. -/
def XilinxDmaChan.queued (s : XilinxDmaChan cfg) : Nat :=
  s.pendingList.length + s.activeList.length + s.doneList.length

/-- What the cleanup has left of the callback that it is in. -/
def CleanupPc.toGo : CleanupPc cfg → Nat
  | .idle => 0
  | .callback _ => 2
  | .cyclicCallback => 1

/-- What a channel has left to do: every queued descriptor may have to be called back. -/
def XilinxDmaChan.work (s : XilinxDmaChan cfg) : Nat :=
  2 * s.queued + if s.tasklet then 2 else 0

/-- A start leaves the work of the tasklet. -/
theorem queued_startTransfer (startOk : Bool) (s : XilinxDmaChan cfg) :
    (xilinxDmaStartTransfer startOk s).queued = s.queued ∧
      (xilinxDmaStartTransfer startOk s).tasklet = s.tasklet := by
  rcases startTransfer_cases startOk s with ⟨-, h⟩ | ⟨-, -, c, w, -, h⟩ | ⟨-, -, c, w, -, h⟩ <;>
    rw [h]
  · exact ⟨rfl, rfl⟩
  · exact ⟨rfl, rfl⟩
  · refine ⟨?_, rfl⟩
    simp only [XilinxDmaChan.queued, List.length_append, List.length_nil]
    omega

/-- What the cleanup frees and holds it takes from `done_list`. -/
theorem cleanup_work (s : XilinxDmaChan cfg) :
    2 * (xilinxDmaChanDescCleanup s).1.queued + (xilinxDmaChanDescCleanup s).2.toGo ≤
        2 * s.queued + 1 ∧
      (xilinxDmaChanDescCleanup s).1.tasklet = s.tasklet := by
  obtain ⟨freed, rest, hsplit, -, hcases⟩ := cleanupLoop_cases s.doneList s rfl
  have hlen : s.doneList.length = freed.length + rest.length := by
    rw [hsplit, List.length_append]
  unfold xilinxDmaChanDescCleanup
  rcases hcases with ⟨-, h⟩ | ⟨d, tl, -, -, -, h⟩ | ⟨d, tl, -, -, h⟩ | ⟨d, tl, hrest, -, h⟩ <;>
    rw [h] <;> refine ⟨?_, rfl⟩ <;>
    simp only [XilinxDmaChan.queued, XilinxDmaChan.emit, CleanupPc.toGo]
  · omega
  · omega
  · omega
  · rw [hrest, List.length_cons] at hlen
    omega

namespace VxdmaSys

/-- **One section** takes something of the work. -/
theorem Section.work {env : CallEnv} {s t : XilinxDmaChan cfg} {c : Call cfg} {after : After cfg}
    (h : Section env s c t after) :
    1 + (3 * (after.calls.map Call.toGo).sum + t.work) ≤ 3 * c.toGo + s.work := by
  have hsame : ∀ {t : XilinxDmaChan cfg} {n : Nat}, t.queued ≤ s.queued → t.tasklet = s.tasklet →
      n < c.toGo → 1 + (3 * n + t.work) ≤ 3 * c.toGo + s.work := by
    intro t n hqueued htasklet hn
    simp only [XilinxDmaChan.work, htasklet]
    omega
  cases h with
  | buildError =>
    rw [freeTxDescriptor_eq]
    exact hsame (Nat.le_refl _) rfl (by simp [After.calls, Call.toGo])
  | submitRefused =>
    rw [freeTxDescriptor_eq]
    exact hsame (Nat.le_refl _) rfl (by simp [After.calls, Call.toGo])
  | queued d =>
    -- one more descriptor to call back, and one section less
    simp only [After.calls, List.map_nil, List.sum_nil, Call.toGo, XilinxDmaChan.work,
      XilinxDmaChan.queued, List.length_append, List.length_singleton]
    omega
  | queuedBug d =>
    simp only [After.calls, List.map_nil, List.sum_nil, Call.toGo, XilinxDmaChan.work,
      XilinxDmaChan.queued, List.length_append, List.length_singleton]
    omega
  | issue =>
    obtain ⟨hqueued, htasklet⟩ := queued_startTransfer env.startOk s
    exact hsame hqueued.le htasklet (by simp [After.calls, Call.toGo])
  | irqIoc =>
    rw [irqAck_eq]
    exact hsame (Nat.le_refl _) rfl (by simp [After.calls, Call.toGo])
  | irqOther =>
    rw [irqAck_eq]
    exact hsame (Nat.le_refl _) rfl (by simp [After.calls, Call.toGo])
  | irqLock =>
    obtain ⟨hqueued, htasklet⟩ := queued_startTransfer env.startOk (irqComplete s)
    refine hsame ?_ (htasklet.trans ?_) (by simp [After.calls, Call.toGo])
    · rw [hqueued, irqComplete_eq]
      simp only [XilinxDmaChan.queued, List.length_append, List.length_map, List.length_nil]
      omega
    · rw [irqComplete_eq]
  | irqSchedule =>
    -- a section less for the tasklet that is scheduled
    simp only [After.calls, List.map_nil, List.sum_nil, Call.toGo, XilinxDmaChan.work,
      XilinxDmaChan.queued, taskletSchedule, if_true]
    omega
  | terminate =>
    rw [halt_eq]
    exact hsame (Nat.le_refl _) rfl (by simp [After.calls, Call.toGo])
  | terminateFree =>
    rw [freeDescriptors_eq]
    exact hsame (Nat.zero_le _) rfl (by simp [After.calls, Call.toGo])
  | freeChan =>
    rw [freeDescriptors_eq]
    exact hsame (Nat.zero_le _) rfl (by simp [After.calls, Call.toGo])
  | terminateClear =>
    rw [clearCyclic_eq]
    exact hsame (Nat.le_refl _) rfl (by simp [After.calls, Call.toGo])
  | _ => exact hsame (Nat.le_refl _) rfl (by simp [After.calls, Call.toGo])

/-! ## The machine -/

/-- A call in flight runs a section, or the cleanup goes on. -/
def Act.internal : Act cfg → Bool
  | .run _ _ => true
  | .tasklet => true
  | .callbackReturn => true
  | _ => false

/-- The work that an action brings in at most. -/
def Act.brings : Act cfg → Nat
  | .prepSlaveSg args => 3 * ((sgChunks args.sgl).length + 2)
  | .prepDmaCyclic args =>
    let numPeriods := (args.bufLen.toNat / args.periodLen.toNat) % 2 ^ 32
    3 * ((cyclicChunks args.bufAddr numPeriods args.periodLen.toNat).length + 2)
  | .txSubmit _ _ => 12
  | .issuePending => 3
  | .interrupt => 9
  | .terminateAll => 12
  | .freeChanResources => 9
  | _ => 0

/-- What is left to do. -/
def work (s : VxdmaSys cfg) : Nat :=
  3 * (s.calls.map Call.toGo).sum + s.chan.work + s.cleanup.toGo

/-- A new call brings the work of its sections. -/
theorem enter_work (s : VxdmaSys cfg) (c : Call cfg) :
    (s.enter c).work = s.work + 3 * c.toGo := by
  simp only [work, enter, List.map_cons, List.sum_cons]
  omega

/-- A builder has as many rounds as its request has pieces. -/
theorem Act.entry_brings {s : XilinxDmaChan cfg} {a : Act cfg} {chunks : List (Chunk cfg)}
    {b : TxBuild} (h : a.entry s = some (.build chunks b)) : 3 * (chunks.length + 2) = a.brings := by
  cases a with
  | prepSlaveSg args =>
    simp only [Act.entry, prepSlaveSgEntry, Option.some.injEq] at h
    split at h
    · cases h
    · split at h
      · cases h
      · cases h
        rfl
  | prepDmaCyclic args =>
    simp only [Act.entry, prepDmaCyclicEntry, Option.some.injEq] at h
    split at h
    · cases h
    · split at h
      · cases h
      · split at h
        · cases h
        · cases h
          rfl
  | _ => cases h

/-- **One action** takes from the work, or brings no more than its own. -/
theorem sectionStep_work {s s' : VxdmaSys cfg} {a : Act cfg} (h : s.sectionStep a = some s') :
    (if a.internal then 1 else 0) + s'.work ≤ s.work + a.brings := by
  obtain ⟨hbug, hstep⟩ := sectionStep_inv h
  cases hstep with
  | prepNull a he =>
    have hout : a.internal = false := by
      cases a with
      | prepSlaveSg args => rfl
      | prepDmaCyclic args => rfl
      | _ => cases he
    rw [hout]
    simp only [Bool.false_eq_true, if_false]
    omega
  | prepBuild a chunks b he =>
    have hout : a.internal = false := by
      cases a with
      | prepSlaveSg args => rfl
      | prepDmaCyclic args => rfl
      | _ => cases he
    rw [hout, enter_work, ← Act.entry_brings he]
    simp only [Bool.false_eq_true, if_false, Nat.zero_add]
    exact Nat.le_refl _
  | txSubmit i callback d hd =>
    rw [enter_work]
    simp only [Act.internal, Act.brings, Call.toGo, Bool.false_eq_true, if_false]
    have hwork : ({ s with prepared := s.prepared.eraseIdx i } : VxdmaSys cfg).work = s.work := rfl
    omega
  | issuePending =>
    rw [enter_work]
    simp only [Act.internal, Act.brings, Call.toGo, Bool.false_eq_true, if_false]
    omega
  | interrupt =>
    rw [enter_work]
    simp only [Act.internal, Act.brings, Call.toGo, Bool.false_eq_true, if_false]
    omega
  | terminateAll =>
    rw [enter_work]
    simp only [Act.internal, Act.brings, Call.toGo, Bool.false_eq_true, if_false]
    omega
  | freeChanResources =>
    rw [enter_work]
    simp only [Act.internal, Act.brings, Call.toGo, Bool.false_eq_true, if_false]
    omega
  | allocChanResources zalloc =>
    have hwork : (xilinxDmaAllocChanResources zalloc s.chan).1.work = s.chan.work := by
      cases zalloc <;> rfl
    simp only [Act.internal, Act.brings, work, hwork, Bool.false_eq_true, if_false]
    omega
  | run i env c s' hc hleave =>
    rw [leave_eq hleave]
    have hsection := (run_inv env hbug c).work
    obtain ⟨hi, rfl⟩ := List.getElem?_eq_some_iff.mp hc
    have hsum : (s.calls.map Call.toGo).sum =
        s.calls[i].toGo + ((s.calls.eraseIdx i).map Call.toGo).sum := by
      rw [← List.sum_cons, ← List.map_cons]
      exact ((List.getElem_cons_eraseIdx_perm hi).map Call.toGo).sum_eq.symm
    simp only [Act.internal, Act.brings, work, List.map_append, List.sum_append, if_true, hsum]
    omega
  | tasklet hidle hsched =>
    have hclean := cleanup_work { s.chan with tasklet := false }
    have hbefore : s.work = 3 * (s.calls.map Call.toGo).sum + (2 * s.chan.queued + 2) := by
      simp [work, XilinxDmaChan.work, hsched, hidle, CleanupPc.toGo]
    rw [hbefore]
    generalize xilinxDmaChanDescCleanup { s.chan with tasklet := false } = r at hclean ⊢
    obtain ⟨hqueued, htasklet⟩ := hclean
    change 2 * r.1.queued + r.2.toGo ≤ 2 * s.chan.queued + 1 at hqueued
    simp only [Act.internal, Act.brings, work, XilinxDmaChan.work, htasklet, if_true,
      Bool.false_eq_true, if_false]
    omega
  | callbackReturn hbusy =>
    cases hpc : s.cleanup with
    | idle => exact absurd hpc hbusy
    | cyclicCallback =>
      simp only [Act.internal, Act.brings, work, cleanupResume, hpc, CleanupPc.toGo, if_true]
      omega
    | callback d =>
      obtain ⟨hclean, htasklet⟩ := cleanup_work (xilinxDmaFreeTxDescriptor s.chan d.segments)
      have hqueued : (xilinxDmaFreeTxDescriptor s.chan d.segments).queued = s.chan.queued := by
        rw [freeTxDescriptor_eq]
        rfl
      have hsame : (xilinxDmaFreeTxDescriptor s.chan d.segments).tasklet = s.chan.tasklet := by
        rw [freeTxDescriptor_eq]
      rw [hqueued] at hclean
      rw [hsame] at htasklet
      simp only [Act.internal, Act.brings, work, XilinxDmaChan.work, cleanupResume, hpc, htasklet,
        CleanupPc.toGo, if_true] at hclean ⊢
      omega
  | device p status app hp =>
    simp only [Act.internal, Act.brings, Bool.false_eq_true, if_false]
    exact (Nat.zero_add _).le

/-- A section ends without a meaning only in a builder that has built nothing. -/
theorem Section.wild_iff {env : CallEnv} {s t : XilinxDmaChan cfg} {c : Call cfg}
    {after : After cfg} (h : Section env s c t after) (hafter : after = .wild) :
    ∃ b : TxBuild, c = .build [] b ∧ b.segments = [] := by
  cases h with
  | buildWild b hnil => exact ⟨b, rfl, hnil⟩
  | _ => cases hafter

/-- While a call is in flight or the cleanup has something to do, one of them goes on, unless what
is left are builders that have built nothing. -/
theorem rest_of_stuck {s : VxdmaSys cfg} (hbug : s.chan.bug = false)
    (hstuck : ∀ a : Act cfg, a.internal = true → s.sectionStep a = none) :
    s.cleanup = .idle ∧ s.chan.tasklet = false ∧
      ∀ c ∈ s.calls, ∃ b : TxBuild, c = .build [] b ∧ b.segments = [] := by
  have hcleanup : s.cleanup = .idle := by
    have hreturn := hstuck .callbackReturn rfl
    simp only [sectionStep, hbug, Bool.false_eq_true, if_false, doCallbackReturn] at hreturn
    cases hpc : s.cleanup with
    | idle => rfl
    | callback d =>
      rw [hpc] at hreturn
      cases hreturn
    | cyclicCallback =>
      rw [hpc] at hreturn
      cases hreturn
  refine ⟨hcleanup, ?_, ?_⟩
  · have htasklet := hstuck .tasklet rfl
    simp only [sectionStep, hbug, Bool.false_eq_true, if_false, doTasklet, hcleanup] at htasklet
    cases hsched : s.chan.tasklet with
    | false => rfl
    | true =>
      rw [hsched] at htasklet
      cases htasklet
  · intro c hc
    obtain ⟨i, hi⟩ := List.mem_iff_getElem?.mp hc
    let env : CallEnv := ⟨⟨0, true⟩, 0, true, true⟩
    have hrun := hstuck (.run i env) rfl
    simp only [sectionStep, hbug, Bool.false_eq_true, if_false, hi] at hrun
    have hsection := run_inv env hbug c
    cases hafter : (c.run env s.chan).2 with
    | wild => exact hsection.wild_iff hafter
    | _ =>
      rw [hafter] at hrun
      cases hrun

/-- **The driver comes to rest.** In any state and any run, the sections that calls run, and the steps
of the cleanup, are no more than the work that was there and that new calls brought; so without new
calls they come to an end, however they interleave and whatever the device answers. When none of
them is possible any more and there was no `BUG()`, the cleanup is over, the tasklet is not
scheduled, and every call has returned but for builders that have built nothing. -/
theorem driver_comes_to_rest {s s' : VxdmaSys cfg} {as : List (Act cfg)}
    (h : exec sectionStep s as = some s') :
    as.countP Act.internal + s'.work ≤ s.work + (as.map Act.brings).sum ∧
      (s'.chan.bug = false → (∀ a : Act cfg, a.internal = true → s'.sectionStep a = none) →
        s'.cleanup = .idle ∧ s'.chan.tasklet = false ∧
          ∀ c ∈ s'.calls, ∃ b : TxBuild, c = .build [] b ∧ b.segments = []) :=
  ⟨exec_countP_le (fun _ _ _ => sectionStep_work) h, rest_of_stuck⟩

/-- An interrupt completes a batch while a builder is at work and the client terminates. -/
def busy : List (Act .addr32) :=
  let env : CallEnv := ⟨⟨0, true⟩, xilinxDmaXrIrqIocMask, true, true⟩
  [.prepSlaveSg ⟨[⟨0, 4⟩], .memToDev, none, true⟩] ++ sections 2 env ++ [.txSubmit 0 (some 0)] ++
  sections 3 env ++ [.issuePending] ++ sections 1 env ++
  [.interrupt, .run 0 env, .prepSlaveSg ⟨[⟨64, 4⟩], .memToDev, none, true⟩, .run 1 env,
    .terminateAll, .run 0 env, .run 1 env, .tasklet, .run 0 env]

/-- Two calls are still in flight. -/
theorem driver_comes_to_rest_busy :
    ∃ s, exec sectionStep (allocated true 0 0 0) busy = some s ∧ s.calls.length = 2 ∧
      busy.countP Act.internal + s.work ≤
        (allocated true 0 0 0 : VxdmaSys .addr32).work + (busy.map Act.brings).sum ∧
      (s.chan.bug = false → (∀ a : Act .addr32, a.internal = true → s.sectionStep a = none) →
        s.cleanup = .idle ∧ s.chan.tasklet = false ∧
          ∀ c ∈ s.calls, ∃ b : TxBuild, c = .build [] b ∧ b.segments = []) := by
  have hexec : (exec sectionStep (allocated true 0 0 0) busy).map (fun s => s.calls.length) =
      some 2 := by
    decide +kernel
  obtain ⟨s, hs, hlength⟩ := Option.map_eq_some_iff.mp hexec
  exact ⟨s, hs, hlength, driver_comes_to_rest hs⟩

end VxdmaSys

end PetalinuxDriver
