import PetalinuxDriver.Analysis.CompletionOrder

/-!
# FIFO, exactly-once completion

What the simulation by a pipeline says about runs of the driver at lock granularity, together with
three things that the pipeline does not see: a callback comes after the completion of its cookie,
`done_list` is never left with nobody to clean it up, and the pool keeps the cookies in flight far
below the number at which they repeat, so that `xilinx_dma_tx_status` is right also after they wrap.
-/

set_option autoImplicit false

namespace PetalinuxDriver

open Library

variable {cfg : PhysAddrConfig}

/-! ## Callbacks come after completion -/

/-- Whenever a descriptor was called back, its cookie had been completed before. -/
def CalledAfterComplete (log : List Event) : Prop :=
  ∀ w id w', log = w ++ .callback id :: w' → Event.cookieComplete id ∈ w

/-- New callbacks of completed descriptors keep the order. -/
theorem CalledAfterComplete.append {log w : List Event} (h : CalledAfterComplete log)
    (hw : ∀ id, Event.callback id ∈ w → Event.cookieComplete id ∈ log) :
    CalledAfterComplete (log ++ w) := by
  intro u id v heq
  rcases List.append_eq_append_iff.mp heq with ⟨u', rfl, hw'⟩ | ⟨log', hlog, hv⟩
  · exact List.mem_append_left _ (hw id (by rw [hw']; simp))
  · cases log' with
    | nil =>
      rw [List.append_nil] at hlog
      rw [List.nil_append] at hv
      rw [← hlog]
      exact hw id (by rw [← hv]; simp)
    | cons e log' =>
      rw [List.cons_append] at hv
      obtain rfl : Event.callback id = e := (List.cons.inj hv).1
      exact h u id log' hlog

/-- A descriptor is complete when the log says so. -/
theorem mem_completedIds {s : XilinxDmaChan cfg} {id : Nat} :
    id ∈ completedIds s ↔ Event.cookieComplete id ∈ s.log := by
  simp only [completedIds, List.mem_filterMap]
  constructor
  · rintro ⟨e, he, heq⟩
    cases e <;> cases heq
    exact he
  · intro he
    exact ⟨_, he, rfl⟩

/-- The cleanup calls back only descriptors from `done_list`. -/
theorem cleanup_log (s : XilinxDmaChan cfg) :
    ∃ w, (xilinxDmaChanDescCleanup s).1.log = s.log ++ w ∧
      ∀ id, Event.callback id ∈ w → id ∈ s.doneList.map XilinxDmaTxDescriptor.id := by
  obtain ⟨freed, rest, hsplit, -, hcases⟩ := cleanupLoop_cases s.doneList s rfl
  have hmem : ∀ {d : XilinxDmaTxDescriptor cfg} {tl : List (XilinxDmaTxDescriptor cfg)},
      rest = d :: tl → ∀ id, Event.callback id ∈ [Event.callback d.id] →
        id ∈ s.doneList.map XilinxDmaTxDescriptor.id := by
    intro d tl hrest id hid
    obtain rfl : id = d.id := by simpa using hid
    rw [hsplit, hrest]
    simp
  unfold xilinxDmaChanDescCleanup
  rcases hcases with ⟨-, h⟩ | ⟨d, tl, -, -, -, h⟩ | ⟨d, tl, hrest, -, h⟩ | ⟨d, tl, hrest, -, h⟩ <;>
    rw [h]
  · exact ⟨[], by simp, by simp⟩
  · exact ⟨[], by simp, by simp⟩
  · exact ⟨_, rfl, hmem hrest⟩
  · exact ⟨_, rfl, hmem hrest⟩

/-- The rest of a cleanup calls back only what is done. -/
theorem cleanupResume_log (pc : CleanupPc cfg) (s : XilinxDmaChan cfg) :
    ∃ w, (cleanupResume pc s).1.log = s.log ++ w ∧
      ∀ id, Event.callback id ∈ w → id ∈ s.doneList.map XilinxDmaTxDescriptor.id := by
  cases pc with
  | idle => exact ⟨[], by simp [cleanupResume], by simp⟩
  | cyclicCallback => exact ⟨[], by simp [cleanupResume], by simp⟩
  | callback d =>
    have h := cleanup_log (xilinxDmaFreeTxDescriptor s d.segments)
    rw [freeTxDescriptor_eq] at h
    rw [cleanupResume, freeTxDescriptor_eq]
    exact h

/-- No section of a call makes a callback. -/
theorem VxdmaSys.Section.log {env : CallEnv} {s t : XilinxDmaChan cfg} {c : Call cfg}
    {after : After cfg} (h : VxdmaSys.Section env s c t after) :
    ∃ w, t.log = s.log ++ w ∧ ∀ e ∈ w, e.called = none := by
  have hstart : ∀ u : XilinxDmaChan cfg, ∃ w,
      (xilinxDmaStartTransfer env.startOk u).log = u.log ++ w ∧ ∀ e ∈ w, e.called = none := by
    intro u
    rcases startTransfer_cases env.startOk u with
      ⟨-, h⟩ | ⟨-, -, c, w, hw, h⟩ | ⟨-, -, c, w, hw, h⟩ <;> rw [h]
    · exact ⟨[], by simp, by simp⟩
    · exact ⟨w, rfl, fun e he => (quiet_of_isBusWrite (hw e he)).2.2.1⟩
    · exact ⟨w, rfl, fun e he => (quiet_of_isBusWrite (hw e he)).2.2.1⟩
  have hfree : ∃ w, (xilinxDmaFreeDescriptors s).log = s.log ++ w ∧ ∀ e ∈ w, e.called = none := by
    rw [freeDescriptors_eq]
    refine ⟨_, rfl, fun e he => ?_⟩
    obtain ⟨d, -, rfl⟩ := List.mem_map.mp he
    rfl
  by_cases hchanges : c.changesQueues = false
  · obtain ⟨w, hlog, hw⟩ := (h.sameHistory hchanges).log
    exact ⟨w, hlog, fun e he => (hw e he).2.2.1⟩
  · cases h with
    | queued => exact ⟨_, rfl, by simp [Event.called]⟩
    | queuedBug => exact ⟨_, rfl, by simp [Event.called]⟩
    | issue => exact hstart s
    | irqLock =>
      obtain ⟨w, hlog, hw⟩ := hstart (irqComplete s)
      refine ⟨s.activeList.flatMap completeEvents ++ w, ?_, fun e he => ?_⟩
      · rw [hlog, irqComplete_eq, List.append_assoc]
      · rcases List.mem_append.mp he with he | he
        · rcases mem_completeEvents he with rfl | ⟨d, -, rfl⟩
          · rfl
          · rfl
        · exact hw e he
    | terminateFree => exact hfree
    | freeChan => exact hfree
    | _ => exact absurd rfl hchanges

namespace VxdmaSys

/-- Every guarded action calls back only what is complete. -/
theorem sectionStep_calledAfter {s s' : VxdmaSys cfg} {a : Act cfg}
    (hs : CalledAfterComplete s.chan.log)
    (hdone : ∀ id ∈ s.chan.doneList.map XilinxDmaTxDescriptor.id, id ∈ completedIds s.chan)
    (hok : s.FifoGuard a) (h : s.sectionStep a = some s') : CalledAfterComplete s'.chan.log := by
  obtain ⟨hbug, h⟩ := sectionStep_inv h
  cases h with
  | run i env c s' hc hleave =>
    obtain ⟨w, hlog, hw⟩ := (run_inv env hbug c).log
    rw [leave_chan hleave, hlog]
    refine hs.append fun id hid => ?_
    cases hw _ hid
  | tasklet =>
    obtain ⟨w, hlog, hw⟩ := cleanup_log { s.chan with tasklet := false }
    rw [hlog]
    exact hs.append fun id hid => mem_completedIds.mp (hdone id (hw id hid))
  | callbackReturn =>
    obtain ⟨w, hlog, hw⟩ := cleanupResume_log s.cleanup s.chan
    rw [hlog]
    exact hs.append fun id hid => mem_completedIds.mp (hdone id (hw id hid))
  | allocChanResources => exact hok.elim
  | _ => exact hs

/-! ## Somebody cleans up -/

/-- What is on `done_list` will be cleaned up: the tasklet is scheduled or running, or an interrupt
handler is about to schedule it. -/
structure Drained (s : VxdmaSys cfg) : Prop where
  cleanup : s.cleanup ≠ .cyclicCallback
  drained : s.chan.doneList = [] ∨ s.chan.tasklet = true ∨ s.cleanup ≠ .idle ∨
    Call.irqSchedule ∈ s.calls

/-- A section puts something on `done_list` only as a handler that goes on to schedule the
tasklet, and no section takes the tasklet off. -/
theorem Section.drained {env : CallEnv} {s t : XilinxDmaChan cfg} {c : Call cfg}
    {after : After cfg} (h : Section env s c t after) :
    (t.doneList = s.doneList ∨ t.doneList = [] ∨ after = .goesOn .irqSchedule) ∧
      (s.tasklet = true ∨ c = .irqSchedule → t.tasklet = true) := by
  have hsched : ∀ {t : XilinxDmaChan cfg} {c : Call cfg}, t.tasklet = s.tasklet →
      c ≠ .irqSchedule → s.tasklet = true ∨ c = .irqSchedule → t.tasklet = true := by
    intro t c ht hc h
    rcases h with h | h
    · rw [ht, h]
    · exact absurd h hc
  cases h with
  | buildError =>
    exact ⟨Or.inl (by rw [freeTxDescriptor_eq]), hsched (by rw [freeTxDescriptor_eq]) (by simp)⟩
  | submitRefused =>
    exact ⟨Or.inl (by rw [freeTxDescriptor_eq]), hsched (by rw [freeTxDescriptor_eq]) (by simp)⟩
  | issue =>
    obtain ⟨-, hdone, htasklet⟩ := startTransfer_queues env.startOk s
    exact ⟨Or.inl hdone, hsched htasklet (by simp)⟩
  | irqIoc => exact ⟨Or.inl (by rw [irqAck_eq]), hsched (by rw [irqAck_eq]) (by simp)⟩
  | irqOther => exact ⟨Or.inl (by rw [irqAck_eq]), hsched (by rw [irqAck_eq]) (by simp)⟩
  | irqLock =>
    obtain ⟨-, -, htasklet⟩ := startTransfer_queues env.startOk (irqComplete s)
    refine ⟨Or.inr (Or.inr rfl), hsched ?_ (by simp)⟩
    rw [htasklet, irqComplete_eq]
  | irqSchedule => exact ⟨Or.inl rfl, fun _ => rfl⟩
  | terminate => exact ⟨Or.inl (by rw [halt_eq]), hsched (by rw [halt_eq]) (by simp)⟩
  | terminateFree =>
    rw [freeDescriptors_eq]
    exact ⟨Or.inr (Or.inl rfl), hsched rfl (by simp)⟩
  | terminateClear =>
    rw [clearCyclic_eq]
    exact ⟨Or.inl rfl, hsched rfl (by simp)⟩
  | freeChan =>
    rw [freeDescriptors_eq]
    exact ⟨Or.inr (Or.inl rfl), hsched rfl (by simp)⟩
  | _ => exact ⟨Or.inl rfl, hsched rfl (by simp)⟩

/-- Without a cyclic descriptor the cleanup stops at a callback or with `done_list` empty. -/
theorem cleanup_drained {s : XilinxDmaChan cfg} (hcyc : ∀ d ∈ s.doneList, d.cyclic = false) :
    (xilinxDmaChanDescCleanup s).2 ≠ .cyclicCallback ∧
      ((xilinxDmaChanDescCleanup s).1.doneList = [] ∨ (xilinxDmaChanDescCleanup s).2 ≠ .idle) := by
  obtain ⟨freed, rest, hsplit, -, hcases⟩ := cleanupLoop_cases s.doneList s rfl
  have hrest : ∀ {d : XilinxDmaTxDescriptor cfg} {tl : List (XilinxDmaTxDescriptor cfg)},
      rest = d :: tl → d.cyclic = false := fun {d tl} h => hcyc d (by rw [hsplit, h]; simp)
  unfold xilinxDmaChanDescCleanup
  rcases hcases with ⟨hnil, h⟩ | ⟨d, tl, htl, hd, -, -⟩ | ⟨d, tl, htl, hd, -⟩ | ⟨d, tl, -, -, h⟩
  · rw [h]
    exact ⟨by simp, Or.inl hnil⟩
  · rw [hrest htl] at hd
    cases hd
  · rw [hrest htl] at hd
    cases hd
  · rw [h]
    exact ⟨by simp, Or.inr (by simp)⟩

/-- Every guarded action leaves somebody to clean up what is done. -/
theorem sectionStep_drained {s s' : VxdmaSys cfg} {a : Act cfg} (hs : Drained s)
    (hcyc : NonCyclic s) (hok : s.FifoGuard a) (h : s.sectionStep a = some s') : Drained s' := by
  obtain ⟨hbug, h⟩ := sectionStep_inv h
  have hdone : ∀ d ∈ s.chan.doneList, d.cyclic = false := fun d hd =>
    hcyc.queues d (by simp [XilinxDmaChan.queues, hd])
  have henter : ∀ c : Call cfg, Drained (s.enter c) := fun c => by
    refine ⟨hs.cleanup, ?_⟩
    rcases hs.drained with h | h | h | h
    · exact Or.inl h
    · exact Or.inr (Or.inl h)
    · exact Or.inr (Or.inr (Or.inl h))
    · exact Or.inr (Or.inr (Or.inr (List.mem_cons_of_mem c h)))
  cases h with
  | prepNull => exact hs
  | prepBuild _ chunks b =>
    have hcall := henter (.build chunks b)
    exact ⟨hcall.cleanup, hcall.drained⟩
  | txSubmit i callback d =>
    have hcall := henter (.submit { d with callback := callback })
    exact ⟨hcall.cleanup, hcall.drained⟩
  | issuePending => exact henter _
  | interrupt => exact henter _
  | terminateAll => exact henter _
  | freeChanResources => exact henter _
  | allocChanResources => exact hok.elim
  | device => exact ⟨hs.cleanup, hs.drained⟩
  | tasklet =>
    obtain ⟨hpc, hempty⟩ := cleanup_drained (s := { s.chan with tasklet := false }) hdone
    refine ⟨hpc, ?_⟩
    rcases hempty with h | h
    · exact Or.inl h
    · exact Or.inr (Or.inr (Or.inl h))
  | callbackReturn hbusy =>
    cases hpc : s.cleanup with
    | idle => exact absurd hpc hbusy
    | cyclicCallback => exact absurd hpc hs.cleanup
    | callback d =>
      have hfree : (xilinxDmaFreeTxDescriptor s.chan d.segments).doneList = s.chan.doneList := by
        rw [freeTxDescriptor_eq]
      obtain ⟨hpc, hempty⟩ := cleanup_drained (s := xilinxDmaFreeTxDescriptor s.chan d.segments)
        (by rwa [hfree])
      refine ⟨hpc, ?_⟩
      rcases hempty with h | h
      · exact Or.inl h
      · exact Or.inr (Or.inr (Or.inl h))
  | run i env c s' hc hleave =>
    obtain ⟨hlist, hsched⟩ := (run_inv env hbug c).drained
    rw [leave_eq hleave]
    refine ⟨hs.cleanup, ?_⟩
    rcases hlist with hsame | hnil | hgo
    · rw [hsame]
      rcases hs.drained with h | h | h | h
      · exact Or.inl h
      · exact Or.inr (Or.inl (hsched (Or.inl h)))
      · exact Or.inr (Or.inr (Or.inl h))
      · -- the handler that was about to schedule the tasklet has done it, or still is
        obtain ⟨hi, rfl⟩ := List.getElem?_eq_some_iff.mp hc
        have hperm := List.getElem_cons_eraseIdx_perm hi
        rcases List.mem_cons.mp (hperm.symm.subset h) with h | h
        · exact Or.inr (Or.inl (hsched (Or.inr h.symm)))
        · exact Or.inr (Or.inr (Or.inr (List.mem_append_right _ h)))
    · exact Or.inl hnil
    · exact Or.inr (Or.inr (Or.inr (List.mem_append_left _ (After.mem_calls.mpr hgo))))

/-! ## The status of a cookie -/

/-- The first return value of `xilinx_dma_tx_status` is that of `dma_cookie_status`. -/
theorem txStatus_ret (cookie : Int) (txstate : Bool) (s : XilinxDmaChan cfg) :
    (xilinxDmaTxStatus cookie txstate s).2.1 = dmaCookieStatus s.common cookie := by
  unfold xilinxDmaTxStatus
  simp only
  split
  · rfl
  · split
    · rfl
    · split <;> rfl

/-- `xilinx_dma_tx_status` says that the latest descriptor with some cookie is complete exactly when
it is neither active nor pending. -/
def StatusExact (s : XilinxDmaChan cfg) : Prop :=
  ∀ k id cookie txstate, (assigned s)[k]? = some (id, cookie) →
    (assigned s).length - (k + 1) < cookiePeriod →
    ((xilinxDmaTxStatus cookie txstate s).2.1 = .complete ↔
      id ∉ (s.activeList ++ s.pendingList).map XilinxDmaTxDescriptor.id)

/-- The last of the first `m` cookies. -/
theorem getLast_cookies {l : List Int} {m : Nat}
    (h : l = (List.range m).map fun k => cookieOf (k + 1)) :
    l.getLast?.getD dmaMinCookie = cookieOf m := by
  cases m with
  | zero =>
    rw [h]
    rfl
  | succ m =>
    rw [h, List.range_succ, List.map_append]
    simp

/-- With the pipeline in order and nothing dropped the status of a cookie is exact. -/
theorem statusExact_of_abstracts {s : XilinxDmaChan cfg} {p : Pipeline (Nat × Int)}
    (hp : Abstracts s p) (horder : p.InOrder) (hnodup : (submittedIds s).Nodup)
    (hnone : p.dropped = []) (hroom : s.activeList.length + s.pendingList.length < cookiePeriod) :
    StatusExact s := by
  intro k id cookie txstate hk hlatest
  have hall := horder.complete hnone
  rw [← hp.accepted] at hk hlatest
  have hlen : p.completed.length ≤ p.accepted.length := by
    rw [← hall, List.length_append]
    exact Nat.le_add_right _ _
  have hflight : p.accepted.length - p.completed.length < cookiePeriod := by
    have := congrArg List.length hall
    simp only [List.length_append, hp.running, hp.waiting, List.length_map] at this
    omega
  have hklt : k < p.accepted.length := (List.getElem?_eq_some_iff.mp hk).1
  have hcookie : cookie = cookieOf (k + 1) := by
    have hsnd : (p.accepted.map Prod.snd)[k]? = some cookie := by
      rw [List.getElem?_map, hk]
      rfl
    rw [hp.cookies] at hsnd
    simpa [hklt] using hsnd.symm
  have hlast : s.common = ⟨cookieOf p.accepted.length, cookieOf p.completed.length⟩ := by
    have hprefix : p.completed.map Prod.snd =
        (List.range p.completed.length).map fun k => cookieOf (k + 1) := by
      have htake := congrArg (List.take p.completed.length) hp.cookies
      rw [← List.map_take, ← List.map_take, List.take_range, Nat.min_eq_left hlen] at htake
      rw [← htake, ← hall, List.take_left]
    rw [hp.common, ← List.getLast?_map, getLast_cookies hprefix]
  rw [txStatus_ret, dmaCookieStatus, hlast, hcookie,
    dmaAsyncIsComplete_cookieOf hlen hflight hklt hlatest]
  -- the first of the accepted descriptors completed, and the others are queued
  have hids : submittedIds s = p.completed.map Prod.fst ++
      (s.activeList ++ s.pendingList).map XilinxDmaTxDescriptor.id := by
    rw [submittedIds, ← hp.accepted, ← hall, hp.running, hp.waiting]
    simp [XilinxDmaTxDescriptor.key, Function.comp_def]
  have hat : (submittedIds s)[k]? = some id := by
    rw [submittedIds, ← hp.accepted, List.getElem?_map, hk]
    rfl
  rw [hids] at hat hnodup
  have hlenIds : (p.completed.map Prod.fst).length = p.completed.length := List.length_map _
  constructor
  · intro hle hqueued
    rw [List.getElem?_append_left (by omega)] at hat
    exact (List.nodup_append.mp hnodup).2.2 id (List.mem_of_getElem? hat) id hqueued rfl
  · intro hqueued
    by_contra hlt
    rw [List.getElem?_append_right (by omega)] at hat
    exact hqueued (List.mem_of_getElem? hat)

/-! ## Runs -/

/-- What holds of the completions of a channel. -/
structure FifoCompletion (s : VxdmaSys cfg) : Prop where
  /-- `done_list`, `active_list` and `pending_list`, one after the other, are in the order of
  submission, with growing cookies as long as these have not wrapped. -/
  queued : ∃ done : List (Nat × Int), done.map Prod.fst = s.chan.doneList.map XilinxDmaTxDescriptor.id ∧
    (done ++ (s.chan.activeList ++ s.chan.pendingList).map XilinxDmaTxDescriptor.key).Sublist
      (assigned s.chan) ∧
    ((assigned s.chan).length < cookiePeriod →
      ((done ++ (s.chan.activeList ++ s.chan.pendingList).map XilinxDmaTxDescriptor.key).map
        Prod.snd).Pairwise (· < ·))
  /-- Cookies are completed in the order of submission. -/
  completed : (completedIds s.chan).Sublist (submittedIds s.chan)
  /-- Callbacks are made in the order of submission ... -/
  called : (calledIds s.chan).Sublist (submittedIds s.chan)
  /-- ... at most once for each descriptor ... -/
  once : (calledIds s.chan).Nodup
  /-- ... after its cookie was completed ... -/
  after : CalledAfterComplete s.chan.log
  /-- ... and never for one that was terminated. -/
  terminated : ∀ id ∈ calledIds s.chan, id ∉ freedIds s.chan
  /-- Nothing stays on `done_list` with nobody to clean it up. -/
  drained : (∀ c ∈ s.calls, c ≠ .irq ∧ c ≠ .irqLock ∧ c ≠ .irqSchedule) → s.cleanup = .idle →
    s.chan.tasklet = false → s.chan.doneList = []

/-- The invariant of a run, with the state of the pipeline. -/
structure FifoInv (s : VxdmaSys cfg) (p : Pipeline (Nat × Int)) : Prop where
  order : p.InOrder
  abstracts : Abstracts s.chan p
  nonCyclic : NonCyclic s
  names : NamesOnce s
  once : OwnedOnce s
  pools : s.chan.pools = 1
  after : CalledAfterComplete s.chan.log
  drained : Drained s

/-- No descriptor is submitted twice. -/
theorem FifoInv.submitted_nodup {s : VxdmaSys cfg} {p : Pipeline (Nat × Int)}
    (h : FifoInv s p) : (submittedIds s.chan).Nodup := by
  have hle : (↑(submittedIds s.chan) : Multiset Nat) ≤ s.names := Multiset.le_add_left _ _
  exact Multiset.coe_nodup.mp (Multiset.nodup_of_le hle h.names.nodup)

/-- One action of the driver keeps the invariant, along with a run of the pipeline. -/
theorem sectionStep_fifoInv {s s' : VxdmaSys cfg} {a : Act cfg} {p : Pipeline (Nat × Int)}
    (hs : FifoInv s p) (hok : s.FifoGuard a) (h : s.sectionStep a = some s') :
    ∃ p', Reachable Pipeline.step always p p' ∧ FifoInv s' p' := by
  obtain ⟨p', hrun, hp'⟩ := sectionStep_abstracts hs.abstracts hs.nonCyclic hs.names hok h
  have horder : p'.InOrder := hs.order.run hrun
  have hdone : ∀ id ∈ s.chan.doneList.map XilinxDmaTxDescriptor.id, id ∈ completedIds s.chan := by
    intro id hid
    rw [← hs.abstracts.finished] at hid
    rw [← hs.abstracts.completed]
    have hsub := (List.sublist_append_right p.delivered p.finished).trans hs.order.delivered
    exact (hsub.map Prod.fst).subset hid
  have hpools : s'.chan.pools = s.chan.pools := by
    rcases sectionStep_pool h with ⟨zalloc, rfl⟩ | ⟨i, env, -, -, hchan⟩ | hpool
    · exact hok.elim
    · rw [hchan]
      rfl
    · exact hpool.pools
  exact ⟨p', hrun, horder, hp', sectionStep_nonCyclic hs.nonCyclic hok h,
    sectionStep_namesOnce hs.names h, sectionStep_ownedOnce hs.once h, hpools.trans hs.pools,
    sectionStep_calledAfter hs.after hdone hok h, sectionStep_drained hs.drained hs.nonCyclic hok h⟩

/-- Nothing has happened on a channel that was just allocated. -/
theorem allocated_fifoInv (hasSg : Bool) (ctrlOffset : Nat) (dmacr : BitVec 32)
    (segP : DmaAddr cfg) :
    FifoInv (allocated hasSg ctrlOffset dmacr segP) Pipeline.empty := by
  have habstracts : Abstracts (allocated hasSg ctrlOffset dmacr segP).chan Pipeline.empty :=
    ⟨rfl, rfl, rfl, rfl, rfl, List.nil_sublist _, rfl, rfl, rfl⟩
  have hqueues : (allocated hasSg ctrlOffset dmacr segP).chan.queues = [] := rfl
  have hprepared : (allocated hasSg ctrlOffset dmacr segP).prepared = [] := rfl
  have hcalls : (allocated hasSg ctrlOffset dmacr segP).calls = [] := rfl
  have hcleanup : (allocated hasSg ctrlOffset dmacr segP).cleanup = .idle := rfl
  have hcalled : CalledAfterComplete (allocated hasSg ctrlOffset dmacr segP).chan.log := by
    have hnil : CalledAfterComplete [] := fun w id w' h => by simp at h
    have hprobed : CalledAfterComplete (probedChan hasSg ctrlOffset dmacr : XilinxDmaChan cfg).log :=
      hnil.append fun id hid => by simp at hid
    exact hprobed.append fun id hid => by simp at hid
  exact ⟨Pipeline.empty_inOrder, habstracts,
    ⟨by simp [hqueues], by simp [hprepared], by simp [hcalls]⟩, allocated_namesOnce _ _ _ _,
    allocated_ownedOnce _ _ _ _, rfl, hcalled, ⟨by simp [hcleanup], Or.inl rfl⟩⟩

/-- The cookies of the accepted descriptors grow until they wrap. -/
theorem assigned_pairwise {s : XilinxDmaChan cfg} {p : Pipeline (Nat × Int)} (hp : Abstracts s p)
    (hlt : (assigned s).length < cookiePeriod) :
    ((assigned s).map Prod.snd).Pairwise (· < ·) := by
  rw [← hp.accepted] at hlt ⊢
  rw [hp.cookies, List.pairwise_map]
  refine List.Pairwise.imp_of_mem ?_ List.pairwise_lt_range
  intro j k _ hk hjk
  have hk := List.mem_range.mp hk
  exact cookieOf_lt (by omega) (by omega)

/-- The invariant has all that is said about the order. -/
theorem FifoInv.fifoCompletion {s : VxdmaSys cfg} {p : Pipeline (Nat × Int)} (h : FifoInv s p) :
    FifoCompletion s := by
  have hqueued : (p.finished ++ (s.chan.activeList ++ s.chan.pendingList).map
      XilinxDmaTxDescriptor.key).Sublist (assigned s.chan) := by
    rw [List.map_append, ← h.abstracts.running, ← h.abstracts.waiting, ← h.abstracts.accepted]
    exact (List.sublist_append_right _ _).trans h.order.queued
  have hdelivered : (p.delivered.map Prod.fst).Sublist (submittedIds s.chan) := by
    rw [submittedIds, ← h.abstracts.accepted]
    exact ((List.sublist_append_left _ _).trans h.order.queued).map Prod.fst
  have hcalled := h.abstracts.called.trans hdelivered
  refine ⟨⟨p.finished, h.abstracts.finished, hqueued, fun hlt => ?_⟩, ?_, hcalled,
    hcalled.nodup h.submitted_nodup, h.after, fun id hid hfreed => ?_, fun hcalls hpc hsched => ?_⟩
  · exact (assigned_pairwise h.abstracts hlt).sublist (hqueued.map Prod.snd)
  · rw [← h.abstracts.completed, submittedIds, ← h.abstracts.accepted]
    exact ((List.sublist_append_left _ _).trans h.order.completed).map Prod.fst
  · -- one name belongs to one accepted descriptor only
    rw [← h.abstracts.dropped] at hfreed
    obtain ⟨a, ha, haid⟩ := List.mem_map.mp (h.abstracts.called.subset hid)
    obtain ⟨b, hb, hbid⟩ := List.mem_map.mp hfreed
    have hnodup : (p.accepted.map Prod.fst).Nodup := by
      rw [h.abstracts.accepted]
      exact h.submitted_nodup
    have hmem : a ∈ p.accepted :=
      h.order.queued.subset (List.mem_append_left _ ha)
    have hab : a = b :=
      List.inj_on_of_nodup_map hnodup hmem (h.order.dropped_subset hb) (haid.trans hbid.symm)
    exact h.order.notMem_dropped ha (hab ▸ hb)
  · rcases h.drained.drained with hnil | htasklet | hbusy | hirq
    · exact hnil
    · rw [hsched] at htasklet
      cases htasklet
    · exact absurd hpc hbusy
    · exact absurd rfl (hcalls _ hirq).2.2

/-- As long as nothing was freed off a list, `xilinx_dma_tx_status` is exact. The pool bounds the
number of cookies in flight. -/
theorem FifoInv.statusExact {s : VxdmaSys cfg} {p : Pipeline (Nat × Int)} (h : FifoInv s p)
    (hfreed : freedIds s.chan = []) : StatusExact s.chan := by
  have hnone : p.dropped = [] := by
    have := h.abstracts.dropped
    rw [hfreed] at this
    exact List.map_eq_nil_iff.mp this
  have hle : (↑(segsOf (s.chan.activeList ++ s.chan.pendingList)) : Multiset SegPtr) ≤ s.owned := by
    refine Multiset.le_iff_exists_add.mpr ⟨↑s.chan.freeSegList + ↑(segsOf s.chan.doneList) +
      ↑(segsOf s.prepared) + ↑(segsOf s.held) + ↑(s.calls.flatMap Call.segs), ?_⟩
    simp only [owned, XilinxDmaChan.owned, segsOf_append, ← Multiset.coe_add]
    abel
  have hpool : ∀ q ∈ segsOf (s.chan.activeList ++ s.chan.pendingList), q.pool = 0 := fun q hq => by
    have := h.once.allocated q (Multiset.mem_of_le hle (Multiset.mem_coe.mpr hq))
    rw [h.pools] at this
    omega
  have hroom := length_le_of_pool
    (Multiset.coe_nodup.mp (Multiset.nodup_of_le hle h.once.nodup)) hpool
  rw [List.length_append] at hroom
  refine statusExact_of_abstracts h.abstracts h.order h.submitted_nodup hnone (lt_of_le_of_lt hroom ?_)
  decide

/-- The client does not terminate, and does not release the channel. -/
def StatusGuard (s : VxdmaSys cfg) (a : Act cfg) : Prop :=
  s.FifoGuard a ∧
    match a with
    | .terminateAll => False
    | .freeChanResources => False
    | _ => True

instance (s : VxdmaSys cfg) : (a : Act cfg) → Decidable (s.StatusGuard a)
  | .terminateAll => isFalse And.right
  | .freeChanResources => isFalse And.right
  | .prepSlaveSg _ => inferInstanceAs (Decidable (s.FifoGuard _ ∧ True))
  | .prepDmaCyclic _ => inferInstanceAs (Decidable (s.FifoGuard _ ∧ True))
  | .txSubmit _ _ => inferInstanceAs (Decidable (s.FifoGuard _ ∧ True))
  | .issuePending => inferInstanceAs (Decidable (s.FifoGuard _ ∧ True))
  | .interrupt => inferInstanceAs (Decidable (s.FifoGuard _ ∧ True))
  | .allocChanResources _ => inferInstanceAs (Decidable (s.FifoGuard _ ∧ True))
  | .run _ _ => inferInstanceAs (Decidable (s.FifoGuard _ ∧ True))
  | .tasklet => inferInstanceAs (Decidable (s.FifoGuard _ ∧ True))
  | .callbackReturn => inferInstanceAs (Decidable (s.FifoGuard _ ∧ True))
  | .device _ _ _ => inferInstanceAs (Decidable (s.FifoGuard _ ∧ True))

/-- Nothing was freed off a list, and nobody is about to. -/
structure NothingFreed (s : VxdmaSys cfg) : Prop where
  freed : freedIds s.chan = []
  calls : ∀ c ∈ s.calls, c.dropsLists = false

/-- A start drops no list. -/
theorem startTransfer_freedIds (startOk : Bool) (s : XilinxDmaChan cfg) :
    freedIds (xilinxDmaStartTransfer startOk s) = freedIds s := by
  have hquiet : ∀ {w : List Event}, (∀ e ∈ w, e.isBusWrite = true) →
      w.filterMap Event.freed = [] := fun hw =>
    List.filterMap_eq_nil_iff.mpr fun e he => (quiet_of_isBusWrite (hw e he)).2.2.2
  rcases startTransfer_cases startOk s with ⟨-, h⟩ | ⟨-, -, c, w, hw, h⟩ | ⟨-, -, c, w, hw, h⟩ <;>
    rw [h]
  · simp only [freedIds, List.filterMap_append, hquiet hw, List.append_nil]
  · simp only [freedIds, List.filterMap_append, hquiet hw, List.append_nil]

/-- A section that frees no list leaves the history of freed descriptors alone. -/
theorem Section.nothingFreed {env : CallEnv} {s t : XilinxDmaChan cfg} {c : Call cfg}
    {after : After cfg} (h : Section env s c t after) (hcyc : ∀ d ∈ s.activeList, d.cyclic = false)
    (hc : c.dropsLists = false) : freedIds t = freedIds s := by
  by_cases hchanges : c.changesQueues = false
  · exact (h.sameHistory hchanges).filterMap_log.2.2.2
  · cases h with
    | queued => simp [freedIds, Event.freed]
    | queuedBug => simp [freedIds, List.filterMap_cons, Event.freed]
    | issue => exact startTransfer_freedIds _ _
    | irqLock =>
      refine (startTransfer_freedIds _ _).trans ?_
      have hnone : (s.activeList.flatMap completeEvents).filterMap Event.freed = [] :=
        List.filterMap_eq_nil_iff.mpr fun e he =>
          ((Abstracts.completeEvents_histories hcyc).2 e he).2.2
      rw [irqComplete_eq]
      simp only [freedIds, List.filterMap_append, hnone, List.append_nil]
    | terminateFree => cases hc
    | freeChan => cases hc
    | _ => exact absurd rfl hchanges

/-- A cleanup drops no list. -/
theorem cleanup_freedIds (s : XilinxDmaChan cfg) :
    freedIds (xilinxDmaChanDescCleanup s).1 = freedIds s := by
  obtain ⟨freed, rest, -, -, hcases⟩ := cleanupLoop_cases s.doneList s rfl
  unfold xilinxDmaChanDescCleanup
  rcases hcases with ⟨-, h⟩ | ⟨d, tl, -, -, -, h⟩ | ⟨d, tl, -, -, h⟩ | ⟨d, tl, -, -, h⟩ <;> rw [h]
  · rfl
  · rfl
  · simp [freedIds, XilinxDmaChan.emit, Event.freed]
  · simp [freedIds, XilinxDmaChan.emit, Event.freed]

/-- As long as nothing is dropped no descriptor is freed from the lists. -/
theorem sectionStep_nothingFreed {s s' : VxdmaSys cfg} {a : Act cfg} (hs : NothingFreed s)
    (hcyc : NonCyclic s) (hok : s.StatusGuard a) (h : s.sectionStep a = some s') :
    NothingFreed s' := by
  have hquiet : a ≠ .terminateAll ∧ a ≠ .freeChanResources := by
    constructor
    · rintro rfl
      exact hok.2
    · rintro rfl
      exact hok.2
  refine ⟨?_, sectionStep_keepsLists h hquiet hs.calls⟩
  obtain ⟨hbug, h⟩ := sectionStep_inv h
  cases h with
  | allocChanResources => exact hok.1.elim
  | tasklet => exact (cleanup_freedIds _).trans hs.freed
  | callbackReturn hbusy =>
    cases hpc : s.cleanup with
    | idle => exact absurd hpc hbusy
    | cyclicCallback => exact hs.freed
    | callback d =>
      have hfree := freeTxDescriptor_sameHistory s.chan d.segments
      exact ((cleanup_freedIds _).trans hfree.filterMap_log.2.2.2).trans hs.freed
  | run i env c s' hc hleave =>
    have hactive : ∀ d ∈ s.chan.activeList, d.cyclic = false := fun d hd =>
      hcyc.queues d (by simp [XilinxDmaChan.queues, hd])
    have hfreed := (run_inv env hbug c).nothingFreed hactive (hs.calls c (List.mem_of_getElem? hc))
    rw [leave_chan hleave]
    exact hfreed.trans hs.freed
  | _ => exact hs.freed

/-- A run from the first allocation is simulated by a run of the pipeline. -/
theorem reachable_fifoInv {hasSg : Bool} {ctrlOffset : Nat} {dmacr : BitVec 32}
    {segP : DmaAddr cfg} {s : VxdmaSys cfg}
    (h : Reachable sectionStep FifoGuard (allocated hasSg ctrlOffset dmacr segP) s) :
    ∃ p, FifoInv s p := by
  have hstart := allocated_fifoInv hasSg ctrlOffset dmacr segP
  obtain ⟨p, -, hinv⟩ := h.simulate (R := FifoInv) hstart
    fun _ _ _ _ hs hok hstep => sectionStep_fifoInv hs hok hstep
  exact ⟨p, hinv⟩

/-- **FIFO, exactly-once completion**, in every run of non-cyclic descriptors from the first
allocation, at lock granularity; and without a terminate, `xilinx_dma_tx_status` is exact. -/
theorem fifo_exactly_once {hasSg : Bool} {ctrlOffset : Nat} {dmacr : BitVec 32}
    {segP : DmaAddr cfg} {s : VxdmaSys cfg}
    (h : Reachable sectionStep FifoGuard (allocated hasSg ctrlOffset dmacr segP) s) :
    FifoCompletion s ∧
      (Reachable sectionStep StatusGuard (allocated hasSg ctrlOffset dmacr segP) s →
        StatusExact s.chan) := by
  have hstart := allocated_fifoInv hasSg ctrlOffset dmacr segP
  obtain ⟨p, hinv⟩ := reachable_fifoInv h
  refine ⟨hinv.fifoCompletion, fun hrun => hinv.statusExact ?_⟩
  let Inv : VxdmaSys cfg → Prop := fun s => NothingFreed s ∧ NonCyclic s
  have hcalls : (allocated hasSg ctrlOffset dmacr segP).calls = [] := rfl
  have hnothing : Inv s := hrun.invariant ⟨⟨rfl, by simp [hcalls]⟩, hstart.nonCyclic⟩
    fun _ _ _ hs hok hstep => ⟨sectionStep_nothingFreed hs.1 hs.2 hok hstep,
      sectionStep_nonCyclic hs.2 hok.1 hstep⟩
  exact hnothing.1.freed

/-- Two transfers with callbacks. The interrupt that completes the first one starts the second one,
whose completion comes while the first callback is still running. -/
def twoCallbacks : List (Act .addr32) :=
  let env : CallEnv := ⟨⟨0, true⟩, xilinxDmaXrIrqIocMask, true, true⟩
  [.prepSlaveSg ⟨[⟨0, 1⟩], .memToDev, none, true⟩] ++ sections 2 env ++
  [.prepSlaveSg ⟨[⟨0, 1⟩], .memToDev, none, true⟩] ++ sections 2 env ++
  [.txSubmit 0 (some 0)] ++ sections 3 env ++ [.issuePending] ++ sections 1 env ++
  [.txSubmit 0 (some 1)] ++ sections 3 env ++ [.interrupt] ++ sections 3 env ++
  [.tasklet, .interrupt] ++ sections 2 env ++ [.callbackReturn, .callbackReturn]

/-- Two descriptors with callbacks. -/
theorem fifo_exactly_once_twoCallbacks :
    ∃ s, exec sectionStep (allocated true 0 0 0) twoCallbacks = some s ∧
      calledIds s.chan = [0, 1] ∧ FifoCompletion s ∧ StatusExact s.chan := by
  have hexec : (exec sectionStep (allocated true 0 0 0) twoCallbacks).map
      (fun s => calledIds s.chan) = some [0, 1] := by
    decide +kernel
  obtain ⟨s, hs, hcalled⟩ := Option.map_eq_some_iff.mp hexec
  have hrun : Reachable sectionStep FifoGuard (allocated true 0 0 0) s :=
    Reachable.of_exec (by decide +kernel) hs
  have hrun' : Reachable sectionStep StatusGuard (allocated true 0 0 0) s :=
    Reachable.of_exec (by decide +kernel) hs
  obtain ⟨hfifo, hstatus⟩ := fifo_exactly_once hrun
  exact ⟨s, hs, hcalled, hfifo, hstatus hrun'⟩

end VxdmaSys

end PetalinuxDriver
