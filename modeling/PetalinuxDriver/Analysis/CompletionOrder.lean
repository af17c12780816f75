import PetalinuxDriver.Library.Pipeline
import PetalinuxDriver.Analysis.History

/-!
# The order of completion

However the calls, the interrupt handler, the tasklet and its callbacks interleave, the driver is a
pipeline: a submit accepts a descriptor and lets it wait on `pending_list`, a start moves what waits
to `active_list`, an interrupt completes all of that and moves it to `done_list`, the cleanup takes
descriptors off the front of that, and `xilinx_dma_terminate_all` drops all three lists.
`sectionStep_abstracts` is the simulation of one action by the pipeline.

What the pipeline guarantees is then read back in terms of the driver (`fifo_exactly_once`):
cookies are completed and callbacks made in the order of submission, at most once, never for a
descriptor that was terminated, and nothing stays on `done_list` with nobody to clean it up.
-/

set_option autoImplicit false

namespace PetalinuxDriver

open Library

variable {cfg : PhysAddrConfig}

/-! ## The driver as a pipeline -/

namespace XilinxDmaTxDescriptor

/-- What the pipeline knows of a descriptor: its name and its cookie. -/
def key (d : XilinxDmaTxDescriptor cfg) : Nat × Int := (d.id, d.cookie)

end XilinxDmaTxDescriptor

/-- The channel is in the state of the pipeline. A completed descriptor has lost its cookie, and of
the delivered descriptors only those with a callback leave a trace. -/
structure Abstracts (s : XilinxDmaChan cfg) (p : Pipeline (Nat × Int)) : Prop where
  accepted : p.accepted = assigned s
  waiting : p.waiting = s.pendingList.map XilinxDmaTxDescriptor.key
  running : p.running = s.activeList.map XilinxDmaTxDescriptor.key
  finished : p.finished.map Prod.fst = s.doneList.map XilinxDmaTxDescriptor.id
  completed : p.completed.map Prod.fst = completedIds s
  called : (calledIds s).Sublist (p.delivered.map Prod.fst)
  dropped : p.dropped.map Prod.fst = freedIds s
  cookies : p.accepted.map Prod.snd =
    (List.range p.accepted.length).map fun k => cookieOf (k + 1)
  common : s.common =
    ⟨cookieOf p.accepted.length, (p.completed.getLast?.map Prod.snd).getD dmaMinCookie⟩

/-- One step of the pipeline. -/
theorem pipelineStep {p p' : Pipeline (Nat × Int)} (a : Pipeline.Action (Nat × Int))
    (h : p.step a = some p') : Reachable Pipeline.step always p p' :=
  (Reachable.refl _ _ _).tail a trivial h

namespace Abstracts

variable {s s' : XilinxDmaChan cfg} {p : Pipeline (Nat × Int)}

/-- A step that leaves no trace leaves the pipeline. -/
theorem of_sameHistory (h : Abstracts s p) (hs : SameHistory s s') : Abstracts s' p := by
  obtain ⟨hassigned, hcompleted, hcalled, hfreed⟩ := hs.filterMap_log
  refine ⟨hassigned ▸ h.accepted, ?_, ?_, ?_, hcompleted ▸ h.completed, hcalled ▸ h.called,
    hfreed ▸ h.dropped, h.cookies, hs.common ▸ h.common⟩
  · rw [hs.pendingList]
    exact h.waiting
  · rw [hs.activeList]
    exact h.running
  · rw [hs.doneList]
    exact h.finished

/-- A submit accepts its descriptor under the next cookie. -/
theorem submitLocked (h : Abstracts s p) (d : XilinxDmaTxDescriptor cfg) (hbug : s.bug = false)
    (hnew : d.id ∉ submittedIds s) :
    ∃ p', Reachable Pipeline.step always p p' ∧ Abstracts (submitLocked d s).1 p' := by
  have hassign : dmaCookieAssign s.common =
      (⟨cookieOf (p.accepted.length + 1), s.common.completedCookie⟩,
        cookieOf (p.accepted.length + 1)) := by
    rw [h.common]
    exact dmaCookieAssign_cookieOf _ _
  have hcookie : nextCookie s = cookieOf (p.accepted.length + 1) := by
    rw [nextCookie, hassign]
  have hfresh : (d.id, nextCookie s) ∉ p.accepted := fun hmem =>
    hnew (List.mem_map.mpr ⟨_, h.accepted ▸ hmem, rfl⟩)
  refine ⟨_, pipelineStep (.accept (d.id, nextCookie s)) (if_neg hfresh), ?_⟩
  have hqueue : ∀ t : XilinxDmaChan cfg, ∀ w : List Event, (∀ e ∈ w, e = .bug) →
      t.log = s.log ++ .cookieAssign d.id (nextCookie s) :: w →
      t.pendingList = s.pendingList ++ [{ d with cookie := nextCookie s }] →
      t.activeList = s.activeList → t.doneList = s.doneList →
      t.common = (dmaCookieAssign s.common).1 →
      Abstracts t { p with
        accepted := p.accepted ++ [(d.id, nextCookie s)]
        waiting := p.waiting ++ [(d.id, nextCookie s)] } := by
    intro t w hw hlog hpending hactive hdone hcommon
    have hquiet : ∀ {β : Type} (f : Event → Option β), f .bug = none → w.filterMap f = [] :=
      fun f hf => List.filterMap_eq_nil_iff.mpr fun e he => by rw [hw e he, hf]
    refine ⟨?_, ?_, ?_, ?_, ?_, ?_, ?_, ?_, ?_⟩
    · simp [assigned, hlog, hquiet Event.assigned rfl, Event.assigned, h.accepted]
    · simp [hpending, h.waiting, XilinxDmaTxDescriptor.key]
    · rw [hactive]
      exact h.running
    · rw [hdone]
      exact h.finished
    · simpa [completedIds, hlog, hquiet Event.completed rfl, List.filterMap_cons, Event.completed]
        using h.completed
    · simpa [calledIds, hlog, hquiet Event.called rfl, List.filterMap_cons, Event.called]
        using h.called
    · simpa [freedIds, hlog, hquiet Event.freed rfl, List.filterMap_cons, Event.freed]
        using h.dropped
    · simp [h.cookies, List.range_succ, hcookie]
    · rw [hcommon, hassign, h.common]
      simp
  obtain ⟨-, hpending, hactive, hdone⟩ := submitLocked_lists d hbug
  by_cases hroom : s.descPendingcount < xilinxDmaCoalesceMax
  · rw [submitLocked_queued d hbug hroom] at hpending hactive hdone ⊢
    exact hqueue _ [] (by simp) rfl hpending hactive hdone rfl
  · rw [submitLocked_bug d (by omega)] at hpending hactive hdone ⊢
    exact hqueue _ [.bug] (by simp) rfl hpending hactive hdone rfl

/-- A start moves what waits, or does nothing. -/
theorem startTransfer (h : Abstracts s p) (startOk : Bool) :
    ∃ p', Reachable Pipeline.step always p p' ∧ Abstracts (xilinxDmaStartTransfer startOk s) p' := by
  have hquiet : ∀ {w : List Event}, (∀ e ∈ w, e.isBusWrite = true) → ∀ e ∈ w, e.Quiet :=
    fun hw e he => quiet_of_isBusWrite (hw e he)
  rcases startTransfer_cases startOk s with
    ⟨-, hst⟩ | ⟨-, -, c, w, hw, hst⟩ | ⟨-, -, c, w, hw, hst⟩ <;> rw [hst]
  · exact ⟨p, Reachable.refl _ _ _, h⟩
  · exact ⟨p, Reachable.refl _ _ _, h.of_sameHistory ⟨rfl, rfl, rfl, rfl, rfl, w, rfl, hquiet hw⟩⟩
  · have hwrites : Abstracts { s with ctrlReg := c, log := s.log ++ w } p :=
      h.of_sameHistory ⟨rfl, rfl, rfl, rfl, rfl, w, rfl, hquiet hw⟩
    refine ⟨_, pipelineStep .start rfl, ⟨hwrites.accepted, rfl, ?_, hwrites.finished,
      hwrites.completed, hwrites.called, hwrites.dropped, hwrites.cookies, hwrites.common⟩⟩
    simp [h.running, h.waiting]

/-- The cookie fields after some descriptors are completed. -/
theorem foldl_completeCookie {ds : List (XilinxDmaTxDescriptor cfg)}
    (hcyc : ∀ d ∈ ds, d.cyclic = false) (c : DmaChanCookies) :
    ds.foldl completeCookie c =
      ⟨c.cookie, (ds.getLast?.map XilinxDmaTxDescriptor.cookie).getD c.completedCookie⟩ := by
  induction ds generalizing c with
  | nil => rfl
  | cons d ds ih =>
    have hd : completeCookie c d = { c with completedCookie := d.cookie } := by
      simp [completeCookie, hcyc d List.mem_cons_self]
    rw [List.foldl_cons, hd, ih fun e he => hcyc e (List.mem_cons_of_mem d he)]
    rw [List.getLast?_cons]
    cases ds.getLast? <;> rfl

/-- The events of completing some descriptors. -/
theorem completeEvents_histories {ds : List (XilinxDmaTxDescriptor cfg)}
    (hcyc : ∀ d ∈ ds, d.cyclic = false) :
    (ds.flatMap completeEvents).filterMap Event.completed = ds.map XilinxDmaTxDescriptor.id ∧
      ∀ e ∈ ds.flatMap completeEvents, e.assigned = none ∧ e.called = none ∧ e.freed = none := by
  constructor
  · induction ds with
    | nil => rfl
    | cons d ds ih =>
      have hd : (completeEvents d).filterMap Event.completed = [d.id] := by
        unfold completeEvents
        rw [if_neg (by simp [hcyc d List.mem_cons_self])]
        split <;> rfl
      rw [List.flatMap_cons, List.filterMap_append, hd,
        ih fun e he => hcyc e (List.mem_cons_of_mem d he)]
      rfl
  · intro e he
    rcases mem_completeEvents he with rfl | ⟨d, -, rfl⟩
    · exact ⟨rfl, rfl, rfl⟩
    · exact ⟨rfl, rfl, rfl⟩

/-- An interrupt finishes everything that runs. -/
theorem irqComplete (h : Abstracts s p) (hcyc : ∀ d ∈ s.activeList, d.cyclic = false) :
    ∃ p', Reachable Pipeline.step always p p' ∧ Abstracts (irqComplete s) p' := by
  refine ⟨_, pipelineStep .finish rfl, ?_⟩
  obtain ⟨hids, hother⟩ := completeEvents_histories hcyc
  have hnone : ∀ {β : Type} (f : Event → Option β),
      (∀ e ∈ s.activeList.flatMap completeEvents, f e = none) →
      (s.activeList.flatMap completeEvents).filterMap f = [] := fun f hf =>
    List.filterMap_eq_nil_iff.mpr hf
  rw [irqComplete_eq]
  refine ⟨?_, h.waiting, rfl, ?_, ?_, ?_, ?_, h.cookies, ?_⟩
  · simpa only [assigned, List.filterMap_append, hnone Event.assigned fun e he => (hother e he).1,
      List.append_nil] using h.accepted
  · simp [h.finished, h.running, XilinxDmaTxDescriptor.key, Function.comp_def]
  · simp [completedIds, h.completed, h.running, hids, XilinxDmaTxDescriptor.key, Function.comp_def]
  · simpa only [calledIds, List.filterMap_append, hnone Event.called fun e he => (hother e he).2.1,
      List.append_nil] using h.called
  · simpa only [freedIds, List.filterMap_append, hnone Event.freed fun e he => (hother e he).2.2,
      List.append_nil] using h.dropped
  · simp only [foldl_completeCookie hcyc, h.common, h.running, List.getLast?_append,
      List.getLast?_map]
    cases s.activeList.getLast? <;> simp [XilinxDmaTxDescriptor.key]

/-- Freeing the lists drops everything. -/
theorem freeDescriptors (h : Abstracts s p) :
    ∃ p', Reachable Pipeline.step always p p' ∧ Abstracts (xilinxDmaFreeDescriptors s) p' := by
  refine ⟨_, pipelineStep .drop rfl, ?_⟩
  have hfreed : ∀ ds : List (XilinxDmaTxDescriptor cfg),
      (ds.map fun d => Event.freeDescList d.id).filterMap Event.freed =
        ds.map XilinxDmaTxDescriptor.id := fun ds => by
    rw [List.filterMap_map, ← List.filterMap_eq_map]
    rfl
  have hnone : ∀ {β : Type} (f : Event → Option β), (∀ id, f (.freeDescList id) = none) →
      ∀ ds : List (XilinxDmaTxDescriptor cfg),
        (ds.map fun d => Event.freeDescList d.id).filterMap f = [] := fun f hf ds =>
    List.filterMap_eq_nil_iff.mpr fun e he => by
      obtain ⟨d, -, rfl⟩ := List.mem_map.mp he
      exact hf d.id
  rw [freeDescriptors_eq]
  refine ⟨?_, rfl, rfl, rfl, ?_, ?_, ?_, h.cookies, h.common⟩
  · simpa only [assigned, List.filterMap_append, hnone Event.assigned fun _ => rfl,
      List.append_nil] using h.accepted
  · simpa only [completedIds, List.filterMap_append, hnone Event.completed fun _ => rfl,
      List.append_nil] using h.completed
  · simpa only [calledIds, List.filterMap_append, hnone Event.called fun _ => rfl,
      List.append_nil] using h.called
  · simp only [freedIds, List.filterMap_append, hfreed, List.map_append, h.dropped, h.finished,
      h.waiting, h.running, List.map_map]
    rfl

/-- The cleanup delivers from the front of what has finished. -/
theorem cleanup (h : Abstracts s p) (hcyc : ∀ d ∈ s.doneList, d.cyclic = false) :
    ∃ p', Reachable Pipeline.step always p p' ∧ Abstracts (xilinxDmaChanDescCleanup s).1 p' := by
  obtain ⟨freed, rest, hsplit, -, hcases⟩ := cleanupLoop_cases s.doneList s rfl
  have hfinished := h.finished
  rw [hsplit, List.map_append] at hfinished
  have hlen : ∀ d : XilinxDmaTxDescriptor cfg, d ∈ rest → d.cyclic = false := fun d hd =>
    hcyc d (by rw [hsplit]; exact List.mem_append_right _ hd)
  unfold xilinxDmaChanDescCleanup
  rcases hcases with ⟨hrest, hc⟩ | ⟨d, tl, hrest, hd, -, -⟩ | ⟨d, tl, hrest, hd, -⟩ |
    ⟨d, tl, hrest, -, hc⟩
  · rw [hc]
    refine ⟨_, pipelineStep (.deliver freed.length) rfl, h.accepted, h.waiting, h.running, ?_,
      h.completed, ?_, h.dropped, h.cookies, h.common⟩
    · simp only [List.map_drop, hfinished]
      simp
    · simp only [List.map_append]
      exact h.called.trans (List.sublist_append_left _ _)
  · rw [hlen d (by rw [hrest]; exact List.mem_cons_self)] at hd
    cases hd
  · rw [hlen d (by rw [hrest]; exact List.mem_cons_self)] at hd
    cases hd
  · -- the last of the delivered descriptors is the one that is called back
    rw [hc]
    have htake : (p.finished.take (freed.length + 1)).map Prod.fst =
        freed.map XilinxDmaTxDescriptor.id ++ [d.id] := by
      rw [List.map_take, hfinished, hrest]
      simp [List.take_append]
    have hdrop : (p.finished.drop (freed.length + 1)).map Prod.fst =
        tl.map XilinxDmaTxDescriptor.id := by
      rw [List.map_drop, hfinished, hrest]
      simp [List.drop_append]
    have hemit : ∀ {β : Type} (f : Event → Option β),
        (s.log ++ [Event.callback d.id]).filterMap f =
          s.log.filterMap f ++ (f (.callback d.id)).toList := fun f => by
      rw [List.filterMap_append]
      cases hf : f (.callback d.id) <;> simp [hf]
    refine ⟨_, pipelineStep (.deliver (freed.length + 1)) rfl, ?_, h.waiting, h.running, hdrop, ?_,
      ?_, ?_, h.cookies, h.common⟩
    · simpa [assigned, XilinxDmaChan.emit, hemit, Event.assigned] using h.accepted
    · simpa [completedIds, XilinxDmaChan.emit, hemit, Event.completed] using h.completed
    · simp only [calledIds, XilinxDmaChan.emit, hemit, Event.called, List.map_append, htake,
        Option.toList_some]
      exact h.called.append (List.sublist_append_right _ _)
    · simpa [freedIds, XilinxDmaChan.emit, hemit, Event.freed] using h.dropped

/-- The rest of a cleanup is a run of the pipeline, too. -/
theorem cleanupResume (h : Abstracts s p) (pc : CleanupPc cfg)
    (hcyc : ∀ d ∈ s.doneList, d.cyclic = false) :
    ∃ p', Reachable Pipeline.step always p p' ∧ Abstracts (cleanupResume pc s).1 p' := by
  cases pc with
  | idle => exact ⟨p, Reachable.refl _ _ _, h⟩
  | cyclicCallback => exact ⟨p, Reachable.refl _ _ _, h⟩
  | callback d =>
    have hfree := freeTxDescriptor_sameHistory s d.segments
    refine (h.of_sameHistory hfree).cleanup fun e he => hcyc e ?_
    rwa [hfree.doneList] at he

end Abstracts

/-! ## No cyclic descriptor -/

/-- The call has a cyclic descriptor in its hands. -/
def Call.cyclic : Call cfg → Bool
  | .build _ b => b.cyclic
  | .buildError b => b.cyclic
  | .submit d => d.cyclic
  | .submitRefused d => d.cyclic
  | .submitErr d => d.cyclic
  | .submitReset d => d.cyclic
  | .submitLock d => d.cyclic
  | _ => false

/-- What the end of a section hands on as cyclic. -/
def After.cyclic : After cfg → Bool
  | .goesOn c => c.cyclic
  | .prepared d => d.cyclic
  | _ => false

/-- The queues, front first. -/
def XilinxDmaChan.queues (s : XilinxDmaChan cfg) : List (XilinxDmaTxDescriptor cfg) :=
  s.doneList ++ (s.activeList ++ s.pendingList)

/-- The queues are the same. -/
theorem SameHistory.queues {s s' : XilinxDmaChan cfg} (h : SameHistory s s') :
    s'.queues = s.queues := by
  simp only [XilinxDmaChan.queues, h.doneList, h.activeList, h.pendingList]

/-- A start moves descriptors within the queues. -/
theorem startTransfer_queues (startOk : Bool) (s : XilinxDmaChan cfg) :
    (xilinxDmaStartTransfer startOk s).queues = s.queues ∧
      (xilinxDmaStartTransfer startOk s).doneList = s.doneList ∧
      (xilinxDmaStartTransfer startOk s).tasklet = s.tasklet := by
  rcases startTransfer_cases startOk s with ⟨-, h⟩ | ⟨-, -, c, w, -, h⟩ | ⟨-, -, c, w, -, h⟩ <;>
    rw [h]
  · exact ⟨rfl, rfl, rfl⟩
  · exact ⟨rfl, rfl, rfl⟩
  · exact ⟨by simp [XilinxDmaChan.queues], rfl, rfl⟩

/-- The cleanup leaves a part of the queues. -/
theorem cleanup_queues (s : XilinxDmaChan cfg) :
    (xilinxDmaChanDescCleanup s).1.queues ⊆ s.queues := by
  obtain ⟨freed, rest, hsplit, -, hcases⟩ := cleanupLoop_cases s.doneList s rfl
  have hrest : rest ++ (s.activeList ++ s.pendingList) ⊆ s.queues := by
    rw [XilinxDmaChan.queues, hsplit, List.append_assoc]
    exact List.subset_append_right _ _
  unfold xilinxDmaChanDescCleanup
  rcases hcases with ⟨-, h⟩ | ⟨d, tl, -, -, -, h⟩ | ⟨d, tl, -, -, h⟩ | ⟨d, tl, htl, -, h⟩ <;> rw [h]
  · exact hrest
  · exact hrest
  · exact hrest
  · refine List.Subset.trans ?_ hrest
    rw [htl]
    exact List.subset_cons_self _ _

/-- A cleanup adds nothing to the queues. -/
theorem cleanupResume_queues (pc : CleanupPc cfg) (s : XilinxDmaChan cfg) :
    (cleanupResume pc s).1.queues ⊆ s.queues := by
  cases pc with
  | idle => exact List.Subset.refl _
  | cyclicCallback => exact List.Subset.refl _
  | callback d =>
    have hfree := freeTxDescriptor_sameHistory s d.segments
    rw [← hfree.queues]
    exact cleanup_queues _

namespace VxdmaSys

/-- Nobody has a cyclic descriptor. -/
structure NonCyclic (s : VxdmaSys cfg) : Prop where
  queues : ∀ d ∈ s.chan.queues, d.cyclic = false
  prepared : ∀ d ∈ s.prepared, d.cyclic = false
  calls : ∀ c ∈ s.calls, c.cyclic = false

/-- A section makes no descriptor cyclic. -/
theorem Section.nonCyclic {env : CallEnv} {s t : XilinxDmaChan cfg} {c : Call cfg}
    {after : After cfg} (h : Section env s c t after) (hs : ∀ d ∈ s.queues, d.cyclic = false)
    (hc : c.cyclic = false) : (∀ d ∈ t.queues, d.cyclic = false) ∧ after.cyclic = false := by
  by_cases hchanges : c.changesQueues = false
  · rw [(h.sameHistory hchanges).queues]
    refine ⟨hs, ?_⟩
    cases h with
    | buildDone b d mem hne hbuilt => exact hbuilt.cyclic.trans hc
    | buildRound c cs b => exact hc
    | buildDry c cs b => exact hc
    | submitCyclic => exact hc
    | submitOpen => exact hc
    | submitBroken => exact hc
    | submitSound => exact hc
    | resetOk => exact hc
    | _ => rfl
  · have hnew : ∀ (d : XilinxDmaTxDescriptor cfg) (cookie : Int), d.cyclic = false →
        ∀ e ∈ s.doneList ++ (s.activeList ++ (s.pendingList ++ [{ d with cookie := cookie }])),
          e.cyclic = false := by
      intro d cookie hd e he
      rw [← List.append_assoc s.activeList, ← List.append_assoc s.doneList] at he
      rcases List.mem_append.mp he with he | he
      · exact hs e he
      · rw [List.mem_singleton.mp he]
        exact hd
    cases h with
    | queued d => exact ⟨hnew d _ hc, rfl⟩
    | queuedBug d => exact ⟨hnew d _ hc, rfl⟩
    | issue =>
      rw [(startTransfer_queues env.startOk s).1]
      exact ⟨hs, rfl⟩
    | irqLock =>
      rw [(startTransfer_queues env.startOk (irqComplete s)).1]
      refine ⟨fun d hd => ?_, rfl⟩
      rw [irqComplete_eq] at hd
      simp only [XilinxDmaChan.queues, List.mem_append, List.mem_map, List.not_mem_nil,
        false_or] at hd hs
      rcases hd with (hd | ⟨e, he, rfl⟩) | hd
      · exact hs d (Or.inl hd)
      · rw [completedDesc_cyclic]
        exact hs e (Or.inr (Or.inl he))
      · exact hs d (Or.inr (Or.inr hd))
    | terminateFree =>
      rw [freeDescriptors_eq]
      exact ⟨fun d hd => absurd hd List.not_mem_nil, rfl⟩
    | freeChan =>
      rw [freeDescriptors_eq]
      exact ⟨fun d hd => absurd hd List.not_mem_nil, rfl⟩
    | _ => exact absurd rfl hchanges

/-- No builder is entered for a cyclic descriptor, and the channel is not allocated again, which
would start the cookies over. -/
def FifoGuard (_ : VxdmaSys cfg) (a : Act cfg) : Prop :=
  match a with
  | .prepDmaCyclic _ => False
  | .allocChanResources _ => False
  | _ => True

instance (s : VxdmaSys cfg) (a : Act cfg) : Decidable (s.FifoGuard a) := by
  cases a <;> unfold FifoGuard <;> infer_instance

/-- In a guarded run nothing is cyclic. -/
theorem sectionStep_nonCyclic {s s' : VxdmaSys cfg} {a : Act cfg} (hs : NonCyclic s)
    (hok : s.FifoGuard a) (h : s.sectionStep a = some s') : NonCyclic s' := by
  obtain ⟨hbug, h⟩ := sectionStep_inv h
  have henter : ∀ c : Call cfg, c.cyclic = false → NonCyclic (s.enter c) := fun c hc =>
    ⟨hs.queues, hs.prepared, fun e he => by
      rcases List.mem_cons.mp he with rfl | he
      · exact hc
      · exact hs.calls e he⟩
  cases h with
  | prepNull => exact hs
  | prepBuild _ chunks b he =>
    have hb : b.cyclic = false := by
      cases a with
      | prepSlaveSg args => exact (prepSlaveSgEntry_build (Option.some.inj he)).2.2.2
      | prepDmaCyclic args => exact hok.elim
      | _ => cases he
    have hcall := henter (.build chunks b) hb
    exact ⟨hcall.queues, hcall.prepared, hcall.calls⟩
  | txSubmit i callback d hd =>
    have hcall := henter (.submit { d with callback := callback })
      (hs.prepared d (List.mem_of_getElem? hd))
    exact ⟨hcall.queues, fun e he => hs.prepared e (List.mem_of_mem_eraseIdx he), hcall.calls⟩
  | issuePending => exact henter _ rfl
  | interrupt => exact henter _ rfl
  | terminateAll => exact henter _ rfl
  | freeChanResources => exact henter _ rfl
  | allocChanResources => exact hok.elim
  | run i env c s' hc hleave =>
    obtain ⟨hqueues, hafter⟩ := (run_inv env hbug c).nonCyclic hs.queues
      (hs.calls c (List.mem_of_getElem? hc))
    have hcalls : ∀ e ∈ s.calls.eraseIdx i, e.cyclic = false := fun e he =>
      hs.calls e (List.mem_of_mem_eraseIdx he)
    rw [leave_eq hleave]
    refine ⟨hqueues, fun e he => ?_, fun e he => ?_⟩
    · rcases List.mem_append.mp he with he | he
      · exact hs.prepared e he
      · rw [After.mem_kept.mp he] at hafter
        exact hafter
    · rcases List.mem_append.mp he with he | he
      · rw [After.mem_calls.mp he] at hafter
        exact hafter
      · exact hcalls e he
  | tasklet =>
    exact ⟨fun d hd => hs.queues d (cleanup_queues { s.chan with tasklet := false } hd),
      hs.prepared, hs.calls⟩
  | callbackReturn =>
    exact ⟨fun d hd => hs.queues d (cleanupResume_queues _ _ hd), hs.prepared, hs.calls⟩
  | device => exact ⟨hs.queues, hs.prepared, hs.calls⟩

/-! ## The simulation -/

/-- **One action of the driver is a run of the pipeline.** -/
theorem sectionStep_abstracts {s s' : VxdmaSys cfg} {a : Act cfg} {p : Pipeline (Nat × Int)}
    (hp : Abstracts s.chan p) (hcyc : NonCyclic s) (hnames : NamesOnce s) (hok : s.FifoGuard a)
    (h : s.sectionStep a = some s') :
    ∃ p', Reachable Pipeline.step always p p' ∧ Abstracts s'.chan p' := by
  obtain ⟨hbug, h⟩ := sectionStep_inv h
  have hactive : ∀ d ∈ s.chan.activeList, d.cyclic = false := fun d hd =>
    hcyc.queues d (by simp [XilinxDmaChan.queues, hd])
  have hdone : ∀ d ∈ s.chan.doneList, d.cyclic = false := fun d hd =>
    hcyc.queues d (by simp [XilinxDmaChan.queues, hd])
  have hstay : Abstracts s'.chan p → ∃ p', Reachable Pipeline.step always p p' ∧
      Abstracts s'.chan p' := fun hp' => ⟨p, Reachable.refl _ _ _, hp'⟩
  cases h with
  | prepBuild =>
    exact hstay ⟨hp.accepted, hp.waiting, hp.running, hp.finished, hp.completed, hp.called,
      hp.dropped, hp.cookies, hp.common⟩
  | allocChanResources => exact hok.elim
  | run i env c s' hc hleave =>
    rw [leave_chan hleave]
    have hsection := run_inv env hbug c
    by_cases hchanges : c.changesQueues = false
    · exact ⟨p, Reachable.refl _ _ _, hp.of_sameHistory (hsection.sameHistory hchanges)⟩
    · cases c with
      | submitLock d =>
        refine hp.submitLocked d hbug fun hmem => ?_
        -- the name of the descriptor is with the call and not in the history
        have hcalls := coe_flatMap_eraseIdx Call.ids hc
        have hle : (↑[d.id] : Multiset Nat) + ↑(submittedIds s.chan) ≤ s.names := by
          refine Multiset.le_iff_exists_add.mpr
            ⟨↑(s.prepared.map XilinxDmaTxDescriptor.id) + ↑((s.calls.eraseIdx i).flatMap Call.ids), ?_⟩
          simp only [VxdmaSys.names, hcalls, Call.ids]
          abel
        have hnodup := Multiset.nodup_add.mp (Multiset.nodup_of_le hle hnames.nodup)
        exact Multiset.disjoint_left.mp hnodup.2.2 (by simp) (Multiset.mem_coe.mpr hmem)
      | issue => exact hp.startTransfer env.startOk
      | irqLock =>
        obtain ⟨p₁, h₁, hp₁⟩ := hp.irqComplete hactive
        obtain ⟨p₂, h₂, hp₂⟩ := hp₁.startTransfer env.startOk
        exact ⟨p₂, h₁.trans h₂, hp₂⟩
      | terminateFree => exact hp.freeDescriptors
      | freeChan => exact hp.freeDescriptors
      | _ => exact absurd rfl hchanges
  | tasklet =>
    have hflag : SameHistory s.chan { s.chan with tasklet := false } :=
      ⟨rfl, rfl, rfl, rfl, rfl, [], by simp, by simp⟩
    exact (hp.of_sameHistory hflag).cleanup hdone
  | callbackReturn => exact hp.cleanupResume s.cleanup hdone
  | device p status app =>
    have hsame : SameHistory s.chan
        (s.chan.setHw p { (s.chan.mem p).hw with status := status, app := app }) :=
      ⟨rfl, rfl, rfl, rfl, rfl, [], by simp [XilinxDmaChan.setHw], by simp⟩
    exact hstay (hp.of_sameHistory hsame)
  | _ => exact hstay hp

end VxdmaSys

end PetalinuxDriver
