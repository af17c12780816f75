import PetalinuxDriver.Analysis.EngineChain
import PetalinuxDriver.Analysis.RequestedBytes

/-!
# Everything that the engine is given

Each write of TAILDESC sends the engine through one batch. Over a whole run this gives one stream
of hardware words. Between the starts descriptors are accepted one by one, and a start that fails
leaves them where they are, so what was fetched and what still waits are together the words of all
accepted descriptors, in the order of their cookies and each once (`engine_stream_words`). Segment
boundaries, batches and the link structure are gone from it: it stands for the bytes that the
clients named (`engine_stream_bytes`), and on a channel to the device for one packet for each
accepted descriptor (`engine_stream_packets`).

In cyclic mode the engine does not stop at TAILDESC but goes round. Such a batch is in the stream
once, as it is after the first round.
-/

set_option autoImplicit false

namespace PetalinuxDriver

open Library

variable {cfg : PhysAddrConfig}

/-! ## Starts -/

/-- The engine was made to go between the two states. -/
def goes (s t : XilinxDmaChan cfg) : Bool :=
  (t.log.drop s.log.length).any (Event.startsEngine s.ctrlOffset)

/-- A step makes the engine go when one of its own writes does. -/
theorem goes_append {s t : XilinxDmaChan cfg} {w : List Event} (hlog : t.log = s.log ++ w) :
    goes s t = w.any (Event.startsEngine s.ctrlOffset) := by
  rw [goes, hlog, List.drop_left]

/-- What an action does to the queue: nothing, or it accepts a descriptor, or it makes the engine go
with all of it and with nothing else. -/
inductive QueueMove (s t : XilinxDmaChan cfg) : Prop
  | stays (hgo : goes s t = false) (hpending : t.pendingList = s.pendingList)
      (hids : submittedIds t = submittedIds s)
  | accepts (d : XilinxDmaTxDescriptor cfg) (hgo : goes s t = false)
      (hpending : t.pendingList = s.pendingList ++ [d])
      (hids : submittedIds t = submittedIds s ++ [d.id])
  | starts (hgo : goes s t = true) (hne : s.pendingList ≠ []) (hpending : t.pendingList = [])
      (hactive : t.activeList = s.pendingList) (hids : submittedIds t = submittedIds s)

/-- A step that starts and assigns nothing moves nothing. -/
theorem QueueMove.of_quiet {s t : XilinxDmaChan cfg} {w : List Event}
    (hpending : t.pendingList = s.pendingList) (hlog : t.log = s.log ++ w)
    (hw : ∀ e ∈ w, e.startsEngine s.ctrlOffset = false ∧ e.assigned = none) : QueueMove s t := by
  refine .stays ?_ hpending ?_
  · rw [goes_append hlog, List.any_eq_false]
    intro e he
    rw [(hw e he).1]
    exact Bool.false_ne_true
  · have hnone : w.filterMap Event.assigned = [] :=
      List.filterMap_eq_nil_iff.mpr fun e he => (hw e he).2
    rw [submittedIds, assigned, hlog, List.filterMap_append, hnone, List.append_nil]
    rfl

/-- A start, after events that say nothing about the queue. -/
theorem QueueMove.of_start {s u : XilinxDmaChan cfg} {w : List Event} (startOk : Bool)
    (hidle : u.idle = true → u.activeList = []) (hpending : u.pendingList = s.pendingList)
    (hoffset : u.ctrlOffset = s.ctrlOffset) (hlog : u.log = s.log ++ w)
    (hw : ∀ e ∈ w, e.startsEngine s.ctrlOffset = false ∧ e.assigned = none) :
    QueueMove s (xilinxDmaStartTransfer startOk u) := by
  have hids : submittedIds (xilinxDmaStartTransfer startOk u) = submittedIds s := by
    have hnone : w.filterMap Event.assigned = [] :=
      List.filterMap_eq_nil_iff.mpr fun e he => (hw e he).2
    rw [submittedIds, (startTransfer_sameNames startOk u).2, assigned, hlog,
      List.filterMap_append, hnone, List.append_nil]
    rfl
  have hwGo : w.any (Event.startsEngine s.ctrlOffset) = false := by
    rw [List.any_eq_false]
    intro e he
    rw [(hw e he).1]
    exact Bool.false_ne_true
  rcases startTransfer_outcome startOk u with ⟨v, hnone⟩ | ⟨pre, go, hall⟩
  · refine .stays ?_ (hnone.pendingList.trans hpending) hids
    have hboth : (xilinxDmaStartTransfer startOk u).log = s.log ++ (w ++ v) := by
      rw [hnone.log, hlog, List.append_assoc]
    rw [goes_append hboth, List.any_append, hwGo, Bool.false_or, List.any_eq_false]
    intro e he
    rw [← hoffset, hnone.noGo e he]
    exact Bool.false_ne_true
  · have hstart : canStart u = true := by
      by_contra hnot
      have hblocked := hall.pendingList
      rw [startTransfer_blocked startOk (Bool.eq_false_of_not_eq_true hnot)] at hblocked
      exact hall.batch hblocked
    refine .starts ?_ (hpending ▸ hall.batch) hall.pendingList ?_ hids
    · have hboth : (xilinxDmaStartTransfer startOk u).log = s.log ++ (w ++ (pre ++ [go])) := by
        rw [hall.log, hlog, List.append_assoc]
      rw [goes_append hboth, List.any_eq_true]
      exact ⟨go, by simp, hoffset ▸ hall.goes⟩
    · rw [hall.activeList, hidle ((canStart_iff u).mp hstart).2.2, List.nil_append, hpending]

namespace VxdmaSys

/-- **What one section does to the queue**, when it does not drop it. -/
theorem Section.queueMove {env : CallEnv} {s t : XilinxDmaChan cfg} {c : Call cfg}
    {after : After cfg} (h : Section env s c t after) (hdrop : c.dropsLists = false)
    (hidle : s.idle = true → s.activeList = []) : QueueMove s t := by
  have hcontrol : ∀ {t : XilinxDmaChan cfg} {w : List Event}, t.pendingList = s.pendingList →
      t.log = s.log ++ w → (∀ e ∈ w, e.isControlWrite s.ctrlOffset = true) → QueueMove s t :=
    fun hp hlog hw => .of_quiet hp hlog fun e he =>
      ⟨noGo_of_isControlWrite (hw e he), (quiet_of_isControlWrite (hw e he)).1⟩
  have hsame : ∀ {t : XilinxDmaChan cfg}, t.pendingList = s.pendingList → t.log = s.log →
      QueueMove s t :=
    fun hp hlog => hcontrol (w := []) hp (by rw [hlog, List.append_nil]) (by simp)
  have hack : QueueMove s (irqAck env.status s) := by
    rw [irqAck_eq]
    refine .of_quiet rfl rfl fun e he => ?_
    rw [List.mem_singleton.mp he, iowrite32_startsEngine]
    exact ⟨by decide, rfl⟩
  cases h with
  | buildDone b => exact hcontrol rfl rfl (builtEvents_isControlWrite b s)
  | buildError =>
    rw [freeTxDescriptor_eq]
    exact hsame rfl rfl
  | submitRefused =>
    rw [freeTxDescriptor_eq]
    exact hsame rfl rfl
  | resetOk d w hok hw => exact hcontrol rfl rfl hw
  | resetFailed d w hok hw => exact hcontrol rfl rfl hw
  | queued d =>
    refine .accepts { d with cookie := nextCookie s } ?_ rfl ?_
    · rw [goes_append (w := [.cookieAssign d.id (nextCookie s)]) rfl]
      rfl
    · simp [submittedIds, assigned, Event.assigned]
  | queuedBug d =>
    refine .accepts { d with cookie := nextCookie s } ?_ rfl ?_
    · rw [goes_append (w := [.cookieAssign d.id (nextCookie s), .bug]) rfl]
      rfl
    · simp [submittedIds, assigned, Event.assigned, List.filterMap_cons]
  | issue => exact .of_start (w := []) env.startOk hidle rfl rfl (by simp) (by simp)
  | irqIoc => exact hack
  | irqOther => exact hack
  | irqLock =>
    refine .of_start (w := s.activeList.flatMap completeEvents) env.startOk ?_ ?_ ?_ ?_
      (completeEvents_quiet s.activeList s.ctrlOffset)
    · rw [irqComplete_eq]
      exact fun _ => rfl
    · rw [irqComplete_eq]
    · rw [irqComplete_eq]
    · rw [irqComplete_eq]
  | terminate => cases hdrop
  | terminateFree => cases hdrop
  | terminateClear =>
    rw [clearCyclic_eq]
    exact hcontrol rfl rfl (by simp)
  | freeChan => cases hdrop
  | _ => exact hsame rfl rfl

/-- A cleanup moves nothing between pending list and engine. -/
theorem cleanup_queueMove {s u : XilinxDmaChan cfg} (hpending : u.pendingList = s.pendingList)
    (hlog : u.log = s.log) : QueueMove s (xilinxDmaChanDescCleanup u).1 := by
  obtain ⟨w, hlog', hw⟩ := cleanup_events u
  refine .of_quiet (w := w) ?_ ?_ ?_
  · rw [(cleanup_sameQueues u).pendingList, hpending]
  · rw [hlog', hlog]
  · intro e he
    obtain ⟨id, rfl⟩ := hw e he
    exact ⟨rfl, rfl⟩

/-- The rest of a cleanup moves nothing between pending list and engine. -/
theorem cleanupResume_queueMove (pc : CleanupPc cfg) (s : XilinxDmaChan cfg) :
    QueueMove s (cleanupResume pc s).1 := by
  cases pc with
  | idle => exact .of_quiet (w := []) rfl (List.append_nil _).symm (by simp)
  | cyclicCallback => exact .of_quiet (w := []) rfl (List.append_nil _).symm (by simp)
  | callback d =>
    apply cleanup_queueMove
    · rw [freeTxDescriptor_eq]
    · rw [freeTxDescriptor_eq]

/-- **What one action does to the queue.** -/
theorem sectionStep_queueMove {s s' : VxdmaSys cfg} {a : Act cfg} (h : s.sectionStep a = some s')
    (hquiet : ∀ c ∈ s.calls, c.dropsLists = false)
    (hidle : s.chan.idle = true → s.chan.activeList = []) : QueueMove s.chan s'.chan := by
  have hsame : ∀ {t : XilinxDmaChan cfg}, t.pendingList = s.chan.pendingList →
      t.log = s.chan.log → QueueMove s.chan t :=
    fun hp hlog => .of_quiet (w := []) hp (by rw [hlog, List.append_nil]) (by simp)
  obtain ⟨hbug, hstep⟩ := sectionStep_inv h
  cases hstep with
  | allocChanResources zalloc =>
    cases zalloc with
    | none => exact hsame rfl rfl
    | some segP =>
      refine .of_quiet rfl rfl fun e he => ?_
      rw [List.mem_singleton.mp he]
      exact ⟨noGo_of_isControlWrite (iowrite32_isControlWrite _ _), rfl⟩
  | run i env c s' hc hleave =>
    rw [leave_chan hleave]
    exact (run_inv env hbug c).queueMove (hquiet c (List.mem_of_getElem? hc)) hidle
  | tasklet => exact cleanup_queueMove (u := { s.chan with tasklet := false }) rfl rfl
  | callbackReturn => exact cleanupResume_queueMove s.cleanup s.chan
  | _ => exact hsame rfl rfl

/-! ## The stream -/

/-- What is recorded of a run: the requests, and the words that the engine has fetched, batch after
batch, unless it lost its way. A batch counts once, also when the engine goes round in it. -/
structure Seen (cfg : PhysAddrConfig) where
  requests : List (Nat × Act cfg)
  fetched : Option (List XilinxDmaDescHw)

/-- The record after an action. When the engine is made to go, it goes through the chain. -/
def seen (pool : Nat) (w : Seen cfg) (s : VxdmaSys cfg) (a : Act cfg) (s' : VxdmaSys cfg) :
    Seen cfg where
  requests := VxdmaSys.requests w.requests s a s'
  fetched :=
    if goes s.chan s'.chan then do
      let before ← w.fetched
      let batch ← PetalinuxDriver.fetched pool s'.chan
      some (before ++ batch)
    else w.fetched

/-- The descriptors of some names were asked for by these requests. -/
def AllAskedBy (g : List (Nat × Act cfg)) (ids : List Nat) (reqs : List (Act cfg)) : Prop :=
  List.Forall₂ (AskedBy g) ids reqs

/-- What was asked for stays so when requests are added under new names. -/
theorem AllAskedBy.mono {g g' : List (Nat × Act cfg)} {next : Nat} {ids : List Nat}
    {reqs : List (Act cfg)} (h : AllAskedBy g ids reqs) (hsub : g ⊆ g')
    (honce : RequestsOnce g' next) : AllAskedBy g' ids reqs :=
  List.Forall₂.imp (fun _ _ hask => honce.askedBy (hsub hask.1)) h

/-- What the engine has fetched so far, after the descriptors `base` were accepted: the words of
those accepted since, but for those that wait. -/
structure StreamInv (pool : Nat) (base : List Nat) (s : VxdmaSys cfg) (w : Seen cfg) : Prop where
  engine : EngineInv pool s w.requests
  stream : ∃ ids ws reqs,
    submittedIds s.chan = base ++ (ids ++ s.chan.pendingList.map XilinxDmaTxDescriptor.id) ∧
      w.fetched = some ws ∧ AllAskedBy w.requests ids reqs ∧ (∀ a ∈ reqs, a.transfers ≠ []) ∧
      ws.map XilinxDmaDescHw.transfer = reqs.flatMap Act.transfers

/-- **One action keeps the account of the stream.** -/
theorem sectionStep_streamInv {pool : Nat} {base : List Nat} {s s' : VxdmaSys cfg} {a : Act cfg}
    {w : Seen cfg} (hs : StreamInv pool base s w) (hok : s.RingGuard a)
    (h : s.sectionStep a = some s') : StreamInv pool base s' (seen pool w s a s') := by
  obtain ⟨last, hring⟩ := hs.engine.ring
  obtain ⟨ids, ws, reqs, hids, hfetched, hasked, hne, hwords⟩ := hs.stream
  have hengine : EngineInv pool s' (seen pool w s a s').requests :=
    sectionStep_engineInv hs.engine hok h
  have hsub : w.requests ⊆ (seen pool w s a s').requests := subset_requests w.requests s s' a
  have hasked' := hasked.mono hsub hengine.recycling.requests
  have hquiet : ∀ c ∈ s.calls, c.dropsLists = false := fun c hc => (hring.calls.quiet c hc).1
  refine ⟨hengine, ?_⟩
  cases sectionStep_queueMove h hquiet hs.engine.pointed.idle with
  | stays hgo hpending hsame =>
    refine ⟨ids, ws, reqs, ?_, ?_, hasked', hne, hwords⟩
    · rw [hsame, hpending, hids]
    · rw [seen, hgo]
      exact hfetched
  | accepts d hgo hpending hone =>
    refine ⟨ids, ws, reqs, ?_, ?_, hasked', hne, hwords⟩
    · rw [hone, hpending, hids]
      simp
    · rw [seen, hgo]
      exact hfetched
  | starts hgo hwait hpending hactive hsame =>
    -- the batch is what waited
    have hstarted : s'.chan.activeList ≠ [] := by rwa [hactive]
    obtain ⟨batch, more, hbatch, hmore, hmoreNe, hbatchWords⟩ :=
      hengine.fetched_requests hstarted
    rw [hactive] at hmore
    refine ⟨ids ++ s.chan.pendingList.map XilinxDmaTxDescriptor.id, ws ++ batch, reqs ++ more,
      ?_, ?_, ?_, ?_, ?_⟩
    · rw [hsame, hids, hpending]
      simp
    · rw [seen, hgo]
      simp only [if_true, hfetched, hbatch]
      rfl
    · apply List.rel_append hasked'
      exact List.forall₂_map_left_iff.mpr hmore
    · intro a ha
      rcases List.mem_append.mp ha with ha | ha
      · exact hne a ha
      · exact hmoreNe a ha
    · rw [List.map_append, List.flatMap_append, hwords, hbatchWords]

/-- The account is open from an allocation on. -/
theorem alloc_streamInv {ctrlOffset : Nat} {dmacr : BitVec 32} {s s' : VxdmaSys cfg}
    {segP : DmaAddr cfg} {g : List (Nat × Act cfg)}
    (hused : Reachable (withGhost sectionStep VxdmaSys.requests) always
      (probed true ctrlOffset dmacr, []) (s, g))
    (hclean : s.owned = 0) (hcalls : s.calls = [])
    (h : s.sectionStep (.allocChanResources (some segP)) = some s') :
    StreamInv s.chan.pools (submittedIds s'.chan) s' ⟨g, some []⟩ := by
  refine ⟨alloc_engineInv hused hclean hcalls h, [], [], [], ?_, rfl, List.Forall₂.nil, by simp, rfl⟩
  simp only [owned, XilinxDmaChan.owned, Multiset.coe_add, Multiset.coe_eq_zero,
    List.append_eq_nil_iff] at hclean
  have hpending : s'.chan.pendingList = [] := by
    rw [(sectionStep_allocChanResources h).2]
    exact segsOf_eq_nil.mp hclean.1.1.1.1.1.2
  rw [hpending]
  simp

/-- Every run after a clean allocation keeps the stream in order. -/
theorem streamInv_of_reachable {ctrlOffset : Nat} {dmacr : BitVec 32} {s₀ s₁ s : VxdmaSys cfg}
    {segP : DmaAddr cfg} {g₀ : List (Nat × Act cfg)} {w : Seen cfg}
    (hused : Reachable (withGhost sectionStep VxdmaSys.requests) always
      (probed true ctrlOffset dmacr, []) (s₀, g₀))
    (hclean : s₀.owned = 0) (hcalls : s₀.calls = [])
    (halloc : s₀.sectionStep (.allocChanResources (some segP)) = some s₁)
    (h : Reachable (withGhost sectionStep (seen s₀.chan.pools)) (fun sw a => sw.1.RingGuard a)
      (s₁, ⟨g₀, some []⟩) (s, w)) :
    StreamInv s₀.chan.pools (submittedIds s₁.chan) s w :=
  h.ghost_invariant (alloc_streamInv hused hclean hcalls halloc)
    fun _ _ _ _ hs hok hstep => sectionStep_streamInv hs hok hstep

/-- What was fetched and what waits are together what was asked for. -/
theorem StreamInv.words {pool : Nat} {base : List Nat} {s : VxdmaSys cfg} {w : Seen cfg}
    (hs : StreamInv pool base s w) :
    ∃ ids reqs ws, submittedIds s.chan = base ++ ids ∧ AllAskedBy w.requests ids reqs ∧
      w.fetched = some ws ∧
      ws.map XilinxDmaDescHw.transfer ++ s.chan.pendingList.flatMap (transfers s.chan) =
        reqs.flatMap Act.transfers := by
  obtain ⟨ids, ws, reqs, hids, hfetched, hasked, -, hwords⟩ := hs.stream
  have hwait : ∀ d ∈ s.chan.pendingList, ∃ a, AskedBy w.requests d.id a ∧
      transfers s.chan d = a.transfers := by
    intro d hd
    obtain ⟨a, ha, hcarried⟩ :=
      hs.engine.carries.unstarted d (List.mem_append_right _ hd)
    refine ⟨a, hs.engine.recycling.requests.askedBy ha, ?_⟩
    rw [transfers, hcarried]
    rfl
  obtain ⟨more, hmore, hmoreWords⟩ := exists_forall₂_flatMap hwait
  refine ⟨_, reqs ++ more, ws, hids, ?_, hfetched, ?_⟩
  · apply List.rel_append hasked
    exact List.forall₂_map_left_iff.mpr hmore
  · rw [List.flatMap_append, hwords, hmoreWords]

/-- **The engine is given the words of all accepted descriptors.** In scatter-gather mode, after an
allocation of a channel of which nothing is left, in every run in which descriptors are submitted in
the order of preparation and not refused, nothing is terminated, and builders are left alone: what
the engine has fetched in all batches, and then what waits, are the words that were asked for under
the cookies given out since, in the order of the cookies, nothing left out and nothing twice. -/
theorem engine_stream_words {ctrlOffset : Nat} {dmacr : BitVec 32} {s₀ s₁ s : VxdmaSys cfg}
    {segP : DmaAddr cfg} {g₀ : List (Nat × Act cfg)} {w : Seen cfg}
    (hused : Reachable (withGhost sectionStep VxdmaSys.requests) always
      (probed true ctrlOffset dmacr, []) (s₀, g₀))
    (hclean : s₀.owned = 0) (hcalls : s₀.calls = [])
    (halloc : s₀.sectionStep (.allocChanResources (some segP)) = some s₁)
    (h : Reachable (withGhost sectionStep (seen s₀.chan.pools)) (fun sw a => sw.1.RingGuard a)
      (s₁, ⟨g₀, some []⟩) (s, w)) :
    ∃ ids reqs ws, submittedIds s.chan = submittedIds s₁.chan ++ ids ∧
      AllAskedBy w.requests ids reqs ∧ w.fetched = some ws ∧
      ws.map XilinxDmaDescHw.transfer ++ s.chan.pendingList.flatMap (transfers s.chan) =
        reqs.flatMap Act.transfers :=
  (streamInv_of_reachable hused hclean hcalls halloc h).words

/-- One batch was completed and is being cleaned up; then a descriptor was queued that waits. -/
def batchAndRest : List (Act .addr32) := twoBatches.take 22

/-- One descriptor was fetched and one waits. -/
theorem engine_stream_words_batchAndRest :
    ∃ s w, exec (withGhost sectionStep (seen 0)) (allocated true 0 0 0, ⟨[], some []⟩)
        batchAndRest = some (s, w) ∧
      s.chan.pendingList.map XilinxDmaTxDescriptor.tag = [(1, [⟨0, 2⟩])] ∧
      ∃ ids reqs ws,
        submittedIds s.chan = submittedIds (allocated true 0 0 0 : VxdmaSys .addr32).chan ++ ids ∧
        AllAskedBy w.requests ids reqs ∧ w.fetched = some ws ∧
        ws.map XilinxDmaDescHw.transfer ++ s.chan.pendingList.flatMap (transfers s.chan) =
          reqs.flatMap Act.transfers := by
  have hexec : (exec (withGhost sectionStep (seen 0)) (allocated true 0 0 0, ⟨[], some []⟩)
      batchAndRest).map (fun sw => sw.1.chan.pendingList.map XilinxDmaTxDescriptor.tag) =
      some [(1, [⟨0, 2⟩])] := by
    decide +kernel
  obtain ⟨⟨s, w⟩, hs, hwait⟩ := Option.map_eq_some_iff.mp hexec
  have hrun : Reachable (withGhost sectionStep (seen 0)) (fun sw a => sw.1.RingGuard a)
      (allocated true 0 0 0, ⟨[], some []⟩) (s, w) := Reachable.of_exec (by decide +kernel) hs
  have hclean : (probed true 0 0 : VxdmaSys .addr32).owned = 0 := rfl
  exact ⟨s, w, hs, hwait, engine_stream_words (Reachable.refl _ _ _) hclean rfl rfl hrun⟩

/-! ## What the stream stands for -/

/-- The addresses of the bytes of a descriptor. -/
def descBytes (s : XilinxDmaChan cfg) (d : XilinxDmaTxDescriptor cfg) : List (DmaAddr cfg) :=
  (d.words s).flatMap (XilinxDmaDescHw.bytes cfg)

/-- Bytes do not depend on what the engine does not read. -/
theorem flatMap_transfer_bytes (ws : List XilinxDmaDescHw) :
    (ws.map XilinxDmaDescHw.transfer).flatMap (XilinxDmaDescHw.bytes cfg) =
      ws.flatMap (XilinxDmaDescHw.bytes cfg) := by
  rw [List.flatMap_map]
  exact List.flatMap_congr fun hw _ => transfer_bytes hw

/-- What holds of all requests holds of those that descriptors were asked for by. -/
theorem AllAskedBy.forall_reqs {g : List (Nat × Act cfg)} {ids : List Nat} {reqs : List (Act cfg)}
    {P : Act cfg → Prop} (h : AllAskedBy g ids reqs) (hP : ∀ r ∈ g, P r.2) : ∀ a ∈ reqs, P a := by
  induction h with
  | nil =>
    intro a ha
    cases ha
  | cons hask _ ih =>
    intro a ha
    rcases List.mem_cons.mp ha with rfl | ha
    · exact hP _ hask.1
    · exact ih a ha

/-- What was fetched and what waits are together the bytes that were named. -/
theorem StreamInv.bytes {pool : Nat} {base : List Nat} {s : VxdmaSys cfg} {w : Seen cfg}
    (hs : StreamInv pool base s w) (hwhole : ∀ r ∈ w.requests, r.2.WholePeriods) :
    ∃ ids reqs ws, submittedIds s.chan = base ++ ids ∧ AllAskedBy w.requests ids reqs ∧
      w.fetched = some ws ∧
      ws.flatMap (XilinxDmaDescHw.bytes cfg) ++ s.chan.pendingList.flatMap (descBytes s.chan) =
        reqs.flatMap Act.bytes := by
  obtain ⟨ids, reqs, ws, hids, hasked, hfetched, hwords⟩ := hs.words
  have hleft : (ws.map XilinxDmaDescHw.transfer ++
      s.chan.pendingList.flatMap (transfers s.chan)).flatMap (XilinxDmaDescHw.bytes cfg) =
      ws.flatMap (XilinxDmaDescHw.bytes cfg) ++
        s.chan.pendingList.flatMap (descBytes s.chan) := by
    rw [List.flatMap_append, flatMap_transfer_bytes, List.flatMap_assoc]
    congr 1
    exact List.flatMap_congr fun d _ => flatMap_transfer_bytes (d.words s.chan)
  have hright : (reqs.flatMap Act.transfers).flatMap (XilinxDmaDescHw.bytes cfg) =
      reqs.flatMap Act.bytes := by
    rw [List.flatMap_assoc]
    exact List.flatMap_congr fun a ha => transfers_bytes (hasked.forall_reqs hwhole a ha)
  refine ⟨ids, reqs, ws, hids, hasked, hfetched, ?_⟩
  rw [← hleft, hwords, hright]

/-- **The engine goes through the bytes that the clients named.** In the same runs, when the buffers
of cyclic requests are made of whole periods: the addresses of the segments that were fetched in all
batches, byte for byte, and then those of what waits, are the buffers that the clients named under
the cookies given out since, in the order of the cookies, no byte left out and none twice, wherever
buffers were cut and however descriptors were batched. -/
theorem engine_stream_bytes {ctrlOffset : Nat} {dmacr : BitVec 32} {s₀ s₁ s : VxdmaSys cfg}
    {segP : DmaAddr cfg} {g₀ : List (Nat × Act cfg)} {w : Seen cfg}
    (hused : Reachable (withGhost sectionStep VxdmaSys.requests) always
      (probed true ctrlOffset dmacr, []) (s₀, g₀))
    (hclean : s₀.owned = 0) (hcalls : s₀.calls = [])
    (halloc : s₀.sectionStep (.allocChanResources (some segP)) = some s₁)
    (h : Reachable (withGhost sectionStep (seen s₀.chan.pools)) (fun sw a => sw.1.RingGuard a)
      (s₁, ⟨g₀, some []⟩) (s, w))
    (hwhole : ∀ r ∈ w.requests, r.2.WholePeriods) :
    ∃ ids reqs ws, submittedIds s.chan = submittedIds s₁.chan ++ ids ∧
      AllAskedBy w.requests ids reqs ∧ w.fetched = some ws ∧
      ws.flatMap (XilinxDmaDescHw.bytes cfg) ++ s.chan.pendingList.flatMap (descBytes s.chan) =
        reqs.flatMap Act.bytes :=
  (streamInv_of_reachable hused hclean hcalls halloc h).bytes hwhole

/-- One descriptor was fetched and one waits, byte for byte. -/
theorem engine_stream_bytes_batchAndRest :
    ∃ s w, exec (withGhost sectionStep (seen 0)) (allocated true 0 0 0, ⟨[], some []⟩)
        batchAndRest = some (s, w) ∧
      s.chan.pendingList.map XilinxDmaTxDescriptor.tag = [(1, [⟨0, 2⟩])] ∧
      ∃ ids reqs ws,
        submittedIds s.chan = submittedIds (allocated true 0 0 0 : VxdmaSys .addr32).chan ++ ids ∧
        AllAskedBy w.requests ids reqs ∧ w.fetched = some ws ∧
        ws.flatMap (XilinxDmaDescHw.bytes .addr32) ++
          s.chan.pendingList.flatMap (descBytes s.chan) = reqs.flatMap Act.bytes := by
  have hexec : (exec (withGhost sectionStep (seen 0)) (allocated true 0 0 0, ⟨[], some []⟩)
      batchAndRest).map (fun sw => (sw.1.chan.pendingList.map XilinxDmaTxDescriptor.tag,
        decide (∀ r ∈ sw.2.requests, r.2.WholePeriods))) = some ([(1, [⟨0, 2⟩])], true) := by
    decide +kernel
  obtain ⟨⟨s, w⟩, hs, hends⟩ := Option.map_eq_some_iff.mp hexec
  obtain ⟨hwait, hwhole⟩ := Prod.mk.inj hends
  have hrun : Reachable (withGhost sectionStep (seen 0)) (fun sw a => sw.1.RingGuard a)
      (allocated true 0 0 0, ⟨[], some []⟩) (s, w) := Reachable.of_exec (by decide +kernel) hs
  have hclean : (probed true 0 0 : VxdmaSys .addr32).owned = 0 := rfl
  exact ⟨s, w, hs, hwait, engine_stream_bytes (Reachable.refl _ _ _) hclean rfl rfl hrun
    (of_decide_eq_true hwhole)⟩

/-- **The stream to the device is made of the descriptors.** In the same runs, when everything that
was prepared is to go to the device: at the marks that the engine finds in what it fetched, the
stream falls into one packet for each accepted descriptor that does not wait, in the order of the
cookies, and no packet is left open, however descriptors were batched. -/
theorem engine_stream_packets {ctrlOffset : Nat} {dmacr : BitVec 32} {s₀ s₁ s : VxdmaSys cfg}
    {segP : DmaAddr cfg} {g₀ : List (Nat × Act cfg)} {w : Seen cfg}
    (hused : Reachable (withGhost sectionStep VxdmaSys.requests) always
      (probed true ctrlOffset dmacr, []) (s₀, g₀))
    (hclean : s₀.owned = 0) (hcalls : s₀.calls = [])
    (halloc : s₀.sectionStep (.allocChanResources (some segP)) = some s₁)
    (h : Reachable (withGhost sectionStep (seen s₀.chan.pools)) (fun sw a => sw.1.RingGuard a)
      (s₁, ⟨g₀, some []⟩) (s, w))
    (hdir : ∀ r ∈ w.requests, r.2.direction = some .memToDev) :
    ∃ ids reqs ws,
      submittedIds s.chan = submittedIds s₁.chan ++
        (ids ++ s.chan.pendingList.map XilinxDmaTxDescriptor.id) ∧
      AllAskedBy w.requests ids reqs ∧ w.fetched = some ws ∧
      packets XilinxDmaDescHw.sop XilinxDmaDescHw.eop (ws.map XilinxDmaDescHw.transfer) =
        some (reqs.map Act.transfers) := by
  obtain ⟨ids, ws, reqs, hids, hfetched, hasked, hne, hwords⟩ :=
    (streamInv_of_reachable hused hclean hcalls halloc h).stream
  refine ⟨ids, reqs, ws, hids, hasked, hfetched, packets_eq_some_iff.mpr ⟨?_, ?_⟩⟩
  · rw [hwords, List.flatMap_def]
  · intro p hp
    obtain ⟨a, ha, rfl⟩ := List.mem_map.mp hp
    have hout : a.direction = some .memToDev :=
      hasked.forall_reqs (P := fun a => a.direction = some .memToDev) hdir a ha
    exact transfers_isPacket hout (hne a ha)

/-- Two batches make whole packets. -/
theorem engine_stream_packets_twoBatches :
    ∃ s w, exec (withGhost sectionStep (seen 0)) (allocated true 0 0 0, ⟨[], some []⟩)
        twoBatches = some (s, w) ∧
      ∃ ids reqs ws,
        submittedIds s.chan = submittedIds (allocated true 0 0 0 : VxdmaSys .addr32).chan ++
          (ids ++ s.chan.pendingList.map XilinxDmaTxDescriptor.id) ∧
        AllAskedBy w.requests ids reqs ∧ w.fetched = some ws ∧
        packets XilinxDmaDescHw.sop XilinxDmaDescHw.eop (ws.map XilinxDmaDescHw.transfer) =
          some (reqs.map Act.transfers) := by
  have hexec : (exec (withGhost sectionStep (seen 0)) (allocated true 0 0 0, ⟨[], some []⟩)
      twoBatches).map (fun sw => sw.2.requests.map fun r => r.2.direction) =
      some [some .memToDev, some .memToDev] := by
    decide +kernel
  obtain ⟨⟨s, w⟩, hs, hdirs⟩ := Option.map_eq_some_iff.mp hexec
  have hdir : ∀ r ∈ w.requests, r.2.direction = some .memToDev := by
    intro r hr
    have hmem := List.mem_map_of_mem (f := fun r => r.2.direction) hr
    simp only at hdirs
    rw [hdirs] at hmem
    simpa using hmem
  have hrun : Reachable (withGhost sectionStep (seen 0)) (fun sw a => sw.1.RingGuard a)
      (allocated true 0 0 0, ⟨[], some []⟩) (s, w) := Reachable.of_exec (by decide +kernel) hs
  have hclean : (probed true 0 0 : VxdmaSys .addr32).owned = 0 := rfl
  exact ⟨s, w, hs, engine_stream_packets (Reachable.refl _ _ _) hclean rfl rfl hrun hdir⟩

end VxdmaSys

end PetalinuxDriver
