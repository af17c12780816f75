import PetalinuxDriver.Analysis.ErrorReports

/-!
# What a status says of a cookie

`xilinx_dma_tx_status` compares cookies, and knows nothing of the lists. In a run of slave and cyclic
transfers, with terminates and failed resets, it still says something exact: a cookie is complete
when its descriptor, or one that was accepted after it, was completed (`status_iff_completed`). So a
transfer that was terminated is complete as soon as a later one is; but a transfer that is active or
pending never is, and what was complete stays so.

The accepted descriptors are a line (`CookieLine`): those that were completed are in front of some
place, the last of them right before it, and what is active or pending is behind it, in order.
-/

set_option autoImplicit false

namespace PetalinuxDriver

open Library

variable {cfg : PhysAddrConfig}

/-- Completing a descriptor that is not cyclic notes that it is complete. -/
theorem completeEvents_completed {d : XilinxDmaTxDescriptor cfg} (hcyc : d.cyclic = false) :
    (completeEvents d).filterMap Event.completed = [d.id] := by
  unfold completeEvents
  rw [if_neg (by simp [hcyc])]
  split <;> rfl

/-! ## The line of cookies -/

/-- The accepted descriptors with their cookies, of which the `m`-th is the last that was completed,
and the queue of those to come. -/
structure CookieLine (accepted : List (Nat × Int)) (completed : List Nat) (common : DmaChanCookies)
    (queue : List (Nat × Int)) (m : Nat) : Prop where
  common : common = ⟨cookieOf accepted.length, cookieOf m⟩
  cookies : accepted.map Prod.snd =
    (List.range accepted.length).map fun k => cookieOf (k + 1)
  le : m ≤ accepted.length
  queued : queue.Sublist (accepted.drop m)
  past : ∀ id ∈ completed, id ∈ (accepted.take m).map Prod.fst
  last : ∀ k, k + 1 = m → ∃ key, accepted[k]? = some key ∧ key.1 ∈ completed

/-- The first of a queue is at some place behind the mark, and the others are behind it. -/
theorem sublist_drop_cons {α : Type} {a : α} {q l : List α} {m : Nat}
    (h : (a :: q).Sublist (l.drop m)) :
    ∃ j, m ≤ j ∧ l[j]? = some a ∧ q.Sublist (l.drop (j + 1)) := by
  obtain ⟨front, rest, hsplit, ha, hq⟩ := List.cons_sublist_iff.mp h
  obtain ⟨before, after, rfl⟩ := List.append_of_mem ha
  refine ⟨m + before.length, Nat.le_add_right _ _, ?_, ?_⟩
  · rw [← List.getElem?_drop, hsplit]
    simp
  · have hdrop : l.drop (m + before.length + 1) = after ++ rest := by
      rw [Nat.add_assoc, ← List.drop_drop, hsplit]
      simp
    rw [hdrop]
    exact hq.trans (List.sublist_append_right _ _)

namespace CookieLine

variable {accepted : List (Nat × Int)} {completed : List Nat} {common : DmaChanCookies}
  {queue : List (Nat × Int)} {m : Nat}

/-- The cookies count the submits. -/
theorem cookie_of_get (h : CookieLine accepted completed common queue m) {k : Nat}
    {key : Nat × Int} (hk : accepted[k]? = some key) : key.2 = cookieOf (k + 1) := by
  have hlt : k < accepted.length := (List.getElem?_eq_some_iff.mp hk).1
  have hsnd : (accepted.map Prod.snd)[k]? = some key.2 := by
    rw [List.getElem?_map, hk]
    rfl
  rw [h.cookies] at hsnd
  simpa [hlt] using hsnd.symm

/-- A submit accepts a descriptor under the next cookie and queues it. -/
theorem accept (h : CookieLine accepted completed common queue m) (id : Nat) :
    CookieLine (accepted ++ [(id, cookieOf (accepted.length + 1))]) completed
      ⟨cookieOf (accepted.length + 1), common.completedCookie⟩
      (queue ++ [(id, cookieOf (accepted.length + 1))]) m := by
  refine ⟨?_, ?_, ?_, ?_, ?_, ?_⟩
  · rw [h.common, List.length_append, List.length_singleton]
  · simp [h.cookies, List.range_succ]
  · rw [List.length_append]
    exact h.le.trans (Nat.le_add_right _ _)
  · rw [List.drop_append_of_le_length h.le]
    exact h.queued.append (List.Sublist.refl _)
  · rw [List.take_append_of_le_length h.le]
    exact h.past
  · intro k hk
    obtain ⟨key, hkey, hcompleted⟩ := h.last k hk
    have hlt : k < accepted.length := (List.getElem?_eq_some_iff.mp hkey).1
    exact ⟨key, by rw [List.getElem?_append_left hlt, hkey], hcompleted⟩

/-- Descriptors leave the queue. -/
theorem leave (h : CookieLine accepted completed common queue m) {queue' : List (Nat × Int)}
    (hsub : queue'.Sublist queue) : CookieLine accepted completed common queue' m :=
  { h with queued := hsub.trans h.queued }

/-- The first of the queue is completed. -/
theorem complete {key : Nat × Int} (h : CookieLine accepted completed common (key :: queue) m) :
    ∃ m', CookieLine accepted (completed ++ [key.1]) { common with completedCookie := key.2 }
      queue m' := by
  obtain ⟨j, hmj, hj, hqueue⟩ := sublist_drop_cons h.queued
  have hlt : j < accepted.length := (List.getElem?_eq_some_iff.mp hj).1
  refine ⟨j + 1, ?_, h.cookies, hlt, hqueue, ?_, ?_⟩
  · rw [h.common, h.cookie_of_get hj]
  · intro id hid
    rcases List.mem_append.mp hid with hold | hnew
    · have htake : (accepted.take m).Sublist (accepted.take (j + 1)) :=
        (List.take_sublist_take_left (by omega))
      exact (htake.map Prod.fst).subset (h.past id hold)
    · rw [List.mem_singleton.mp hnew]
      refine List.mem_map_of_mem (List.mem_of_getElem? (i := j) ?_)
      rw [List.getElem?_take_of_lt (Nat.lt_succ_self j), hj]
  · intro k hk
    obtain rfl : k = j := by omega
    exact ⟨key, hj, List.mem_append_right _ (List.mem_singleton_self _)⟩

/-- A batch is completed. The cookies of cyclic descriptors are not. -/
theorem completeAll (ds : List (XilinxDmaTxDescriptor cfg)) {rest : List (Nat × Int)}
    (h : CookieLine accepted completed common (ds.map XilinxDmaTxDescriptor.key ++ rest) m) :
    ∃ m', CookieLine accepted
      (completed ++ (ds.flatMap completeEvents).filterMap Event.completed)
      (ds.foldl completeCookie common) rest m' := by
  induction ds generalizing completed common m with
  | nil => exact ⟨m, by simpa using h⟩
  | cons d ds ih =>
    rw [List.map_cons, List.cons_append] at h
    rw [List.flatMap_cons, List.filterMap_append, List.foldl_cons, ← List.append_assoc]
    cases hcyc : d.cyclic with
    | true =>
      have hevents : completeEvents d = [] := if_pos hcyc
      have hcookie : completeCookie common d = common := if_pos hcyc
      rw [hevents, hcookie, List.filterMap_nil, List.append_nil]
      exact ih (h.leave (List.sublist_cons_self _ _))
    | false =>
      have hevents : (completeEvents d).filterMap Event.completed = [d.key.1] :=
        completeEvents_completed hcyc
      have hcookie : completeCookie common d = { common with completedCookie := d.key.2 } :=
        if_neg (by simp [hcyc])
      rw [hevents, hcookie]
      obtain ⟨m', hnext⟩ := h.complete
      exact ih hnext

end CookieLine

/-! ## The channel -/

/-- The cookies of the channel are a line. -/
def CookieOrder (s : XilinxDmaChan cfg) : Prop :=
  ∃ m, CookieLine (assigned s) (completedIds s) s.common
    ((s.activeList ++ s.pendingList).map XilinxDmaTxDescriptor.key) m

namespace CookieOrder

variable {s s' : XilinxDmaChan cfg}

/-- Nothing has changed, or descriptors have left the queues. -/
theorem of_same (h : CookieOrder s) (hassigned : assigned s' = assigned s)
    (hcompleted : completedIds s' = completedIds s) (hcommon : s'.common = s.common)
    (hqueue : ((s'.activeList ++ s'.pendingList).map XilinxDmaTxDescriptor.key).Sublist
      ((s.activeList ++ s.pendingList).map XilinxDmaTxDescriptor.key)) : CookieOrder s' := by
  obtain ⟨m, hline⟩ := h
  refine ⟨m, ?_⟩
  rw [hassigned, hcompleted, hcommon]
  exact hline.leave hqueue

/-- A step that leaves no trace keeps the order. -/
theorem of_sameHistory (h : CookieOrder s) (hs : SameHistory s s') : CookieOrder s' := by
  obtain ⟨hassigned, hcompleted, -, -⟩ := hs.filterMap_log
  refine h.of_same hassigned hcompleted hs.common ?_
  rw [hs.activeList, hs.pendingList]

/-- The queued descriptor of a submit, whether or not `BUG()` follows. -/
theorem queued (h : CookieOrder s) (d : XilinxDmaTxDescriptor cfg) {w : List Event}
    (hw : ∀ e ∈ w, e = .bug) (hlog : s'.log = s.log ++ .cookieAssign d.id (nextCookie s) :: w)
    (hactive : s'.activeList = s.activeList)
    (hpending : s'.pendingList = s.pendingList ++ [{ d with cookie := nextCookie s }])
    (hcommon : s'.common = (dmaCookieAssign s.common).1) : CookieOrder s' := by
  obtain ⟨m, hline⟩ := h
  have hassign : dmaCookieAssign s.common =
      (⟨cookieOf ((assigned s).length + 1), s.common.completedCookie⟩,
        cookieOf ((assigned s).length + 1)) := by
    rw [hline.common]
    exact dmaCookieAssign_cookieOf _ _
  have hcookie : nextCookie s = cookieOf ((assigned s).length + 1) := by
    rw [nextCookie, hassign]
  have hquiet : ∀ {β : Type} (f : Event → Option β), f .bug = none → w.filterMap f = [] := by
    intro β f hf
    apply List.filterMap_eq_nil_iff.mpr
    intro e he
    rw [hw e he, hf]
  have hassigned : assigned s' = assigned s ++ [(d.id, cookieOf ((assigned s).length + 1))] := by
    simp [assigned, hlog, hquiet Event.assigned rfl, Event.assigned, hcookie]
  have hcompleted : completedIds s' = completedIds s := by
    simp [completedIds, hlog, hquiet Event.completed rfl, List.filterMap_cons, Event.completed]
  refine ⟨m, ?_⟩
  rw [hassigned, hcompleted, hcommon, hassign, hactive, hpending, ← List.append_assoc,
    List.map_append, hcookie]
  exact hline.accept d.id

/-- A start moves descriptors in order. -/
theorem startTransfer (h : CookieOrder s) (startOk : Bool) :
    CookieOrder (xilinxDmaStartTransfer startOk s) := by
  have hquiet : ∀ w : List Event, (∀ e ∈ w, e.isBusWrite = true) →
      (s.log ++ w).filterMap Event.assigned = s.log.filterMap Event.assigned ∧
        (s.log ++ w).filterMap Event.completed = s.log.filterMap Event.completed := by
    intro w hw
    have hassigned : w.filterMap Event.assigned = [] :=
      List.filterMap_eq_nil_iff.mpr fun e he => (quiet_of_isBusWrite (hw e he)).1
    have hcompleted : w.filterMap Event.completed = [] :=
      List.filterMap_eq_nil_iff.mpr fun e he => (quiet_of_isBusWrite (hw e he)).2.1
    constructor
    · rw [List.filterMap_append, hassigned, List.append_nil]
    · rw [List.filterMap_append, hcompleted, List.append_nil]
  rcases startTransfer_cases startOk s with
    ⟨-, hst⟩ | ⟨-, -, c, w, hw, hst⟩ | ⟨-, -, c, w, hw, hst⟩ <;> rw [hst]
  · exact h
  · exact h.of_same (hquiet w hw).1 (hquiet w hw).2 rfl (List.Sublist.refl _)
  · refine h.of_same (hquiet w hw).1 (hquiet w hw).2 rfl ?_
    rw [List.append_nil]

/-- The completion takes descriptors in order. -/
theorem irqComplete (h : CookieOrder s) : CookieOrder (irqComplete s) := by
  obtain ⟨m, hline⟩ := h
  rw [List.map_append] at hline
  obtain ⟨m', hnext⟩ := hline.completeAll
  have hassigned := (irqComplete_sameNames s).2
  have hcompleted : completedIds (PetalinuxDriver.irqComplete s) = completedIds s ++
      (s.activeList.flatMap completeEvents).filterMap Event.completed := by
    rw [irqComplete_eq, completedIds, completedIds, List.filterMap_append]
  refine ⟨m', ?_⟩
  rw [hassigned, hcompleted, irqComplete_eq]
  exact hnext

/-- Freed lists leave the order of the rest. -/
theorem freeDescriptors (h : CookieOrder s) : CookieOrder (xilinxDmaFreeDescriptors s) := by
  refine h.of_same (freeDescriptors_sameNames s).2 (freeDescriptors_completedIds s) ?_ ?_
  · rw [freeDescriptors_eq]
  · rw [freeDescriptors_eq]
    exact List.nil_sublist _

/-- A cleanup keeps the order. -/
theorem cleanup (h : CookieOrder s) : CookieOrder (xilinxDmaChanDescCleanup s).1 := by
  obtain ⟨freed, rest, hsplit, -, hcases⟩ := cleanupLoop_cases s.doneList s rfl
  unfold xilinxDmaChanDescCleanup
  rcases hcases with ⟨-, hc⟩ | ⟨d, tl, -, -, -, hc⟩ | ⟨d, tl, -, -, hc⟩ | ⟨d, tl, -, -, hc⟩ <;>
    rw [hc]
  · exact h.of_same rfl rfl rfl (List.Sublist.refl _)
  · exact h.of_same rfl rfl rfl (List.Sublist.refl _)
  · exact h.of_same (by simp [assigned, XilinxDmaChan.emit, Event.assigned])
      (by simp [completedIds, XilinxDmaChan.emit, Event.completed]) rfl (List.Sublist.refl _)
  · exact h.of_same (by simp [assigned, XilinxDmaChan.emit, Event.assigned])
      (by simp [completedIds, XilinxDmaChan.emit, Event.completed]) rfl (List.Sublist.refl _)

/-- The rest of a cleanup keeps the order. -/
theorem cleanupResume (h : CookieOrder s) (pc : CleanupPc cfg) :
    CookieOrder (cleanupResume pc s).1 := by
  cases pc with
  | idle | cyclicCallback => exact h
  | callback d => exact (h.of_sameHistory (freeTxDescriptor_sameHistory s d.segments)).cleanup

end CookieOrder

/-! ## What the line says of a cookie -/

/-- The descriptor with a cookie, or one that was accepted after it, was completed. -/
def CompletedSince (s : XilinxDmaChan cfg) (k : Nat) : Prop :=
  ∃ j id cookie, k ≤ j ∧ (assigned s)[j]? = some (id, cookie) ∧ id ∈ completedIds s

/-- What the line says of one cookie. -/
theorem CookieOrder.status {s : XilinxDmaChan cfg} (hs : CookieOrder s)
    (hnodup : (submittedIds s).Nodup) (hwrap : (assigned s).length < cookiePeriod) {k id : Nat}
    {cookie : Int} (hk : (assigned s)[k]? = some (id, cookie)) :
    (dmaCookieStatus s.common cookie = .complete ↔ CompletedSince s k) ∧
      (id ∈ (s.activeList ++ s.pendingList).map XilinxDmaTxDescriptor.id →
        dmaCookieStatus s.common cookie = .inProgress) := by
  obtain ⟨m, hline⟩ := hs
  have hklt : k < (assigned s).length := (List.getElem?_eq_some_iff.mp hk).1
  have hle := hline.le
  have hcookie : cookie = cookieOf (k + 1) := hline.cookie_of_get hk
  have hstatus : dmaCookieStatus s.common cookie = .complete ↔ k + 1 ≤ m := by
    rw [dmaCookieStatus, hline.common, hcookie]
    exact dmaAsyncIsComplete_cookieOf hle (by omega) hklt (by omega)
  -- one name belongs to one place of the line
  have hplace : ∀ {i j : Nat} {key key' : Nat × Int}, (assigned s)[i]? = some key →
      (assigned s)[j]? = some key' → key.1 = key'.1 → i = j := by
    intro i j key key' hi hj heq
    have hi' : (submittedIds s)[i]? = some key.1 := by rw [submittedIds, List.getElem?_map, hi]; rfl
    have hj' : (submittedIds s)[j]? = some key'.1 := by
      rw [submittedIds, List.getElem?_map, hj]
      rfl
    have hlt : i < (submittedIds s).length := (List.getElem?_eq_some_iff.mp hi').1
    exact (List.getElem?_inj hlt hnodup).mp (by rw [hi', hj', heq])
  constructor
  · rw [hstatus]
    constructor
    · intro hkm
      obtain ⟨key, hkey, hcompleted⟩ := hline.last (m - 1) (by omega)
      exact ⟨m - 1, key.1, key.2, by omega, hkey, hcompleted⟩
    · rintro ⟨j, jd, jcookie, hkj, hj, hcompleted⟩
      obtain ⟨key, hkey, hid⟩ := List.mem_map.mp (hline.past jd hcompleted)
      obtain ⟨i, hi⟩ := List.mem_iff_getElem?.mp hkey
      have him : i < m := by
        by_contra hge
        rw [List.getElem?_take_eq_none (by omega)] at hi
        cases hi
      rw [List.getElem?_take_of_lt him] at hi
      have hij := hplace hi hj hid
      omega
  · intro hqueued
    obtain ⟨d, hd, hid⟩ := List.mem_map.mp hqueued
    have hbehind : d.key ∈ (assigned s).drop m :=
      hline.queued.subset (List.mem_map_of_mem hd)
    obtain ⟨i, hi⟩ := List.mem_iff_getElem?.mp hbehind
    rw [List.getElem?_drop] at hi
    have hik : m + i = k := hplace hi hk hid
    cases hret : dmaCookieStatus s.common cookie with
    | inProgress => rfl
    | complete =>
      have hkm := hstatus.mp hret
      omega

/-- What was completed since stays so while the log grows. -/
theorem CompletedSince.of_log {s t : XilinxDmaChan cfg} {k : Nat} (h : CompletedSince s k)
    (hlog : s.log <+: t.log) : CompletedSince t k := by
  obtain ⟨w, hw⟩ := hlog
  obtain ⟨j, id, cookie, hkj, hj, hcompleted⟩ := h
  have hassigned : assigned t = assigned s ++ w.filterMap Event.assigned := by
    rw [assigned, ← hw, List.filterMap_append, assigned]
  have hlt : j < (assigned s).length := (List.getElem?_eq_some_iff.mp hj).1
  refine ⟨j, id, cookie, hkj, ?_, ?_⟩
  · rw [hassigned, List.getElem?_append_left hlt, hj]
  · rw [mem_completedIds] at hcompleted ⊢
    rw [← hw]
    exact List.mem_append_left _ hcompleted

namespace VxdmaSys

/-- One section of a call. -/
theorem Section.cookieOrder {env : CallEnv} {s t : XilinxDmaChan cfg} {c : Call cfg}
    {after : After cfg} (h : Section env s c t after) (hs : CookieOrder s) : CookieOrder t := by
  by_cases hchanges : c.changesQueues = false
  · exact hs.of_sameHistory (h.sameHistory hchanges)
  · cases h with
    | queued d => exact hs.queued d (w := []) (by simp) rfl rfl rfl rfl
    | queuedBug d => exact hs.queued d (w := [.bug]) (by simp) rfl rfl rfl rfl
    | issue => exact hs.startTransfer env.startOk
    | irqLock => exact hs.irqComplete.startTransfer env.startOk
    | terminateFree | freeChan => exact hs.freeDescriptors
    | _ => exact absurd rfl hchanges

/-- The channel is not allocated again, which would start the cookies over. -/
def OneAllocation (_ : VxdmaSys cfg) (a : Act cfg) : Prop :=
  match a with
  | .allocChanResources _ => False
  | _ => True

instance (s : VxdmaSys cfg) : ∀ a, Decidable (s.OneAllocation a)
  | .allocChanResources _ => isFalse id
  | .prepSlaveSg _ | .prepDmaCyclic _ | .txSubmit _ _ | .issuePending | .interrupt | .terminateAll
  | .freeChanResources | .run _ _ | .tasklet | .callbackReturn | .device _ _ _ => isTrue trivial

/-- Every action but a second allocation keeps the cookies in order. -/
theorem sectionStep_cookieOrder {s s' : VxdmaSys cfg} {a : Act cfg} (hs : CookieOrder s.chan)
    (hok : s.OneAllocation a) (h : s.sectionStep a = some s') : CookieOrder s'.chan := by
  obtain ⟨hbug, h⟩ := sectionStep_inv h
  cases h with
  | allocChanResources => exact hok.elim
  | run i env c s' hc hleave =>
    rw [leave_chan hleave]
    exact (run_inv env hbug c).cookieOrder hs
  | tasklet => exact CookieOrder.cleanup (s := { s.chan with tasklet := false }) hs
  | callbackReturn => exact hs.cleanupResume s.cleanup
  | _ => exact hs

/-- The log only grows. -/
theorem sectionStep_log {s s' : VxdmaSys cfg} {a : Act cfg} (hok : s.OneAllocation a)
    (h : s.sectionStep a = some s') : s.chan.log <+: s'.chan.log := by
  obtain ⟨hbug, h⟩ := sectionStep_inv h
  cases h with
  | allocChanResources => exact hok.elim
  | run i env c s' hc hleave =>
    obtain ⟨w, hlog, -⟩ := (run_inv env hbug c).log
    rw [leave_chan hleave]
    exact ⟨w, hlog.symm⟩
  | tasklet =>
    obtain ⟨w, hlog, -⟩ := cleanup_log { s.chan with tasklet := false }
    exact ⟨w, hlog.symm⟩
  | callbackReturn =>
    obtain ⟨w, hlog, -⟩ := cleanupResume_log s.cleanup s.chan
    exact ⟨w, hlog.symm⟩
  | _ => exact List.prefix_refl _

/-! ## Runs -/

/-- After the first allocation there are no cookies. -/
theorem allocated_cookieOrder (hasSg : Bool) (ctrlOffset : Nat) (dmacr : BitVec 32)
    (segP : DmaAddr cfg) : CookieOrder (allocated hasSg ctrlOffset dmacr segP).chan := by
  refine ⟨0, rfl, rfl, Nat.le_refl _, List.nil_sublist _, ?_, ?_⟩
  · intro id hid
    cases hid
  · intro k hk
    cases hk

/-- In every run after it the cookies are in order. -/
theorem cookieOrder_of_reachable {s t : VxdmaSys cfg}
    (h : Reachable sectionStep OneAllocation s t) (hs : CookieOrder s.chan) :
    CookieOrder t.chan := by
  induction h with
  | refl => exact hs
  | tail _ hlast ih =>
    obtain ⟨a, hok, hstep⟩ := hlast
    exact sectionStep_cookieOrder ih hok hstep

/-- No name is given twice along such a run. -/
theorem namesOnce_along {s t : VxdmaSys cfg} (h : Reachable sectionStep OneAllocation s t)
    (hs : NamesOnce s) : NamesOnce t :=
  h.invariant hs fun _ _ _ hu _ hstep => sectionStep_namesOnce hu hstep

/-- A run only appends to the log. -/
theorem log_of_reachable {s t : VxdmaSys cfg} (h : Reachable sectionStep OneAllocation s t) :
    s.chan.log <+: t.chan.log := by
  induction h with
  | refl => exact List.prefix_refl _
  | tail _ hlast ih =>
    obtain ⟨a, hok, hstep⟩ := hlast
    exact ih.trans (sectionStep_log hok hstep)

/-- **What a status says.** In every run from the first allocation, until the cookies repeat and
whatever is terminated: `xilinx_dma_tx_status` says that a cookie is complete exactly when its
descriptor or one that was accepted after it was completed, never for a descriptor that is active or
pending, and for good. -/
theorem status_iff_completed {hasSg : Bool} {ctrlOffset : Nat} {dmacr : BitVec 32}
    {segP : DmaAddr cfg} {s t : VxdmaSys cfg}
    (hs : Reachable sectionStep OneAllocation (allocated hasSg ctrlOffset dmacr segP) s)
    (ht : Reachable sectionStep OneAllocation s t)
    (hwrap : (assigned t.chan).length < cookiePeriod) {k id : Nat} {cookie : Int}
    (hk : (assigned s.chan)[k]? = some (id, cookie)) (txstate : Bool) :
    ((xilinxDmaTxStatus cookie txstate s.chan).2.1 = .complete ↔ CompletedSince s.chan k) ∧
      (id ∈ (s.chan.activeList ++ s.chan.pendingList).map XilinxDmaTxDescriptor.id →
        (xilinxDmaTxStatus cookie txstate s.chan).2.1 = .inProgress) ∧
      ((xilinxDmaTxStatus cookie txstate s.chan).2.1 = .complete →
        (xilinxDmaTxStatus cookie txstate t.chan).2.1 = .complete) := by
  have horder : CookieOrder s.chan := cookieOrder_of_reachable hs (allocated_cookieOrder _ _ _ _)
  have hnames : NamesOnce s := namesOnce_along hs (allocated_namesOnce _ _ _ _)
  obtain ⟨w, hw⟩ := log_of_reachable ht
  have hmore : assigned t.chan = assigned s.chan ++ w.filterMap Event.assigned := by
    rw [assigned, ← hw, List.filterMap_append, assigned]
  have hklt : k < (assigned s.chan).length := (List.getElem?_eq_some_iff.mp hk).1
  have hlater : (assigned t.chan)[k]? = some (id, cookie) := by
    rw [hmore, List.getElem?_append_left hklt, hk]
  have hwrap' : (assigned s.chan).length < cookiePeriod := by
    rw [hmore, List.length_append] at hwrap
    omega
  have hnow := horder.status hnames.submittedIds_nodup hwrap' hk
  have hthen := (cookieOrder_of_reachable ht horder).status
    (namesOnce_along ht hnames).submittedIds_nodup hwrap hlater
  simp only [txStatus_ret]
  refine ⟨hnow.1, hnow.2, ?_⟩
  intro hcomplete
  exact hthen.1.mpr ((hnow.1.mp hcomplete).of_log ⟨w, hw⟩)

/-- Of three transfers the first is terminated, the second is completed and the third is pending. -/
def terminatedThenCompleted : List (Act .addr32) :=
  let env : CallEnv := ⟨⟨0, true⟩, xilinxDmaXrIrqIocMask, true, true⟩
  let submit : List (Act .addr32) :=
    .prepSlaveSg ⟨[⟨0, 4⟩], .memToDev, none, true⟩ :: sections 2 env ++
      .txSubmit 0 none :: sections 3 env
  submit ++ .terminateAll :: sections 3 env ++ submit ++
    [.issuePending, .run 0 env, .interrupt] ++ sections 3 env ++ submit

/-- The terminated one counts as complete because a later one is, and the pending one does not. -/
theorem status_iff_completed_terminatedThenCompleted :
    ∃ s, exec sectionStep (allocated true 0 0 0) terminatedThenCompleted = some s ∧
      0 ∉ completedIds s.chan ∧ (xilinxDmaTxStatus 2 true s.chan).2.1 = .complete ∧
      (xilinxDmaTxStatus 4 true s.chan).2.1 = .inProgress := by
  have hexec : (exec sectionStep (allocated true 0 0 0) terminatedThenCompleted).map
      (fun s => (assigned s.chan, completedIds s.chan,
        (s.chan.activeList ++ s.chan.pendingList).map XilinxDmaTxDescriptor.id)) =
      some ([(0, 2), (1, 3), (2, 4)], [1], [2]) := by
    decide +kernel
  obtain ⟨s, hs, hends⟩ := Option.map_eq_some_iff.mp hexec
  obtain ⟨hassigned, hrest⟩ := Prod.mk.inj hends
  obtain ⟨hcompleted, hqueued⟩ := Prod.mk.inj hrest
  have hreach : Reachable sectionStep OneAllocation (allocated true 0 0 0) s :=
    Reachable.of_exec (by decide +kernel) hs
  have hsince : CompletedSince s.chan 0 :=
    ⟨1, 1, 3, by omega, by rw [hassigned]; rfl, by rw [hcompleted]; exact List.mem_singleton_self 1⟩
  have hwrap : (assigned s.chan).length < cookiePeriod := by
    rw [hassigned]
    decide
  have hstay : Reachable sectionStep OneAllocation s s := Reachable.refl _ _ s
  have hk : (assigned s.chan)[0]? = some (0, 2) := by rw [hassigned]; rfl
  have hk' : (assigned s.chan)[2]? = some (2, 4) := by rw [hassigned]; rfl
  have hfirst := status_iff_completed hreach hstay hwrap hk true
  have hthird := status_iff_completed hreach hstay hwrap hk' true
  refine ⟨s, hs, ?_, hfirst.1.mpr hsince, ?_⟩
  · rw [hcompleted]
    decide
  · apply hthird.2.1
    rw [hqueued]
    exact List.mem_singleton_self 2

end VxdmaSys

end PetalinuxDriver
