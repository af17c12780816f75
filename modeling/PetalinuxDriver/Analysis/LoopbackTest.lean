import PetalinuxDriver.Analysis.ClientStreams

/-!
# What the loopback test compares

`axidma_test_transfer` hands one buffer to each of its two channels and in the end compares the two.
Between the request of a channel and its release it asks for one transfer of `dma_length` bytes from
the handle of the side, whatever happened in the tests before (`loopTypestate`). So when it compares,
and the transfer of a side has completed, the engine of that side was sent through these bytes, in
order and each once, and through nothing else (`loopback_buffers`).
-/

set_option autoImplicit false

namespace PetalinuxDriver

open Library

variable {cfg : PhysAddrConfig}

namespace VxdmaSys

/-! ## While the channel is held -/

/-- A call that does not release the channel does not come to do so. -/
theorem Section.notReleasing {env : CallEnv} {s t : XilinxDmaChan cfg} {c c' : Call cfg}
    (h : Section env s c t (.goesOn c')) (hc : c.releases = false) : c'.releases = false := by
  cases h <;> first | rfl | cases hc

/-- A channel stays with its client until it is released. -/
theorem sectionStep_staysAllocated {s s' : VxdmaSys cfg} {a : Act cfg} (hs : s.Allocated)
    (ha : a ≠ .freeChanResources) (h : s.sectionStep a = some s') : s'.Allocated := by
  constructor
  · obtain ⟨hbug, hstep⟩ := sectionStep_inv h
    cases hstep with
    | freeChanResources => exact absurd rfl ha
    | allocChanResources zalloc hpool =>
      have hsome := hs.1
      rw [hpool] at hsome
      cases hsome
    | run i env c s' hc hleave =>
      rw [leave_chan hleave]
      have hne : c ≠ .freeChanCoherent := by
        rintro rfl
        cases hs.2 _ (List.mem_of_getElem? hc)
      rw [((run_inv env hbug c).samePool hne).segV]
      exact hs.1
    | tasklet =>
      rw [(cleanup_samePool { s.chan with tasklet := false }).segV]
      exact hs.1
    | callbackReturn =>
      rw [(cleanupResume_samePool s.cleanup s.chan).segV]
      exact hs.1
    | _ => exact hs.1
  · intro e he
    rcases sectionStep_mem_calls h he with hold | hmakes | ⟨i, env, c, -, hc, hsection⟩
    · exact hs.2 e hold
    · cases hmakes with
      | freeChanResources => exact absurd rfl ha
      | _ => rfl
    · exact hsection.notReleasing (hs.2 c (List.mem_of_getElem? hc))

/-- A submit that is accepted adds its descriptor to those accepted. -/
theorem Section.submitted_ids {env : CallEnv} {s t : XilinxDmaChan cfg} {c : Call cfg}
    {d : XilinxDmaTxDescriptor cfg} {cookie : Int}
    (h : Section env s c t (.submitted d (.cookie cookie))) :
    submittedIds t = submittedIds s ++ [d.id] := by
  cases h
  simp [submittedIds, assigned, Event.assigned]

end VxdmaSys

/-! ## One transfer between a request and a release -/

/-- What is known of the two sides: the channel is the client's, a transfer was asked for since it was
requested, the latest submit was made since then, and it was accepted. -/
structure LoopFacts where
  requested : DmaSide → Bool
  asked : DmaSide → Bool
  current : DmaSide → Bool
  accepted : DmaSide → Bool

/-- A channel is requested, and its side mapped, only while nothing is asked for, and one transfer of
`dma_length` is. When the test compares, both transfers were accepted, and it has both channels. -/
def loopTypestate : Typestate ClientOp ClientCheck LoopFacts where
  allowed f
    | .on side .request => !f.asked side
    | .on side .map => !f.asked side
    | .on side (.prep _ len) => !f.asked side && len == 32 * 16
    | .on side .release => f.requested side || !f.asked side
    | .compare => f.accepted .tx && f.accepted .rx && f.requested .tx && f.requested .rx
    | _ => true
  after f
    | .on side .request =>
      ⟨Function.update f.requested side false, f.asked, Function.update f.current side false,
        Function.update f.accepted side false⟩
    | .on side (.prep _ _) => { f with asked := Function.update f.asked side true }
    | .on side (.submit _) =>
      ⟨f.requested, f.asked, Function.update f.current side true,
        Function.update f.accepted side false⟩
    | .on side .release =>
      { f with
        requested := Function.update f.requested side false
        asked := Function.update f.asked side false }
    | _ => f
  outcome f
    | .channels, true => { f with requested := fun _ => true }
    | .submitted sides, true =>
      { f with accepted := fun side => (sides.contains side && f.current side) || f.accepted side }
    | _, _ => f
  final f := !f.asked .tx && !f.asked .rx

/-- What is known when a test begins. -/
def LoopFacts.initial : LoopFacts := ⟨fun _ => false, fun _ => false, fun _ => false, fun _ => false⟩

/-- The loopback test keeps to the order that the invariant follows. -/
theorem vxaxidmaTest_conforms : vxaxidmaTest.conforms loopTypestate .initial = true := by
  decide

/-! ## The invariant of one side -/

/-- Names are only added to those of the accepted descriptors. -/
theorem VxdmaSys.sectionStep_submittedIds {s s' : VxdmaSys cfg} {a : VxdmaSys.Act cfg}
    (h : s.sectionStep a = some s') :
    ∃ more, submittedIds s'.chan = submittedIds s.chan ++ more := by
  obtain ⟨w, hlog, -⟩ := (VxdmaSys.sectionStep_writesOwn h).log
  refine ⟨(w.filterMap Event.assigned).map Prod.fst, ?_⟩
  rw [submittedIds, submittedIds, assigned, assigned, hlog, List.filterMap_append, List.map_append]

/-- What holds of a side when these facts are known. -/
structure LoopInv (f : LoopFacts) (side : DmaSide) (c : ClientSide cfg) (w : Session cfg) :
    Prop where
  held : c.requested = true → c.sys.Allocated
  requested : f.requested side = true → c.requested = true
  unasked : f.asked side = false → c.sys.Allocated → w.seen.requests = []
  asked : c.sys.Allocated → w.seen.requests = [] ∨
    ∃ id a, w.seen.requests = [(id, a)] ∧ a.HandsOver ⟨c.dmaHandle, 32 * 16⟩
  current : f.current side = true → c.sys.Allocated → ∀ id ∈ c.acceptedId,
    id ∈ (submittedIds c.sys.chan).drop w.base.length
  accepted : f.accepted side = true → f.current side = true ∧ c.sys.NoSubmit ∧
    ∃ id, c.acceptedId = some id

namespace LoopInv

variable {f f' : LoopFacts} {side : DmaSide} {c c' : ClientSide cfg} {w : Session cfg}

/-- The same is known of this side. -/
theorem of_same (h : LoopInv f side c w) (hrequested : f'.requested side = f.requested side)
    (hasked : f'.asked side = f.asked side) (hcurrent : f'.current side = f.current side)
    (haccepted : f'.accepted side = f.accepted side) : LoopInv f' side c w := by
  refine ⟨h.held, ?_, ?_, h.asked, ?_, ?_⟩
  · rw [hrequested]
    exact h.requested
  · rw [hasked]
    exact h.unasked
  · rw [hcurrent]
    exact h.current
  · rw [hcurrent, haccepted]
    exact h.accepted

/-- An action of the driver that asks for nothing. -/
theorem drive {a : VxdmaSys.Act cfg} {s' : VxdmaSys cfg} (h : LoopInv f side c w)
    (hstep : c.sys.sectionStep a = some s') (hnew : ∀ zalloc, a ≠ .allocChanResources zalloc)
    (hfree : a ≠ .freeChanResources) (hentry : a.entry c.sys.chan = none)
    (hno : f.accepted side = true → s'.NoSubmit) :
    LoopInv f side { c with sys := s' } (w.after c.sys a s') := by
  have hafter : w.after c.sys a s' = { w with seen := VxdmaSys.seen w.pool w.seen c.sys a s' } := by
    cases a with
    | allocChanResources zalloc => exact absurd rfl (hnew zalloc)
    | _ => rfl
  have hrequests : (VxdmaSys.seen w.pool w.seen c.sys a s').requests = w.seen.requests := by
    rw [VxdmaSys.seen]
    simp only [VxdmaSys.requests, hentry]
  have hback : s'.Allocated → c.sys.Allocated := fun hheld =>
    (VxdmaSys.sectionStep_allocated hnew hstep hheld).1
  rw [hafter]
  refine ⟨?_, h.requested, ?_, ?_, ?_, ?_⟩
  · intro hreq
    exact VxdmaSys.sectionStep_staysAllocated (h.held hreq) hfree hstep
  · intro hasked hheld
    rw [hrequests]
    exact h.unasked hasked (hback hheld)
  · intro hheld
    rw [hrequests]
    exact h.asked (hback hheld)
  · intro hcurrent hheld id hid
    obtain ⟨more, hmore⟩ := VxdmaSys.sectionStep_submittedIds hstep
    have hold := h.current hcurrent (hback hheld) id hid
    change id ∈ (submittedIds s'.chan).drop w.base.length
    rw [hmore, List.drop_append]
    exact List.mem_append_left _ hold
  · intro hacc
    obtain ⟨hcurrent, -, hid⟩ := h.accepted hacc
    exact ⟨hcurrent, hno hacc, hid⟩

/-- An operation of the client on this side. -/
theorem run {ans : ClientAnswer cfg} {o : ChannelOp} (h : LoopInv f side c w)
    (hallowed : loopTypestate.allowed f (.on side o) = true) (hrest : c.resting = true)
    (hok : ∀ act ∈ o.drives ans c, c.sys.Undisturbed act) (hrun : c.run ans o = some c') :
    LoopInv (loopTypestate.after f (.on side o)) side c'
      (match o.drives ans c with
        | none => w
        | some act => w.after c.sys act c'.sys) := by
  have hno : c.sys.NoSubmit := ClientSide.noSubmit_of_resting hrest
  cases o with
  | request =>
    obtain rfl : c.request ans = c' := Option.some.inj hrun
    have hasked : f.asked side = false := by simpa [loopTypestate] using hallowed
    rcases c.request_cases ans with heq | ⟨sys, hsys, heq⟩
    · have hnone : ChannelOp.request.drives ans c = none := by
        rw [ChannelOp.drives, heq]
        rfl
      rw [hnone, heq]
      refine ⟨?_, ?_, h.unasked, h.asked, ?_, ?_⟩
      · intro hreq
        cases hreq
      · intro hreq
        simp [loopTypestate] at hreq
      · intro hcur
        simp [loopTypestate] at hcur
      · intro hacc
        simp [loopTypestate] at hacc
    · have hsome : ChannelOp.request.drives ans c =
          some (.allocChanResources (some ans.addr)) := by
        rw [ChannelOp.drives, heq]
        rfl
      obtain ⟨-, hcalls⟩ := hok _ hsome
      obtain ⟨-, hsys'⟩ := VxdmaSys.sectionStep_allocChanResources hsys
      rw [hsome, heq]
      refine ⟨?_, ?_, ?_, ?_, ?_, ?_⟩
      · intro _
        refine ⟨?_, ?_⟩
        · rw [hsys']
          rfl
        · rw [hsys']
          intro call hcall
          change call ∈ c.sys.calls at hcall
          rw [hcalls] at hcall
          cases hcall
      · intro _
        rfl
      · intro _ _
        rfl
      · intro _
        exact Or.inl rfl
      · intro hcur
        simp [loopTypestate] at hcur
      · intro hacc
        simp [loopTypestate] at hacc
  | map =>
    cases hrun
    have hasked : f.asked side = false := by simpa [loopTypestate] using hallowed
    exact ⟨h.held, h.requested, h.unasked, fun hheld => Or.inl (h.unasked hasked hheld),
      h.current, h.accepted⟩
  | prep dir len =>
    obtain ⟨sys, hsys, rfl⟩ := ClientSide.act_cases hrun
    obtain ⟨hasked, hlen⟩ : f.asked side = false ∧ len = 32 * 16 := by
      simpa [loopTypestate] using hallowed
    have hback : sys.Allocated → c.sys.Allocated := fun hheld =>
      (VxdmaSys.sectionStep_allocated (by simp) hsys hheld).1
    change LoopInv _ side _ ⟨w.pool, w.base, VxdmaSys.seen w.pool w.seen c.sys
      (.prepSlaveSg ⟨[⟨c.dmaHandle, len⟩], dir, none, ans.ok⟩) sys⟩
    refine ⟨?_, h.requested, ?_, ?_, ?_, ?_⟩
    · intro hreq
      exact VxdmaSys.sectionStep_staysAllocated (h.held hreq) (by simp) hsys
    · intro hno
      simp [loopTypestate] at hno
    · intro hheld
      have hnone := h.unasked hasked (hback hheld)
      rw [VxdmaSys.seen]
      simp only [VxdmaSys.requests, hnone]
      split
      · exact Or.inr ⟨_, _, rfl, dir, ans.ok, by rw [hlen]⟩
      · exact Or.inl rfl
    · intro hcurrent hheld id hid
      obtain ⟨more, hmore⟩ := VxdmaSys.sectionStep_submittedIds hsys
      have hold := h.current hcurrent (hback hheld) id hid
      change id ∈ (submittedIds sys.chan).drop w.base.length
      rw [hmore, List.drop_append]
      exact List.mem_append_left _ hold
    · intro hacc
      obtain ⟨hcurrent, -, hid⟩ := h.accepted hacc
      exact ⟨hcurrent, VxdmaSys.sectionStep_noSubmit hno (by simp) hsys, hid⟩
  | submit buf =>
    rcases ClientSide.submit_cases hrun with ⟨hnil, rfl⟩ | ⟨d, ds, sys, hcons, hsys, rfl⟩
    · have hnone : (ChannelOp.submit buf).drives ans c = none := by
        simp [ChannelOp.drives, hnil]
      rw [hnone]
      refine ⟨h.held, h.requested, h.unasked, h.asked, ?_, ?_⟩
      · intro _ _ id hid
        simp [ClientSide.acceptedId] at hid
      · intro hacc
        simp [loopTypestate] at hacc
    · have hsome : (ChannelOp.submit buf).drives ans c = some (.txSubmit 0 (some 0)) := by
        simp [ChannelOp.drives, hcons]
      rw [hsome]
      have hforget : LoopInv { f with accepted := Function.update f.accepted side false } side c w :=
        ⟨h.held, h.requested, h.unasked, h.asked, h.current, fun hacc => by simp at hacc⟩
      have hdrive := hforget.drive hsys (by simp) (by simp) rfl fun hacc => by simp at hacc
      refine ⟨hdrive.held, hdrive.requested, hdrive.unasked, hdrive.asked, ?_, ?_⟩
      · intro _ _ id hid
        simp [ClientSide.acceptedId] at hid
      · intro hacc
        simp [loopTypestate] at hacc
  | issuePending =>
    obtain ⟨sys, hsys, rfl⟩ := ClientSide.act_cases hrun
    exact h.drive hsys (by simp) (by simp) rfl fun _ =>
      VxdmaSys.sectionStep_noSubmit hno (by simp) hsys
  | initCompletion | wait =>
    cases hrun
    exact ⟨h.held, h.requested, h.unasked, h.asked, h.current, h.accepted⟩
  | release =>
    simp only [ClientSide.run] at hrun
    split at hrun
    · rename_i hreq
      obtain ⟨sys, hsys, rfl⟩ := ClientSide.act_cases hrun
      have hsome : ChannelOp.release.drives ans c = some .freeChanResources := if_pos hreq
      have hnot : ¬ sys.Allocated := by
        intro hheld
        exact (VxdmaSys.sectionStep_allocated (by simp) hsys hheld).2 rfl
      rw [hsome]
      refine ⟨?_, ?_, fun _ hheld => absurd hheld hnot, fun hheld => absurd hheld hnot,
        fun _ hheld => absurd hheld hnot, ?_⟩
      · intro hreq
        cases hreq
      · intro hreq
        simp [loopTypestate] at hreq
      · intro hacc
        obtain ⟨hcurrent, -, hid⟩ := h.accepted hacc
        exact ⟨hcurrent, VxdmaSys.sectionStep_noSubmit hno (by simp) hsys, hid⟩
    · rename_i hreq
      cases hrun
      have hnone : ChannelOp.release.drives ans c = none := if_neg hreq
      have hasked : f.asked side = false := by
        rcases Bool.or_eq_true_iff.mp hallowed with hrequested | hasked
        · exact absurd (h.requested hrequested) hreq
        · simpa using hasked
      rw [hnone]
      refine ⟨h.held, ?_, fun _ => h.unasked hasked, h.asked, h.current, h.accepted⟩
      intro hreq
      simp [loopTypestate] at hreq

/-- What happens on a channel without the client. -/
theorem outside {a : VxdmaSys.Act cfg} (h : LoopInv f side c w)
    (hbug : c.sys.chan.bug = false)
    (hbase : c.sys.Allocated → w.base.length ≤ (submittedIds c.sys.chan).length)
    (hstep : ClientSide.OutsideStep c a c') : LoopInv f side c' (w.after c.sys a c'.sys) := by
  have hkeeps : ∀ {sys : VxdmaSys cfg}, c.sys.sectionStep a = some sys →
      (∀ i callback, a ≠ .txSubmit i callback) → f.accepted side = true → sys.NoSubmit :=
    fun hsys ha hacc => VxdmaSys.sectionStep_noSubmit (h.accepted hacc).2.1 ha hsys
  cases hstep with
  | interrupt sys hsys => exact h.drive hsys (by simp) (by simp) rfl (hkeeps hsys (by simp))
  | tasklet sys hsys => exact h.drive hsys (by simp) (by simp) rfl (hkeeps hsys (by simp))
  | callbackReturn sys hcalled hsys =>
    have hdrive := h.drive hsys (by simp) (by simp) rfl (hkeeps hsys (by simp))
    exact ⟨hdrive.held, hdrive.requested, hdrive.unasked, hdrive.asked, hdrive.current,
      hdrive.accepted⟩
  | device p status app sys hsys =>
    exact h.drive hsys (by simp) (by simp) rfl (hkeeps hsys (by simp))
  | run i env sys hsys =>
    have hdrive := h.drive hsys (by simp) (by simp) rfl (hkeeps hsys (by simp))
    cases hret : c.submitReturns i env with
    | none =>
      rw [Option.none_or]
      exact hdrive
    | some p =>
      -- a submit returns, so that it was not known to be accepted
      obtain ⟨pid, r⟩ := p
      refine ⟨hdrive.held, hdrive.requested, hdrive.unasked, hdrive.asked, ?_, ?_⟩
      · intro _ hheld id hid
        obtain ⟨call, d, hcall, hid', hsection⟩ := ClientSide.submitReturns_some hbug hret
        cases r with
        | cookie cookie =>
          obtain rfl : pid = id := by simpa [ClientSide.acceptedId] using hid
          have hchan : sys.chan = (call.run env c.sys.chan).1 := by
            obtain ⟨call', hcall', -, rfl⟩ := VxdmaSys.sectionStep_run hsys
            obtain rfl : call = call' := Option.some.inj (hcall.symm.trans hcall')
            rfl
          have hmore : submittedIds sys.chan = submittedIds c.sys.chan ++ [pid] := by
            rw [hchan, ← hid']
            exact hsection.submitted_ids
          have hlen := hbase (VxdmaSys.sectionStep_allocated (by simp) hsys hheld).1
          change pid ∈ (submittedIds sys.chan).drop w.base.length
          rw [hmore, List.drop_append_of_le_length hlen]
          exact List.mem_append_right _ (List.mem_singleton_self pid)
        | error err => simp [ClientSide.acceptedId] at hid
        | bug => simp [ClientSide.acceptedId] at hid
      · intro hacc
        obtain ⟨-, hnone, -⟩ := h.accepted hacc
        rw [ClientSide.submitReturns_none hbug hnone] at hret
        cases hret

/-- A callback keeps what is known of a side. -/
theorem callback (h : LoopInv f side c w) (hstep : c.axidmaSyncCallback = some c') :
    LoopInv f side c' w := by
  obtain ⟨d, -, -, rfl⟩ := ClientSide.axidmaSyncCallback_cases hstep
  exact ⟨h.held, h.requested, h.unasked, h.asked, h.current, h.accepted⟩

end LoopInv

/-! ## Runs of the test -/

namespace ClientSys

/-- What holds of a side along the runs of the test. -/
def LoopsInv (ctrlOffset : Nat) (dmacr : BitVec 32) (side : DmaSide) (s : ClientSys cfg)
    (w : Session cfg) : Prop :=
  SessionInv ctrlOffset dmacr (s.side side).sys w ∧
    ∃ f, s.prog.conforms loopTypestate f = true ∧ LoopInv f side (s.side side) w

/-- What a check finds may be remembered. -/
theorem learn_loopInv {s : ClientSys cfg} {f : LoopFacts} {side : DmaSide} {w : Session cfg}
    (h : LoopInv f side (s.side side) w) (hrest : s.resting = true) (ans : ClientAnswer cfg)
    (c : ClientCheck) : LoopInv (loopTypestate.outcome f c (s.finds ans c)) side (s.side side) w := by
  cases c with
  | kmalloc => cases s.finds ans .kmalloc <;> exact h
  | channels =>
    cases hfinds : s.finds ans .channels with
    | false => exact h
    | true =>
      obtain ⟨htx, hrx⟩ : (s.side .tx).requested = true ∧ (s.side .rx).requested = true := by
        simpa [finds] using hfinds
      refine ⟨h.held, fun _ => ?_, h.unasked, h.asked, h.current, h.accepted⟩
      cases side with
      | tx => exact htx
      | rx => exact hrx
  | submitted sides =>
    cases hfinds : s.finds ans (.submitted sides) with
    | false => exact h
    | true =>
      refine ⟨h.held, h.requested, h.unasked, h.asked, h.current, ?_⟩
      intro hacc
      rcases Bool.or_eq_true_iff.mp hacc with hnew | hold
      · obtain ⟨hmem, hcurrent⟩ := Bool.and_eq_true_iff.mp hnew
        refine ⟨hcurrent, ClientSide.noSubmit_of_resting (resting_iff.mp hrest side), ?_⟩
        apply ClientSide.accepted_of_cookie
        have hall := List.all_eq_true.mp hfinds side (List.contains_iff_mem.mp hmem)
        simpa using hall
      · exact h.accepted hold

/-- An operation on the other side says nothing new of this one. -/
theorem after_other {f : LoopFacts} {side other : DmaSide} {c : ClientSide cfg} {w : Session cfg}
    (h : LoopInv f side c w) (hother : other ≠ side) (o : ChannelOp) :
    LoopInv (loopTypestate.after f (.on other o)) side c w := by
  have hne := Ne.symm hother
  cases o with
  | request =>
    exact h.of_same (Function.update_of_ne hne ..) rfl (Function.update_of_ne hne ..)
      (Function.update_of_ne hne ..)
  | prep => exact h.of_same rfl (Function.update_of_ne hne ..) rfl rfl
  | submit =>
    exact h.of_same rfl rfl (Function.update_of_ne hne ..) (Function.update_of_ne hne ..)
  | release =>
    exact h.of_same (Function.update_of_ne hne ..) (Function.update_of_ne hne ..) rfl rfl
  | _ => exact h

/-- **One step of a run of the test.** -/
theorem clientStep_loopsInv {ctrlOffset : Nat} {dmacr : BitVec 32} {side : DmaSide}
    {s s' : ClientSys cfg} {a : ClientAct cfg} {w : Session cfg}
    (hs : LoopsInv ctrlOffset dmacr side s w) (hok : s.Undisturbed side a)
    (h : clientStep vxaxidmaTest s a = some s') :
    LoopsInv ctrlOffset dmacr side s' (session side w s a s') := by
  obtain ⟨hsession, f, hconforms, hloop⟩ := hs
  refine ⟨clientStep_sessionInv hsession hok h, ?_⟩
  obtain ⟨hbug, hstep⟩ := clientStep_inv h
  cases hstep with
  | ioctl hdone =>
    rw [hdone] at hconforms
    obtain ⟨htx, hrx⟩ : f.asked .tx = false ∧ f.asked .rx = false := by
      simpa [Script.conforms, loopTypestate] using hconforms
    have hasked : f.asked side = false := by
      cases side with
      | tx => exact htx
      | rx => exact hrx
    refine ⟨.initial, vxaxidmaTest_conforms, hloop.held, ?_, fun _ => hloop.unasked hasked,
      hloop.asked, ?_, ?_⟩
    · intro hreq
      cases hreq
    · intro hcur
      cases hcur
    · intro hacc
      cases hacc
  | check ans c failed next hrest hprog =>
    have hnone : s.drives side (.client ans) = none := by simp [drives, hprog]
    rw [session, hnone]
    rw [hprog] at hconforms
    exact ⟨_, Script.conforms_check hconforms _, learn_loopInv hloop hrest ans c⟩
  | on ans at' o next c hrest hprog hrun =>
    rw [hprog, Script.conforms_op] at hconforms
    refine ⟨_, hconforms.2, ?_⟩
    by_cases hside : at' = side
    · subst hside
      have hdrives : s.drives at' (.client ans) = o.drives ans (s.side at') := by
        simp [drives, hprog]
      have hquiet : ∀ act ∈ o.drives ans (s.side at'), (s.side at').sys.Undisturbed act := by
        rw [← hdrives]
        exact hok
      rw [session, hdrives, setSide_side]
      exact hloop.run hconforms.1 (resting_iff.mp hrest at') hquiet hrun
    · have hnone : s.drives side (.client ans) = none := by simp [drives, hprog, hside]
      rw [session, hnone, setSide_side_of_ne _ c (Ne.symm hside)]
      exact after_other hloop hside o
  | buffer ans o next hrest hprog ho =>
    have hnone : s.drives side (.client ans) = none := by
      cases o with
      | on at' o => exact absurd rfl (ho at' o)
      | _ => simp [drives, hprog]
    rw [session, hnone]
    rw [hprog, Script.conforms_op] at hconforms
    refine ⟨_, hconforms.2, ?_⟩
    cases o with
    | on at' o => exact absurd rfl (ho at' o)
    | _ => exact hloop
  | channel at' a c hout =>
    by_cases hside : at' = side
    · subst hside
      have hsome : s.drives at' (.channel at' a) = some a := by simp [drives]
      rw [session, hsome, setSide_side]
      refine ⟨f, hconforms, hloop.outside (hbug at') ?_ hout⟩
      intro hheld
      obtain ⟨ids, ws, reqs, hids, -⟩ := (hsession.stream hheld).stream
      rw [hids, List.length_append]
      exact Nat.le_add_right _ _
    · have hnone : s.drives side (.channel at' a) = none := by simp [drives, hside]
      rw [session, hnone, setSide_side_of_ne _ c (Ne.symm hside)]
      exact ⟨f, hconforms, hloop⟩
  | callback at' c hc =>
    refine ⟨f, hconforms, ?_⟩
    by_cases hside : at' = side
    · subst hside
      rw [setSide_side]
      exact hloop.callback hc
    · rw [setSide_side_of_ne _ c (Ne.symm hside)]
      exact hloop

/-- Every undisturbed run keeps what is known. -/
theorem loopsInv_of_reachable {side : DmaSide} {hasSg : DmaSide → Bool}
    {ctrlOffset : DmaSide → Nat} {dmacr : DmaSide → BitVec 32} {s : ClientSys cfg}
    {w : Session cfg} (hsg : hasSg side = true)
    (h : Reachable (withGhost (clientStep vxaxidmaTest) (session side))
      (fun sw a => sw.1.Undisturbed side a) (probed hasSg ctrlOffset dmacr, .none) (s, w)) :
    LoopsInv (ctrlOffset side) (dmacr side) side s w := by
  have hprobed : LoopsInv (ctrlOffset side) (dmacr side) side
      (probed hasSg ctrlOffset dmacr : ClientSys cfg) .none := by
    have hstart : Reachable (withGhost (clientStep vxaxidmaTest) (session side))
        (fun sw a => sw.1.Undisturbed side a)
        ((probed hasSg ctrlOffset dmacr : ClientSys cfg), .none)
        (probed hasSg ctrlOffset dmacr, .none) := Reachable.refl _ _ _
    refine ⟨sessionInv_of_reachable hsg hstart, .initial, rfl, ?_, ?_, fun _ _ => rfl,
      fun _ => Or.inl rfl, ?_, ?_⟩
    · intro hreq
      cases hreq
    · intro hreq
      cases hreq
    · intro hcur
      cases hcur
    · intro hacc
      cases hacc
  exact h.ghost_invariant hprobed fun _ _ _ _ hs hok hstep => clientStep_loopsInv hs hok hstep

/-- What is asked for by all is asked for by each. -/
theorem askedBy_of_mem {g : List (Nat × VxdmaSys.Act cfg)} {ids : List Nat}
    {reqs : List (VxdmaSys.Act cfg)} (h : VxdmaSys.AllAskedBy g ids reqs) {id : Nat}
    (hid : id ∈ ids) : ∃ a, VxdmaSys.AskedBy g id a := by
  induction h with
  | nil => cases hid
  | cons hask _ ih =>
    rcases List.mem_cons.mp hid with rfl | hrest
    · exact ⟨_, hask⟩
    · exact ih hrest

/-- Names without repetition that are all the same are one name. -/
theorem eq_singleton_of_nodup {l : List Nat} {n m : Nat} (hnodup : l.Nodup) (hmem : m ∈ l)
    (hall : ∀ k ∈ l, k = n) : l = [n] := by
  have hreplicate : l = List.replicate l.length n := List.eq_replicate_iff.mpr ⟨rfl, hall⟩
  have hle : l.length ≤ 1 := by
    rw [hreplicate] at hnodup
    exact List.nodup_replicate.mp hnodup
  have hpos : 0 < l.length := List.length_pos_of_mem hmem
  have hone : l.length = 1 := by omega
  rw [hreplicate, hone]
  rfl

/-- **What the loopback test compares was transferred, and nothing else.** In every run of the test,
whatever happened in the tests before: when it compares, what the engine of an undisturbed side in
scatter-gather mode was sent through since the channel was requested, byte for byte, and then what
waits, are the `dma_length` bytes from the handle of the side; and when the transfer has completed
the engine was sent through all of them. -/
theorem loopback_buffers {side : DmaSide} {hasSg : DmaSide → Bool} {ctrlOffset : DmaSide → Nat}
    {dmacr : DmaSide → BitVec 32} {s : ClientSys cfg} {w : Session cfg} (hsg : hasSg side = true)
    (h : Reachable (withGhost (clientStep vxaxidmaTest) (session side))
      (fun sw a => sw.1.Undisturbed side a) (probed hasSg ctrlOffset dmacr, .none) (s, w))
    (hcompare : s.prog.head = some .compare) :
    ∃ ws, w.seen.fetched = some ws ∧
      ws.flatMap (XilinxDmaDescHw.bytes cfg) ++
          (s.side side).sys.chan.pendingList.flatMap (VxdmaSys.descBytes (s.side side).sys.chan) =
        span (s.side side).dmaHandle (32 * 16) ∧
      ((s.side side).Completed →
        ws.flatMap (XilinxDmaDescHw.bytes cfg) = span (s.side side).dmaHandle (32 * 16)) := by
  obtain ⟨hsession, f, hconforms, hloop⟩ := loopsInv_of_reachable hsg h
  have hallowed := Script.allowed_of_head hconforms hcompare
  obtain ⟨haccepted, hrequested⟩ : f.accepted side = true ∧ f.requested side = true := by
    simp only [loopTypestate, Bool.and_eq_true] at hallowed
    cases side with
    | tx => exact ⟨hallowed.1.1.1, hallowed.1.2⟩
    | rx => exact ⟨hallowed.1.1.2, hallowed.2⟩
  have hheld := hloop.held (hloop.requested hrequested)
  obtain ⟨g, hg⟩ := hsession.history
  have hweak : Reachable (withGhost VxdmaSys.sectionStep VxdmaSys.requests)
      (fun sg a => always sg.1 a) (VxdmaSys.probed true (ctrlOffset side) (dmacr side), [])
      ((s.side side).sys, g) := hg
  have hrun : Reachable VxdmaSys.sectionStep always
      (VxdmaSys.probed true (ctrlOffset side) (dmacr side)) (s.side side).sys := hweak.fst
  have hwhole : ∀ r ∈ w.seen.requests, r.2.WholePeriods := by
    intro r hr
    obtain ⟨buf, hbuf⟩ := hsession.asked hheld r hr
    exact hbuf.wholePeriods
  obtain ⟨ids, reqs, ws, hids, hasked, hfetched, hbytes⟩ :=
    (hsession.stream hheld).bytes hwhole
  obtain ⟨hcurrent, -, id, hid⟩ := hloop.accepted haccepted
  -- the accepted descriptor is one of this session
  have hmem : id ∈ ids := by
    have hdrop := hloop.current hcurrent hheld id hid
    rw [hids, List.drop_left] at hdrop
    exact hdrop
  obtain ⟨req, hreq⟩ := askedBy_of_mem hasked hmem
  obtain ⟨id₁, a, hrequests, hbuf⟩ : ∃ id₁ a, w.seen.requests = [(id₁, a)] ∧
      a.HandsOver ⟨(s.side side).dmaHandle, 32 * 16⟩ := by
    rcases hloop.asked hheld with hnone | hone
    · rw [hnone] at hreq
      cases hreq.1
    · exact hone
  have hsame : ∀ {k : Nat} {r : VxdmaSys.Act cfg}, (k, r) ∈ w.seen.requests → k = id₁ ∧ r = a := by
    intro k r hkr
    rw [hrequests] at hkr
    exact Prod.mk.inj (List.mem_singleton.mp hkr)
  -- so it is the only one
  have hone : ids = [id₁] := by
    have hnodup := (VxdmaSys.namesOnce_of_reachable hrun).submittedIds_nodup
    rw [hids] at hnodup
    refine eq_singleton_of_nodup hnodup.of_append_right hmem fun k hk => ?_
    obtain ⟨r, hr⟩ := askedBy_of_mem hasked hk
    exact (hsame hr.1).1
  subst hone
  obtain ⟨r, rfl, hr⟩ : ∃ r, reqs = [r] ∧ VxdmaSys.AskedBy w.seen.requests id₁ r := by
    obtain ⟨r, rest, hr, hrest, rfl⟩ := List.forall₂_cons_left_iff.mp hasked
    exact ⟨r, by rw [List.forall₂_nil_left_iff.mp hrest], hr⟩
  have hspan : ws.flatMap (XilinxDmaDescHw.bytes cfg) ++
      (s.side side).sys.chan.pendingList.flatMap (VxdmaSys.descBytes (s.side side).sys.chan) =
        span (s.side side).dmaHandle (32 * 16) := by
    rw [hbytes, List.flatMap_singleton, (hsame hr.1).2, hbuf.bytes]
    rfl
  refine ⟨ws, hfetched, hspan, ?_⟩
  rintro ⟨done, hdone, hcompleted⟩
  obtain rfl : done = id₁ := by
    rw [hid] at hdone
    rw [← Option.some.inj hdone]
    exact List.mem_singleton.mp hmem
  -- what waits would be it
  have hpending : (s.side side).sys.chan.pendingList = [] := by
    obtain ⟨before, -, -, hline, -⟩ := (hsession.stream hheld).stream
    rw [hids] at hline
    have hsplit := List.append_cancel_left hline
    rw [List.eq_nil_iff_forall_not_mem]
    intro d hd
    have hwaits : d.id ∈ (s.side side).sys.chan.pendingList.map XilinxDmaTxDescriptor.id :=
      List.mem_map_of_mem hd
    have hin : d.id ∈ [done] := hsplit ▸ List.mem_append_right before hwaits
    rw [List.mem_singleton.mp hin] at hwaits
    exact VxdmaSys.notMem_pending_of_reachable hrun hcompleted hwaits
  rw [hpending, List.flatMap_nil, List.append_nil] at hspan
  exact hspan

/-- A loopback test up to the comparison, in which both transfers complete. -/
def untilCompare : List (ClientAct .addr32) :=
  [.ioctl] ++ clientSteps 4 ++ [.client ⟨true, 4096⟩, .client ⟨true, 8192⟩] ++
  prepSteps .rx ++ prepSteps .tx ++ clientSteps 1 ++ startSteps .rx ++ startSteps .tx ++
  irqSteps .rx ++ irqSteps .tx ++ [.channel .tx .tasklet] ++ callbackSteps .tx ++ clientSteps 3

/-- A loopback test up to its comparison. -/
theorem loopback_buffers_untilCompare :
    ∃ s w, exec (withGhost (clientStep vxaxidmaTest) (session .rx)) (sgProbed, .none)
        untilCompare = some (s, w) ∧
      s.prog.head = some .compare ∧
      ∃ ws, w.seen.fetched = some ws ∧
        ws.flatMap (XilinxDmaDescHw.bytes .addr32) = span 8192 (32 * 16) := by
  have hexec : (exec (withGhost (clientStep vxaxidmaTest) (session .rx)) (sgProbed, .none)
      untilCompare).map (fun sw => (sw.1.prog.head, (sw.1.side .rx).dmaHandle,
        decide (sw.1.side .rx).Completed)) = some (some .compare, 8192, true) := by
    decide +kernel
  obtain ⟨⟨s, w⟩, hs, hends⟩ := Option.map_eq_some_iff.mp hexec
  obtain ⟨hcompare, hrest⟩ := Prod.mk.inj hends
  obtain ⟨hhandle, hcompleted⟩ := Prod.mk.inj hrest
  have hrun : Reachable (withGhost (clientStep vxaxidmaTest) (session .rx))
      (fun sw a => sw.1.Undisturbed .rx a) (sgProbed, .none) (s, w) :=
    Reachable.of_exec (by decide +kernel) hs
  obtain ⟨ws, hfetched, -, hdone⟩ := loopback_buffers rfl hrun hcompare
  have hbytes := hdone (of_decide_eq_true hcompleted)
  rw [hhandle] at hbytes
  exact ⟨s, w, hs, hcompare, ws, hfetched, hbytes⟩

end ClientSys

end PetalinuxDriver
