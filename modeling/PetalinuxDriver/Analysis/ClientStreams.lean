import PetalinuxDriver.Analysis.ClientBuffers
import PetalinuxDriver.Analysis.CompletionLatency
import PetalinuxDriver.Analysis.CyclicPlacement
import PetalinuxDriver.Analysis.EngineStream

/-!
# A client, its driver and the engine

What the engine is given was accounted for under a discipline: descriptors are submitted in the order
of preparation, none is refused, and nothing is terminated. A client of `axidma_prep_buffer` and
`axidma_start_transfer` keeps it by itself, whatever test it runs. It has no cyclic descriptor, so
that the channel never refuses it (`Unrefused`), and it makes one call after the other, so that what
it submits is the oldest of what it prepared (`OldestFirst`). What is left to ask for is that a
builder is not interrupted and that resets succeed.

So over the client, the driver and the engine together there is one stream for each time that the
channel is held: the bytes of the buffers that the client handed over, in order (`client_stream`).
-/

set_option autoImplicit false

namespace PetalinuxDriver

open Library

variable {cfg : PhysAddrConfig}

namespace VxdmaSys

/-! ## No submit is refused -/

/-- Nobody has a cyclic descriptor, so the flag is clear, and no submit is about to be refused. -/
structure Unrefused (s : VxdmaSys cfg) : Prop where
  nonCyclic : NonCyclic s
  flag : s.chan.cyclic = false
  calls : ∀ d, Call.submitRefused d ∉ s.calls

/-- Without a cyclic descriptor no section refuses a submit. -/
theorem Section.unrefused {env : CallEnv} {s t : XilinxDmaChan cfg} {c : Call cfg}
    {after : After cfg} (h : Section env s c t after) (hs : s.cyclic = false)
    (hc : c.cyclic = false) :
    t.cyclic = false ∧ ∀ d, Call.submitRefused d ∉ after.calls := by
  have hkeeps : t.cyclic = s.cyclic → (∀ d, Call.submitRefused d ∉ after.calls) →
      t.cyclic = false ∧ ∀ d, Call.submitRefused d ∉ after.calls :=
    fun ht hafter => ⟨ht.trans hs, hafter⟩
  cases h with
  | submitCyclic d hcyc =>
    rw [hs] at hcyc
    cases hcyc
  | queued d =>
    have hd : d.cyclic = false := hc
    refine ⟨?_, by simp [After.calls]⟩
    simp [hs, hd]
  | buildError => exact hkeeps (by rw [freeTxDescriptor_eq]) (by simp [After.calls])
  | submitRefused => exact hkeeps (by rw [freeTxDescriptor_eq]) (by simp [After.calls])
  | issue => exact hkeeps (startTransfer_cyclic _ _) (by simp [After.calls])
  | irqIoc => exact hkeeps (by rw [irqAck_eq]) (by simp [After.calls])
  | irqOther => exact hkeeps (by rw [irqAck_eq]) (by simp [After.calls])
  | irqLock =>
    exact hkeeps (by rw [startTransfer_cyclic, irqComplete_eq]) (by simp [After.calls])
  | terminate => exact hkeeps (by rw [halt_eq]) (by simp [After.calls])
  | terminateFree => exact hkeeps (by rw [freeDescriptors_eq]) (by simp [After.calls])
  | terminateClear =>
    rw [clearCyclic_eq]
    exact ⟨rfl, by simp [After.calls]⟩
  | freeChan => exact hkeeps (by rw [freeDescriptors_eq]) (by simp [After.calls])
  | _ => exact hkeeps rfl (by simp [After.calls])

/-- As long as no cyclic descriptor is asked for no submit is refused. -/
theorem sectionStep_unrefused {s s' : VxdmaSys cfg} {a : Act cfg} (hs : Unrefused s)
    (ha : ∀ args, a ≠ .prepDmaCyclic args) (h : s.sectionStep a = some s') : Unrefused s' := by
  refine ⟨sectionStep_nonCyclic_of_ne hs.nonCyclic ha h, ?_, ?_⟩
  · obtain ⟨hbug, hstep⟩ := sectionStep_inv h
    cases hstep with
    | allocChanResources zalloc => cases zalloc <;> exact hs.flag
    | run i env c s' hc hleave =>
      rw [leave_chan hleave]
      have hcyc := hs.nonCyclic.calls c (List.mem_of_getElem? hc)
      exact ((run_inv env hbug c).unrefused hs.flag hcyc).1
    | tasklet => exact (cleanup_cyclic _).trans hs.flag
    | callbackReturn => exact (cleanupResume_cyclic _ _).trans hs.flag
    | _ => exact hs.flag
  · intro d hd
    rcases sectionStep_mem_calls h hd with hold | hmakes | ⟨i, env, c, -, hc, hsection⟩
    · exact hs.calls d hold
    · cases hmakes
    · have hcyc := hs.nonCyclic.calls c (List.mem_of_getElem? hc)
      exact (hsection.unrefused hs.flag hcyc).2 d (After.mem_calls.mpr rfl)

/-- After the probe nothing is refused. -/
theorem probed_unrefused (hasSg : Bool) (ctrlOffset : Nat) (dmacr : BitVec 32) :
    Unrefused (probed hasSg ctrlOffset dmacr : VxdmaSys cfg) := by
  refine ⟨probed_nonCyclic _ _ _, rfl, ?_⟩
  intro d hd
  cases hd

/-! ## The oldest is submitted -/

/-- The prepared descriptors are in the order of preparation, and a submit has an older one. -/
structure OldestFirst (s : VxdmaSys cfg) : Prop where
  sorted : s.prepared.Pairwise fun d e => d.id < e.id
  oldest : ∀ d ∈ s.calls.flatMap Call.submitting, ∀ e ∈ s.unsubmitted, d.id ≤ e.id

/-- With nothing prepared and no call in flight there is nothing to order. -/
theorem OldestFirst.of_nil {s : VxdmaSys cfg} (hprepared : s.prepared = []) (hcalls : s.calls = []) :
    OldestFirst s := by
  constructor
  · rw [hprepared]
    exact List.Pairwise.nil
  · rw [hcalls]
    intro d hd
    cases hd

/-- Calls that submit nothing come and go. -/
theorem OldestFirst.of_same {s s' : VxdmaSys cfg} (hs : OldestFirst s)
    (hprepared : s'.prepared = s.prepared)
    (hcalls : s'.calls.flatMap Call.submitting = s.calls.flatMap Call.submitting) :
    OldestFirst s' := by
  constructor
  · rw [hprepared]
    exact hs.sorted
  · rw [unsubmitted, hprepared, hcalls]
    exact hs.oldest

/-- A section hands on what the call had, or gives its client what it built. -/
theorem Section.handsOn {env : CallEnv} {s t : XilinxDmaChan cfg} {c : Call cfg}
    {after : After cfg} (h : Section env s c t after) :
    (∀ d ∈ after.calls.flatMap Call.submitting, d ∈ c.submitting) ∧
      (after.kept = [] ∨
        ∃ d, after.kept = [d] ∧ after.calls = [] ∧ ∃ b ∈ c.building, d.id = b.id) := by
  cases h with
  | buildDone b d mem hne hbuilt =>
    refine ⟨by simp [After.calls], Or.inr ⟨d, rfl, rfl, b, ?_, hbuilt.id⟩⟩
    exact List.mem_singleton_self b
  | _ => exact ⟨by simp [After.calls, Call.submitting], Or.inl rfl⟩

/-- A client that submits the oldest, one at a time, keeps the order. -/
theorem sectionStep_oldestFirst {s s' : VxdmaSys cfg} {a : Act cfg} (hs : OldestFirst s)
    (hnewest : ∀ b ∈ s.building, ∀ d ∈ s.unsubmitted, d.id < b.id)
    (hsubmit : ∀ i callback, a = .txSubmit i callback → i = 0 ∧ s.NoSubmit)
    (h : s.sectionStep a = some s') : OldestFirst s' := by
  obtain ⟨hbug, hstep⟩ := sectionStep_inv h
  cases hstep with
  | txSubmit i callback d hd =>
    obtain ⟨rfl, hnone⟩ := hsubmit i callback rfl
    obtain ⟨tl, hprepared⟩ : ∃ tl, s.prepared = d :: tl := by
      cases hp : s.prepared with
      | nil =>
        rw [hp] at hd
        cases hd
      | cons e tl =>
        rw [hp] at hd
        cases hd
        exact ⟨tl, rfl⟩
    have hsorted := hs.sorted
    rw [hprepared, List.pairwise_cons] at hsorted
    have hidle : s.calls.flatMap Call.submitting = [] := List.flatMap_eq_nil_iff.mpr hnone
    constructor
    · rw [hprepared]
      exact hsorted.2
    · simp only [enter, unsubmitted, hprepared, List.eraseIdx_cons_zero, List.flatMap_cons,
        Call.submitting, hidle, List.append_nil, List.mem_singleton, List.mem_append]
      rintro e rfl e' (htl | rfl)
      · exact (hsorted.1 e' htl).le
      · exact le_rfl
  | run i env c s' hc hleave =>
    rw [leave_eq hleave]
    obtain ⟨hhands, hkept⟩ := (run_inv env hbug c).handsOn
    have hcmem := List.mem_of_getElem? hc
    have hold : ∀ d ∈ ((c.run env s.chan).2.calls ++ s.calls.eraseIdx i).flatMap Call.submitting,
        d ∈ s.calls.flatMap Call.submitting := by
      intro d hd
      rw [List.flatMap_append] at hd
      rcases List.mem_append.mp hd with hd | hd
      · exact List.mem_flatMap.mpr ⟨c, hcmem, hhands d hd⟩
      · obtain ⟨e, he, hde⟩ := List.mem_flatMap.mp hd
        exact List.mem_flatMap.mpr ⟨e, List.mem_of_mem_eraseIdx he, hde⟩
    rcases hkept with hkept | ⟨d, hkept, -, b, hb, hid⟩
    · rw [hkept, List.append_nil]
      refine ⟨hs.sorted, fun d hd e he => hs.oldest d (hold d hd) e ?_⟩
      rcases List.mem_append.mp he with he | he
      · exact List.mem_append_left _ he
      · exact List.mem_append_right _ (hold e he)
    · -- what was just built is the youngest
      have hyoung : ∀ e ∈ s.unsubmitted, e.id < d.id := by
        intro e he
        rw [hid]
        exact hnewest b (mem_building hcmem hb) e he
      rw [hkept]
      constructor
      · refine List.pairwise_append.mpr ⟨hs.sorted, List.pairwise_singleton _ _, ?_⟩
        intro e he e' he'
        rw [List.mem_singleton.mp he']
        exact hyoung e (List.mem_append_left _ he)
      · intro e he e' he'
        have hmem := hold e he
        rcases List.mem_append.mp he' with he' | he'
        · rcases List.mem_append.mp he' with he' | he'
          · exact hs.oldest e hmem e' (List.mem_append_left _ he')
          · rw [List.mem_singleton.mp he']
            exact (hyoung e (List.mem_append_right _ hmem)).le
        · exact hs.oldest e hmem e' (List.mem_append_right _ (hold e' he'))
  | prepBuild | issuePending | interrupt | terminateAll | freeChanResources =>
    exact hs.of_same rfl rfl
  | _ => exact hs.of_same rfl rfl

/-! ## While a channel is held -/

/-- The channel has its pool, and nobody gives it back. -/
def Allocated (s : VxdmaSys cfg) : Prop :=
  s.chan.segV.isSome = true ∧ ∀ c ∈ s.calls, c.releases = false

/-- Only an allocation begins this, and a release ends it. -/
theorem sectionStep_allocated {s s' : VxdmaSys cfg} {a : Act cfg}
    (ha : ∀ zalloc, a ≠ .allocChanResources zalloc) (h : s.sectionStep a = some s')
    (halloc : s'.Allocated) : s.Allocated ∧ a ≠ .freeChanResources := by
  obtain ⟨hbug, hstep⟩ := sectionStep_inv h
  cases hstep with
  | prepNull _ he =>
    refine ⟨halloc, ?_⟩
    rintro rfl
    cases he
  | prepBuild _ chunks b he =>
    refine ⟨⟨halloc.1, fun c hc => halloc.2 c (List.mem_cons_of_mem _ hc)⟩, ?_⟩
    rintro rfl
    cases he
  | freeChanResources =>
    have hfree := halloc.2 .freeChan List.mem_cons_self
    cases hfree
  | allocChanResources zalloc => exact absurd rfl (ha zalloc)
  | run i env c s' hc hleave =>
    obtain ⟨hpool, hcalls⟩ := halloc
    rw [leave_eq hleave] at hpool hcalls
    have hnone : c.releases = false := by
      have hsection := run_inv env hbug c
      cases c with
      | freeChan =>
        exact hcalls .freeChanInit (List.mem_append_left _ (List.mem_singleton_self _))
      | freeChanInit =>
        exact hcalls .freeChanCoherent (List.mem_append_left _ (List.mem_singleton_self _))
      | freeChanCoherent => cases hpool
      | _ => rfl
    have hne : c ≠ .freeChanCoherent := by
      rintro rfl
      cases hnone
    refine ⟨⟨?_, ?_⟩, by simp⟩
    · rw [← ((run_inv env hbug c).samePool hne).segV]
      exact hpool
    · intro e he
      obtain ⟨hi, rfl⟩ := List.getElem?_eq_some_iff.mp hc
      have hmem := (List.getElem_cons_eraseIdx_perm hi).mem_iff.mpr he
      rcases List.mem_cons.mp hmem with rfl | hrest
      · exact hnone
      · exact hcalls e (List.mem_append_right _ hrest)
  | tasklet =>
    refine ⟨⟨?_, halloc.2⟩, by simp⟩
    rw [← (cleanup_samePool { s.chan with tasklet := false }).segV]
    exact halloc.1
  | callbackReturn =>
    refine ⟨⟨?_, halloc.2⟩, by simp⟩
    rw [← (cleanupResume_samePool s.cleanup s.chan).segV]
    exact halloc.1
  | txSubmit | issuePending | interrupt | terminateAll =>
    exact ⟨⟨halloc.1, fun c hc => halloc.2 c (List.mem_cons_of_mem _ hc)⟩, by simp⟩
  | device => exact ⟨halloc, by simp⟩

/-! ## The account of what is asked for begins with the allocation -/

/-- With nothing in the lists the requests so far can be forgotten. -/
theorem EngineInv.anew {pool : Nat} {s : VxdmaSys cfg} {g : List (Nat × Act cfg)}
    (hs : EngineInv pool s g) (hunstarted : s.unstarted = []) (hstarted : s.started = [])
    (hcalls : s.calls = []) : EngineInv pool s [] := by
  refine ⟨⟨hs.recycling.once, hs.recycling.clean, ⟨List.nodup_nil, ?_⟩, ?_⟩, ⟨?_, ?_, ?_⟩,
    hs.ring, hs.run, hs.pointed, hs.hasSg⟩
  · intro r hr
    cases hr
  · intro cs b hb
    rw [hcalls] at hb
    cases hb
  · intro d hd
    rw [hunstarted] at hd
    cases hd
  · intro d hd
    rw [hstarted] at hd
    cases hd
  · exact hs.carries.phys

/-- The account of the stream is open from an allocation on, with no request in it. -/
theorem alloc_streamInv_anew {ctrlOffset : Nat} {dmacr : BitVec 32} {s s' : VxdmaSys cfg}
    {segP : DmaAddr cfg} {g : List (Nat × Act cfg)}
    (hused : Reachable (withGhost sectionStep VxdmaSys.requests) always
      (probed true ctrlOffset dmacr, []) (s, g))
    (hclean : s.owned = 0) (hcalls : s.calls = [])
    (h : s.sectionStep (.allocChanResources (some segP)) = some s') :
    StreamInv s.chan.pools (submittedIds s'.chan) s' ⟨[], some []⟩ := by
  have hopen := alloc_streamInv hused hclean hcalls h
  rw [owned_eq] at hclean
  simp only [Multiset.coe_add, Multiset.coe_eq_zero, List.append_eq_nil_iff] at hclean
  have hunstarted : s.unstarted = [] := segsOf_eq_nil.mp hclean.2.1
  have hstarted : s.started = [] := segsOf_eq_nil.mp hclean.2.2
  obtain ⟨-, rfl⟩ := sectionStep_allocChanResources h
  have hpending : s.chan.pendingList = [] := (List.append_eq_nil_iff.mp hunstarted).2
  refine ⟨hopen.engine.anew hunstarted hstarted hcalls, [], [], [], ?_, rfl, List.Forall₂.nil,
    by simp, rfl⟩
  change _ = _ ++ ([] ++ s.chan.pendingList.map XilinxDmaTxDescriptor.id)
  rw [hpending]
  simp

end VxdmaSys

/-! ## What a client does to its driver -/

/-- The action of the driver that an operation makes. -/
def ChannelOp.drives (ans : ClientAnswer cfg) (c : ClientSide cfg) :
    ChannelOp → Option (VxdmaSys.Act cfg)
  | .request =>
    if (c.request ans).requested then some (.allocChanResources (some ans.addr)) else none
  | .prep dir len => some (.prepSlaveSg ⟨[⟨c.dmaHandle, len⟩], dir, none, ans.ok⟩)
  | .submit _ =>
    match c.sys.prepared with
    | [] => none
    | _ :: _ => some (.txSubmit 0 (some 0))
  | .issuePending => some .issuePending
  | .release => if c.requested then some .freeChanResources else none
  | .map => none
  | .initCompletion => none
  | .wait => none

/-- What may happen to the driver of a side: the calls of the client, which it makes one after the
other, and what goes on without it. -/
inductive ClientMove (c : ClientSide cfg) : VxdmaSys.Act cfg → Prop
  | request (addr : DmaAddr cfg) : ClientMove c (.allocChanResources (some addr))
  | prep (dir : DmaTransferDirection) (len : BitVec 32) (ok : Bool) (hrest : c.resting = true) :
      ClientMove c (.prepSlaveSg ⟨[⟨c.dmaHandle, len⟩], dir, none, ok⟩)
  | submit (hrest : c.resting = true) : ClientMove c (.txSubmit 0 (some 0))
  | issuePending (hrest : c.resting = true) : ClientMove c .issuePending
  | release : ClientMove c .freeChanResources
  | interrupt : ClientMove c .interrupt
  | run (i : Nat) (env : CallEnv) : ClientMove c (.run i env)
  | tasklet : ClientMove c .tasklet
  | callbackReturn : ClientMove c .callbackReturn
  | device (p : SegPtr) (status : BitVec 32) (app : AppWords) : ClientMove c (.device p status app)

namespace ClientSide

/-- What an operation makes of the driver. -/
theorem run_drives {ans : ClientAnswer cfg} {o : ChannelOp} {c c' : ClientSide cfg}
    (hrest : c.resting = true) (h : c.run ans o = some c') :
    (o.drives ans c = none ∧ c'.sys = c.sys) ∨
      ∃ a, o.drives ans c = some a ∧ ClientMove c a ∧ c.sys.sectionStep a = some c'.sys := by
  cases o with
  | request =>
    obtain rfl : c.request ans = c' := Option.some.inj h
    rcases c.request_cases ans with heq | ⟨sys, hsys, heq⟩
    · left
      rw [ChannelOp.drives, heq]
      exact ⟨rfl, rfl⟩
    · right
      refine ⟨.allocChanResources (some ans.addr), ?_, .request _, ?_⟩
      · rw [ChannelOp.drives, heq]
        rfl
      · rw [heq]
        exact hsys
  | prep dir len =>
    obtain ⟨sys, hsys, rfl⟩ := act_cases h
    exact Or.inr ⟨_, rfl, .prep dir len ans.ok hrest, hsys⟩
  | submit buf =>
    rcases submit_cases h with ⟨hnil, rfl⟩ | ⟨d, ds, sys, hcons, hsys, rfl⟩
    · left
      simp [ChannelOp.drives, hnil]
    · right
      refine ⟨.txSubmit 0 (some 0), ?_, .submit hrest, hsys⟩
      simp [ChannelOp.drives, hcons]
  | issuePending =>
    obtain ⟨sys, hsys, rfl⟩ := act_cases h
    exact Or.inr ⟨_, rfl, .issuePending hrest, hsys⟩
  | release =>
    simp only [ClientSide.run] at h
    split at h
    · rename_i hreq
      obtain ⟨sys, hsys, rfl⟩ := act_cases h
      exact Or.inr ⟨_, if_pos hreq, .release, hsys⟩
    · rename_i hreq
      cases h
      exact Or.inl ⟨if_neg hreq, rfl⟩
  | map | initCompletion | wait =>
    cases h
    exact Or.inl ⟨rfl, rfl⟩

/-- What happens to a side from outside is a move of a client. -/
theorem outside_drives {a : VxdmaSys.Act cfg} {c c' : ClientSide cfg} (h : OutsideStep c a c') :
    ClientMove c a ∧ c.sys.sectionStep a = some c'.sys := by
  cases h with
  | interrupt sys h => exact ⟨.interrupt, h⟩
  | run i env sys h => exact ⟨.run i env, h⟩
  | tasklet sys h => exact ⟨.tasklet, h⟩
  | callbackReturn sys hcalled h => exact ⟨.callbackReturn, h⟩
  | device p status app sys h => exact ⟨.device p status app, h⟩

end ClientSide

namespace ClientSys

/-- The action of the driver of a side that an action of the system makes. -/
def drives (side : DmaSide) (s : ClientSys cfg) : ClientAct cfg → Option (VxdmaSys.Act cfg)
  | .client ans =>
    match s.prog with
    | .op (.on at' o) _ => if at' = side then o.drives ans (s.side side) else none
    | _ => none
  | .channel at' a => if at' = side then some a else none
  | .ioctl => none
  | .callback _ => none

/-- **The system seen from one driver.** An action leaves it alone, or it is an action of it. -/
theorem clientStep_drives {test : ClientProg} {s s' : ClientSys cfg} {a : ClientAct cfg}
    (side : DmaSide) (h : clientStep test s a = some s') :
    (s.drives side a = none ∧ (s'.side side).sys = (s.side side).sys) ∨
      ∃ act, s.drives side a = some act ∧ ClientMove (s.side side) act ∧
        (s.side side).sys.sectionStep act = some (s'.side side).sys := by
  obtain ⟨-, hstep⟩ := clientStep_inv h
  cases hstep with
  | ioctl => exact Or.inl ⟨rfl, rfl⟩
  | check ans c failed next hrest hprog =>
    left
    simp [drives, hprog]
  | on ans at' o next c hrest hprog hrun =>
    by_cases hside : at' = side
    · subst hside
      have hdrives : s.drives at' (.client ans) = o.drives ans (s.side at') := by
        simp [drives, hprog]
      rw [hdrives, setSide_side]
      exact ClientSide.run_drives (resting_iff.mp hrest at') hrun
    · left
      rw [setSide_side_of_ne _ c (Ne.symm hside)]
      simp [drives, hprog, hside]
  | buffer ans o next hrest hprog ho =>
    left
    cases o with
    | on at' o => exact absurd rfl (ho at' o)
    | _ => simp [drives, hprog]
  | channel at' a c hout =>
    by_cases hside : at' = side
    · subst hside
      obtain ⟨hmove, hsection⟩ := ClientSide.outside_drives hout
      right
      refine ⟨a, by simp [drives], hmove, ?_⟩
      rw [setSide_side]
      exact hsection
    · left
      rw [setSide_side_of_ne _ c (Ne.symm hside)]
      simp [drives, hside]
  | callback at' c hc =>
    left
    refine ⟨rfl, ?_⟩
    by_cases hside : at' = side
    · subst hside
      obtain ⟨d, -, -, rfl⟩ := ClientSide.axidmaSyncCallback_cases hc
      rw [setSide_side]
    · rw [setSide_side_of_ne _ c (Ne.symm hside)]

end ClientSys

/-! ## The discipline of a client -/

/-- The reset that the section makes, if it makes one, succeeds. -/
def Call.resetsWell (env : CallEnv) : Call cfg → Bool
  | .submitReset _ => env.reset.ok
  | _ => true

namespace VxdmaSys

/-- While a builder is at work only it and the engine do anything, resets succeed, and a channel is
allocated when nothing of its earlier use is left. -/
def Undisturbed (s : VxdmaSys cfg) : Act cfg → Prop
  | .allocChanResources _ => s.owned = 0 ∧ s.calls = []
  | .run i env => ∀ c ∈ s.calls[i]?,
      (s.building ≠ [] → c.building ≠ []) ∧ c.resetsWell env = true
  | .interrupt => s.building = []
  | .tasklet => s.building = []
  | .callbackReturn => s.building = []
  | _ => True

instance (s : VxdmaSys cfg) : (a : Act cfg) → Decidable (s.Undisturbed a)
  | .allocChanResources _ => inferInstanceAs (Decidable (s.owned = 0 ∧ s.calls = []))
  | .run i env => inferInstanceAs (Decidable (∀ c ∈ s.calls[i]?,
      (s.building ≠ [] → c.building ≠ []) ∧ c.resetsWell env = true))
  | .interrupt => inferInstanceAs (Decidable (s.building = []))
  | .tasklet => inferInstanceAs (Decidable (s.building = []))
  | .callbackReturn => inferInstanceAs (Decidable (s.building = []))
  | .prepSlaveSg _ => isTrue trivial
  | .prepDmaCyclic _ => isTrue trivial
  | .txSubmit _ _ => isTrue trivial
  | .issuePending => isTrue trivial
  | .terminateAll => isTrue trivial
  | .freeChanResources => isTrue trivial
  | .device _ _ _ => isTrue trivial

end VxdmaSys

/-- While a client rests, nothing is being built. -/
theorem ClientSide.building_of_resting {c : ClientSide cfg} (h : c.resting = true) :
    c.sys.building = [] := by
  refine List.flatMap_eq_nil_iff.mpr fun call hcall => ?_
  have hirq := ClientSide.resting_iff.mp h call hcall
  cases call <;> first | rfl | cases hirq

/-- **A client keeps the discipline by itself**: it neither terminates nor submits out of turn, and
is not refused. -/
theorem ClientMove.ringGuard {c : ClientSide cfg} {a : VxdmaSys.Act cfg} (h : ClientMove c a)
    (hopen : VxdmaSys.Unrefused c.sys) (hold : VxdmaSys.OldestFirst c.sys)
    (hok : c.sys.Undisturbed a) (halloc : ∀ zalloc, a ≠ .allocChanResources zalloc)
    (hfree : a ≠ .freeChanResources) : c.sys.RingGuard a := by
  cases h with
  | request addr => exact absurd rfl (halloc _)
  | release => exact absurd rfl hfree
  | prep dir len ok hrest => exact ClientSide.building_of_resting hrest
  | submit hrest => exact ClientSide.building_of_resting hrest
  | issuePending hrest => exact ClientSide.building_of_resting hrest
  | run i env =>
    intro call hcall
    obtain ⟨hbuilds, hreset⟩ := hok call hcall
    refine ⟨hbuilds, ?_⟩
    have hmem : call ∈ c.sys.calls := List.mem_of_getElem? hcall
    cases call with
    | submitRefused d => exact hopen.calls d hmem
    | submitReset d => exact hreset
    | submitLock d =>
      apply hold.oldest
      exact List.mem_flatMap.mpr ⟨_, hmem, List.mem_singleton_self d⟩
    | _ => trivial
  | interrupt => exact hok
  | tasklet => exact hok
  | callbackReturn => exact hok
  | device => trivial

/-! ## The account of a side -/

/-- What is recorded of a side since its channel was allocated: the pool, what was accepted before,
and what was asked for and fetched since. -/
structure Session (cfg : PhysAddrConfig) where
  pool : Nat
  base : List Nat
  seen : VxdmaSys.Seen cfg

/-- Nothing is recorded. -/
def Session.none : Session cfg := ⟨0, [], ⟨[], some []⟩⟩

/-- The record after an action of the driver. -/
def Session.after (w : Session cfg) (s : VxdmaSys cfg) (a : VxdmaSys.Act cfg)
    (s' : VxdmaSys cfg) : Session cfg :=
  match a with
  | .allocChanResources _ => ⟨s.chan.pools, submittedIds s'.chan, ⟨[], some []⟩⟩
  | _ => { w with seen := VxdmaSys.seen w.pool w.seen s a s' }

/-- The request is for one transfer of this buffer. -/
def VxdmaSys.Act.HandsOver (buf : ScatterEntry cfg) (a : VxdmaSys.Act cfg) : Prop :=
  ∃ dir ok, a = .prepSlaveSg ⟨[buf], dir, Option.none, ok⟩

/-- The descriptor of this name was asked for, for this buffer. -/
def HandedOver (g : List (Nat × VxdmaSys.Act cfg)) (id : Nat) (buf : ScatterEntry cfg) : Prop :=
  ∃ a, a.HandsOver buf ∧ VxdmaSys.AskedBy g id a

/-- The bytes of the request are those of the buffer. -/
theorem VxdmaSys.Act.HandsOver.bytes {buf : ScatterEntry cfg} {a : VxdmaSys.Act cfg}
    (h : a.HandsOver buf) : a.bytes = buf.bytes := by
  obtain ⟨dir, ok, rfl⟩ := h
  simp [VxdmaSys.Act.bytes]

/-- The request is not cyclic. -/
theorem VxdmaSys.Act.HandsOver.wholePeriods {buf : ScatterEntry cfg} {a : VxdmaSys.Act cfg}
    (h : a.HandsOver buf) : a.WholePeriods := by
  obtain ⟨dir, ok, rfl⟩ := h
  trivial

/-- When all requests are for one buffer each, what was asked for are these buffers. -/
theorem exists_handedOver {g : List (Nat × VxdmaSys.Act cfg)} {ids : List Nat}
    {reqs : List (VxdmaSys.Act cfg)} (hform : ∀ r ∈ g, ∃ buf, r.2.HandsOver buf)
    (h : VxdmaSys.AllAskedBy g ids reqs) :
    ∃ bufs, List.Forall₂ (HandedOver g) ids bufs ∧
      reqs.flatMap VxdmaSys.Act.bytes = bufs.flatMap ScatterEntry.bytes := by
  induction h with
  | nil => exact ⟨[], List.Forall₂.nil, rfl⟩
  | cons hask hrest ih =>
    obtain ⟨bufs, hbufs, hbytes⟩ := ih
    obtain ⟨buf, hbuf⟩ := hform _ hask.1
    refine ⟨buf :: bufs, List.Forall₂.cons ⟨_, hbuf, hask⟩ hbufs, ?_⟩
    rw [List.flatMap_cons, List.flatMap_cons, hbuf.bytes, hbytes]

/-- What holds of the driver of a side, and while the channel is held of the account. -/
structure SessionInv (ctrlOffset : Nat) (dmacr : BitVec 32) (s : VxdmaSys cfg)
    (w : Session cfg) : Prop where
  history : ∃ g, Reachable (withGhost VxdmaSys.sectionStep VxdmaSys.requests) always
    (VxdmaSys.probed true ctrlOffset dmacr, []) (s, g)
  unrefused : VxdmaSys.Unrefused s
  oldest : s.Allocated → VxdmaSys.OldestFirst s
  stream : s.Allocated → VxdmaSys.StreamInv w.pool w.base s w.seen
  asked : s.Allocated → ∀ r ∈ w.seen.requests, ∃ buf, r.2.HandsOver buf

/-- **One action keeps the account of a side.** -/
theorem SessionInv.move {ctrlOffset : Nat} {dmacr : BitVec 32} {c : ClientSide cfg}
    {s' : VxdmaSys cfg} {a : VxdmaSys.Act cfg} {w : Session cfg}
    (hs : SessionInv ctrlOffset dmacr c.sys w) (hmove : ClientMove c a)
    (hok : c.sys.Undisturbed a) (h : c.sys.sectionStep a = some s') :
    SessionInv ctrlOffset dmacr s' (w.after c.sys a s') := by
  obtain ⟨g, hg⟩ := hs.history
  have hhistory : ∃ g, Reachable (withGhost VxdmaSys.sectionStep VxdmaSys.requests) always
      (VxdmaSys.probed true ctrlOffset dmacr, []) (s', g) :=
    ⟨_, hg.tail a trivial (withGhost_eq_some.mpr ⟨h, rfl⟩)⟩
  have hcyclic : ∀ args, a ≠ .prepDmaCyclic args := by
    rintro args rfl
    cases hmove
  have hunrefused := VxdmaSys.sectionStep_unrefused hs.unrefused hcyclic h
  by_cases halloc : ∃ zalloc, a = .allocChanResources zalloc
  · -- a new account begins
    obtain ⟨zalloc, rfl⟩ := halloc
    cases hmove with
    | request addr =>
      have hopen := VxdmaSys.alloc_streamInv_anew hg hok.1 hok.2 h
      have hclean := hok.1
      rw [VxdmaSys.owned_eq] at hclean
      simp only [Multiset.coe_add, Multiset.coe_eq_zero, List.append_eq_nil_iff] at hclean
      have hunstarted := segsOf_eq_nil.mp hclean.2.1
      obtain ⟨-, heq⟩ := VxdmaSys.sectionStep_allocChanResources h
      refine ⟨hhistory, hunrefused, fun _ => ?_, fun _ => hopen, fun _ r hr => ?_⟩
      · rw [heq]
        have hprepared := (List.append_eq_nil_iff.mp (List.append_eq_nil_iff.mp hunstarted).1).1
        exact .of_nil hprepared hok.2
      · cases hr
  · have hnew : ∀ zalloc, a ≠ .allocChanResources zalloc := fun zalloc heq => halloc ⟨zalloc, heq⟩
    have hafter : w.after c.sys a s' = { w with seen := VxdmaSys.seen w.pool w.seen c.sys a s' } := by
      cases a with
      | allocChanResources zalloc => exact absurd rfl (hnew zalloc)
      | _ => rfl
    rw [hafter]
    refine ⟨hhistory, hunrefused, ?_, ?_, ?_⟩
    · intro hheld
      obtain ⟨hheld, hfree⟩ := VxdmaSys.sectionStep_allocated hnew h hheld
      have hstream := hs.stream hheld
      obtain ⟨last, hring⟩ := hstream.engine.ring
      refine VxdmaSys.sectionStep_oldestFirst (hs.oldest hheld) hring.calls.newest ?_ h
      rintro i callback rfl
      cases hmove with
      | submit hrest => exact ⟨rfl, ClientSide.noSubmit_of_resting hrest⟩
    · intro hheld
      obtain ⟨hheld, hfree⟩ := VxdmaSys.sectionStep_allocated hnew h hheld
      have hguard := hmove.ringGuard hs.unrefused (hs.oldest hheld) hok hnew hfree
      exact VxdmaSys.sectionStep_streamInv (hs.stream hheld) hguard h
    · intro hheld r hr
      obtain ⟨hheld, -⟩ := VxdmaSys.sectionStep_allocated hnew h hheld
      change r ∈ VxdmaSys.requests w.seen.requests c.sys a s' at hr
      unfold VxdmaSys.requests at hr
      split at hr
      · rcases List.mem_append.mp hr with hold | hlast
        · exact hs.asked hheld r hold
        · rw [List.mem_singleton.mp hlast]
          rename_i hentry
          cases hmove with
          | prep dir len ok hrest => exact ⟨_, dir, ok, rfl⟩
          | _ => cases hentry
      · exact hs.asked hheld r hr

/-- After the probe no session has begun. -/
theorem probed_sessionInv (ctrlOffset : Nat) (dmacr : BitVec 32) :
    SessionInv ctrlOffset dmacr (VxdmaSys.probed true ctrlOffset dmacr : VxdmaSys cfg) .none := by
  have hnot : ¬ (VxdmaSys.probed true ctrlOffset dmacr : VxdmaSys cfg).Allocated := by
    rintro ⟨hpool, -⟩
    cases hpool
  exact ⟨⟨[], Reachable.refl _ _ _⟩, VxdmaSys.probed_unrefused _ _ _, fun h => absurd h hnot,
    fun h => absurd h hnot, fun h => absurd h hnot⟩

/-! ## Runs of the system -/

namespace ClientSys

/-- The record of a side after an action of the system. -/
def session (side : DmaSide) (w : Session cfg) (s : ClientSys cfg) (a : ClientAct cfg)
    (s' : ClientSys cfg) : Session cfg :=
  match s.drives side a with
  | none => w
  | some act => w.after (s.side side).sys act (s'.side side).sys

/-- Nothing disturbs the driver of a side. -/
def Undisturbed (side : DmaSide) (s : ClientSys cfg) (a : ClientAct cfg) : Prop :=
  ∀ act ∈ s.drives side a, (s.side side).sys.Undisturbed act

instance (side : DmaSide) (s : ClientSys cfg) (a : ClientAct cfg) :
    Decidable (s.Undisturbed side a) :=
  inferInstanceAs (Decidable (∀ act ∈ s.drives side a, (s.side side).sys.Undisturbed act))

/-- Every undisturbed step keeps the session in order. -/
theorem clientStep_sessionInv {test : ClientProg} {side : DmaSide} {ctrlOffset : Nat}
    {dmacr : BitVec 32} {s s' : ClientSys cfg} {a : ClientAct cfg} {w : Session cfg}
    (hs : SessionInv ctrlOffset dmacr (s.side side).sys w) (hok : s.Undisturbed side a)
    (h : clientStep test s a = some s') :
    SessionInv ctrlOffset dmacr (s'.side side).sys (session side w s a s') := by
  rcases clientStep_drives side h with ⟨hnone, hsys⟩ | ⟨act, hsome, hmove, hsection⟩
  · rw [hsys, session, hnone]
    exact hs
  · rw [session, hsome]
    exact hs.move hmove (hok act hsome) hsection

/-- Every undisturbed run keeps the session in order. -/
theorem sessionInv_of_reachable {test : ClientProg} {side : DmaSide} {hasSg : DmaSide → Bool}
    {ctrlOffset : DmaSide → Nat} {dmacr : DmaSide → BitVec 32} {s : ClientSys cfg}
    {w : Session cfg} (hsg : hasSg side = true)
    (h : Reachable (withGhost (clientStep test) (session side))
      (fun sw a => sw.1.Undisturbed side a) (probed hasSg ctrlOffset dmacr, .none) (s, w)) :
    SessionInv (ctrlOffset side) (dmacr side) (s.side side).sys w := by
  have hstart : SessionInv (ctrlOffset side) (dmacr side)
      ((probed hasSg ctrlOffset dmacr : ClientSys cfg).side side).sys .none := by
    have hprobed : SessionInv (ctrlOffset side) (dmacr side)
        (VxdmaSys.probed true (ctrlOffset side) (dmacr side) : VxdmaSys cfg) .none :=
      probed_sessionInv _ _
    rw [← hsg] at hprobed
    exact hprobed
  let Inv : ClientSys cfg → Session cfg → Prop := fun s w =>
    SessionInv (ctrlOffset side) (dmacr side) (s.side side).sys w
  have hinv : Inv s w :=
    h.ghost_invariant hstart fun _ _ _ _ hs hok hstep => clientStep_sessionInv hs hok hstep
  exact hinv

/-- **A client gets the engine to go through its buffers.** In every run of a client of two probed
channels, whatever test it runs how often: on a side in scatter-gather mode whose builders are
undisturbed, whose resets succeed and whose channel is allocated clean, while the channel is held,
the addresses that the engine was sent through, byte for byte, and then those of what waits, are the
buffers for which a submit of the client was accepted since the allocation, in that order. -/
theorem client_stream {test : ClientProg} {side : DmaSide} {hasSg : DmaSide → Bool}
    {ctrlOffset : DmaSide → Nat} {dmacr : DmaSide → BitVec 32} {s : ClientSys cfg}
    {w : Session cfg} (hsg : hasSg side = true)
    (h : Reachable (withGhost (clientStep test) (session side))
      (fun sw a => sw.1.Undisturbed side a) (probed hasSg ctrlOffset dmacr, .none) (s, w))
    (hheld : (s.side side).sys.Allocated) :
    ∃ ids bufs ws, submittedIds (s.side side).sys.chan = w.base ++ ids ∧
      List.Forall₂ (HandedOver w.seen.requests) ids bufs ∧ w.seen.fetched = some ws ∧
      ws.flatMap (XilinxDmaDescHw.bytes cfg) ++
        (s.side side).sys.chan.pendingList.flatMap (VxdmaSys.descBytes (s.side side).sys.chan) =
          bufs.flatMap ScatterEntry.bytes := by
  have hinv := sessionInv_of_reachable hsg h
  have hwhole : ∀ r ∈ w.seen.requests, r.2.WholePeriods := by
    intro r hr
    obtain ⟨buf, hbuf⟩ := hinv.asked hheld r hr
    exact hbuf.wholePeriods
  obtain ⟨ids, reqs, ws, hids, hasked, hfetched, hbytes⟩ := (hinv.stream hheld).bytes hwhole
  obtain ⟨bufs, hbufs, heq⟩ := exists_handedOver (hinv.asked hheld) hasked
  exact ⟨ids, bufs, ws, hids, hbufs, hfetched, hbytes.trans heq⟩

/-- `xhls_test` loads its first input, waits for it, and gets its second one accepted. -/
def bothInputs : List (ClientAct .addr32) :=
  [.ioctl] ++ clientSteps 4 ++ [.client ⟨true, 4096⟩] ++ prepSteps .tx ++ clientSteps 1 ++
  startSteps .tx ++ irqSteps .tx ++ [.channel .tx .tasklet] ++ callbackSteps .tx ++
  clientSteps 2 ++ [.client ⟨true, 8192⟩] ++ prepSteps .tx

/-- The matrix test hands over both inputs. -/
theorem client_stream_bothInputs :
    ∃ s w, exec (withGhost (clientStep xhlsTest) (session .tx)) (sgProbed, .none) bothInputs =
        some (s, w) ∧
      submittedIds (s.side .tx).sys.chan = [0, 1] ∧
      ∃ ids bufs ws, submittedIds (s.side .tx).sys.chan = w.base ++ ids ∧
        List.Forall₂ (HandedOver w.seen.requests) ids bufs ∧ w.seen.fetched = some ws ∧
        ws.flatMap (XilinxDmaDescHw.bytes .addr32) ++
          (s.side .tx).sys.chan.pendingList.flatMap (VxdmaSys.descBytes (s.side .tx).sys.chan) =
            bufs.flatMap ScatterEntry.bytes := by
  have hexec : (exec (withGhost (clientStep xhlsTest) (session .tx)) (sgProbed, .none)
      bothInputs).map (fun sw => (submittedIds (sw.1.side .tx).sys.chan,
        (sw.1.side .tx).sys.chan.segV.isSome, (sw.1.side .tx).sys.calls.length)) =
      some ([0, 1], true, 0) := by
    decide +kernel
  obtain ⟨⟨s, w⟩, hs, hends⟩ := Option.map_eq_some_iff.mp hexec
  obtain ⟨hids, hrest⟩ := Prod.mk.inj hends
  obtain ⟨hpool, hnone⟩ := Prod.mk.inj hrest
  have hrun : Reachable (withGhost (clientStep xhlsTest) (session .tx))
      (fun sw a => sw.1.Undisturbed .tx a) (sgProbed, .none) (s, w) :=
    Reachable.of_exec (by decide +kernel) hs
  have hheld : (s.side .tx).sys.Allocated := by
    refine ⟨hpool, fun c hc => ?_⟩
    rw [List.length_eq_zero_iff.mp hnone] at hc
    cases hc
  exact ⟨s, w, hs, hids, client_stream rfl hrun hheld⟩

end ClientSys

end PetalinuxDriver
