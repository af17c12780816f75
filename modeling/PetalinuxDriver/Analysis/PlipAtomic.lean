import PetalinuxDriver.Library.CommitPoints
import PetalinuxDriver.Analysis.PlipDispatch

/-!
# Requests to the IP cores are atomic

`plipdev_ioctl` takes no lock: it follows the links of the list, looks at the callback and runs it
while other requests do the same and while devices come and go. `PlipStore` is what a caller may
take it for, a store of registers that serves one request at a time. A request is served when its
callback runs, or when it is found that nothing can be run for it (`PlipCall.commits`), and with
`ioctls_atomic` every run is one of the store: each request is answered with what `plipdev_ioctl`
alone would say of the devices that are registered at that point, and reads and writes the registers
in the order of these points. What it takes is that no device is taken out while a request looks at
it, and that no device is registered without registers.
-/

set_option autoImplicit false

namespace PetalinuxDriver

open Library

variable {cfg : PhysAddrConfig}

/-! ## The store -/

/-- The registered devices, in the order of the list, and their registers. -/
structure PlipStore (cfg : PhysAddrConfig) where
  devs : List (PlipcoreDev cfg)
  io : Io cfg

/-- The store serves a request and answers it, gets other devices, or the hardware changes its
registers. -/
inductive PlipEvent (cfg : PhysAddrConfig) where
  | ioctl (req : PlipRequest) (answer : PlipAnswer)
  | devices (devs : List (PlipcoreDev cfg))
  | hardware (mem : ByteMem cfg.width)

/-- One event. A request has the answer of `plipdev_ioctl`. -/
def PlipStore.serve (t : PlipStore cfg) : PlipEvent cfg → Option (PlipStore cfg)
  | .ioctl req answer =>
    let r := plipdevIoctl t.devs req t.io
    if r.1 = answer then some { t with io := r.2 } else none
  | .devices devs => some { t with devs := devs }
  | .hardware mem => some { t with io := { t.io with mem := mem } }

/-- The steps of initialisation and of the kernel with a platform device. -/
def PlipAct.forDevices : PlipAct cfg → Bool
  | .init _ | .probe _ | .remove _ | .work _ => true
  | .ioctl _ | .request _ | .hardware _ => false

/-- A request with its answer. -/
def PlipEvent.answer : PlipEvent cfg → Option (PlipRequest × PlipAnswer)
  | .ioctl req answer => some (req, answer)
  | _ => none

/-! ## Commit points -/

/-- What a request that has read its register will answer. -/
def PlipCall.decided (c : PlipCall) : Option PlipAnswer :=
  match c.pc with
  | .copyBack value =>
    some (if c.req.copyToUserOk then (value.toInt, { c.req.iocReg with value := value })
      else (-efault, c.req.iocReg))
  | _ => none

/-- The calls that have been served, with their answers. -/
def served (calls : List PlipCall) : Multiset (PlipRequest × PlipAnswer) :=
  ↑(calls.filterMap fun c => c.decided.map (c.req, ·))

/-- A call has its request and its answer once it is decided. -/
theorem served_cons (c : PlipCall) (calls : List PlipCall) :
    served (c :: calls) = ↑(c.decided.map (c.req, ·)).toList + served calls := by
  unfold served
  rw [List.filterMap_cons]
  cases c.decided <;> rfl

/-- Which call is looked at first does not matter. -/
theorem served_eraseIdx {calls : List PlipCall} {i : Nat} {c : PlipCall}
    (hc : calls[i]? = some c) : served calls = served (c :: calls.eraseIdx i) := by
  obtain ⟨hi, rfl⟩ := List.getElem?_eq_some_iff.mp hc
  exact Multiset.coe_eq_coe.mpr ((List.getElem_cons_eraseIdx_perm hi).symm.filterMap _)

/-- What is known of the answer after a step. -/
def PlipAfter.answer : PlipAfter → Option PlipAnswer
  | .goesOn c => c.decided
  | .returns answer => some answer
  | .wild => none

/-- The answer that the next step of a request decides. -/
def PlipCall.commits (s : PlipSys cfg) (c : PlipCall) : Option PlipAnswer :=
  match c.decided with
  | some _ => none
  | none => (c.run s).2.answer

/-- What the next step of a request returns. -/
def PlipAfter.returned : PlipAfter → Option PlipAnswer
  | .returns answer => some answer
  | _ => none

namespace PlipSys

/-- The store behind the list. -/
def view (s : PlipSys cfg) : PlipStore cfg := ⟨s.plipDevList.map s.dev, s.io⟩

/-- The requests that have been served and not returned. -/
def pending (s : PlipSys cfg) : Multiset (PlipRequest × PlipAnswer) := served s.calls

/-- What a step is to the store. -/
def events (s : PlipSys cfg) (a : PlipAct cfg) (s' : PlipSys cfg) : List (PlipEvent cfg) :=
  match a with
  | .request i =>
    match s.calls[i]? with
    | some c => ((c.commits s).map (PlipEvent.ioctl c.req)).toList
    | none => []
  | .ioctl _ => []
  | .hardware mem => [.hardware mem]
  | .init _ | .probe _ | .remove _ | .work _ => [.devices s'.view.devs]

/-- What a step returns to a caller. -/
def returns (s : PlipSys cfg) : PlipAct cfg → List (PlipRequest × PlipAnswer)
  | .request i =>
    match s.calls[i]? with
    | some c => ((c.run s).2.returned.map (c.req, ·)).toList
    | none => []
  | _ => []

/-- A device is added to an initialised list with its registers mapped, and taken out while no
request looks at it. -/
def WorkInOrder (s : PlipSys cfg) : PlipAct cfg → Prop
  | .work _ => s.WorkOrderly s.work
  | _ => True

instance (s : PlipSys cfg) : ∀ a, Decidable (s.WorkInOrder a)
  | .work _ => inferInstanceAs (Decidable (s.WorkOrderly s.work))
  | .init _ | .probe _ | .remove _ | .ioctl _ | .request _ | .hardware _ => isTrue trivial

/-! ## What is known in between -/

/-- A request that is about to run a callback has found it set. -/
def CallbackSet (s : PlipSys cfg) (c : PlipCall) : Prop :=
  ∀ d, c.pc = .call d → c.req.callback (s.dev d) = true

/-- The list is in order, and the callbacks that are about to run are set. -/
structure StoreInv (s : PlipSys cfg) : Prop where
  list : s.ListInv
  callbacks : ∀ c ∈ s.calls, s.CallbackSet c

section Calls

variable {s s' : PlipSys cfg} {c c' : PlipCall} {d : Nat}

/-- In a list that grows, the earliest device is the one that is found. -/
theorem find_of_earliest {dev : Nat → PlipcoreDev cfg} {id : Int} {l : List Nat}
    (hsorted : l.Pairwise (· < ·)) (hd : d ∈ l) (hid : (dev d).id = id)
    (hfirst : ∀ e ∈ l, (dev e).id = id → d ≤ e) :
    ipcoreFindDevice (l.map dev) id = some (dev d) := by
  induction l with
  | nil => cases hd
  | cons x rest ih =>
    obtain ⟨hx, hrest⟩ := List.pairwise_cons.mp hsorted
    by_cases hxid : (dev x).id = id
    · have hle : d ≤ x := hfirst x List.mem_cons_self hxid
      have hxd : x = d := by
        rcases List.mem_cons.mp hd with rfl | hin
        · rfl
        · have hlt := hx d hin
          omega
      subst hxd
      simp [ipcoreFindDevice, hid]
    · have hin : d ∈ rest := by
        rcases List.mem_cons.mp hd with rfl | hin
        · exact absurd hid hxid
        · exact hin
      have hfind := ih hrest hin fun e he => hfirst e (List.mem_cons_of_mem x he)
      simpa [ipcoreFindDevice, hxid] using hfind

/-- Without a device of the id the search finds nothing. -/
theorem find_of_noneWith {id : Int} (h : s.NoneWith id) :
    ipcoreFindDevice (s.plipDevList.map s.dev) id = none := by
  unfold ipcoreFindDevice
  rw [List.find?_eq_none]
  intro dev hdev
  obtain ⟨e, he, rfl⟩ := List.mem_map.mp hdev
  simpa using h e he

/-- The search finds the earliest device with the id. -/
theorem StoreInv.find (h : s.StoreInv) {id : Int} (hd : s.Earliest id d) :
    ipcoreFindDevice s.view.devs id = some (s.dev d) :=
  find_of_earliest h.list.sorted hd.1 hd.2.1 hd.2.2

/-- A call keeps its request. -/
theorem req_run (h : (c.run s).2 = .goesOn c') : c'.req = c.req := by
  cases hpc : c.pc <;> simp only [PlipCall.run, hpc] at h
  case start =>
    split at h
    · split at h
      · cases h
      · split at h <;> cases h
        rfl
    · cases h
  case find =>
    split at h
    · cases h
    · split at h
      · cases h
        rfl
      · split at h
        · split at h <;> cases h
          rfl
        · cases h
  case check =>
    split at h
    · cases h
    · split at h <;> cases h
      rfl
  case call =>
    split at h
    · cases h
    · split at h <;> cases h
      rfl
  case copyBack => split at h <;> cases h

/-- A request for a callback that is not set. -/
theorem plipdevIoctl_unset {devs : List (PlipcoreDev cfg)} {r : PlipRequest}
    {dev : PlipcoreDev cfg} (io : Io cfg) (hreg : r.forRegister = true)
    (hfind : ipcoreFindDevice devs r.id = some dev) (hset : r.callback dev = false) :
    plipdevIoctl devs r io = ((-1, r.iocReg), io) := by
  unfold plipdevIoctl
  rw [hfind]
  by_cases hread : r.cmd = rruIocRegRead
  · rw [PlipRequest.callback, if_pos hread] at hset
    simp [hread, hset]
  · have hwrite : r.cmd = rruIocRegWrite := by
      simpa [PlipRequest.forRegister, hread] using hreg
    rw [PlipRequest.callback, if_neg hread] at hset
    simp [hwrite, hset]

/-- A request that was served returns its answer and does nothing else. -/
theorem run_decided {answer : PlipAnswer} (h : c.decided = some answer) :
    c.run s = (s.io, .returns answer) := by
  cases hpc : c.pc with
  | copyBack value =>
    simp only [PlipCall.decided, hpc, Option.some.injEq] at h
    subst h
    simp only [PlipCall.run, hpc]
    split <;> rfl
  | start | find | check | call => simp [PlipCall.decided, hpc] at h

/-- **A request is served in one step**: what it does and what it will answer is what
`plipdev_ioctl` alone does and answers. -/
theorem run_commits (hinv : s.StoreInv) (hc : c ∈ s.calls) {answer : PlipAnswer}
    (h : c.commits s = some answer) :
    plipdevIoctl s.view.devs c.req s.io = (answer, (c.run s).1) := by
  have hknown := hinv.list.calls c hc
  cases hpc : c.pc with
  | start =>
    simp only [PlipCall.commits, PlipCall.decided, PlipCall.run, hpc] at h ⊢
    split at h
    · rename_i hcmd
      have hreg : c.req.forRegister = true := by simpa [PlipRequest.forRegister] using hcmd
      split at h
      · cases h
      · rename_i hready
        split at h
        · rename_i hhead
          cases h
          have hnone : ipcoreFindDevice s.view.devs c.req.id = none := by
            rw [view, List.head?_eq_none_iff.mp hhead]
            rfl
          rw [plipdevIoctl_none s.io hreg hnone, if_pos hcmd, if_neg hready]
        · cases h
    · rename_i hcmd
      cases h
      obtain ⟨hread, hwrite⟩ := not_or.mp hcmd
      simp [plipdevIoctl, hread, hwrite]
  | find d =>
    have hreg : c.req.forRegister = true := hinv.list.registers c hc (by simp [hpc])
    have hright := (request_right hinv.list hknown (by simp [CallOrderly, hpc])).2
    simp only [CallInv, hpc] at hknown
    have hlive : s.freed d = false := hinv.list.live d hknown.1
    simp only [PlipCall.run, hpc, hlive, Bool.false_eq_true, if_false] at hright
    simp only [PlipCall.commits, PlipCall.decided, PlipCall.run, hpc, hlive, Bool.false_eq_true,
      if_false] at h ⊢
    split at h
    · cases h
    · rename_i hid
      rw [if_neg hid] at hright ⊢
      rw [if_pos hknown.1] at h hright ⊢
      split at h
      · rename_i hnext
        cases h
        rw [hnext] at hright
        have hnone := find_of_noneWith ((hright hreg).2 rfl)
        rw [view, plipdevIoctl_none s.io hreg hnone]
      · cases h
  | check d =>
    have hreg : c.req.forRegister = true := hinv.list.registers c hc (by simp [hpc])
    simp only [CallInv, hpc] at hknown
    have hlive : s.freed d = false := hinv.list.live d hknown.1
    have hfind := hinv.find hknown
    simp only [PlipCall.commits, PlipCall.decided, PlipCall.run, hpc, hlive, Bool.false_eq_true,
      if_false] at h ⊢
    split at h
    · cases h
    · rename_i hset
      cases h
      rw [if_neg hset, plipdevIoctl_unset s.io hreg hfind (by simpa using hset)]
  | call d =>
    have hreg : c.req.forRegister = true := hinv.list.registers c hc (by simp [hpc])
    simp only [CallInv, hpc] at hknown
    have hlive : s.freed d = false := hinv.list.live d hknown.1
    have hmapped : isErr (s.dev d).data = false := hinv.list.mapped d hknown.1
    have hfind := hinv.find hknown
    have hset := hinv.callbacks c hc d hpc
    simp only [PlipCall.commits, PlipCall.decided, PlipCall.run, hpc, hlive, hmapped,
      Bool.false_eq_true, or_self, if_false] at h ⊢
    by_cases hread : c.req.cmd = rruIocRegRead
    · simp only [PlipRequest.callback, if_pos hread] at hset
      rw [if_pos hread] at h ⊢
      cases h
      unfold plipdevIoctl
      rw [if_pos hread, hfind]
      simp only [hset, Bool.not_true, Bool.false_eq_true, if_false]
      split <;> rfl
    · have hwrite : c.req.cmd = rruIocRegWrite := by
        simpa [PlipRequest.forRegister, hread] using hreg
      simp only [PlipRequest.callback, if_neg hread] at hset
      rw [if_neg hread] at h ⊢
      cases h
      unfold plipdevIoctl
      rw [if_neg hread, if_pos hwrite, hfind]
      simp only [hset, Bool.not_true, Bool.false_eq_true, if_false]
  | copyBack value => simp [PlipCall.commits, PlipCall.decided, hpc] at h

/-- The other steps leave the registers alone. -/
theorem run_silent (h : c.commits s = none) : (c.run s).1 = s.io := by
  cases hdecided : c.decided with
  | some answer => rw [run_decided hdecided]
  | none =>
    simp only [PlipCall.commits, hdecided] at h
    cases hpc : c.pc <;> simp only [PlipCall.run, hpc] at h ⊢
    case start =>
      split
      · split
        · rfl
        · split <;> rfl
      · rfl
    case find =>
      split
      · rfl
      · split
        · rfl
        · split
          · split <;> rfl
          · rfl
    case check =>
      split
      · rfl
      · split <;> rfl
    case call =>
      split at h
      · rename_i hwild
        rw [if_pos hwild]
      · split at h <;> cases h
    case copyBack => split <;> rfl

/-- Only the check of a callback leads to its run. -/
theorem callbackSet_run (hrun : (c.run s).2 = .goesOn c') : s.CallbackSet c' := by
  intro d hcall
  cases hpc : c.pc <;> simp only [PlipCall.run, hpc] at hrun
  case start =>
    split at hrun
    · split at hrun
      · cases hrun
      · split at hrun <;> cases hrun
        cases hcall
    · cases hrun
  case find =>
    split at hrun
    · cases hrun
    · split at hrun
      · cases hrun
        cases hcall
      · split at hrun
        · split at hrun <;> cases hrun
          cases hcall
        · cases hrun
  case check =>
    split at hrun
    · cases hrun
    · split at hrun
      · rename_i hset
        cases hrun
        cases hcall
        exact hset
      · cases hrun
  case call =>
    split at hrun
    · cases hrun
    · split at hrun <;> cases hrun
      cases hcall
  case copyBack => split at hrun <;> cases hrun

end Calls

/-! ## The steps -/

section Steps

variable {s s' : PlipSys cfg}

/-- A device that keeps its callbacks still has the one of the request. -/
theorem callback_of_kept {req : PlipRequest} {dev dev' : PlipcoreDev cfg}
    (hread : dev.read = true → dev'.read = true) (hwrite : dev.write = true → dev'.write = true)
    (h : req.callback dev = true) : req.callback dev' = true := by
  unfold PlipRequest.callback at h ⊢
  by_cases hcmd : req.cmd = rruIocRegRead
  · rw [if_pos hcmd] at h ⊢
    exact hread h
  · rw [if_neg hcmd] at h ⊢
    exact hwrite h

/-- A change of one device that takes no callback away takes none from the others. -/
theorem callback_setDev {req : PlipRequest} {d e : Nat} {f : PlipcoreDev cfg → PlipcoreDev cfg}
    (hread : (s.dev d).read = true → (f (s.dev d)).read = true)
    (hwrite : (s.dev d).write = true → (f (s.dev d)).write = true)
    (h : req.callback (s.dev e) = true) : req.callback ((s.setDev d f).dev e) = true := by
  by_cases he : e = d
  · subst he
    simpa [setDev] using callback_of_kept hread hwrite h
  · simpa [setDev, he] using h

/-- A probe or a remove leaves the requests and the registers alone, and takes no callback from a
registered device. -/
theorem workStep_keeps {env : PlipProbeEnv cfg} (hinv : s.ListInv) (h : s.workStep env = some s') :
    s'.calls = s.calls ∧ s'.io = s.io ∧ ∀ req : PlipRequest, ∀ d ∈ s.plipDevList,
      req.callback (s.dev d) = true → req.callback (s'.dev d) = true := by
  cases hw : s.work with
  | none => simp [workStep, hw] at h
  | some w =>
    cases w with
    | matchDevice pdev | getDrvdata pdev =>
      simp only [workStep, hw] at h
      split at h <;> cases h <;> exact ⟨rfl, rfl, fun _ _ _ hset => hset⟩
    | deviceAlloc pdev id =>
      simp only [workStep, hw] at h
      split at h <;> cases h
      · refine ⟨rfl, rfl, ?_⟩
        intro req d hd hset
        have hne : d ≠ s.next := (hinv.bound d hd).ne
        simpa [Function.update_of_ne hne] using hset
      · exact ⟨rfl, rfl, fun _ _ _ hset => hset⟩
    | ioremap pdev d =>
      simp only [workStep, hw] at h
      cases h
      refine ⟨rfl, rfl, ?_⟩
      intro req e _ hset
      show req.callback ((s.setDev d fun dev => { dev with data := env.regs }).dev e) = true
      exact callback_setDev id id hset
    | setWrite d =>
      simp only [workStep, hw] at h
      cases h
      refine ⟨rfl, rfl, ?_⟩
      intro req e _ hset
      show req.callback ((s.setDev d fun dev => { dev with write := true }).dev e) = true
      exact callback_setDev id (fun _ => rfl) hset
    | setRead d =>
      simp only [workStep, hw] at h
      cases h
      refine ⟨rfl, rfl, ?_⟩
      intro req e _ hset
      show req.callback ((s.setDev d fun dev => { dev with read := true }).dev e) = true
      exact callback_setDev (fun _ => rfl) id hset
    | addDevice d =>
      simp only [workStep, hw] at h
      split at h <;> cases h
      exact ⟨rfl, rfl, fun _ _ _ hset => hset⟩
    | listDel pdev d | deviceFree pdev d =>
      simp only [workStep, hw] at h
      cases h
      exact ⟨rfl, rfl, fun _ _ _ hset => hset⟩

/-- What a request does to the state. -/
theorem request_cases {i : Nat} (h : s.plipStep (.request i) = some s') :
    ∃ c, s.calls[i]? = some c ∧ s'.io = (c.run s).1 ∧ s'.dev = s.dev ∧
      s'.plipDevList = s.plipDevList ∧
      ((∃ c', (c.run s).2 = .goesOn c' ∧ s'.calls = c' :: s.calls.eraseIdx i) ∨
        ∃ answer, (c.run s).2 = .returns answer ∧ s'.calls = s.calls.eraseIdx i) := by
  simp only [plipStep] at h
  split at h
  · cases h
  · rename_i c hc
    refine ⟨c, hc, ?_⟩
    cases hrun : (c.run s).2 with
    | goesOn c' =>
      rw [hrun] at h
      cases h
      exact ⟨rfl, rfl, rfl, Or.inl ⟨c', rfl, rfl⟩⟩
    | returns answer =>
      rw [hrun] at h
      cases h
      exact ⟨rfl, rfl, rfl, Or.inr ⟨answer, rfl, rfl⟩⟩
    | wild =>
      rw [hrun] at h
      cases h

/-- The list stays in order. -/
theorem StoreInv.listStep {a : PlipAct cfg} (hinv : s.StoreInv) (hok : s.WorkInOrder a)
    (h : s.plipStep a = some s') : s'.ListInv := by
  cases a with
  | request i => exact listInv_request hinv.list h
  | work env => exact listInv_step hinv.list (a := .work env) hok h
  | init env => exact listInv_step hinv.list (a := .init env) trivial h
  | probe pdev => exact listInv_step hinv.list (a := .probe pdev) trivial h
  | remove pdev => exact listInv_step hinv.list (a := .remove pdev) trivial h
  | ioctl req => exact listInv_step hinv.list (a := .ioctl req) trivial h
  | hardware mem => exact listInv_step hinv.list (a := .hardware mem) trivial h

/-- A request keeps the callback that it has found. -/
theorem StoreInv.callbackSet (hinv : s.StoreInv) {c : PlipCall} (hc : c ∈ s.calls)
    (hkeeps : ∀ req : PlipRequest, ∀ d ∈ s.plipDevList,
      req.callback (s.dev d) = true → req.callback (s'.dev d) = true) : s'.CallbackSet c := by
  intro d hpc
  have hknown := hinv.list.calls c hc
  simp only [CallInv, hpc] at hknown
  exact hkeeps c.req d hknown.1 (hinv.callbacks c hc d hpc)

/-- The steps for devices leave the requests and the registers alone. -/
theorem deviceStep_keeps {a : PlipAct cfg} (hinv : s.StoreInv) (ha : a.forDevices = true)
    (h : s.plipStep a = some s') :
    s'.calls = s.calls ∧ s'.io = s.io ∧ ∀ req : PlipRequest, ∀ d ∈ s.plipDevList,
      req.callback (s.dev d) = true → req.callback (s'.dev d) = true := by
  cases a with
  | init env =>
    simp only [plipStep] at h
    cases hinit : s.init <;> simp only [initStep, hinit] at h <;> cases h <;>
      exact ⟨rfl, rfl, fun _ _ _ hset => hset⟩
  | probe pdev | remove pdev =>
    simp only [plipStep] at h
    split at h <;> cases h
    exact ⟨rfl, rfl, fun _ _ _ hset => hset⟩
  | work env => exact workStep_keeps hinv.list h
  | request | ioctl | hardware => cases ha

/-- Every step in order keeps the invariant. -/
theorem StoreInv.step {a : PlipAct cfg} (hinv : s.StoreInv) (hok : s.WorkInOrder a)
    (h : s.plipStep a = some s') : s'.StoreInv := by
  refine ⟨hinv.listStep hok h, ?_⟩
  cases ha : a.forDevices with
  | true =>
    obtain ⟨hcalls, -, hkeeps⟩ := deviceStep_keeps hinv ha h
    rw [hcalls]
    intro c hc
    exact hinv.callbackSet hc hkeeps
  | false =>
    cases a with
    | request i =>
      obtain ⟨c, hc, -, hdev, -, hends⟩ := request_cases h
      have hkept : ∀ c ∈ s.calls, s'.CallbackSet c := by
        intro c hc d hpc
        rw [hdev]
        exact hinv.callbacks c hc d hpc
      rcases hends with ⟨c', hrun, hcalls⟩ | ⟨answer, hrun, hcalls⟩
      · rw [hcalls]
        intro x hx
        rcases List.mem_cons.mp hx with rfl | hold
        · intro d hpc
          rw [hdev]
          exact callbackSet_run hrun d hpc
        · exact hkept x (List.mem_of_mem_eraseIdx hold)
      · rw [hcalls]
        intro x hx
        exact hkept x (List.mem_of_mem_eraseIdx hx)
    | ioctl req =>
      simp only [plipStep] at h
      split at h <;> cases h
      intro c hc
      rcases List.mem_cons.mp hc with rfl | hold
      · intro d hpc
        cases hpc
      · exact hinv.callbacks c hold
    | hardware mem =>
      cases h
      exact hinv.callbacks
    | init | probe | remove | work => cases ha

/-- What a step does to the store is what was written down. -/
theorem StoreInv.exec_events {a : PlipAct cfg} (hinv : s.StoreInv) (h : s.plipStep a = some s') :
    exec PlipStore.serve s.view (s.events a s') = some s'.view := by
  cases ha : a.forDevices with
  | true =>
    obtain ⟨-, hio, -⟩ := deviceStep_keeps hinv ha h
    have hevents : s.events a s' = [.devices s'.view.devs] := by
      cases a with
      | init | probe | remove | work => rfl
      | request | ioctl | hardware => cases ha
    rw [hevents]
    simp [exec, PlipStore.serve, view, hio]
  | false =>
    cases a with
    | request i =>
      obtain ⟨c, hc, hio, hdev, hlist, -⟩ := request_cases h
      have hmem : c ∈ s.calls := List.mem_of_getElem? hc
      have hview : s'.view = { s.view with io := (c.run s).1 } := by
        simp [view, hio, hdev, hlist]
      simp only [events, hc]
      rw [hview]
      cases hcommits : c.commits s with
      | none => simp [exec, view, run_silent hcommits]
      | some answer =>
        have hserved : plipdevIoctl s.view.devs c.req s.view.io = (answer, (c.run s).1) :=
          run_commits hinv hmem hcommits
        simp [exec, PlipStore.serve, hserved]
    | ioctl req =>
      simp only [plipStep] at h
      split at h <;> cases h
      rfl
    | hardware mem =>
      cases h
      rfl
    | init | probe | remove | work => cases ha

/-- The requests that are served and not returned change by what is decided and returned. -/
theorem StoreInv.balance {a : PlipAct cfg} (hinv : s.StoreInv) (h : s.plipStep a = some s') :
    answers PlipEvent.answer (s.events a s') + s.pending = ↑(s.returns a) + s'.pending := by
  cases ha : a.forDevices with
  | true =>
    obtain ⟨hcalls, -, -⟩ := deviceStep_keeps hinv ha h
    have hevents : answers PlipEvent.answer (s.events a s') = 0 := by
      cases a with
      | init | probe | remove | work => rfl
      | request | ioctl | hardware => cases ha
    have hreturns : s.returns a = [] := by
      cases a with
      | init | probe | remove | work => rfl
      | request | ioctl | hardware => cases ha
    rw [hevents, hreturns, pending, pending, hcalls]
    rfl
  | false =>
    cases a with
    | request i =>
      obtain ⟨c, hc, -, -, -, hends⟩ := request_cases h
      have hevents : answers PlipEvent.answer (s.events (.request i) s') =
          ↑((c.commits s).map (c.req, ·)).toList := by
        simp only [events, hc, answers]
        cases c.commits s <;> rfl
      have hreturns : s.returns (.request i) =
          ((c.run s).2.returned.map (c.req, ·)).toList := by
        simp only [returns, hc]
      rw [hevents, hreturns, pending, pending, served_eraseIdx hc, served_cons]
      cases hdecided : c.decided with
      | some answer =>
        have hrun : (c.run s).2 = .returns answer := by rw [run_decided hdecided]
        rcases hends with ⟨c', hgoes, -⟩ | ⟨_, -, hcalls⟩
        · cases hgoes.symm.trans hrun
        · rw [hcalls, hrun, PlipCall.commits, hdecided]
          exact Multiset.zero_add _
      | none =>
        rcases hends with ⟨c', hrun, hcalls⟩ | ⟨answer, hrun, hcalls⟩
        · rw [hcalls, hrun, PlipCall.commits, hdecided, served_cons, req_run hrun, hrun]
          exact congrArg _ (Multiset.zero_add _)
        · rw [hcalls, PlipCall.commits, hdecided, hrun]
          exact congrArg _ (Multiset.zero_add _)
    | ioctl req =>
      simp only [plipStep] at h
      split at h <;> cases h
      rfl
    | hardware mem =>
      cases h
      rfl
    | init | probe | remove | work => cases ha

end Steps

/-! ## Runs -/

/-- At first the list is empty. -/
theorem storeInv_loaded (io : Io cfg) : (loaded io).StoreInv := by
  refine ⟨listInv_loaded io, ?_⟩
  intro c hc
  cases hc

/-- **Requests are atomic.** In every run that keeps the list in order, whatever else happens: the
registers are what they are after the requests that were served, one at a time and in the order in
which they were, each answered by `plipdev_ioctl` for the devices that were registered then; and
these are the requests that have returned, with their answers, and those that are about to. -/
theorem ioctls_atomic {io : Io cfg} {s : PlipSys cfg}
    {g : Commits (PlipEvent cfg) (PlipRequest × PlipAnswer)}
    (h : Reachable (withGhost plipStep (noteCommits events returns))
      (fun sg a => sg.1.WorkInOrder a) (loaded io, .nothing) (s, g)) :
    exec PlipStore.serve ⟨[], io⟩ g.log = some s.view ∧
      answers PlipEvent.answer g.log = ↑g.returned + s.pending := by
  have hidle : (loaded io).pending = 0 := rfl
  have hview : (loaded io).view = ⟨[], io⟩ := rfl
  rw [← hview]
  refine h.atomic (storeInv_loaded io) hidle ?_ ?_ ?_
  · intro s a s' hinv hok hs
    exact hinv.step hok hs
  · intro s a s' hinv _ hs
    exact hinv.exec_events hs
  · intro s a s' hinv _ hs
    exact hinv.balance hs

/-- A request to read the first register waits between its callback and its return while another one
writes it and returns, the device is removed, and the next device with the id is read. -/
def readUnderWrite : List (PlipAct .addr32) :=
  initialise ++ probing 0 .capctl 0x40000000 6 ++ probing 1 .capctl 0x40001000 6 ++ reading 1 4 ++
    .ioctl ⟨rruIocRegWrite, ⟨0, 7, 1⟩, true⟩ :: List.replicate 4 (.request 0) ++
    .remove 0 :: List.replicate 3 (.work ⟨none, true, true, 0⟩) ++ reading 1 5 ++ [.request 0]

/-- The writer is the first that returns and the second that is served. -/
theorem ioctls_atomic_readUnderWrite :
    ∃ s g, exec (withGhost plipStep (noteCommits events returns))
        (loaded ⟨fun _ => 0, []⟩, .nothing) readUnderWrite = some (s, g) ∧
      g.returned.map (fun r => (r.1.cmd, r.2.2.value)) =
        [(rruIocRegWrite, 7), (rruIocRegRead, 0), (rruIocRegRead, 0)] ∧
      (g.log.filterMap PlipEvent.answer).map (fun r => r.1.cmd) =
        [rruIocRegRead, rruIocRegWrite, rruIocRegRead] ∧
      exec PlipStore.serve ⟨[], ⟨fun _ => 0, []⟩⟩ g.log = some s.view ∧
      answers PlipEvent.answer g.log = ↑g.returned + s.pending := by
  have hexec : (exec (withGhost plipStep (noteCommits events returns))
      (loaded ⟨fun _ => 0, []⟩, .nothing) readUnderWrite).map
      (fun sg => (sg.2.returned.map (fun r => (r.1.cmd, r.2.2.value)),
        (sg.2.log.filterMap PlipEvent.answer).map (fun r => r.1.cmd))) =
      some ([(rruIocRegWrite, 7), (rruIocRegRead, 0), (rruIocRegRead, 0)],
        [rruIocRegRead, rruIocRegWrite, rruIocRegRead]) := by
    decide +kernel
  have hok : ExecOk (withGhost plipStep (noteCommits events returns))
      (fun sg a => sg.1.WorkInOrder a) (loaded ⟨fun _ => 0, []⟩, .nothing) readUnderWrite := by
    decide +kernel
  obtain ⟨⟨s, g⟩, hs, hends⟩ := Option.map_eq_some_iff.mp hexec
  obtain ⟨hreturned, hserved⟩ := Prod.mk.inj hends
  exact ⟨s, g, hs, hreturned, hserved, ioctls_atomic (Reachable.of_exec hok hs)⟩

end PlipSys

end PetalinuxDriver
