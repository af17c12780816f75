import PetalinuxDriver.Library.Transition
import PetalinuxDriver.Model.PlipSystem

/-!
# Which device a request is passed on to

`ipcore_find_device` follows the links of the list while a probe may append to it and a remove may
take a device out. Appending does it no harm: a search that is at a device has passed all earlier
ones, and what comes is behind it (`PlipCall.Ahead`). Taking a device out is harmless only while no
request looks at it, and nothing sees to that. Besides, the list can be used before `plip_init` has
run or when it never runs, a device is in it before its callbacks are set, and it gets there with an
error pointer in the place of its registers. In runs without these every request is passed on to the
earliest device with its id (`dispatch_safe`).
-/

set_option autoImplicit false

namespace PetalinuxDriver

open Library

variable {cfg : PhysAddrConfig}

/-! ## Following the links -/

/-- Only the link of a device that is in the list is followed, and it leads to one that is. -/
theorem mem_of_nextEntry {d e : Nat} {l : List Nat} (h : nextEntry d l = some e) :
    d ∈ l ∧ e ∈ l := by
  induction l with
  | nil => cases h
  | cons x rest ih =>
    unfold nextEntry at h
    split at h
    · rename_i hx
      exact ⟨hx ▸ List.mem_cons_self, List.mem_cons_of_mem x (List.mem_of_head? h)⟩
    · obtain ⟨hd, he⟩ := ih h
      exact ⟨List.mem_cons_of_mem x hd, List.mem_cons_of_mem x he⟩

/-- In a list that grows, what is behind a device is the next one or behind that. -/
theorem le_of_nextEntry {d e x : Nat} {l : List Nat} (hsorted : l.Pairwise (· < ·))
    (h : nextEntry d l = some e) (hx : x ∈ l) (hlt : d < x) : e ≤ x := by
  induction l with
  | nil => cases h
  | cons y rest ih =>
    obtain ⟨hfirst, hrest⟩ := List.pairwise_cons.mp hsorted
    unfold nextEntry at h
    split at h
    · rename_i hyd
      rcases List.mem_cons.mp hx with rfl | hmem
      · omega
      · obtain ⟨tail, htail⟩ := List.head?_eq_some_iff.mp h
        rw [htail] at hmem hrest
        rcases List.mem_cons.mp hmem with rfl | hin
        · exact le_refl x
        · exact ((List.pairwise_cons.mp hrest).1 x hin).le
    · rcases List.mem_cons.mp hx with rfl | hmem
      · have hbehind := hfirst d (mem_of_nextEntry h).1
        omega
      · exact ih hrest h hmem

/-- The last device of a list that grows is behind all others. -/
theorem le_of_nextEntry_none {d x : Nat} {l : List Nat} (hsorted : l.Pairwise (· < ·))
    (hd : d ∈ l) (h : nextEntry d l = none) (hx : x ∈ l) : x ≤ d := by
  induction l with
  | nil => cases hd
  | cons y rest ih =>
    obtain ⟨hfirst, hrest⟩ := List.pairwise_cons.mp hsorted
    unfold nextEntry at h
    split at h
    · rename_i hyd
      obtain rfl : rest = [] := List.head?_eq_none_iff.mp h
      rw [List.mem_singleton.mp hx, hyd]
    · rename_i hyd
      have hin : d ∈ rest := (List.mem_cons.mp hd).resolve_left fun heq => hyd heq.symm
      rcases List.mem_cons.mp hx with rfl | hmem
      · exact (hfirst d hin).le
      · exact ih hrest hin h hmem

/-! ## What is promised -/

/-- The answer is an error to its caller (`IS_ERR_VALUE`). -/
def isErrAnswer (answer : PlipAnswer) : Bool := -4095 ≤ answer.1 ∧ answer.1 < 0

/-- The command is one of the two for registers. -/
def PlipRequest.forRegister (r : PlipRequest) : Bool :=
  r.cmd = rruIocRegRead ∨ r.cmd = rruIocRegWrite

/-- The callback of a device runs in the next step, or has run. -/
def PlipPc.dispatched : PlipPc → Bool
  | .call _ | .copyBack _ => true
  | _ => false

/-- The device that the request looks at. -/
def PlipPc.on : PlipPc → Option Nat
  | .find d | .check d | .call d => some d
  | _ => none

namespace PlipSys

/-- The device was registered with mapped registers. -/
def Mapped (s : PlipSys cfg) (d : Nat) : Prop := isErr (s.dev d).data = false

/-- The registered devices with an id come no earlier than this one. -/
def NoEarlier (s : PlipSys cfg) (id : Int) (d : Nat) : Prop :=
  ∀ e ∈ s.plipDevList, (s.dev e).id = id → d ≤ e

/-- The device is registered, and the earliest with the id. -/
def Earliest (s : PlipSys cfg) (id : Int) (d : Nat) : Prop :=
  d ∈ s.plipDevList ∧ (s.dev d).id = id ∧ s.NoEarlier id d

/-- No registered device has the id. -/
def NoneWith (s : PlipSys cfg) (id : Int) : Prop := ∀ e ∈ s.plipDevList, (s.dev e).id ≠ id

instance (s : PlipSys cfg) (d : Nat) : Decidable (s.Mapped d) :=
  inferInstanceAs (Decidable (_ = _))

instance (s : PlipSys cfg) (id : Int) (d : Nat) : Decidable (s.NoEarlier id d) :=
  inferInstanceAs (Decidable (∀ e ∈ s.plipDevList, _))

instance (s : PlipSys cfg) (id : Int) (d : Nat) : Decidable (s.Earliest id d) :=
  inferInstanceAs (Decidable (_ ∧ _ ∧ _))

instance (s : PlipSys cfg) (id : Int) : Decidable (s.NoneWith id) :=
  inferInstanceAs (Decidable (∀ e ∈ s.plipDevList, _))

end PlipSys

/-- The callback that runs is that of the earliest device with the id, and its registers are
mapped. -/
def PlipCall.RunsEarliest (s : PlipSys cfg) (c : PlipCall) : Prop :=
  match c.pc with
  | .call d => s.Earliest c.req.id d ∧ s.Mapped d
  | _ => True

/-- An answer is an error when nothing was run for the request, and then no device has the id. -/
def PlipCall.AnswersRight (s : PlipSys cfg) (c : PlipCall) : PlipAfter → Prop
  | .returns answer => c.req.forRegister = true → isErrAnswer answer = !c.pc.dispatched ∧
      (isErrAnswer answer = true → s.NoneWith c.req.id)
  | .goesOn _ => True
  | .wild => False

instance (s : PlipSys cfg) (c : PlipCall) : Decidable (c.RunsEarliest s) := by
  unfold PlipCall.RunsEarliest
  split <;> infer_instance

instance (s : PlipSys cfg) (c : PlipCall) : ∀ after, Decidable (c.AnswersRight s after)
  | .returns _ => inferInstanceAs (Decidable (_ → _ = _ ∧ (_ → _)))
  | .goesOn _ => isTrue trivial
  | .wild => isFalse id

namespace PlipSys

/-- The next step of a probe or a remove has a result, and adds no device without registers. -/
def WorkRight (s : PlipSys cfg) (env : PlipProbeEnv cfg) : Option PlipWork → Prop
  | none => True
  | some (.addDevice d) => (s.workStep env).isSome = true ∧ s.Mapped d
  | some _ => (s.workStep env).isSome = true

/-- **This step does right** by the list of registered devices. -/
def Dispatches (s : PlipSys cfg) : PlipAct cfg → Prop
  | .work env => s.WorkRight env s.work
  | .request i => ∀ c ∈ s.calls[i]?, c.RunsEarliest s ∧ c.AnswersRight s (c.run s).2
  | _ => True

instance (s : PlipSys cfg) (env : PlipProbeEnv cfg) : ∀ w, Decidable (s.WorkRight env w)
  | none => isTrue trivial
  | some (.addDevice d) => inferInstanceAs (Decidable (_ ∧ s.Mapped d))
  | some (.matchDevice _) | some (.deviceAlloc _ _) | some (.ioremap _ _) | some (.setWrite _)
  | some (.setRead _) | some (.getDrvdata _) | some (.listDel _ _) | some (.deviceFree _ _) =>
    inferInstanceAs (Decidable (_ = true))

instance (s : PlipSys cfg) : ∀ a, Decidable (s.Dispatches a)
  | .init _ | .probe _ | .remove _ | .ioctl _ | .hardware _ => isTrue trivial
  | .work env => inferInstanceAs (Decidable (s.WorkRight env s.work))
  | .request i => inferInstanceAs (Decidable (∀ c ∈ s.calls[i]?,
      c.RunsEarliest s ∧ c.AnswersRight s (c.run s).2))

/-! ## When it is kept -/

/-- A device is added to a list that is initialised, with its registers mapped, and taken out while
no request looks at it. -/
def WorkOrderly (s : PlipSys cfg) : Option PlipWork → Prop
  | some (.addDevice d) => s.headReady = true ∧ s.Mapped d
  | some (.listDel _ d) => ∀ c ∈ s.calls, c.pc.on ≠ some d
  | _ => True

/-- A request begins with an initialised list, finds the callback it needs, reads no value that is an
error to its caller, and returns it. -/
def CallOrderly (s : PlipSys cfg) (c : PlipCall) : Prop :=
  match c.pc with
  | .start => c.req.forRegister = true → s.headReady = true
  | .check d => c.req.callback (s.dev d) = true
  | .copyBack value => c.req.copyToUserOk = true ∧ isErrAnswer (value.toInt, c.req.iocReg) = false
  | _ => True

/-- This step finds the list in order. -/
def Orderly (s : PlipSys cfg) : PlipAct cfg → Prop
  | .work _ => s.WorkOrderly s.work
  | .request i => ∀ c ∈ s.calls[i]?, s.CallOrderly c
  | _ => True

instance (s : PlipSys cfg) : ∀ w, Decidable (s.WorkOrderly w)
  | some (.addDevice d) => inferInstanceAs (Decidable (_ = true ∧ s.Mapped d))
  | some (.listDel _ d) => inferInstanceAs (Decidable (∀ c ∈ s.calls, c.pc.on ≠ some d))
  | none | some (.matchDevice _) | some (.deviceAlloc _ _) | some (.ioremap _ _)
  | some (.setWrite _) | some (.setRead _) | some (.getDrvdata _) | some (.deviceFree _ _) =>
    isTrue trivial

instance (s : PlipSys cfg) (c : PlipCall) : Decidable (s.CallOrderly c) := by
  unfold CallOrderly
  split <;> infer_instance

instance (s : PlipSys cfg) : ∀ a, Decidable (s.Orderly a)
  | .init _ | .probe _ | .remove _ | .ioctl _ | .hardware _ => isTrue trivial
  | .work _ => inferInstanceAs (Decidable (s.WorkOrderly s.work))
  | .request i => inferInstanceAs (Decidable (∀ c ∈ s.calls[i]?, s.CallOrderly c))

/-! ## What is known in between -/

/-- What a request knows about the device that it looks at. -/
def CallInv (s : PlipSys cfg) (c : PlipCall) : Prop :=
  match c.pc with
  | .find d => d ∈ s.plipDevList ∧ s.NoEarlier c.req.id d
  | .check d | .call d => s.Earliest c.req.id d
  | _ => True

/-- What is known about the device of a probe or a remove. -/
def WorkInv (s : PlipSys cfg) : PlipWork → Prop
  | .ioremap _ d | .addDevice d => d < s.next ∧ s.freed d = false ∧ ∀ e ∈ s.plipDevList, e < d
  | .listDel _ d => d < s.next
  | .deviceFree _ d => d < s.next ∧ d ∉ s.plipDevList
  | _ => True

/-- **The list of devices.** It is in the order of allocation, what is in it is in memory and has
mapped registers, and before `plip_init` there is nothing in it. -/
structure ListInv (s : PlipSys cfg) : Prop where
  sorted : s.plipDevList.Pairwise (· < ·)
  bound : ∀ d ∈ s.plipDevList, d < s.next
  live : ∀ d ∈ s.plipDevList, s.freed d = false
  mapped : ∀ d ∈ s.plipDevList, s.Mapped d
  fresh : ∀ d, s.next ≤ d → s.freed d = false
  drvdata : ∀ pdev, ∀ d ∈ s.drvdata pdev, d < s.next
  ready : s.headReady = true → s.init = .returned 0
  empty : s.headReady = false → s.plipDevList = []
  work : ∀ w ∈ s.work, s.WorkInv w
  calls : ∀ c ∈ s.calls, s.CallInv c
  registers : ∀ c ∈ s.calls, c.pc ≠ .start → c.req.forRegister = true

/-- A request keeps what it knows when its device stays, the others keep their ids, and what is new
in the list is behind all that was there. -/
theorem callInv_frame {s t : PlipSys cfg} {c : PlipCall} (h : s.CallInv c)
    (hon : ∀ d ∈ s.plipDevList, c.pc.on = some d → d ∈ t.plipDevList)
    (hnew : ∀ e ∈ t.plipDevList, e ∈ s.plipDevList ∨ ∀ d ∈ s.plipDevList, d < e)
    (hid : ∀ d ∈ s.plipDevList, (t.dev d).id = (s.dev d).id) : t.CallInv c := by
  have hearlier : ∀ d ∈ s.plipDevList, s.NoEarlier c.req.id d → t.NoEarlier c.req.id d := by
    intro d hd hno e he heq
    rcases hnew e he with hold | hlast
    · apply hno e hold
      rw [← hid e hold]
      exact heq
    · exact (hlast d hd).le
  cases hpc : c.pc with
  | start | copyBack => simp [CallInv, hpc]
  | find d =>
    simp only [CallInv, hpc] at h ⊢
    exact ⟨hon d h.1 (by rw [hpc]; rfl), hearlier d h.1 h.2⟩
  | check d | call d =>
    simp only [CallInv, hpc] at h ⊢
    obtain ⟨hd, hsame, hno⟩ := h
    refine ⟨hon d hd (by rw [hpc]; rfl), ?_, hearlier d hd hno⟩
    rw [hid d hd]
    exact hsame

/-! ## The steps of a request -/

/-- A request that goes on knows what it needs to know. -/
theorem callInv_run {s : PlipSys cfg} {c c' : PlipCall} (hinv : s.ListInv) (h : s.CallInv c)
    (hrun : (c.run s).2 = .goesOn c') : s.CallInv c' := by
  cases hpc : c.pc with
  | start =>
    simp only [PlipCall.run, hpc] at hrun
    split at hrun
    · split at hrun
      · cases hrun
      · split at hrun
        · cases hrun
        · rename_i d hhead
          cases hrun
          obtain ⟨tail, htail⟩ := List.head?_eq_some_iff.mp hhead
          refine ⟨htail ▸ List.mem_cons_self, ?_⟩
          intro e he _
          have hsorted := hinv.sorted
          rw [htail] at he hsorted
          rcases List.mem_cons.mp he with rfl | hmem
          · exact le_refl e
          · exact ((List.pairwise_cons.mp hsorted).1 e hmem).le
    · cases hrun
  | find d =>
    simp only [CallInv, hpc] at h
    obtain ⟨hd, hno⟩ := h
    simp only [PlipCall.run, hpc] at hrun
    split at hrun
    · cases hrun
    · split at hrun
      · rename_i hid
        cases hrun
        exact ⟨hd, hid, hno⟩
      · rename_i hid
        split at hrun
        · cases hrun
        · rename_i e hnext
          cases hrun
          refine ⟨(mem_of_nextEntry hnext).2, ?_⟩
          intro x hx heq
          -- the device itself has another id, so what has this one is behind it
          have hle : d ≤ x := hno x hx heq
          have hne : d ≠ x := by
            rintro rfl
            exact hid heq
          exact le_of_nextEntry hinv.sorted hnext hx (lt_of_le_of_ne hle hne)
  | check d =>
    simp only [CallInv, hpc] at h
    simp only [PlipCall.run, hpc] at hrun
    split at hrun
    · cases hrun
    · split at hrun
      · cases hrun
        exact h
      · cases hrun
  | call d =>
    simp only [PlipCall.run, hpc] at hrun
    split at hrun
    · cases hrun
    · split at hrun
      · cases hrun
        trivial
      · cases hrun
  | copyBack value =>
    simp only [PlipCall.run, hpc] at hrun
    split at hrun <;> cases hrun

/-- Only a request for a register goes beyond the start. -/
theorem register_of_run {s : PlipSys cfg} {c c' : PlipCall}
    (h : c.pc ≠ .start → c.req.forRegister = true) (hrun : (c.run s).2 = .goesOn c') :
    c'.req.forRegister = true := by
  have hreq : c'.req = c.req ∧ (c.pc = .start → c.req.forRegister = true) := by
    cases hpc : c.pc <;> simp only [PlipCall.run, hpc] at hrun
    case start =>
      split at hrun
      · rename_i hcmd
        have hreg : c.req.forRegister = true := by simpa [PlipRequest.forRegister] using hcmd
        split at hrun
        · cases hrun
        · split at hrun
          · cases hrun
          · cases hrun
            exact ⟨rfl, fun _ => hreg⟩
      · cases hrun
    case find =>
      split at hrun
      · cases hrun
      · split at hrun
        · cases hrun
          exact ⟨rfl, fun hstart => by cases hstart⟩
        · split at hrun
          · split at hrun
            · cases hrun
            · cases hrun
              exact ⟨rfl, fun hstart => by cases hstart⟩
          · cases hrun
    case check =>
      split at hrun
      · cases hrun
      · split at hrun
        · cases hrun
          exact ⟨rfl, fun hstart => by cases hstart⟩
        · cases hrun
    case call =>
      split at hrun
      · cases hrun
      · split at hrun
        · cases hrun
          exact ⟨rfl, fun hstart => by cases hstart⟩
        · cases hrun
    case copyBack => split at hrun <;> cases hrun
  rw [hreq.1]
  by_cases hstart : c.pc = .start
  · exact hreq.2 hstart
  · exact h hstart

/-- A request that finds the list in order does right by it. -/
theorem request_right {s : PlipSys cfg} {c : PlipCall} (hinv : s.ListInv) (h : s.CallInv c)
    (hok : s.CallOrderly c) : c.RunsEarliest s ∧ c.AnswersRight s (c.run s).2 := by
  cases hpc : c.pc with
  | start =>
    simp only [CallOrderly, hpc] at hok
    refine ⟨by simp [PlipCall.RunsEarliest, hpc], ?_⟩
    simp only [PlipCall.run, hpc]
    split
    · rename_i hcmd
      have hready : s.headReady = true := hok (by simpa [PlipRequest.forRegister] using hcmd)
      split
      · rename_i hnot
        simp [hready] at hnot
      · split
        · rename_i hhead
          intro _
          refine ⟨by simp [isErrAnswer, PlipPc.dispatched, hpc], ?_⟩
          intro _ e he
          rw [List.head?_eq_none_iff.mp hhead] at he
          cases he
        · trivial
    · rename_i hcmd
      intro hreg
      simp [PlipRequest.forRegister] at hreg
      exact absurd hreg hcmd
  | find d =>
    simp only [CallInv, hpc] at h
    obtain ⟨hd, hno⟩ := h
    refine ⟨by simp [PlipCall.RunsEarliest, hpc], ?_⟩
    simp only [PlipCall.run, hpc, hinv.live d hd, Bool.false_eq_true, if_false]
    split
    · trivial
    · rename_i hid
      split
      · rename_i hnext
        intro _
        refine ⟨by simp [isErrAnswer, PlipPc.dispatched, hpc], ?_⟩
        intro _ e he heq
        have hle : d ≤ e := hno e he heq
        have hlast : e ≤ d := le_of_nextEntry_none hinv.sorted hd hnext he
        obtain rfl : d = e := Nat.le_antisymm hle hlast
        exact hid heq
      · trivial
  | check d =>
    simp only [CallInv, hpc] at h
    simp only [CallOrderly, hpc] at hok
    refine ⟨by simp [PlipCall.RunsEarliest, hpc], ?_⟩
    simp only [PlipCall.run, hpc, hinv.live d h.1, Bool.false_eq_true, if_false]
    rw [if_pos hok]
    trivial
  | call d =>
    simp only [CallInv, hpc] at h
    refine ⟨by simpa [PlipCall.RunsEarliest, hpc] using ⟨h, hinv.mapped d h.1⟩, ?_⟩
    have hmapped : isErr (s.dev d).data = false := hinv.mapped d h.1
    simp only [PlipCall.run, hpc, hinv.live d h.1, hmapped, Bool.false_eq_true, or_self, if_false]
    split
    · trivial
    · intro _
      simp [isErrAnswer, ipCoreWrite, PlipPc.dispatched, hpc]
  | copyBack value =>
    simp only [CallOrderly, hpc] at hok
    obtain ⟨hcopy, hvalue⟩ := hok
    refine ⟨by simp [PlipCall.RunsEarliest, hpc], ?_⟩
    simp only [PlipCall.run, hpc, hcopy, if_true]
    intro _
    have herr : isErrAnswer (value.toInt, { c.req.iocReg with value := value }) = false := hvalue
    simp [herr, PlipPc.dispatched, hpc]

/-! ## The steps of the others -/

/-- `plipdev_init` finds an empty list as long as it has not returned. -/
theorem listInv_initStep {s s' : PlipSys cfg} {env : PlipInitEnv} (hinv : s.ListInv)
    (h : s.initStep env = some s') : s'.ListInv := by
  have hnot : ∀ init : PlipInitPc, s.init = init → init ≠ .returned 0 → s.headReady = false := by
    intro init heq hne
    cases hready : s.headReady with
    | false => rfl
    | true => exact absurd (heq.symm.trans (hinv.ready hready)) hne
  have hkeeps : ∀ (init init' : PlipInitPc) (chardev : Bool), s.init = init → init ≠ .returned 0 →
      ListInv { s with init := init', chardev := chardev } := by
    intro init init' chardev heq hne
    refine { hinv with ready := ?_ }
    intro hready
    cases (hnot init heq hne).symm.trans hready
  cases hinit : s.init with
  | kzalloc | allocChrdevRegion | classCreate | deviceCreate | cdevAdd =>
    simp only [initStep, hinit, Option.some.injEq] at h
    subst h
    exact hkeeps _ _ _ hinit (by decide)
  | plipInit =>
    simp only [initStep, hinit, Option.some.injEq] at h
    subst h
    have hempty : s.plipDevList = [] := hinv.empty (hnot _ hinit (by decide))
    refine ⟨List.Pairwise.nil, ?_, ?_, ?_, hinv.fresh, hinv.drvdata, fun _ => rfl, fun _ => rfl,
      ?_, ?_, hinv.registers⟩
    · intro d hd
      cases hd
    · intro d hd
      cases hd
    · intro d hd
      cases hd
    · intro w hw
      have hold := hinv.work w hw
      cases w with
      | ioremap | addDevice =>
        refine ⟨hold.1, hold.2.1, ?_⟩
        intro e he
        cases he
      | listDel => exact hold
      | deviceFree => exact ⟨hold.1, List.not_mem_nil⟩
      | _ => trivial
    · intro c hc
      apply callInv_frame (hinv.calls c hc)
      · intro d hd _
        rw [hempty] at hd
        cases hd
      · intro e he
        cases he
      · intro d _
        rfl
  | returned ret => simp [initStep, hinit] at h

/-- A change of a registered device that keeps its id and its registers, or of one that is not
registered, keeps the list in order. -/
theorem listInv_setDev {s : PlipSys cfg} {d : Nat} {f : PlipcoreDev cfg → PlipcoreDev cfg}
    {drvdata : Nat → Option Nat} {w : Option PlipWork} (hinv : s.ListInv)
    (hsame : d ∈ s.plipDevList → (f (s.dev d)).id = (s.dev d).id ∧
      (f (s.dev d)).data = (s.dev d).data)
    (hdrv : ∀ pdev, ∀ e ∈ drvdata pdev, e < s.next) (hwork : ∀ v ∈ w, s.WorkInv v) :
    ListInv { s.setDev d f with drvdata := drvdata, work := w } := by
  have hdev : ∀ e ∈ s.plipDevList, ((s.setDev d f).dev e).id = (s.dev e).id ∧
      ((s.setDev d f).dev e).data = (s.dev e).data := by
    intro e he
    by_cases hed : e = d
    · subst hed
      simpa [setDev] using hsame he
    · simp [setDev, hed]
  refine ⟨hinv.sorted, hinv.bound, hinv.live, ?_, hinv.fresh, hdrv, hinv.ready, hinv.empty, ?_, ?_,
    hinv.registers⟩
  · intro e he
    have hmapped : isErr (s.dev e).data = false := hinv.mapped e he
    show isErr ((s.setDev d f).dev e).data = false
    rw [(hdev e he).2]
    exact hmapped
  · intro v hv
    have hold := hwork v hv
    cases v <;> exact hold
  · intro c hc
    apply callInv_frame (hinv.calls c hc)
    · intro e he _
      exact he
    · intro e he
      exact Or.inl he
    · intro e he
      exact (hdev e he).1

/-- New driver data is of a device that was allocated. -/
theorem drvdata_update {drvdata : Nat → Option Nat} {n pdev : Nat} {entry : Option Nat}
    (hdrv : ∀ p, ∀ d ∈ drvdata p, d < n) (hentry : ∀ d ∈ entry, d < n) :
    ∀ p, ∀ d ∈ Function.update drvdata pdev entry p, d < n := by
  intro p d hd
  by_cases hp : p = pdev
  · subst hp
    rw [Function.update_self] at hd
    exact hentry d hd
  · rw [Function.update_of_ne hp] at hd
    exact hdrv p d hd

/-- A new device is none of those in the list. -/
theorem listInv_deviceAlloc {s : PlipSys cfg} (hinv : s.ListInv) (dev : PlipcoreDev cfg)
    (pdev : Nat) :
    ListInv { s with
      dev := Function.update s.dev s.next dev
      next := s.next + 1
      work := some (.ioremap pdev s.next) } := by
  have hne : ∀ d ∈ s.plipDevList, d ≠ s.next := fun d hd => (hinv.bound d hd).ne
  refine ⟨hinv.sorted, ?_, hinv.live, ?_, ?_, ?_, hinv.ready, hinv.empty, ?_, ?_,
    hinv.registers⟩
  · intro d hd
    exact Nat.lt_succ_of_lt (hinv.bound d hd)
  · intro d hd
    have hmapped : s.Mapped d := hinv.mapped d hd
    simpa [Mapped, Function.update_of_ne (hne d hd)] using hmapped
  · intro d hd
    exact hinv.fresh d (Nat.le_of_succ_le hd)
  · intro p d hd
    exact Nat.lt_succ_of_lt (hinv.drvdata p d hd)
  · rintro _ ⟨⟩
    exact ⟨Nat.lt_succ_self s.next, hinv.fresh s.next (le_refl _), hinv.bound⟩
  · intro c hc
    apply callInv_frame (hinv.calls c hc)
    · intro d hd _
      exact hd
    · intro e he
      exact Or.inl he
    · intro d hd
      simp [Function.update_of_ne (hne d hd)]

/-- A device that is newer than all in the list goes to its end. -/
theorem listInv_addDevice {s : PlipSys cfg} {d : Nat} (hinv : s.ListInv)
    (hready : s.headReady = true) (hmapped : s.Mapped d) (hbound : d < s.next)
    (hlive : s.freed d = false) (hlast : ∀ e ∈ s.plipDevList, e < d) :
    ListInv { s with plipDevList := s.plipDevList ++ [d], work := some (.setWrite d) } := by
  refine ⟨?_, ?_, ?_, ?_, hinv.fresh, hinv.drvdata, hinv.ready, ?_, ?_, ?_, hinv.registers⟩
  · refine List.pairwise_append.mpr ⟨hinv.sorted, List.pairwise_singleton _ d, ?_⟩
    intro e he x hx
    rw [List.mem_singleton.mp hx]
    exact hlast e he
  · intro e he
    rcases List.mem_append.mp he with hold | hnew
    · exact hinv.bound e hold
    · rw [List.mem_singleton.mp hnew]
      exact hbound
  · intro e he
    rcases List.mem_append.mp he with hold | hnew
    · exact hinv.live e hold
    · rw [List.mem_singleton.mp hnew]
      exact hlive
  · intro e he
    rcases List.mem_append.mp he with hold | hnew
    · exact hinv.mapped e hold
    · rw [List.mem_singleton.mp hnew]
      exact hmapped
  · intro hnot
    cases hready.symm.trans hnot
  · rintro _ ⟨⟩
    trivial
  · intro c hc
    apply callInv_frame (hinv.calls c hc)
    · intro e he _
      exact List.mem_append_left [d] he
    · intro e he
      rcases List.mem_append.mp he with hold | hnew
      · exact Or.inl hold
      · rw [List.mem_singleton.mp hnew]
        exact Or.inr hlast
    · intro e _
      rfl

/-- A device that no request has in its hands leaves the list. -/
theorem listInv_listDel {s : PlipSys cfg} {d : Nat} {pdev : Nat} (hinv : s.ListInv)
    (hbound : d < s.next) (hfree : ∀ c ∈ s.calls, c.pc.on ≠ some d) :
    ListInv { s with plipDevList := s.plipDevList.erase d, work := some (.deviceFree pdev d) } := by
  have hsub : ∀ e ∈ s.plipDevList.erase d, e ∈ s.plipDevList := fun e he =>
    List.mem_of_mem_erase he
  refine ⟨hinv.sorted.sublist List.erase_sublist, ?_, ?_, ?_, hinv.fresh, hinv.drvdata,
    hinv.ready, ?_, ?_, ?_, hinv.registers⟩
  · intro e he
    exact hinv.bound e (hsub e he)
  · intro e he
    exact hinv.live e (hsub e he)
  · intro e he
    exact hinv.mapped e (hsub e he)
  · intro hnot
    rw [hinv.empty hnot]
    rfl
  · rintro _ ⟨⟩
    have hnodup : s.plipDevList.Nodup := hinv.sorted.imp fun hlt => hlt.ne
    exact ⟨hbound, hnodup.not_mem_erase⟩
  · intro c hc
    apply callInv_frame (hinv.calls c hc)
    · intro e he hon
      have hne : e ≠ d := by
        rintro rfl
        exact hfree c hc hon
      exact (List.mem_erase_of_ne hne).mpr he
    · intro e he
      exact Or.inl (hsub e he)
    · intro e _
      rfl

/-- A probe or a remove in order keeps the list in order. -/
theorem listInv_workStep {s s' : PlipSys cfg} {env : PlipProbeEnv cfg} (hinv : s.ListInv)
    (hok : s.WorkOrderly s.work) (h : s.workStep env = some s') : s'.ListInv := by
  cases hw : s.work with
  | none => simp [workStep, hw] at h
  | some w =>
    rw [hw] at hok
    have hwork := hinv.work w hw
    cases w with
    | matchDevice pdev =>
      simp only [workStep, hw] at h
      split at h
      · cases h
        exact { hinv with work := fun _ hv => by cases hv }
      · cases h
        refine { hinv with work := ?_ }
        rintro _ ⟨⟩
        trivial
    | deviceAlloc pdev id =>
      simp only [workStep, hw] at h
      split at h
      · cases h
        exact listInv_deviceAlloc hinv _ _
      · cases h
        exact { hinv with work := fun _ hv => by cases hv }
    | ioremap pdev d =>
      simp only [workStep, hw] at h
      cases h
      apply listInv_setDev hinv
      · intro hd
        exact absurd (hwork.2.2 d hd) (lt_irrefl d)
      · apply drvdata_update hinv.drvdata
        rintro _ ⟨⟩
        exact hwork.1
      · rintro _ ⟨⟩
        exact hwork
    | addDevice d =>
      obtain ⟨hready, hmapped⟩ := hok
      obtain ⟨hbound, hlive, hlast⟩ := hwork
      simp only [workStep, hw] at h
      rw [if_pos hready] at h
      cases h
      exact listInv_addDevice hinv hready hmapped hbound hlive hlast
    | setWrite d =>
      simp only [workStep, hw] at h
      cases h
      apply listInv_setDev hinv
      · intro _
        exact ⟨rfl, rfl⟩
      · exact hinv.drvdata
      · rintro _ ⟨⟩
        trivial
    | setRead d =>
      simp only [workStep, hw] at h
      cases h
      apply listInv_setDev hinv
      · intro _
        exact ⟨rfl, rfl⟩
      · exact hinv.drvdata
      · intro v hv
        cases hv
    | getDrvdata pdev =>
      simp only [workStep, hw] at h
      split at h
      · cases h
        exact { hinv with work := fun _ hv => by cases hv }
      · rename_i d hd
        cases h
        refine { hinv with work := ?_ }
        rintro _ ⟨⟩
        exact hinv.drvdata pdev d hd
    | listDel pdev d =>
      simp only [workStep, hw] at h
      cases h
      exact listInv_listDel hinv hwork hok
    | deviceFree pdev d =>
      simp only [workStep, hw] at h
      cases h
      obtain ⟨hbound, hout⟩ := hwork
      refine { hinv with live := ?_, fresh := ?_, drvdata := ?_, work := fun _ hv => by cases hv }
      · intro e he
        have hne : e ≠ d := by
          rintro rfl
          exact hout he
        simpa [Function.update_of_ne hne] using hinv.live e he
      · intro e he
        have hne : e ≠ d := (hbound.trans_le he).ne'
        simpa [Function.update_of_ne hne] using hinv.fresh e he
      · apply drvdata_update hinv.drvdata
        intro e he
        cases he

/-- A step of a request leaves the list alone. -/
theorem listInv_request {s s' : PlipSys cfg} {i : Nat} (hinv : s.ListInv)
    (h : s.plipStep (.request i) = some s') : s'.ListInv := by
  simp only [plipStep] at h
  split at h
  · cases h
  · rename_i c hc
    have hrest : ∀ c' ∈ s.calls.eraseIdx i, s.CallInv c' := fun c' hc' =>
      hinv.calls c' (List.mem_of_mem_eraseIdx hc')
    cases hrun : (c.run s).2 with
    | goesOn c' =>
      rw [hrun] at h
      cases h
      have hmem : c ∈ s.calls := List.mem_of_getElem? hc
      have hnext : s.CallInv c' := callInv_run hinv (hinv.calls c hmem) hrun
      have hregister : c'.req.forRegister = true := register_of_run (hinv.registers c hmem) hrun
      refine { hinv with calls := ?_, registers := ?_ }
      · intro c'' hc''
        rcases List.mem_cons.mp hc'' with rfl | hold
        · exact hnext
        · exact hrest c'' hold
      · intro c'' hc'' hpc
        rcases List.mem_cons.mp hc'' with rfl | hold
        · exact hregister
        · exact hinv.registers c'' (List.mem_of_mem_eraseIdx hold) hpc
    | returns answer =>
      rw [hrun] at h
      cases h
      refine { hinv with calls := hrest, registers := ?_ }
      intro c' hc'
      exact hinv.registers c' (List.mem_of_mem_eraseIdx hc')
    | wild =>
      rw [hrun] at h
      cases h

/-- Every orderly step keeps the list in order. -/
theorem listInv_step {s s' : PlipSys cfg} {a : PlipAct cfg} (hinv : s.ListInv) (hok : s.Orderly a)
    (h : s.plipStep a = some s') : s'.ListInv := by
  cases a with
  | init env => exact listInv_initStep hinv h
  | probe pdev =>
    simp only [plipStep] at h
    split at h
    · cases h
      refine { hinv with work := ?_ }
      rintro _ ⟨⟩
      trivial
    · cases h
  | remove pdev =>
    simp only [plipStep] at h
    split at h
    · cases h
      refine { hinv with work := ?_ }
      rintro _ ⟨⟩
      trivial
    · cases h
  | work env => exact listInv_workStep hinv hok h
  | ioctl req =>
    simp only [plipStep] at h
    split at h
    · cases h
      refine { hinv with calls := ?_, registers := ?_ }
      · intro c hc
        rcases List.mem_cons.mp hc with rfl | hold
        · trivial
        · exact hinv.calls c hold
      · intro c hc hpc
        rcases List.mem_cons.mp hc with rfl | hold
        · exact absurd rfl hpc
        · exact hinv.registers c hold hpc
    · cases h
  | request i => exact listInv_request hinv h
  | hardware mem =>
    cases h
    exact { hinv with }

/-- At first the list is empty. -/
theorem listInv_loaded (io : Io cfg) : (loaded io).ListInv := by
  refine ⟨List.Pairwise.nil, ?_, ?_, ?_, fun _ _ => rfl, ?_, ?_, fun _ => rfl, ?_, ?_, ?_⟩
  · intro d hd
    cases hd
  · intro d hd
    cases hd
  · intro d hd
    cases hd
  · intro p d hd
    cases hd
  · intro hready
    cases hready
  · intro w hw
    cases hw
  · intro c hc
    cases hc
  · intro c hc
    cases hc

/-- A step that finds the list in order does right by it. -/
theorem dispatches_of_orderly {s : PlipSys cfg} {a : PlipAct cfg} (hinv : s.ListInv)
    (hok : s.Orderly a) : s.Dispatches a := by
  cases a with
  | work env =>
    show s.WorkRight env s.work
    have hok : s.WorkOrderly s.work := hok
    cases hw : s.work with
    | none => trivial
    | some w =>
      rw [hw] at hok
      cases w with
      | addDevice d => exact ⟨by simp [workStep, hw, hok.1], hok.2⟩
      | matchDevice pdev =>
        show (s.workStep env).isSome = true
        simp only [workStep, hw]
        split <;> rfl
      | deviceAlloc pdev id =>
        show (s.workStep env).isSome = true
        simp only [workStep, hw]
        split <;> rfl
      | getDrvdata pdev =>
        show (s.workStep env).isSome = true
        simp only [workStep, hw]
        split <;> rfl
      | ioremap | setWrite | setRead | listDel | deviceFree =>
        show (s.workStep env).isSome = true
        simp only [workStep, hw, Option.isSome_some]
  | request i =>
    intro c hc
    exact request_right hinv (hinv.calls c (List.mem_of_getElem? hc)) (hok c hc)
  | init | probe | remove | ioctl | hardware => trivial

/-! ## What goes wrong otherwise -/

/-- Taking a device out apart, a step that does right finds the list in order. -/
theorem orderly_of_dispatches {s : PlipSys cfg} {a : PlipAct cfg} (hinv : s.ListInv)
    (h : s.Dispatches a) (hdel : ∀ pdev d, s.work ≠ some (.listDel pdev d)) : s.Orderly a := by
  cases a with
  | work env =>
    show s.WorkOrderly s.work
    have h : s.WorkRight env s.work := h
    cases hw : s.work with
    | none => trivial
    | some w =>
      rw [hw] at h
      cases w with
      | addDevice d =>
        refine ⟨?_, h.2⟩
        by_contra hnot
        have hstep := h.1
        simp [workStep, hw, hnot] at hstep
      | listDel pdev d => exact absurd hw (hdel pdev d)
      | _ => trivial
  | request i =>
    intro c hc
    have hmem : c ∈ s.calls := List.mem_of_getElem? hc
    obtain ⟨-, hright⟩ := h c hc
    have hknown := hinv.calls c hmem
    cases hpc : c.pc with
    | start =>
      simp only [CallOrderly, hpc]
      intro hreg
      have hcmd : c.req.cmd = rruIocRegRead ∨ c.req.cmd = rruIocRegWrite := by
        simpa [PlipRequest.forRegister] using hreg
      by_contra hnot
      rw [Bool.not_eq_true] at hnot
      simp only [PlipCall.run, hpc, if_pos hcmd, hnot, Bool.not_false, if_true] at hright
      exact hright
    | check d =>
      simp only [CallInv, hpc] at hknown
      obtain ⟨hd, hid, -⟩ := hknown
      have hreg : c.req.forRegister = true := hinv.registers c hmem (by simp [hpc])
      simp only [CallOrderly, hpc]
      by_contra hnot
      simp only [PlipCall.run, hpc, hinv.live d hd, hnot, Bool.false_eq_true, if_false] at hright
      exact (hright hreg).2 (by simp [isErrAnswer]) d hd hid
    | copyBack value =>
      have hreg : c.req.forRegister = true := hinv.registers c hmem (by simp [hpc])
      simp only [CallOrderly, hpc]
      simp only [PlipCall.run, hpc] at hright
      split at hright
      · rename_i hcopy
        have herr := (hright hreg).1
        rw [hpc] at herr
        exact ⟨hcopy, herr⟩
      · have herr := (hright hreg).1
        rw [hpc] at herr
        simp [isErrAnswer, efault, PlipPc.dispatched] at herr
    | find d | call d => simp [CallOrderly, hpc]
  | init | probe | remove | ioctl | hardware => trivial

/-- A device that is taken out under a request which is about to run its callback runs it all the
same. -/
theorem removed_under_call {s s' : PlipSys cfg} {i : Nat} {c : PlipCall} {pdev d : Nat}
    (env : PlipProbeEnv cfg) (hinv : s.ListInv) (hw : s.work = some (.listDel pdev d))
    (hc : s.calls[i]? = some c) (hpc : c.pc = .call d) (h : s.plipStep (.work env) = some s') :
    ¬ s'.Dispatches (.request i) := by
  intro hright
  simp only [plipStep, workStep, hw, Option.some.injEq] at h
  subst h
  have hnodup : s.plipDevList.Nodup := hinv.sorted.imp fun hlt => hlt.ne
  obtain ⟨hruns, -⟩ := hright c hc
  simp only [PlipCall.RunsEarliest, hpc] at hruns
  exact hnodup.not_mem_erase hruns.1.1

/-! ## Runs -/

/-- **Requests go to the earliest registered device with their id**, and fail exactly when there is
none, at every step of a run that finds the list in order. -/
theorem dispatch_safe {io : Io cfg} {as : List (PlipAct cfg)}
    (hok : ExecOk plipStep Orderly (loaded io) as) :
    ExecOk plipStep Dispatches (loaded io) as := by
  refine Reachable.execOk_of_invariant hok (listInv_loaded io) ?_ ?_
  · intro s a hinv hstep
    exact dispatches_of_orderly hinv hstep
  · intro s a s' hinv hstep hs
    exact listInv_step hinv hstep hs

/-- Initialisation without a failure. -/
def initialise : List (PlipAct .addr32) :=
  List.replicate 6 (.init ⟨true, 0, .object, .object, true⟩)

/-- So many steps of the probe of a device, which gets these registers. -/
def probing (pdev : Nat) (id : RruDeviceId) (regs : VirtAddr .addr32) (n : Nat) :
    List (PlipAct .addr32) :=
  .probe pdev :: List.replicate n (.work ⟨some id, true, true, regs⟩)

/-- So many steps of a request to read the first register. -/
def reading (id : BitVec 8) (n : Nat) : List (PlipAct .addr32) :=
  .ioctl ⟨rruIocRegRead, ⟨0, 0, id⟩, true⟩ :: List.replicate n (.request 0)

/-- Two devices with one id: the first serves a request, is removed, and the second serves the next
one; a third id is not there. -/
theorem dispatch_safe_twoDevices :
    ExecOk plipStep Dispatches (loaded ⟨fun _ => 0, []⟩)
      (initialise ++ probing 0 .capctl 0x40000000 6 ++ probing 1 .capctl 0x40001000 6 ++
        reading 1 5 ++ .remove 0 :: List.replicate 3 (.work ⟨none, true, true, 0⟩) ++
        reading 1 5 ++ reading 2 2) :=
  dispatch_safe (by decide +kernel)

/-- Initialisation fails and a device is probed; the registers of a device cannot be mapped; a
request comes before the callbacks are set; a device is removed under a request. -/
theorem dispatch_unsafe :
    ¬ ExecOk plipStep Dispatches (loaded ⟨fun _ => 0, []⟩)
        (List.replicate 2 (.init ⟨true, -1, .object, .object, true⟩) ++
          probing 0 .capctl 0x40000000 4) ∧
      ¬ ExecOk plipStep Dispatches (loaded ⟨fun _ => 0, []⟩)
        (initialise ++ probing 0 .capctl 0xFFFFFFF0 6) ∧
      ¬ ExecOk plipStep Dispatches (loaded ⟨fun _ => 0, []⟩)
        (initialise ++ probing 0 .capctl 0x40000000 4 ++ reading 1 3) ∧
      ¬ ExecOk plipStep Dispatches (loaded ⟨fun _ => 0, []⟩)
        (initialise ++ probing 0 .capctl 0x40000000 6 ++ reading 1 3 ++
          .remove 0 :: List.replicate 3 (.work ⟨none, true, true, 0⟩) ++ [.request 0]) := by
  refine ⟨?_, ?_, ?_, ?_⟩
  all_goals decide +kernel

end PlipSys

/-! ## A request that nothing interrupts -/

/-- So many steps of one request and of nothing else, when it returns in them. -/
def PlipCall.alone : Nat → PlipSys cfg → PlipCall → Option (PlipAnswer × Io cfg)
  | 0, _, _ => none
  | n + 1, s, c =>
    match (c.run s).2 with
    | .returns answer => some (answer, (c.run s).1)
    | .goesOn c' => alone n { s with io := (c.run s).1 } c'
    | .wild => none

/-- `plipdev_ioctl` depends on the list through the search alone. -/
theorem plipdevIoctl_congr {devs devs' : List (PlipcoreDev cfg)} {r : PlipRequest} (io : Io cfg)
    (h : ipcoreFindDevice devs r.id = ipcoreFindDevice devs' r.id) :
    plipdevIoctl devs r io = plipdevIoctl devs' r io := by
  unfold plipdevIoctl
  rw [h]

/-- A request for a device that is not registered returns an error. -/
theorem plipdevIoctl_none {devs : List (PlipcoreDev cfg)} {r : PlipRequest} (io : Io cfg)
    (hreg : r.forRegister = true) (h : ipcoreFindDevice devs r.id = none) :
    plipdevIoctl devs r io = ((-1, r.iocReg), io) := by
  unfold plipdevIoctl
  rw [h]
  by_cases hread : r.cmd = rruIocRegRead
  · simp [hread]
  · have hwrite : r.cmd = rruIocRegWrite := by
      simpa [PlipRequest.forRegister, hread] using hreg
    simp [hwrite]

/-- The next entry of a list is the one behind. -/
theorem nextEntry_append {d : Nat} {before rest : List Nat} (h : d ∉ before) :
    nextEntry d (before ++ d :: rest) = rest.head? := by
  induction before with
  | nil => simp [nextEntry]
  | cons x before ih =>
    have hne : d ≠ x := List.ne_of_not_mem_cons h
    simp only [List.cons_append, nextEntry]
    rw [if_neg hne.symm]
    exact ih (List.not_mem_of_not_mem_cons h)

namespace PlipSys

variable {s : PlipSys cfg} {req : PlipRequest}

/-- From the callback on. -/
theorem alone_check {d : Nat} (n : Nat) (hreg : req.forRegister = true) (hlive : s.freed d = false)
    (hmapped : s.Mapped d) {devs : List (PlipcoreDev cfg)}
    (hfind : ipcoreFindDevice devs req.id = some (s.dev d)) :
    PlipCall.alone (n + 3) s ⟨req, .check d⟩ = some (plipdevIoctl devs req s.io) := by
  have hmapped : isErr (s.dev d).data = false := hmapped
  by_cases hread : req.cmd = rruIocRegRead
  · cases hset : (s.dev d).read with
    | false => simp [PlipCall.alone, PlipCall.run, plipdevIoctl, PlipRequest.callback, hlive, hfind,
        hread, hset]
    | true =>
      cases hcopy : req.copyToUserOk <;>
        simp [PlipCall.alone, PlipCall.run, plipdevIoctl, PlipRequest.callback, hlive, hfind, hread,
          hset, hmapped, hcopy, ipCoreRead, ioread32]
  · have hwrite : req.cmd = rruIocRegWrite := by
      simpa [PlipRequest.forRegister, hread] using hreg
    cases hset : (s.dev d).write with
    | false => simp [PlipCall.alone, PlipCall.run, plipdevIoctl, PlipRequest.callback, hlive, hfind,
        hwrite, hset]
    | true => simp [PlipCall.alone, PlipCall.run, plipdevIoctl, PlipRequest.callback, hlive, hfind,
        hwrite, hset, hmapped, ipCoreWrite, iowrite32]

/-- The search, from a device on. -/
theorem alone_find (hinv : s.ListInv) (hreg : req.forRegister = true) (rest : List Nat)
    {before : List Nat} {d : Nat} (hlist : s.plipDevList = before ++ d :: rest) :
    PlipCall.alone (rest.length + 4) s ⟨req, .find d⟩ =
      some (plipdevIoctl ((d :: rest).map s.dev) req s.io) := by
  have hd : d ∈ s.plipDevList := by
    rw [hlist]
    simp
  have hlive := hinv.live d hd
  by_cases hid : (s.dev d).id = req.id
  · have hfind : ipcoreFindDevice ((d :: rest).map s.dev) req.id = some (s.dev d) := by
      simp [ipcoreFindDevice, hid]
    rw [← alone_check rest.length hreg hlive (hinv.mapped d hd) hfind]
    simp [PlipCall.alone, PlipCall.run, hlive, hid]
  · have hnodup : s.plipDevList.Nodup := hinv.sorted.imp fun hlt => hlt.ne
    have hnext : nextEntry d s.plipDevList = rest.head? := by
      rw [hlist] at hnodup ⊢
      apply nextEntry_append
      intro hmem
      exact (List.nodup_append.mp hnodup).2.2 d hmem d List.mem_cons_self rfl
    cases rest with
    | nil =>
      have hnone : ipcoreFindDevice ([d].map s.dev) req.id = none := by
        simp [ipcoreFindDevice, hid]
      rw [plipdevIoctl_none s.io hreg hnone]
      simp [PlipCall.alone, PlipCall.run, hlive, hid, hd, hnext]
    | cons e rest =>
      have hlist' : s.plipDevList = (before ++ [d]) ++ e :: rest := by
        rw [hlist, List.append_assoc]
        rfl
      have hskip : plipdevIoctl ((d :: e :: rest).map s.dev) req s.io =
          plipdevIoctl ((e :: rest).map s.dev) req s.io := by
        apply plipdevIoctl_congr
        simp [ipcoreFindDevice, hid]
      rw [hskip, ← alone_find hinv hreg rest hlist']
      simp [PlipCall.alone, PlipCall.run, hlive, hid, hd, hnext]

/-- **A request that nothing interrupts** is one `plipdev_ioctl` on the registered devices. -/
theorem alone_eq_plipdevIoctl (hinv : s.ListInv) (hready : s.headReady = true)
    (hreg : req.forRegister = true) :
    PlipCall.alone (s.plipDevList.length + 4) s ⟨req, .start⟩ =
      some (plipdevIoctl (s.plipDevList.map s.dev) req s.io) := by
  have hcmd : req.cmd = rruIocRegRead ∨ req.cmd = rruIocRegWrite := by
    simpa [PlipRequest.forRegister] using hreg
  cases hlist : s.plipDevList with
  | nil =>
    have hnone : ipcoreFindDevice (List.map s.dev []) req.id = none := rfl
    rw [plipdevIoctl_none s.io hreg hnone]
    simp [PlipCall.alone, PlipCall.run, hready, hlist, hcmd]
  | cons d rest =>
    have hall : s.plipDevList = [] ++ d :: rest := hlist
    have hfind := alone_find hinv hreg rest hall
    rw [← hfind]
    simp [PlipCall.alone, PlipCall.run, hready, hlist, hcmd]

end PlipSys

end PetalinuxDriver
