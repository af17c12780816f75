import PetalinuxDriver.Model.CharModules

/-!
# What the modules leave from one load to the next

Every load that gets its private struct leaves something. `kept` says what stays of a load for good
and `more` what a loaded module holds on top of it, and `held_after_sessions` that after any
sequence of loads and unloads these are exactly what is held: nothing is given back twice, and
nothing else is lost.

`plipdev_exit` and `egModule_exit` leave the class. While a class has its name no other one gets it,
so the first load that creates a class is the last one, and only its device node is ever created,
however many later loads return zero (`device_created_once`).
-/

set_option autoImplicit false

namespace PetalinuxDriver

open Library LedgerEntry

/-! ## What a load leaves -/

/-- The functions of the kernel return zero or a negative number. -/
def CharAct.Documented : CharAct → Prop
  | .load env => env.allocChrdevRegion ≤ 0 ∧ env.platformDriverRegister ≤ 0
  | .unload => True

namespace CharInitEnv

/-- The init function gives up before `cdev_init`, with the private struct in hand. -/
def fails (env : CharInitEnv) : Bool :=
  decide (env.allocChrdevRegion ≠ 0 ∨ env.classCreate = .null ∨
    (env.classCreate = .object ∧ env.deviceCreate = .null))

/-- There is a device for the number of the module. -/
def creates (env : CharInitEnv) : Bool :=
  decide (env.classCreate = .object ∧ env.deviceCreate = .object)

end CharInitEnv

/-- A class, when it was created, and a device in it. -/
def classNodes (cl : KernelPtr) (device : Bool) : List CharResource :=
  (if cl = .object then [.cl] else []) ++ (if device then [.device] else [])

/-- A character device with its class. -/
def chardev (cl : KernelPtr) (device : Bool) : List CharResource :=
  [.priv, .chrdevRegion] ++ classNodes cl device ++ [.cdev]

namespace CharDriver

/-- What stays of a load that came to its end, when the module is not loaded any more. -/
def stays (d : CharDriver) (cl : KernelPtr) (device : Bool) : List CharResource :=
  match d with
  | .vxdmaDev | .vxhls => [.priv]
  | .plipdev => classNodes cl device
  | .egModule => chardev cl device

/-- What the module holds on top of that as long as it is loaded. -/
def holds (d : CharDriver) (cl : KernelPtr) (device : Bool) : List CharResource :=
  match d with
  | .vxdmaDev | .vxhls => [.chrdevRegion] ++ classNodes cl device ++ [.cdev]
  | .plipdev => [.priv, .chrdevRegion, .cdev]
  | .egModule => [.platformDriver]

/-- What stays of an action. -/
def kept (d : CharDriver) : CharAct → List CharResource
  | .load env =>
    if !env.kzallocOk then []
    else if env.fails then [.priv]
    else d.stays env.classCreate env.creates
  | .unload => []

/-- What a loaded module holds besides what stays. -/
def more (d : CharDriver) (m : CharModule) : List CharResource :=
  if m.loaded then d.holds m.cl m.device else []

end CharDriver

/-! ## The init functions -/

/-- How the common part of the init functions ends. -/
inductive CharInitOutcome (env : CharInitEnv) (m : CharModule) : CharModule × Int → Prop
  /-- There is no private struct. -/
  | refused (hkzalloc : env.kzallocOk = false) : CharInitOutcome env m (m, -enomem)
  /-- It gives back what it took, except for the private struct. -/
  | failed (m' : CharModule) (rc : Int) (rs : List CharResource) (hkzalloc : env.kzallocOk = true)
      (hfails : env.fails = true) (hrc : rc < 0) (hrs : .device ∉ rs)
      (hledger : m'.ledger =
        m.ledger ++ .acquire .priv :: (rs.map acquire ++ rs.reverse.map release)) :
      CharInitOutcome env m (m', rc)
  | up (m' : CharModule) (hkzalloc : env.kzallocOk = true) (hfails : env.fails = false)
      (hpriv : m'.priv = true) (hcl : m'.cl = env.classCreate) (hdevice : m'.device = env.creates)
      (hledger : m'.ledger = m.ledger ++ (chardev env.classCreate env.creates).map acquire) :
      CharInitOutcome env m (m', 0)

/-- **How the common part of the init functions ends**, for one that tells zero from a negative
number. -/
theorem charInit_outcome {failed : Int → Bool} (hfailed : ∀ rc ≤ 0, failed rc = true ↔ rc ≠ 0)
    {env : CharInitEnv} (hregion : env.allocChrdevRegion ≤ 0) {m : CharModule}
    (hdevice : m.device = false) : CharInitOutcome env m (charInit failed env m) := by
  unfold charInit
  cases hkzalloc : env.kzallocOk with
  | false => exact .refused hkzalloc
  | true =>
    simp only [Bool.not_true, Bool.false_eq_true, if_false]
    by_cases hrc : env.allocChrdevRegion = 0
    · have hok : failed env.allocChrdevRegion = false := by
        rw [Bool.eq_false_iff]
        intro hfail
        exact (hfailed _ hregion).mp hfail hrc
      simp only [hok, Bool.false_eq_true, if_false, charInitClass, CharModule.classCreate]
      cases hclass : env.classCreate with
      | null =>
        refine .failed _ _ [.chrdevRegion] hkzalloc ?_ (by decide) (by decide) ?_
        · simp [CharInitEnv.fails, hclass]
        · simp [CharModule.enter]
      | err =>
        simp only [CharModule.enter, reduceCtorEq, if_false, charInitDevice,
          CharModule.deviceCreate]
        refine .up _ hkzalloc ?_ rfl ?_ ?_ ?_
        · simp [CharInitEnv.fails, hclass, hrc]
        · exact hclass.symm
        · simp [CharInitEnv.creates, hclass, hdevice]
        · simp [chardev, classNodes, CharInitEnv.creates, hclass]
      | object =>
        simp only [CharModule.enter, reduceCtorEq, if_false, charInitDevice,
          CharModule.deviceCreate]
        cases hcreate : env.deviceCreate with
        | null =>
          refine .failed _ _ [.chrdevRegion, .cl] hkzalloc ?_ (by decide) (by decide) ?_
          · simp [CharInitEnv.fails, hclass, hcreate]
          · simp [CharModule.classDestroy, CharModule.enter]
        | err =>
          refine .up _ hkzalloc ?_ rfl hclass.symm ?_ ?_
          · simp [CharInitEnv.fails, hclass, hrc, hcreate]
          · simp [CharInitEnv.creates, hcreate, hdevice]
          · simp [chardev, classNodes, CharInitEnv.creates, hclass, hcreate]
        | object =>
          refine .up _ hkzalloc ?_ rfl hclass.symm ?_ ?_
          · simp [CharInitEnv.fails, hclass, hrc, hcreate]
          · simp [CharInitEnv.creates, hclass, hcreate]
          · simp [chardev, classNodes, CharInitEnv.creates, hclass, hcreate]
    · have hfail : failed env.allocChrdevRegion = true := (hfailed _ hregion).mpr hrc
      simp only [hfail, if_true]
      refine .failed _ _ [] hkzalloc ?_ (by omega) (by decide) ?_
      · simp [CharInitEnv.fails, hrc]
      · simp [CharModule.enter]

/-! ## Accounts -/

/-- Only the ledger of a module stays when it is unloaded. -/
@[simp] theorem CharModule.unloaded_ledger (log : List (LedgerEntry CharResource)) :
    (CharModule.unloaded log).ledger = log := rfl

section Load

variable {env : CharInitEnv} {log : List (LedgerEntry CharResource)} {base : List CharResource}
  {m : CharModule} {rc : Int}

/-- What the common part of the init functions leaves. -/
theorem charInit_held {failed : Int → Bool} (hfailed : ∀ rc ≤ 0, failed rc = true ↔ rc ≠ 0)
    (hregion : env.allocChrdevRegion ≤ 0) (hheld : replay 0 log = some ↑base)
    (h : charInit failed env (.unloaded log) = (m, rc)) :
    (rc < 0 ∧ (env.kzallocOk = false ∨ env.fails = true) ∧
        replay 0 m.ledger =
          some ↑(base ++ if env.kzallocOk then [CharResource.priv] else [])) ∨
      (rc = 0 ∧ env.kzallocOk = true ∧ env.fails = false ∧ m.priv = true ∧
        m.cl = env.classCreate ∧ m.device = env.creates ∧
        replay 0 m.ledger = some ↑(base ++ chardev m.cl m.device)) := by
  have houtcome := charInit_outcome hfailed hregion (m := .unloaded log) rfl
  rw [h] at houtcome
  cases houtcome with
  | refused hkzalloc =>
    refine Or.inl ⟨by decide, Or.inl hkzalloc, ?_⟩
    simpa [hkzalloc] using hheld
  | failed _ _ rs hkzalloc hfails hrc _ hledger =>
    have hpriv := replay_snoc_acquire hheld .priv
    refine Or.inl ⟨hrc, Or.inr hfails, ?_⟩
    rw [hledger, List.append_cons, replay_append]
    rw [CharModule.unloaded_ledger, hpriv, Option.bind_some, replay_unwound, if_pos hkzalloc,
      Multiset.cons_coe, Option.some_inj, Multiset.coe_eq_coe]
    exact (List.perm_append_singleton _ _).symm
  | up _ hkzalloc hfails hpriv hcl hdevice hledger =>
    refine Or.inr ⟨rfl, hkzalloc, hfails, hpriv, hcl, hdevice, ?_⟩
    rw [hledger, replay_append]
    rw [CharModule.unloaded_ledger, hheld, Option.bind_some, replay_acquires, hcl, hdevice,
      Multiset.coe_add]

/-- Some of the init functions test for a number other than zero. -/
theorem region_ne_zero_iff (rc : Int) (_ : rc ≤ 0) : (rc != 0) = true ↔ rc ≠ 0 := by simp

/-- Some of the init functions test for a negative number. -/
theorem region_lt_zero_iff (rc : Int) (hrc : rc ≤ 0) : decide (rc < 0) = true ↔ rc ≠ 0 := by
  rw [decide_eq_true_eq]
  omega

/-- A failed init keeps the private struct, when it has one. -/
theorem CharDriver.kept_of_failed (d : CharDriver)
    (hfail : env.kzallocOk = false ∨ env.fails = true) :
    d.kept (.load env) = if env.kzallocOk then [.priv] else [] := by
  cases hkzalloc : env.kzallocOk with
  | false => simp [CharDriver.kept, hkzalloc]
  | true =>
    have hfails : env.fails = true := hfail.resolve_left (by simp [hkzalloc])
    simp [CharDriver.kept, hkzalloc, hfails]

/-- What stays of a load that came to its end. -/
theorem CharDriver.kept_of_ended (d : CharDriver) (hkzalloc : env.kzallocOk = true)
    (hfails : env.fails = false) (hcl : m.cl = env.classCreate) (hdevice : m.device = env.creates) :
    d.kept (.load env) = d.stays m.cl m.device := by
  simp [CharDriver.kept, hkzalloc, hfails, hcl, hdevice]

/-- What is left by an init function that is no more than the common part. -/
theorem common_held (d : CharDriver) {failed : Int → Bool}
    (hfailed : ∀ rc ≤ 0, failed rc = true ↔ rc ≠ 0)
    (hsplit : ∀ cl device, (chardev cl device).Perm (d.stays cl device ++ d.holds cl device))
    (hregion : env.allocChrdevRegion ≤ 0) (hheld : replay 0 log = some ↑base)
    (h : charInit failed env (.unloaded log) = (m, rc)) :
    (rc < 0 ∧ replay 0 m.ledger = some ↑(base ++ d.kept (.load env))) ∨
      (rc = 0 ∧ m.priv = true ∧
        replay 0 m.ledger = some ↑(base ++ (d.kept (.load env) ++ d.holds m.cl m.device))) := by
  rcases charInit_held hfailed hregion hheld h with
    ⟨hrc, hfail, hleft⟩ | ⟨hrc, hkzalloc, hfails, hpriv, hcl, hdevice, hleft⟩
  · refine Or.inl ⟨hrc, ?_⟩
    rw [d.kept_of_failed hfail]
    exact hleft
  · refine Or.inr ⟨hrc, hpriv, ?_⟩
    rw [d.kept_of_ended hkzalloc hfails hcl hdevice, hleft, Option.some_inj, Multiset.coe_eq_coe]
    exact (hsplit m.cl m.device).append_left base

/-- **What an init function leaves.** -/
theorem init_held (d : CharDriver) (hdoc : (CharAct.load env).Documented)
    (hheld : replay 0 log = some ↑base) (h : d.init env (.unloaded log) = (m, rc)) :
    (rc < 0 ∧ replay 0 m.ledger = some ↑(base ++ d.kept (.load env))) ∨
      (rc = 0 ∧ m.priv = true ∧
        replay 0 m.ledger = some ↑(base ++ (d.kept (.load env) ++ d.holds m.cl m.device))) := by
  cases d with
  | vxdmaDev =>
    refine common_held .vxdmaDev region_ne_zero_iff (fun cl device => ?_) hdoc.1 hheld h
    exact List.Perm.refl _
  | vxhls =>
    refine common_held .vxhls region_ne_zero_iff (fun cl device => ?_) hdoc.1 hheld h
    exact List.Perm.refl _
  | plipdev =>
    refine common_held .plipdev region_lt_zero_iff (fun cl device => ?_) hdoc.1 hheld h
    -- the class and the device move to the front
    have hfront : ([.priv, .chrdevRegion] ++ classNodes cl device : List CharResource).Perm
        (classNodes cl device ++ [.priv, .chrdevRegion]) := List.perm_append_comm
    have hall := hfront.append_right [CharResource.cdev]
    rwa [List.append_assoc (classNodes cl device)] at hall
  | egModule =>
    change egModuleInit env (.unloaded log) = (m, rc) at h
    unfold egModuleInit at h
    cases hrun : charInit (fun rc => decide (rc < 0)) env (.unloaded log) with
    | mk m₁ rc₁ =>
      rw [hrun] at h
      rcases charInit_held region_lt_zero_iff hdoc.1 hheld hrun with
        ⟨hrc, hfail, hleft⟩ | ⟨rfl, hkzalloc, hfails, hpriv, hcl, hdevice, hleft⟩
      · split at h
        · rename_i m₂ heq
          cases heq
          omega
        · rename_i m₂ rc₂ hne heq
          cases heq
          cases h
          refine Or.inl ⟨hrc, ?_⟩
          rw [CharDriver.egModule.kept_of_failed hfail]
          exact hleft
      · -- the driver is registered, or everything stays
        have hkept := CharDriver.egModule.kept_of_ended hkzalloc hfails hcl hdevice
        simp only at h
        by_cases hregister : env.platformDriverRegister = 0
        · rw [if_pos hregister, hregister] at h
          cases h
          refine Or.inr ⟨rfl, hpriv, ?_⟩
          have hdriver := replay_snoc_acquire hleft .platformDriver
          change replay 0 (m₁.ledger ++ _) = _
          rw [hdriver, hkept, Multiset.cons_coe, Option.some_inj, Multiset.coe_eq_coe,
            ← List.append_assoc]
          exact (List.perm_append_singleton _ _).symm
        · rw [if_neg hregister] at h
          cases h
          have hle := hdoc.2
          refine Or.inl ⟨by omega, ?_⟩
          rw [hkept]
          exact hleft

end Load

/-! ## The exit functions -/

/-- The common part of the exit functions gives back all but the private struct. -/
theorem charExit_ledger {m m' : CharModule} (h : charExit m = some m') :
    ∃ rs : List CharResource,
      rs.Perm ([.chrdevRegion] ++ classNodes m.cl m.device ++ [.cdev]) ∧
        m'.ledger = m.ledger ++ rs.map release := by
  unfold charExit CharModule.deviceDestroy at h
  cases hcl : m.cl with
  | null => simp [CharModule.enter, hcl] at h
  | err => simp [CharModule.enter, hcl] at h
  | object =>
    cases hdevice : m.device with
    | false =>
      simp only [CharModule.enter, hcl, hdevice, Bool.false_eq_true, if_false,
        CharModule.classDestroy, Option.some.injEq] at h
      refine ⟨[.cdev, .cl, .chrdevRegion], ?_, ?_⟩
      · simp only [classNodes, if_true, Bool.false_eq_true, if_false]
        decide
      · simp [← h]
    | true =>
      simp only [CharModule.enter, hcl, hdevice, if_true, CharModule.classDestroy,
        Option.some.injEq] at h
      refine ⟨[.cdev, .device, .cl, .chrdevRegion], ?_, ?_⟩
      · simp only [classNodes, if_true]
        decide
      · simp [← h]

/-- **What an exit function gives back**: what the loaded module holds. -/
theorem exit_ledger (d : CharDriver) {m m' : CharModule} (hpriv : m.priv = true)
    (h : d.exit m = some m') :
    ∃ rs : List CharResource, rs.Perm (d.holds m.cl m.device) ∧
      m'.ledger = m.ledger ++ rs.map release := by
  cases d with
  | vxdmaDev => exact charExit_ledger h
  | vxhls => exact charExit_ledger h
  | plipdev =>
    simp only [CharDriver.exit, plipdevExit, hpriv, Bool.not_true, Bool.false_eq_true, if_false,
      Option.some.injEq] at h
    have hperm : ([.cdev, .chrdevRegion, .priv] : List CharResource).Perm
        [.priv, .chrdevRegion, .cdev] := by decide
    refine ⟨[.cdev, .chrdevRegion, .priv], hperm, ?_⟩
    simp [← h, CharModule.enter]
  | egModule =>
    simp only [CharDriver.exit, egModuleExit, Option.some.injEq] at h
    refine ⟨[.platformDriver], List.Perm.refl _, ?_⟩
    simp [← h, CharModule.enter]

/-! ## Sequences -/

/-- What is held is `base` and what the loaded module holds on top of it. -/
structure CharDriver.Account (d : CharDriver) (base : List CharResource) (m : CharModule) :
    Prop where
  held : replay 0 m.ledger = some ↑(base ++ d.more m)
  priv : m.loaded = true → m.priv = true

/-- One action. -/
theorem CharDriver.Account.step {d : CharDriver} {base : List CharResource} {m m' : CharModule}
    {a : CharAct} (hm : d.Account base m) (hdoc : a.Documented) (h : d.step m a = some m') :
    d.Account (base ++ d.kept a) m' := by
  cases a with
  | load env =>
    simp only [CharDriver.step] at h
    split at h
    · cases h
    · rename_i hloaded
      have hheld := hm.held
      rw [CharDriver.more, if_neg hloaded, List.append_nil] at hheld
      cases hinit : d.init env (.unloaded m.ledger) with
      | mk m₁ rc =>
        rw [hinit] at h
        cases h
        rcases init_held d hdoc hheld hinit with ⟨hrc, hleft⟩ | ⟨rfl, hpriv, hleft⟩
        · have hnot : ¬ 0 ≤ rc := by omega
          refine ⟨?_, ?_⟩
          · simpa [CharDriver.more, hnot] using hleft
          · simp [hnot]
        · refine ⟨?_, fun _ => hpriv⟩
          simpa [CharDriver.more] using hleft
  | unload =>
    simp only [CharDriver.step] at h
    split at h
    · rename_i hloaded
      obtain ⟨m₁, hexit, rfl⟩ := Option.map_eq_some_iff.mp h
      obtain ⟨rs, hperm, hledger⟩ := exit_ledger d (hm.priv hloaded) hexit
      have hheld := hm.held
      rw [CharDriver.more, if_pos hloaded] at hheld
      have hsplit : (↑(base ++ d.holds m.cl m.device) : Multiset CharResource) = ↑rs + ↑base := by
        rw [Multiset.coe_add, Multiset.coe_eq_coe]
        exact List.perm_append_comm.trans (hperm.symm.append_right base)
      refine ⟨?_, by simp⟩
      change replay 0 m₁.ledger = _
      rw [hledger, replay_append, hheld, Option.bind_some, hsplit, replay_releases_add]
      simp [CharDriver.more, CharDriver.kept]
    · cases h

/-- A sequence of actions. -/
theorem CharDriver.Account.exec {d : CharDriver} {base : List CharResource} {m m' : CharModule}
    {acts : List CharAct} (hm : d.Account base m) (hdoc : ∀ a ∈ acts, a.Documented)
    (h : Library.exec d.step m acts = some m') : d.Account (base ++ acts.flatMap d.kept) m' := by
  induction acts generalizing base m with
  | nil =>
    cases h
    simpa using hm
  | cons a acts ih =>
    obtain ⟨m₁, h₁, h₂⟩ := Option.bind_eq_some_iff.mp h
    have hfirst := hm.step (hdoc a List.mem_cons_self) h₁
    have hrest := ih hfirst (fun b hb => hdoc b (List.mem_cons_of_mem a hb)) h₂
    rwa [List.append_assoc, ← List.flatMap_cons] at hrest

/-- **What the modules leave.** For each of the four modules and every sequence of loads and
unloads, however the kernel answers: nothing is released that is not held, and what is held in the
end is what stays of each load, and what the module holds on top of that if it is loaded. -/
theorem held_after_sessions (d : CharDriver) {acts : List CharAct} {m : CharModule}
    (hdoc : ∀ a ∈ acts, a.Documented) (h : exec d.step (.unloaded []) acts = some m) :
    replay 0 m.ledger = some ↑(acts.flatMap d.kept ++ d.more m) := by
  have hstart : d.Account [] (.unloaded []) := ⟨rfl, fun hloaded => by cases hloaded⟩
  exact (hstart.exec hdoc h).held

/-- Two loads of the platform device come to their end, one of them without a class. -/
def twoLoads : List CharAct :=
  [.load ⟨true, 0, .object, .object, 0⟩, .unload, .load ⟨true, 0, .err, .err, 0⟩, .unload]

/-- Class and device stay of the first load, and the second has neither. -/
theorem held_after_sessions_twoLoads :
    ∃ m, exec CharDriver.plipdev.step (.unloaded []) twoLoads = some m ∧
      twoLoads.flatMap CharDriver.plipdev.kept ++ CharDriver.plipdev.more m = [.cl, .device] ∧
      replay 0 m.ledger =
        some ↑(twoLoads.flatMap CharDriver.plipdev.kept ++ CharDriver.plipdev.more m) := by
  have hexec : (exec CharDriver.plipdev.step (.unloaded []) twoLoads).map CharDriver.plipdev.more =
      some [] := by
    decide
  obtain ⟨m, hm, hmore⟩ := Option.map_eq_some_iff.mp hexec
  have hdoc : ∀ a ∈ twoLoads, a.Documented := by simp [twoLoads, CharAct.Documented]
  have hkept : twoLoads.flatMap CharDriver.plipdev.kept = [.cl, .device] := by decide
  refine ⟨m, hm, ?_, held_after_sessions .plipdev hdoc hm⟩
  rw [hkept, hmore, List.append_nil]

/-! ## One device node -/

/-- A class has the name that the module asks for. -/
def CharModule.classRegistered (m : CharModule) : Prop :=
  ∃ held, replay 0 m.ledger = some held ∧ .cl ∈ held

/-- The kernel as documented; `class_create` returns no class while another one has its name. -/
def CharModule.KernelOk (m : CharModule) : CharAct → Prop
  | .load env =>
    (CharAct.load env).Documented ∧ (env.classCreate = .object → ¬ m.classRegistered)
  | .unload => True

/-- A kernel that keeps names apart keeps to its documentation. -/
theorem CharModule.KernelOk.documented {m : CharModule} {a : CharAct} (h : m.KernelOk a) :
    a.Documented := by
  cases a with
  | load env => exact h.1
  | unload => trivial

/-- The exit function of the module leaves the class. -/
def CharDriver.leavesClass : CharDriver → Bool
  | .vxdmaDev | .vxhls => false
  | .plipdev | .egModule => true

section LeavesClass

variable {d : CharDriver} {m m' : CharModule} {a : CharAct} {base : List CharResource}

/-- No init function destroys a device. -/
theorem charInit_device_notMem {failed : Int → Bool} {env : CharInitEnv} {rc : Int}
    {log : List (LedgerEntry CharResource)} (hfailed : ∀ rc ≤ 0, failed rc = true ↔ rc ≠ 0)
    (hregion : env.allocChrdevRegion ≤ 0) (hlog : release .device ∉ log)
    (h : charInit failed env (.unloaded log) = (m, rc)) : release .device ∉ m.ledger := by
  have houtcome := charInit_outcome hfailed hregion (m := .unloaded log) rfl
  rw [h] at houtcome
  cases houtcome with
  | refused hkzalloc => exact hlog
  | failed _ _ rs hkzalloc hfails hrc hrs hledger =>
    rw [hledger]
    simp [hlog, hrs]
  | up _ hkzalloc hfails hpriv hcl hdevice hledger =>
    rw [hledger]
    simp [hlog]

/-- No function of such a module releases the device. -/
theorem step_device_notMem (hd : d.leavesClass = true) (hm : d.Account base m)
    (hdoc : a.Documented) (hnot : release .device ∉ m.ledger) (h : d.step m a = some m') :
    release .device ∉ m'.ledger := by
  cases a with
  | load env =>
    simp only [CharDriver.step] at h
    split at h
    · cases h
    · cases h
      change release .device ∉ (d.init env (.unloaded m.ledger)).1.ledger
      cases d with
      | vxdmaDev => cases hd
      | vxhls => cases hd
      | plipdev => exact charInit_device_notMem region_lt_zero_iff hdoc.1 hnot rfl
      | egModule =>
        change release .device ∉ (egModuleInit env (.unloaded m.ledger)).1.ledger
        unfold egModuleInit
        cases hrun : charInit (fun rc => decide (rc < 0)) env (.unloaded m.ledger) with
        | mk m₁ rc =>
          have hfirst := charInit_device_notMem region_lt_zero_iff hdoc.1 hnot hrun
          split
          · rename_i m₂ heq
            cases heq
            dsimp only
            split
            · simpa [CharModule.enter] using hfirst
            · exact hfirst
          · rename_i m₂ rc₂ hne heq
            cases heq
            exact hfirst
  | unload =>
    simp only [CharDriver.step] at h
    split at h
    · rename_i hloaded
      obtain ⟨m₁, hexit, rfl⟩ := Option.map_eq_some_iff.mp h
      obtain ⟨rs, hperm, hledger⟩ := exit_ledger d (hm.priv hloaded) hexit
      have hrs : .device ∉ rs := by
        rw [hperm.mem_iff]
        cases d with
        | vxdmaDev => cases hd
        | vxhls => cases hd
        | plipdev => simp [CharDriver.holds]
        | egModule => simp [CharDriver.holds]
      change release .device ∉ m₁.ledger
      rw [hledger]
      simp [hnot, hrs]
    · cases h

/-- A class node and a device node at most. -/
theorem count_classNodes (cl : KernelPtr) (device : Bool) :
    (classNodes cl device).count .cl = (if cl = .object then 1 else 0) ∧
      (classNodes cl device).count .device = if device then 1 else 0 := by
  cases cl <;> cases device <;> decide

/-- What stays of a load has one class at most, if one was created, and no device without it. -/
theorem count_kept (hd : d.leavesClass = true) (env : CharInitEnv) :
    (d.kept (.load env)).count .device ≤ (d.kept (.load env)).count .cl ∧
      (d.kept (.load env)).count .cl ≤ if env.classCreate = .object then 1 else 0 := by
  have hcreates : env.creates = true → env.classCreate = .object := by
    intro h
    exact (of_decide_eq_true h).1
  have hnodes := count_classNodes env.classCreate env.creates
  have hdevice : (classNodes env.classCreate env.creates).count .device ≤
      (classNodes env.classCreate env.creates).count .cl := by
    rw [hnodes.1, hnodes.2]
    cases hc : env.creates with
    | false => simp
    | true => simp [hcreates hc]
  simp only [CharDriver.kept]
  split
  · simp
  · split
    · simp
    · cases d with
      | vxdmaDev => cases hd
      | vxhls => cases hd
      | plipdev => exact ⟨hdevice, hnodes.1.le⟩
      | egModule =>
        simp only [CharDriver.stays, chardev, List.count_append]
        exact ⟨by simpa using hdevice, by simpa using hnodes.1.le⟩

/-- What is held of a module that leaves its class. -/
structure OneNode (d : CharDriver) (m : CharModule) : Prop where
  account : ∃ base : List CharResource, d.Account base m ∧ base.count .cl ≤ 1 ∧
    base.count .device ≤ base.count .cl
  kept : release .device ∉ m.ledger

/-- What a loaded module holds on top has neither. -/
theorem count_more (hd : d.leavesClass = true) (m : CharModule) :
    (d.more m).count .cl = 0 ∧ (d.more m).count .device = 0 := by
  unfold CharDriver.more
  split
  · cases d with
    | vxdmaDev => cases hd
    | vxhls => cases hd
    | plipdev => simp [CharDriver.holds]
    | egModule => simp [CharDriver.holds]
  · simp

/-- One action. -/
theorem OneNode.step (hd : d.leavesClass = true) (hm : OneNode d m) (hok : m.KernelOk a)
    (h : d.step m a = some m') : OneNode d m' := by
  obtain ⟨base, haccount, hcl, hdevice⟩ := hm.account
  refine ⟨⟨base ++ d.kept a, haccount.step hok.documented h, ?_⟩,
    step_device_notMem hd haccount hok.documented hm.kept h⟩
  cases a with
  | unload => simpa [CharDriver.kept] using ⟨hcl, hdevice⟩
  | load env =>
    obtain ⟨hle, hone⟩ := count_kept hd env
    rw [List.count_append, List.count_append]
    by_cases hclass : env.classCreate = .object
    · -- no class has the name yet
      have hnone : base.count .cl = 0 := by
        rw [List.count_eq_zero]
        intro hmem
        exact hok.2 hclass ⟨_, haccount.held, Multiset.mem_coe.mpr (List.mem_append_left _ hmem)⟩
      rw [if_pos hclass] at hone
      omega
    · rw [if_neg hclass] at hone
      omega

/-- No node is created twice, and none is destroyed. -/
theorem device_atMostOnce (hd : d.leavesClass = true)
    (h : Reachable d.step CharModule.KernelOk (.unloaded []) m) :
    m.ledger.count (acquire .device) ≤ 1 ∧ release .device ∉ m.ledger := by
  have hstart : OneNode d (.unloaded []) :=
    ⟨⟨[], ⟨rfl, fun hloaded => by cases hloaded⟩, by simp, by simp⟩, List.not_mem_nil⟩
  have hm : OneNode d m := h.invariant hstart fun _ _ _ hs hok hstep => hs.step hd hok hstep
  obtain ⟨base, haccount, hcl, hdevice⟩ := hm.account
  have hcount := replay_count haccount.held .device
  rw [Multiset.count_zero, Multiset.coe_count, List.count_append, (count_more hd m).2,
    List.count_eq_zero.mpr hm.kept] at hcount
  exact ⟨by omega, hm.kept⟩

/-- Before the first load no class has the name. -/
theorem not_classRegistered : ¬ (CharModule.unloaded []).classRegistered := by
  rintro ⟨held, hheld, hclass⟩
  cases hheld
  exact Multiset.notMem_zero _ hclass

/-- The number of loads so far that returned zero. -/
def zeroLoads (n : Nat) (_ : CharModule) (a : CharAct) (m : CharModule) : Nat :=
  match a with
  | .load _ => if m.loaded then n + 1 else n
  | .unload => n

/-- The kernel grants a class, or none because the name is taken, and everything else. -/
def grants (cl : KernelPtr) : CharInitEnv where
  kzallocOk := true
  allocChrdevRegion := 0
  classCreate := cl
  deviceCreate := cl
  platformDriverRegister := 0

/-- With such answers the common part of the init functions returns zero. -/
theorem charInit_grants {failed : Int → Bool} (hfailed : ∀ rc ≤ 0, failed rc = true ↔ rc ≠ 0)
    {cl : KernelPtr} (hcl : cl ≠ .null) (log : List (LedgerEntry CharResource)) :
    ∃ m, charInit failed (grants cl) (.unloaded log) = (m, 0) ∧ m.priv = true ∧
      m.ledger = log ++ (chardev cl (decide (cl = .object))).map acquire := by
  have hregion : (grants cl).allocChrdevRegion ≤ 0 := le_rfl
  have houtcome := charInit_outcome hfailed hregion (m := .unloaded log) rfl
  have hgoes : (grants cl).fails = false := by
    cases cl with
    | null => exact absurd rfl hcl
    | err => rfl
    | object => rfl
  cases hrun : charInit failed (grants cl) (.unloaded log) with
  | mk m rc =>
    rw [hrun] at houtcome
    cases houtcome with
    | refused hkzalloc => cases hkzalloc
    | failed _ _ rs _ hfails => exact absurd (hgoes.symm.trans hfails) Bool.false_ne_true
    | up _ _ _ hpriv _ _ hledger =>
      refine ⟨m, rfl, hpriv, hledger.trans ?_⟩
      cases cl <;> rfl

/-- A load that returns zero and an unload create a node when there is a class. -/
theorem session_returns_zero (hd : d.leavesClass = true) {cl : KernelPtr} (hcl : cl ≠ .null)
    (hunloaded : m.loaded = false) :
    ∃ m₁ m₂, d.step m (.load (grants cl)) = some m₁ ∧ m₁.loaded = true ∧
      d.step m₁ .unload = some m₂ ∧ m₂.loaded = false ∧
      m₂.ledger.count (acquire .device) =
        m.ledger.count (acquire .device) + if cl = .object then 1 else 0 := by
  obtain ⟨m₀, hinit, hpriv, hledger⟩ := charInit_grants region_lt_zero_iff hcl m.ledger
  have hnodes : ((chardev cl (decide (cl = .object))).map acquire).count (acquire .device) =
      if cl = .object then 1 else 0 := by
    cases cl <;> rfl
  cases d with
  | vxdmaDev => cases hd
  | vxhls => cases hd
  | plipdev =>
    have hload : CharDriver.plipdev.step m (.load (grants cl)) =
        some { m₀ with loaded := true } := by
      simp [CharDriver.step, hunloaded, CharDriver.init, plipdevInit, hinit]
    refine ⟨_, _, hload, rfl, by simp only [CharDriver.step, CharDriver.exit, plipdevExit, hpriv]; rfl,
      rfl, ?_⟩
    simp [CharModule.enter, hledger, ← hnodes]
  | egModule =>
    have hregister : (grants cl).platformDriverRegister = 0 := rfl
    have hload : CharDriver.egModule.step m (.load (grants cl)) =
        some { m₀.enter (.acquire .platformDriver) with loaded := true } := by
      simp [CharDriver.step, hunloaded, CharDriver.init, egModuleInit, hinit, hregister]
    refine ⟨_, _, hload, rfl, rfl, rfl, ?_⟩
    simp [CharModule.enter, hledger, ← hnodes]

/-- Such a session at the end of a run is one more load that returned zero. -/
theorem session_extends (hd : d.leavesClass = true) {cl : KernelPtr} (hcl : cl ≠ .null) {k : Nat}
    (hfree : cl = .object → ¬ m.classRegistered) (hunloaded : m.loaded = false)
    (hrun : Reachable (withGhost d.step zeroLoads) (fun mk a => mk.1.KernelOk a)
      (.unloaded [], 0) (m, k)) :
    ∃ m₂, Reachable (withGhost d.step zeroLoads) (fun mk a => mk.1.KernelOk a)
        (.unloaded [], 0) (m₂, k + 1) ∧ m₂.loaded = false ∧
      m₂.ledger.count (acquire .device) =
        m.ledger.count (acquire .device) + if cl = .object then 1 else 0 := by
  obtain ⟨m₁, m₂, hload, hup, hunload, hdown, hcount⟩ := session_returns_zero hd hcl hunloaded
  have hloaded : Reachable (withGhost d.step zeroLoads) (fun mk a => mk.1.KernelOk a)
      (.unloaded [], 0) (m₁, k + 1) :=
    hrun.tail (a := .load (grants cl)) ⟨⟨le_rfl, le_rfl⟩, hfree⟩
      (withGhost_eq_some.mpr ⟨hload, by simp [zeroLoads, hup]⟩)
  exact ⟨m₂, hloaded.tail (a := .unload) trivial (withGhost_eq_some.mpr ⟨hunload, rfl⟩), hdown,
    hcount⟩

/-- Sessions in which all loads return zero, as many as one likes, create the one node. -/
theorem zeroLoads_unbounded (hd : d.leavesClass = true) (n : Nat) :
    ∃ m, Reachable (withGhost d.step zeroLoads) (fun mk a => mk.1.KernelOk a)
        (.unloaded [], 0) (m, n + 1) ∧
      m.loaded = false ∧ m.ledger.count (acquire .device) = 1 := by
  induction n with
  | zero =>
    have hobject : KernelPtr.object ≠ .null := by decide
    exact session_extends hd hobject (fun _ => not_classRegistered) rfl (Reachable.refl _ _ _)
  | succ n ih =>
    -- The first session left its class, so the kernel refuses the name to every later one.
    obtain ⟨m, hrun, hunloaded, hone⟩ := ih
    have herr : KernelPtr.err ≠ .null := by decide
    obtain ⟨m₂, hrun₂, hdown, hcount⟩ :=
      session_extends hd herr (fun hclass => by cases hclass) hunloaded hrun
    exact ⟨m₂, hrun₂, hdown, hcount.trans hone⟩

/-- **A module that leaves its class gets one device node.** While a class has a name no other one
gets it, so after any sequence of loads and unloads of `plIpcore_dev.c` or of `intrDemo.c` at most
one device node was ever created, and none was destroyed. Yet any number of loads may have returned
zero. -/
theorem device_created_once (hd : d.leavesClass = true) :
    (∀ m, Reachable d.step CharModule.KernelOk (.unloaded []) m →
        m.ledger.count (acquire .device) ≤ 1 ∧ release .device ∉ m.ledger) ∧
      ∀ n, ∃ m, Reachable (withGhost d.step zeroLoads) (fun mk a => mk.1.KernelOk a)
        (.unloaded [], 0) (m, n + 1) ∧ m.ledger.count (acquire .device) = 1 := by
  refine ⟨fun m h => device_atMostOnce hd h, fun n => ?_⟩
  obtain ⟨m, hrun, -, hone⟩ := zeroLoads_unbounded hd n
  exact ⟨m, hrun, hone⟩

end LeavesClass

/-- `twoLoads` creates one node, and there are sessions with four loads that return zero. -/
theorem device_created_once_twoLoads :
    (∃ m, exec CharDriver.plipdev.step (.unloaded []) twoLoads = some m ∧
      m.ledger.count (acquire .device) ≤ 1 ∧ release .device ∉ m.ledger) ∧
    ∃ m, Reachable (withGhost CharDriver.plipdev.step zeroLoads) (fun mk a => mk.1.KernelOk a)
      (.unloaded [], 0) (m, 4) ∧ m.ledger.count (acquire .device) = 1 := by
  have hexec : (exec CharDriver.plipdev.step (.unloaded []) twoLoads).isSome = true := by decide
  obtain ⟨m, hm⟩ := Option.isSome_iff_exists.mp hexec
  have hok : ExecOk CharDriver.plipdev.step CharModule.KernelOk (.unloaded []) twoLoads := by
    refine ⟨⟨⟨le_rfl, le_rfl⟩, fun _ => not_classRegistered⟩, fun _ _ => ⟨trivial, fun _ _ => ?_⟩⟩
    refine ⟨⟨⟨le_rfl, le_rfl⟩, ?_⟩, fun _ _ => ⟨trivial, fun _ _ => trivial⟩⟩
    intro hclass
    cases hclass
  exact ⟨⟨m, hm, (device_created_once rfl).1 m (Reachable.of_exec hok hm)⟩,
    (device_created_once rfl).2 3⟩

end PetalinuxDriver
