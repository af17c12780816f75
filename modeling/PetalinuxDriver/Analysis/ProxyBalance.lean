import PetalinuxDriver.Model.ProxyInit

/-!
# What the proxy holds when its initialisation returns

`create_channel` gives nothing back when it fails, and `dma_proxy_init` does not undo the first
channel when the second one fails, so a failure leaves at least the DMA channel behind. A failure of
`device_create` is not even reported: `rc` is that of `cdev_add`, which was zero. What is left is
that the very first call fails, or that none does (`init_exit_balanced_exactly`).
-/

set_option autoImplicit false

namespace PetalinuxDriver

open Library LedgerEntry ProxyModule

/-! ## One character device -/

/-- What `cdevice_init` may enter into the ledger without creating a device. -/
def setupEntries (i : Fin channelCount) : List (LedgerEntry ProxyResource) :=
  [.acquire (.chrdevRegion i), .acquire (.cdev i), .acquire .cdevClass, .release .cdevClass,
    .release (.cdev i), .release (.chrdevRegion i)]

/-- All calls of `cdevice_init` succeed; `first` says that it creates the class. -/
def CreateEnv.DeviceOk (env : CreateEnv) (first : Bool) : Prop :=
  env.allocChrdevRegion = 0 ∧ env.cdevAdd = 0 ∧
    (first = true → env.classCreateOk = true ∧ env.dmaClassErr = false) ∧
    env.deviceCreateOk = true

/-- The first channel creates the class. -/
def classEntries (m : ProxyModule) : List (LedgerEntry ProxyResource) :=
  match m.localClassP with
  | .null => [.acquire .cdevClass]
  | _ => []

/-- The module after a `cdevice_init` in which every call succeeded. -/
def deviceCreated (i : Fin channelCount) (m : ProxyModule) : ProxyModule :=
  { m with
    channels := Function.update m.channels i
      { m.channels i with classP := .object, proxyDeviceP := .object }
    localClassP := .object
    classLive := true
    ledger := m.ledger ++ ([.acquire (.chrdevRegion i), .acquire (.cdev i)] ++
      classEntries m ++
      [.acquire (.deviceNode i)]) }

/-- How `cdevice_init` ends. -/
inductive DeviceOutcome (env : CreateEnv) (i : Fin channelCount) (m : ProxyModule) :
    Option (ProxyModule × Int) → Prop
  /-- It follows a pointer to a class that is gone. -/
  | wild : DeviceOutcome env i m none
  | failed (m' : ProxyModule) (rc : Int) (log : List (LedgerEntry ProxyResource)) (hrc : rc ≠ 0)
      (hledger : m'.ledger = m.ledger ++ log) (hlog : log ⊆ setupEntries i) :
      DeviceOutcome env i m (some (m', rc))
  /-- It returns zero without a device. -/
  | unreported (m' : ProxyModule) (log : List (LedgerEntry ProxyResource))
      (hledger : m'.ledger = m.ledger ++ log) (hlog : log ⊆ setupEntries i) :
      DeviceOutcome env i m (some (m', 0))
  | created (hok : env.DeviceOk (m.localClassP = .null)) :
      DeviceOutcome env i m (some (deviceCreated i m, 0))

/-- The ways through the creation of the class: the check behind it fails, the class is created or
is not, or there was one already. -/
theorem createClass_cases (env : CreateEnv) (m : ProxyModule) :
    (∃ m' log, createClass env m = (m', false) ∧ m'.ledger = m.ledger ++ log ∧
        log ⊆ [.acquire .cdevClass]) ∨
      (m.localClassP = .null ∧ env.classCreateOk = true ∧ env.dmaClassErr = false ∧
        createClass env m = ({ m.enter (.acquire .cdevClass) with
          localClassP := .object, classLive := true }, true)) ∨
      (m.localClassP = .null ∧ createClass env m = ({ m with localClassP := .err }, true)) ∨
      (m.localClassP ≠ .null ∧ createClass env m = (m, true)) := by
  unfold createClass
  cases hclass : m.localClassP with
  | null =>
    cases env.dmaClassErr with
    | true =>
      left
      cases env.classCreateOk with
      | true => exact ⟨_, [.acquire .cdevClass], rfl, rfl, List.Subset.refl _⟩
      | false => exact ⟨_, [], rfl, (List.append_nil _).symm, List.nil_subset _⟩
    | false =>
      right
      cases env.classCreateOk with
      | true => exact Or.inl ⟨rfl, rfl, rfl, rfl⟩
      | false => exact Or.inr (Or.inl ⟨rfl, rfl⟩)
  | err => exact Or.inr (Or.inr (Or.inr ⟨by decide, rfl⟩))
  | object => exact Or.inr (Or.inr (Or.inr ⟨by decide, rfl⟩))

/-- How `device_create` ends. -/
theorem deviceCreate_cases (env : CreateEnv) (i : Fin channelCount) (m : ProxyModule) :
    deviceCreate env i m = none ∨ deviceCreate env i m = some (m, .err) ∨
      ((m.channels i).classP = .object ∧ m.classLive = true ∧ env.deviceCreateOk = true ∧
        deviceCreate env i m = some (m.enter (.acquire (.deviceNode i)), .object)) := by
  unfold deviceCreate
  cases (m.channels i).classP with
  | null => exact Or.inr (Or.inl rfl)
  | err => exact Or.inr (Or.inl rfl)
  | object =>
    cases m.classLive with
    | false => exact Or.inl rfl
    | true =>
      cases env.deviceCreateOk with
      | false => exact Or.inr (Or.inl rfl)
      | true => exact Or.inr (Or.inr ⟨rfl, rfl, rfl, rfl⟩)

/-- What the second error path gives back. -/
theorem initError2_ledger (i : Fin channelCount) (m : ProxyModule) :
    (initError2 i m).ledger = m.ledger ++ [.release (.cdev i), .release (.chrdevRegion i)] := by
  simp [initError2, enter]

/-- A class is destroyed or it is not. -/
theorem classDestroy_ledger (p : KernelPtr) (m : ProxyModule) :
    ∃ log, (m.classDestroy p).ledger = m.ledger ++ log ∧ log ⊆ [.release .cdevClass] := by
  cases p with
  | object => exact ⟨_, rfl, List.Subset.refl _⟩
  | null => exact ⟨[], (List.append_nil _).symm, List.nil_subset _⟩
  | err => exact ⟨[], (List.append_nil _).symm, List.nil_subset _⟩

/-- The ways through the rest: the class is gone, there is no device, or all is well. -/
theorem createDevice_cases (env : CreateEnv) (i : Fin channelCount) (m : ProxyModule) :
    createDevice env i m = none ∨
      (∃ m' log, createDevice env i m = some (m', env.cdevAdd) ∧ m'.ledger = m.ledger ++ log ∧
        log ⊆ [.release .cdevClass, .release (.cdev i), .release (.chrdevRegion i)]) ∨
      (m.localClassP = .object ∧ m.classLive = true ∧ env.deviceCreateOk = true ∧
        createDevice env i m = some ({ m with
          channels := Function.update m.channels i
            { m.channels i with classP := .object, proxyDeviceP := .object }
          ledger := m.ledger ++ [.acquire (.deviceNode i)] }, 0)) := by
  rcases deviceCreate_cases env i (m.setChannel i fun c => { c with classP := m.localClassP }) with
    h | h | ⟨hclass, hlive, hok, h⟩
  · left
    rw [createDevice, h]
  · right
    left
    rw [createDevice, h]
    simp only [if_true]
    obtain ⟨log, hlog, hsub⟩ := classDestroy_ledger
      (((m.setChannel i fun c => { c with classP := m.localClassP }).setChannel i
        fun c => { c with proxyDeviceP := .err }).channels i).classP
      ((m.setChannel i fun c => { c with classP := m.localClassP }).setChannel i
        fun c => { c with proxyDeviceP := .err })
    refine ⟨_, log ++ [.release (.cdev i), .release (.chrdevRegion i)], rfl, ?_, ?_⟩
    · rw [initError2_ledger, hlog, List.append_assoc]
      rfl
    · apply List.append_subset.mpr
      constructor
      · intro e he
        exact List.mem_cons.mpr (Or.inl (List.mem_singleton.mp (hsub he)))
      · exact List.subset_cons_self _ _
  · right
    right
    simp only [setChannel, Function.update_self] at hclass
    refine ⟨hclass, hlive, hok, ?_⟩
    rw [createDevice, h]
    simp [enter, setChannel, hclass]

/-- `cdevice_init` fails before `device_create`, or gets there. -/
theorem cdeviceInit_cases (env : CreateEnv) (i : Fin channelCount) (m : ProxyModule) :
    (∃ m' rc log, cdeviceInit env i m = some (m', rc) ∧ rc ≠ 0 ∧ m'.ledger = m.ledger ++ log ∧
        log ⊆ setupEntries i) ∨
      (env.allocChrdevRegion = 0 ∧ env.cdevAdd = 0 ∧ ∃ m',
        createClass env ((m.enter (.acquire (.chrdevRegion i))).enter (.acquire (.cdev i))) =
          (m', true) ∧ cdeviceInit env i m = createDevice env i m') := by
  by_cases hregion : env.allocChrdevRegion = 0
  · by_cases hcdev : env.cdevAdd = 0
    · simp only [cdeviceInit, hregion, hcdev, ne_eq, not_true_eq_false, if_false]
      rcases createClass_cases env
          ((m.enter (.acquire (.chrdevRegion i))).enter (.acquire (.cdev i))) with
        ⟨m', log, h, hledger, hlog⟩ | ⟨-, -, -, h⟩ | ⟨-, h⟩ | ⟨-, h⟩
      · left
        rw [h]
        refine ⟨_, _, [.acquire (.chrdevRegion i), .acquire (.cdev i)] ++ log ++
          [.release (.cdev i), .release (.chrdevRegion i)], rfl, by decide, ?_, ?_⟩
        · rw [initError2_ledger, hledger]
          simp [enter]
        · intro e he
          have hclass : ∀ e ∈ log, e = .acquire .cdevClass := fun e he =>
            List.mem_singleton.mp (hlog he)
          simp only [List.mem_append, List.mem_cons, List.not_mem_nil, or_false] at he
          simp only [setupEntries, List.mem_cons, List.not_mem_nil, or_false]
          rcases he with ((he | he) | he) | he
          · tauto
          · tauto
          · have := hclass e he
            tauto
          · tauto
      · exact Or.inr ⟨trivial, trivial, _, h, by rw [h]⟩
      · exact Or.inr ⟨trivial, trivial, _, h, by rw [h]⟩
      · exact Or.inr ⟨trivial, trivial, _, h, by rw [h]⟩
    · left
      refine ⟨(m.enter (.acquire (.chrdevRegion i))).enter (.release (.chrdevRegion i)),
        env.cdevAdd, [.acquire (.chrdevRegion i), .release (.chrdevRegion i)], ?_, hcdev, ?_, ?_⟩
      · simp only [cdeviceInit, hregion, ne_eq, not_true_eq_false, if_false, hcdev,
          not_false_eq_true, if_true]
      · simp [enter]
      · simp [setupEntries]
  · left
    refine ⟨m, env.allocChrdevRegion, [], ?_, hregion, (List.append_nil _).symm,
      List.nil_subset _⟩
    simp only [cdeviceInit, ne_eq, hregion, not_false_eq_true, if_true]

/-- **How `cdevice_init` ends.** -/
theorem cdeviceInit_outcome (env : CreateEnv) (i : Fin channelCount) (m : ProxyModule) :
    DeviceOutcome env i m (cdeviceInit env i m) := by
  rcases cdeviceInit_cases env i m with ⟨m', rc, log, h, hrc, hledger, hlog⟩ |
    ⟨hregion, hcdev, m', hclass, h⟩
  · rw [h]
    exact .failed m' rc log hrc hledger hlog
  · rw [h]
    have hentered : ∃ log, m'.ledger = m.ledger ++
        ([.acquire (.chrdevRegion i), .acquire (.cdev i)] ++ log) ∧ log ⊆ [.acquire .cdevClass] := by
      rcases createClass_cases env
          ((m.enter (.acquire (.chrdevRegion i))).enter (.acquire (.cdev i))) with
        ⟨m'', log, h, -, -⟩ | ⟨-, -, -, h⟩ | ⟨-, h⟩ | ⟨-, h⟩
      · rw [h] at hclass
        cases hclass
      · rw [h] at hclass
        cases hclass
        exact ⟨_, by simp [enter], List.Subset.refl _⟩
      · rw [h] at hclass
        cases hclass
        exact ⟨[], by simp [enter], List.nil_subset _⟩
      · rw [h] at hclass
        cases hclass
        exact ⟨[], by simp [enter], List.nil_subset _⟩
    rcases createDevice_cases env i m' with hdev | ⟨m'', log', hdev, hledger', hlog'⟩ |
      ⟨hobject, hlive, hok, hdev⟩
    · rw [hdev]
      exact .wild
    · rw [hdev, hcdev]
      obtain ⟨log, hledger, hlog⟩ := hentered
      refine .unreported m'' ([.acquire (.chrdevRegion i), .acquire (.cdev i)] ++ log ++ log') ?_ ?_
      · rw [hledger', hledger, List.append_assoc]
      · intro e he
        have hacquired : ∀ e ∈ log, e = .acquire .cdevClass := fun e he =>
          List.mem_singleton.mp (hlog he)
        have hreleased : ∀ e ∈ log', e = .release .cdevClass ∨ e = .release (.cdev i) ∨
            e = .release (.chrdevRegion i) := by
          intro e he
          simpa using hlog' he
        simp only [List.mem_append, List.mem_cons, List.not_mem_nil, or_false] at he
        simp only [setupEntries, List.mem_cons, List.not_mem_nil, or_false]
        rcases he with ((he | he) | he) | he
        · tauto
        · tauto
        · have := hacquired e he
          tauto
        · have := hreleased e he
          tauto
    · rw [hdev]
      rcases createClass_cases env
          ((m.enter (.acquire (.chrdevRegion i))).enter (.acquire (.cdev i))) with
        ⟨m'', log, h, -, -⟩ | ⟨hnull, hcreate, herr, h⟩ | ⟨-, h⟩ | ⟨hthere, h⟩
      · rw [h] at hclass
        cases hclass
      · rw [h] at hclass
        cases hclass
        have hnull : m.localClassP = .null := hnull
        convert DeviceOutcome.created ⟨hregion, hcdev, fun _ => ⟨hcreate, herr⟩, hok⟩ using 3
        simp [deviceCreated, classEntries, enter, hnull]
      · rw [h] at hclass
        cases hclass
        cases hobject
      · rw [h] at hclass
        cases hclass
        have hobject : m.localClassP = .object := hobject
        have hlive : m.classLive = true := hlive
        have hnot : decide (m.localClassP = .null) = false := by
          rw [hobject]
          rfl
        have hfirst : decide (m.localClassP = .null) = true →
            env.classCreateOk = true ∧ env.dmaClassErr = false := by
          intro hnull
          rw [hnot] at hnull
          cases hnull
        convert DeviceOutcome.created ⟨hregion, hcdev, hfirst, hok⟩ using 3
        simp [deviceCreated, classEntries, enter, hobject, hlive]

/-! ## One channel -/

/-- What `create_channel` enters into the ledger before it can return zero with a device. -/
def channelEntries (i : Fin channelCount) : List (LedgerEntry ProxyResource) :=
  .acquire (.interface i) :: setupEntries i

/-- The module after a `create_channel` in which every call succeeded. -/
def channelCreated (i : Fin channelCount) (direction : DmaTransferDirection) (m : ProxyModule) :
    ProxyModule :=
  { m with
    channels := Function.update m.channels i ⟨true, .object, .object, true, some direction⟩
    localClassP := .object
    classLive := true
    ledger := m.ledger ++ (.acquire (.dmaChannel i) ::
      [.acquire (.chrdevRegion i), .acquire (.cdev i)] ++
      classEntries m ++
      [.acquire (.deviceNode i), .acquire (.interface i)]) }

/-- How `create_channel` ends. -/
inductive CreateOutcome (env : CreateEnv) (i : Fin channelCount) (direction : DmaTransferDirection)
    (m : ProxyModule) : Option (ProxyModule × Int) → Prop
  | refused (hrequest : env.requestOk = false) :
      CreateOutcome env i direction m (some (m, proxyError))
  | wild : CreateOutcome env i direction m none
  | failed (m' : ProxyModule) (rc : Int) (log : List (LedgerEntry ProxyResource)) (hrc : rc ≠ 0)
      (hledger : m'.ledger = m.ledger ++ .acquire (.dmaChannel i) :: log)
      (hlog : log ⊆ .acquire (.deviceNode i) :: channelEntries i) :
      CreateOutcome env i direction m (some (m', rc))
  | unreported (m' : ProxyModule) (log : List (LedgerEntry ProxyResource))
      (hledger : m'.ledger = m.ledger ++ .acquire (.dmaChannel i) :: log)
      (hlog : log ⊆ channelEntries i) : CreateOutcome env i direction m (some (m', 0))
  | created (hrequest : env.requestOk = true) (hdevice : env.DeviceOk (m.localClassP = .null))
      (hinterface : env.interfaceOk = true) :
      CreateOutcome env i direction m (some (channelCreated i direction m, 0))

/-- How the allocation of the interface ends. -/
theorem allocInterface_cases (env : CreateEnv) (i : Fin channelCount) (m : ProxyModule) :
    ((m.channels i).proxyDeviceP ≠ .object ∧ allocInterface env i m = none) ∨
      (env.interfaceOk = false ∧ allocInterface env i m = some (m, proxyError)) ∨
      (env.interfaceOk = true ∧ allocInterface env i m =
        some ((m.setChannel i fun c => { c with interfaceP := true }).enter
          (.acquire (.interface i)), 0)) := by
  unfold allocInterface
  by_cases hdevice : (m.channels i).proxyDeviceP = .object
  · right
    cases env.interfaceOk with
    | false => exact Or.inl ⟨rfl, by simp [hdevice]⟩
    | true => exact Or.inr ⟨rfl, by simp [hdevice]⟩
  · cases m.cachedBuffers with
    | false => exact Or.inl ⟨hdevice, by simp [hdevice]⟩
    | true =>
      right
      cases env.interfaceOk with
      | false => exact Or.inl ⟨rfl, by simp⟩
      | true => exact Or.inr ⟨rfl, by simp⟩

/-- **How `create_channel` ends.** -/
theorem createChannel_outcome (env : CreateEnv) (i : Fin channelCount)
    (direction : DmaTransferDirection) (m : ProxyModule) :
    CreateOutcome env i direction m (createChannel env i direction m) := by
  unfold createChannel
  cases hrequest : env.requestOk with
  | false => exact .refused hrequest
  | true =>
    simp only [Bool.not_true, Bool.false_eq_true, if_false]
    have hdevice := cdeviceInit_outcome env i
      ((m.setChannel i fun c => { c with channelP := true }).enter (.acquire (.dmaChannel i)))
    generalize cdeviceInit env i _ = result at hdevice
    cases hdevice with
    | wild => exact .wild
    | failed m' rc log hrc hledger hlog =>
      simp only [ne_eq, hrc, not_false_eq_true, if_true]
      refine .failed m' rc log hrc ?_ ?_
      · rw [hledger]
        simp [enter, setChannel]
      · intro e he
        exact List.mem_cons_of_mem _ (List.mem_cons_of_mem _ (hlog he))
    | unreported m' log hledger hlog =>
      simp only [ne_eq, not_true_eq_false, if_false]
      have hledger : m'.ledger = m.ledger ++ .acquire (.dmaChannel i) :: log := by
        rw [hledger]
        simp [enter, setChannel]
      rcases allocInterface_cases env i
          (m'.setChannel i fun c => { c with direction := some direction }) with
        ⟨-, h⟩ | ⟨-, h⟩ | ⟨-, h⟩
      · rw [h]
        exact .wild
      · rw [h]
        refine .failed _ _ log (by decide) hledger ?_
        intro e he
        exact List.mem_cons_of_mem _ (List.mem_cons_of_mem _ (hlog he))
      · rw [h]
        refine .unreported _ (log ++ [.acquire (.interface i)]) ?_ ?_
        · simp [enter, setChannel, hledger]
        · apply List.append_subset.mpr
          constructor
          · intro e he
            exact List.mem_cons_of_mem _ (hlog he)
          · simp [channelEntries]
    | created hok =>
      simp only [ne_eq, not_true_eq_false, if_false]
      rcases allocInterface_cases env i ((deviceCreated i
          ((m.setChannel i fun c => { c with channelP := true }).enter
            (.acquire (.dmaChannel i)))).setChannel i
          fun c => { c with direction := some direction }) with
        ⟨hnone, -⟩ | ⟨-, h⟩ | ⟨hinterface, h⟩
      · simp [setChannel, deviceCreated] at hnone
      · rw [h]
        refine .failed _ _ ([.acquire (.chrdevRegion i), .acquire (.cdev i)] ++
          classEntries m ++
          [.acquire (.deviceNode i)]) (by decide) ?_ ?_
        · simp [setChannel, deviceCreated, classEntries, enter]
        · unfold classEntries
          split <;> simp [channelEntries, setupEntries]
      · rw [h]
        have hok : env.DeviceOk (m.localClassP = .null) := hok
        convert CreateOutcome.created hrequest hok hinterface using 3
        simp [channelCreated, deviceCreated, classEntries, setChannel, enter]

/-! ## The module -/

/-- All calls of `create_channel` succeed; `first` says that it creates the class. -/
def CreateEnv.AllOk (env : CreateEnv) (first : Bool) : Prop :=
  env.requestOk = true ∧ env.DeviceOk first ∧ env.interfaceOk = true

/-- Both channels have a device node, a character device and a buffer. -/
def ProxyModule.Live (m : ProxyModule) : Prop :=
  ∃ held, replay 0 m.ledger = some held ∧
    ∀ i, .deviceNode i ∈ held ∧ .cdev i ∈ held ∧ .interface i ∈ held

/-- Initialisation returns; when it fails it holds nothing, and when it succeeds both channels can be
used, and exit gives back all that is held and nothing else. -/
def InitExitBalanced (cachedBuffers : Bool) (tx rx : CreateEnv) : Prop :=
  ∃ m rc, dmaProxyInit cachedBuffers tx rx = some (m, rc) ∧
    (rc ≠ 0 → Balanced m.ledger) ∧
    (rc = 0 → m.Live ∧ ∃ m', dmaProxyExit m = some m' ∧ Balanced m'.ledger)

/-- When nothing fails a channel is created. -/
theorem createChannel_ok {env : CreateEnv} {m : ProxyModule} (i : Fin channelCount)
    (direction : DmaTransferDirection) (hclass : m.localClassP ≠ .err)
    (hlive : m.localClassP = .object → m.classLive = true)
    (hok : env.AllOk (m.localClassP = .null)) :
    createChannel env i direction m = some (channelCreated i direction m, 0) := by
  obtain ⟨hrequest, ⟨hregion, hcdev, hfirst, hdevice⟩, hinterface⟩ := hok
  cases hp : m.localClassP with
  | err => exact absurd hp hclass
  | null =>
    rw [hp] at hfirst
    obtain ⟨hcreate, herr⟩ := hfirst rfl
    simp [createChannel, cdeviceInit, createClass, createDevice, deviceCreate, allocInterface,
      hrequest, hregion, hcdev, hcreate, herr, hdevice, hinterface, hp, enter, setChannel,
      channelCreated, classEntries]
  | object =>
    have hlive := hlive hp
    simp [createChannel, cdeviceInit, createClass, createDevice, deviceCreate, allocInterface,
      hrequest, hregion, hcdev, hdevice, hinterface, hp, hlive, enter, setChannel,
      channelCreated, classEntries]

/-- The module after an initialisation in which every call succeeded. -/
def initialised (cachedBuffers : Bool) : ProxyModule :=
  channelCreated 1 .devToMem (channelCreated 0 .memToDev (loaded cachedBuffers))

/-- After the initialisation both channels can be used. -/
theorem initialised_live (cachedBuffers : Bool) : (initialised cachedBuffers).Live := by
  cases cachedBuffers with
  | false => exact ⟨_, rfl, by decide⟩
  | true => exact ⟨_, rfl, by decide⟩

/-- An exit after the initialisation gives everything back. -/
theorem initialised_exit (cachedBuffers : Bool) :
    ∃ m, dmaProxyExit (initialised cachedBuffers) = some m ∧ Balanced m.ledger := by
  cases cachedBuffers with
  | false => exact ⟨_, rfl, by decide⟩
  | true => exact ⟨_, rfl, by decide⟩

/-- A channel, once requested, is not given back before the exit. -/
theorem not_balanced_of_channel {m : ProxyModule} {before log : List (LedgerEntry ProxyResource)}
    (hledger : m.ledger = before ++ .acquire (.dmaChannel 0) :: log)
    (hbefore : .release (.dmaChannel 0) ∉ before) (hlog : .release (.dmaChannel 0) ∉ log) :
    ¬ Balanced m.ledger := by
  apply not_balanced_of_leak (r := .dmaChannel 0)
  · rw [hledger]
    simp
  · rw [hledger]
    simp [hbefore, hlog]

/-- The error paths release no DMA channel. -/
theorem channel_notMem_entries {i : Fin channelCount} {log : List (LedgerEntry ProxyResource)}
    (hlog : log ⊆ .acquire (.deviceNode i) :: channelEntries i) (j : Fin channelCount) :
    .release (.dmaChannel j) ∉ log := by
  intro hmem
  have hentry := hlog hmem
  simp [channelEntries, setupEntries] at hentry

/-- The entries of a channel create no device node. -/
theorem device_notMem_entries {i : Fin channelCount} {log : List (LedgerEntry ProxyResource)}
    (hlog : log ⊆ channelEntries i) (j : Fin channelCount) : .acquire (.deviceNode j) ∉ log := by
  intro hmem
  have hentry := hlog hmem
  simp [channelEntries, setupEntries] at hentry

/-- Without a call that creates its device, a channel is not usable. -/
theorem not_live {m : ProxyModule} {i : Fin channelCount}
    (hdevice : .acquire (.deviceNode i) ∉ m.ledger) : ¬ m.Live := by
  rintro ⟨held, hreplay, hheld⟩
  rcases acquired_of_mem_replay hreplay (hheld i).1 with hzero | hacquired
  · exact Multiset.notMem_zero _ hzero
  · exact hdevice hacquired

/-- After a first channel that has no device, the module is not usable, or it has failed and keeps
the channel. -/
theorem unreported_not_balanced {tx rx : CreateEnv} {cachedBuffers : Bool} {m₁ : ProxyModule}
    {log : List (LedgerEntry ProxyResource)}
    (hfirst : createChannel tx 0 .memToDev (loaded cachedBuffers) = some (m₁, 0))
    (hledger : m₁.ledger = (loaded cachedBuffers).ledger ++ .acquire (.dmaChannel 0) :: log)
    (hlog : log ⊆ channelEntries 0) : ¬ InitExitBalanced cachedBuffers tx rx := by
  rintro ⟨m, rc, hinit, hfail, hsucceed⟩
  have hledger : m₁.ledger = [] ++ .acquire (.dmaChannel 0) :: log := hledger
  have hquiet : .release (.dmaChannel 0) ∉ log :=
    channel_notMem_entries (fun e he => List.mem_cons_of_mem _ (hlog he)) 0
  have hnodevice : .acquire (.deviceNode 0) ∉ m₁.ledger := by
    rw [hledger]
    simpa using device_notMem_entries hlog 0
  simp only [dmaProxyInit, hfirst, ne_eq, not_true_eq_false, if_false] at hinit
  have houtcome := createChannel_outcome rx 1 .devToMem m₁
  rw [hinit] at houtcome
  cases houtcome with
  | refused _ => exact not_balanced_of_channel hledger List.not_mem_nil hquiet (hfail (by decide))
  | failed _ _ log' hrc hledger' hlog' =>
    rw [hledger, List.append_assoc] at hledger'
    refine not_balanced_of_channel hledger' List.not_mem_nil ?_ (hfail hrc)
    have hquiet' := channel_notMem_entries hlog' 0
    simp [hquiet, hquiet']
  | unreported _ log' hledger' hlog' =>
    refine not_live (i := 0) ?_ (hsucceed rfl).1
    rw [hledger']
    simpa [hnodevice] using device_notMem_entries hlog' 0
  | created _ _ _ =>
    refine not_live (i := 0) ?_ (hsucceed rfl).1
    unfold channelCreated classEntries
    split <;> simpa using hnodevice

/-- After a first channel that is complete, the module is complete, or it has failed and keeps the
first channel, or it has not failed and has no second channel. -/
theorem created_balanced {tx rx : CreateEnv} {cachedBuffers : Bool}
    (hfirst : createChannel tx 0 .memToDev (loaded cachedBuffers) =
      some (channelCreated 0 .memToDev (loaded cachedBuffers), 0))
    (hbalanced : InitExitBalanced cachedBuffers tx rx) : rx.AllOk false := by
  obtain ⟨m, rc, hinit, hfail, hsucceed⟩ := hbalanced
  have hledger : (channelCreated 0 .memToDev (loaded cachedBuffers)).ledger =
      [] ++ .acquire (.dmaChannel 0) :: [.acquire (.chrdevRegion 0), .acquire (.cdev 0),
        .acquire .cdevClass, .acquire (.deviceNode 0), .acquire (.interface 0)] := rfl
  simp only [dmaProxyInit, hfirst, ne_eq, not_true_eq_false, if_false] at hinit
  have houtcome := createChannel_outcome rx 1 .devToMem
    (channelCreated 0 .memToDev (loaded cachedBuffers))
  rw [hinit] at houtcome
  cases houtcome with
  | refused _ =>
    exact absurd (hfail (by decide))
      (not_balanced_of_channel hledger List.not_mem_nil (by decide))
  | failed _ _ log hrc hledger' hlog =>
    rw [hledger, List.append_assoc] at hledger'
    apply absurd (hfail hrc)
    apply not_balanced_of_channel hledger' List.not_mem_nil
    have hquiet := channel_notMem_entries hlog 0
    simpa using hquiet
  | unreported _ log hledger' hlog =>
    apply absurd (hsucceed rfl).1
    apply not_live (i := 1)
    rw [hledger', hledger]
    simpa using device_notMem_entries hlog 1
  | created hrequest hdevice hinterface => exact ⟨hrequest, hdevice, hinterface⟩

/-- A failure of `device_create` is returned as a success, and what fails behind the first DMA
channel leaves it behind. -/
theorem init_not_balanced :
    (∃ m, dmaProxyInit true ⟨true, 0, 0, true, false, true, true⟩
        ⟨true, 0, 0, true, false, false, true⟩ = some (m, 0) ∧
      .acquire (.deviceNode 1) ∉ m.ledger ∧ dmaProxyExit m = none) ∧
      (∃ m, dmaProxyInit true ⟨true, 0, 0, true, false, true, true⟩
        ⟨false, 0, 0, true, false, true, true⟩ = some (m, proxyError) ∧ ¬ Balanced m.ledger) ∧
      ¬ ∀ cachedBuffers tx rx, InitExitBalanced cachedBuffers tx rx := by
  refine ⟨⟨_, rfl, by decide, rfl⟩, ⟨_, rfl, by decide⟩, ?_⟩
  intro hall
  have hrx := created_balanced (createChannel_ok 0 .memToDev (by decide) (by decide)
    (by unfold CreateEnv.AllOk CreateEnv.DeviceOk; decide))
    (hall true ⟨true, 0, 0, true, false, true, true⟩ ⟨false, 0, 0, true, false, true, true⟩)
  exact absurd hrx.1 (by decide)

/-- **When initialisation and exit of the proxy balance**: nothing goes wrong at all, or the
transmit channel is not there. -/
theorem init_exit_balanced_exactly (cachedBuffers : Bool) (tx rx : CreateEnv) :
    InitExitBalanced cachedBuffers tx rx ↔
      tx.requestOk = false ∨ (tx.AllOk true ∧ rx.AllOk false) := by
  constructor
  · intro hbalanced
    have houtcome := createChannel_outcome tx 0 .memToDev (loaded cachedBuffers)
    generalize hfirst : createChannel tx 0 .memToDev (loaded cachedBuffers) = result at houtcome
    cases houtcome with
    | refused hrequest =>
      left
      exact hrequest
    | wild =>
      obtain ⟨m, rc, hinit, -⟩ := hbalanced
      simp [dmaProxyInit, hfirst] at hinit
    | failed m₁ rc₁ log hrc hledger hlog =>
      obtain ⟨m, rc, hinit, hfail, -⟩ := hbalanced
      simp only [dmaProxyInit, hfirst, ne_eq, hrc, not_false_eq_true, if_true] at hinit
      cases hinit
      have hledger : m₁.ledger = [] ++ .acquire (.dmaChannel 0) :: log := hledger
      exact absurd (hfail hrc)
        (not_balanced_of_channel hledger List.not_mem_nil (channel_notMem_entries hlog 0))
    | unreported m₁ log hledger hlog =>
      exact absurd hbalanced (unreported_not_balanced hfirst hledger hlog)
    | created hrequest hdevice hinterface =>
      right
      exact ⟨⟨hrequest, hdevice, hinterface⟩, created_balanced hfirst hbalanced⟩
  · rintro (hrequest | ⟨htx, hrx⟩)
    · refine ⟨loaded cachedBuffers, proxyError, ?_, ?_, ?_⟩
      · simp [dmaProxyInit, createChannel, hrequest, proxyError]
      · intro _
        rfl
      · intro hzero
        exact absurd hzero (by decide)
    · have hinit : dmaProxyInit cachedBuffers tx rx = some (initialised cachedBuffers, 0) := by
        have hfirst : createChannel tx 0 .memToDev (loaded cachedBuffers) = _ :=
          createChannel_ok 0 .memToDev (by simp [loaded]) (by simp [loaded]) htx
        have hsecond : createChannel rx 1 .devToMem
            (channelCreated 0 .memToDev (loaded cachedBuffers)) = _ :=
          createChannel_ok 1 .devToMem (by simp [channelCreated]) (fun _ => rfl) hrx
        simp only [dmaProxyInit, hfirst, hsecond, ne_eq, not_true_eq_false, if_false, initialised]
      refine ⟨initialised cachedBuffers, 0, hinit, ?_, ?_⟩
      · intro hne
        exact absurd rfl hne
      · intro _
        exact ⟨initialised_live cachedBuffers, initialised_exit cachedBuffers⟩

end PetalinuxDriver
