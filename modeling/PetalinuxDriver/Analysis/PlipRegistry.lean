import PetalinuxDriver.Analysis.PlipDispatch

/-!
# The registry of IP cores

A device of `plIpcore.c` is known in three places: it is in memory until it is freed, a platform
device has it as its driver data, and the list of `ipcore_find_device` has it. `PlipSys.Registry`
relates the three at every step of a probe or a remove, whatever `plipdev_init`, the requests and
the hardware do meanwhile. While nothing is probed or removed the three agree (`registry_at_rest`):
no device is lost, and none is found that was freed.
-/

set_option autoImplicit false

namespace PetalinuxDriver

open Library

variable {cfg : PhysAddrConfig}

/-- The device that has its platform device but is not in the list, yet or any more. -/
def PlipWork.unlinked : Option PlipWork → Option Nat
  | some (.addDevice d) | some (.deviceFree _ d) => some d
  | _ => none

/-- The device that no platform device has yet. -/
def PlipWork.unbound : Option PlipWork → Option Nat
  | some (.ioremap _ d) => some d
  | _ => none

namespace PlipSys

open PlipWork

/-- A platform device has the device as its driver data. -/
def Bound (s : PlipSys cfg) (d : Nat) : Prop := ∃ pdev, s.drvdata pdev = some d

/-- What a probe or a remove knows of its platform device and its device. -/
def Holds (s : PlipSys cfg) : PlipWork → Prop
  | .matchDevice pdev | .deviceAlloc pdev _ => s.drvdata pdev = none
  | .ioremap pdev d =>
    s.drvdata pdev = none ∧ d < s.next ∧ s.freed d = false ∧ ¬ s.Bound d
  | .addDevice d => s.Bound d
  | .listDel pdev d | .deviceFree pdev d => s.drvdata pdev = some d
  | .setWrite _ | .setRead _ | .getDrvdata _ => True

/-- **The registry.** A device has at most one platform device, those that have one are in memory
and are in the list once, except for the one that a probe or a remove is at, and any other device
was freed. -/
structure Registry (s : PlipSys cfg) : Prop where
  unique : ∀ p q d, s.drvdata p = some d → s.drvdata q = some d → p = q
  bound : ∀ d, s.Bound d → d < s.next
  live : ∀ d, s.Bound d → s.freed d = false
  fresh : ∀ d, s.next ≤ d → s.freed d = false
  nodup : s.plipDevList.Nodup
  listed : ∀ d, d ∈ s.plipDevList ↔ s.Bound d ∧ unlinked s.work ≠ some d
  accounted : ∀ d, d < s.next → s.freed d = true ∨ s.Bound d ∨ unbound s.work = some d
  ready : s.headReady = true → s.init = .returned 0
  empty : s.headReady = false → s.plipDevList = []
  holds : ∀ w ∈ s.work, s.Holds w

/-! ## Platform devices -/

section Bound

variable {s : PlipSys cfg} {pdev d e : Nat}

/-- Giving a device to a platform device that has none. -/
theorem bound_set (hnone : s.drvdata pdev = none) (t : PlipSys cfg)
    (ht : t.drvdata = Function.update s.drvdata pdev (some d)) :
    t.Bound e ↔ s.Bound e ∨ e = d := by
  unfold Bound
  rw [ht]
  constructor
  · rintro ⟨p, hp⟩
    by_cases hpdev : p = pdev
    · subst hpdev
      rw [Function.update_self] at hp
      exact Or.inr (Option.some.inj hp).symm
    · rw [Function.update_of_ne hpdev] at hp
      exact Or.inl ⟨p, hp⟩
  · rintro (⟨p, hp⟩ | rfl)
    · have hpdev : p ≠ pdev := by
        rintro rfl
        cases hp.symm.trans hnone
      exact ⟨p, by rw [Function.update_of_ne hpdev, hp]⟩
    · exact ⟨pdev, Function.update_self ..⟩

/-- Taking its device from a platform device. -/
theorem bound_clear (hs : s.Registry) (hd : s.drvdata pdev = some d) (t : PlipSys cfg)
    (ht : t.drvdata = Function.update s.drvdata pdev none) :
    t.Bound e ↔ s.Bound e ∧ e ≠ d := by
  unfold Bound
  rw [ht]
  constructor
  · rintro ⟨p, hp⟩
    by_cases hpdev : p = pdev
    · subst hpdev
      rw [Function.update_self] at hp
      cases hp
    · rw [Function.update_of_ne hpdev] at hp
      refine ⟨⟨p, hp⟩, ?_⟩
      rintro rfl
      exact hpdev (hs.unique p pdev e hp hd)
  · rintro ⟨⟨p, hp⟩, hne⟩
    have hpdev : p ≠ pdev := by
      rintro rfl
      exact hne (Option.some.inj (hp.symm.trans hd))
    exact ⟨p, by rw [Function.update_of_ne hpdev, hp]⟩

end Bound

/-! ## The steps of a probe and a remove -/

namespace Registry

variable {s s' : PlipSys cfg} {pdev d : Nat} {w : Option PlipWork}

/-- A step that touches neither the list nor the driver data. -/
theorem rework (h : s.Registry) (hunlinked : unlinked w = unlinked s.work)
    (hunbound : unbound w = unbound s.work) (hw : ∀ v ∈ w, s.Holds v) :
    Registry { s with work := w } := by
  refine { h with listed := ?_, accounted := ?_, holds := hw }
  · intro e
    show e ∈ s.plipDevList ↔ s.Bound e ∧ unlinked w ≠ some e
    rw [hunlinked]
    exact h.listed e
  · intro e he
    show s.freed e = true ∨ s.Bound e ∨ unbound w = some e
    rw [hunbound]
    exact h.accounted e he

/-- A device that is new has nothing yet. -/
theorem deviceAlloc (h : s.Registry) (hnone : s.drvdata pdev = none)
    (hunlinked : unlinked s.work = none) (hunbound : unbound s.work = none)
    (dev : PlipcoreDev cfg) :
    Registry { s with
      dev := Function.update s.dev s.next dev
      next := s.next + 1
      work := some (.ioremap pdev s.next) } := by
  have hnew : ¬ s.Bound s.next := fun hbound => lt_irrefl _ (h.bound _ hbound)
  refine { h with bound := ?_, fresh := ?_, listed := ?_, accounted := ?_, holds := ?_ }
  · intro e he
    exact Nat.lt_succ_of_lt (h.bound e he)
  · intro e he
    exact h.fresh e (Nat.le_of_succ_le he)
  · intro e
    have hold := h.listed e
    rw [hunlinked] at hold
    exact hold
  · intro e he
    show s.freed e = true ∨ s.Bound e ∨ some s.next = some e
    rcases Nat.lt_succ_iff_lt_or_eq.mp he with hlt | rfl
    · have hold := h.accounted e hlt
      rw [hunbound] at hold
      simpa [or_assoc] using Or.inl hold
    · exact Or.inr (Or.inr rfl)
  · rintro _ ⟨⟩
    exact ⟨hnone, Nat.lt_succ_self _, h.fresh _ le_rfl, hnew⟩

/-- The device gets its registers and its platform device. -/
theorem ioremap (h : s.Registry) (hw : s.work = some (.ioremap pdev d))
    (f : PlipcoreDev cfg → PlipcoreDev cfg) :
    Registry { s.setDev d f with
      drvdata := Function.update s.drvdata pdev (some d)
      work := some (.addDevice d) } := by
  obtain ⟨hnone, hlt, hlive, hfree⟩ := h.holds _ hw
  have hbound : ∀ e, Bound { s.setDev d f with
      drvdata := Function.update s.drvdata pdev (some d)
      work := some (.addDevice d) } e ↔ s.Bound e ∨ e = d := fun e => bound_set hnone _ rfl
  refine ⟨?_, ?_, ?_, h.fresh, h.nodup, ?_, ?_, h.ready, h.empty, ?_⟩
  · intro p q e hp hq
    have hnot : ∀ p, s.drvdata p ≠ some d := fun p hp => hfree ⟨p, hp⟩
    simp only [Function.update_apply] at hp hq
    split at hp
    · rename_i hppdev
      split at hq
      · rename_i hqpdev
        exact hppdev.trans hqpdev.symm
      · obtain rfl := Option.some.inj hp
        exact absurd hq (hnot q)
    · split at hq
      · obtain rfl := Option.some.inj hq
        exact absurd hp (hnot p)
      · exact h.unique p q e hp hq
  · intro e he
    rcases (hbound e).mp he with hold | rfl
    · exact h.bound e hold
    · exact hlt
  · intro e he
    rcases (hbound e).mp he with hold | rfl
    · exact h.live e hold
    · exact hlive
  · intro e
    show e ∈ s.plipDevList ↔ _ ∧ some d ≠ some e
    rw [hbound e, h.listed e, hw]
    by_cases he : e = d
    · subst he
      simp [hfree]
    · simp [he, Ne.symm he, unlinked]
  · intro e he
    show s.freed e = true ∨ _ ∨ none = some e
    rw [hbound e]
    have hold := h.accounted e he
    rw [hw] at hold
    simp only [unbound, Option.some.injEq] at hold
    rcases hold with hfreed | hb | rfl
    · exact Or.inl hfreed
    · exact Or.inr (Or.inl (Or.inl hb))
    · exact Or.inr (Or.inl (Or.inr rfl))
  · rintro _ ⟨⟩
    exact (hbound d).mpr (Or.inr rfl)

/-- The device goes to the end of the list. -/
theorem addDevice (h : s.Registry) (hw : s.work = some (.addDevice d))
    (hready : s.headReady = true) :
    Registry { s with plipDevList := s.plipDevList ++ [d], work := some (.setWrite d) } := by
  have hbound : s.Bound d := h.holds _ hw
  have hout : d ∉ s.plipDevList := by
    intro hin
    exact ((h.listed d).mp hin).2 (by rw [hw]; rfl)
  refine { h with nodup := ?_, listed := ?_, accounted := ?_, empty := ?_, holds := ?_ }
  · rw [List.nodup_append]
    refine ⟨h.nodup, List.nodup_singleton d, ?_⟩
    rintro e he _ hlast rfl
    obtain rfl := List.mem_singleton.mp hlast
    exact hout he
  · intro e
    show e ∈ s.plipDevList ++ [d] ↔ s.Bound e ∧ none ≠ some e
    rw [List.mem_append, List.mem_singleton, h.listed e, hw]
    by_cases he : e = d
    · subst he
      simp [hbound]
    · simp [he, Ne.symm he, unlinked]
  · intro e he
    have hold := h.accounted e he
    rw [hw] at hold
    exact hold
  · intro hnot
    cases hready.symm.trans hnot
  · rintro _ ⟨⟩
    trivial

/-- The device leaves the list. -/
theorem listDel (h : s.Registry) (hw : s.work = some (.listDel pdev d)) :
    Registry { s with
      plipDevList := s.plipDevList.erase d
      work := some (.deviceFree pdev d) } := by
  refine ⟨h.unique, h.bound, h.live, h.fresh, h.nodup.erase d, ?_, ?_, h.ready, ?_, ?_⟩
  · intro e
    show e ∈ s.plipDevList.erase d ↔ s.Bound e ∧ some d ≠ some e
    rw [h.nodup.mem_erase_iff, h.listed e, hw]
    by_cases he : e = d
    · simp [he]
    · simp [he, Ne.symm he, unlinked]
  · intro e he
    have hold := h.accounted e he
    rw [hw] at hold
    exact hold
  · intro hnot
    show s.plipDevList.erase d = []
    rw [h.empty hnot]
    rfl
  · rintro _ ⟨⟩
    exact h.holds _ hw

/-- The device is freed, and its platform device has none any more. -/
theorem deviceFree (h : s.Registry) (hw : s.work = some (.deviceFree pdev d)) :
    Registry { s with
      freed := Function.update s.freed d true
      drvdata := Function.update s.drvdata pdev none
      work := none } := by
  have hd : s.drvdata pdev = some d := h.holds _ hw
  have hbound : ∀ e, Bound { s with
      freed := Function.update s.freed d true
      drvdata := Function.update s.drvdata pdev none
      work := none } e ↔ s.Bound e ∧ e ≠ d := fun e => bound_clear h hd _ rfl
  refine ⟨?_, ?_, ?_, ?_, h.nodup, ?_, ?_, h.ready, h.empty, ?_⟩
  · intro p q e hp hq
    simp only [Function.update_apply] at hp hq
    split at hp
    · cases hp
    · split at hq
      · cases hq
      · exact h.unique p q e hp hq
  · intro e he
    exact h.bound e ((hbound e).mp he).1
  · intro e he
    obtain ⟨hold, hne⟩ := (hbound e).mp he
    show Function.update s.freed d true e = false
    rw [Function.update_of_ne hne]
    exact h.live e hold
  · intro e he
    have hlt : d < s.next := h.bound d ⟨pdev, hd⟩
    have hne : e ≠ d := (hlt.trans_le he).ne'
    show Function.update s.freed d true e = false
    rw [Function.update_of_ne hne]
    exact h.fresh e he
  · intro e
    show e ∈ s.plipDevList ↔ _ ∧ none ≠ some e
    rw [hbound e, h.listed e, hw]
    simp [unlinked, eq_comm]
  · intro e he
    show Function.update s.freed d true e = true ∨ _ ∨ none = some e
    rw [hbound e]
    by_cases hed : e = d
    · subst hed
      exact Or.inl (Function.update_self ..)
    · rw [Function.update_of_ne hed]
      have hold := h.accounted e he
      rw [hw] at hold
      simpa [unbound, hed] using hold
  · intro v hv
    cases hv

/-- Every step of a probe and of a remove keeps the registry. -/
theorem workStep {env : PlipProbeEnv cfg} (h : s.Registry) (hs : s.workStep env = some s') :
    s'.Registry := by
  cases hw : s.work with
  | none => simp [PlipSys.workStep, hw] at hs
  | some w =>
    have hknown := h.holds w hw
    cases w with
    | matchDevice pdev =>
      simp only [PlipSys.workStep, hw] at hs
      split at hs <;> cases hs
      · exact h.rework (by rw [hw]; rfl) (by rw [hw]; rfl) (fun v hv => by cases hv)
      · refine h.rework (by rw [hw]; rfl) (by rw [hw]; rfl) ?_
        rintro _ ⟨⟩
        exact hknown
    | deviceAlloc pdev id =>
      simp only [PlipSys.workStep, hw] at hs
      split at hs <;> cases hs
      · exact h.deviceAlloc hknown (by rw [hw]; rfl) (by rw [hw]; rfl) _
      · exact h.rework (by rw [hw]; rfl) (by rw [hw]; rfl) (fun v hv => by cases hv)
    | ioremap pdev d =>
      simp only [PlipSys.workStep, hw] at hs
      cases hs
      exact h.ioremap hw _
    | addDevice d =>
      simp only [PlipSys.workStep, hw] at hs
      split at hs
      · rename_i hready
        cases hs
        exact h.addDevice hw hready
      · cases hs
    | setWrite d =>
      simp only [PlipSys.workStep, hw] at hs
      cases hs
      have hnext : Registry { s with work := some (.setRead d) } := by
        refine h.rework (by rw [hw]; rfl) (by rw [hw]; rfl) ?_
        rintro _ ⟨⟩
        trivial
      exact { hnext with }
    | setRead d =>
      simp only [PlipSys.workStep, hw] at hs
      cases hs
      have hnext : Registry { s with work := none } :=
        h.rework (by rw [hw]; rfl) (by rw [hw]; rfl) (fun v hv => by cases hv)
      exact { hnext with }
    | getDrvdata pdev =>
      simp only [PlipSys.workStep, hw] at hs
      split at hs
      · cases hs
        exact h.rework (by rw [hw]; rfl) (by rw [hw]; rfl) (fun v hv => by cases hv)
      · rename_i d hd
        cases hs
        refine h.rework (by rw [hw]; rfl) (by rw [hw]; rfl) ?_
        rintro _ ⟨⟩
        exact hd
    | listDel pdev d =>
      simp only [PlipSys.workStep, hw] at hs
      cases hs
      exact h.listDel hw
    | deviceFree pdev d =>
      simp only [PlipSys.workStep, hw] at hs
      cases hs
      exact h.deviceFree hw

/-! ## The other steps -/

/-- `plip_init` empties a list that is empty. -/
theorem initStep {env : PlipInitEnv} (h : s.Registry) (hs : s.initStep env = some s') :
    s'.Registry := by
  have hnot : s.init ≠ .returned 0 → s.headReady = false := by
    intro hne
    cases hready : s.headReady with
    | false => rfl
    | true => exact absurd (h.ready hready) hne
  have hkeeps : s.init ≠ .returned 0 → ∀ (init : PlipInitPc) (chardev : Bool),
      Registry { s with init := init, chardev := chardev } := by
    intro hne init chardev
    refine { h with ready := ?_ }
    intro hready
    cases (hnot hne).symm.trans hready
  cases hinit : s.init with
  | kzalloc | allocChrdevRegion | classCreate | deviceCreate | cdevAdd =>
    simp only [PlipSys.initStep, hinit, Option.some.injEq] at hs
    subst hs
    exact hkeeps (by simp [hinit]) _ _
  | plipInit =>
    simp only [PlipSys.initStep, hinit, Option.some.injEq] at hs
    subst hs
    have hempty : s.plipDevList = [] := h.empty (hnot (by simp [hinit]))
    refine ⟨h.unique, h.bound, h.live, h.fresh, List.nodup_nil, ?_, h.accounted, fun _ => rfl,
      fun _ => rfl, ?_⟩
    · intro e
      have hold := h.listed e
      rw [hempty] at hold
      exact hold
    · exact h.holds
  | returned ret => simp [PlipSys.initStep, hinit] at hs

/-- A request changes nothing that the registry is about. -/
theorem request {i : Nat} (h : s.Registry) (hs : s.plipStep (.request i) = some s') :
    s'.Registry := by
  simp only [plipStep] at hs
  split at hs
  · cases hs
  · rename_i c hc
    cases hrun : (c.run s).2 with
    | goesOn c' =>
      rw [hrun] at hs
      cases hs
      exact { h with }
    | returns answer =>
      rw [hrun] at hs
      cases hs
      exact { h with }
    | wild =>
      rw [hrun] at hs
      cases hs

/-- Every step keeps the registry. -/
theorem step {a : PlipAct cfg} (h : s.Registry) (hs : s.plipStep a = some s') : s'.Registry := by
  cases a with
  | init env => exact h.initStep hs
  | probe pdev =>
    simp only [plipStep] at hs
    split at hs
    · rename_i hidle
      cases hs
      refine h.rework (by rw [hidle.1]; rfl) (by rw [hidle.1]; rfl) ?_
      rintro _ ⟨⟩
      exact hidle.2
    · cases hs
  | remove pdev =>
    simp only [plipStep] at hs
    split at hs
    · rename_i hidle
      cases hs
      refine h.rework (by rw [hidle]; rfl) (by rw [hidle]; rfl) ?_
      rintro _ ⟨⟩
      trivial
    · cases hs
  | work env => exact h.workStep hs
  | ioctl req =>
    simp only [plipStep] at hs
    split at hs
    · cases hs
      exact { h with }
    · cases hs
  | request i => exact h.request hs
  | hardware mem =>
    cases hs
    exact { h with }

/-- At first nothing is registered. -/
theorem loaded (io : Io cfg) : (PlipSys.loaded io).Registry := by
  have hnone : ∀ d, ¬ (PlipSys.loaded io).Bound d := by
    rintro d ⟨pdev, hd⟩
    cases hd
  refine ⟨?_, ?_, ?_, fun _ _ => rfl, List.nodup_nil, ?_, ?_, ?_, fun _ => rfl, ?_⟩
  · intro p q d hp
    cases hp
  · intro d hd
    exact absurd hd (hnone d)
  · intro d hd
    exact absurd hd (hnone d)
  · intro d
    constructor
    · intro hd
      cases hd
    · intro hd
      exact absurd hd.1 (hnone d)
  · intro d hd
    exact absurd hd (Nat.not_lt_zero d)
  · intro hready
    cases hready
  · intro w hw
    cases hw

end Registry

/-! ## Runs -/

/-- **No device is lost, and none is found that was freed.** In every run, whatever fails and
whatever the requests do: no two platform devices have the same device, what is in the list is there
once and in memory, and while nothing is probed or removed the devices in the list are those that a
platform device has, and those that are still in memory. -/
theorem registry_at_rest {io : Io cfg} {s : PlipSys cfg}
    (h : Reachable plipStep always (PlipSys.loaded io) s) :
    (∀ p q d, s.drvdata p = some d → s.drvdata q = some d → p = q) ∧
      s.plipDevList.Nodup ∧ (∀ d ∈ s.plipDevList, d < s.next ∧ s.freed d = false) ∧
      (s.work = none → ∀ d < s.next,
        (d ∈ s.plipDevList ↔ ∃ pdev, s.drvdata pdev = some d) ∧
        (d ∈ s.plipDevList ↔ s.freed d = false)) := by
  have hinv : s.Registry :=
    h.invariant (Registry.loaded io) fun _ _ _ hinv _ hs => hinv.step hs
  refine ⟨hinv.unique, hinv.nodup, ?_, ?_⟩
  · intro d hd
    have hbound := ((hinv.listed d).mp hd).1
    exact ⟨hinv.bound d hbound, hinv.live d hbound⟩
  · intro hrest d hlt
    have hlisted : d ∈ s.plipDevList ↔ s.Bound d := by
      rw [hinv.listed d, hrest]
      simp [unlinked]
    refine ⟨hlisted, ?_⟩
    rw [hlisted]
    refine ⟨hinv.live d, ?_⟩
    intro hlive
    have haccount := hinv.accounted d hlt
    rw [hrest] at haccount
    simpa [hlive, unbound] using haccount

/-- Three probes, of which one finds no memory for its private data and one gets an error pointer
for its registers; the first device is removed. -/
theorem registry_at_rest_threeProbes :
    ∃ s, exec plipStep (PlipSys.loaded ⟨fun _ => 0, []⟩)
        (initialise ++ probing 0 .capctl 0x40000000 6 ++
          [.probe 1, .work ⟨some .ledctl, true, true, 0⟩, .work ⟨some .ledctl, true, false, 0⟩] ++
          probing 2 .fpgainfo 0xFFFFFFF0 6 ++
          .remove 0 :: List.replicate 3 (.work ⟨none, true, true, 0⟩)) = some s ∧
      s.next = 2 ∧ (0 ∈ s.plipDevList ↔ s.freed 0 = false) ∧
      (1 ∈ s.plipDevList ↔ s.freed 1 = false) := by
  have hexec : (exec plipStep (PlipSys.loaded ⟨fun _ => 0, []⟩)
      (initialise ++ probing 0 .capctl 0x40000000 6 ++
        [.probe 1, .work ⟨some .ledctl, true, true, 0⟩, .work ⟨some .ledctl, true, false, 0⟩] ++
        probing 2 .fpgainfo 0xFFFFFFF0 6 ++
        .remove 0 :: List.replicate 3 (.work ⟨none, true, true, 0⟩))).map
      (fun s => (s.next, s.work)) = some (2, none) := by
    decide +kernel
  obtain ⟨s, hs, hends⟩ := Option.map_eq_some_iff.mp hexec
  obtain ⟨hnext, hrest⟩ := Prod.mk.inj hends
  have hreach : Reachable plipStep always (PlipSys.loaded ⟨fun _ => 0, []⟩) s :=
    Reachable.of_exec (Reachable.execOk_of_forall fun _ _ _ => trivial) hs
  obtain ⟨-, -, -, hagree⟩ := registry_at_rest hreach
  refine ⟨s, hs, hnext, ?_, ?_⟩
  · exact (hagree hrest 0 (by omega)).2
  · exact (hagree hrest 1 (by omega)).2

end PlipSys

end PetalinuxDriver
