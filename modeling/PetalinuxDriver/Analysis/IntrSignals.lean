import PetalinuxDriver.Library.Transition
import PetalinuxDriver.Model.IntrDemo

/-!
# To whom the signals go

`pidOwner` and `current_task` are two words with nothing between them. A handler that has looked a
task up stores it after the pid has been replaced and the cache cleared; a task that is cached exits;
an ioctl clears the cache under a handler that has seen it full. Where none of this happens, what is
cached was stored by the latest ioctl or by one in flight, and every handler knows these pids
(`SignalInv`), so that signals go where they should (`signals_delivered`).
-/

set_option autoImplicit false

namespace PetalinuxDriver

open Library

namespace IntrSys

/-! ## What is promised -/

/-- A signal goes to a task that is alive and has a pid stored by the latest ioctl to complete before
the call began, or by one that overlaps the call. -/
def SendsRight (s : IntrSys) (c : SignalCall) : Prop :=
  c.pc = .send → ∃ k ∈ s.currentTask, (s.task k).alive = true ∧ (s.task k).pid ∈ c.stored

/-- When no ioctl is in flight, nothing is cached, or a task with the pid of the owner. -/
def CacheRight (s : IntrSys) : Prop :=
  s.ioctls = [] → ∀ k ∈ s.currentTask, (s.task k).hashed = true ∧ (s.task k).pid = s.pidOwner

/-- **This step does right** by the registered process. -/
def Delivers (s : IntrSys) (a : IntrAct) : Prop :=
  (∀ s' ∈ s.intrStep a, s'.CacheRight) ∧
    match a with
    | .signal i => ∀ c ∈ s.signals[i]?, (s.sendSignal c.pc).2 ≠ .wild ∧ s.SendsRight c
    | _ => True

instance (s : IntrSys) (c : SignalCall) : Decidable (s.SendsRight c) :=
  inferInstanceAs (Decidable (_ → ∃ k ∈ s.currentTask, _ ∧ _))

instance (s : IntrSys) : Decidable s.CacheRight :=
  inferInstanceAs (Decidable (_ → ∀ k ∈ s.currentTask, _ ∧ _))

instance (s : IntrSys) (a : IntrAct) : Decidable (s.Delivers a) := by
  unfold Delivers
  cases a <;> infer_instance

/-! ## When it is kept -/

/-- The handler uses `current_task` in its next step. -/
def usesTask : SignalPc → Bool
  | .printTask | .send => true
  | _ => false

/-- A handler stores a task that is alive and registered, by an ioctl that is in flight if its pid is
not that of the owner any more; and it stores `NULL` only while no other handler uses the task. -/
def StoresRegistered (s : IntrSys) (others : List SignalCall) : SignalPc → Prop
  | .pidTask k =>
    if (s.task k).hashed then
      (s.task k).alive = true ∧ ((s.task k).pid = s.pidOwner ∨
        (s.ioctls ≠ [] ∧ (s.task k).pid ∈ s.registered))
    else ∀ c ∈ others, usesTask c.pc = false
  | _ => True

/-- This step leaves the registration in order: besides, an ioctl completes when no handler uses the
task and the owner is that of an ioctl in flight, a copy that fails does not change the owner, or
takes it away while nothing is cached, and no task exits while it is cached. -/
def Orderly (s : IntrSys) : IntrAct → Prop
  | .signal i => ∀ c ∈ s.signals[i]?, s.StoresRegistered (s.signals.eraseIdx i) c.pc
  | .clear _ => (s.pidOwner = 0 ∨ s.pidOwner ∈ s.ioctls) ∧ ∀ c ∈ s.signals, usesTask c.pc = false
  | .copyFail left => left = s.pidOwner ∨ (left = 0 ∧ s.currentTask = none)
  | .exit k => s.currentTask ≠ some k
  | _ => True

instance (s : IntrSys) (others : List SignalCall) (pc : SignalPc) :
    Decidable (s.StoresRegistered others pc) := by
  unfold StoresRegistered
  split <;> infer_instance

instance (s : IntrSys) (a : IntrAct) : Decidable (s.Orderly a) := by
  unfold Orderly
  split <;> infer_instance

/-! ## What is known in between -/

/-- The owner is none or registered, and so is a cached task, which is alive; every handler in flight
knows what is registered, and what it uses is there. -/
structure SignalInv (s : IntrSys) : Prop where
  owner : s.pidOwner = 0 ∨ s.pidOwner ∈ s.registered
  aliveHashed : ∀ k, (s.task k).alive = true → (s.task k).hashed = true
  positive : ∀ k, (s.task k).hashed = true → (s.task k).pid ≠ 0
  fresh : ∀ k, s.nextTask ≤ k → (s.task k).hashed = false
  cached : ∀ k ∈ s.currentTask, (s.task k).alive = true ∧ (s.task k).pid ∈ s.registered
  settled : ∀ k ∈ s.currentTask, s.ioctls = [] → (s.task k).pid = s.pidOwner
  knows : ∀ c ∈ s.signals, s.registered ⊆ c.stored
  used : ∀ c ∈ s.signals, usesTask c.pc = true → s.currentTask ≠ none

/-- The invariant holds of the loaded module. -/
theorem signalInv_loaded : loaded.SignalInv := by
  refine ⟨Or.inl rfl, ?_, ?_, fun _ _ => rfl, ?_, ?_, ?_, ?_⟩
  · intro k halive
    cases halive
  · intro k hhashed
    cases hhashed
  · intro k hk
    cases hk
  · intro k hk
    cases hk
  · intro c hc
    cases hc
  · intro c hc
    cases hc

/-- Under the invariant the cached task is the owner. -/
theorem SignalInv.cacheRight {s : IntrSys} (hinv : s.SignalInv) : s.CacheRight := by
  intro hnone k hk
  exact ⟨hinv.aliveHashed k (hinv.cached k hk).1, hinv.settled k hk hnone⟩

/-! ## The steps of a handler -/

/-- A handler looks at `current_task`, or stores what it has looked up. -/
theorem sendSignal_cases (s : IntrSys) (pc : SignalPc) :
    (s.sendSignal pc).1 = s ∨
      ∃ k, pc = .pidTask k ∧ s.sendSignal pc =
        ({ s with currentTask := s.pidTask k }, .goesOn .checkTask) := by
  cases pc with
  | pidTask k => exact Or.inr ⟨k, rfl, rfl⟩
  | checkOwner => exact Or.inl rfl
  | checkCache | findVpid | checkTask | printTask | send =>
    left
    unfold sendSignal
    dsimp only
    split <;> rfl

/-- A handler that goes on to use the task has just seen it. -/
theorem sendSignal_used {s : IntrSys} {pc pc' : SignalPc} (h : (s.sendSignal pc).2 = .goesOn pc')
    (huses : usesTask pc' = true) : (s.sendSignal pc).1.currentTask ≠ none := by
  cases pc with
  | checkOwner =>
    simp only [sendSignal] at h
    split at h
    · cases h
    · cases h
      cases huses
  | pidTask k =>
    simp only [sendSignal] at h
    cases h
    cases huses
  | findVpid =>
    simp only [sendSignal] at h
    split at h
    · cases h
    · cases h
      cases huses
  | checkCache | checkTask | printTask | send =>
    unfold sendSignal at h ⊢
    dsimp only at h ⊢
    cases htask : s.currentTask with
    | none =>
      rw [htask] at h
      cases h <;> cases huses
    | some k => simp [htask]

/-- A handler that has not met `NULL` is behind the check. -/
theorem sendSignal_not_wild {s : IntrSys} {pc : SignalPc}
    (h : usesTask pc = true → s.currentTask ≠ none) : (s.sendSignal pc).2 ≠ .wild := by
  cases pc with
  | printTask | send =>
    have hthere := h rfl
    cases htask : s.currentTask with
    | none => exact absurd htask hthere
    | some k => simp [sendSignal, htask]
  | checkOwner =>
    simp only [sendSignal]
    split <;> simp
  | pidTask k => simp [sendSignal]
  | checkCache | findVpid | checkTask =>
    simp only [sendSignal]
    split <;> simp

/-! ## The steps -/

/-- A handler makes a step that stores only what is registered. -/
theorem signalInv_signal {s s' : IntrSys} {i : Nat} (hinv : s.SignalInv)
    (hok : s.Orderly (.signal i)) (h : s.intrStep (.signal i) = some s') : s'.SignalInv := by
  simp only [intrStep] at h
  split at h
  · cases h
  · rename_i c hc
    have hmem : c ∈ s.signals := List.mem_of_getElem? hc
    have hothers : ∀ d ∈ s.signals.eraseIdx i, d ∈ s.signals := fun d hd =>
      List.mem_of_mem_eraseIdx hd
    have hbase : SignalInv { s with signals := s.signals.eraseIdx i } :=
      { hinv with
        knows := fun d hd => hinv.knows d (hothers d hd)
        used := fun d hd => hinv.used d (hothers d hd) }
    rcases sendSignal_cases { s with signals := s.signals.eraseIdx i } c.pc with
      hsame | ⟨k, hpc, hrun⟩
    · rw [hsame] at h
      cases hafter : (sendSignal { s with signals := s.signals.eraseIdx i } c.pc).2 with
      | goesOn pc' =>
        rw [hafter] at h
        cases h
        refine { hbase with knows := ?_, used := ?_ }
        · intro d hd
          rcases List.mem_cons.mp hd with rfl | hold
          · exact hinv.knows c hmem
          · exact hbase.knows d hold
        · intro d hd huses
          rcases List.mem_cons.mp hd with rfl | hold
          · have hthere := sendSignal_used hafter huses
            rw [hsame] at hthere
            exact hthere
          · exact hbase.used d hold huses
      | returns =>
        rw [hafter] at h
        cases h
        exact hbase
      | wild =>
        rw [hafter] at h
        cases h
    · rw [hrun] at h
      cases h
      have hguard : s.StoresRegistered (s.signals.eraseIdx i) (.pidTask k) := hpc ▸ hok c hc
      simp only [StoresRegistered] at hguard
      have hknows : ∀ d ∈ ⟨.checkTask, c.stored⟩ :: s.signals.eraseIdx i,
          s.registered ⊆ d.stored := by
        intro d hd
        rcases List.mem_cons.mp hd with rfl | hold
        · exact hinv.knows c hmem
        · exact hbase.knows d hold
      cases hhashed : (s.task k).hashed with
      | true =>
        rw [if_pos hhashed] at hguard
        obtain ⟨halive, hpid⟩ := hguard
        have hstored : pidTask { s with signals := s.signals.eraseIdx i } k = some k :=
          if_pos hhashed
        have hregistered : (s.task k).pid ∈ s.registered := by
          rcases hpid with howner | ⟨-, hin⟩
          · rcases hinv.owner with hzero | hin
            · exact absurd (howner.trans hzero) (hinv.positive k hhashed)
            · rw [howner]
              exact hin
          · exact hin
        refine { hbase with cached := ?_, settled := ?_, knows := hknows, used := ?_ }
        · intro k' hk'
          obtain rfl : k = k' := Option.some.inj (hstored.symm.trans hk')
          exact ⟨halive, hregistered⟩
        · intro k' hk' hnone
          obtain rfl : k = k' := Option.some.inj (hstored.symm.trans hk')
          rcases hpid with howner | ⟨hne, -⟩
          · exact howner
          · exact absurd hnone hne
        · intro _ _ _ hnull
          cases hstored.symm.trans hnull
      | false =>
        have hnot : ¬ (s.task k).hashed = true := by simp [hhashed]
        rw [if_neg hnot] at hguard
        have hstored : pidTask { s with signals := s.signals.eraseIdx i } k = none := if_neg hnot
        refine { hbase with cached := ?_, settled := ?_, knows := hknows, used := ?_ }
        · intro k' hk'
          cases hstored.symm.trans hk'
        · intro k' hk'
          cases hstored.symm.trans hk'
        · intro d hd huses
          rcases List.mem_cons.mp hd with rfl | hold
          · cases huses
          · exact absurd huses (by simp [hguard d hold])

/-- A change of one task, other than the cached one, keeps the registration in order: it gives a pid
only to a task that has been made, and takes none from a task that is alive. -/
theorem signalInv_task {s : IntrSys} {k nextTask : Nat} {t : IntrTask} (hinv : s.SignalInv)
    (halive : t.alive = true → t.hashed = true) (hpositive : t.hashed = true → t.pid ≠ 0)
    (hmade : t.hashed = true → k < nextTask) (hnext : s.nextTask ≤ nextTask)
    (hcached : k ∉ s.currentTask) :
    SignalInv { s with task := Function.update s.task k t, nextTask := nextTask } := by
  have hkept : ∀ j ∈ s.currentTask, Function.update s.task k t j = s.task j := by
    intro j hj
    apply Function.update_of_ne
    rintro rfl
    exact hcached hj
  have haliveHashed : ∀ j, (Function.update s.task k t j).alive = true →
      (Function.update s.task k t j).hashed = true :=
    (Function.forall_update_iff s.task fun _ t => t.alive = true → t.hashed = true).mpr
      ⟨halive, fun j _ => hinv.aliveHashed j⟩
  have hpids : ∀ j, (Function.update s.task k t j).hashed = true →
      (Function.update s.task k t j).pid ≠ 0 :=
    (Function.forall_update_iff s.task fun _ t => t.hashed = true → t.pid ≠ 0).mpr
      ⟨hpositive, fun j _ => hinv.positive j⟩
  have hfresh : ∀ j, nextTask ≤ j → (Function.update s.task k t j).hashed = false := by
    apply (Function.forall_update_iff s.task fun j t => nextTask ≤ j → t.hashed = false).mpr
    constructor
    · intro hle
      rw [← Bool.not_eq_true]
      intro hhashed
      exact absurd (hmade hhashed) (Nat.not_lt.mpr hle)
    · intro j _ hle
      exact hinv.fresh j (Nat.le_trans hnext hle)
  refine ⟨hinv.owner, haliveHashed, hpids, hfresh, ?_, ?_, hinv.knows, hinv.used⟩
  · intro j hj
    have hold := hinv.cached j hj
    rw [← hkept j hj] at hold
    exact hold
  · intro j hj hnone
    have hold := hinv.settled j hj hnone
    rw [← hkept j hj] at hold
    exact hold

/-- **One step.** -/
theorem signalInv_step {s s' : IntrSys} {a : IntrAct} (hinv : s.SignalInv) (hok : s.Orderly a)
    (h : s.intrStep a = some s') : s'.SignalInv := by
  cases a with
  | copy pid =>
    cases h
    have hgrows : s.registered ⊆ s.lastCompleted.toList ++ pid :: s.ioctls := by
      intro p hp
      rcases List.mem_append.mp hp with hlast | hin
      · exact List.mem_append_left _ hlast
      · exact List.mem_append_right _ (List.mem_cons_of_mem pid hin)
    refine { hinv with owner := ?_, cached := ?_, settled := ?_, knows := ?_, used := ?_ }
    · exact Or.inr (List.mem_append_right _ List.mem_cons_self)
    · intro k hk
      exact ⟨(hinv.cached k hk).1, hgrows (hinv.cached k hk).2⟩
    · intro k _ hnone
      cases hnone
    · intro c hc p hp
      obtain ⟨d, hd, rfl⟩ := List.mem_map.mp hc
      rcases List.mem_append.mp hp with hlast | hin
      · exact List.mem_cons_of_mem pid (hinv.knows d hd (List.mem_append_left _ hlast))
      · rcases List.mem_cons.mp hin with rfl | hold
        · exact List.mem_cons_self
        · exact List.mem_cons_of_mem pid (hinv.knows d hd (List.mem_append_right _ hold))
    · intro c hc huses
      obtain ⟨d, hd, rfl⟩ := List.mem_map.mp hc
      exact hinv.used d hd huses
  | clear i =>
    obtain ⟨howner, hunused⟩ := hok
    simp only [intrStep] at h
    split at h
    · cases h
    · rename_i pid hpid
      cases h
      have hsplit : ∀ p, p ∈ (some pid).toList ++ s.ioctls.eraseIdx i → p ∈ s.ioctls := by
        intro p hp
        rcases List.mem_append.mp hp with hlast | hin
        · rw [List.mem_singleton.mp hlast]
          exact List.mem_of_getElem? hpid
        · exact List.mem_of_mem_eraseIdx hin
      refine { hinv with owner := ?_, cached := ?_, settled := ?_, knows := ?_, used := ?_ }
      · rcases howner with hzero | hin
        · exact Or.inl hzero
        · right
          obtain ⟨j, hj⟩ := List.mem_iff_getElem?.mp hin
          by_cases hij : j = i
          · subst hij
            rw [hpid] at hj
            cases hj
            exact List.mem_append_left _ (List.mem_singleton.mpr rfl)
          · exact List.mem_append_right _ (List.mem_eraseIdx_iff_getElem?.mpr ⟨j, hij, hj⟩)
      · intro k hk
        cases hk
      · intro k hk
        cases hk
      · intro c hc p hp
        exact hinv.knows c hc (List.mem_append_right _ (hsplit p hp))
      · intro c hc huses
        cases (hunused c hc).symm.trans huses
  | copyFail left =>
    cases h
    rcases hok with hsame | ⟨hzero, hnull⟩
    · rw [hsame]
      exact hinv
    · refine { hinv with owner := Or.inl hzero, settled := ?_ }
      intro k hk
      cases hnull.symm.trans hk
  | interrupt =>
    cases h
    refine { hinv with knows := ?_, used := ?_ }
    · intro c hc
      rcases List.mem_cons.mp hc with rfl | hold
      · exact List.Subset.refl _
      · exact hinv.knows c hold
    · intro c hc huses
      rcases List.mem_cons.mp hc with rfl | hold
      · cases huses
      · exact hinv.used c hold huses
  | signal i => exact signalInv_signal hinv hok h
  | spawn pid =>
    simp only [intrStep] at h
    split at h
    · rename_i hpid
      cases h
      refine signalInv_task hinv (fun _ => rfl) ?_ ?_ (Nat.le_succ _) ?_
      · intro _
        exact Int.ne_of_gt hpid.1
      · intro _
        exact Nat.lt_succ_self _
      · intro hk
        have hhashed := hinv.aliveHashed _ (hinv.cached _ hk).1
        cases hhashed.symm.trans (hinv.fresh _ (Nat.le_refl _))
    · cases h
  | exit k =>
    simp only [intrStep] at h
    split at h
    · rename_i halive
      cases h
      refine signalInv_task hinv ?_ (hinv.positive k) ?_ (Nat.le_refl _) hok
      · intro hno
        cases hno
      · intro hhashed
        by_contra hlt
        cases hhashed.symm.trans (hinv.fresh k (by omega))
    · cases h
  | reap k =>
    simp only [intrStep] at h
    split at h
    · rename_i hdead
      cases h
      refine signalInv_task hinv ?_ ?_ ?_ (Nat.le_refl _) ?_
      · intro hlives
        cases hdead.2.symm.trans hlives
      · intro hno
        cases hno
      · intro hno
        cases hno
      · intro hk
        cases hdead.2.symm.trans (hinv.cached k hk).1
    · cases h

/-- A step that leaves the registration in order does right by the registered process. -/
theorem delivers_of_orderly {s : IntrSys} {a : IntrAct} (hinv : s.SignalInv) (hok : s.Orderly a) :
    s.Delivers a := by
  constructor
  · intro s' hs'
    exact (signalInv_step hinv hok hs').cacheRight
  · cases a with
    | signal i =>
      intro c hc
      have hmem : c ∈ s.signals := List.mem_of_getElem? hc
      refine ⟨sendSignal_not_wild (hinv.used c hmem), ?_⟩
      intro hpc
      obtain ⟨k, hk⟩ := Option.ne_none_iff_exists'.mp (hinv.used c hmem (by simp [hpc, usesTask]))
      obtain ⟨halive, hpid⟩ := hinv.cached k hk
      exact ⟨k, hk, halive, hinv.knows c hmem hpid⟩
    | copy | clear | copyFail | interrupt | spawn | exit | reap => trivial

/-! ## What goes wrong otherwise -/

/-- With no ioctl in flight, a handler that stores the task of another pid than the owner's spoils
the cache. -/
theorem stale_store_spoils {s : IntrSys} {i k : Nat} {c : SignalCall} (hnone : s.ioctls = [])
    (hc : s.signals[i]? = some c) (hpc : c.pc = .pidTask k) (hhashed : (s.task k).hashed = true)
    (hne : (s.task k).pid ≠ s.pidOwner) : ¬ s.Delivers (.signal i) := by
  rintro ⟨hcache, -⟩
  have hstep : s.intrStep (.signal i) = some { s with
      currentTask := some k
      signals := ⟨.checkTask, c.stored⟩ :: s.signals.eraseIdx i } := by
    simp [intrStep, hc, hpc, sendSignal, leave, pidTask, hhashed]
  exact hne (hcache _ hstep hnone k rfl).2

/-- An ioctl that clears the cache under a handler makes it follow `NULL`. -/
theorem clear_under_handler {s s' : IntrSys} {i j : Nat} {c : SignalCall}
    (hc : s.signals[j]? = some c) (huses : usesTask c.pc = true)
    (h : s.intrStep (.clear i) = some s') : ¬ s'.Delivers (.signal j) := by
  simp only [intrStep] at h
  split at h
  · cases h
  · cases h
    rintro ⟨-, hright⟩
    apply (hright c hc).1
    cases hpc : c.pc <;> rw [hpc] at huses <;> first | rfl | cases huses

/-- When the cached task exits, the next signal goes to a task that is not alive. -/
theorem exit_cached_misdelivers {s s' : IntrSys} {i k : Nat} {c : SignalCall}
    (hk : s.currentTask = some k) (hc : s.signals[i]? = some c) (hpc : c.pc = .send)
    (h : s.intrStep (.exit k) = some s') : ¬ s'.Delivers (.signal i) := by
  simp only [intrStep] at h
  split at h
  · cases h
    rintro ⟨-, hright⟩
    obtain ⟨j, hj, halive, -⟩ := (hright c hc).2 hpc
    obtain rfl : k = j := Option.some.inj (hk.symm.trans hj)
    simp at halive
  · cases h

/-! ## Runs -/

/-- **Signals go to the registered process**, and the cache holds it or nothing, at every step of a
run that leaves the registration in order. -/
theorem signals_delivered {as : List IntrAct} (hok : ExecOk intrStep Orderly loaded as) :
    ExecOk intrStep Delivers loaded as := by
  refine Reachable.execOk_of_invariant hok signalInv_loaded ?_ ?_
  · intro s a hinv hstep
    exact delivers_of_orderly hinv hstep
  · intro s a s' hinv hstep hs
    exact signalInv_step hinv hstep hs

/-- So many steps of the handler that came last. -/
def handling (n : Nat) : List IntrAct := .interrupt :: List.replicate n (.signal 0)

/-- A process registers and gets two signals, the second through the cache; another one registers
while a handler runs, and the first one exits and leaves its pid to a third. -/
theorem signals_delivered_twoOwners :
    ExecOk intrStep Delivers loaded
      ([.spawn 100, .copy 100, .clear 0] ++ handling 7 ++ handling 3 ++
        [.spawn 200, .interrupt, .signal 0, .copy 200, .clear 0, .exit 0, .reap 0, .spawn 100] ++
        List.replicate 6 (.signal 0)) :=
  signals_delivered (by decide +kernel)

/-- A handler stores the task of the owner before, and the next one sends to it; the cached task
exits; an ioctl clears the cache under a handler. -/
theorem signals_misdelivered :
    (∃ s ∈ exec intrStep loaded ([.spawn 100, .spawn 200, .copy 100, .clear 0] ++ handling 3 ++
        [.copy 200, .clear 0, .signal 0] ++ handling 2), ∃ c ∈ s.signals, ¬ s.SendsRight c) ∧
      ¬ ExecOk intrStep Delivers loaded
        ([.spawn 100, .spawn 200, .copy 100, .clear 0] ++ handling 3 ++
          [.copy 200, .clear 0, .signal 0] ++ handling 3) ∧
      ¬ ExecOk intrStep Delivers loaded
        ([.spawn 100, .copy 100, .clear 0] ++ handling 7 ++ [.exit 0, .reap 0] ++ handling 3) ∧
      ¬ ExecOk intrStep Delivers loaded
        ([.spawn 100, .copy 100, .clear 0] ++ handling 6 ++ [.copy 100, .clear 0, .signal 0]) := by
  refine ⟨?_, ?_, ?_, ?_⟩
  all_goals decide +kernel

end IntrSys

end PetalinuxDriver
