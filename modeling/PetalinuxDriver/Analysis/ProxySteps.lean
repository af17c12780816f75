import PetalinuxDriver.Model.DmaProxy

/-!
# The steps of the proxy

What one step does to the calls in flight. A step of a call takes the call out of the list, lets it
run, and puts it back unless it has returned; the other calls are not touched, and the step never
looks at them.
-/

set_option autoImplicit false

namespace PetalinuxDriver

open Library

variable {cfg : PhysAddrConfig}

/-! ## A step of a call -/

/-- What the module parameter and `create_channel` set stays, and so do the calls in flight. -/
theorem ProxyCall.run_config (env : ProxyEnv cfg) (s : ProxySys cfg) (c : ProxyCall cfg) :
    (c.run env s).1.ch.cachedBuffers = s.ch.cachedBuffers ∧
      (c.run env s).1.ch.direction = s.ch.direction ∧
      (c.run env s).1.ch.interfacePhysAddr = s.ch.interfacePhysAddr ∧
      (c.run env s).1.calls = s.calls ∧ (c.run env s).1.nextId = s.nextId := by
  unfold ProxyCall.run
  split <;> (try split) <;> exact ⟨rfl, rfl, rfl, rfl, rfl⟩

/-- Only the beginning of `transfer` changes the handle. -/
theorem ProxyCall.run_dmaHandle (env : ProxyEnv cfg) (s : ProxySys cfg) {c : ProxyCall cfg}
    (h : c.pc ≠ .transfer) : (c.run env s).1.ch.dmaHandle = s.ch.dmaHandle := by
  unfold ProxyCall.run
  split
  · contradiction
  all_goals (try split) <;> rfl

/-- A call keeps its number. -/
theorem ProxyCall.run_id {env : ProxyEnv cfg} {s s' : ProxySys cfg} {c c' : ProxyCall cfg}
    (h : c.run env s = (s', .goesOn c') ∨ c.run env s = (s', .returns c')) : c'.id = c.id := by
  unfold ProxyCall.run at h
  split at h <;> (try split at h) <;> rcases h with h | h <;> cases h <;> rfl

/-- The call that has returned, if one has. -/
def ProxyAfter.returned : ProxyAfter cfg → Option (ProxyCall cfg)
  | .returns c => some c
  | _ => none

/-- The cookie, the status, the completion and the transactions are each changed by a few steps
only. -/
theorem ProxyCall.run_shared (env : ProxyEnv cfg) (s : ProxySys cfg) (c : ProxyCall cfg) :
    ((c.run env s).1.ch.cookie = s.ch.cookie ∨ ∃ cookie, c.pc = .storeCookie cookie) ∧
      ((c.run env s).1.ch.status = s.ch.status ∨ c.pc = .waitForTransfer ∨
        ∃ woken complete, c.pc = .storeStatus woken complete) ∧
      ((c.run env s).1.ch.cmp = s.ch.cmp ∨ (c.run env s).1.ch.cmp = [] ∨
        (c.pc = .wait ∧ ∃ k, s.ch.cmp = k :: (c.run env s).1.ch.cmp)) ∧
      ((c.run env s).1.txs = s.txs ∨ (c.run env s).1.txs = s.txs ++ [⟨c.id, false, false⟩]) := by
  unfold ProxyCall.run
  split <;> (try split) <;> simp_all

namespace ProxySys

/-- The state without one of the calls in flight. -/
def without (s : ProxySys cfg) (i : Nat) : ProxySys cfg := { s with calls := s.calls.eraseIdx i }

/-- The channel stays when a call is taken out. -/
@[simp] theorem without_ch (s : ProxySys cfg) (i : Nat) : (s.without i).ch = s.ch := rfl

/-- The transactions stay when a call is taken out. -/
@[simp] theorem without_txs (s : ProxySys cfg) (i : Nat) : (s.without i).txs = s.txs := rfl

/-- The other calls were there before. -/
theorem mem_of_mem_without {s : ProxySys cfg} {i : Nat} {c : ProxyCall cfg}
    (h : c ∈ (s.without i).calls) : c ∈ s.calls :=
  List.mem_of_mem_eraseIdx h

/-- A step of a call, taken apart. -/
theorem proxyStep_run {s s' : ProxySys cfg} {i : Nat} {env : ProxyEnv cfg}
    (h : s.proxyStep (.run i env) = some s') :
    ∃ c t, s.calls[i]? = some c ∧
      ((∃ c', c.run env (s.without i) = (t, .goesOn c') ∧
          s' = { t with calls := c' :: (s.without i).calls }) ∨
        ∃ c', c.run env (s.without i) = (t, .returns c') ∧ s' = t) := by
  simp only [proxyStep] at h
  cases hc : s.calls[i]? with
  | none => simp [hc] at h
  | some c =>
    simp only [hc] at h
    change (c.run env (s.without i)).1.leave (c.run env (s.without i)).2 = some s' at h
    have hcalls : (c.run env (s.without i)).1.calls = (s.without i).calls :=
      (ProxyCall.run_config env (s.without i) c).2.2.2.1
    refine ⟨c, (c.run env (s.without i)).1, rfl, ?_⟩
    cases hafter : (c.run env (s.without i)).2 with
    | goesOn c' =>
      rw [hafter] at h
      refine Or.inl ⟨c', Prod.ext rfl hafter, ?_⟩
      rw [← hcalls]
      exact (Option.some.inj h).symm
    | returns c' =>
      rw [hafter] at h
      exact Or.inr ⟨c', Prod.ext rfl hafter, (Option.some.inj h).symm⟩
    | wild =>
      rw [hafter] at h
      cases h

/-! ## A step of the DMA engine -/

/-- A transaction completes once. -/
theorem proxyStep_complete {s s' : ProxySys cfg} {k : Nat}
    (h : s.proxyStep (.complete k) = some s') :
    ∃ tx, s.txs[k]? = some tx ∧ tx.completed = false ∧
      s' = { s with txs := s.txs.set k { tx with completed := true } } := by
  simp only [proxyStep] at h
  split at h
  · cases h
  · rename_i tx htx
    split at h
    · cases h
    · rename_i hopen
      exact ⟨tx, htx, Bool.eq_false_iff.mpr hopen, (Option.some.inj h).symm⟩

/-- A callback runs once, after the completion. -/
theorem proxyStep_callback {s s' : ProxySys cfg} {k : Nat}
    (h : s.proxyStep (.callback k) = some s') :
    ∃ tx, s.txs[k]? = some tx ∧ tx.completed = true ∧ tx.calledBack = false ∧
      s' = { s with
        txs := s.txs.set k { tx with calledBack := true }
        ch := { s.ch with cmp := s.ch.cmp ++ [k] } } := by
  simp only [proxyStep] at h
  split at h
  · cases h
  · rename_i tx htx
    split at h
    · rename_i hdue
      simp only [Bool.and_eq_true, Bool.not_eq_true'] at hdue
      exact ⟨tx, htx, hdue.1, hdue.2, (Option.some.inj h).symm⟩
    · cases h

end ProxySys

end PetalinuxDriver
