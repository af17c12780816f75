import PetalinuxDriver.Analysis.ProxySteps

/-!
# The status that a call of the proxy reports

The calls on one channel share its completion, its cookie and the status in the interface, and
nothing keeps them apart: a call may be ended by the callback of another one, look at the cookie of
another one, and return the status of another one. A timed-out transaction is not aborted, so even
calls one after the other are not safe from each other.

Each shared field has a window in which a call relies on it: the completion from `init_completion`
to the end of the wait, the cookie from where it is stored to `dma_async_is_tx_complete`, the
status from the end of `wait_for_transfer` to the return. In a run in which nobody else writes into
an open window the status is the call's own. What a call knows about its transaction at each point
is `ProxyCall.StatusInv`; the steps of a call carry it on (`statusInv_goesOn`), and those of the
others leave it alone (`statusInv_other`).
-/

set_option autoImplicit false

namespace PetalinuxDriver

open Library

variable {cfg : PhysAddrConfig}

/-! ## The transaction of a call -/

/-- No transaction is that of the call with this number. -/
def NoneOwn (txs : List ProxyTx) (id : Nat) : Prop := ∀ tx ∈ txs, tx.call ≠ id

/-- One transaction is that of the call with this number. -/
def OwnTx (txs : List ProxyTx) (id j : Nat) (tx : ProxyTx) : Prop :=
  txs[j]? = some tx ∧ ∀ k tx', txs[k]? = some tx' → (tx'.call = id ↔ k = j)

/-- The own transaction is of the call. -/
theorem OwnTx.call {txs : List ProxyTx} {id j : Nat} {tx : ProxyTx} (h : OwnTx txs id j tx) :
    tx.call = id :=
  (h.2 j tx h.1).mpr rfl

/-- What holds of the own transaction holds of every transaction of the call. -/
theorem OwnTx.forall_own {txs : List ProxyTx} {id j : Nat} {tx : ProxyTx} (h : OwnTx txs id j tx)
    {P : ProxyTx → Prop} (hP : P tx) : ∀ tx' ∈ txs, tx'.call = id → P tx' := by
  intro tx' hmem hcall
  obtain ⟨k, hk⟩ := List.mem_iff_getElem?.mp hmem
  obtain rfl := (h.2 k tx' hk).mp hcall
  obtain rfl := Option.some.inj (h.1.symm.trans hk)
  exact hP

/-- A transaction of another call is none of the own. -/
theorem NoneOwn.append {txs : List ProxyTx} {id : Nat} (h : NoneOwn txs id) {tx : ProxyTx}
    (hne : tx.call ≠ id) : NoneOwn (txs ++ [tx]) id := by
  intro tx' hmem
  rcases List.mem_append.mp hmem with hold | hnew
  · exact h tx' hold
  · rw [List.mem_singleton.mp hnew]
    exact hne

/-- The own transaction stays when another is appended. -/
theorem OwnTx.append {txs : List ProxyTx} {id j : Nat} {tx : ProxyTx} (h : OwnTx txs id j tx)
    {new : ProxyTx} (hne : new.call ≠ id) : OwnTx (txs ++ [new]) id j tx := by
  have hj : j < txs.length := (List.getElem?_eq_some_iff.mp h.1).1
  refine ⟨by rw [List.getElem?_append_left hj]; exact h.1, ?_⟩
  intro k tx' hk
  by_cases hlt : k < txs.length
  · rw [List.getElem?_append_left hlt] at hk
    exact h.2 k tx' hk
  · rw [List.getElem?_append_right (by omega)] at hk
    have hzero : k - txs.length = 0 := by
      have := (List.getElem?_eq_some_iff.mp hk).1
      simpa using this
    rw [hzero] at hk
    obtain rfl := Option.some.inj hk
    refine iff_of_false hne ?_
    omega

/-- The transaction that a call submits is its own. -/
theorem NoneOwn.submit {txs : List ProxyTx} {id : Nat} (h : NoneOwn txs id) :
    OwnTx (txs ++ [⟨id, false, false⟩]) id txs.length ⟨id, false, false⟩ := by
  refine ⟨by simp, ?_⟩
  intro k tx' hk
  by_cases hlt : k < txs.length
  · rw [List.getElem?_append_left hlt] at hk
    refine iff_of_false (h tx' (List.mem_of_getElem? hk)) ?_
    omega
  · have hbound := (List.getElem?_eq_some_iff.mp hk).1
    rw [List.length_append, List.length_singleton] at hbound
    obtain rfl : k = txs.length := by omega
    simp only [List.getElem?_concat_length, Option.some.injEq] at hk
    simp [← hk]

/-! ## A transaction that changes -/

/-- What happens to transactions makes none the own. -/
theorem NoneOwn.set {txs : List ProxyTx} {id k : Nat} {tx tx' : ProxyTx} (h : NoneOwn txs id)
    (hk : txs[k]? = some tx) (hcall : tx'.call = tx.call) : NoneOwn (txs.set k tx') id := by
  intro d hd
  rcases List.mem_or_eq_of_mem_set hd with hold | rfl
  · exact h d hold
  · rw [hcall]
    exact h tx (List.mem_of_getElem? hk)

/-- The own transaction is the one that changed or stays. -/
theorem OwnTx.set {txs : List ProxyTx} {id j k : Nat} {own tx tx' : ProxyTx}
    (h : OwnTx txs id j own) (hk : txs[k]? = some tx) (hcall : tx'.call = tx.call) :
    OwnTx (txs.set k tx') id j (if k = j then tx' else own) := by
  have hlt : k < txs.length := (List.getElem?_eq_some_iff.mp hk).1
  constructor
  · split
    · rename_i hkj
      subst hkj
      exact List.getElem?_set_self hlt
    · rename_i hkj
      rw [List.getElem?_set_ne hkj]
      exact h.1
  · intro i d hd
    by_cases hik : k = i
    · subst hik
      rw [List.getElem?_set_self hlt] at hd
      obtain rfl := Option.some.inj hd
      rw [hcall]
      exact h.2 k tx hk
    · rw [List.getElem?_set_ne hik] at hd
      exact h.2 i d hd

/-! ## The windows of a call -/

/-- The call will look at the cookie of the channel. -/
def ProxyPc.usesCookie : ProxyPc → Bool
  | .checkCookie | .waitForTransfer | .wait | .isTxComplete _ => true
  | _ => false

/-- The wait is over. -/
def ProxyPc.waited : ProxyPc → Bool
  | .isTxComplete _ | .storeStatus _ _ | .unmap => true
  | _ => false

namespace ProxyCall

/-- The call has initialised the completion and will wait for it. -/
def awaits (c : ProxyCall cfg) : Bool :=
  match c.pc with
  | .submit _ | .waitForTransfer | .wait => true
  | .issuePending _ | .storeCookie _ | .checkCookie => !c.submitted.isEmpty
  | _ => false

/-- What `start_transfer` returns: an error without a transaction, or the cookie of the own one. -/
def CookieOf (txs : List ProxyTx) (c : ProxyCall cfg) (cookie : Int) : Prop :=
  (c.submitted = [] ∧ dmaSubmitError cookie = true ∧ NoneOwn txs c.id) ∨
    (c.submitted ≠ [] ∧ ∃ (j : Nat) (tx : ProxyTx), cookie = j + 1 ∧ OwnTx txs c.id j tx)

/-- How the wait ended: by the callback, or without a completion. -/
def WaitEnded (woken : Bool) (tx : ProxyTx) : Prop :=
  if woken = true then tx.calledBack = true else tx.completed = false

/-- How a wait ended stays so. -/
theorem WaitEnded.mono {woken : Bool} {tx tx' : ProxyTx} (h : WaitEnded woken tx)
    (hcalled : tx.calledBack = true → tx'.calledBack = true)
    (hopen : tx.completed = false → tx'.completed = false) : WaitEnded woken tx' := by
  unfold WaitEnded at h ⊢
  split
  · rename_i hwoken
    rw [if_pos hwoken] at h
    exact hcalled h
  · rename_i hwoken
    rw [if_neg hwoken] at h
    exact hopen h

/-- What a call knows about its transaction. -/
def StatusInv (s : ProxySys cfg) (c : ProxyCall cfg) : Prop :=
  match c.pc with
  | .transfer | .startTransfer | .initCompletion _ | .submit _ =>
    c.submitted = [] ∧ NoneOwn s.txs c.id
  | .issuePending cookie | .storeCookie cookie => CookieOf s.txs c cookie
  | .checkCookie => CookieOf s.txs c s.ch.cookie
  | .waitForTransfer | .wait =>
    ∃ (j : Nat) (tx : ProxyTx), s.ch.cookie = j + 1 ∧ OwnTx s.txs c.id j tx
  | .isTxComplete woken =>
    ∃ (j : Nat) (tx : ProxyTx), s.ch.cookie = j + 1 ∧ OwnTx s.txs c.id j tx ∧ WaitEnded woken tx
  | .storeStatus woken complete =>
    ∃ j tx, OwnTx s.txs c.id j tx ∧ WaitEnded woken tx ∧ (woken = true → complete = true)
  | .unmap => ∃ j tx, OwnTx s.txs c.id j tx ∧
      ((s.ch.status = .noError ∧ tx.calledBack = true) ∨
        (s.ch.status = .timeout ∧ tx.completed = false))

/-- The next wait to end is ended by the transaction of this call. -/
def HeadOwn (s : ProxySys cfg) (c : ProxyCall cfg) : Prop :=
  ∀ k ∈ s.ch.cmp.head?, ∃ tx ∈ s.txs[k]?, tx.call = c.id

/-- The next step of this call disturbs none of the others, does not time out on a transaction that
has completed, and does not return an error with the status of a success. -/
def Alone (s : ProxySys cfg) (others : List (ProxyCall cfg)) (c : ProxyCall cfg) : Prop :=
  match c.pc with
  | .storeCookie _ => ∀ d ∈ others, d.pc.usesCookie = false
  | .checkCookie => dmaSubmitError s.ch.cookie = true → s.ch.status ≠ .noError
  | .waitForTransfer => ∀ d ∈ others, d.pc ≠ .unmap
  | .wait => s.ch.cmp = [] → ∀ tx ∈ s.txs, tx.call = c.id → tx.completed = false
  | .storeStatus _ _ => ∀ d ∈ others, d.pc ≠ .unmap
  | _ => True

instance (s : ProxySys cfg) (others : List (ProxyCall cfg)) (c : ProxyCall cfg) :
    Decidable (c.Alone s others) := by
  unfold Alone
  split <;> infer_instance

end ProxyCall

namespace ProxySys

/-! ## What is known about the whole channel -/

/-- Each call in flight knows about its transaction, and a callback that was not waited for is that
of a completed transaction. -/
structure StatusInv (s : ProxySys cfg) : Prop where
  distinct : s.calls.Pairwise fun c d => c.id ≠ d.id
  freshCalls : ∀ c ∈ s.calls, c.id < s.nextId
  freshTxs : ∀ tx ∈ s.txs, tx.call < s.nextId
  called : ∀ tx ∈ s.txs, tx.calledBack = true → tx.completed = true
  tokens : ∀ k ∈ s.ch.cmp, ∃ tx ∈ s.txs[k]?, tx.calledBack = true
  own : ∀ c ∈ s.calls, c.StatusInv s
  heads : ∀ c ∈ s.calls, c.awaits = true → c.HeadOwn s

/-- This step disturbs no call. A call writes the cookie and the status while no other call is in
the window of the field, a transaction does not complete between the wait of its call and the
return, and a callback does not complete the completion that another call waits for. -/
def Undisturbed (s : ProxySys cfg) : ProxyAct cfg → Prop
  | .run i _ => ∀ c ∈ s.calls[i]?, c.Alone s (s.without i).calls
  | .complete k => ∀ tx ∈ s.txs[k]?, ∀ c ∈ s.calls, c.pc.waited = true → c.id ≠ tx.call
  | .callback k => s.ch.cmp = [] → ∀ tx ∈ s.txs[k]?, ∀ c ∈ s.calls, c.awaits = true →
      c.id = tx.call
  | _ => True

instance (s : ProxySys cfg) : ∀ a, Decidable (s.Undisturbed a)
  | .open => isTrue trivial
  | .mmap _ _ _ => isTrue trivial
  | .ioctl => isTrue trivial
  | .run i _ => inferInstanceAs (Decidable (∀ c ∈ s.calls[i]?, c.Alone s (s.without i).calls))
  | .complete k => inferInstanceAs (Decidable (∀ tx ∈ s.txs[k]?, ∀ c ∈ s.calls,
      c.pc.waited = true → c.id ≠ tx.call))
  | .callback k => inferInstanceAs (Decidable (s.ch.cmp = [] → ∀ tx ∈ s.txs[k]?, ∀ c ∈ s.calls,
      c.awaits = true → c.id = tx.call))

end ProxySys

/-! ## The steps of the others -/

namespace ProxyCall

/-- A call keeps what it knows when its transactions stay and the fields in whose windows it is do
not change. -/
theorem statusInv_frame {s t : ProxySys cfg} {c : ProxyCall cfg} (h : c.StatusInv s)
    (hcookie : c.pc.usesCookie = true → t.ch.cookie = s.ch.cookie)
    (hstatus : c.pc = .unmap → t.ch.status = s.ch.status)
    (hnone : NoneOwn s.txs c.id → NoneOwn t.txs c.id)
    (hown : ∀ j tx, OwnTx s.txs c.id j tx → ∃ tx', OwnTx t.txs c.id j tx' ∧
      (tx.calledBack = true → tx'.calledBack = true) ∧
      (c.pc.waited = true → tx.completed = false → tx'.completed = false)) : c.StatusInv t := by
  have hcookieOf : ∀ cookie, CookieOf s.txs c cookie → CookieOf t.txs c cookie := by
    intro cookie hof
    rcases hof with ⟨hnil, herr, hn⟩ | ⟨hne, j, tx, hj, htx⟩
    · exact Or.inl ⟨hnil, herr, hnone hn⟩
    · obtain ⟨tx', htx', -, -⟩ := hown j tx htx
      exact Or.inr ⟨hne, j, tx', hj, htx'⟩
  cases hpc : c.pc with
  | transfer | startTransfer | initCompletion | submit =>
    simp only [StatusInv, hpc] at h ⊢
    exact ⟨h.1, hnone h.2⟩
  | issuePending cookie | storeCookie cookie =>
    simp only [StatusInv, hpc] at h ⊢
    exact hcookieOf cookie h
  | checkCookie =>
    simp only [StatusInv, hpc] at h ⊢
    rw [hcookie (by rw [hpc]; rfl)]
    exact hcookieOf _ h
  | waitForTransfer | wait =>
    simp only [StatusInv, hpc] at h ⊢
    rw [hcookie (by rw [hpc]; rfl)]
    obtain ⟨j, tx, hj, htx⟩ := h
    obtain ⟨tx', htx', -, -⟩ := hown j tx htx
    exact ⟨j, tx', hj, htx'⟩
  | isTxComplete woken =>
    simp only [StatusInv, hpc] at h ⊢
    rw [hcookie (by rw [hpc]; rfl)]
    obtain ⟨j, tx, hj, htx, hended⟩ := h
    obtain ⟨tx', htx', hcalled, hopen⟩ := hown j tx htx
    exact ⟨j, tx', hj, htx', hended.mono hcalled (hopen (by rw [hpc]; rfl))⟩
  | storeStatus woken complete =>
    simp only [StatusInv, hpc] at h ⊢
    obtain ⟨j, tx, htx, hended, hcomplete⟩ := h
    obtain ⟨tx', htx', hcalled, hopen⟩ := hown j tx htx
    exact ⟨j, tx', htx', hended.mono hcalled (hopen (by rw [hpc]; rfl)), hcomplete⟩
  | unmap =>
    simp only [StatusInv, hpc] at h ⊢
    rw [hstatus hpc]
    obtain ⟨j, tx, htx, hend⟩ := h
    obtain ⟨tx', htx', hcalled, hopen⟩ := hown j tx htx
    refine ⟨j, tx', htx', ?_⟩
    rcases hend with ⟨hok, hback⟩ | ⟨htimeout, hnot⟩
    · exact Or.inl ⟨hok, hcalled hback⟩
    · exact Or.inr ⟨htimeout, hopen (by rw [hpc]; rfl) hnot⟩

/-! ## The steps of a call -/

/-- The cookie of a call tells of its own transaction. -/
theorem txComplete_own {txs : List ProxyTx} {id j : Nat} {tx : ProxyTx} {cookie : Int}
    (h : OwnTx txs id j tx) (hcookie : cookie = j + 1) : txComplete txs cookie = tx.completed := by
  subst hcookie
  have hpos : ¬ (j : Int) + 1 ≤ 0 := by omega
  simp [txComplete, hpos, h.1]

/-- A call carries on what it knows. -/
theorem statusInv_goesOn {env : ProxyEnv cfg} {s t : ProxySys cfg} {c c' : ProxyCall cfg}
    (hinv : c.StatusInv s) (hhead : c.awaits = true → c.HeadOwn s)
    (hcalled : ∀ tx ∈ s.txs, tx.calledBack = true → tx.completed = true)
    (htokens : ∀ k ∈ s.ch.cmp, ∃ tx ∈ s.txs[k]?, tx.calledBack = true)
    (htimeout : c.pc = .wait → s.ch.cmp = [] → ∀ tx ∈ s.txs, tx.call = c.id → tx.completed = false)
    (h : c.run env s = (t, .goesOn c')) :
    c'.StatusInv t ∧ (c'.awaits = true → c'.HeadOwn t) := by
  cases hpc : c.pc with
  | transfer =>
    simp only [StatusInv, hpc] at hinv
    simp only [run, hpc] at h
    split at h
    · cases h
      exact ⟨hinv, fun hawaits => by simp [awaits] at hawaits⟩
    · cases h
      exact ⟨hinv, fun hawaits => by simp [awaits] at hawaits⟩
  | startTransfer =>
    simp only [StatusInv, hpc] at hinv
    simp only [run, hpc] at h
    split at h
    · cases h
      refine ⟨Or.inl ⟨hinv.1, by decide, hinv.2⟩, fun hawaits => ?_⟩
      simp [awaits, hinv.1] at hawaits
    · cases h
      exact ⟨hinv, fun hawaits => by simp [awaits] at hawaits⟩
    · cases h
  | initCompletion length =>
    simp only [StatusInv, hpc] at hinv
    simp only [run, hpc] at h
    cases h
    refine ⟨hinv, fun _ k hk => ?_⟩
    cases hk
  | submit length =>
    simp only [StatusInv, hpc] at hinv
    simp only [run, hpc] at h
    split at h
    · rename_i err herr
      cases h
      refine ⟨Or.inl ⟨hinv.1, ?_, hinv.2⟩, fun hawaits => ?_⟩
      · cases err <;> decide
      · simp [awaits, hinv.1] at hawaits
    · cases h
      refine ⟨Or.inr ⟨by simp, s.txs.length, _, rfl, hinv.2.submit⟩, fun _ k hk => ?_⟩
      -- nothing has completed the completion yet
      obtain ⟨tx, htx, hcall⟩ := hhead (by simp [awaits, hpc]) k hk
      exact absurd hcall (hinv.2 tx (List.mem_of_getElem? htx))
  | issuePending cookie =>
    simp only [StatusInv, hpc] at hinv
    simp only [run, hpc] at h
    cases h
    refine ⟨hinv, fun hawaits => ?_⟩
    exact hhead (by simpa [awaits, hpc] using hawaits)
  | storeCookie cookie =>
    simp only [StatusInv, hpc] at hinv
    simp only [run, hpc] at h
    cases h
    refine ⟨hinv, fun hawaits => ?_⟩
    exact hhead (by simpa [awaits, hpc] using hawaits)
  | checkCookie =>
    simp only [StatusInv, hpc] at hinv
    simp only [run, hpc] at h
    split at h
    · cases h
    · rename_i hok
      cases h
      rcases hinv with ⟨-, herr, -⟩ | ⟨hne, hown⟩
      · contradiction
      · refine ⟨hown, fun _ => ?_⟩
        exact hhead (by simpa [awaits, hpc] using hne)
  | waitForTransfer =>
    simp only [StatusInv, hpc] at hinv
    simp only [run, hpc] at h
    cases h
    refine ⟨hinv, fun _ => ?_⟩
    exact hhead (by simp [awaits, hpc])
  | wait =>
    simp only [StatusInv, hpc] at hinv
    obtain ⟨j, tx, hj, htx⟩ := hinv
    simp only [run, hpc] at h
    split at h
    · rename_i hcmp
      cases h
      have hopen := htimeout hpc hcmp tx (List.mem_of_getElem? htx.1) htx.call
      refine ⟨⟨j, tx, hj, htx, ?_⟩, fun hawaits => by simp [awaits] at hawaits⟩
      rw [WaitEnded, if_neg Bool.false_ne_true]
      exact hopen
    · rename_i k rest hcmp
      cases h
      -- the callback is that of the own transaction
      obtain ⟨tx₁, htx₁, hcall⟩ := hhead (by simp [awaits, hpc]) k (by simp [hcmp])
      obtain rfl : k = j := (htx.2 k tx₁ htx₁).mp hcall
      obtain ⟨tx₂, htx₂, hback⟩ := htokens k (by simp [hcmp])
      obtain rfl : tx = tx₂ := Option.some.inj (htx.1.symm.trans htx₂)
      refine ⟨⟨k, tx, hj, htx, ?_⟩, fun hawaits => by simp [awaits] at hawaits⟩
      rw [WaitEnded, if_pos rfl]
      exact hback
  | isTxComplete woken =>
    simp only [StatusInv, hpc] at hinv
    obtain ⟨j, tx, hj, htx, hended⟩ := hinv
    simp only [run, hpc] at h
    cases h
    refine ⟨⟨j, tx, htx, hended, fun hwoken => ?_⟩, fun hawaits => by simp [awaits] at hawaits⟩
    rw [txComplete_own htx hj]
    rw [WaitEnded, if_pos hwoken] at hended
    exact hcalled tx (List.mem_of_getElem? htx.1) hended
  | storeStatus woken complete =>
    simp only [StatusInv, hpc] at hinv
    obtain ⟨j, tx, htx, hended, hcomplete⟩ := hinv
    simp only [run, hpc] at h
    cases h
    refine ⟨⟨j, tx, htx, ?_⟩, fun hawaits => by simp [awaits] at hawaits⟩
    cases woken with
    | true => exact Or.inl ⟨by simp [hcomplete rfl], hended⟩
    | false => exact Or.inr ⟨rfl, hended⟩
  | unmap =>
    simp only [run, hpc] at h
    split at h <;> cases h

/-- The status describes the transaction of this call: a success only after its callback, a timeout
or an error only if it has not completed. The status that `wait_for_transfer` begins with is left
only to a call that submitted nothing and returns with the error. -/
def Describes (s : ProxySys cfg) (c : ProxyCall cfg) : Prop :=
  (s.ch.status = .noError → ∃ tx ∈ s.txs, tx.call = c.id ∧ tx.calledBack = true) ∧
    (s.ch.status = .timeout ∨ s.ch.status = .error →
      ∀ tx ∈ s.txs, tx.call = c.id → tx.completed = false) ∧
    (s.ch.status = .busy → c.pc = .checkCookie ∧ c.submitted = [])

/-- After a wait the status is an outcome: the own transaction was called back, or it has not
completed and the status is that of a timeout or an error. -/
theorem Describes.outcome {s : ProxySys cfg} {c : ProxyCall cfg} (h : c.Describes s)
    (hpc : c.pc = .unmap) :
    (s.ch.status = .noError ∧ ∃ tx ∈ s.txs, tx.call = c.id ∧ tx.calledBack = true) ∨
      ((s.ch.status = .timeout ∨ s.ch.status = .error) ∧
        ∀ tx ∈ s.txs, tx.call = c.id → tx.completed = false) := by
  obtain ⟨hok, hbad, hbusy⟩ := h
  cases hstatus : s.ch.status with
  | noError => exact Or.inl ⟨rfl, hok hstatus⟩
  | timeout => exact Or.inr ⟨Or.inl rfl, hbad (Or.inl hstatus)⟩
  | error => exact Or.inr ⟨Or.inr rfl, hbad (Or.inr hstatus)⟩
  | busy =>
    have hfailed := (hbusy hstatus).1
    rw [hpc] at hfailed
    cases hfailed

/-- A call returns with the status of its own transaction, unless it returns an error with the
status of a success. -/
theorem describes_returned {env : ProxyEnv cfg} {s : ProxySys cfg} {c c' : ProxyCall cfg}
    (hinv : c.StatusInv s)
    (hfailed : c.pc = .checkCookie → dmaSubmitError s.ch.cookie = true → s.ch.status ≠ .noError)
    (h : (c.run env s).2.returned = some c') : c'.Describes (c.run env s).1 := by
  cases hpc : c.pc with
  | checkCookie =>
    simp only [StatusInv, hpc] at hinv
    simp only [run, hpc] at h ⊢
    split at h
    · rename_i herr
      cases h
      rw [if_pos herr]
      rcases hinv with ⟨hnil, -, hnone⟩ | ⟨-, j, -, hj, -⟩
      · refine ⟨fun hok => absurd hok (hfailed hpc herr), fun _ tx htx hcall => ?_, fun _ => ?_⟩
        · exact absurd hcall (hnone tx htx)
        · exact ⟨hpc, hnil⟩
      · simp only [dmaSubmitError, hj, decide_eq_true_eq] at herr
        omega
    · cases h
  | unmap =>
    simp only [StatusInv, hpc] at hinv
    obtain ⟨j, tx, htx, hend⟩ := hinv
    have hsame : c'.id = c.id ∧ (c.run env s).1 = s := by
      simp only [run, hpc] at h ⊢
      split at h
      · rename_i hcached
        cases h
        simp [hcached]
      · rename_i hcached
        cases h
        simp [hcached]
    rw [Describes, hsame.1, hsame.2]
    rcases hend with ⟨hstatus, hback⟩ | ⟨hstatus, hopen⟩
    · refine ⟨fun _ => ⟨tx, List.mem_of_getElem? htx.1, htx.call, hback⟩, fun hbad => ?_,
        fun hbusy => ?_⟩
      · rw [hstatus] at hbad
        rcases hbad with hbad | hbad <;> cases hbad
      · rw [hstatus] at hbusy
        cases hbusy
    · refine ⟨fun hok => ?_, fun _ => ?_, fun hbusy => ?_⟩
      · rw [hstatus] at hok
        cases hok
      · exact htx.forall_own hopen
      · rw [hstatus] at hbusy
        cases hbusy
  | transfer | startTransfer | initCompletion | submit | issuePending | storeCookie
  | waitForTransfer | wait | isTxComplete | storeStatus =>
    simp only [run, hpc] at h
    (try split at h) <;> cases h

end ProxyCall

/-! ## The whole channel -/

namespace ProxySys

/-- This step is honest: a call that returns does so with the status of its own transaction, and a
wait that ends does so by a callback of the own transaction. -/
def Honest (s : ProxySys cfg) : ProxyAct cfg → Prop
  | .run i env => ∀ c ∈ s.calls[i]?,
      (∀ c' ∈ (c.run env (s.without i)).2.returned, c'.Describes (c.run env (s.without i)).1) ∧
        (c.pc = .wait → c.HeadOwn s)
  | _ => True

instance (s : ProxySys cfg) (c : ProxyCall cfg) : Decidable (c.Describes s) :=
  inferInstanceAs (Decidable ((_ → ∃ tx ∈ s.txs, _) ∧ (_ → ∀ tx ∈ s.txs, _) ∧ (_ → _ ∧ _)))

instance (s : ProxySys cfg) (c : ProxyCall cfg) : Decidable (c.HeadOwn s) :=
  inferInstanceAs (Decidable (∀ k ∈ s.ch.cmp.head?, ∃ tx ∈ s.txs[k]?, tx.call = c.id))

instance (s : ProxySys cfg) : ∀ a, Decidable (s.Honest a)
  | .open => isTrue trivial
  | .mmap _ _ _ => isTrue trivial
  | .ioctl => isTrue trivial
  | .run i env => inferInstanceAs (Decidable (∀ c ∈ s.calls[i]?,
      (∀ c' ∈ (c.run env (s.without i)).2.returned, c'.Describes (c.run env (s.without i)).1) ∧
        (c.pc = .wait → c.HeadOwn s)))
  | .complete _ => isTrue trivial
  | .callback _ => isTrue trivial

/-- An undisturbed step is honest. -/
theorem honest_of_undisturbed {s : ProxySys cfg} {a : ProxyAct cfg} (hinv : s.StatusInv)
    (hok : s.Undisturbed a) : s.Honest a := by
  cases a with
  | run i env =>
    intro c hc
    have hmem : c ∈ s.calls := List.mem_of_getElem? hc
    refine ⟨fun c' hc' => ?_, fun hpc => ?_⟩
    · have hown : c.StatusInv (s.without i) := hinv.own c hmem
      apply ProxyCall.describes_returned hown _ hc'
      intro hpc
      have hguard : c.Alone s (s.without i).calls := hok c hc
      simp only [ProxyCall.Alone, hpc] at hguard
      exact hguard
    · apply hinv.heads c hmem
      simp [ProxyCall.awaits, hpc]
  | _ => trivial

/-- The other calls in flight, with different numbers. -/
theorem StatusInv.others {s : ProxySys cfg} (hinv : s.StatusInv) {i : Nat} {c : ProxyCall cfg}
    (hc : s.calls[i]? = some c) :
    (s.without i).calls.Pairwise (fun c d => c.id ≠ d.id) ∧
      ∀ d ∈ (s.without i).calls, d ∈ s.calls ∧ c.id ≠ d.id := by
  obtain ⟨hi, rfl⟩ := List.getElem?_eq_some_iff.mp hc
  have hperm := List.getElem_cons_eraseIdx_perm hi
  have hpairwise := (hperm.pairwise_iff fun h => Ne.symm h).mpr hinv.distinct
  rw [List.pairwise_cons] at hpairwise
  exact ⟨hpairwise.2, fun d hd => ⟨mem_of_mem_without hd, hpairwise.1 d hd⟩⟩

/-- A step of another call leaves alone what a call knows. -/
theorem statusInv_other {env : ProxyEnv cfg} {s : ProxySys cfg} {i : Nat} {c d : ProxyCall cfg}
    (hinv : s.StatusInv) (hok : s.Undisturbed (.run i env)) (hc : s.calls[i]? = some c)
    (hd : d ∈ (s.without i).calls) :
    d.StatusInv (c.run env (s.without i)).1 ∧
      (d.awaits = true → d.HeadOwn (c.run env (s.without i)).1) := by
  obtain ⟨hcookie, hstatus, hcmp, htxs⟩ := ProxyCall.run_shared env (s.without i) c
  obtain ⟨hmem, hne⟩ := (hinv.others hc).2 d hd
  have hguard : c.Alone s (s.without i).calls := hok c hc
  constructor
  · apply ProxyCall.statusInv_frame (hinv.own d hmem)
    · intro huses
      rcases hcookie with hsame | ⟨cookie, hpc⟩
      · exact hsame
      · simp only [ProxyCall.Alone, hpc] at hguard
        rw [hguard d hd] at huses
        cases huses
    · intro hunmap
      rcases hstatus with hsame | hpc | ⟨woken, complete, hpc⟩
      · exact hsame
      · simp only [ProxyCall.Alone, hpc] at hguard
        exact absurd hunmap (hguard d hd)
      · simp only [ProxyCall.Alone, hpc] at hguard
        exact absurd hunmap (hguard d hd)
    · intro hnone
      rcases htxs with hsame | happend
      · rw [hsame]
        exact hnone
      · rw [happend]
        exact hnone.append hne
    · intro j tx htx
      refine ⟨tx, ?_, id, fun _ h => h⟩
      rcases htxs with hsame | happend
      · rw [hsame]
        exact htx
      · rw [happend]
        exact htx.append hne
  · intro hawaits k hk
    have hhead := hinv.heads d hmem hawaits
    have hold : s.ch.cmp.head? = some k := by
      rcases hcmp with hsame | hnil | ⟨hpc, k₀, hpop⟩
      · rw [hsame] at hk
        exact hk
      · rw [hnil] at hk
        cases hk
      · -- the wait that took the callback was that of the same transaction
        rw [without_ch] at hpop
        obtain ⟨tx, htx, hcall⟩ := hhead k₀ (by rw [hpop]; rfl)
        obtain ⟨tx', htx', hcall'⟩ := hinv.heads c (List.mem_of_getElem? hc)
          (by simp [ProxyCall.awaits, hpc]) k₀ (by rw [hpop]; rfl)
        obtain rfl : tx = tx' := Option.some.inj (htx.symm.trans htx')
        exact absurd (hcall'.symm.trans hcall) hne
    obtain ⟨tx, htx, hcall⟩ := hhead k hold
    refine ⟨tx, ?_, hcall⟩
    rcases htxs with hsame | happend
    · rw [hsame]
      exact htx
    · rw [happend, without_txs, List.getElem?_append_left (List.getElem?_eq_some_iff.mp htx).1]
      exact htx

/-- What a step of a call leaves for the channel, whether it returns or not. -/
theorem statusInv_run_rest {env : ProxyEnv cfg} {s : ProxySys cfg} {i : Nat} {c : ProxyCall cfg}
    (hinv : s.StatusInv) (hok : s.Undisturbed (.run i env)) (hc : s.calls[i]? = some c) :
    (c.run env (s.without i)).1.StatusInv := by
  obtain ⟨hcookie, hstatus, hcmp, htxs⟩ := ProxyCall.run_shared env (s.without i) c
  obtain ⟨-, -, -, hcalls, hnext⟩ := ProxyCall.run_config env (s.without i) c
  have hid : c.id < s.nextId := hinv.freshCalls c (List.mem_of_getElem? hc)
  refine ⟨?_, ?_, ?_, ?_, ?_, ?_, ?_⟩
  · rw [hcalls]
    exact (hinv.others hc).1
  · intro d hd
    rw [hcalls] at hd
    rw [hnext]
    exact hinv.freshCalls d (mem_of_mem_without hd)
  · intro tx htx
    rw [hnext]
    rcases htxs with hsame | happend
    · rw [hsame] at htx
      exact hinv.freshTxs tx htx
    · rw [happend] at htx
      rcases List.mem_append.mp htx with hold | hnew
      · exact hinv.freshTxs tx hold
      · rw [List.mem_singleton.mp hnew]
        exact hid
  · intro tx htx hback
    rcases htxs with hsame | happend
    · rw [hsame] at htx
      exact hinv.called tx htx hback
    · rw [happend] at htx
      rcases List.mem_append.mp htx with hold | hnew
      · exact hinv.called tx hold hback
      · rw [List.mem_singleton.mp hnew] at hback
        cases hback
  · intro k hk
    have hold : k ∈ s.ch.cmp := by
      rcases hcmp with hsame | hnil | ⟨-, k₀, hpop⟩
      · rw [hsame] at hk
        exact hk
      · rw [hnil] at hk
        cases hk
      · rw [without_ch] at hpop
        rw [hpop]
        exact List.mem_cons_of_mem k₀ hk
    obtain ⟨tx, htx, hback⟩ := hinv.tokens k hold
    refine ⟨tx, ?_, hback⟩
    rcases htxs with hsame | happend
    · rw [hsame]
      exact htx
    · rw [happend, without_txs, List.getElem?_append_left (List.getElem?_eq_some_iff.mp htx).1]
      exact htx
  · intro d hd
    rw [hcalls] at hd
    exact (statusInv_other hinv hok hc hd).1
  · intro d hd hawaits
    rw [hcalls] at hd
    exact (statusInv_other hinv hok hc hd).2 hawaits

/-- A transaction changes: its call, and the calls that do not look at it, know what they knew. -/
theorem statusInv_set (cmp : List Nat) {s : ProxySys cfg} {k : Nat} {tx tx' : ProxyTx}
    {c : ProxyCall cfg} (hinv : c.StatusInv s) (hk : s.txs[k]? = some tx)
    (hcall : tx'.call = tx.call) (hback : tx.calledBack = true → tx'.calledBack = true)
    (hopen : c.pc.waited = true → tx.call = c.id → tx.completed = false → tx'.completed = false) :
    c.StatusInv { s with txs := s.txs.set k tx', ch := { s.ch with cmp := cmp } } := by
  apply ProxyCall.statusInv_frame hinv
  · intro _
    rfl
  · intro _
    rfl
  · intro hnone
    exact hnone.set hk hcall
  · intro j own hown
    refine ⟨if k = j then tx' else own, hown.set hk hcall, ?_⟩
    split
    · rename_i hkj
      subst hkj
      obtain rfl : tx = own := Option.some.inj (hk.symm.trans hown.1)
      exact ⟨hback, fun hwaited => hopen hwaited hown.call⟩
    · exact ⟨id, fun _ h => h⟩

/-- A fact about the transaction of a place survives when it holds of the changed one. -/
theorem getElem?_set_of {txs : List ProxyTx} {k j : Nat} {tx tx' : ProxyTx} {P : ProxyTx → Prop}
    (hk : txs[k]? = some tx) (h : ∃ d ∈ txs[j]?, P d) (hP : P tx → P tx') :
    ∃ d ∈ (txs.set k tx')[j]?, P d := by
  obtain ⟨d, hd, hPd⟩ := h
  by_cases hkj : k = j
  · subst hkj
    obtain rfl : tx = d := Option.some.inj (hk.symm.trans hd)
    exact ⟨tx', List.getElem?_set_self (List.getElem?_eq_some_iff.mp hk).1, hP hPd⟩
  · refine ⟨d, ?_, hPd⟩
    rw [List.getElem?_set_ne hkj]
    exact hd

/-- The DMA engine changes one transaction and what is in the completion. -/
theorem StatusInv.set {s : ProxySys cfg} (hinv : s.StatusInv) {k : Nat} {tx tx' : ProxyTx}
    {cmp : List Nat} (hk : s.txs[k]? = some tx) (hcall : tx'.call = tx.call)
    (hback : tx.calledBack = true → tx'.calledBack = true)
    (hdone : tx'.calledBack = true → tx'.completed = true)
    (hopen : ∀ c ∈ s.calls, c.pc.waited = true → tx.call = c.id → tx.completed = false →
      tx'.completed = false)
    (htokens : ∀ j ∈ cmp, j ∈ s.ch.cmp ∨ (j = k ∧ tx'.calledBack = true))
    (hheads : ∀ c ∈ s.calls, c.awaits = true → ∀ j ∈ cmp.head?,
      j ∈ s.ch.cmp.head? ∨ (j = k ∧ tx.call = c.id)) :
    StatusInv { s with txs := s.txs.set k tx', ch := { s.ch with cmp := cmp } } := by
  have hlt : k < s.txs.length := (List.getElem?_eq_some_iff.mp hk).1
  refine ⟨hinv.distinct, hinv.freshCalls, ?_, ?_, ?_, ?_, ?_⟩
  · intro d hd
    rcases List.mem_or_eq_of_mem_set hd with hold | rfl
    · exact hinv.freshTxs d hold
    · rw [hcall]
      exact hinv.freshTxs tx (List.mem_of_getElem? hk)
  · intro d hd hcalled
    rcases List.mem_or_eq_of_mem_set hd with hold | rfl
    · exact hinv.called d hold hcalled
    · exact hdone hcalled
  · intro j hj
    rcases htokens j hj with hold | ⟨rfl, hcalled⟩
    · exact getElem?_set_of hk (hinv.tokens j hold) hback
    · exact ⟨tx', List.getElem?_set_self hlt, hcalled⟩
  · intro c hc
    exact statusInv_set cmp (hinv.own c hc) hk hcall hback (hopen c hc)
  · intro c hc hawaits j hj
    rcases hheads c hc hawaits j hj with hold | ⟨rfl, hown⟩
    · apply getElem?_set_of hk (hinv.heads c hc hawaits j hold)
      intro h
      rw [hcall]
      exact h
    · exact ⟨tx', List.getElem?_set_self hlt, hcall.trans hown⟩

/-- A new call keeps the invariant. -/
theorem statusInv_ioctl {s : ProxySys cfg} (hinv : s.StatusInv) : s.enterIoctl.StatusInv := by
  refine ⟨?_, ?_, ?_, hinv.called, hinv.tokens, ?_, ?_⟩
  · refine List.pairwise_cons.mpr ⟨fun c hc => ?_, hinv.distinct⟩
    exact (hinv.freshCalls c hc).ne'
  · intro c hc
    rcases List.mem_cons.mp hc with rfl | hc
    · exact Nat.lt_succ_self s.nextId
    · exact Nat.lt_succ_of_lt (hinv.freshCalls c hc)
  · intro tx htx
    exact Nat.lt_succ_of_lt (hinv.freshTxs tx htx)
  · intro c hc
    rcases List.mem_cons.mp hc with rfl | hc
    · exact ⟨rfl, fun tx htx => (hinv.freshTxs tx htx).ne⟩
    · exact hinv.own c hc
  · intro c hc hawaits
    rcases List.mem_cons.mp hc with rfl | hc
    · cases hawaits
    · exact hinv.heads c hc hawaits

/-- A step of a call that goes on puts the call back next to the others. -/
theorem statusInv_run_goesOn {env : ProxyEnv cfg} {s t : ProxySys cfg} {i : Nat}
    {c c' : ProxyCall cfg} (hinv : s.StatusInv) (hok : s.Undisturbed (.run i env))
    (hc : s.calls[i]? = some c) (hrun : c.run env (s.without i) = (t, .goesOn c')) :
    StatusInv { t with calls := c' :: (s.without i).calls } := by
  have hmem : c ∈ s.calls := List.mem_of_getElem? hc
  have hrest := statusInv_run_rest hinv hok hc
  have hconfig := ProxyCall.run_config env (s.without i) c
  rw [hrun] at hrest hconfig
  have hcalls : t.calls = (s.without i).calls := hconfig.2.2.2.1
  have hid : c'.id = c.id := ProxyCall.run_id (Or.inl hrun)
  have hown : c'.StatusInv t ∧ (c'.awaits = true → c'.HeadOwn t) := by
    refine ProxyCall.statusInv_goesOn (s := s.without i) (hinv.own c hmem) (hinv.heads c hmem)
      hinv.called hinv.tokens ?_ hrun
    intro hpc hcmp
    have hguard : c.Alone s (s.without i).calls := hok c hc
    simp only [ProxyCall.Alone, hpc] at hguard
    exact hguard hcmp
  refine ⟨?_, ?_, hrest.freshTxs, hrest.called, hrest.tokens, ?_, ?_⟩
  · refine List.pairwise_cons.mpr ⟨fun d hd => ?_, (hinv.others hc).1⟩
    rw [hid]
    exact ((hinv.others hc).2 d hd).2
  · intro d hd
    rcases List.mem_cons.mp hd with rfl | hd
    · rw [hid, hconfig.2.2.2.2]
      exact hinv.freshCalls c hmem
    · rw [← hcalls] at hd
      exact hrest.freshCalls d hd
  · intro d hd
    rcases List.mem_cons.mp hd with rfl | hd
    · exact hown.1
    · rw [← hcalls] at hd
      exact hrest.own d hd
  · intro d hd hawaits
    rcases List.mem_cons.mp hd with rfl | hd
    · exact hown.2 hawaits
    · rw [← hcalls] at hd
      exact hrest.heads d hd hawaits

/-- Every undisturbed step keeps the invariant. -/
theorem statusInv_step {s s' : ProxySys cfg} {a : ProxyAct cfg} (hinv : s.StatusInv)
    (hok : s.Undisturbed a) (h : s.proxyStep a = some s') : s'.StatusInv := by
  cases a with
  | «open» =>
    cases h
    exact hinv
  | mmap vmaPages pgoff remapOk =>
    cases h
    exact hinv
  | ioctl =>
    cases h
    exact statusInv_ioctl hinv
  | run i env =>
    obtain ⟨c, t, hc, hend⟩ := proxyStep_run h
    rcases hend with ⟨c', hrun, rfl⟩ | ⟨c', hrun, rfl⟩
    · exact statusInv_run_goesOn hinv hok hc hrun
    · have hrest := statusInv_run_rest hinv hok hc
      rw [hrun] at hrest
      exact hrest
  | complete k =>
    obtain ⟨tx, hk, hopen, rfl⟩ := proxyStep_complete h
    apply hinv.set hk
    · rfl
    · exact id
    · intro _
      rfl
    · intro c hc hwaited hcall
      exact absurd hcall.symm (hok tx hk c hc hwaited)
    · intro j hj
      exact Or.inl hj
    · intro c _ _ j hj
      exact Or.inl hj
  | callback k =>
    obtain ⟨tx, hk, hdone, -, rfl⟩ := proxyStep_callback h
    apply hinv.set hk
    · rfl
    · intro _
      rfl
    · intro _
      exact hdone
    · intro c _ _ _ hnot
      exact hnot
    · intro j hj
      rcases List.mem_append.mp hj with hold | hlast
      · exact Or.inl hold
      · exact Or.inr ⟨List.mem_singleton.mp hlast, rfl⟩
    · intro c hc hawaits j hj
      cases hcmp : s.ch.cmp with
      | nil =>
        -- the callback that ends the next wait is this one
        simp only [hcmp, List.nil_append, List.head?_cons, Option.mem_some_iff] at hj
        exact Or.inr ⟨hj.symm, (hok hcmp tx hk c hc hawaits).symm⟩
      | cons k₀ rest =>
        rw [hcmp] at hj
        exact Or.inl hj

/-- At first no call is in flight. -/
theorem statusInv_created (cachedBuffers : Bool) (direction : DmaTransferDirection)
    (addr : DmaAddr cfg) : (created cachedBuffers direction addr).StatusInv := by
  refine ⟨List.Pairwise.nil, ?_, ?_, ?_, ?_, ?_, ?_⟩
  all_goals
    intro x hx
    cases hx

/-! ## Steps that disturb a call -/

/-- A callback that completes the completion while another call waits ends the wait of that
call. -/
theorem foreign_callback_dishonest {s s' : ProxySys cfg} {k i : Nat} {tx : ProxyTx}
    {d : ProxyCall cfg} (env : ProxyEnv cfg) (hcmp : s.ch.cmp = []) (hk : s.txs[k]? = some tx)
    (hd : s.calls[i]? = some d) (hpc : d.pc = .wait) (hne : tx.call ≠ d.id)
    (h : s.proxyStep (.callback k) = some s') : ¬ s'.Honest (.run i env) := by
  intro hhonest
  obtain ⟨tx₀, hk₀, -, -, rfl⟩ := proxyStep_callback h
  obtain rfl : tx = tx₀ := Option.some.inj (hk.symm.trans hk₀)
  obtain ⟨tx', htx', hcall⟩ := (hhonest d hd).2 hpc k (by simp [hcmp])
  have hlt : k < s.txs.length := (List.getElem?_eq_some_iff.mp hk).1
  simp only [List.getElem?_set_self hlt, Option.mem_some_iff] at htx'
  subst htx'
  exact hne hcall

/-- A call whose prep or submit has failed returns with the status of a success when it finds
one. -/
theorem failed_return_dishonest {s : ProxySys cfg} (hinv : s.StatusInv) {i : Nat}
    {c : ProxyCall cfg} (env : ProxyEnv cfg) (hc : s.calls[i]? = some c) (hpc : c.pc = .checkCookie)
    (herr : dmaSubmitError s.ch.cookie = true) (hstatus : s.ch.status = .noError) :
    ¬ s.Honest (.run i env) := by
  intro hhonest
  have hown := hinv.own c (List.mem_of_getElem? hc)
  simp only [ProxyCall.StatusInv, hpc] at hown
  have hrun : c.run env (s.without i) = (s.without i, .returns c) := by
    simp [ProxyCall.run, hpc, herr]
  have hdescribes : c.Describes (s.without i) := by
    have hreturned := (hhonest c hc).1
    rw [hrun] at hreturned
    exact hreturned c rfl
  obtain ⟨tx, htx, hcall, -⟩ := hdescribes.1 hstatus
  rcases hown with ⟨-, -, hnone⟩ | ⟨-, j, -, hj, -⟩
  · exact hnone tx htx hcall
  · simp only [dmaSubmitError, hj, decide_eq_true_eq] at herr
    omega

/-- A call that begins to wait takes the outcome from a call that is about to return. -/
theorem busy_return_dishonest {s s' : ProxySys cfg} {i : Nat} {c d : ProxyCall cfg}
    (env : ProxyEnv cfg) (hc : s.calls[i]? = some c) (hpc : c.pc = .waitForTransfer)
    (hd : d ∈ (s.without i).calls) (hunmap : d.pc = .unmap)
    (h : s.proxyStep (.run i env) = some s') :
    ∃ j, s'.calls[j]? = some d ∧ ∀ env', ¬ s'.Honest (.run j env') := by
  obtain ⟨c₀, t, hc₀, hend⟩ := proxyStep_run h
  obtain rfl : c = c₀ := Option.some.inj (hc.symm.trans hc₀)
  have hrun : c.run env (s.without i) = ({ s.without i with
      ch := { s.ch with status := .busy } }, .goesOn { c with pc := .wait }) := by
    simp [ProxyCall.run, hpc]
  obtain ⟨hbusy, hin⟩ : s'.ch.status = .busy ∧ d ∈ s'.calls := by
    rcases hend with ⟨c', hgoes, rfl⟩ | ⟨c', hreturns, rfl⟩
    · cases hrun.symm.trans hgoes
      exact ⟨rfl, List.mem_cons_of_mem _ hd⟩
    · cases hrun.symm.trans hreturns
  obtain ⟨j, hj⟩ := List.mem_iff_getElem?.mp hin
  refine ⟨j, hj, fun env' hhonest => ?_⟩
  obtain ⟨d', hreturned, hpc', hstatus⟩ : ∃ d', (d.run env' (s'.without j)).2.returned = some d' ∧
      d'.pc = .unmap ∧ (d.run env' (s'.without j)).1.ch.status = .busy := by
    simp only [ProxyCall.run, hunmap]
    split
    · exact ⟨_, rfl, rfl, hbusy⟩
    · exact ⟨_, rfl, hunmap, hbusy⟩
  have hdescribes := (hhonest d hj).1 d' hreturned
  rcases hdescribes.outcome hpc' with ⟨hok, -⟩ | ⟨htimeout | herror, -⟩
  · cases hstatus.symm.trans hok
  · cases hstatus.symm.trans htimeout
  · cases hstatus.symm.trans herror

/-! ## Runs -/

/-- **A call reports the outcome of its own transfer** at every step of a run in which no step
disturbs a call. -/
theorem status_honest {cachedBuffers : Bool} {direction : DmaTransferDirection}
    {addr : DmaAddr cfg} {as : List (ProxyAct cfg)}
    (hok : ExecOk proxyStep Undisturbed (created cachedBuffers direction addr) as) :
    ExecOk proxyStep Honest (created cachedBuffers direction addr) as := by
  refine Reachable.execOk_of_invariant hok (statusInv_created cachedBuffers direction addr) ?_ ?_
  · intro s a hinv hstep
    exact honest_of_undisturbed hinv hstep
  · intro s a s' hinv hstep hs
    exact statusInv_step hinv hstep hs

/-- So many steps of the only call. -/
def steps (n : Nat) : List (ProxyAct .addr32) := List.replicate n (.run 0 (.serving 16))

/-- A call times out, and the callback of its transaction comes before the next call. -/
theorem status_honest_timedOut :
    ExecOk proxyStep Honest (created false .devToMem 0)
      ([.ioctl] ++ steps 12 ++ [.complete 0, .callback 0] ++
        [.ioctl] ++ steps 8 ++ [.complete 1, .callback 1] ++ steps 4) :=
  status_honest (by decide +kernel)

/-- The first call gets no descriptor and finds the status that memory had at first; a call waits
while the callback of one that has timed out comes; a call begins to wait while another one, which
has timed out, is about to return. -/
theorem status_dishonest :
    ¬ ExecOk proxyStep Honest (created true .devToMem 0)
        ([.ioctl] ++ steps 1 ++ [.run 0 { ProxyEnv.serving 16 with kzallocOk := false }] ++
          steps 2) ∧
      ¬ ExecOk proxyStep Honest (created true .devToMem 0)
        ([.ioctl] ++ steps 12 ++ [.ioctl] ++ steps 4 ++ [.complete 0, .callback 0] ++ steps 5) ∧
      ¬ ExecOk proxyStep Honest (created true .devToMem 0)
        ([.ioctl] ++ steps 11 ++ [.ioctl] ++ steps 8 ++ [.run 1 (.serving 16)]) := by
  refine ⟨?_, ?_, ?_⟩
  all_goals decide +kernel

end ProxySys

end PetalinuxDriver
