import Mathlib.Algebra.BigOperators.Group.Finset.Basic
import Mathlib.Algebra.Order.BigOperators.Group.Finset
import PetalinuxDriver.Model.SharedChannels

/-!
# The channels that the modules lose

A channel is free, or a call in flight has it, or a call has ended with it: `channels_accounted`
accounts for all channels in every interleaving of the four modules. What is lost stays lost, so
there are never more calls that use channels than there are channels left (`inUse_le`). That no
channel is released twice, or by someone who never had it, is not a matter of course: the pointers
of an earlier call stay, and what is released is what a pointer says. `ChannelCall.Wf` is what a call
has and what its pointers say, at each point.

A call loses a channel when it gets one and not the other. On a device with as many channels of
either side that takes two calls whose requests or releases are interleaved. As long as the two
requests of a call, and its two releases, are not torn apart by those of another call, channels come
and go in pairs and none is lost (`pairs_conserved`).
-/

set_option autoImplicit false

namespace PetalinuxDriver

open Library

open scoped BigOperators

/-! ## Accounts -/

/-- A sum over the values of a function after one of them has changed. -/
theorem sum_update_add {ι α : Type*} [Fintype ι] [DecidableEq ι] (g : α → Nat) (f : ι → α) (i : ι)
    (a : α) : (∑ k, g (Function.update f i a k)) + g (f i) = (∑ k, g (f k)) + g a := by
  have hrest : ∀ k ∈ Finset.univ.erase i, g (Function.update f i a k) = g (f k) := by
    intro k hk
    rw [Function.update_of_ne (Finset.ne_of_mem_erase hk)]
  rw [← Finset.add_sum_erase _ _ (Finset.mem_univ i), ← Finset.add_sum_erase _ (fun k => g (f k))
    (Finset.mem_univ i), Finset.sum_congr rfl hrest, Function.update_self]
  omega

/-- The channels of a side that a call has. -/
def held (side : DmaSide) : Option ChannelCall → Nat
  | none => 0
  | some c => if c.has side then 1 else 0

namespace ChannelCall

/-- What a call of this client has at this point, and what its pointers say. In the beginning they
say nothing; before a release they say what there is to release. -/
def Wf (k : ChannelClient) (c : ChannelCall) : Prop :=
  match c.pc with
  | .request .tx => c.has .tx = false ∧ c.has .rx = false
  | .request .rx => c.has .rx = false ∧ c.ptr .tx = c.has .tx ∧ (k = .dmaProxy → c.has .tx = true)
  | .create .tx => c.has .tx = true ∧ c.has .rx = false ∧ c.ptr .tx = true
  | .create .rx => ∀ side, c.has side = true ∧ c.ptr side = true
  | .check => ∀ side, c.ptr side = c.has side
  | .use => ∀ side, c.has side = true ∧ c.ptr side = true
  | .release .tx => ∀ side, k.callsRelease (c.ptr side) = c.has side
  | .release .rx => c.has .tx = false ∧ k.callsRelease (c.ptr .rx) = c.has .rx

/-- A call begins with no channel, whatever is in its pointers. -/
theorem wf_start (k : ChannelClient) (ptr : DmaSide → Bool) : (start ptr).Wf k := ⟨rfl, rfl⟩

section Engine

variable (k : ChannelClient) (side : DmaSide) (ok : Bool) (free : DmaSide → Nat) (c : ChannelCall)

/-- A request gets a channel of its side. -/
def gets : Bool := ok && decide (0 < free side)

/-- A request takes a channel of its side when it gets one. -/
@[simp] theorem request_free : (request k side ok free c).free =
    if gets side ok free then Function.update free side (free side - 1) else free := by
  cases k <;> cases side <;> rfl

/-- After a request the call has a channel of the side exactly when it got one. -/
@[simp] theorem request_has :
    (request k side ok free c).call.has = Function.update c.has side (gets side ok free) := by
  cases k <;> cases side <;> rfl

/-- The pointer says what the request has got. -/
@[simp] theorem request_ptr :
    (request k side ok free c).call.ptr = Function.update c.ptr side (gets side ok free) := by
  cases k <;> cases side <;> rfl

/-- A `dma_release_channel` makes one more free. -/
@[simp] theorem release_free : (release k side free c).free =
    if k.callsRelease (c.ptr side) then Function.update free side (free side + 1) else free := by
  cases side <;> rfl

/-- After a `dma_release_channel` the call has none of that side. -/
@[simp] theorem release_has : (release k side free c).call.has =
    if k.callsRelease (c.ptr side) then Function.update c.has side false else c.has := by
  cases side <;> rfl

/-- Nobody sets a pointer back. -/
@[simp] theorem release_ptr : (release k side free c).call.ptr = c.ptr := by
  cases side <;> rfl

end Engine

/-- A request keeps this up. -/
theorem wf_request {k : ChannelClient} {side : DmaSide} {ptr has : DmaSide → Bool}
    (h : Wf k ⟨.request side, ptr, has⟩) (ok : Bool) (free : DmaSide → Nat)
    (hon : (request k side ok free ⟨.request side, ptr, has⟩).goesOn = true) :
    (request k side ok free ⟨.request side, ptr, has⟩).call.Wf k := by
  cases side with
  | tx =>
    obtain ⟨-, hrx⟩ := h
    cases k with
    | dmaProxy =>
      exact ⟨by simpa [request] using hon, by simpa [request] using hrx, by
        simpa [request] using hon⟩
    | vxaxidmaTest =>
      exact ⟨by simpa [request] using hrx, by simp [request], fun hk => by cases hk⟩
    | axidmaInit =>
      exact ⟨by simpa [request] using hrx, by simp [request], fun hk => by cases hk⟩
    | xhlsTest =>
      exact ⟨by simpa [request] using hrx, by simp [request], fun hk => by cases hk⟩
  | rx =>
    obtain ⟨-, hptr, hproxy⟩ := h
    have hptr : ptr .tx = has .tx := hptr
    have hsame : ∀ got side, Function.update ptr .rx got side = Function.update has .rx got side := by
      intro got side
      cases side with
      | tx => simpa using hptr
      | rx => simp
    cases k with
    | dmaProxy =>
      have htx : has .tx = true := hproxy rfl
      intro side
      cases side with
      | tx => simpa [request, hptr] using htx
      | rx => simpa [request] using hon
    | vxaxidmaTest => exact hsame _
    | axidmaInit => exact hsame _
    | xhlsTest => exact hsame _

/-- With both pointers set there is something to release on both sides. -/
theorem callsRelease_true (k : ChannelClient) : k.callsRelease true = true := by cases k <;> rfl

/-- A step keeps this up. -/
theorem wf_run {k : ChannelClient} {c : ChannelCall} (h : c.Wf k) (ok : Bool) (free : DmaSide → Nat)
    (hon : (c.run k ok free).goesOn = true) : (c.run k ok free).call.Wf k := by
  obtain ⟨pc, ptr, has⟩ := c
  cases pc with
  | request side => exact wf_request h ok free hon
  | create side =>
    cases side with
    | tx => exact ⟨h.2.1, h.2.2.trans h.1.symm, fun _ => h.1⟩
    | rx => exact h
  | check =>
    have hsame : ∀ side, ptr side = has side := h
    simp only [run] at hon ⊢
    split
    · rename_i hboth
      rw [Bool.and_eq_true] at hboth
      intro side
      cases side with
      | tx => exact ⟨(hsame .tx).symm.trans hboth.2, hboth.2⟩
      | rx => exact ⟨(hsame .rx).symm.trans hboth.1, hboth.1⟩
    · rename_i hnot
      rw [if_neg hnot] at hon
      cases k with
      | xhlsTest => exact hsame
      | vxaxidmaTest => cases hon
      | axidmaInit => cases hon
      | dmaProxy => cases hon
  | use =>
    have hboth : ∀ side, k.callsRelease (ptr side) = has side := by
      intro side
      obtain ⟨hhas, hptr⟩ : has side = true ∧ ptr side = true := h side
      rw [hhas, hptr]
      exact callsRelease_true k
    simp only [run] at hon ⊢
    split
    · rename_i hoops
      rw [if_pos hoops] at hon
      cases hon
    · exact hboth
  | release side =>
    cases side with
    | tx =>
      have htx : k.callsRelease (ptr .tx) = has .tx := h .tx
      have hrx : k.callsRelease (ptr .rx) = has .rx := h .rx
      refine ⟨?_, ?_⟩
      · cases hhas : has .tx <;> simp [run, htx, hhas]
      · cases hhas : has .tx <;> simp [run, htx, hhas, hrx]
    | rx => cases hon

/-- A request takes a free channel of its side. -/
theorem request_account {asked : DmaSide} {c : ChannelCall} (h : c.has asked = false)
    (k : ChannelClient) (ok : Bool) (free : DmaSide → Nat) (side : DmaSide) :
    (request k asked ok free c).free side + held side (some (request k asked ok free c).call) =
      free side + held side (some c) := by
  simp only [held, request_free, request_has]
  by_cases hside : side = asked
  · subst hside
    cases hgets : gets side ok free with
    | false => simp [h]
    | true =>
      have hfree : 0 < free side := of_decide_eq_true (Bool.and_eq_true_iff.mp hgets).2
      simp only [if_true, Function.update_self, h, Bool.false_eq_true, if_false]
      omega
  · cases gets asked ok free with
    | false => simp [Function.update_of_ne hside]
    | true => simp [Function.update_of_ne hside]

/-- A release of what the call has gives back the channel of its side. -/
theorem release_account {k : ChannelClient} {asked : DmaSide} {c : ChannelCall}
    (h : k.callsRelease (c.ptr asked) = c.has asked) (free : DmaSide → Nat) (side : DmaSide) :
    (release k asked free c).free side + held side (some (release k asked free c).call) =
      free side + held side (some c) := by
  simp only [held, release_free, release_has, h]
  by_cases hside : side = asked
  · subst hside
    cases hhas : c.has side with
    | false => simp [hhas]
    | true => simp
  · cases c.has asked with
    | false => simp
    | true => simp [Function.update_of_ne hside]

/-- Where a call comes to a release, it is called for what the call has. -/
theorem Wf.callsRelease {k : ChannelClient} {asked : DmaSide} {ptr has : DmaSide → Bool}
    (h : Wf k ⟨.release asked, ptr, has⟩) : k.callsRelease (ptr asked) = has asked := by
  cases asked with
  | tx => exact h .tx
  | rx => exact h.2

/-- A step takes no channel that is not free, and gives back none that it does not have. -/
theorem run_account {k : ChannelClient} {c : ChannelCall} (h : c.Wf k) (ok : Bool)
    (free : DmaSide → Nat) (side : DmaSide) :
    (c.run k ok free).free side + held side (some (c.run k ok free).call) =
      free side + held side (some c) := by
  obtain ⟨pc, ptr, has⟩ := c
  cases pc with
  | request asked =>
    apply request_account
    cases asked with
    | tx => exact h.1
    | rx => exact h.1
  | create asked =>
    cases asked with
    | tx => rfl
    | rx => rfl
  | check =>
    simp only [run]
    split
    · rfl
    · cases k <;> rfl
  | use =>
    simp only [run]
    split <;> rfl
  | release asked => exact release_account h.callsRelease free side

end ChannelCall

/-! ## Runs -/

namespace ChannelSys

/-- The channels of a side that are free or that a call in flight has. -/
def total (s : ChannelSys) (side : DmaSide) : Nat := s.free side + ∑ k, held side (s.calls k)

/-- The channels that a call ends with in this action. -/
def losses (s : ChannelSys) : ChannelAct → List DmaSide
  | .start _ => []
  | .step k ok =>
    match s.calls k with
    | none => []
    | some c =>
      let t := c.run k ok s.free
      if t.goesOn then [] else [DmaSide.tx, .rx].filter t.call.has

/-- The calls of `dma_release_channel` in this action: the side, and whether the caller has a channel
of this side. -/
def releases (s : ChannelSys) : ChannelAct → List (DmaSide × Bool)
  | .start _ => []
  | .step k _ =>
    match s.calls k with
    | some ⟨.release side, ptr, has⟩ =>
      if k.callsRelease (ptr side) then [(side, has side)] else []
    | _ => []

/-- What has become of channels in a run: those that calls have ended with, and the calls of
`dma_release_channel`. -/
structure History where
  lost : List DmaSide
  released : List (DmaSide × Bool)
deriving DecidableEq

/-- The history after an action. -/
def see (g : History) (s : ChannelSys) (a : ChannelAct) (_ : ChannelSys) : History :=
  ⟨g.lost ++ s.losses a, g.released ++ s.releases a⟩

/-- Every call has what it should. -/
def Wf (s : ChannelSys) : Prop := ∀ k c, s.calls k = some c → c.Wf k

variable {s s' : ChannelSys} {a : ChannelAct}

/-- The system after a client has made a step of its call, or has started one. -/
def setCall (s : ChannelSys) (k : ChannelClient) (free : DmaSide → Nat)
    (statics : ChannelClient → DmaSide → Bool) (v : Option ChannelCall) : ChannelSys :=
  ⟨free, statics, Function.update s.calls k v⟩

section SetCall

variable {k : ChannelClient} {free : DmaSide → Nat} {statics : ChannelClient → DmaSide → Bool}
  {v : Option ChannelCall}

/-- The free channels that are put in. -/
@[simp] theorem setCall_free : (s.setCall k free statics v).free = free := rfl

/-- The call that is put in. -/
theorem setCall_calls_self : (s.setCall k free statics v).calls k = v := Function.update_self ..

/-- The other calls stay. -/
theorem setCall_calls_of_ne {j : ChannelClient} (h : j ≠ k) :
    (s.setCall k free statics v).calls j = s.calls j :=
  Function.update_of_ne h ..

end SetCall

/-- The system after a client has started a call. -/
def started (s : ChannelSys) (k : ChannelClient) : ChannelSys :=
  s.setCall k s.free s.statics (some (.start (s.pointers k)))

/-- The system after a step of a call that led to this. -/
def turned (s : ChannelSys) (k : ChannelClient) (t : ChannelTurn) : ChannelSys :=
  s.setCall k t.free (if t.goesOn then s.statics else Function.update s.statics k t.call.ptr)
    (if t.goesOn then some t.call else none)

/-- **What an action does.** -/
theorem channelStep_cases (h : s.channelStep a = some s') :
    (∃ k, a = .start k ∧ s.calls k = none ∧ s' = s.started k) ∨
      ∃ k ok c, a = .step k ok ∧ s.calls k = some c ∧ s' = s.turned k (c.run k ok s.free) := by
  cases a with
  | start k =>
    simp only [channelStep] at h
    cases hcall : s.calls k with
    | some c => simp [hcall] at h
    | none =>
      simp only [hcall, Option.some.injEq] at h
      exact Or.inl ⟨k, rfl, hcall, h.symm⟩
  | step k ok =>
    simp only [channelStep] at h
    cases hcall : s.calls k with
    | none => simp [hcall] at h
    | some c =>
      simp only [hcall, Option.some.injEq] at h
      exact Or.inr ⟨k, ok, c, rfl, hcall, h.symm⟩

/-- What is true of all calls is still true when it is true of the one that has changed. -/
theorem forall_setCall {P : ChannelClient → ChannelCall → Prop}
    (hs : ∀ k c, s.calls k = some c → P k c) {k : ChannelClient} {free : DmaSide → Nat}
    {statics : ChannelClient → DmaSide → Bool} {v : Option ChannelCall}
    (hv : ∀ c, v = some c → P k c) :
    ∀ j c, (s.setCall k free statics v).calls j = some c → P j c := by
  intro j c hc
  by_cases hj : j = k
  · subst hj
    rw [setCall_calls_self] at hc
    exact hv c hc
  · rw [setCall_calls_of_ne hj] at hc
    exact hs j c hc

/-- The account after one call has changed. -/
theorem total_setCall (s : ChannelSys) (k : ChannelClient) (free : DmaSide → Nat)
    (statics : ChannelClient → DmaSide → Bool) (v : Option ChannelCall) (side : DmaSide) :
    (s.setCall k free statics v).total side + s.free side + held side (s.calls k) =
      s.total side + free side + held side v := by
  have hsum := sum_update_add (held side) s.calls k v
  simp only [total, setCall] at hsum ⊢
  omega

/-- A call that ends loses what it has. -/
theorem count_losses (has : DmaSide → Bool) (side : DmaSide) :
    ([DmaSide.tx, .rx].filter has).count side = if has side then 1 else 0 := by
  cases htx : has .tx <;> cases hrx : has .rx <;> cases side <;> simp [htx, hrx]

/-- One action keeps what the calls have. -/
theorem Wf.step (hs : s.Wf) (h : s.channelStep a = some s') : s'.Wf := by
  rcases channelStep_cases h with ⟨k, -, -, rfl⟩ | ⟨k, ok, c, -, hcall, rfl⟩
  · apply forall_setCall hs
    rintro c ⟨⟩
    exact ChannelCall.wf_start k _
  · apply forall_setCall hs
    intro c' hc'
    split at hc'
    · rename_i hon
      cases hc'
      exact ChannelCall.wf_run (hs k c hcall) ok s.free hon
    · cases hc'

/-- One action keeps the account. -/
theorem total_step (hs : s.Wf) (h : s.channelStep a = some s') (side : DmaSide) :
    s'.total side + (s.losses a).count side = s.total side := by
  rcases channelStep_cases h with ⟨k, rfl, hcall, rfl⟩ | ⟨k, ok, c, rfl, hcall, rfl⟩
  · have htotal := total_setCall s k s.free s.statics (some (.start (s.pointers k))) side
    have hstart : held side (some (.start (s.pointers k))) = 0 := rfl
    have hnone : held side (s.calls k) = 0 := by rw [hcall]; rfl
    simp only [losses, List.count_nil, started]
    omega
  · have hturn := ChannelCall.run_account (hs k c hcall) ok s.free side
    cases hon : (c.run k ok s.free).goesOn with
    | true =>
      have htotal := total_setCall s k (c.run k ok s.free).free s.statics
        (some (c.run k ok s.free).call) side
      rw [hcall] at htotal
      simp only [losses, turned, hcall, hon, if_true, List.count_nil]
      omega
    | false =>
      have htotal := total_setCall s k (c.run k ok s.free).free
        (Function.update s.statics k (c.run k ok s.free).call.ptr) none side
      rw [hcall] at htotal
      have hlost : held side (some (c.run k ok s.free).call) =
          ([DmaSide.tx, .rx].filter (c.run k ok s.free).call.has).count side :=
        (count_losses _ side).symm
      have hnone : held side none = 0 := rfl
      simp only [losses, turned, hcall, hon, Bool.false_eq_true, if_false]
      omega

/-- In one action a channel is released by a call that has it, or none is. -/
theorem releases_held (hs : s.Wf) (a : ChannelAct) : ∀ r ∈ s.releases a, r.2 = true := by
  cases a with
  | start k =>
    intro r hr
    cases hr
  | step k ok =>
    intro r hr
    simp only [releases] at hr
    split at hr
    · rename_i side ptr has hcall
      split at hr
      · rename_i hcalled
        rw [List.mem_singleton.mp hr]
        exact (hs k _ hcall).callsRelease.symm.trans hcalled
      · cases hr
    · cases hr

/-- Without calls there is nothing to check. -/
theorem wf_idle (n : DmaSide → Nat) : (idle n).Wf := fun _ _ h => by cases h

/-- Without calls all channels are free. -/
theorem total_idle (n : DmaSide → Nat) (side : DmaSide) : (idle n).total side = n side := by
  simp [total, idle, held]

/-- The calls that use their channels. -/
def inUse (s : ChannelSys) : Nat :=
  ∑ k, match s.calls k with
    | some ⟨.use, _, _⟩ => 1
    | _ => 0

/-- A call that uses channels has one of each side. -/
theorem inUse_le (hs : s.Wf) (side : DmaSide) : s.inUse ≤ s.total side := by
  have hle : s.inUse ≤ ∑ k, held side (s.calls k) := by
    apply Finset.sum_le_sum
    intro k _
    split
    · rename_i ptr has hcall
      have hboth : ∀ side, has side = true ∧ ptr side = true := hs k _ hcall
      rw [hcall]
      simp [held, hboth side]
    · exact Nat.zero_le _
  exact hle.trans (Nat.le_add_left _ _)

/-- The channels of a side are the ones that are free, in the hands of a call in flight, or lost, and
what was released was held. -/
structure Accounted (n : DmaSide → Nat) (side : DmaSide) (s : ChannelSys) (g : History) :
    Prop where
  wf : s.Wf
  total : s.total side + g.lost.count side = n side
  released : ∀ r ∈ g.released, r.2 = true

/-- A test that gets both channels and releases them, and then two that request one channel each. -/
def tornTests : List ChannelAct :=
  [.start .vxaxidmaTest] ++ List.replicate 6 (.step .vxaxidmaTest true) ++
    [.start .vxaxidmaTest, .step .vxaxidmaTest true, .start .axidmaInit, .step .axidmaInit true,
      .step .axidmaInit true, .step .vxaxidmaTest true, .step .vxaxidmaTest true,
      .step .axidmaInit true]

end ChannelSys

/-! ## Pairs -/

namespace ChannelCall

/-- The call is between its two requests or between its two releases. -/
def torn : Option ChannelCall → Bool
  | some ⟨.request .rx, _, _⟩ | some ⟨.create .tx, _, _⟩ | some ⟨.release .rx, _, _⟩ => true
  | _ => false

/-- The next step of the call is a request or a release. -/
def touches : Option ChannelCall → Bool
  | some ⟨.request _, _, _⟩ | some ⟨.release _, _, _⟩ => true
  | _ => false

/-- The call has both channels or none. -/
def Even (c : ChannelCall) : Prop := c.has .tx = c.has .rx

/-- What a call leaves when its second request finds what its first one found. -/
structure EvenTurn (free : DmaSide → Nat) (c : ChannelCall) (t : ChannelTurn) : Prop where
  even : torn (some t.call) = false → t.call.Even
  torn : torn (some t.call) = true → touches (some c) = true ∨ torn (some c) = true
  /-- A call that has found nothing waits for its second request with nothing free. -/
  waits : t.call.pc = .request .rx → t.call.has .tx = false → t.free .tx = 0
  free : touches (some c) = false → t.free = free
  returns : t.goesOn = false → t.call.has .tx = false ∧ t.call.has .rx = false

/-- A step that leaves the engine alone and the call outside of its two pairs. -/
theorem EvenTurn.of_quiet {free : DmaSide → Nat} {c : ChannelCall} {t : ChannelTurn}
    (hfree : t.free = free) (heven : t.call.Even) (htorn : ChannelCall.torn (some t.call) = false)
    (hreturns : t.goesOn = false → t.call.has .tx = false ∧ t.call.has .rx = false) :
    EvenTurn free c t where
  even := fun _ => heven
  torn := by
    intro hon
    rw [htorn] at hon
    cases hon
  waits := by
    obtain ⟨tfree, ⟨pc, ptr, has⟩, goesOn⟩ := t
    rintro rfl
    cases htorn
  free := fun _ => hfree
  returns := hreturns

/-- A request that the kernel does not refuse fails only without a free channel. -/
theorem gets_eq_false {side : DmaSide} {free : DmaSide → Nat} (h : gets side true free = false) :
    free side = 0 := by
  simpa [gets] using h

/-- The first request. -/
theorem run_even_requestTx {k : ChannelClient} {ptr has : DmaSide → Bool} {free : DmaSide → Nat}
    (hrx : has .rx = false) :
    EvenTurn free ⟨.request .tx, ptr, has⟩ (run k true free ⟨.request .tx, ptr, has⟩) := by
  have hturn : torn (some (run k true free ⟨.request .tx, ptr, has⟩).call) = true := by
    cases k <;> rfl
  refine ⟨fun hnot => ?_, fun _ => Or.inl rfl, fun _ hnone => ?_, fun hnot => ?_, fun hret => ?_⟩
  · rw [hturn] at hnot
    cases hnot
  · have hgets : gets .tx true free = false := by simpa [run] using hnone
    simp [run, hgets, gets_eq_false hgets]
  · cases hnot
  · cases k with
    | dmaProxy =>
      have hgets : gets .tx true free = false := hret
      exact ⟨by simpa [run] using hgets, by simpa [run] using hrx⟩
    | vxaxidmaTest => cases hret
    | axidmaInit => cases hret
    | xhlsTest => cases hret

/-- The second request. -/
theorem run_even_requestRx {k : ChannelClient} {ptr has : DmaSide → Bool} {free : DmaSide → Nat}
    (hproxy : k = .dmaProxy → has .tx = true) (hfound : gets .rx true free = has .tx) :
    EvenTurn free ⟨.request .rx, ptr, has⟩ (run k true free ⟨.request .rx, ptr, has⟩) := by
  have heven : (run k true free ⟨.request .rx, ptr, has⟩).call.Even := by
    simp [run, Even, hfound]
  refine ⟨fun _ => heven, fun _ => Or.inl rfl, fun hpc => ?_, fun hnot => ?_, fun hret => ?_⟩
  · cases k <;> cases hpc
  · cases hnot
  · cases k with
    | dmaProxy =>
      have hgets : gets .rx true free = false := hret
      rw [hgets, hproxy rfl] at hfound
      cases hfound
    | vxaxidmaTest => cases hret
    | axidmaInit => cases hret
    | xhlsTest => cases hret

/-- **What a step leaves** that asks for nothing, or finds what it should. -/
theorem run_even {k : ChannelClient} {c : ChannelCall} {free : DmaSide → Nat} (hwf : c.Wf k)
    (heven : torn (some c) = false → c.Even)
    (hfound : c.pc = .request .rx → gets .rx true free = c.has .tx) :
    EvenTurn free c (c.run k true free) := by
  obtain ⟨pc, ptr, has⟩ := c
  cases pc with
  | request side =>
    cases side with
    | tx => exact run_even_requestTx hwf.2
    | rx => exact run_even_requestRx hwf.2.2 (hfound rfl)
  | create side =>
    cases side with
    | tx =>
      have htx : has .tx = true := hwf.1
      refine ⟨fun hnot => ?_, fun _ => Or.inr rfl, fun _ hnone => ?_, fun _ => rfl, fun hret => ?_⟩
      · cases hnot
      · have hnone : has .tx = false := hnone
        rw [htx] at hnone
        cases hnone
      · cases hret
    | rx => exact .of_quiet rfl (heven rfl) rfl fun hret => by cases hret
  | check =>
    have hsame : has .tx = has .rx := heven rfl
    have hptr : ∀ side, ptr side = has side := hwf
    simp only [run]
    split
    · exact .of_quiet rfl hsame rfl fun hret => by cases hret
    · rename_i hnot
      have hnone : has .tx = false ∧ has .rx = false := by
        rw [hptr, hptr, hsame, Bool.and_self, Bool.not_eq_true] at hnot
        exact ⟨hsame.trans hnot, hnot⟩
      cases k with
      | xhlsTest => exact .of_quiet rfl hsame rfl fun _ => hnone
      | vxaxidmaTest => exact .of_quiet rfl hsame rfl fun _ => hnone
      | axidmaInit => exact .of_quiet rfl hsame rfl fun _ => hnone
      | dmaProxy => exact .of_quiet rfl hsame rfl fun _ => hnone
  | use =>
    have hrun : run k true free ⟨.use, ptr, has⟩ = ⟨free, ⟨.release .tx, ptr, has⟩, true⟩ := by
      simp [run]
    rw [hrun]
    exact .of_quiet rfl (heven rfl) rfl fun hret => by cases hret
  | release side =>
    cases side with
    | tx =>
      refine ⟨fun hnot => ?_, fun _ => Or.inl rfl, fun hpc => ?_, fun hnot => ?_, fun hret => ?_⟩
      · cases hnot
      · cases hpc
      · cases hnot
      · cases hret
    | rx =>
      have htx : has .tx = false := hwf.1
      have hrx : k.callsRelease (ptr .rx) = has .rx := hwf.2
      refine ⟨fun hnot => ?_, fun _ => Or.inl rfl, fun hpc => ?_, fun hnot => ?_, fun _ => ?_⟩
      · cases hnot
      · cases hpc
      · cases hnot
      · cases hhas : has .rx <;> simp [run, htx, hrx, hhas]

end ChannelCall

namespace ChannelSys

open ChannelCall

variable {n : Nat} {s s' : ChannelSys} {a : ChannelAct}

/-- The kernel refuses nothing that it has, and no request or release of a call falls between the
two requests or the two releases of another one. -/
def Apart (s : ChannelSys) : ChannelAct → Prop
  | .start _ => True
  | .step k ok =>
    ok = true ∧ (touches (s.calls k) = true → ∀ j, j ≠ k → torn (s.calls j) = false)

instance decidableApart (s : ChannelSys) : ∀ a, Decidable (s.Apart a)
  | .start _ => isTrue trivial
  | .step k ok =>
    inferInstanceAs (Decidable (ok = true ∧
      (touches (s.calls k) = true → ∀ j, j ≠ k → torn (s.calls j) = false)))

/-- Channels are in the hands of calls in pairs, except for one call at most. -/
structure Paired (n : Nat) (s : ChannelSys) : Prop where
  wf : s.Wf
  even : ∀ k c, s.calls k = some c → torn (some c) = false → c.Even
  one : ∀ j k, torn (s.calls j) = true → torn (s.calls k) = true → j = k
  waits : ∀ k c, s.calls k = some c → c.pc = .request .rx → c.has .tx = false → s.free .tx = 0
  total : ∀ side, s.total side = n

/-- Without calls all channels are in pairs. -/
theorem paired_idle (n : Nat) : Paired n (idle fun _ => n) where
  wf := wf_idle _
  even := fun _ _ h => by cases h
  one := fun _ _ h => by cases h
  waits := fun _ _ h => by cases h
  total := fun side => total_idle _ side

/-- Apart from a call that waits for its second request, all calls hold as much of either side. -/
theorem Paired.held_eq (hs : Paired n s) {k : ChannelClient} {c : ChannelCall}
    (hcall : s.calls k = some c) (hpc : c.pc = .request .rx) :
    (∑ j, held .tx (s.calls j)) = (∑ j, held .rx (s.calls j)) + if c.has .tx then 1 else 0 := by
  obtain ⟨pc, ptr, has⟩ := c
  obtain rfl : pc = .request .rx := hpc
  have hothers : ∀ j ∈ Finset.univ.erase k, held .tx (s.calls j) = held .rx (s.calls j) := by
    intro j hj
    cases hother : s.calls j with
    | none => rfl
    | some d =>
      have hnot : torn (some d) = false := by
        by_contra htorn
        rw [Bool.not_eq_false, ← hother] at htorn
        exact Finset.ne_of_mem_erase hj (hs.one j k htorn (by rw [hcall]; rfl))
      have heven : d.has .tx = d.has .rx := hs.even j d hother hnot
      simp only [held, heven]
  have htx : held .tx (s.calls k) = if has .tx then 1 else 0 := by
    rw [hcall]
    rfl
  have hrx : held .rx (s.calls k) = 0 := by
    have hnone : has .rx = false := (hs.wf k _ hcall).1
    rw [hcall]
    simp [held, hnone]
  rw [← Finset.add_sum_erase _ _ (Finset.mem_univ k),
    ← Finset.add_sum_erase _ (fun j => held .rx (s.calls j)) (Finset.mem_univ k),
    Finset.sum_congr rfl hothers, htx, hrx]
  change _ = _ + if has .tx then 1 else 0
  omega

/-- The second request of a call finds what its first one found. -/
theorem Paired.found (hs : Paired n s) {k : ChannelClient} {c : ChannelCall}
    (hcall : s.calls k = some c) (hpc : c.pc = .request .rx) :
    gets .rx true s.free = c.has .tx := by
  have htx := hs.total .tx
  have hrx := hs.total .rx
  rw [ChannelSys.total, hs.held_eq hcall hpc] at htx
  rw [ChannelSys.total] at hrx
  cases hhas : c.has .tx with
  | false =>
    have hwait := hs.waits k c hcall hpc hhas
    have hzero : s.free .rx = 0 := by
      simp only [hhas, Bool.false_eq_true, if_false] at htx
      omega
    simp [gets, hzero]
  | true =>
    have hpos : 0 < s.free .rx := by
      simp only [hhas, if_true] at htx
      omega
    simp [gets, hpos]

/-- When a call has changed, there is still one at most that is between its two requests or its two
releases: the changed one only when no other is. -/
theorem torn_setCall (hone : ∀ i j, torn (s.calls i) = true → torn (s.calls j) = true → i = j)
    {k : ChannelClient} {free : DmaSide → Nat} {statics : ChannelClient → DmaSide → Bool}
    {v : Option ChannelCall} (hv : torn v = true → ∀ j, j ≠ k → torn (s.calls j) = false) :
    ∀ i j, torn ((s.setCall k free statics v).calls i) = true →
      torn ((s.setCall k free statics v).calls j) = true → i = j := by
  intro i j hi hj
  by_cases hik : i = k
  · by_cases hjk : j = k
    · rw [hik, hjk]
    · rw [hik, setCall_calls_self] at hi
      rw [setCall_calls_of_ne hjk, hv hi j hjk] at hj
      cases hj
  · rw [setCall_calls_of_ne hik] at hi
    by_cases hjk : j = k
    · rw [hjk, setCall_calls_self] at hj
      rw [hv hj i hik] at hi
      cases hi
    · rw [setCall_calls_of_ne hjk] at hj
      exact hone i j hi hj

/-- A new call is not between two requests, and changes nothing for the others. -/
theorem Paired.start (hs : Paired n s) {k : ChannelClient}
    (h : s.channelStep (.start k) = some (s.started k)) : Paired n (s.started k) := by
  refine ⟨hs.wf.step h, ?_, torn_setCall hs.one (fun hnew => by cases hnew), ?_, ?_⟩
  · apply forall_setCall hs.even
    rintro c ⟨⟩ -
    rfl
  · apply forall_setCall hs.waits
    rintro c ⟨⟩ hpc
    cases hpc
  · intro side
    have haccount := total_step hs.wf h side
    simpa [losses, hs.total side] using haccount

/-- While another call is between its two requests or its two releases, a call leaves the engine
alone. -/
theorem Apart.quiet {k j : ChannelClient} (hok : s.Apart (.step k true)) (hjk : j ≠ k)
    (htorn : torn (s.calls j) = true) : touches (s.calls k) = false := by
  by_contra htouches
  rw [Bool.not_eq_false] at htouches
  rw [hok.2 htouches j hjk] at htorn
  cases htorn

/-- The next step of a call. -/
theorem Paired.turn (hs : Paired n s) {k : ChannelClient} {c : ChannelCall}
    (hcall : s.calls k = some c) (hok : s.Apart (.step k true))
    (h : s.channelStep (.step k true) = some (s.turned k (c.run k true s.free))) :
    Paired n (s.turned k (c.run k true s.free)) := by
  have hturn : EvenTurn s.free c (c.run k true s.free) :=
    run_even (hs.wf k c hcall) (hs.even k c hcall) (hs.found hcall)
  have hwf := hs.wf.step h
  have haccount := total_step hs.wf h
  have hlosses : s.losses (.step k true) = [] := by
    cases hon : (c.run k true s.free).goesOn with
    | true => simp [losses, hcall, hon]
    | false =>
      obtain ⟨htx, hrx⟩ := hturn.returns hon
      simp [losses, hcall, hon, htx, hrx]
  rw [hlosses] at haccount
  generalize c.run k true s.free = t at hturn hwf haccount ⊢
  -- when the call ends up between its two requests, or is there already, no other one is
  have hothers : torn (some t.call) = true → ∀ j, j ≠ k → torn (s.calls j) = false := by
    intro hon j hj
    by_contra hother
    rw [Bool.not_eq_false] at hother
    rcases hturn.torn hon with htouches | htorn
    · rw [← hcall, Apart.quiet hok hj hother] at htouches
      cases htouches
    · exact hj (hs.one j k hother (by rw [hcall]; exact htorn))
  refine ⟨hwf, ?_, torn_setCall hs.one ?_, ?_, ?_⟩
  · apply forall_setCall hs.even
    intro d hd
    split at hd
    · cases hd
      exact hturn.even
    · cases hd
  · intro hon
    split at hon
    · exact hothers hon
    · cases hon
  · intro j d hd hpc hnone
    by_cases hjk : j = k
    · rw [hjk, turned, setCall_calls_self] at hd
      split at hd
      · cases hd
        exact hturn.waits hpc hnone
      · cases hd
    · -- another call waits, so this one left the engine alone
      rw [turned, setCall_calls_of_ne hjk] at hd
      have hwaits : torn (s.calls j) = true := by
        obtain ⟨pc, ptr, has⟩ := d
        obtain rfl : pc = .request .rx := hpc
        rw [hd]
        rfl
      have hquiet : touches (some c) = false := by
        rw [← hcall]
        exact Apart.quiet hok hjk hwaits
      rw [turned, setCall_free, hturn.free hquiet]
      exact hs.waits j d hd hpc hnone
  · intro side
    simpa [hs.total side] using haccount side

/-- One action. -/
theorem Paired.step (hs : Paired n s) (hok : s.Apart a) (h : s.channelStep a = some s') :
    Paired n s' := by
  rcases channelStep_cases h with ⟨k, rfl, -, rfl⟩ | ⟨k, ok, c, rfl, hcall, rfl⟩
  · exact hs.start h
  · obtain rfl : ok = true := hok.1
    exact hs.turn hcall hok h

/-- One test after the other on the only pair; the second one has to do without. -/
def apartTests : List ChannelAct :=
  [.start .vxaxidmaTest, .step .vxaxidmaTest true, .step .vxaxidmaTest true, .start .xhlsTest,
    .step .xhlsTest true, .step .vxaxidmaTest true, .step .xhlsTest true]

/-- With a channel to transmit and none to receive, a single test loses the one that there is. -/
example : (exec (withGhost channelStep see)
    (idle fun side => if side = .tx then 1 else 0, ⟨[], []⟩)
    ([.start .vxaxidmaTest] ++ List.replicate 3 (.step .vxaxidmaTest true))).map
      (fun sg => sg.2.lost) = some [.tx] := by
  decide

end ChannelSys

end PetalinuxDriver
