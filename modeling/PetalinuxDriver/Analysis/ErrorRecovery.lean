import PetalinuxDriver.Analysis.IdleFlag

/-!
# Recovery from an error

`err` is set by an error interrupt, by a start that timed out and by a halt that timed out, and is
cleared by the reset that the next submit makes. The reset leaves everything else as it was, above
all `active_list` and `idle`. When the error came while a batch was with the engine, the flag is
down, the reset has taken away the interrupt that would raise it, and the channel is stuck with an
error that was reported as cleared.

`recovers_iff` says that recovery works from a state with `err` set just when `idle` is set too.
-/

set_option autoImplicit false

namespace PetalinuxDriver

open Library

variable {cfg : PhysAddrConfig}

/-- A submit that returns a cookie on a channel with an error has reset it, queued its descriptor
under that cookie, and touched neither the active batch nor the idle flag. -/
theorem txSubmit_cookie {env : ResetEnv} {d : XilinxDmaTxDescriptor cfg} {s t : XilinxDmaChan cfg}
    {k : Int} (herr : s.err = true) (h : xilinxDmaTxSubmit env d s = (t, .cookie k)) :
    env.ok = true ∧ t.err = false ∧ t.idle = s.idle ∧ t.activeList = s.activeList ∧
      t.pendingList = s.pendingList ++ [{ d with cookie := k }] := by
  rcases txSubmit_cases env d s with ⟨-, hsub⟩ | ⟨-, -, -, w, -, hsub⟩ | ⟨-, hok, c, w, -, hsub⟩
  · rw [hsub] at h
    cases h
  · rw [hsub] at h
    cases h
  · refine ⟨hok herr, ?_⟩
    rw [hsub] at h
    obtain ⟨hbug, hroom⟩ := submitLocked_cookie h
    rw [submitLocked_queued d hbug hroom] at h
    cases h
    exact ⟨rfl, rfl, rfl, rfl⟩

/-- What recovery is to achieve, after the submit returned the cookie `k` and left the channel in
`t`: the next issue whose start succeeds hands the pending list to the engine and makes the new
descriptor active, and nothing of the old batch is active on a channel that is not idle. -/
structure Recovers (t : XilinxDmaChan cfg) (d : XilinxDmaTxDescriptor cfg) (k : Int) : Prop where
  programs : Programs t true
  moves : { d with cookie := k } ∈ (xilinxDmaIssuePending true t).activeList
  noDeadBatch : ¬ (t.activeList ≠ [] ∧ t.idle = false)

/-- A channel that is not idle programs nothing. -/
theorem not_programs_of_not_idle {t : XilinxDmaChan cfg} (startOk : Bool)
    (h : t.idle = false) : ¬ Programs t startOk := by
  rintro ⟨headDesc, tailDesc, -, -, hlog, -⟩
  have hblocked : canStart t = false := by simp [canStart, h]
  rw [startTransfer_blocked startOk hblocked] at hlog
  have hlen := congrArg List.length hlog
  simp [startEvents] at hlen

/-- **Error recovery.** In every state with `err` set, whatever set it: if the next submit returns
a cookie, so that its reset succeeded, recovery works exactly when `idle` is set. -/
theorem recovers_iff {env : ResetEnv} {d : XilinxDmaTxDescriptor cfg} {s t : XilinxDmaChan cfg}
    {k : Int} (herr : s.err = true) (h : xilinxDmaTxSubmit env d s = (t, .cookie k)) :
    Recovers t d k ↔ s.idle = true := by
  obtain ⟨-, hterr, htidle, htactive, htpending⟩ := txSubmit_cookie herr h
  constructor
  · intro hrec
    by_contra hidle
    have hnot : t.idle = false := htidle.trans (Bool.eq_false_iff.mpr hidle)
    exact not_programs_of_not_idle true hnot hrec.programs
  · intro hidle
    have hstart : canStart t = true :=
      (canStart_iff t).mpr ⟨hterr, by simp [htpending], htidle.trans hidle⟩
    have hprograms : Programs t true := programs_of_canStart true hstart
    refine ⟨hprograms, ?_, ?_⟩
    · obtain ⟨-, -, -, -, -, hmoved⟩ := hprograms
      rw [xilinxDmaIssuePending, (hmoved rfl).1, htpending]
      simp
    · rintro ⟨-, hbusy⟩
      rw [htidle, hidle] at hbusy
      cases hbusy

namespace VxdmaSys

/-- Two descriptors are prepared and the first is queued, with `batch` also started; then an error
interrupt comes, without completion. -/
def errorRun (batch : Bool) : List (Op .addr32) :=
  [.allocChanResources (some 0), .prepSlaveSg ⟨[⟨0, 1⟩], .memToDev, none, true⟩,
    .prepSlaveSg ⟨[⟨0, 1⟩], .memToDev, none, true⟩, .txSubmit 0 none ⟨0, true⟩] ++
  (if batch then [.issuePending true] else []) ++ [.interrupt xilinxDmaXrIrqErrorMask true]

/-- The submit of the second descriptor after the error: whether the channel is in error and idle,
and the result. -/
def submitAfter (s : VxdmaSys .addr32) : Option (Bool × Bool × SubmitResult) :=
  s.prepared[0]?.map fun d => (s.chan.err, s.chan.idle, (xilinxDmaTxSubmit ⟨0, true⟩ d s.chan).2)

/-- An error on a channel with nothing in flight is recovered from. -/
theorem recovers_nothingInFlight :
    ∃ s d t, exec callStep (probed true 0 0) (errorRun false) = some s ∧ s.prepared[0]? = some d ∧
      xilinxDmaTxSubmit ⟨0, true⟩ d s.chan = (t, .cookie 3) ∧ Recovers t d 3 := by
  have hrun : (exec callStep (probed true 0 0) (errorRun false)).bind submitAfter =
      some (true, true, .cookie 3) := by
    decide +kernel
  obtain ⟨s, hs, hafter⟩ := Option.bind_eq_some_iff.mp hrun
  obtain ⟨d, hd, hresult⟩ := Option.map_eq_some_iff.mp hafter
  simp only [Prod.mk.injEq] at hresult
  obtain ⟨herr, hidle, hcookie⟩ := hresult
  have hsubmit : xilinxDmaTxSubmit ⟨0, true⟩ d s.chan =
      ((xilinxDmaTxSubmit ⟨0, true⟩ d s.chan).1, .cookie 3) := Prod.ext rfl hcookie
  exact ⟨s, d, _, hs, hd, hsubmit, (recovers_iff herr hsubmit).mpr hidle⟩

/-- An error that comes with a batch in flight is not, although the reset succeeds and the submit
returns a cookie. -/
theorem not_recovers :
    ¬ ∀ s : VxdmaSys .addr32, Reachable callStep always (probed true 0 0) s →
      s.chan.err = true → ∀ (i : Nat) env d t k, s.prepared[i]? = some d →
        xilinxDmaTxSubmit env d s.chan = (t, .cookie k) → Recovers t d k := by
  intro hclaim
  have hrun : (exec callStep (probed true 0 0) (errorRun true)).bind submitAfter =
      some (true, false, .cookie 3) := by
    decide +kernel
  obtain ⟨s, hs, hafter⟩ := Option.bind_eq_some_iff.mp hrun
  obtain ⟨d, hd, hresult⟩ := Option.map_eq_some_iff.mp hafter
  simp only [Prod.mk.injEq] at hresult
  obtain ⟨herr, hidle, hcookie⟩ := hresult
  have hsubmit : xilinxDmaTxSubmit ⟨0, true⟩ d s.chan =
      ((xilinxDmaTxSubmit ⟨0, true⟩ d s.chan).1, .cookie 3) := Prod.ext rfl hcookie
  have hreach : Reachable callStep always (probed true 0 0) s :=
    Reachable.of_exec (Reachable.execOk_of_forall fun _ _ _ => trivial) hs
  have hrec := hclaim s hreach herr 0 ⟨0, true⟩ d _ 3 hd hsubmit
  obtain ⟨-, -, htidle, -, -⟩ := txSubmit_cookie herr hsubmit
  exact not_programs_of_not_idle true (htidle.trans hidle) hrec.programs

end VxdmaSys

end PetalinuxDriver
