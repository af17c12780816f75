import Mathlib.Algebra.GroupWithZero.Nat
import Mathlib.Logic.Relation
import Mathlib.Data.Option.Basic

/-!
# Runs of a partial step function

A machine is a step function `step : σ → α → Option σ`: `none` means that the action is not
enabled, or that the program it stands for has no defined behaviour there. A run may be
restricted by a guard `ok : σ → α → Prop` on the state before each step and the action taken.

`Reachable.invariant` is the induction over runs that every safety result goes through.
`withGhost` adds a history variable that the machine never reads, `Reachable.fst` forgets it
again, and `Reachable.simulate` carries runs of one machine over to another.
-/

set_option autoImplicit false

namespace PetalinuxDriver.Library

variable {σ α γ : Type*}

/-- One guarded step: some action that the guard allows and the machine can take. -/
def StepOk (step : σ → α → Option σ) (ok : σ → α → Prop) (s s' : σ) : Prop :=
  ∃ a, ok s a ∧ step s a = some s'

/-- `s` is reached from `s₀` by finitely many guarded steps. -/
def Reachable (step : σ → α → Option σ) (ok : σ → α → Prop) (s₀ s : σ) : Prop :=
  Relation.ReflTransGen (StepOk step ok) s₀ s

/-- The guard that allows everything. -/
def always : σ → α → Prop := fun _ _ => True

/-- The run over a list of actions, when each of them is enabled in its turn. -/
def exec (step : σ → α → Option σ) : σ → List α → Option σ
  | s, [] => some s
  | s, a :: as => (step s a).bind fun s' => exec step s' as

/-- A list of actions in two parts is run one part after the other. -/
theorem exec_append (step : σ → α → Option σ) (s : σ) (as bs : List α) :
    exec step s (as ++ bs) = (exec step s as).bind fun s' => exec step s' bs := by
  induction as generalizing s with
  | nil => rfl
  | cons a as ih =>
    simp only [List.cons_append, exec, ih, Option.bind_assoc]

/-- The guard holds at every step of the run over a list of actions. -/
def ExecOk (step : σ → α → Option σ) (ok : σ → α → Prop) : σ → List α → Prop
  | _, [] => True
  | s, a :: as => ok s a ∧ ∀ s', step s a = some s' → ExecOk step ok s' as

/-- Whether a run keeps to a guard can be evaluated. -/
instance decidableExecOk (step : σ → α → Option σ) (ok : σ → α → Prop)
    [∀ s a, Decidable (ok s a)] : ∀ s as, Decidable (ExecOk step ok s as)
  | _, [] => isTrue trivial
  | s, a :: as =>
    match hs : step s a with
    | none => decidable_of_iff (ok s a) (by simp [ExecOk, hs])
    | some s' =>
      have := decidableExecOk step ok s' as
      decidable_of_iff (ok s a ∧ ExecOk step ok s' as) (by simp [ExecOk, hs])

/-- **The run rule for potentials.** When every step of some kind uses up a unit of a potential, and
every action adds no more to it than it brings in, a run has no more steps of that kind than there
was potential and than was brought in. -/
theorem exec_countP_le {step : σ → α → Option σ} {kind : α → Bool} {potential : σ → Nat}
    {gain : α → Nat} {s s' : σ} {as : List α}
    (hstep : ∀ s a s', step s a = some s' →
      (if kind a then 1 else 0) + potential s' ≤ potential s + gain a)
    (h : exec step s as = some s') :
    as.countP kind + potential s' ≤ potential s + (as.map gain).sum := by
  induction as generalizing s with
  | nil =>
    cases h
    simp
  | cons a as ih =>
    obtain ⟨s₁, h₁, h₂⟩ := Option.bind_eq_some_iff.mp h
    have hfirst := hstep s a s₁ h₁
    have hrest := ih h₂
    rw [List.countP_cons, List.map_cons, List.sum_cons]
    omega

namespace Reachable

variable {step : σ → α → Option σ} {ok ok' : σ → α → Prop} {s₀ s s' : σ}

/-- The start is reached. -/
theorem refl (step : σ → α → Option σ) (ok : σ → α → Prop) (s₀ : σ) :
    Reachable step ok s₀ s₀ :=
  Relation.ReflTransGen.refl

/-- One more guarded step reaches what it leads to. -/
theorem tail (h : Reachable step ok s₀ s) (a : α) (hok : ok s a) (hs : step s a = some s') :
    Reachable step ok s₀ s' :=
  Relation.ReflTransGen.tail h ⟨a, hok, hs⟩

/-- Two runs, the second from where the first ends, are one. -/
theorem trans {s₁ : σ} (h : Reachable step ok s₀ s) (h' : Reachable step ok s s₁) :
    Reachable step ok s₀ s₁ :=
  Relation.ReflTransGen.trans h h'

/-- **The run rule.** What holds at the start and is kept by every guarded step holds in every
state a run reaches. -/
theorem invariant {Inv : σ → Prop} (h : Reachable step ok s₀ s) (h₀ : Inv s₀)
    (hstep : ∀ s a s', Inv s → ok s a → step s a = some s' → Inv s') : Inv s := by
  induction h with
  | refl => exact h₀
  | tail _ hlast ih =>
    obtain ⟨a, hok, hs⟩ := hlast
    exact hstep _ a _ ih hok hs

/-- A run under a guard is a run under every weaker guard. -/
theorem mono (h : Reachable step ok s₀ s) (himp : ∀ s a, ok s a → ok' s a) :
    Reachable step ok' s₀ s := by
  refine Relation.ReflTransGen.mono ?_ _ _ h
  rintro s s' ⟨a, hok, hs⟩
  exact ⟨a, himp s a hok, hs⟩

/-- An executed list of actions is a run. -/
theorem of_exec {as : List α} (hok : ExecOk step ok s₀ as) (h : exec step s₀ as = some s) :
    Reachable step ok s₀ s := by
  induction as generalizing s₀ with
  | nil =>
    cases h
    exact refl step ok _
  | cons a as ih =>
    obtain ⟨s₁, h₁, h₂⟩ := Option.bind_eq_some_iff.mp h
    have hfirst : Reachable step ok s₀ s₁ := (refl step ok s₀).tail a hok.1 h₁
    exact hfirst.trans (ih (hok.2 s₁ h₁) h₂)

/-- A guard that looks at the actions alone holds along a run when it holds of each of them. -/
theorem execOk_of_forall {s : σ} {as : List α} (h : ∀ a ∈ as, ∀ s, ok s a) :
    ExecOk step ok s as := by
  induction as generalizing s with
  | nil => trivial
  | cons a as ih =>
    exact ⟨h a List.mem_cons_self s, fun s' _ => ih fun b hb => h b (List.mem_cons_of_mem a hb)⟩

/-- Two guards that allow the same actions in every state are kept by the same runs. -/
theorem execOk_congr (h : ∀ s a, ok s a ↔ ok' s a) (s : σ) (as : List α) :
    ExecOk step ok s as ↔ ExecOk step ok' s as := by
  induction as generalizing s with
  | nil => exact Iff.rfl
  | cons a as ih => exact and_congr (h s a) (forall₂_congr fun s' _ => ih s')

/-- **The run rule for steps.** A run under a guard whose steps keep an invariant is a run under
every guard that follows from the two. -/
theorem execOk_of_invariant {Inv : σ → Prop} {s : σ} {as : List α} (hok : ExecOk step ok s as)
    (h₀ : Inv s) (himp : ∀ s a, Inv s → ok s a → ok' s a)
    (hstep : ∀ s a s', Inv s → ok s a → step s a = some s' → Inv s') : ExecOk step ok' s as := by
  induction as generalizing s with
  | nil => trivial
  | cons a as ih =>
    refine ⟨himp s a h₀ hok.1, fun s' hs' => ?_⟩
    exact ih (hok.2 s' hs') (hstep s a s' h₀ hok.1 hs')

/-- **The run rule for exact conditions.** When a step from a good state leads to a good state exactly
for the actions of some kind, all states of a run are good exactly when all its actions are of that
kind. -/
theorem exec_prefixes_iff {Inv Good : σ → Prop} {kind : α → Prop} {s s' : σ} {as : List α}
    (hstep : ∀ s a s', Inv s → Good s → step s a = some s' → Inv s' ∧ (Good s' ↔ kind a))
    (hinv : Inv s) (hgood : Good s) (h : exec step s as = some s') :
    (∀ n t, exec step s (as.take n) = some t → Good t) ↔ ∀ a ∈ as, kind a := by
  induction as generalizing s with
  | nil =>
    simp only [List.take_nil, List.not_mem_nil, false_implies, implies_true, iff_true]
    rintro n t ht
    cases ht
    exact hgood
  | cons a as ih =>
    obtain ⟨s₁, h₁, h₂⟩ := Option.bind_eq_some_iff.mp h
    obtain ⟨hinv₁, hiff⟩ := hstep s a s₁ hinv hgood h₁
    have hfirst : ∀ bs, exec step s (a :: bs) = exec step s₁ bs := by
      intro bs
      rw [exec, h₁, Option.bind_some]
    rw [List.forall_mem_cons]
    constructor
    · intro hall
      have hgood₁ : Good s₁ := by
        apply hall 1
        rw [List.take_succ_cons, List.take_zero, hfirst]
        rfl
      refine ⟨hiff.mp hgood₁, (ih hinv₁ hgood₁ h₂).mp ?_⟩
      intro n t ht
      apply hall (n + 1)
      rw [List.take_succ_cons, hfirst]
      exact ht
    · rintro ⟨ha, has⟩ n t ht
      cases n with
      | zero =>
        cases ht
        exact hgood
      | succ n =>
        rw [List.take_succ_cons, hfirst] at ht
        exact (ih hinv₁ (hiff.mpr ha) h₂).mpr has n t ht

/-- **Simulation.** When each guarded step of one machine, taken in a related state, is matched
by a run of the other machine that ends related, runs are matched by runs. -/
theorem simulate {τ β : Type*} {step₂ : τ → β → Option τ} {ok₂ : τ → β → Prop}
    {R : σ → τ → Prop} {t₀ : τ} (h : Reachable step ok s₀ s) (hR : R s₀ t₀)
    (hstep : ∀ s a s' t, R s t → ok s a → step s a = some s' →
      ∃ t', Reachable step₂ ok₂ t t' ∧ R s' t') :
    ∃ t, Reachable step₂ ok₂ t₀ t ∧ R s t := by
  induction h with
  | refl => exact ⟨t₀, refl step₂ ok₂ t₀, hR⟩
  | tail _ hlast ih =>
    obtain ⟨a, hok, hs⟩ := hlast
    obtain ⟨t, ht, hRt⟩ := ih
    obtain ⟨t', ht', hR'⟩ := hstep _ a _ t hRt hok hs
    exact ⟨t', ht.trans ht', hR'⟩

end Reachable

/-! ## History variables -/

/-- The machine with a history variable: `upd` sees each step and the machine never reads it. -/
def withGhost (step : σ → α → Option σ) (upd : γ → σ → α → σ → γ) :
    σ × γ → α → Option (σ × γ) :=
  fun sg a => (step sg.1 a).map fun s' => (s', upd sg.2 sg.1 a s')

/-- A step with a history variable is a step of the machine and the update of the variable. -/
theorem withGhost_eq_some {step : σ → α → Option σ} {upd : γ → σ → α → σ → γ}
    {sg sg' : σ × γ} {a : α} :
    withGhost step upd sg a = some sg' ↔
      step sg.1 a = some sg'.1 ∧ sg'.2 = upd sg.2 sg.1 a sg'.1 := by
  unfold withGhost
  rw [Option.map_eq_some_iff]
  constructor
  · rintro ⟨s', hs, rfl⟩
    exact ⟨hs, rfl⟩
  · rintro ⟨hs, hg⟩
    exact ⟨sg'.1, hs, by rw [← hg]⟩

/-- **The run rule with a history variable.** -/
theorem Reachable.ghost_invariant {step : σ → α → Option σ} {upd : γ → σ → α → σ → γ}
    {ok : σ × γ → α → Prop} {Inv : σ → γ → Prop} {s₀ s : σ} {g₀ g : γ}
    (h : Reachable (withGhost step upd) ok (s₀, g₀) (s, g)) (h₀ : Inv s₀ g₀)
    (hstep : ∀ s g a s', Inv s g → ok (s, g) a → step s a = some s' → Inv s' (upd g s a s')) :
    Inv s g := by
  let PairInv : σ × γ → Prop := fun sg => Inv sg.1 sg.2
  have hpair : PairInv (s, g) := by
    refine h.invariant h₀ ?_
    intro sg a sg' hinv hok hs
    obtain ⟨hs, hg⟩ := withGhost_eq_some.mp hs
    have hnext := hstep sg.1 sg.2 a sg'.1 hinv hok hs
    rw [← hg] at hnext
    exact hnext
  exact hpair

/-- A run with a history variable is a run of the machine itself. -/
theorem Reachable.fst {step : σ → α → Option σ} {upd : γ → σ → α → σ → γ}
    {ok : σ → α → Prop} {sg₀ sg : σ × γ}
    (h : Reachable (withGhost step upd) (fun sg a => ok sg.1 a) sg₀ sg) :
    Reachable step ok sg₀.1 sg.1 := by
  refine Relation.ReflTransGen.lift Prod.fst ?_ _ _ h
  rintro sg sg' ⟨a, hok, hs⟩
  exact ⟨a, hok, (withGhost_eq_some.mp hs).1⟩

end PetalinuxDriver.Library
