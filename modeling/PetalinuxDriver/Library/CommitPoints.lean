import Mathlib.Data.Multiset.AddSub
import PetalinuxDriver.Library.Transition

/-!
# Commit points

A machine runs calls step by step, any number of them at a time. It behaves like a simple machine
that does each call at once when every call has one step, its commit point, at which the simple
machine does all of it. `Commits` writes down what the simple machine does and what is returned, and
`Reachable.atomic` is the run rule: the run that was written down is one of the simple machine, and
its answers are those that were returned and those of the calls that are past their commit points.

This holds after every step, so a call commits between its beginning and its return.
-/

set_option autoImplicit false

namespace PetalinuxDriver.Library

variable {σ α τ β ρ : Type*}

/-- What the simple machine has done, and what was returned. -/
structure Commits (β ρ : Type*) where
  log : List β
  returned : List ρ

/-- Nothing yet. -/
def Commits.nothing : Commits β ρ := ⟨[], []⟩

/-- Writing down what a step stands for. -/
def noteCommits (events : σ → α → σ → List β) (returns : σ → α → List ρ) (g : Commits β ρ) (s : σ)
    (a : α) (s' : σ) : Commits β ρ where
  log := g.log ++ events s a s'
  returned := g.returned ++ returns s a

/-- The answers that the simple machine has given. -/
def answers (answer : β → Option ρ) (log : List β) : Multiset ρ := ↑(log.filterMap answer)

/-- The answers of a log that goes on are the answers of its two parts. -/
theorem answers_append (answer : β → Option ρ) (log log' : List β) :
    answers answer (log ++ log') = answers answer log + answers answer log' := by
  simp only [answers, List.filterMap_append, Multiset.coe_add]

/-- **The run rule for commit points.** When each step is matched by the events that are written
down for it, and the calls that are past their commit points change by what is decided and what is
returned, a run is one of the simple machine. -/
theorem Reachable.atomic {step : σ → α → Option σ} {spec : τ → β → Option τ} {ok : σ → α → Prop}
    {Inv : σ → Prop} {view : σ → τ} {pending : σ → Multiset ρ} {answer : β → Option ρ}
    {events : σ → α → σ → List β} {returns : σ → α → List ρ} {s₀ s : σ} {g : Commits β ρ}
    (h : Reachable (withGhost step (noteCommits events returns)) (fun sg a => ok sg.1 a)
      (s₀, .nothing) (s, g))
    (hinv : Inv s₀) (hpending : pending s₀ = 0)
    (hkeeps : ∀ s a s', Inv s → ok s a → step s a = some s' → Inv s')
    (hmatch : ∀ s a s', Inv s → ok s a → step s a = some s' →
      exec spec (view s) (events s a s') = some (view s'))
    (hbalance : ∀ s a s', Inv s → ok s a → step s a = some s' →
      answers answer (events s a s') + pending s = ↑(returns s a) + pending s') :
    exec spec (view s₀) g.log = some (view s) ∧
      answers answer g.log = ↑g.returned + pending s := by
  let Written : σ → Commits β ρ → Prop := fun s g =>
    Inv s ∧ exec spec (view s₀) g.log = some (view s) ∧
      answers answer g.log = ↑g.returned + pending s
  have hwritten : Written s g := by
    refine h.ghost_invariant ⟨hinv, rfl, ?_⟩ ?_
    · rw [hpending]
      rfl
    · rintro s g a s' ⟨hs, hlog, hanswers⟩ hok hstep
      refine ⟨hkeeps s a s' hs hok hstep, ?_, ?_⟩
      · rw [noteCommits, exec_append, hlog]
        exact hmatch s a s' hs hok hstep
      · rw [noteCommits, answers_append, hanswers, ← Multiset.coe_add, Multiset.add_assoc,
          Multiset.add_assoc]
        congr 1
        rw [Multiset.add_comm (pending s)]
        exact hbalance s a s' hs hok hstep
  exact hwritten.2

end PetalinuxDriver.Library
