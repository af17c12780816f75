import Mathlib.Data.Option.Basic

/-!
# Scripts and typestates

A script is a program without loops: operations one after the other, and checks that choose between
two ways to go on. A typestate is a fact that is carried along a script. It says which operations are
allowed, what becomes of the fact after each of them and after each outcome of a check, and with
which facts the script may end. `conforms` follows the fact along every path.

The state of a machine that executes a script has the script that is left. The rules say that what
is left goes on conforming, and that the operation that comes next is allowed.
-/

set_option autoImplicit false

namespace PetalinuxDriver.Library

variable {ω κ φ : Type*}

/-- A script of operations and checks. -/
inductive Script (ω κ : Type*) where
  | done
  | op (o : ω) (next : Script ω κ)
  | check (c : κ) (failed next : Script ω κ)
deriving DecidableEq

/-- A fact along a script. -/
structure Typestate (ω κ φ : Type*) where
  allowed : φ → ω → Bool
  after : φ → ω → φ
  outcome : φ → κ → Bool → φ
  final : φ → Bool

namespace Script

/-- The operation that comes next. -/
def head : Script ω κ → Option ω
  | op o _ => some o
  | _ => none

/-- Every operation on every path of the script is allowed. -/
def conforms (t : Typestate ω κ φ) : Script ω κ → φ → Bool
  | done, f => t.final f
  | op o next, f => t.allowed f o && next.conforms t (t.after f o)
  | check c failed next, f =>
    failed.conforms t (t.outcome f c false) && next.conforms t (t.outcome f c true)

variable {t : Typestate ω κ φ} {f : φ} {o : ω} {c : κ} {next failed : Script ω κ}

/-- A script conforms when its first operation is allowed and the rest conforms after it. -/
theorem conforms_op :
    (op o next : Script ω κ).conforms t f = true ↔
      t.allowed f o = true ∧ next.conforms t (t.after f o) = true := by
  rw [conforms, Bool.and_eq_true]

/-- Whatever a check finds, what is left conforms. -/
theorem conforms_check (h : (check c failed next : Script ω κ).conforms t f = true) (b : Bool) :
    (if b then next else failed).conforms t (t.outcome f c b) = true := by
  rw [conforms, Bool.and_eq_true] at h
  cases b with
  | false => exact h.1
  | true => exact h.2

/-- The operation that comes next is allowed. -/
theorem allowed_of_head {s : Script ω κ} (h : s.conforms t f = true) (ho : s.head = some o) :
    t.allowed f o = true := by
  cases s with
  | done => cases ho
  | op o' next =>
    cases ho
    exact (conforms_op.mp h).1
  | check c failed next => cases ho

end Script

end PetalinuxDriver.Library
