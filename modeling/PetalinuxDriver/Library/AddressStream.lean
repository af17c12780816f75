import Mathlib.Data.Nat.Cast.Defs

/-!
# Streams of addresses

What a transfer does to a memory is known from the addresses it goes through, in their order. `span`
is a contiguous piece of such a stream. Pieces that follow one another are one piece (`span_add`),
and so are many of one size (`span_mul`).
-/

set_option autoImplicit false

namespace PetalinuxDriver.Library

variable {A : Type*} [AddMonoidWithOne A]

/-- `n` addresses from a base on. -/
def span (base : A) (n : Nat) : List A := (List.range n).map fun (i : Nat) => base + (i : A)

/-- A piece of no length has no addresses. -/
@[simp] theorem span_zero (base : A) : span base 0 = [] := rfl

/-- A span goes on where another one ends. -/
theorem span_add (base : A) (m n : Nat) :
    span base (m + n) = span base m ++ span (base + (m : A)) n := by
  simp only [span, List.range_add, List.map_append, List.map_map]
  congr 1
  apply List.map_congr_left
  intro i _
  simp only [Function.comp_apply, Nat.cast_add, add_assoc]

/-- Pieces of one size, one after the other. -/
theorem span_mul (base : A) (m n : Nat) :
    span base (m * n) = (List.range m).flatMap fun i => span (base + ((n * i : Nat) : A)) n := by
  induction m with
  | zero => simp
  | succ m ih =>
    rw [Nat.succ_mul, span_add, ih, List.range_succ, List.flatMap_append, List.flatMap_singleton,
      Nat.mul_comm m n]

end PetalinuxDriver.Library
