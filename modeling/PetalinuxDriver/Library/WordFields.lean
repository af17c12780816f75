import Mathlib.Data.BitVec

/-!
# Fields of a word

A word with one field below bit `k` and another one from there on is determined by the low field
and by as much of the high field as fits (`pack_inj`): two words of that form are equal when their
low fields are, and their high fields are equal modulo what is left of the word.

The low field of a difference is the difference of the low fields, when that does not go below
zero, whatever the bits above the field are. A loop that adds up words adds up their values, modulo
the word.
-/

set_option autoImplicit false

namespace PetalinuxDriver.Library

variable {w k : Nat}

/-! ## Two fields -/

/-- A word with one field below bit `k` and one from there on. -/
def pack (k : Nat) (low high : BitVec w) : BitVec w := low ||| (high <<< k)

/-- The shift drops what does not fit. -/
theorem toNat_pack (hk : k ≤ w) {low : BitVec w} (hlow : low.toNat < 2 ^ k) (high : BitVec w) :
    (pack k low high).toNat = 2 ^ k * (high.toNat % 2 ^ (w - k)) + low.toNat := by
  have hword : 2 ^ w = 2 ^ k * 2 ^ (w - k) := by
    rw [← Nat.pow_add, Nat.add_sub_cancel' hk]
  have hhigh : (high <<< k).toNat = 2 ^ k * (high.toNat % 2 ^ (w - k)) := by
    rw [BitVec.toNat_shiftLeft, Nat.shiftLeft_eq, Nat.mul_comm, hword, Nat.mul_mod_mul_left]
  rw [pack, BitVec.toNat_or, hhigh, Nat.or_comm, Nat.two_pow_add_eq_or_of_lt hlow]

/-- **What survives the packing** is the low field, and the high field modulo what is left. -/
theorem pack_inj (hk : k ≤ w) {low low' : BitVec w} (hlow : low.toNat < 2 ^ k)
    (hlow' : low'.toNat < 2 ^ k) (high high' : BitVec w) :
    pack k low high = pack k low' high' ↔
      low = low' ∧ high.toNat % 2 ^ (w - k) = high'.toNat % 2 ^ (w - k) := by
  rw [← BitVec.toNat_inj, toNat_pack hk hlow, toNat_pack hk hlow', ← BitVec.toNat_inj]
  constructor
  · intro h
    have hlows : low.toNat = low'.toNat := by
      have hmod := congrArg (· % 2 ^ k) h
      simpa only [Nat.mul_add_mod, Nat.mod_eq_of_lt hlow, Nat.mod_eq_of_lt hlow'] using hmod
    refine ⟨hlows, ?_⟩
    rw [hlows] at h
    exact Nat.eq_of_mul_eq_mul_left (Nat.two_pow_pos k) (Nat.add_right_cancel h)
  · rintro ⟨hlows, hhighs⟩
    rw [hlows, hhighs]

/-! ## Differences and sums -/

/-- Bits above a field do not borrow from it. -/
theorem toNat_sub_mod (hk : k ≤ w) {a b : BitVec w} (h : b.toNat % 2 ^ k ≤ a.toNat % 2 ^ k) :
    (a - b).toNat % 2 ^ k = a.toNat % 2 ^ k - b.toNat % 2 ^ k := by
  have hword : 2 ^ k ∣ 2 ^ w := Nat.pow_dvd_pow 2 hk
  have hpos : 0 < 2 ^ k := Nat.two_pow_pos k
  have hback : (a - b).toNat + b.toNat ≡ a.toNat [MOD 2 ^ k] := by
    have hsum : ((a - b).toNat + b.toNat) % 2 ^ w = a.toNat := by
      rw [← BitVec.toNat_add, BitVec.sub_add_cancel]
    rw [Nat.ModEq, ← hsum, Nat.mod_mod_of_dvd _ hword]
  have hfield : a.toNat % 2 ^ k - b.toNat % 2 ^ k + b.toNat ≡ a.toNat [MOD 2 ^ k] := by
    calc a.toNat % 2 ^ k - b.toNat % 2 ^ k + b.toNat
      _ ≡ a.toNat % 2 ^ k - b.toNat % 2 ^ k + b.toNat % 2 ^ k [MOD 2 ^ k] :=
        (Nat.mod_modEq _ _).symm.add_left _
      _ = a.toNat % 2 ^ k := Nat.sub_add_cancel h
      _ ≡ a.toNat [MOD 2 ^ k] := Nat.mod_modEq _ _
  have hmod : (a - b).toNat ≡ a.toNat % 2 ^ k - b.toNat % 2 ^ k [MOD 2 ^ k] :=
    (hback.trans hfield.symm).add_right_cancel' _
  rw [hmod]
  exact Nat.mod_eq_of_lt ((Nat.sub_le _ _).trans_lt (Nat.mod_lt _ hpos))

/-- A loop that adds up words. -/
theorem foldl_add_eq {α : Type*} (f : α → BitVec w) (l : List α) (acc : BitVec w) :
    l.foldl (fun acc x => acc + f x) acc =
      acc + BitVec.ofNat w (l.map fun x => (f x).toNat).sum := by
  induction l generalizing acc with
  | nil => simp
  | cons x l ih =>
    rw [List.foldl_cons, ih, List.map_cons, List.sum_cons, BitVec.ofNat_add, BitVec.ofNat_toNat,
      BitVec.setWidth_eq, BitVec.add_assoc]

end PetalinuxDriver.Library
