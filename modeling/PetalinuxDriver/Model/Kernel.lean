import Mathlib.Data.BitVec
import Mathlib.Data.Int.Basic

/-!
# What the drivers use of the kernel

Words, error numbers, transfer directions and the DMA cookie helpers. The cookie helpers follow
`drivers/dma/dmaengine.h` and `include/linux/dmaengine.h`, which the driver includes and which
are not part of this repository.

A build is either for 32-bit or for 64-bit physical addresses (`CONFIG_PHYS_ADDR_T_64BIT`).
`dma_addr_t` and `size_t` have the width of the build, which is what 32-bit ARM and arm64 have.
-/

set_option autoImplicit false

namespace PetalinuxDriver

/-! ## Words -/

/-- `CONFIG_PHYS_ADDR_T_64BIT` unset or set. -/
inductive PhysAddrConfig where
  | addr32
  | addr64
deriving DecidableEq, Repr

/-- The number of bits of `dma_addr_t` and of `size_t`. -/
def PhysAddrConfig.width : PhysAddrConfig → Nat
  | .addr32 => 32
  | .addr64 => 64

/-- A bus address has at least 32 bits. -/
theorem le_width (cfg : PhysAddrConfig) : 32 ≤ cfg.width := by
  cases cfg <;> decide

/-- 32 bits fit a bus address. -/
theorem le_two_pow_width (cfg : PhysAddrConfig) : 2 ^ 32 ≤ 2 ^ cfg.width :=
  Nat.pow_le_pow_right (by decide) (le_width cfg)

/-- `dma_addr_t`. -/
abbrev DmaAddr (cfg : PhysAddrConfig) := BitVec cfg.width

/-- `lower_32_bits`; in the 32-bit build, the assignment of a `dma_addr_t` to a `u32`. -/
def lower32Bits {n : Nat} (a : BitVec n) : BitVec 32 := a.setWidth 32

/-- `upper_32_bits`. -/
def upper32Bits {n : Nat} (a : BitVec n) : BitVec 32 := (a >>> 16 >>> 16).setWidth 32

/-- `BIT`. -/
def bit (n : Nat) : BitVec 32 := 1#32 <<< n

/-- `GENMASK`. -/
def genmask (h l : Nat) : BitVec 32 :=
  (BitVec.allOnes 32 <<< l) &&& (BitVec.allOnes 32 >>> (31 - h))

/-- `v & mask` as a condition. -/
def hasBits (v mask : BitVec 32) : Bool := v &&& mask != 0#32

/-- A 32-bit `int` after an operation that may have overflowed. -/
def s32 (x : Int) : Int := x.bmod (2 ^ 32)

/-- Literals are indices of a table with an entry for each of two channels. -/
instance instNeZeroTwo : NeZero 2 := ⟨by decide⟩

/-! ## Error numbers, pointers and directions -/

/-- The error numbers that the drivers return. -/
inductive Errno where
  | enomem
  | ebusy
  | einval
deriving DecidableEq, Repr

/-- What a pointer returned by the kernel is. -/
inductive KernelPtr where
  | null
  | err
  | object
deriving DecidableEq, Repr

/-- `enum dma_transfer_direction`. -/
inductive DmaTransferDirection where
  | memToMem
  | memToDev
  | devToMem
  | devToDev
  | transNone
deriving DecidableEq, Repr

/-- `is_slave_direction`. -/
def isSlaveDirection : DmaTransferDirection → Bool
  | .memToDev => true
  | .devToMem => true
  | _ => false

/-! ## Cookies -/

/-- `DMA_MIN_COOKIE`. -/
def dmaMinCookie : Int := 1

/-- The cookie fields of `struct dma_chan`. -/
structure DmaChanCookies where
  cookie : Int
  completedCookie : Int
deriving DecidableEq, Repr

/-- `dma_cookie_init`. -/
def dmaCookieInit : DmaChanCookies := ⟨dmaMinCookie, dmaMinCookie⟩

/-- `dma_cookie_assign`: the cookie handed out, which is also stored in the channel. -/
def dmaCookieAssign (c : DmaChanCookies) : DmaChanCookies × Int :=
  let cookie := s32 (c.cookie + 1)
  let cookie := if cookie < dmaMinCookie then dmaMinCookie else cookie
  ({ c with cookie := cookie }, cookie)

/-- `enum dma_status`, as far as the cookie helpers return it. -/
inductive DmaStatus where
  | complete
  | inProgress
deriving DecidableEq, Repr

/-- `dma_async_is_complete`. -/
def dmaAsyncIsComplete (cookie lastComplete lastUsed : Int) : DmaStatus :=
  if lastComplete ≤ lastUsed then
    if cookie ≤ lastComplete ∨ cookie > lastUsed then .complete else .inProgress
  else
    if cookie ≤ lastComplete ∧ cookie > lastUsed then .complete else .inProgress

/-- `dma_cookie_status`. -/
def dmaCookieStatus (c : DmaChanCookies) (cookie : Int) : DmaStatus :=
  dmaAsyncIsComplete cookie c.completedCookie c.cookie

/-- The number of cookies before they repeat: from 1 to the largest 32-bit `int`. -/
def cookiePeriod : Nat := 2 ^ 31 - 1

/-- The cookie of the `n`-th descriptor accepted since `dma_cookie_init`, which itself stores the
zeroth. -/
def cookieOf (n : Nat) : Int := (n % cookiePeriod : Nat) + 1

/-- One assignment moves from the `n`-th cookie to the next, over the wrap as well. -/
theorem dmaCookieAssign_cookieOf (n : Nat) (d : Int) :
    dmaCookieAssign ⟨cookieOf n, d⟩ = (⟨cookieOf (n + 1), d⟩, cookieOf (n + 1)) := by
  have key : (if s32 (cookieOf n + 1) < dmaMinCookie then dmaMinCookie
      else s32 (cookieOf n + 1)) = cookieOf (n + 1) := by
    unfold s32 cookieOf cookiePeriod dmaMinCookie
    rw [Int.bmod_def]
    split <;> split <;> omega
  simp only [dmaCookieAssign, key]

/-- Before the wrap the cookies grow. -/
theorem cookieOf_lt {m n : Nat} (hmn : m < n) (hn : n < cookiePeriod) :
    cookieOf m < cookieOf n := by
  unfold cookieOf
  rw [Nat.mod_eq_of_lt hn, Nat.mod_eq_of_lt (hmn.trans hn)]
  omega

/-- **The cookie window.** With the first `m` of `n` cookies completed and fewer than a period in
flight, the latest holder `k` of its cookie is reported complete exactly when it is among the
first `m`. -/
theorem dmaAsyncIsComplete_cookieOf {m n k : Nat} (hmn : m ≤ n) (hwin : n - m < cookiePeriod)
    (hk : k ≤ n) (hlatest : n - k < cookiePeriod) :
    dmaAsyncIsComplete (cookieOf k) (cookieOf m) (cookieOf n) = .complete ↔ k ≤ m := by
  unfold dmaAsyncIsComplete cookieOf
  unfold cookiePeriod at *
  split
  · split
    · simp only [true_iff]
      omega
    · simp only [reduceCtorEq, false_iff]
      omega
  · split
    · simp only [true_iff]
      omega
    · simp only [reduceCtorEq, false_iff]
      omega

end PetalinuxDriver
