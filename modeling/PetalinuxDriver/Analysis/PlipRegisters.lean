import Mathlib.Data.List.Pairwise
import PetalinuxDriver.Model.PlIpcore

/-!
# Which word a register request reaches

The driver keeps the start of a mapping and not its length, and `plipdev_ioctl` passes `addr` on as
it came. So a request stays inside the device it names when there happens to be room for the word,
and requests for different registers reach different words as long as four times their numbers
differ modulo the address space. `registers_safe_exactly` says that nothing else decides it; where
both hold, the registers are a table (`ioctls_table`).
-/

set_option autoImplicit false

namespace PetalinuxDriver

open Library

variable {cfg : PhysAddrConfig}

/-! ## Mapped devices -/

/-- A device with mapped registers. The driver does not keep how long the mapping is. -/
structure MappedDev (cfg : PhysAddrConfig) where
  dev : PlipcoreDev cfg
  size : Nat
  fits : dev.data.toNat + size ≤ 2 ^ cfg.width

/-- Two mappings do not overlap. -/
def MappedDev.Apart (d d' : MappedDev cfg) : Prop :=
  d.dev.data.toNat + d.size ≤ d'.dev.data.toNat ∨ d'.dev.data.toNat + d'.size ≤ d.dev.data.toNat

/-- The registered devices, with their mappings. -/
structure Registry (cfg : PhysAddrConfig) where
  devs : List (MappedDev cfg)
  apart : devs.Pairwise MappedDev.Apart

/-- The device of the request has the callback for it. -/
def PlipRequest.accepts (r : PlipRequest) (dev : PlipcoreDev cfg) : Bool :=
  if r.cmd = rruIocRegRead then dev.read else if r.cmd = rruIocRegWrite then dev.write else false

/-- The register that a request names. -/
def PlipRequest.key (r : PlipRequest) : Int × BitVec 32 := (r.id, r.iocReg.addr)

/-- The answer to a request that is rejected, or has another command. -/
def PlipRequest.rejection (r : PlipRequest) : PlipAnswer :=
  (if r.cmd = rruIocRegRead ∨ r.cmd = rruIocRegWrite then -1 else 0, r.iocReg)

/-- The answer to a request that has been served, with the value of the register. -/
def PlipRequest.served (r : PlipRequest) (value : BitVec 32) : PlipAnswer :=
  if r.cmd = rruIocRegRead then
    if r.copyToUserOk then (value.toInt, { r.iocReg with value := value }) else (-efault, r.iocReg)
  else (0, r.iocReg)

namespace Registry

/-- The list that the driver has. -/
def plipDevList (R : Registry cfg) : List (PlipcoreDev cfg) := R.devs.map MappedDev.dev

/-- The device with an id. -/
def named (R : Registry cfg) (id : Int) : Option (MappedDev cfg) :=
  R.devs.find? fun d => d.dev.id = id

/-- The device that a request is passed on to. -/
def target (R : Registry cfg) (r : PlipRequest) : Option (MappedDev cfg) :=
  (R.named r.id).filter fun d => r.accepts d.dev

/-- Where the word of a register is, for a device there is. -/
def place (R : Registry cfg) (key : Int × BitVec 32) : VirtAddr cfg :=
  match R.named key.1 with
  | none => 0
  | some d => d.dev.regAddr key.2

variable {R : Registry cfg} {r r' : PlipRequest} {d d' : MappedDev cfg}

/-- A request is for the device with its id, if that accepts it. -/
theorem target_eq_some :
    R.target r = some d ↔ R.named r.id = some d ∧ r.accepts d.dev = true := by
  simp [target, Option.filter_eq_some_iff]

/-- A device that an id names is registered. -/
theorem mem_of_named {id : Int} (h : R.named id = some d) : d ∈ R.devs :=
  List.mem_of_find?_eq_some h

/-- A device that an id names has it. -/
theorem id_of_named {id : Int} (h : R.named id = some d) : d.dev.id = id := by
  simpa using List.find?_some h

/-- The place that a request is for. -/
theorem place_of_target (h : R.target r = some d) :
    R.place r.key = d.dev.regAddr r.iocReg.addr := by
  simp [place, PlipRequest.key, (target_eq_some.mp h).1]

/-- `ipcore_find_device` finds the device that the id names. -/
theorem ipcoreFindDevice_eq (R : Registry cfg) (id : Int) :
    ipcoreFindDevice R.plipDevList id = (R.named id).map MappedDev.dev := by
  rw [ipcoreFindDevice, plipDevList, named, List.find?_map]
  rfl

/-! ## What one request does -/

/-- A request that no device takes leaves everything alone. -/
theorem ioctl_rejected (h : R.target r = none) (io : Io cfg) :
    plipdevIoctl R.plipDevList r io = (r.rejection, io) := by
  unfold plipdevIoctl PlipRequest.rejection
  rw [ipcoreFindDevice_eq]
  by_cases hread : r.cmd = rruIocRegRead
  · cases hnamed : R.named r.id with
    | none => simp [hread]
    | some d =>
      have hnot : d.dev.read = false := by
        simpa [target, hnamed, Option.filter, PlipRequest.accepts, hread] using h
      simp [hread, hnot]
  · by_cases hwrite : r.cmd = rruIocRegWrite
    · cases hnamed : R.named r.id with
      | none => simp [hwrite]
      | some d =>
        have hnot : d.dev.write = false := by
          simpa [target, hnamed, Option.filter, PlipRequest.accepts, hwrite] using h
        simp [hwrite, hnot]
    · simp [hread, hwrite]

/-- A request that a device takes accesses the word of its register. -/
theorem ioctl_served (h : R.target r = some d) (io : Io cfg) :
    plipdevIoctl R.plipDevList r io = (r.served (readWord io.mem (R.place r.key)),
      { mem := if r.cmd = rruIocRegRead then io.mem
          else writeWord io.mem (R.place r.key) r.iocReg.value,
        accesses := io.accesses ++ [R.place r.key] }) := by
  rw [place_of_target h]
  obtain ⟨hnamed, haccepts⟩ := target_eq_some.mp h
  unfold plipdevIoctl PlipRequest.served
  rw [ipcoreFindDevice_eq, hnamed]
  by_cases hread : r.cmd = rruIocRegRead
  · have hset : d.dev.read = true := by simpa [PlipRequest.accepts, hread] using haccepts
    cases hcopy : r.copyToUserOk <;> simp [hread, hset, ipCoreRead, ioread32]
  · by_cases hwrite : r.cmd = rruIocRegWrite
    · have hset : d.dev.write = true := by
        simpa [PlipRequest.accepts, hwrite] using haccepts
      simp [hwrite, hset, ipCoreWrite, iowrite32]
    · simp [PlipRequest.accepts, hread, hwrite] at haccepts

/-! ## Inside the device -/

/-- The request is rejected, or it accesses one word, inside the mapping of the device it names. -/
def Confined (R : Registry cfg) (r : PlipRequest) : Prop :=
  ∀ io, (plipdevIoctl R.plipDevList r io).2 = io ∨
    ∃ d p, R.named r.id = some d ∧
      (plipdevIoctl R.plipDevList r io).2.accesses = io.accesses ++ [p] ∧
      InRange d.dev.data d.size p

/-- A device that takes the request has a word behind that many registers, the number of bytes taken
modulo the address space. -/
def Fits (R : Registry cfg) (r : PlipRequest) : Prop :=
  ∀ d ∈ R.target r, 4 * r.iocReg.addr.toNat % 2 ^ cfg.width + 4 ≤ d.size

instance (R : Registry cfg) (r : PlipRequest) : Decidable (R.Fits r) :=
  inferInstanceAs (Decidable (∀ d ∈ R.target r, _))

/-- The offset of a register. -/
theorem toNat_offset (cfg : PhysAddrConfig) (addr : BitVec 32) :
    (4 * addr.setWidth cfg.width).toNat = 4 * addr.toNat % 2 ^ cfg.width := by
  have hfour : (4 : BitVec cfg.width).toNat = 4 := by
    cases cfg <;> rfl
  rw [BitVec.toNat_mul, BitVec.toNat_setWidth, hfour, Nat.mul_mod_mod]

/-- A register is in the mapping when its word is. -/
theorem inRange_regAddr_iff (d : MappedDev cfg) (addr : BitVec 32) :
    InRange d.dev.data d.size (d.dev.regAddr addr) ↔
      4 * addr.toNat % 2 ^ cfg.width + 4 ≤ d.size := by
  unfold PlipcoreDev.regAddr
  rw [inRange_add_iff d.fits, toNat_offset]

/-- **When one request stays inside.** -/
theorem confined_iff_fits (R : Registry cfg) (r : PlipRequest) : R.Confined r ↔ R.Fits r := by
  cases htarget : R.target r with
  | none =>
    apply iff_of_true
    · intro io
      rw [ioctl_rejected htarget]
      exact Or.inl rfl
    · intro d hd
      rw [htarget] at hd
      cases hd
  | some d =>
    have hnamed : R.named r.id = some d := (target_eq_some.mp htarget).1
    have hfits : R.Fits r ↔ InRange d.dev.data d.size (R.place r.key) := by
      rw [place_of_target htarget, inRange_regAddr_iff]
      simp [Fits, htarget]
    rw [hfits]
    constructor
    · intro hconfined
      rcases hconfined ⟨fun _ => 0, []⟩ with hsame | ⟨d', p, hnamed', hone, hrange⟩
      · rw [ioctl_served htarget] at hsame
        cases congrArg Io.accesses hsame
      · obtain rfl : d = d' := Option.some.inj (hnamed.symm.trans hnamed')
        rw [ioctl_served htarget] at hone
        obtain rfl : R.place r.key = p := by simpa using hone
        exact hrange
    · intro hrange io
      refine Or.inr ⟨d, R.place r.key, hnamed, ?_, hrange⟩
      rw [ioctl_served htarget]

/-! ## Different registers -/

/-- The request accesses this word. -/
def Accesses (R : Registry cfg) (r : PlipRequest) (p : VirtAddr cfg) : Prop :=
  ∃ io, (plipdevIoctl R.plipDevList r io).2.accesses = io.accesses ++ [p]

/-- Requests for different registers access words that are apart. -/
def Distinct (R : Registry cfg) (r r' : PlipRequest) : Prop :=
  r.key ≠ r'.key → ∀ p p', R.Accesses r p → R.Accesses r' p' → WordsApart p p'

/-- Requests that one device takes do not have numbers that differ by a multiple of a quarter of the
address space. -/
def NoWrap (R : Registry cfg) (r r' : PlipRequest) : Prop :=
  R.target r ≠ none → R.target r' ≠ none → r.id = r'.id →
    4 * r.iocReg.addr.toNat % 2 ^ cfg.width = 4 * r'.iocReg.addr.toNat % 2 ^ cfg.width →
    r.iocReg.addr = r'.iocReg.addr

instance (R : Registry cfg) (r r' : PlipRequest) : Decidable (R.NoWrap r r') :=
  inferInstanceAs (Decidable (_ → _ → _ → _ → _))

/-- A request accesses its own place, if any. -/
theorem accesses_iff {p : VirtAddr cfg} :
    R.Accesses r p ↔ R.target r ≠ none ∧ p = R.place r.key := by
  cases htarget : R.target r with
  | none =>
    apply iff_of_false
    · rintro ⟨io, hio⟩
      rw [ioctl_rejected htarget] at hio
      simp at hio
    · rintro ⟨hne, -⟩
      exact hne rfl
  | some d =>
    constructor
    · rintro ⟨io, hio⟩
      rw [ioctl_served htarget] at hio
      have hp : R.place r.key = p := by simpa using hio
      exact ⟨Option.some_ne_none d, hp.symm⟩
    · rintro ⟨-, rfl⟩
      refine ⟨⟨fun _ => 0, []⟩, ?_⟩
      rw [ioctl_served htarget]

/-- Different registers of devices that have room for them are apart unless the numbers wrap. -/
theorem places_apart (hfits : R.Fits r) (hfits' : R.Fits r') (hwrap : R.NoWrap r r')
    (hr : R.target r = some d) (hr' : R.target r' = some d') (hne : r.key ≠ r'.key) :
    WordsApart (R.place r.key) (R.place r'.key) := by
  have hroom := hfits d hr
  have hroom' := hfits' d' hr'
  have hin := (inRange_regAddr_iff d r.iocReg.addr).mpr hroom
  have hin' := (inRange_regAddr_iff d' r'.iocReg.addr).mpr hroom'
  rw [place_of_target hr, place_of_target hr']
  have hnamed : R.named r.id = some d := (target_eq_some.mp hr).1
  have hnamed' : R.named r'.id = some d' := (target_eq_some.mp hr').1
  have hend : d.dev.data.toNat + d.size ≤ 2 ^ cfg.width := d.fits
  have hend' : d'.dev.data.toNat + d'.size ≤ 2 ^ cfg.width := d'.fits
  by_cases hid : r.id = r'.id
  · rw [hid] at hnamed
    obtain rfl : d = d' := Option.some.inj (hnamed.symm.trans hnamed')
    have hoffset : 4 * r.iocReg.addr.toNat % 2 ^ cfg.width ≠
        4 * r'.iocReg.addr.toNat % 2 ^ cfg.width := by
      intro heq
      apply hne
      have hsame : r.iocReg.addr = r'.iocReg.addr := by
        apply hwrap _ _ hid heq
        · rw [hr]
          exact Option.some_ne_none d
        · rw [hr']
          exact Option.some_ne_none d
      simp [PlipRequest.key, hid, hsame]
    have hplace : ∀ addr : BitVec 32, 4 * addr.toNat % 2 ^ cfg.width + 4 ≤ d.size →
        (d.dev.regAddr addr).toNat = d.dev.data.toNat + 4 * addr.toNat % 2 ^ cfg.width := by
      intro addr haddr
      unfold PlipcoreDev.regAddr
      rw [BitVec.toNat_add, toNat_offset, Nat.mod_eq_of_lt (by omega)]
    have hfour : ∀ n : Nat, 4 ∣ 4 * n % 2 ^ cfg.width := by
      intro n
      apply (Nat.dvd_mod_iff _).mpr (Nat.dvd_mul_right 4 n)
      cases cfg <;> decide
    obtain ⟨m, hm⟩ := hfour r.iocReg.addr.toNat
    obtain ⟨m', hm'⟩ := hfour r'.iocReg.addr.toNat
    apply wordsApart_of_le
    · exact hin.2.trans hend
    · exact hin'.2.trans hend
    · rw [hplace _ hroom, hplace _ hroom']
      omega
  · have hdevs : d ≠ d' := by
      rintro rfl
      exact hid ((id_of_named hnamed).symm.trans (id_of_named hnamed'))
    have hsymm : Std.Symm (@MappedDev.Apart cfg) := ⟨fun a b h => Or.symm h⟩
    have hapart : d.Apart d' :=
      R.apart.forall (mem_of_named hnamed) (mem_of_named hnamed') hdevs
    apply wordsApart_of_le
    · exact hin.2.trans hend
    · exact hin'.2.trans hend'
    · unfold InRange at hin hin'
      unfold MappedDev.Apart at hapart
      omega

/-- A number that wraps reaches the word of another register. -/
theorem noWrap_of_distinct (h : R.Distinct r r') : R.NoWrap r r' := by
  intro hr hr' hid hoffset
  by_contra hne
  have hkey : r.key ≠ r'.key := by
    intro heq
    exact hne (congrArg Prod.snd heq)
  apply not_wordsApart_self (R.place r'.key)
  have hplace : R.place r.key = R.place r'.key := by
    obtain ⟨d, hd⟩ := Option.ne_none_iff_exists'.mp hr
    obtain ⟨d', hd'⟩ := Option.ne_none_iff_exists'.mp hr'
    have hnamed := (target_eq_some.mp hd).1
    rw [hid, (target_eq_some.mp hd').1] at hnamed
    obtain rfl : d' = d := Option.some.inj hnamed
    rw [place_of_target hd, place_of_target hd']
    unfold PlipcoreDev.regAddr
    congr 1
    apply BitVec.eq_of_toNat_eq
    rw [toNat_offset, toNat_offset, hoffset]
  have hapart := h hkey (R.place r.key) (R.place r'.key) (accesses_iff.mpr ⟨hr, rfl⟩)
    (accesses_iff.mpr ⟨hr', rfl⟩)
  rw [hplace] at hapart
  exact hapart

end Registry

/-! ## The registers as a table -/

/-- The registers of all devices. -/
abbrev RegFile := Int × BitVec 32 → BitVec 32

namespace RegFile

/-- A request to a table of registers: a read returns the entry, and a write changes it and no
other. -/
def ioctl (accepted : PlipRequest → Bool) (r : PlipRequest) (regs : RegFile) :
    PlipAnswer × RegFile :=
  if !accepted r then (r.rejection, regs)
  else (r.served (regs r.key),
    if r.cmd = rruIocRegRead then regs else Function.update regs r.key r.iocReg.value)

/-- The answers to one request after another, and the registers afterwards. -/
def ioctls (accepted : PlipRequest → Bool) :
    List PlipRequest → RegFile → List PlipAnswer × RegFile
  | [], regs => ([], regs)
  | r :: rs, regs =>
    let (answer, regs) := ioctl accepted r regs
    let (answers, regs) := ioctls accepted rs regs
    (answer :: answers, regs)

end RegFile

namespace Registry

variable {R : Registry cfg} {r : PlipRequest}

/-- Some device takes the request. -/
def accepted (R : Registry cfg) (r : PlipRequest) : Bool := (R.target r).isSome

/-- The registers that some requests are about. -/
def keys (R : Registry cfg) (rs : List PlipRequest) : Set (Int × BitVec 32) :=
  {key | ∃ r ∈ rs, R.accepted r = true ∧ r.key = key}

/-- **Memory behaves as a table of registers** over a run of requests: every answer is that of the
table, and the registers end with the entries of the table. -/
def TableLike (R : Registry cfg) (rs : List PlipRequest) : Prop :=
  ∀ io : Io cfg,
    (plipdevIoctls R.plipDevList rs io).1 =
        (RegFile.ioctls R.accepted rs fun key => readWord io.mem (R.place key)).1 ∧
      Holds (R.keys rs) R.place (plipdevIoctls R.plipDevList rs io).2.mem
        (RegFile.ioctls R.accepted rs fun key => readWord io.mem (R.place key)).2

/-- One request keeps the memory and the table together. -/
theorem ioctl_holds {K : Set (Int × BitVec 32)} {io : Io cfg} {regs : RegFile}
    (hholds : Holds K R.place io.mem regs) (hkey : R.accepted r = true → r.key ∈ K)
    (hapart : R.accepted r = true → ∀ key ∈ K, key ≠ r.key →
      WordsApart (R.place r.key) (R.place key)) :
    (plipdevIoctl R.plipDevList r io).1 = (RegFile.ioctl R.accepted r regs).1 ∧
      Holds K R.place (plipdevIoctl R.plipDevList r io).2.mem
        (RegFile.ioctl R.accepted r regs).2 := by
  unfold RegFile.ioctl
  cases htarget : R.target r with
  | none =>
    have hnot : R.accepted r = false := by simp [accepted, htarget]
    rw [ioctl_rejected htarget, hnot]
    exact ⟨rfl, hholds⟩
  | some d =>
    have hacc : R.accepted r = true := by simp [accepted, htarget]
    rw [ioctl_served htarget, hacc, hholds r.key (hkey hacc)]
    refine ⟨rfl, ?_⟩
    by_cases hread : r.cmd = rruIocRegRead
    · simpa [hread] using hholds
    · have hwidth : 3 ≤ cfg.width := Nat.le_trans (by decide) (le_width cfg)
      simpa [hread] using hholds.writeWord hwidth (hapart hacc) r.iocReg.value

/-- **The run lemma.** Requests for registers that are apart keep the memory and the table
together. -/
theorem ioctls_holds {K : Set (Int × BitVec 32)} (rs : List PlipRequest) {io : Io cfg}
    {regs : RegFile} (hholds : Holds K R.place io.mem regs) (hkeys : R.keys rs ⊆ K)
    (hapart : ∀ key ∈ K, ∀ key' ∈ K, key' ≠ key → WordsApart (R.place key) (R.place key')) :
    (plipdevIoctls R.plipDevList rs io).1 = (RegFile.ioctls R.accepted rs regs).1 ∧
      Holds K R.place (plipdevIoctls R.plipDevList rs io).2.mem
        (RegFile.ioctls R.accepted rs regs).2 := by
  induction rs generalizing io regs with
  | nil => exact ⟨rfl, hholds⟩
  | cons r rs ih =>
    have hkey : R.accepted r = true → r.key ∈ K := by
      intro hacc
      exact hkeys ⟨r, List.mem_cons_self, hacc, rfl⟩
    obtain ⟨hanswer, hnext⟩ := ioctl_holds (r := r) hholds hkey
      fun hacc key hin hne => hapart r.key (hkey hacc) key hin hne
    have hrest : R.keys rs ⊆ K := by
      rintro key ⟨r', hmem, hacc, rfl⟩
      exact hkeys ⟨r', List.mem_cons_of_mem r hmem, hacc, rfl⟩
    obtain ⟨hanswers, hend⟩ := ih hnext hrest
    refine ⟨?_, hend⟩
    simp only [plipdevIoctls, RegFile.ioctls]
    rw [hanswer, hanswers]

/-- What is promised of the requests of a run: each stays inside the device it names, different
registers are different words, and the registers are a table. -/
structure RegistersSafe (R : Registry cfg) (rs : List PlipRequest) : Prop where
  confined : ∀ r ∈ rs, R.Confined r
  distinct : ∀ r ∈ rs, ∀ r' ∈ rs, R.Distinct r r'
  table : R.TableLike rs

/-- A register behind the end of its device is accessed all the same, and so is one whose number
wraps around to another register. -/
theorem registers_unsafe :
    (∃ (R : Registry .addr64) (r : PlipRequest), ¬ R.Confined r) ∧
      (∃ (R : Registry .addr32) (r r' : PlipRequest), R.Confined r ∧ R.Confined r' ∧
        ¬ R.Distinct r r') ∧
      ¬ ∀ (cfg : PhysAddrConfig) (R : Registry cfg) (rs : List PlipRequest),
        R.RegistersSafe rs := by
  have hbehind : ∃ (R : Registry .addr64) (r : PlipRequest), ¬ R.Confined r := by
    refine ⟨⟨[⟨⟨0, 0x43C00000, true, true⟩, 4096, by decide⟩], by simp⟩,
      ⟨rruIocRegWrite, ⟨1024, 0, 0⟩, true⟩, ?_⟩
    rw [confined_iff_fits]
    decide
  refine ⟨hbehind, ?_, ?_⟩
  · refine ⟨⟨[⟨⟨0, 0x43C00000, true, true⟩, 4096, by decide⟩], by simp⟩,
      ⟨rruIocRegRead, ⟨0, 0, 0⟩, true⟩, ⟨rruIocRegWrite, ⟨0x40000000, 7, 0⟩, true⟩, ?_, ?_, ?_⟩
    · rw [confined_iff_fits]
      decide
    · rw [confined_iff_fits]
      decide
    · intro hdistinct
      have hwrap := noWrap_of_distinct hdistinct
      revert hwrap
      decide
  · intro hall
    obtain ⟨R, r, hr⟩ := hbehind
    exact hr ((hall .addr64 R [r]).confined r (List.mem_singleton.mpr rfl))

/-- **When register requests are safe**: every device that takes one has room for the word at that
many registers behind its start, and no two of them wrap around to the same one. -/
theorem registers_safe_exactly (R : Registry cfg) (rs : List PlipRequest) :
    R.RegistersSafe rs ↔
      (∀ r ∈ rs, R.Fits r) ∧ (∀ r ∈ rs, ∀ r' ∈ rs, R.NoWrap r r') := by
  constructor
  · intro hsafe
    constructor
    · intro r hr
      exact (R.confined_iff_fits r).mp (hsafe.confined r hr)
    · intro r hr r' hr'
      exact noWrap_of_distinct (hsafe.distinct r hr r' hr')
  · rintro ⟨hfits, hwrap⟩
    have hapart : ∀ r ∈ rs, ∀ r' ∈ rs, R.target r ≠ none → R.target r' ≠ none →
        r.key ≠ r'.key → WordsApart (R.place r.key) (R.place r'.key) := by
      intro r hr r' hr' htarget htarget' hne
      obtain ⟨d, hd⟩ := Option.ne_none_iff_exists'.mp htarget
      obtain ⟨d', hd'⟩ := Option.ne_none_iff_exists'.mp htarget'
      exact places_apart (hfits r hr) (hfits r' hr') (hwrap r hr r' hr') hd hd' hne
    have haccepted : ∀ r, R.accepted r = true → R.target r ≠ none := by
      intro r hacc hnone
      simp [accepted, hnone] at hacc
    refine ⟨?_, ?_, ?_⟩
    · intro r hr
      exact (R.confined_iff_fits r).mpr (hfits r hr)
    · intro r hr r' hr' hne p p' hp hp'
      obtain ⟨htarget, rfl⟩ := accesses_iff.mp hp
      obtain ⟨htarget', rfl⟩ := accesses_iff.mp hp'
      exact hapart r hr r' hr' htarget htarget' hne
    · intro io
      apply ioctls_holds rs
      · intro key _
        rfl
      · exact Set.Subset.refl _
      · rintro key ⟨r, hr, hacc, rfl⟩ key' ⟨r', hr', hacc', rfl⟩ hne
        exact hapart r hr r' hr' (haccepted r hacc) (haccepted r' hacc') hne.symm

end Registry

end PetalinuxDriver
