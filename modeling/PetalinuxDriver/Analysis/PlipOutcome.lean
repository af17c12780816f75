import PetalinuxDriver.Analysis.PlipRegisters

/-!
# What the result of a register request says

The result of `plipdev_ioctl` is an error number or a register, and its caller cannot tell which.
`Unambiguous` is what the caller would have to know: that a negative result means that the request
was not carried out, and no other result does. `ioctl_unambiguous_iff` says when that is so. It
fails in four ways: a register with its top bit set is returned as a negative number, a command
that is none returns 0, a request is carried out on what `copy_from_user` left although it could
not be read, and a copy that faults half way leaves a half-written structure.
-/

set_option autoImplicit false

namespace PetalinuxDriver

open Library

variable {cfg : PhysAddrConfig}

/-- A command of the driver. -/
def Known (cmd : BitVec 32) : Prop := cmd = rruIocRegRead ∨ cmd = rruIocRegWrite

/-- The device that takes a request: it is found by its id, and it has the callback. -/
def takenBy (devs : List (PlipcoreDev cfg)) (cmd : BitVec 32) (iocReg : PlipIocReg) :
    Option (PlipcoreDev cfg) :=
  (ipcoreFindDevice devs iocReg.id.toNat).filter fun dev =>
    if cmd = rruIocRegRead then dev.read else dev.write

/-- The register that a request names, on the device that takes it. -/
def namedReg (dev : PlipcoreDev cfg) (user : PlipIocReg) (io : Io cfg) : BitVec 32 :=
  readWord io.mem (dev.regAddr user.addr)

/-- The request was read, it was taken by the device it names, and it had its effect there, with
one access: a read delivered the register, and a write changed it. -/
def CarriedOut (devs : List (PlipcoreDev cfg)) (cmd : BitVec 32) (copyIn copyOut : UserCopy)
    (user : PlipIocReg) (io : Io cfg) (user' : PlipIocReg) (io' : Io cfg) : Prop :=
  copyIn = .done ∧ ∃ dev, takenBy devs cmd user = some dev ∧
    io'.accesses = io.accesses ++ [dev.regAddr user.addr] ∧
    ((cmd = rruIocRegRead ∧ copyOut = .done ∧ io'.mem = io.mem ∧
        user' = { user with value := namedReg dev user io }) ∨
      (cmd = rruIocRegWrite ∧ io'.mem = writeWord io.mem (dev.regAddr user.addr) user.value ∧
        user' = user))

/-- The result is negative exactly when the request was not carried out; the caller's structure is
then as it was, and no register was accessed for a request that was not read or is not known. -/
def Unambiguous (devs : List (PlipcoreDev cfg)) (cmd : BitVec 32) (copyIn copyOut : UserCopy)
    (user : PlipIocReg) (io : Io cfg) (answer : PlipAnswer × Io cfg) : Prop :=
  (answer.1.1 < 0 ↔ ¬ CarriedOut devs cmd copyIn copyOut user io answer.1.2 answer.2) ∧
    (¬ CarriedOut devs cmd copyIn copyOut user io answer.1.2 answer.2 →
      answer.1.2 = user ∧ (copyIn ≠ .done ∨ ¬ Known cmd → answer.2 = io))

/-- When a result can be relied on: the command is one, and no device takes the request, or it was
read and, if it is a read, the register is delivered as a number that is not negative, or the copy
that faulted changed nothing. -/
def Reliable (devs : List (PlipcoreDev cfg)) (cmd : BitVec 32) (copyIn copyOut : UserCopy)
    (user : PlipIocReg) (io : Io cfg) : Prop :=
  Known cmd ∧ ∀ dev ∈ takenBy devs cmd (copyFromUser user copyIn), copyIn = .done ∧
    (cmd = rruIocRegRead →
      match copyOut with
      | .done => (namedReg dev user io).msb = false
      | .fault n => copyBytes n { user with value := namedReg dev user io } user = user)

/-! ## What one request does -/

/-- An unknown command copies nothing and returns zero. -/
theorem ioctlUser_unknown {devs : List (PlipcoreDev cfg)} {cmd : BitVec 32} (h : ¬ Known cmd)
    (copyIn copyOut : UserCopy) (user : PlipIocReg) (io : Io cfg) :
    plipdevIoctlUser devs cmd copyIn copyOut user io = ((0, user), io) := by
  unfold Known at h
  push Not at h
  simp [plipdevIoctlUser, h.1, h.2]

/-- A request that no device takes is answered with -1. -/
theorem ioctlUser_refused {devs : List (PlipcoreDev cfg)} {cmd : BitVec 32} (h : Known cmd)
    {copyIn : UserCopy} {user : PlipIocReg}
    (hnone : takenBy devs cmd (copyFromUser user copyIn) = none) (copyOut : UserCopy)
    (io : Io cfg) : plipdevIoctlUser devs cmd copyIn copyOut user io = ((-1, user), io) := by
  unfold takenBy at hnone
  cases hfind : ipcoreFindDevice devs (copyFromUser user copyIn).id.toNat with
  | none => rcases h with rfl | rfl <;> simp [plipdevIoctlUser, hfind]
  | some dev =>
    rw [hfind] at hnone
    rcases h with rfl | rfl
    · have hread : dev.read = false := by simpa [Option.filter] using hnone
      simp [plipdevIoctlUser, hfind, hread]
    · have hwrite : dev.write = false := by simpa [Option.filter] using hnone
      simp [plipdevIoctlUser, hfind, hwrite]

/-- A read that a device takes accesses the register of what was copied in. -/
theorem ioctlUser_read {devs : List (PlipcoreDev cfg)} {copyIn : UserCopy} {user : PlipIocReg}
    {dev : PlipcoreDev cfg}
    (h : takenBy devs rruIocRegRead (copyFromUser user copyIn) = some dev) (copyOut : UserCopy)
    (io : Io cfg) :
    plipdevIoctlUser devs rruIocRegRead copyIn copyOut user io =
      let iocReg := copyFromUser user copyIn
      let value := namedReg dev iocReg io
      ((if copyOut = .done then value.toInt else -efault,
        copyToUser { iocReg with value := value } user copyOut),
        { io with accesses := io.accesses ++ [dev.regAddr iocReg.addr] }) := by
  obtain ⟨hfind, hread⟩ := Option.filter_eq_some_iff.mp h
  simp only [if_true] at hread
  cases copyOut <;>
    simp [plipdevIoctlUser, hfind, hread, ipCoreRead, ioread32, namedReg, copyToUser]

/-- A write that a device takes goes to its register, and copies nothing back. -/
theorem ioctlUser_write {devs : List (PlipcoreDev cfg)} {copyIn : UserCopy} {user : PlipIocReg}
    {dev : PlipcoreDev cfg}
    (h : takenBy devs rruIocRegWrite (copyFromUser user copyIn) = some dev) (copyOut : UserCopy)
    (io : Io cfg) :
    plipdevIoctlUser devs rruIocRegWrite copyIn copyOut user io =
      let iocReg := copyFromUser user copyIn
      ((0, user),
        { mem := writeWord io.mem (dev.regAddr iocReg.addr) iocReg.value
          accesses := io.accesses ++ [dev.regAddr iocReg.addr] }) := by
  obtain ⟨hfind, hwrite⟩ := Option.filter_eq_some_iff.mp h
  simp only [rruIocRegWrite_ne_read, if_false] at hwrite
  simp [plipdevIoctlUser, hfind, hwrite, ipCoreWrite, iowrite32]

/-- The result and the accesses are those of `plipdev_ioctl` on what was copied in. -/
theorem ioctlUser_eq (devs : List (PlipcoreDev cfg)) (cmd : BitVec 32) (copyIn copyOut : UserCopy)
    (user : PlipIocReg) (io : Io cfg) :
    let answer := plipdevIoctlUser devs cmd copyIn copyOut user io
    let inner := plipdevIoctl devs ⟨cmd, copyFromUser user copyIn, decide (copyOut = .done)⟩ io
    answer.1.1 = inner.1.1 ∧ answer.2 = inner.2 ∧
      (copyIn = .done → copyOut = .done → answer.1.2 = inner.1.2) := by
  have hkept : copyIn = .done → copyFromUser user copyIn = user := by
    rintro rfl
    rfl
  unfold plipdevIoctlUser plipdevIoctl PlipRequest.id
  generalize copyFromUser user copyIn = iocReg at hkept ⊢
  by_cases hread : cmd = rruIocRegRead
  · cases hfind : ipcoreFindDevice devs iocReg.id.toNat with
    | none => simpa [hread, hfind] using fun hin _ => (hkept hin).symm
    | some dev =>
      cases hcallback : dev.read with
      | false => simpa [hread, hfind, hcallback] using fun hin _ => (hkept hin).symm
      | true => cases copyOut <;> simp [hread, hfind, hcallback]
  · by_cases hwrite : cmd = rruIocRegWrite
    · cases hfind : ipcoreFindDevice devs iocReg.id.toNat with
      | none => simpa [hwrite, hfind] using fun hin _ => (hkept hin).symm
      | some dev =>
        cases hcallback : dev.write <;>
          simpa [hwrite, hfind, hcallback] using fun hin _ => (hkept hin).symm
    · simpa [hread, hwrite] using fun hin _ => (hkept hin).symm

/-! ## When the result is unambiguous -/

section

variable {devs : List (PlipcoreDev cfg)} {cmd : BitVec 32} {copyIn copyOut : UserCopy}
  {user user' : PlipIocReg} {io : Io cfg}

/-- Nothing is carried out without an access. -/
theorem not_carriedOut_of_silent : ¬ CarriedOut devs cmd copyIn copyOut user io user' io := by
  rintro ⟨-, dev, -, haccess, -⟩
  have hlength := congrArg List.length haccess
  simp at hlength

/-- A refused request is answered as it should be. -/
theorem unambiguous_refused : Unambiguous devs cmd copyIn copyOut user io ((-1, user), io) := by
  have hnegative : (-1 : Int) < 0 := by decide
  refine ⟨iff_of_true hnegative not_carriedOut_of_silent, ?_⟩
  intro _
  exact ⟨rfl, fun _ => rfl⟩

/-- The answer to a command that is none is taken for a success. -/
theorem not_unambiguous_silent : ¬ Unambiguous devs cmd copyIn copyOut user io ((0, user), io) := by
  rintro ⟨hsign, -⟩
  exact absurd (hsign.mpr not_carriedOut_of_silent) (Int.lt_irrefl 0)

/-- A request that was not read must not access a register. -/
theorem not_unambiguous_unread {n : Nat} {ret : Int} {io' : Io cfg} {p : VirtAddr cfg}
    (haccess : io'.accesses = io.accesses ++ [p]) :
    ¬ Unambiguous devs cmd (.fault n) copyOut user io ((ret, user'), io') := by
  rintro ⟨-, hsilent⟩
  have hnot : ¬ CarriedOut devs cmd (.fault n) copyOut user io user' io' := by
    rintro ⟨hread, -⟩
    cases hread
  obtain ⟨-, hio⟩ := hsilent hnot
  have hsame : io' = io := hio (Or.inl UserCopy.noConfusion)
  have hlength := congrArg List.length haccess
  rw [hsame] at hlength
  simp at hlength

/-- The answer to a read that was delivered is right when it is not negative. -/
theorem unambiguous_delivered {dev : PlipcoreDev cfg}
    (h : takenBy devs rruIocRegRead user = some dev) :
    Unambiguous devs rruIocRegRead .done .done user io
      (((namedReg dev user io).toInt, { user with value := namedReg dev user io }),
        { io with accesses := io.accesses ++ [dev.regAddr user.addr] }) ↔
      (namedReg dev user io).msb = false := by
  have hdone : CarriedOut devs rruIocRegRead .done .done user io
      { user with value := namedReg dev user io }
      { io with accesses := io.accesses ++ [dev.regAddr user.addr] } :=
    ⟨rfl, dev, h, rfl, Or.inl ⟨rfl, rfl, rfl, rfl⟩⟩
  unfold Unambiguous
  simp only [hdone, not_true_eq_false, iff_false, false_implies, and_true]
  rw [BitVec.msb_eq_toInt, decide_eq_false_iff_not]

/-- The answer to a read whose register could not be delivered is right when nothing was. -/
theorem unambiguous_undelivered {dev : PlipcoreDev cfg} (n : Nat) :
    Unambiguous devs rruIocRegRead .done (.fault n) user io
      ((-efault, copyBytes n { user with value := namedReg dev user io } user),
        { io with accesses := io.accesses ++ [dev.regAddr user.addr] }) ↔
      copyBytes n { user with value := namedReg dev user io } user = user := by
  have hnot : ∀ user' io', ¬ CarriedOut devs rruIocRegRead .done (.fault n) user io user' io' := by
    rintro user' io' ⟨-, dev', -, -, ⟨-, hout, -⟩ | ⟨hcmd, -⟩⟩
    · cases hout
    · exact rruIocRegWrite_ne_read hcmd.symm
  unfold Unambiguous
  simp [hnot, Known, efault]

/-- The answer to a write that was made is right. -/
theorem unambiguous_written {dev : PlipcoreDev cfg}
    (h : takenBy devs rruIocRegWrite user = some dev) :
    Unambiguous devs rruIocRegWrite .done copyOut user io
      ((0, user),
        { mem := writeWord io.mem (dev.regAddr user.addr) user.value
          accesses := io.accesses ++ [dev.regAddr user.addr] }) := by
  have hdone : CarriedOut devs rruIocRegWrite .done copyOut user io user
      { mem := writeWord io.mem (dev.regAddr user.addr) user.value
        accesses := io.accesses ++ [dev.regAddr user.addr] } :=
    ⟨rfl, dev, h, rfl, Or.inr ⟨rfl, rfl, rfl⟩⟩
  exact ⟨iff_of_false (Int.lt_irrefl 0) (not_not_intro hdone), fun hnot => absurd hdone hnot⟩

end

/-- **The result of a register request is unambiguous** exactly when it can be relied on, for every
registry, command and register content and every outcome of the two copies. -/
theorem ioctl_unambiguous_iff (devs : List (PlipcoreDev cfg)) (cmd : BitVec 32)
    (copyIn copyOut : UserCopy) (user : PlipIocReg) (io : Io cfg) :
    Unambiguous devs cmd copyIn copyOut user io
        (plipdevIoctlUser devs cmd copyIn copyOut user io) ↔
      Reliable devs cmd copyIn copyOut user io := by
  unfold Reliable
  by_cases hknown : Known cmd
  · simp only [hknown, true_and]
    cases htaken : takenBy devs cmd (copyFromUser user copyIn) with
    | none =>
      rw [ioctlUser_refused hknown htaken copyOut io]
      exact iff_of_true unambiguous_refused (by simp)
    | some dev =>
      simp only [Option.mem_some_iff, forall_eq']
      rcases hknown with rfl | rfl
      · rw [ioctlUser_read htaken copyOut io]
        cases copyIn with
        | fault n => exact iff_of_false (not_unambiguous_unread rfl) (by simp)
        | done =>
          cases copyOut with
          | done =>
            simp only [if_true, true_and, true_implies]
            exact unambiguous_delivered htaken
          | fault n =>
            simp only [reduceCtorEq, if_false, true_and, true_implies]
            exact unambiguous_undelivered n
      · rw [ioctlUser_write htaken copyOut io]
        cases copyIn with
        | fault n => exact iff_of_false (not_unambiguous_unread rfl) (by simp)
        | done => exact iff_of_true (unambiguous_written htaken) (by simp)
  · rw [ioctlUser_unknown hknown]
    exact iff_of_false not_unambiguous_silent (fun h => hknown h.1)

/-- A LED controller with all bits set in its registers. -/
def ledctl : PlipcoreDev .addr32 where
  id := 0
  data := 0x1000
  write := true
  read := true

/-- Memory in which every bit is set. -/
def allOnes : Io .addr32 where
  mem := fun _ => 0xFF
  accesses := []

/-- The second register is 0xFFFFFFF2. -/
def efaultReg : Io .addr32 where
  mem := writeWord allOnes.mem 0x1004 0xFFFFFFF2
  accesses := []

/-- A register of 0xFFFFFFF2 is read as `-EFAULT`; a command that is none returns 0; and a write
that could not be read writes 0 to the first register of the first device. -/
theorem ioctl_ambiguous :
    (∃ answer, plipdevIoctlUser [ledctl] rruIocRegRead .done .done ⟨1, 0, 0⟩ efaultReg = answer ∧
      answer.1 = (-efault, ⟨1, 0xFFFFFFF2, 0⟩) ∧
      ¬ Unambiguous [ledctl] rruIocRegRead .done .done ⟨1, 0, 0⟩ efaultReg answer) ∧
    (∃ answer, plipdevIoctlUser [ledctl] 102 .done .done ⟨1, 0, 0⟩ allOnes = answer ∧
      answer.1.1 = 0 ∧ ¬ Unambiguous [ledctl] 102 .done .done ⟨1, 0, 0⟩ allOnes answer) ∧
    ∃ answer,
      plipdevIoctlUser [ledctl] rruIocRegWrite (.fault 0) .done ⟨1, 7, 2⟩ allOnes = answer ∧
      answer.1.1 = 0 ∧ readWord answer.2.mem 0x1000 = 0 ∧
      ¬ Unambiguous [ledctl] rruIocRegWrite (.fault 0) .done ⟨1, 7, 2⟩ allOnes answer := by
  refine ⟨⟨_, rfl, by decide +kernel, ?_⟩, ⟨_, rfl, by decide +kernel, ?_⟩,
    ⟨_, rfl, by decide +kernel, by decide +kernel, ?_⟩⟩
  · rintro ⟨hsign, -⟩
    refine hsign.mp (by decide +kernel) ⟨rfl, ledctl, rfl, rfl, Or.inl ⟨rfl, rfl, rfl, ?_⟩⟩
    decide +kernel
  · exact not_unambiguous_silent
  · exact not_unambiguous_unread rfl

end PetalinuxDriver
