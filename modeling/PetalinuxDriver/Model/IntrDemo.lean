import Mathlib.Logic.Function.Basic
import Mathlib.Data.List.Basic

/-!
# Signals from an interrupt

`send_signal` and `intrDemo_ioctl` of `intrDemo.c`, with the tasks they are about. Each device has
its own interrupt, so any number of `send_signal` calls run next to any number of ioctls; each step
is one access to `pidOwner` or `current_task`, or to what the latter points to. All tasks are in one
pid namespace. A task that has exited keeps its pid until it is reaped.
-/

set_option autoImplicit false

namespace PetalinuxDriver

/-- A `struct task_struct`: it is `hashed` as long as its pid leads to it. -/
structure IntrTask where
  pid : Int
  alive : Bool
  hashed : Bool
deriving DecidableEq, Repr

/-- Where a `send_signal` is. -/
inductive SignalPc where
  /-- Before `pidOwner` is compared with zero. -/
  | checkOwner
  /-- Before `current_task` is compared with `NULL` for the first time. -/
  | checkCache
  /-- Before `find_vpid`. -/
  | findVpid
  /-- Before `pid_task`, with the pid of this task. -/
  | pidTask (k : Nat)
  /-- Before `current_task` is compared with `NULL` again. -/
  | checkTask
  /-- Before `current_task->pid` is printed. -/
  | printTask
  /-- Before `send_sig_info`. -/
  | send
deriving DecidableEq, Repr

/-- A `send_signal` in flight. What it does does not depend on `stored`: the pid that the latest
ioctl to complete before it began had stored, and those stored by the ioctls that overlap it. -/
structure SignalCall where
  pc : SignalPc
  stored : List Int
deriving DecidableEq, Repr

/-- The statics of the module, the tasks, and the calls in flight: of an ioctl, the pid it has copied
before it clears `current_task`. -/
structure IntrSys where
  pidOwner : Int
  currentTask : Option Nat
  task : Nat → IntrTask
  nextTask : Nat
  ioctls : List Int
  signals : List SignalCall
  /-- What the latest ioctl to complete had stored. -/
  lastCompleted : Option Int

/-- How a step of `send_signal` ends: `wild` means that it follows `NULL`. -/
inductive SignalAfter where
  | goesOn (pc : SignalPc)
  | returns
  | wild
deriving DecidableEq, Repr

namespace IntrSys

/-- The module as it is loaded, before any task is looked at. -/
def loaded : IntrSys where
  pidOwner := 0
  currentTask := none
  task := fun _ => ⟨0, false, false⟩
  nextTask := 0
  ioctls := []
  signals := []
  lastCompleted := none

/-- `find_vpid`: the task whose pid has this number. -/
def findVpid (s : IntrSys) (nr : Int) : Option Nat :=
  (List.range s.nextTask).find? fun k => (s.task k).hashed && (s.task k).pid = nr

/-- `pid_task`, for the pid of this task. -/
def pidTask (s : IntrSys) (k : Nat) : Option Nat := if (s.task k).hashed then some k else none

/-- The next step of `send_signal`. -/
def sendSignal (s : IntrSys) : SignalPc → IntrSys × SignalAfter
  | .checkOwner => (s, if s.pidOwner = 0 then .returns else .goesOn .checkCache)
  | .checkCache =>
    match s.currentTask with
    | none => (s, .goesOn .findVpid)
    | some _ => (s, .goesOn .send)
  | .findVpid =>
    match s.findVpid s.pidOwner with
    | none => (s, .returns)
    | some k => (s, .goesOn (.pidTask k))
  | .pidTask k => ({ s with currentTask := s.pidTask k }, .goesOn .checkTask)
  | .checkTask =>
    match s.currentTask with
    | none => (s, .returns)
    | some _ => (s, .goesOn .printTask)
  | .printTask =>
    match s.currentTask with
    | none => (s, .wild)
    | some _ => (s, .goesOn .send)
  | .send =>
    match s.currentTask with
    | none => (s, .wild)
    | some _ => (s, .returns)

/-- What the latest ioctl to complete has stored, and those in flight. -/
def registered (s : IntrSys) : List Int := s.lastCompleted.toList ++ s.ioctls

/-- The call that was taken out of `signals` has made a step. -/
def leave (s : IntrSys) (stored : List Int) : SignalAfter → Option IntrSys
  | .goesOn pc => some { s with signals := ⟨pc, stored⟩ :: s.signals }
  | .returns => some s
  | .wild => none

end IntrSys

/-- An ioctl copies, clears, or fails to copy and returns; an interrupt comes, or its handler makes a
step; a task starts, exits, or is reaped. -/
inductive IntrAct where
  | copy (pid : Int)
  | clear (i : Nat)
  /-- `copy_from_user` fails and leaves this in `pidOwner`. -/
  | copyFail (left : Int)
  | interrupt
  | signal (i : Nat)
  | spawn (pid : Int)
  | exit (k : Nat)
  | reap (k : Nat)
deriving DecidableEq, Repr

namespace IntrSys

/-- One action. -/
def intrStep (s : IntrSys) : IntrAct → Option IntrSys
  | .copy pid =>
    some { s with
      pidOwner := pid
      ioctls := pid :: s.ioctls
      signals := s.signals.map fun c => { c with stored := pid :: c.stored } }
  | .clear i =>
    match s.ioctls[i]? with
    | none => none
    | some pid =>
      some { s with
        currentTask := none
        ioctls := s.ioctls.eraseIdx i
        lastCompleted := some pid }
  | .copyFail left => some { s with pidOwner := left }
  | .interrupt => some { s with signals := ⟨.checkOwner, s.registered⟩ :: s.signals }
  | .signal i =>
    match s.signals[i]? with
    | none => none
    | some c =>
      let r := sendSignal { s with signals := s.signals.eraseIdx i } c.pc
      r.1.leave c.stored r.2
  | .spawn pid =>
    if 0 < pid ∧ s.findVpid pid = none then
      some { s with
        task := Function.update s.task s.nextTask ⟨pid, true, true⟩
        nextTask := s.nextTask + 1 }
    else none
  | .exit k =>
    if (s.task k).alive then
      some { s with task := Function.update s.task k { s.task k with alive := false } }
    else none
  | .reap k =>
    if (s.task k).hashed ∧ (s.task k).alive = false then
      some { s with task := Function.update s.task k { s.task k with hashed := false } }
    else none

end IntrSys

end PetalinuxDriver
