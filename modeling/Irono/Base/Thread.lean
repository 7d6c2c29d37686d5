import Irono.Lib.CondVar
import Irono.Lib.Transition

/-!
# `Base.Thread` — starting a thread and joining it (`Thread.cc`, `CountDownLatch.cc`)

The owner of a `Thread` calls `start()`, `join()` and the destructor, in any order that is his; the new thread
runs `runInThread`, which goes through pointers into the `Thread` until its `countDown()` is over. The critical
sections of the latch are in pieces, since the object is not to be gone before the last one.
-/

namespace Irono

open Transition CondVar

/-- `class CountDownLatch`, with who has its mutex. -/
structure CountDownLatch (T : Type) where
  mutex : Option T
  condition : Cond T
  count : Int

namespace CountDownLatch

variable {T : Type} [DecidableEq T]

def new (count : Int) : CountDownLatch T := { mutex := none, condition := .empty, count := count }

def lock (l : CountDownLatch T) (t : T) : CountDownLatch T := { l with mutex := some t }

def unlock (l : CountDownLatch T) : CountDownLatch T := { l with mutex := none }

/-- `condition_.wait()` up to the wakeup. -/
def sleep (l : CountDownLatch T) (t : T) : CountDownLatch T :=
  { l with mutex := none, condition := l.condition.wait t }

/-- The end of `condition_.wait()`. -/
def wake (l : CountDownLatch T) (t : T) : CountDownLatch T :=
  { l with mutex := some t, condition := l.condition.leave t }

/-- `--count_` -/
def decrement (l : CountDownLatch T) : CountDownLatch T := { l with count := l.count - 1 }

/-- `if (count_ == 0) condition_.notifyAll()` -/
def notify (l : CountDownLatch T) : CountDownLatch T :=
  if l.count = 0 then { l with condition := l.condition.notifyAll } else l

end CountDownLatch

/-! ## What each operation does to the latch -/

namespace CountDownLatch

variable {T : Type} {latch : CountDownLatch T} {t u : T}

@[grind =] theorem lock_mutex : (latch.lock t).mutex = some t := rfl

@[grind =] theorem lock_count : (latch.lock t).count = latch.count := rfl

@[grind =] theorem lock_condition : (latch.lock t).condition = latch.condition := rfl

@[grind =] theorem unlock_mutex : latch.unlock.mutex = none := rfl

@[grind =] theorem unlock_count : latch.unlock.count = latch.count := rfl

@[grind =] theorem unlock_condition : latch.unlock.condition = latch.condition := rfl

@[grind =] theorem decrement_mutex : latch.decrement.mutex = latch.mutex := rfl

@[grind =] theorem decrement_count : latch.decrement.count = latch.count - 1 := rfl

@[grind =] theorem decrement_condition : latch.decrement.condition = latch.condition := rfl

variable [DecidableEq T]

@[grind =] theorem sleep_mutex : (latch.sleep t).mutex = none := rfl

@[grind =] theorem sleep_count : (latch.sleep t).count = latch.count := rfl

@[grind =] theorem mem_waiting_sleep :
    u ∈ (latch.sleep t).condition.waiting ↔ u = t ∨ u ∈ latch.condition.waiting := Finset.mem_insert

@[grind =] theorem wake_mutex : (latch.wake t).mutex = some t := rfl

@[grind =] theorem wake_count : (latch.wake t).count = latch.count := rfl

@[grind =] theorem mem_waiting_wake :
    u ∈ (latch.wake t).condition.waiting ↔ u ≠ t ∧ u ∈ latch.condition.waiting := Finset.mem_erase

@[grind =] theorem notify_mutex : latch.notify.mutex = latch.mutex := by
  unfold notify
  split <;> rfl

@[grind =] theorem notify_count : latch.notify.count = latch.count := by
  unfold notify
  split <;> rfl

/-- The last `countDown` leaves nobody asleep. -/
@[grind =] theorem mem_waiting_notify :
    u ∈ latch.notify.condition.waiting ↔ latch.count ≠ 0 ∧ u ∈ latch.condition.waiting := by
  unfold notify
  split
  · next hcount =>
    exact iff_of_false (Finset.notMem_empty u) fun hn => hn.1 hcount
  · next hcount => exact (and_iff_right hcount).symm

end CountDownLatch

/-! ## The object and its two parties -/

namespace Thread

inductive Party where
  | owner
  | thread
  deriving DecidableEq

/-- Where the owner is. -/
inductive Owner where
  | outside
  /-- in `start`, at the lock of `latch_.wait()` -/
  | lock
  /-- at `while (count_>0)` -/
  | test
  /-- in `condition_.wait()` -/
  | waiting
  /-- at the unlock -/
  | unlock
  /-- at `assert(tid_ > 0)` -/
  | check
  /-- in `pthread_join` -/
  | join
  /-- the destructor has run -/
  | destroyed
  deriving DecidableEq

/-- Where the new thread is. -/
inductive Pc where
  /-- it has not been created -/
  | none
  /-- at `*tid_ = CurrentThread::tid()` -/
  | setTid
  /-- at the lock of `latch_->countDown()` -/
  | lock
  /-- at `--count_` -/
  | decrement
  /-- at `if (count_ == 0)` -/
  | notify
  /-- at the unlock -/
  | unlock
  /-- in `func_()` -/
  | func
  | finished
  deriving DecidableEq

/-- The asserts, and what the new thread does to a `Thread` that is gone. -/
inductive Fault where
  /-- `!started_` in `start` -/
  | startedTwice
  /-- `tid_ > 0` -/
  | tid
  /-- `started_` in `join` -/
  | notStarted
  /-- `!joined_` -/
  | joinedTwice
  | useAfterFree
  deriving DecidableEq

inductive Label where
  /-- `pthread_create` succeeds or not -/
  | start (created : Bool)
  | join
  | destroy
  | owner
  /-- the id of the new thread is used by the first of its pieces -/
  | thread (tid : Nat)

end Thread

open Thread in
/-- `class Thread` -/
structure Thread where
  started : Bool
  joined : Bool
  tid : Nat
  latch : CountDownLatch Party
  owner : Owner
  pc : Pc
  /-- how often the pthread was joined or detached -/
  released : Nat

namespace Thread

/-- The constructor. -/
def new : Thread :=
  { started := false, joined := false, tid := 0, latch := .new 1, owner := .outside, pc := .none, released := 0 }

/-- The owner goes on in `start` or `join`. -/
def ownerStep (s : Thread) : Result Fault Thread :=
  match s.owner with
  | .lock => do
    enabled (s.latch.mutex = none)
    return { s with latch := s.latch.lock .owner, owner := .test }
  | .test =>
    if 0 < s.latch.count then return { s with latch := s.latch.sleep .owner, owner := .waiting }
    else return { s with owner := .unlock }
  | .waiting => do
    -- a notification, or a spurious wakeup
    enabled (s.latch.mutex = none)
    return { s with latch := s.latch.wake .owner, owner := .test }
  | .unlock => return { s with latch := s.latch.unlock, owner := .check }
  | .check => do
    require (0 < s.tid) .tid
    return { s with owner := .outside }
  | .join => do
    enabled (s.pc = .finished)
    return { s with owner := .outside, released := s.released + 1 }
  | _ => throw .blocked

/-- `runInThread`; each piece before `func_()` goes through `tid_` or `latch_`. -/
def runInThread (s : Thread) (tid : Nat) : Result Fault Thread :=
  match s.pc with
  | .none => throw .blocked
  | .setTid => do
    require (s.owner ≠ .destroyed) .useAfterFree
    enabled (0 < tid)
    return { s with tid := tid, pc := .lock }
  | .lock => do
    require (s.owner ≠ .destroyed) .useAfterFree
    enabled (s.latch.mutex = none)
    return { s with latch := s.latch.lock .thread, pc := .decrement }
  | .decrement => do
    require (s.owner ≠ .destroyed) .useAfterFree
    return { s with latch := s.latch.decrement, pc := .notify }
  | .notify => do
    require (s.owner ≠ .destroyed) .useAfterFree
    return { s with latch := s.latch.notify, pc := .unlock }
  | .unlock => do
    require (s.owner ≠ .destroyed) .useAfterFree
    return { s with latch := s.latch.unlock, pc := .func }
  | .func => return { s with pc := .finished }
  | .finished => throw .blocked

def step (s : Thread) : Label → Result Fault Thread
  | .start created => do
    enabled (s.owner = .outside)
    require (s.started = false) .startedTwice
    if created then return { s with started := true, owner := .lock, pc := .setTid }
    else return s
  | .join => do
    enabled (s.owner = .outside)
    require (s.started = true) .notStarted
    require (s.joined = false) .joinedTwice
    return { s with joined := true, owner := .join }
  | .destroy => do
    enabled (s.owner = .outside)
    if s.started ∧ ¬ s.joined then return { s with owner := .destroyed, released := s.released + 1 }
    else return { s with owner := .destroyed }
  | .owner => s.ownerStep
  | .thread tid => s.runInThread tid

end Thread

/-- A `Thread`, its owner and the thread it starts, as a system. -/
def threadObject : System Thread Thread.Label Thread.Fault where
  init s := s = Thread.new
  step := Thread.step

end Irono
