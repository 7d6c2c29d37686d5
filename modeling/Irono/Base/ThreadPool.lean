import Irono.Lib.CondVar
import Irono.Lib.Transition

/-!
# `Base.ThreadPool` — the task queue and its workers (`ThreadPool.cc`, `Condition.h`)

Any threads call `run()`, the workers `take()`, and the owner calls `start()` and later `stop()`. What
happens between two points at which the mutex is free is one step: from the lock to the unlock, or to the
`wait()` that gives the mutex up. A thread that is in `wait()` takes the step again when it is woken up,
with or without a notification.

A task may call `run()` itself, and so may `threadInitCallback_`; tasks return. `pushed`, `dequeued`,
`executed` and `inlined` record the history and are read by no step.
-/

namespace Irono

open Transition CondVar

namespace ThreadPool

/-- `Task`: an empty function, or one of the user's, under a name. -/
abbrev Task := Option Nat

/-- Who calls a method: the thread `threads_[i]`, or one that is none of the pool's. -/
inductive ThreadId where
  | worker (i : Nat)
  | other (n : Nat)
  deriving DecidableEq, Repr

/-- Where a worker is in `runInThread`. -/
inductive Pc where
  /-- the thread has not been created -/
  | notStarted
  /-- in `threadInitCallback_` -/
  | init
  /-- at `while (running_)` -/
  | head
  /-- in `take()`, waiting or not -/
  | take
  /-- at `if (task)` -/
  | taken (task : Task)
  /-- in `task()` -/
  | running (task : Nat)
  /-- `runInThread` has returned -/
  | finished
  deriving DecidableEq, Repr

/-- Where the owner is in `start()` and `stop()`. -/
inductive OwnerPc where
  | constructed
  /-- in the `for` of `start()` -/
  | starting
  | started
  /-- in the `for` of `stop()`, before the `join()` of thread `i` -/
  | joining (i : Nat)
  /-- `stop()` has returned -/
  | stopped
  deriving DecidableEq, Repr

/-- The asserts, and the call of an empty function by `run()`. -/
inductive Fault where
  | threadsNotEmpty
  | isFull
  | badFunctionCall
  deriving DecidableEq, Repr

end ThreadPool

open ThreadPool in
/-- `class ThreadPool`, with the `numThreads` given to `start()`. -/
structure ThreadPool where
  numThreads : Nat
  maxQueueSize : Nat
  running : Bool
  /-- `threads_.size()` -/
  threads : Nat
  queue : List Task
  notEmpty : Cond ThreadPool.ThreadId
  notFull : Cond ThreadPool.ThreadId
  pc : Nat → Pc
  /-- the task of the `run()` a thread is in, waiting or not -/
  calls : ThreadPool.ThreadId → Option Task
  owner : OwnerPc
  /-- what was put into `queue_`, in the order of the mutex -/
  pushed : List Task
  /-- what `take()` got out of it -/
  dequeued : List Task
  /-- the tasks of `queue_` that have returned from a worker's call -/
  executed : List Nat
  /-- the tasks `run()` called itself -/
  inlined : List Nat

namespace ThreadPool

/-- The constructor and `setMaxQueueSize`. -/
def new (numThreads maxQueueSize : Nat) : ThreadPool :=
  { numThreads, maxQueueSize, running := false, threads := 0, queue := [], notEmpty := .empty
    notFull := .empty, pc := fun _ => .notStarted, calls := fun _ => none, owner := .constructed
    pushed := [], dequeued := [], executed := [], inlined := [] }

def isFull (s : ThreadPool) : Bool := 0 < s.maxQueueSize ∧ s.maxQueueSize ≤ s.queue.length

def setPc (s : ThreadPool) (i : Nat) (pc : Pc) : ThreadPool := { s with pc := Function.update s.pc i pc }

/-- The user's code runs in this thread. -/
def inUserCode (s : ThreadPool) (t : ThreadId) : Bool :=
  (s.calls t).isNone && match t with
    | .other _ => true
    | .worker i => match s.pc i with
      | .init => true
      | .running _ => true
      | _ => false

/-- `run`, up to the lock. -/
def run (s : ThreadPool) (t : ThreadId) (task : Task) : Result Fault ThreadPool := do
  enabled (s.inUserCode t = true)
  if s.threads = 0 then
    match task with
    | none => throw (.fault .badFunctionCall)
    | some f => return { s with inlined := s.inlined ++ [f] }
  else return { s with calls := Function.update s.calls t (some task) }

/-- The critical section of `run`; `who` is woken up by `notEmpty_.notify()`. -/
def push (s : ThreadPool) (t : ThreadId) (who : Option ThreadId) : Result Fault ThreadPool :=
  match s.calls t with
  | none => throw .blocked
  | some task => do
    if s.isFull && s.running then return { s with notFull := s.notFull.wait t }
    let s := { s with notFull := s.notFull.leave t, calls := Function.update s.calls t none }
    if !s.running then return s
    require (s.isFull = false) .isFull
    enabled (s.notEmpty.Chooses who)
    return { s with
      queue := s.queue ++ [task]
      notEmpty := s.notEmpty.notify who
      pushed := s.pushed ++ [task] }

/-- `take` of worker `i`; `who` is woken up by `notFull_.notify()`. -/
def take (s : ThreadPool) (i : Nat) (who : Option ThreadId) : Result Fault ThreadPool := do
  enabled (s.pc i = .take)
  if s.queue.isEmpty && s.running then return { s with notEmpty := s.notEmpty.wait (.worker i) }
  let s := { s with notEmpty := s.notEmpty.leave (.worker i) }
  match s.queue with
  | [] => return s.setPc i (.taken none)
  | task :: queue =>
    let s := { (s.setPc i (.taken task)) with queue := queue, dequeued := s.dequeued ++ [task] }
    if 0 < s.maxQueueSize then
      enabled (s.notFull.Chooses who)
      return { s with notFull := s.notFull.notify who }
    else return s

/-- The other pieces of `runInThread`, outside the mutex. -/
def runInThread (s : ThreadPool) (i : Nat) : Result Fault ThreadPool :=
  match s.pc i with
  | .init => do
    enabled (s.calls (.worker i) = none)
    return s.setPc i .head
  | .head => return s.setPc i (if s.running then .take else .finished)
  | .taken (some f) => return s.setPc i (.running f)
  | .taken none => return s.setPc i .head
  | .running f => do
    enabled (s.calls (.worker i) = none)
    return { (s.setPc i .head) with executed := s.executed ++ [f] }
  | _ => throw .blocked

/-- The steps: the two pieces of `run()` by any thread, the pieces of the workers, and those of `start()`
    and `stop()`. -/
inductive Label where
  | run (t : ThreadId) (task : Task)
  | push (t : ThreadId) (who : Option ThreadId)
  | take (i : Nat) (who : Option ThreadId)
  | runInThread (i : Nat)
  | start
  | startThread
  | startReturns
  | stop
  | join
  | stopReturns
  deriving DecidableEq, Repr

def step (s : ThreadPool) : Label → Result Fault ThreadPool
  | .run t task => s.run t task
  | .push t who => s.push t who
  | .take i who => s.take i who
  | .runInThread i => s.runInThread i
  | .start => do
    enabled (s.owner = .constructed)
    require (s.threads = 0) .threadsNotEmpty
    return { s with running := true, owner := .starting }
  | .startThread => do
    enabled (s.owner = .starting ∧ s.threads < s.numThreads)
    return { (s.setPc s.threads .init) with threads := s.threads + 1 }
  | .startReturns => do
    enabled (s.owner = .starting ∧ s.threads = s.numThreads)
    return { s with owner := .started }
  | .stop => do
    enabled (s.owner = .started)
    return { s with
      running := false
      notEmpty := s.notEmpty.notifyAll
      notFull := s.notFull.notifyAll
      owner := .joining 0 }
  | .join =>
    match s.owner with
    | .joining i => do
      enabled (i < s.threads ∧ s.pc i = .finished)
      return { s with owner := .joining (i + 1) }
    | _ => throw .blocked
  | .stopReturns => do
    enabled (s.owner = .joining s.threads)
    return { s with owner := .stopped }

end ThreadPool

/-- A pool of any size with its workers, its owner and its users, as a system. -/
def threadPool : System ThreadPool ThreadPool.Label ThreadPool.Fault :=
  ⟨fun s => ∃ numThreads maxQueueSize, s = ThreadPool.new numThreads maxQueueSize, ThreadPool.step⟩

end Irono
