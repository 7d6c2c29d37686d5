import Irono.Net.EventLoop

/-!
# `Net.EventLoopThread` — a loop on a thread of its own (`EventLoopThread.cc`, `Thread.cc`)

Two threads meet here. The owner constructs the `EventLoopThread`, calls `startLoop()` and destroys the
object later; the new thread runs `threadFunc`, whose local variable the loop is. Anybody who has got the
loop's address may call `queueInLoop` and `quit` on it meanwhile, so the loop's own part is a
`LoopState`. `quitReturned` records the history and is read by no step.
-/

namespace Irono

open Transition

/-- The thread that owns an `EventLoopThread` and the one it starts. -/
structure ThreadIds where
  owner : ThreadId
  loop : ThreadId
  ne : owner ≠ loop

namespace EventLoopThread

/-- Where the owner is. -/
inductive OwnerPc where
  /-- the object is constructed, nothing was called -/
  | constructed
  /-- in `Thread::start`, at `latch_.wait()` -/
  | latch
  /-- in `startLoop()`, at `while (loop_ == NULL)` -/
  | waiting
  /-- `startLoop()` has returned -/
  | started
  /-- in `~EventLoopThread`, in `quit()` between its store and `wakeup()` -/
  | quitting
  /-- in `~EventLoopThread`, at `thread_.join()` -/
  | joining
  | destroyed
  deriving DecidableEq, Repr

/-- Where the new thread is. -/
inductive ThreadPc where
  | none
  /-- in `runInThread`, before `latch_->countDown()` -/
  | spawned
  /-- before `EventLoop loop;` -/
  | counted
  /-- in `callback_(&loop)` -/
  | callback
  /-- after `loop_ = &loop`, before `loop.loop()` -/
  | published
  /-- in `loop.loop()` -/
  | looping
  /-- `threadFunc` has returned and its `EventLoop` is destroyed -/
  | finished
  deriving DecidableEq, Repr

/-- The assertions, and what undefined behaviour would take their place. -/
inductive Fault where
  /-- `assert(!thread_.started())` -/
  | alreadyStarted
  /-- `loop_->quit()` with `loop_` null -/
  | nullLoop
  /-- a member of the `EventLoop` is called after its destruction -/
  | loopDestroyed
  /-- `assert(!looping_)` in `~EventLoop` -/
  | stillLooping
  | loop (f : EventLoop.Fault)
  deriving DecidableEq, Repr

end EventLoopThread

open EventLoopThread in
/-- `class EventLoopThread`, with the `EventLoop loop` of `threadFunc`. -/
structure EventLoopThread (H F : Type) where
  /-- `loop_ != NULL` -/
  loop_ : Bool
  exiting : Bool
  /-- `thread_.started_` -/
  started : Bool
  /-- the latch of `thread_` -/
  latch : Nat
  owner : OwnerPc
  pc : ThreadPc
  loop : LoopState H F
  /-- a call of `loop.quit()` has returned -/
  quitReturned : Bool

namespace EventLoopThread

variable {H F : Type}

/-- The constructor. -/
def new : EventLoopThread H F :=
  { loop_ := false, exiting := false, started := false, latch := 1, owner := .constructed, pc := .none
    loop := LoopState.start, quitReturned := false }

/-- The steps: the owner's pieces of `startLoop()` and `~EventLoopThread`, the next piece of the new
    thread outside `loop()`, and the calls on the loop with `loop()` itself. -/
inductive Label (H F : Type) where
  | startLoop (created : Bool)
  | latched
  | startLoopReturns
  | destroy
  | finishQuit
  | join
  | thread
  | loop (a : LoopState.Label H F)

/-- The loop exists from `EventLoop loop;` on and is entered once; its thread calls it from `callback_`
    and from inside `loop()`, the owner once `startLoop()` has returned it. -/
def Permits (ids : ThreadIds) (s : EventLoopThread H F) : LoopState.Label H F → Prop
  | .loop .enter => s.pc = .published
  | .loop (.poll _) | .loop .next | .ret => s.pc = .looping
  | .push t _ | .finishPush t | .quit t | .finishQuit t =>
    (t = ids.loop → s.pc = .callback ∨ s.pc = .looping ∧ s.loop.loop.pc ≠ .outside) ∧
    (t = ids.owner → s.owner = .started)

instance [DecidableEq H] (ids : ThreadIds) (s : EventLoopThread H F) :
    (a : LoopState.Label H F) → Decidable (s.Permits ids a)
  | .loop .enter => inferInstanceAs (Decidable (s.pc = .published))
  | .loop (.poll _) | .loop .next | .ret => inferInstanceAs (Decidable (s.pc = .looping))
  | .push _ _ | .finishPush _ | .quit _ | .finishQuit _ =>
    inferInstanceAs (Decidable ((_ → _ ∨ _ ∧ ¬ _) ∧ (_ → _)))

/-- After the label a call of `quit()` has returned: its store is all of it in the loop thread. -/
def returnsQuit (ids : ThreadIds) : LoopState.Label H F → Bool
  | .quit t => t = ids.loop
  | .finishQuit _ => true
  | _ => false

variable [DecidableEq H]

/-- A step of the loop or a call on it. -/
def onLoop (ids : ThreadIds) (s : EventLoopThread H F) (a : LoopState.Label H F) :
    Result Fault (EventLoopThread H F) :=
  match s.pc with
  | .none | .spawned | .counted => throw .blocked
  | .finished => throw (.fault .loopDestroyed)
  | .callback | .published | .looping => do
    let loop ← (s.loop.step ids.loop a).mapFault .loop
    return { s with
      loop := loop
      pc := match a with
        | .loop .enter => .looping
        | _ => s.pc
      quitReturned := s.quitReturned || returnsQuit ids a }

/-- The new thread outside `loop()`: `runInThread` and `threadFunc`. -/
def threadFunc (ids : ThreadIds) (s : EventLoopThread H F) : Result Fault (EventLoopThread H F) :=
  match s.pc with
  | .spawned => return { s with latch := s.latch - 1, pc := .counted }
  | .counted => return { s with loop := LoopState.start, pc := .callback }
  | .callback => do
    enabled (s.loop.calls ids.loop = .idle)
    return { s with loop_ := true, pc := .published }
  | .looping => do
    enabled (s.loop.loop.pc = .outside)
    require (s.loop.loop.looping = false) .stillLooping
    return { s with pc := .finished }
  | _ => throw .blocked

/-- One step. -/
def step (ids : ThreadIds) (s : EventLoopThread H F) : Label H F → Result Fault (EventLoopThread H F)
  | .startLoop created => do
    enabled (s.owner = .constructed ∨ s.owner = .started ∧ s.loop.calls ids.owner = .idle)
    require (s.started = false) .alreadyStarted
    -- a failing `pthread_create` leaves the owner waiting for a thread that does not exist
    if created then return { s with started := true, owner := .latch, pc := .spawned }
    else return { s with owner := .waiting }
  | .latched => do
    enabled (s.owner = .latch ∧ s.latch = 0)
    return { s with owner := .waiting }
  | .startLoopReturns => do
    enabled (s.owner = .waiting ∧ s.loop_ = true)
    return { s with owner := .started }
  | .destroy => do
    enabled (s.owner = .constructed ∨ s.owner = .started ∧ s.loop.calls ids.owner = .idle)
    require (s.loop_ = true) .nullLoop
    let s' ← onLoop ids s (.quit ids.owner)
    return { s' with exiting := true, owner := .quitting }
  | .finishQuit => do
    enabled (s.owner = .quitting)
    let s' ← onLoop ids s (.finishQuit ids.owner)
    return { s' with owner := .joining }
  | .join => do
    enabled (s.owner = .joining ∧ s.pc = .finished)
    return { s with owner := .destroyed }
  | .thread => threadFunc ids s
  | .loop a => do
    enabled (s.Permits ids a)
    onLoop ids s a

end EventLoopThread

/-- An `EventLoopThread` among its users, as a system. -/
def eventLoopThread (H F : Type) [DecidableEq H] (ids : ThreadIds) :
    System (EventLoopThread H F) (EventLoopThread.Label H F) EventLoopThread.Fault :=
  ⟨fun s => s = EventLoopThread.new, EventLoopThread.step ids⟩

end Irono
