import Irono.Base.Types
import Irono.Lib.Transition
import Mathlib.Logic.Function.Basic

/-!
# `Net.EventLoop` — the loop, its functor queue and its wakeup descriptor (`EventLoop.cc`)

`EventLoop H F` is the loop object of one thread. `H` stands for the handlers of the channels other
than the wakeup channel and `F` for functors: what they do is the business of the system the loop is
part of. `advance` is the loop thread's own code, `loop()` and `doPendingFunctors()`, one atomic piece
at a time; it hands back the task (a handler or a functor) whose code comes next.

`LoopState` puts the loop among its callers: any number of threads, each in the middle of at most one
`queueInLoop` or `quit`, and a loop thread that may also run user code. A call of `queueInLoop` is two
steps, the critical section and the test with `wakeup()`, so everything can come between them. The
lists `queued`, `executed` and `atSwap` record the history and are read by no step.
-/

namespace Irono

open Transition

/-- A channel that `poll` reported: the wakeup channel, or one with handler `h`. -/
inductive Active (H : Type) where
  | wakeupChannel
  | channel (h : H)
  deriving DecidableEq, Repr

/-- Where the loop thread is in `loop()`. -/
inductive LoopPc (H : Type) where
  /-- `loop()` has not been entered, or has returned -/
  | outside
  /-- at `while (!quit_)` -/
  | head
  /-- in `poller_->poll` -/
  | polling
  /-- in the `for` over `activeChannels_`, with these still to be handled -/
  | dispatch (active : List (Active H))
  /-- in `doPendingFunctors`, after the swap -/
  | functors
  /-- leaving `doPendingFunctors`: its local vector and what the functors captured are destroyed -/
  | unwinding
  deriving DecidableEq, Repr

/-- `class EventLoop`; `functors` is the part of the running batch not yet started. -/
structure EventLoop (H F : Type) where
  looping : Bool
  quit : Bool
  callingPendingFunctors : Bool
  wakeupFd : Nat
  pendingFunctors : List F
  functors : List F
  pc : LoopPc H

namespace EventLoop

variable {H F : Type}

/-- `assert(!looping_)` in `loop()`, and the `LOG_FATAL` of `handleRead()`. -/
inductive Fault where
  | alreadyLooping
  | wakeupRead
  deriving DecidableEq, Repr

/-- User code whose turn it is. -/
inductive Task (H F : Type) where
  | handler (h : H)
  | functor (f : F)

/-- The constructor. -/
def new : EventLoop H F :=
  { looping := false, quit := false, callingPendingFunctors := false, wakeupFd := 0,
    pendingFunctors := [], functors := [], pc := .outside }

/-- `wakeup()`: writing 1 adds to the eventfd counter. -/
def wakeup (l : EventLoop H F) : EventLoop H F := { l with wakeupFd := l.wakeupFd + 1 }

/-- `handleRead()` of the wakeup channel: reading a zero counter fails with `EAGAIN`. -/
def handleRead (l : EventLoop H F) : Result Fault (EventLoop H F) := do
  require (0 < l.wakeupFd) .wakeupRead
  return { l with wakeupFd := 0 }

/-- The critical section of `queueInLoop`. -/
def push (l : EventLoop H F) (f : F) : EventLoop H F :=
  { l with pendingFunctors := l.pendingFunctors ++ [f] }

/-- The test of `queueInLoop` after its critical section, and `wakeup()`. -/
def wakeupAfterPush (l : EventLoop H F) (isInLoopThread : Bool) : EventLoop H F :=
  if !isInLoopThread || l.callingPendingFunctors then l.wakeup else l

/-- `queueInLoop` as one piece, for systems that do not look between its halves. -/
def queueInLoop (l : EventLoop H F) (isInLoopThread : Bool) (f : F) : EventLoop H F :=
  (l.push f).wakeupAfterPush isInLoopThread

@[simp] theorem queueInLoop_pc (l : EventLoop H F) (b : Bool) (f : F) : (l.queueInLoop b f).pc = l.pc := by
  unfold queueInLoop wakeupAfterPush; split <;> rfl

@[simp] theorem queueInLoop_pendingFunctors (l : EventLoop H F) (b : Bool) (f : F) :
    (l.queueInLoop b f).pendingFunctors = l.pendingFunctors ++ [f] := by
  unfold queueInLoop wakeupAfterPush; split <;> rfl

@[simp] theorem queueInLoop_functors (l : EventLoop H F) (b : Bool) (f : F) :
    (l.queueInLoop b f).functors = l.functors := by
  unfold queueInLoop wakeupAfterPush; split <;> rfl

/-- What is left of `activeChannels_` to be handled. -/
def activeChannels (l : EventLoop H F) : List (Active H) :=
  match l.pc with
  | .dispatch active => active
  | _ => []

/-- The first half of `doPendingFunctors`: only the loop thread reads `callingPendingFunctors_`, so
    setting it and swapping are one piece. -/
def swapFunctors (l : EventLoop H F) : EventLoop H F :=
  { l with callingPendingFunctors := true, functors := l.pendingFunctors, pendingFunctors := []
           pc := .functors }

/-- The loop thread's choices: call `loop()`, return from `poll`, or go on. -/
inductive Move (H : Type) where
  | enter
  | poll (active : List (Active H))
  | next

/-- `poll` reports the wakeup channel only when its counter is positive, and once at most. -/
def Reportable [DecidableEq H] (l : EventLoop H F) (active : List (Active H)) : Prop :=
  (.wakeupChannel ∈ active → 0 < l.wakeupFd) ∧ active.count .wakeupChannel ≤ 1

instance [DecidableEq H] (l : EventLoop H F) (active : List (Active H)) :
    Decidable (l.Reportable active) := inferInstanceAs (Decidable (_ ∧ _))

/-- One piece of the loop thread's code, up to the next piece that others can observe. -/
def advance [DecidableEq H] (l : EventLoop H F) :
    Move H → Result Fault (EventLoop H F × Option (Task H F))
  | .enter =>
    match l.pc with
    | .outside => do
      require (l.looping = false) .alreadyLooping
      return ({ l with looping := true, quit := false, pc := .head }, none)
    | _ => throw .blocked
  | .poll active =>
    match l.pc with
    | .polling => do
      enabled (l.Reportable active)
      return ({ l with pc := .dispatch active }, none)
    | _ => throw .blocked
  | .next =>
    match l.pc with
    | .head =>
      if l.quit then return ({ l with looping := false, pc := .outside }, none)
      else return ({ l with pc := .polling }, none)
    | .dispatch [] => return (l.swapFunctors, none)
    | .dispatch (.wakeupChannel :: rest) => do
      let l' ← l.handleRead
      return ({ l' with pc := .dispatch rest }, none)
    | .dispatch (.channel h :: rest) => return ({ l with pc := .dispatch rest }, some (.handler h))
    | .functors =>
      match l.functors with
      | f :: rest => return ({ l with functors := rest }, some (.functor f))
      | [] => return ({ l with callingPendingFunctors := false, pc := .unwinding }, none)
    | .unwinding => return ({ l with pc := .head }, none)
    | _ => throw .blocked

/-- **What the loop thread's own code can do.** Every later argument about `advance` starts here. -/
theorem advance_cases [DecidableEq H] {l l' : EventLoop H F} {mv : Move H}
    {task : Option (Task H F)} (h : l.advance mv = .ok (l', task)) :
    (mv = .enter ∧ l.pc = .outside ∧ task = none ∧
      l' = { l with looping := true, quit := false, pc := .head }) ∨
    (∃ active, mv = .poll active ∧ l.pc = .polling ∧ task = none ∧ l.Reportable active ∧
      l' = { l with pc := .dispatch active }) ∨
    (mv = .next ∧ l.pc = .head ∧ task = none ∧
      ((l.quit = true ∧ l' = { l with looping := false, pc := .outside }) ∨
        (l.quit = false ∧ l' = { l with pc := .polling }))) ∨
    (mv = .next ∧ l.pc = .dispatch [] ∧ task = none ∧ l' = l.swapFunctors) ∨
    (∃ rest, mv = .next ∧ l.pc = .dispatch (.wakeupChannel :: rest) ∧ task = none ∧
      l' = { l with wakeupFd := 0, pc := .dispatch rest }) ∨
    (∃ hd rest, mv = .next ∧ l.pc = .dispatch (.channel hd :: rest) ∧ task = some (.handler hd) ∧
      l' = { l with pc := .dispatch rest }) ∨
    (∃ f rest, mv = .next ∧ l.pc = .functors ∧ l.functors = f :: rest ∧
      task = some (.functor f) ∧ l' = { l with functors := rest }) ∨
    (mv = .next ∧ l.pc = .functors ∧ l.functors = [] ∧ task = none ∧
      l' = { l with callingPendingFunctors := false, pc := .unwinding }) ∨
    (mv = .next ∧ l.pc = .unwinding ∧ task = none ∧ l' = { l with pc := .head }) := by
  cases mv with
  | enter =>
    cases hpc : l.pc <;> simp [advance, hpc, bind_eq_ok] at h ⊢
    obtain ⟨-, rfl, rfl⟩ := h; exact ⟨rfl, rfl⟩
  | poll active =>
    cases hpc : l.pc <;> simp [advance, hpc, bind_eq_ok] at h ⊢
    obtain ⟨hr, rfl, rfl⟩ := h; exact ⟨rfl, hr, rfl⟩
  | next =>
    cases hpc : l.pc with
    | outside => simp [advance, hpc] at h
    | polling => simp [advance, hpc] at h
    | head => cases hq : l.quit <;> simp [advance, hpc, hq] at h ⊢ <;> simp [← h.1, ← h.2]
    | unwinding => simp [advance, hpc] at h ⊢; simp [← h.1, ← h.2]
    | functors =>
      cases hf : l.functors <;> simp [advance, hpc, hf] at h ⊢ <;> simp [← h.1, ← h.2]
    | dispatch active =>
      cases active with
      | nil => simp [advance, hpc] at h ⊢; simp [← h.1, ← h.2]
      | cons a rest =>
        cases a with
        | channel hd => simp [advance, hpc] at h ⊢; simp [← h.1, ← h.2]
        | wakeupChannel =>
          simp [advance, hpc, handleRead, bind_eq_ok] at h ⊢
          obtain ⟨_, ⟨-, rfl⟩, rfl, rfl⟩ := h; exact ⟨rfl, rfl⟩

/-- The dispatch list is given up, filled by `poll`, or shortened by the channel it is at. -/
theorem advance_activeChannels [DecidableEq H] {l l' : EventLoop H F} {mv : Move H}
    {task : Option (Task H F)} (h : l.advance mv = .ok (l', task)) :
    (l'.activeChannels = [] ∧ ∀ hd, task ≠ some (.handler hd)) ∨
    (∃ active, mv = .poll active ∧ l'.activeChannels = active ∧ task = none) ∨
    (∃ a, l.activeChannels = a :: l'.activeChannels ∧
      (a = .wakeupChannel ∧ task = none ∨ ∃ hd, a = .channel hd ∧ task = some (.handler hd))) := by
  rcases advance_cases h with
    ⟨-, -, rfl, rfl⟩ | ⟨active, rfl, -, rfl, -, rfl⟩ | ⟨-, -, rfl, ⟨-, rfl⟩ | ⟨-, rfl⟩⟩ |
    ⟨-, -, rfl, rfl⟩ | ⟨rest, -, hpc, rfl, rfl⟩ | ⟨hd, rest, -, hpc, rfl, rfl⟩ |
    ⟨f, rest, -, hpc, -, rfl, rfl⟩ | ⟨-, -, -, rfl, rfl⟩ | ⟨-, -, rfl, rfl⟩
  · exact .inl ⟨rfl, by simp⟩
  · exact .inr (.inl ⟨active, rfl, rfl, rfl⟩)
  · exact .inl ⟨rfl, by simp⟩
  · exact .inl ⟨rfl, by simp⟩
  · exact .inl ⟨rfl, by simp⟩
  · exact .inr (.inr ⟨_, by simp [activeChannels, hpc], .inl ⟨rfl, rfl⟩⟩)
  · exact .inr (.inr ⟨_, by simp [activeChannels, hpc], .inr ⟨hd, rfl, rfl⟩⟩)
  · exact .inl ⟨by simp [activeChannels, hpc], by simp⟩
  · exact .inl ⟨rfl, by simp⟩
  · exact .inl ⟨rfl, by simp⟩

/-! ### What the loop has still to do -/

/-- The handlers of the channels that were reported. -/
def handlers (active : List (Active H)) : List (Task H F) :=
  active.filterMap fun
    | .wakeupChannel => none
    | .channel h => some (.handler h)

/-- The tasks the loop has still to start, in the order it will: the rest of the dispatch, the rest of
    the batch, and what is pending. -/
def agenda (l : EventLoop H F) : List (Task H F) :=
  handlers l.activeChannels ++ (l.functors ++ l.pendingFunctors).map .functor

/-- Outside `doPendingFunctors` the batch is used up. -/
def Batched (l : EventLoop H F) : Prop := l.pc ≠ .functors → l.functors = []

theorem batched_new : (new : EventLoop H F).Batched := fun _ => rfl

@[simp] theorem queueInLoop_agenda (l : EventLoop H F) (b : Bool) (f : F) :
    (l.queueInLoop b f).agenda = l.agenda ++ [.functor f] := by
  simp [agenda, activeChannels]

theorem queueInLoop_batched {l : EventLoop H F} (h : l.Batched) (b : Bool) (f : F) :
    (l.queueInLoop b f).Batched := by
  intro hpc
  rw [queueInLoop_functors]
  exact h (by rwa [queueInLoop_pc] at hpc)

/-- **The loop works its agenda off from the front.** Only `poll` adds to it, at the front, and only
    when nothing but functors is on it. -/
theorem advance_agenda [DecidableEq H] {l l' : EventLoop H F} {mv : Move H} {task : Option (Task H F)}
    (hb : l.Batched) (h : l.advance mv = .ok (l', task)) :
    l'.Batched ∧
    ((∃ active, mv = .poll active ∧ task = none ∧ l.agenda = l.pendingFunctors.map .functor ∧
        l'.agenda = handlers active ++ l.agenda) ∨
      ((∀ active, mv ≠ .poll active) ∧ l.agenda = task.toList ++ l'.agenda)) := by
  rcases advance_cases h with
    ⟨rfl, hpc, rfl, rfl⟩ | ⟨active, rfl, hpc, rfl, -, rfl⟩ | ⟨rfl, hpc, rfl, ⟨-, rfl⟩ | ⟨-, rfl⟩⟩ |
    ⟨rfl, hpc, rfl, rfl⟩ | ⟨rest, rfl, hpc, rfl, rfl⟩ | ⟨hd, rest, rfl, hpc, rfl, rfl⟩ |
    ⟨f, rest, rfl, hpc, hf, rfl, rfl⟩ | ⟨rfl, hpc, hf, rfl, rfl⟩ | ⟨rfl, hpc, rfl, rfl⟩
  case inr.inl =>
    have hnil : l.functors = [] := hb (by simp [hpc])
    exact ⟨fun _ => hnil, .inl ⟨active, rfl, rfl, by simp [agenda, activeChannels, hpc, hnil, handlers],
      by simp [agenda, activeChannels, hpc, hnil, handlers]⟩⟩
  case inr.inr.inr.inl =>
    have hnil : l.functors = [] := hb (by simp [hpc])
    exact ⟨fun hne => absurd rfl hne, .inr ⟨by simp, by simp [agenda, activeChannels, swapFunctors, hpc, hnil]⟩⟩
  case inr.inr.inr.inr.inr.inr.inl =>
    exact ⟨fun hne => absurd hpc hne, .inr ⟨by simp, by simp [agenda, activeChannels, hpc, hf, handlers]⟩⟩
  case inr.inr.inr.inr.inr.inr.inr.inl =>
    exact ⟨fun _ => hf, .inr ⟨by simp, by simp [agenda, activeChannels, hpc, handlers]⟩⟩
  all_goals
    exact ⟨fun _ => hb (by simp [hpc]), .inr ⟨by simp, by simp [agenda, activeChannels, hpc, handlers]⟩⟩

/-- The loop's own code takes functors away and adds none. -/
theorem advance_functors [DecidableEq H] {l l' : EventLoop H F} {mv : Move H} {task : Option (Task H F)}
    (hb : l.Batched) (h : l.advance mv = .ok (l', task)) {f : F}
    (hf : f ∈ l'.functors ++ l'.pendingFunctors) : f ∈ l.functors ++ l.pendingFunctors := by
  rcases advance_cases h with
    ⟨-, -, -, rfl⟩ | ⟨active, -, -, -, -, rfl⟩ | ⟨-, -, -, ⟨-, rfl⟩ | ⟨-, rfl⟩⟩ |
    ⟨-, hpc, -, rfl⟩ | ⟨rest, -, -, -, rfl⟩ | ⟨hd, rest, -, -, -, rfl⟩ |
    ⟨g, rest, -, -, hg, -, rfl⟩ | ⟨-, -, -, -, rfl⟩ | ⟨-, -, -, rfl⟩
  case inr.inr.inr.inl =>
    rw [hb (by simp [hpc])]
    simpa [swapFunctors] using hf
  case inr.inr.inr.inr.inr.inr.inl =>
    rw [hg]
    exact List.mem_cons_of_mem _ hf
  all_goals exact hf

end EventLoop

/-! ## The loop among its callers -/

/-- How far a thread is in a call on the loop. -/
inductive CallPc where
  | idle
  /-- in `queueInLoop`, between `push_back` and the test that may call `wakeup()` -/
  | pushed
  /-- in `quit`, between `quit_ = true` and `wakeup()` -/
  | quitting
  deriving DecidableEq, Repr

/-- A loop with its callers and its history. -/
structure LoopState (H F : Type) where
  loop : EventLoop H F
  /-- the loop thread is in a handler or a functor -/
  inTask : Bool
  calls : ThreadId → CallPc
  /-- every functor queued so far, in the order of the critical sections -/
  queued : List F
  /-- every functor started so far -/
  executed : List F
  /-- what had been queued at the last swap -/
  atSwap : List F

namespace LoopState

variable {H F : Type}

/-- The steps: the loop thread's own code and the end of its user code, and the pieces of
    `queueInLoop` and `quit` in any thread. -/
inductive Label (H F : Type) where
  | loop (mv : EventLoop.Move H)
  | ret
  | push (t : ThreadId) (f : F)
  | finishPush (t : ThreadId)
  | quit (t : ThreadId)
  | finishQuit (t : ThreadId)

/-- User code runs in the loop thread: a task, code outside `loop()` such as the thread init callback,
    or the destructors of what a finished batch captured. -/
def userCode (s : LoopState H F) : Bool :=
  s.inTask || match s.loop.pc with
    | .outside => true
    | .unwinding => true
    | _ => false

/-- The functor a task starts. -/
def started : Option (EventLoop.Task H F) → List F
  | some (.functor f) => [f]
  | _ => []

variable [DecidableEq H]

/-- One step, for the loop of thread `tid`. -/
def step (tid : ThreadId) (s : LoopState H F) : Label H F → Result EventLoop.Fault (LoopState H F)
  | .loop mv => do
    enabled (s.inTask = false ∧ s.calls tid = .idle)
    let (l, task) ← s.loop.advance mv
    return { s with
      loop := l
      inTask := task.isSome
      executed := s.executed ++ started task
      atSwap := if s.loop.pc = .dispatch [] then s.queued else s.atSwap }
  | .ret => do
    enabled (s.inTask = true ∧ s.calls tid = .idle)
    return { s with inTask := false }
  | .push t f => do
    enabled (s.calls t = .idle ∧ (t = tid → s.userCode = true))
    return { s with
      loop := s.loop.push f
      queued := s.queued ++ [f]
      calls := Function.update s.calls t .pushed }
  | .finishPush t => do
    enabled (s.calls t = .pushed)
    return { s with
      loop := s.loop.wakeupAfterPush (t = tid)
      calls := Function.update s.calls t .idle }
  | .quit t => do
    enabled (s.calls t = .idle ∧ (t = tid → s.userCode = true))
    return { s with
      loop := { s.loop with quit := true }
      -- `quit` by the loop thread does not call `wakeup()`
      calls := if t = tid then s.calls else Function.update s.calls t .quitting }
  | .finishQuit t => do
    enabled (s.calls t = .quitting)
    return { s with loop := s.loop.wakeup, calls := Function.update s.calls t .idle }

/-! What each step needs, and what it does. -/

section

variable {tid : ThreadId} {s s' : LoopState H F} {t : ThreadId}

theorem loop_eq_ok {mv : EventLoop.Move H} (hs : step tid s (.loop mv) = .ok s') :
    (s.inTask = false ∧ s.calls tid = .idle) ∧ ∃ l task, s.loop.advance mv = .ok (l, task) ∧ s' = { s with
      loop := l
      inTask := task.isSome
      executed := s.executed ++ started task
      atSwap := if s.loop.pc = .dispatch [] then s.queued else s.atSwap } := by
  simp only [step, bind_eq_ok, enabled_eq_ok, Prod.exists, pure_eq_ok, Except.ok.injEq] at hs
  obtain ⟨-, hidle, l, task, hadv, rfl⟩ := hs
  exact ⟨hidle, l, task, hadv, rfl⟩

theorem ret_eq_ok (hs : step tid s .ret = .ok s') :
    (s.inTask = true ∧ s.calls tid = .idle) ∧ s' = { s with inTask := false } := by
  simp only [step, bind_eq_ok, enabled_eq_ok, pure_eq_ok, Except.ok.injEq] at hs
  obtain ⟨-, htask, rfl⟩ := hs
  exact ⟨htask, rfl⟩

theorem push_eq_ok {f : F} (hs : step tid s (.push t f) = .ok s') :
    (s.calls t = .idle ∧ (t = tid → s.userCode = true)) ∧ s' = { s with
      loop := s.loop.push f
      queued := s.queued ++ [f]
      calls := Function.update s.calls t .pushed } := by
  simp only [step, bind_eq_ok, enabled_eq_ok, pure_eq_ok, Except.ok.injEq] at hs
  obtain ⟨-, hidle, rfl⟩ := hs
  exact ⟨hidle, rfl⟩

theorem finishPush_eq_ok (hs : step tid s (.finishPush t) = .ok s') : s.calls t = .pushed ∧ s' = { s with
    loop := s.loop.wakeupAfterPush (t = tid)
    calls := Function.update s.calls t .idle } := by
  simp only [step, bind_eq_ok, enabled_eq_ok, pure_eq_ok, Except.ok.injEq] at hs
  obtain ⟨-, hpushed, rfl⟩ := hs
  exact ⟨hpushed, rfl⟩

theorem quit_eq_ok (hs : step tid s (.quit t) = .ok s') :
    (s.calls t = .idle ∧ (t = tid → s.userCode = true)) ∧ s' = { s with
      loop := { s.loop with quit := true }
      calls := if t = tid then s.calls else Function.update s.calls t .quitting } := by
  simp only [step, bind_eq_ok, enabled_eq_ok, pure_eq_ok, Except.ok.injEq] at hs
  obtain ⟨-, hidle, rfl⟩ := hs
  exact ⟨hidle, rfl⟩

theorem finishQuit_eq_ok (hs : step tid s (.finishQuit t) = .ok s') : s.calls t = .quitting ∧ s' = { s with
    loop := s.loop.wakeup
    calls := Function.update s.calls t .idle } := by
  simp only [step, bind_eq_ok, enabled_eq_ok, pure_eq_ok, Except.ok.injEq] at hs
  obtain ⟨-, hquitting, rfl⟩ := hs
  exact ⟨hquitting, rfl⟩

end

/-- A loop just constructed, nobody calling it. -/
def start : LoopState H F :=
  { loop := EventLoop.new, inTask := false, calls := fun _ => .idle
    queued := [], executed := [], atSwap := [] }

end LoopState

/-- The loop of thread `tid` among its callers, as a system. -/
def eventLoop (H F : Type) [DecidableEq H] (tid : ThreadId) :
    System (LoopState H F) (LoopState.Label H F) EventLoop.Fault :=
  ⟨fun s => s = LoopState.start, LoopState.step tid⟩

end Irono
