import Irono.Base.Types
import Irono.Lib.Transition

/-!
# `Base.AsyncLogging` — the front end and the back end of the log (`LogStream.h`, `AsyncLogging.cc`)

Any number of threads `append` lines; the one back-end thread collects the full buffers under the mutex
and writes them out. A critical section is one step. `cond_.waitForSeconds` gives the mutex up, and it
can return at any time (a notification, the timeout, a spurious wakeup), so the critical section of
`threadFunc` is two steps when `buffers_` is empty.

The owner calls `start()` and later `stop()`, each in pieces between which the others move. `lines`,
`batches`, `swapped` and `beforeStop` record the history and are read by no step.
-/

namespace Irono

open Transition

def kLargeBuffer : Nat := 4000 * 1000

/-- `class FixedBuffer`: what was put in so far, at most `SIZE` bytes. -/
structure FixedBuffer (SIZE : Nat) where
  data : List Byte
  fits : data.length ≤ SIZE
  deriving DecidableEq, Repr

namespace FixedBuffer

variable {SIZE : Nat}

/-- The constructor. -/
def new : FixedBuffer SIZE := ⟨[], Nat.zero_le _⟩

def length (b : FixedBuffer SIZE) : Nat := b.data.length

def avail (b : FixedBuffer SIZE) : Nat := SIZE - b.data.length

/-- `append`; what does not fit is not taken at all. -/
def append (b : FixedBuffer SIZE) (buf : List Byte) : FixedBuffer SIZE :=
  if h : buf.length < b.avail then
    ⟨b.data ++ buf, by rw [avail] at h; rw [List.length_append]; omega⟩
  else b

/-- `reset` -/
def reset (_ : FixedBuffer SIZE) : FixedBuffer SIZE := new

@[simp] theorem data_new : (new : FixedBuffer SIZE).data = [] := rfl

@[simp] theorem data_reset (b : FixedBuffer SIZE) : b.reset.data = [] := rfl

theorem data_append {b : FixedBuffer SIZE} {buf : List Byte} (h : buf.length < b.avail) :
    (b.append buf).data = b.data ++ buf := by
  rw [append, dif_pos h]

/-- An empty buffer takes what is shorter than a buffer. -/
theorem data_append_empty {b : FixedBuffer SIZE} {buf : List Byte} (hb : b.data = [])
    (h : buf.length < SIZE) : (b.append buf).data = buf := by
  rw [data_append (by simp [avail, hb, h]), hb, List.nil_append]

end FixedBuffer

namespace AsyncLogging

/-- `AsyncLogging::Buffer` -/
abbrev Buffer := FixedBuffer kLargeBuffer

/-- Where the back-end thread is in `threadFunc`. -/
inductive Pc where
  /-- `thread_` has not been started -/
  | notStarted
  /-- before `latch_.countDown()` -/
  | started
  /-- at `while (running_)` -/
  | head
  /-- in the loop, before the critical section -/
  | enter
  /-- in `cond_.waitForSeconds` -/
  | waiting
  /-- after the critical section -/
  | swapped
  /-- in the `for` over `buffersToWrite`, with these still to be written -/
  | writing (rest : List Buffer)
  /-- after the `for` -/
  | recycle
  /-- at the `output_.flush()` of the loop -/
  | flush
  /-- at the `output_.flush()` after the loop -/
  | lastFlush
  /-- `threadFunc` has returned -/
  | finished
  deriving DecidableEq, Repr

/-- Where the owner is in `start()` and `stop()`. -/
inductive OwnerPc where
  | constructed
  /-- in `latch_.wait()` of `start()` -/
  | starting
  | started
  /-- in `stop()`, before `running_ = false` -/
  | stopping
  /-- before `cond_.notify()` -/
  | notifying
  /-- in `thread_.join()` -/
  | joining
  /-- `stop()` has returned -/
  | stopped
  deriving DecidableEq, Repr

/-- The asserts of `threadFunc`, and the call through a null `newBuffer1`. -/
inductive Fault where
  | running
  | newBuffer1
  | newBuffer2
  | buffersToWrite
  | emptyBatch
  | nullBuffer
  deriving DecidableEq, Repr

end AsyncLogging

open AsyncLogging in
/-- `class AsyncLogging` with the locals of `threadFunc`; a `unique_ptr` that can be null is an
    `Option`. -/
structure AsyncLogging where
  running : Bool
  currentBuffer : Buffer
  nextBuffer : Option Buffer
  buffers : List Buffer
  pc : Pc
  newBuffer1 : Option Buffer
  newBuffer2 : Option Buffer
  buffersToWrite : List Buffer
  owner : OwnerPc
  /-- what was handed to `output_.append` -/
  output : List Byte
  /-- what of it was flushed -/
  flushed : List Byte
  /-- every line appended so far, in the order of the mutex -/
  lines : List (List Byte)
  /-- what `buffersToWrite` was after each critical section -/
  batches : List (List Buffer)
  /-- how many lines had been appended at the last swap -/
  swapped : Nat
  /-- the lines appended when `stop()` was called -/
  beforeStop : List (List Byte)

namespace AsyncLogging

/-- The constructor. -/
def new : AsyncLogging :=
  { running := false, currentBuffer := .new, nextBuffer := some .new, buffers := [], pc := .notStarted
    newBuffer1 := none, newBuffer2 := none, buffersToWrite := [], owner := .constructed
    output := [], flushed := [], lines := [], batches := [], swapped := 0, beforeStop := [] }

/-- `append`; it runs under the mutex. -/
def append (s : AsyncLogging) (logline : List Byte) : AsyncLogging :=
  if logline.length < s.currentBuffer.avail then
    { s with
      currentBuffer := s.currentBuffer.append logline
      lines := s.lines ++ [logline] }
  else
    { s with
      buffers := s.buffers ++ [s.currentBuffer]
      currentBuffer := (s.nextBuffer.getD .new).append logline
      nextBuffer := none
      lines := s.lines ++ [logline] }

/-- The critical section of `threadFunc` after the wait. -/
def swapBuffers (s : AsyncLogging) : Result Fault AsyncLogging :=
  match s.newBuffer1 with
  | none => throw (.fault .nullBuffer)
  | some buffer =>
    let batch := s.buffers ++ [s.currentBuffer]
    return { s with
      currentBuffer := buffer
      newBuffer1 := none
      buffersToWrite := batch
      buffers := []
      nextBuffer := s.nextBuffer.or s.newBuffer2
      newBuffer2 := if s.nextBuffer.isNone then none else s.newBuffer2
      pc := .swapped
      batches := s.batches ++ [batch]
      swapped := s.lines.length }

/-- What the overload rule leaves of a batch. -/
def kept {α : Type} (batch : List α) : List α := if 25 < batch.length then batch.take 2 else batch

/-- A batch of at most 25 buffers is written as it is. -/
theorem kept_of_le {α : Type} {batch : List α} (h : batch.length ≤ 25) : kept batch = batch :=
  if_neg (Nat.not_lt.mpr h)

/-- Of a larger one the first two buffers are written. -/
theorem kept_of_lt {α : Type} {batch : List α} (h : 25 < batch.length) : kept batch = batch.take 2 := if_pos h

/-- `newBuffer = std::move(buffersToWrite.back())`, `pop_back()` and `reset()`, when it is null. -/
def refill (newBuffer : Option Buffer) (buffersToWrite : List Buffer) :
    Result Fault (Option Buffer × List Buffer) :=
  match newBuffer with
  | some _ => return (newBuffer, buffersToWrite)
  | none =>
    match buffersToWrite.getLast? with
    | none => throw (.fault .emptyBatch)
    | some buffer => return (some buffer.reset, buffersToWrite.dropLast)

/-- From the `for` to the `flush`: the buffers are taken back. -/
def recycle (s : AsyncLogging) : Result Fault AsyncLogging := do
  let rest := if 10 < s.buffersToWrite.length then s.buffersToWrite.take 2 else s.buffersToWrite
  let (newBuffer1, rest) ← refill s.newBuffer1 rest
  let (newBuffer2, _) ← refill s.newBuffer2 rest
  return { s with newBuffer1 := newBuffer1, newBuffer2 := newBuffer2, buffersToWrite := [], pc := .flush }

/-- One piece of the back-end thread. -/
def backend (s : AsyncLogging) : Result Fault AsyncLogging :=
  match s.pc with
  | .notStarted => throw .blocked
  | .started => do
    require (s.running = true) .running
    return { s with newBuffer1 := some .new, newBuffer2 := some .new, buffersToWrite := [], pc := .head }
  | .head =>
    if s.running then do
      require (s.newBuffer1.map FixedBuffer.length = some 0) .newBuffer1
      require (s.newBuffer2.map FixedBuffer.length = some 0) .newBuffer2
      require (s.buffersToWrite = []) .buffersToWrite
      return { s with pc := .enter }
    else return { s with pc := .lastFlush }
  | .enter => if s.buffers = [] then return { s with pc := .waiting } else s.swapBuffers
  | .waiting => s.swapBuffers
  | .swapped => do
    require (s.buffersToWrite ≠ []) .emptyBatch
    return { s with buffersToWrite := kept s.buffersToWrite, pc := .writing (kept s.buffersToWrite) }
  | .writing (buffer :: rest) => return { s with output := s.output ++ buffer.data, pc := .writing rest }
  | .writing [] => return { s with pc := .recycle }
  | .recycle => s.recycle
  | .flush => return { s with flushed := s.output, pc := .head }
  | .lastFlush => return { s with flushed := s.output, pc := .finished }
  | .finished => throw .blocked

/-- The pieces that go through. -/
inductive BackendStep (s : AsyncLogging) : AsyncLogging → Prop where
  | started : s.pc = .started → s.running = true → s.BackendStep
      { s with newBuffer1 := some .new, newBuffer2 := some .new, buffersToWrite := [], pc := .head }
  | again : s.pc = .head → s.running = true → s.newBuffer1.map FixedBuffer.length = some 0 →
      s.newBuffer2.map FixedBuffer.length = some 0 → s.buffersToWrite = [] → s.BackendStep { s with pc := .enter }
  | ended : s.pc = .head → s.running = false → s.BackendStep { s with pc := .lastFlush }
  | wait : s.pc = .enter → s.buffers = [] → s.BackendStep { s with pc := .waiting }
  | swap {s' : AsyncLogging} : s.pc = .enter ∧ s.buffers ≠ [] ∨ s.pc = .waiting → s.swapBuffers = .ok s' →
      s.BackendStep s'
  | overload : s.pc = .swapped → s.buffersToWrite ≠ [] → s.BackendStep
      { s with buffersToWrite := kept s.buffersToWrite, pc := .writing (kept s.buffersToWrite) }
  | write {buffer : Buffer} {rest : List Buffer} : s.pc = .writing (buffer :: rest) → s.BackendStep
      { s with output := s.output ++ buffer.data, pc := .writing rest }
  | written : s.pc = .writing [] → s.BackendStep { s with pc := .recycle }
  | recycle {s' : AsyncLogging} : s.pc = .recycle → s.recycle = .ok s' → s.BackendStep s'
  | flush : s.pc = .flush → s.BackendStep { s with flushed := s.output, pc := .head }
  | lastFlush : s.pc = .lastFlush → s.BackendStep { s with flushed := s.output, pc := .finished }

theorem backend_step {s s' : AsyncLogging} (hs : s.backend = .ok s') : s.BackendStep s' := by
  unfold backend at hs
  cases hpc : s.pc with
  | notStarted => simp [hpc] at hs
  | finished => simp [hpc] at hs
  | started =>
    simp only [hpc, bind_eq_ok, require_eq_ok, pure_eq_ok, Except.ok.injEq] at hs
    obtain ⟨-, hrunning, rfl⟩ := hs
    exact .started hpc hrunning
  | head =>
    simp only [hpc] at hs
    split at hs
    · rename_i hrunning
      simp only [bind_eq_ok, require_eq_ok, pure_eq_ok, Except.ok.injEq] at hs
      obtain ⟨-, h₁, -, h₂, -, hempty, rfl⟩ := hs
      exact .again hpc hrunning h₁ h₂ hempty
    · rename_i hstopped
      rw [pure_eq_ok, Except.ok.injEq] at hs
      subst hs
      exact .ended hpc (Bool.eq_false_iff.mpr hstopped)
  | enter =>
    simp only [hpc] at hs
    split at hs
    · rename_i hnil
      rw [pure_eq_ok, Except.ok.injEq] at hs
      subst hs
      exact .wait hpc hnil
    · rename_i hne
      exact .swap (.inl ⟨hpc, hne⟩) hs
  | waiting =>
    simp only [hpc] at hs
    exact .swap (.inr hpc) hs
  | swapped =>
    simp only [hpc, bind_eq_ok, require_eq_ok, pure_eq_ok, Except.ok.injEq] at hs
    obtain ⟨-, hne, rfl⟩ := hs
    exact .overload hpc hne
  | writing todo =>
    cases todo with
    | nil =>
      simp only [hpc, pure_eq_ok, Except.ok.injEq] at hs
      subst hs
      exact .written hpc
    | cons buffer rest =>
      simp only [hpc, pure_eq_ok, Except.ok.injEq] at hs
      subst hs
      exact .write hpc
  | recycle =>
    simp only [hpc] at hs
    exact .recycle hpc hs
  | flush =>
    simp only [hpc, pure_eq_ok, Except.ok.injEq] at hs
    subst hs
    exact .flush hpc
  | lastFlush =>
    simp only [hpc, pure_eq_ok, Except.ok.injEq] at hs
    subst hs
    exact .lastFlush hpc

/-- The steps: `append` by any thread, a piece of the back end, and the pieces of `start()` and
    `stop()`. -/
inductive Label where
  | append (logline : List Byte)
  | backend
  | start
  | startReturns
  | stop
  | clearRunning
  | notify
  | join
  deriving DecidableEq, Repr

def step (s : AsyncLogging) : Label → Result Fault AsyncLogging
  | .append logline => return s.append logline
  | .backend => s.backend
  | .start => do
    enabled (s.owner = .constructed)
    return { s with running := true, pc := .started, owner := .starting }
  | .startReturns => do
    -- `latch_` is open
    enabled (s.owner = .starting ∧ s.pc ≠ .started)
    return { s with owner := .started }
  | .stop => do
    enabled (s.owner = .started)
    return { s with owner := .stopping, beforeStop := s.lines }
  | .clearRunning => do
    enabled (s.owner = .stopping)
    return { s with running := false, owner := .notifying }
  | .notify => do
    enabled (s.owner = .notifying)
    return { s with owner := .joining }
  | .join => do
    enabled (s.owner = .joining ∧ s.pc = .finished)
    return { s with owner := .stopped }

end AsyncLogging

/-- The log with its front-end threads, its back end and its owner, as a system. -/
def asyncLogging : System AsyncLogging AsyncLogging.Label AsyncLogging.Fault :=
  ⟨fun s => s = AsyncLogging.new, AsyncLogging.step⟩

end Irono
