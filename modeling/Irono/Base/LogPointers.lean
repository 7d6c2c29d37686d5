import Irono.Base.AsyncLogging

/-!
# `Base.LogPointers` — the log with every `unique_ptr` that it has (`AsyncLogging.cc`)

`AsyncLogging` has a buffer where the code has a pointer that is never null when another thread can look.
Here every `BufferPtr` is an `Option`, those in the vectors included: a move leaves `none` behind, and the
use of a null pointer is the fault `nullBuffer`. The pieces are those of `AsyncLogging`, and the history is
left out.
-/

namespace Irono

open Transition AsyncLogging

namespace LogPointers

/-- `AsyncLogging::BufferPtr` -/
abbrev BufferPtr := Option Buffer

/-- Where the back-end thread is in `threadFunc`. -/
inductive Pc where
  | notStarted
  | started
  | head
  | enter
  | waiting
  | swapped
  /-- in the `for` over `buffersToWrite`, with these still to be written -/
  | writing (rest : List BufferPtr)
  | recycle
  | flush
  | lastFlush
  | finished
  deriving DecidableEq, Repr

end LogPointers

open LogPointers in
/-- `class AsyncLogging` with the locals of `threadFunc`. -/
structure LogPointers where
  running : Bool
  currentBuffer : BufferPtr
  nextBuffer : BufferPtr
  buffers : List BufferPtr
  pc : LogPointers.Pc
  newBuffer1 : BufferPtr
  newBuffer2 : BufferPtr
  buffersToWrite : List BufferPtr
  owner : OwnerPc
  output : List Byte
  flushed : List Byte
  deriving DecidableEq, Repr

namespace LogPointers

/-- The constructor. -/
def new : LogPointers :=
  { running := false, currentBuffer := some .new, nextBuffer := some .new, buffers := [], pc := .notStarted
    newBuffer1 := none, newBuffer2 := none, buffersToWrite := [], owner := .constructed, output := [], flushed := [] }

/-- `->` -/
def deref : BufferPtr → Result Fault Buffer
  | some buffer => return buffer
  | none => throw (.fault .nullBuffer)

/-- `append` -/
def append (s : LogPointers) (logline : List Byte) : Result Fault LogPointers := do
  let current ← deref s.currentBuffer
  if logline.length < current.avail then
    return { s with currentBuffer := some (current.append logline) }
  else
    let buffers := s.buffers ++ [s.currentBuffer]
    let currentBuffer := if s.nextBuffer.isSome then s.nextBuffer else some .new
    let current ← deref currentBuffer
    return { s with
      buffers := buffers
      currentBuffer := some (current.append logline)
      nextBuffer := none }

/-- The critical section of `threadFunc` after the wait. -/
def swapBuffers (s : LogPointers) : LogPointers :=
  { s with
    currentBuffer := s.newBuffer1
    newBuffer1 := none
    buffersToWrite := s.buffers ++ [s.currentBuffer]
    buffers := s.buffersToWrite
    nextBuffer := if s.nextBuffer.isNone then s.newBuffer2 else s.nextBuffer
    newBuffer2 := if s.nextBuffer.isNone then none else s.newBuffer2
    pc := .swapped }

/-- What `resize(2)` leaves of a batch. -/
def resized (buffersToWrite : List BufferPtr) : List BufferPtr :=
  if 10 < buffersToWrite.length then buffersToWrite.take 2 else buffersToWrite

/-- The `if (!newBuffer)` blocks. -/
def refill (newBuffer : BufferPtr) (buffersToWrite : List BufferPtr) : Result Fault (BufferPtr × List BufferPtr) :=
  match newBuffer with
  | some _ => return (newBuffer, buffersToWrite)
  | none => do
    require (buffersToWrite ≠ []) .emptyBatch
    let newBuffer := buffersToWrite.getLast?.join
    let buffer ← deref newBuffer
    return (some buffer.reset, buffersToWrite.dropLast)

/-- From the `for` to the `flush`. -/
def recycle (s : LogPointers) : Result Fault LogPointers := do
  let (newBuffer1, rest) ← refill s.newBuffer1 (resized s.buffersToWrite)
  let (newBuffer2, _) ← refill s.newBuffer2 rest
  return { s with newBuffer1 := newBuffer1, newBuffer2 := newBuffer2, buffersToWrite := [], pc := .flush }

/-- One piece of the back-end thread. -/
def backend (s : LogPointers) : Result Fault LogPointers :=
  match s.pc with
  | .notStarted => throw .blocked
  | .started => do
    require (s.running = true) .running
    return { s with newBuffer1 := some .new, newBuffer2 := some .new, buffersToWrite := [], pc := .head }
  | .head =>
    if s.running then do
      require (s.newBuffer1.map FixedBuffer.length = some 0) .newBuffer1
      require (s.newBuffer2.map FixedBuffer.length = some 0) .newBuffer2
      require (s.buffersToWrite = []) .buffersToWrite
      return { s with pc := .enter }
    else return { s with pc := .lastFlush }
  | .enter => if s.buffers = [] then return { s with pc := .waiting } else return s.swapBuffers
  | .waiting => return s.swapBuffers
  | .swapped => do
    require (s.buffersToWrite ≠ []) .emptyBatch
    return { s with buffersToWrite := kept s.buffersToWrite, pc := .writing (kept s.buffersToWrite) }
  | .writing (buffer :: rest) => do
    let buffer ← deref buffer
    return { s with output := s.output ++ buffer.data, pc := .writing rest }
  | .writing [] => return { s with pc := .recycle }
  | .recycle => s.recycle
  | .flush => return { s with flushed := s.output, pc := .head }
  | .lastFlush => return { s with flushed := s.output, pc := .finished }
  | .finished => throw .blocked

def step (s : LogPointers) : Label → Result Fault LogPointers
  | .append logline => s.append logline
  | .backend => s.backend
  | .start => do
    enabled (s.owner = .constructed)
    return { s with running := true, pc := .started, owner := .starting }
  | .startReturns => do
    enabled (s.owner = .starting ∧ s.pc ≠ .started)
    return { s with owner := .started }
  | .stop => do
    enabled (s.owner = .started)
    return { s with owner := .stopping }
  | .clearRunning => do
    enabled (s.owner = .stopping)
    return { s with running := false, owner := .notifying }
  | .notify => do
    enabled (s.owner = .notifying)
    return { s with owner := .joining }
  | .join => do
    enabled (s.owner = .joining ∧ s.pc = .finished)
    return { s with owner := .stopped }

end LogPointers

/-- The log with its pointers, as a system. -/
def logPointers : System LogPointers AsyncLogging.Label AsyncLogging.Fault :=
  ⟨fun s => s = LogPointers.new, LogPointers.step⟩

end Irono
