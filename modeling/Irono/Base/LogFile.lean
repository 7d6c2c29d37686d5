import Irono.Base.Types
import Irono.Lib.Transition

/-!
# `Base.LogFile` — the log file and its stdio stream (`LogFile.cc`, `FileUtil.cc`)

Any threads call `append` and `flush`: the back end of the log, and each thread that logs a FATAL line. The
calls of stdio are single steps, and the labels say what they do: `fwrite` takes some of the bytes, and the
stream passes bytes on to the kernel when it likes.

`called`, `lines` and `failed` record the history and are read by no step.
-/

namespace Irono

open Transition

/-- `class AppendFile`: the bytes `fp_` has taken, and how many of them are out of its buffer. -/
structure AppendFile where
  taken : List Byte
  out : Nat

namespace LogFile

/-- Where a thread is in `append` or `flush`. -/
inductive Pc where
  | outside
  /-- in `append`, at the lock -/
  | append (logline : List Byte)
  /-- at the first `write` of `AppendFile::append` -/
  | first (logline : List Byte)
  /-- at a `write` of its loop, with `n` bytes taken so far -/
  | again (logline : List Byte) (n : Nat)
  /-- at `++count_` -/
  | count (logline : List Byte) (n : Nat)
  /-- at the `fflush` of `append_unlocked` -/
  | flushEvery
  /-- in `flush`, at the lock -/
  | flush
  /-- at its `fflush` -/
  | fflush
  /-- at the unlock -/
  | unlock
  deriving DecidableEq

/-- An `AppendFile::append` that is over: `n` bytes of its line were taken. -/
structure Line where
  thread : ThreadId
  logline : List Byte
  n : Nat
  deriving DecidableEq

/-- What the stream has taken of it. -/
def Line.written (line : Line) : List Byte := line.logline.take line.n

inductive Label where
  | append (t : ThreadId) (logline : List Byte)
  | flush (t : ThreadId)
  | lock (t : ThreadId)
  /-- `fwrite_unlocked` returns `x`, and `out` bytes are out of the buffer then -/
  | fwrite (t : ThreadId) (x out : Nat)
  | count (t : ThreadId)
  /-- `fflush` succeeds, or it fails with `out` bytes out of the buffer -/
  | fflush (t : ThreadId) (failure : Option Nat)
  | unlock (t : ThreadId)

end LogFile

open LogFile in
/-- `class LogFile` -/
structure LogFile where
  flushEveryN : Int
  count : Nat
  mutex : Option ThreadId
  file : AppendFile
  pc : ThreadId → Pc
  /-- the calls of `append` -/
  called : List (ThreadId × List Byte)
  /-- the calls of `AppendFile::append` that are over, in their order -/
  lines : List Line
  /-- an `fflush` has failed -/
  failed : Bool
  /-- how often a `write` of `AppendFile::append`'s loop has returned 0 -/
  refused : Nat

/-- `AppendFile::write` -/
def AppendFile.write (f : AppendFile) (logline : List Byte) (x out : Nat) : AppendFile :=
  { taken := f.taken ++ logline.take x, out := out }

namespace LogFile

/-- The constructor, for a new file. -/
def new (flushEveryN : Int) : LogFile :=
  { flushEveryN := flushEveryN, count := 0, mutex := none, file := ⟨[], 0⟩, pc := fun _ => .outside
    called := [], lines := [], failed := false, refused := 0 }

def setPc (s : LogFile) (t : ThreadId) (pc : Pc) : LogFile := { s with pc := Function.update s.pc t pc }

/-- What stdio can do when `x` of `len` bytes are written. -/
def Writes (f : AppendFile) (len x out : Nat) : Prop := x ≤ len ∧ f.out ≤ out ∧ out ≤ f.taken.length + x

instance (f : AppendFile) (len x out : Nat) : Decidable (Writes f len x out) :=
  inferInstanceAs (Decidable (_ ∧ _ ∧ _))

/-- `while (remain > 0)` -/
def loop (logline : List Byte) (n : Nat) : Pc :=
  if 0 < logline.length - n then .again logline n else .count logline n

/-- An `fflush`. -/
def sync (s : LogFile) (failure : Option Nat) : Result Empty LogFile :=
  match failure with
  | none => return { s with file := { s.file with out := s.file.taken.length } }
  | some out => do
    enabled (s.file.out ≤ out ∧ out ≤ s.file.taken.length)
    return { s with file := { s.file with out := out }, failed := true }

def step (s : LogFile) : Label → Result Empty LogFile
  | .append t logline => do
    enabled (s.pc t = .outside)
    return { s.setPc t (.append logline) with called := s.called ++ [(t, logline)] }
  | .flush t => do
    enabled (s.pc t = .outside)
    return s.setPc t .flush
  | .lock t => do
    enabled (s.mutex = none)
    match s.pc t with
    | .append logline => return { s.setPc t (.first logline) with mutex := some t }
    | .flush => return { s.setPc t .fflush with mutex := some t }
    | _ => throw .blocked
  | .fwrite t x out =>
    match s.pc t with
    | .first logline => do
      enabled (Writes s.file logline.length x out)
      return { s.setPc t (loop logline x) with file := s.file.write logline x out }
    | .again logline n => do
      enabled (Writes s.file (logline.length - n) x out)
      let s := { s with file := s.file.write (logline.drop n) x out }
      if x = 0 then return { s.setPc t (.count logline n) with refused := s.refused + 1 }
      else return s.setPc t (loop logline (n + x))
    | _ => throw .blocked
  | .count t =>
    match s.pc t with
    | .count logline n => do
      let line : Line := ⟨t, logline, n⟩
      let s := { s with count := s.count + 1, lines := s.lines ++ [line] }
      if s.flushEveryN ≤ s.count then return { s.setPc t .flushEvery with count := 0 }
      else return s.setPc t .unlock
    | _ => throw .blocked
  | .fflush t failure => do
    enabled (s.pc t = .flushEvery ∨ s.pc t = .fflush)
    (s.setPc t .unlock).sync failure
  | .unlock t => do
    enabled (s.pc t = .unlock)
    return { s.setPc t .outside with mutex := none }

end LogFile

/-- The log file and the threads that use it, as a system. -/
def logFile : System LogFile LogFile.Label Empty where
  init s := ∃ flushEveryN, s = LogFile.new flushEveryN
  step := LogFile.step

end Irono
