import Irono.Base.AsyncLogging
import Irono.Base.LogFile

/-!
# `Base.LogOnFile` — the back end of the log with its `LogFile` (`AsyncLogging.cc`, `Logging.cc`)

In `AsyncLogging` a call of `output_` is one step. Here it is the steps of `LogFile`, between which the front
end appends and other threads flush: `~Logger` does after a FATAL line.
-/

namespace Irono

open Transition

structure LogOnFile where
  log : AsyncLogging
  /-- `output_` -/
  file : LogFile
  /-- the back end is in a call of `output_` -/
  inCall : Bool

/-- The call of `output_` that the back end comes to. -/
def AsyncLogging.outputCall (s : AsyncLogging) (backend : ThreadId) : Option LogFile.Label :=
  match s.pc with
  | .writing (buffer :: _) => some (.append backend buffer.data)
  | .flush => some (.flush backend)
  | .lastFlush => some (.flush backend)
  | _ => none

/-- A piece of a call. -/
def LogFile.Label.inside : LogFile.Label → Bool
  | .append _ _ => false
  | .flush _ => false
  | _ => true

namespace LogOnFile

inductive Label where
  /-- the front end, the owner, and the back end but for `output_` -/
  | log (l : AsyncLogging.Label)
  /-- the back end calls a function of `output_` -/
  | call
  /-- this returns -/
  | returns
  /-- `AsyncLogger_->output().flush()` in `~Logger` -/
  | flush (t : ThreadId)
  | file (l : LogFile.Label)

/-- The constructor; `flushEveryN` of `output_` is the default. -/
def new : LogOnFile := { log := AsyncLogging.new, file := LogFile.new 1024, inCall := false }

def fileStep (s : LogOnFile) (l : LogFile.Label) : Result AsyncLogging.Fault LogOnFile := do
  let file ← (s.file.step l).mapFault Empty.elim
  return { s with file := file }

def step (backend : ThreadId) (s : LogOnFile) : Label → Result AsyncLogging.Fault LogOnFile
  | .log l => do
    enabled (l = .backend → s.log.outputCall backend = none)
    let log ← s.log.step l
    return { s with log := log }
  | .call => do
    enabled (s.inCall = false)
    match s.log.outputCall backend with
    | some l => fileStep { s with inCall := true } l
    | none => throw .blocked
  | .returns => do
    enabled (s.inCall = true ∧ s.file.pc backend = .outside)
    let log ← s.log.step .backend
    return { s with log := log, inCall := false }
  | .flush t => do
    enabled (t ≠ backend)
    s.fileStep (.flush t)
  | .file l => do
    enabled (l.inside = true)
    s.fileStep l

end LogOnFile

/-- The log whose back end is the thread `backend`, with its file, as a system. -/
def logOnFile (backend : ThreadId) : System LogOnFile LogOnFile.Label AsyncLogging.Fault where
  init s := s = LogOnFile.new
  step := LogOnFile.step backend

end Irono
