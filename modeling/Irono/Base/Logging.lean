import Irono.Base.LogStream

/-!
# `Base.Logging` — a log record (`Logging.h`, `Logging.cc`, `CurrentThread.h`)

A `Logger` lives for one statement: its constructor writes the head of the record into the stream, the
statement inserts its operands, and the destructor adds where the statement stands and hands the bytes to
`g_output`. What the clock and `gettid` give is text in an array of fixed size.
-/

namespace Irono

open Transition LogStream

/-- What a `char[n]` holds: a C string with its NUL. -/
structure CharText (n : Nat) extends CString where
  short : chars.length < n

/-- `Logger::LogLevel` -/
inductive LogLevel where
  | TRACE
  | DEBUG
  | INFO
  | ERROR
  | FATAL
  deriving DecidableEq, Repr

def LogLevelName : LogLevel → CString
  | .TRACE => ⟨ascii "TRACE ", by decide⟩
  | .DEBUG => ⟨ascii "DEBUG ", by decide⟩
  | .INFO => ⟨ascii "INFO  ", by decide⟩
  | .ERROR => ⟨ascii "ERROR ", by decide⟩
  | .FATAL => ⟨ascii "FATAL ", by decide⟩

namespace Logger

/-- What the constructor reads of its surroundings: what `strftime` leaves in `str_t`, `t_tidString`, and
    the bytes that happen to be in the array. -/
structure Surroundings where
  str_t : CharText 26
  t_tidString : CharText 32
  data : CharArray kSmallBuffer

/-- `class Logger::Impl` -/
structure Impl where
  stream : LogBuffer kSmallBuffer
  level : LogLevel
  line : IntType.int.Value
  filename : List Byte

/-- What the constructor inserts: the time, the level, the thread, and a blank. -/
def header (env : Surroundings) (level : LogLevel) : List Item :=
  [.cString (some env.str_t.toCString), .cString (some (LogLevelName level)), .cString (some env.t_tidString.toCString),
    .cString (some ⟨ascii " ", by decide⟩)]

/-- What the destructor inserts. -/
def location (filename : List Byte) (line : IntType.int.Value) : List Item :=
  [.cString (some ⟨ascii " -- ", by decide⟩), .string filename, .cString (some ⟨ascii ":", by decide⟩),
    .integer .int line, .char 10]

/-- `Logger::Impl::Impl` -/
def Impl.new (env : Surroundings) (filename : CString) (line : IntType.int.Value) (level : LogLevel) :
    Result Fault Impl := do
  let stream ← insertAll (.new env.data) (header env level)
  return { stream := stream, level := level, line := line, filename := filename.chars }

/-- `Logger::~Logger`: the bytes it passes to `g_output`. -/
def Impl.destroy (impl : Impl) : Result Fault (List Byte) := do
  let stream ← insertAll impl.stream (location impl.filename impl.line)
  return stream.content

/-- A statement `LOG_… << … << …`. -/
def statement (env : Surroundings) (filename : CString) (line : IntType.int.Value) (level : LogLevel)
    (operands : List Item) : Result Fault (List Byte) := do
  let impl ← Impl.new env filename line level
  let stream ← insertAll impl.stream operands
  { impl with stream := stream }.destroy

end Logger

end Irono
