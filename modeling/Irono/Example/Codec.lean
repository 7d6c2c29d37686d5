import Irono.Net.Buffer

/-!
# `Example.Codec` — messages behind a length (`example/chat/codec.h`)

`send` puts the size of a message in front of it, as four bytes, most significant first; `onMessage` takes
the complete messages from the front of a connection's buffer. `htonl` with the store behind it, and the
load with `ntohl`, come to big-endian bytes on every host. A size is narrowed to `int32_t` on one side, and
a length widened to `size_t` on the other.

The calls that leave the codec are events: of `messageCallback_`, of the log, of the connection.
-/

namespace Irono

open Transition

/-- A `size_t` made from `x`. -/
def sizeT (x : Int) : Nat := (x % 2 ^ 64).toNat

/-- The bytes of `htonl(x)`. -/
def htonl (x : Int) : List Byte :=
  let n := (x % 2 ^ 32).toNat
  [UInt8.ofNat (n / 2 ^ 24), UInt8.ofNat (n / 2 ^ 16), UInt8.ofNat (n / 2 ^ 8), UInt8.ofNat n]

/-- `ntohl` of the four bytes loaded. -/
def ntohl (bytes : List Byte) : Int := bytes.foldl (fun n b => n * 2 ^ 8 + (b.toNat : Int)) 0

namespace LengthHeaderCodec

def kHeaderLen : Nat := 4

/-- What `onMessage` calls. -/
inductive Event where
  /-- `messageCallback_` -/
  | message (message : List Byte)
  /-- `LOG_ERROR << "Invalid length " << len` -/
  | invalidLength (len : Int)
  /-- `conn->shutdown()` -/
  | shutdown
  deriving DecidableEq, Repr

/-- How a turn of the `while` ends. -/
inductive Turn where
  | again (buf : Buffer) (message : List Byte)
  | leave (events : List Event)

/-- One turn of the `while`, with its condition. -/
def turn (buf : Buffer) : Result Buffer.Fault Turn := do
  if kHeaderLen ≤ buf.readableBytes then
    let len := int32 (ntohl (buf.content.take kHeaderLen))
    if 65536 < len ∨ len < 0 then return .leave [.invalidLength len, .shutdown]
    else if sizeT len + kHeaderLen ≤ buf.readableBytes then
      let buf ← buf.retrieve kHeaderLen
      let message := buf.content.take (sizeT len)
      let buf ← buf.retrieve (sizeT len)
      return .again buf message
    else return .leave []
  else return .leave []

/-- A turn that goes on has taken its header at least. -/
theorem turn_again {buf buf' : Buffer} {message : List Byte} (h : turn buf = .ok (.again buf' message)) :
    buf'.readableBytes < buf.readableBytes := by
  unfold turn at h
  split at h
  · rename_i hheader
    simp only at h
    split at h
    · cases h
    · split at h
      · simp only [Buffer.retrieve, bind_eq_ok, require_eq_ok, pure_eq_ok, Except.ok.injEq] at h
        obtain ⟨_, ⟨_, -, rfl⟩, _, ⟨_, -, rfl⟩, hturn⟩ := h
        obtain ⟨rfl, -⟩ := Turn.again.inj hturn
        unfold kHeaderLen at hheader ⊢
        simp only [Buffer.readableBytes] at hheader ⊢
        omega
      · cases h
  · cases h

/-- `onMessage`: the buffer it leaves, and what it calls. -/
def onMessage (buf : Buffer) : Result Buffer.Fault (Buffer × List Event) :=
  match _h : turn buf with
  | .error e => .error e
  | .ok (.leave events) => .ok (buf, events)
  | .ok (.again buf' message) => do
    let (buf'', events) ← onMessage buf'
    return (buf'', .message message :: events)
termination_by buf.readableBytes
decreasing_by exact turn_again _h

/-- A stream arrives in pieces: each is appended to the buffer, and `onMessage` called. -/
def receive (buf : Buffer) : List (List Byte) → Result Buffer.Fault (Buffer × List Event)
  | [] => return (buf, [])
  | chunk :: chunks => do
    let buf ← buf.append chunk
    let (buf, events) ← onMessage buf
    let (buf, events') ← receive buf chunks
    return (buf, events ++ events')

/-- `TcpConnection::send(Buffer*)`: what a connected connection passes to `sendInLoop`. -/
def connSend (connected : Bool) (buf : Buffer) : Option (List Byte) :=
  if connected then some buf.retrieveAsString.2 else none

/-- `send`: the bytes that go out. -/
def send (connected : Bool) (message : List Byte) : Result Buffer.Fault (Option (List Byte)) := do
  let buf ← Buffer.new.append message
  let len := int32 message.length
  let buf ← buf.prepend (htonl len)
  return connSend connected buf

end LengthHeaderCodec

end Irono
