import Irono.Net.TcpConnection

/-!
# `Example.PingPong` — the pingpong server and a session of its client (`pingpong/server.cc`, `pingpong/client.cc`)

Two connections in two programs, each in its own loop, with TCP between them: what the socket of one end has
taken comes to the other end in its order, in pieces of any size. The client sends its block when it is
connected, and each end sends back what it reads. Both ends run the same code but for the block and for the
session's counters, which do not come near to `2^63`.

A callback of a loop is one step: the other end can see no more of it than the socket. Only a `stop()` of the main
thread can fall inside one. In `handleRead` and `handleWrite` it has the effect of one before or after. Left out is
the run in which it falls into the client's `connectEstablished`, between `setState(kConnected)` and the test in
`onConnection`: no block is sent then.
-/

namespace Irono

open Transition

namespace PingPong

inductive Side where
  | client
  | server
  deriving DecidableEq

def Side.peer : Side → Side
  | .client => .server
  | .server => .client

/-- The connection at one end. -/
structure End where
  conn : TcpConnection
  /-- all that was read from it -/
  received : List Byte
  /-- `shutdownInLoop` waits in the loop -/
  shuttingDown : Bool
  /-- `handleClose` has been called -/
  closing : Bool

/-- The counters of `Session`. -/
structure Session where
  bytesRead : Nat
  bytesWritten : Nat
  messagesRead : Nat

abbrev Fault := TcpConnection.Fault

inductive Label where
  | connectEstablished (side : Side) (w : Option Nat)
  /-- `readv` gives the next `n` bytes -/
  | handleRead (side : Side) (n : Nat) (w : Option Nat)
  /-- `readv` gives 0 -/
  | handleClose (side : Side)
  | handleError (side : Side)
  | handleWrite (side : Side) (w : Option Nat)
  /-- `Session::stop` -/
  | stop
  | shutdownInLoop
  | connectDestroyed (side : Side)

/-! ## One end -/

namespace End

/-- A new connection, with its callbacks set. -/
def new (self : Addr) (sockfd : Int) : End :=
  { conn := { TcpConnection.new self sockfd with closeCallback := true }, received := [], shuttingDown := false
    closing := false }

/-- `TcpConnection::send` in the loop. -/
def send (e : End) (message : List Byte) (w : Option Nat) : Result Fault End :=
  if e.conn.connected then do
    let (c, _) ← e.conn.sendInLoop message w
    return { e with conn := c }
  else return e

/-- `connectEstablished`, and `onConnection` sends `message`. -/
def connectEstablished (e : End) (message : List Byte) (w : Option Nat) : Result Fault End := do
  let c ← e.conn.connectEstablished
  { e with conn := c }.send message w

/-- `onMessage`: `conn->send(buf->retrieveAsString())`. -/
def onMessage (e : End) (w : Option Nat) : Result Fault End :=
  let (inputBuffer, message) := e.conn.inputBuffer.retrieveAsString
  { e with conn := { e.conn with inputBuffer := inputBuffer } }.send message w

def handleRead (e : End) (bytes : List Byte) (w : Option Nat) : Result Fault End := do
  let c ← e.conn.readInput (some bytes)
  { e with conn := c, received := e.received ++ bytes }.onMessage w

def handleWrite (e : End) (w : Option Nat) : Result Fault End := do
  let (c, drained) ← e.conn.handleWrite w
  return { e with conn := if drained ∧ c.state = .kDisconnecting then c.shutdownInLoop else c }

def handleClose (e : End) : Result Fault End := do
  let c ← e.conn.handleClose
  return { e with conn := c, closing := true }

/-- `TcpConnection::shutdown` from another thread. -/
def shutdown (e : End) : End :=
  if e.conn.connected then { e with conn := { e.conn with state := .kDisconnecting }, shuttingDown := true } else e

/-- `connectDestroyed`; `onConnection` sends nothing now. -/
def connectDestroyed (e : End) : Result Fault End := do
  let c ← e.conn.connectDestroyed
  let c ← c.removeChannel
  return { e with conn := c }

/-- The poller watches for this. -/
def Watches (e : End) (event : PollFlag) : Prop := ∃ events ∈ e.conn.watched, event ∈ events

instance (e : End) (event : PollFlag) : Decidable (e.Watches event) := inferInstanceAs (Decidable (∃ _ ∈ _, _))

end End

/-- A value for each side. -/
def pair {α : Type} (client server : α) : Side → α
  | .client => client
  | .server => server

/-- What is sent when the connection is up. -/
def opening (message : List Byte) : Side → List Byte := pair message []

/-- `Session::onMessage` up to `send`. -/
def Session.onMessage (session : Session) (readableBytes : Nat) : Session :=
  { bytesRead := session.bytesRead + readableBytes, bytesWritten := session.bytesWritten + readableBytes
    messagesRead := session.messagesRead + 1 }

end PingPong

open PingPong in
/-- The two ends. -/
structure PingPong where
  ends : Side → End
  session : Session

namespace PingPong

def set (s : PingPong) (side : Side) (e : End) : PingPong := { s with ends := Function.update s.ends side e }

/-- `side` has read `n` bytes: the client's session counts them. -/
def count (s : PingPong) (side : Side) (n : Nat) : PingPong :=
  match side with
  | .client => { s with session := s.session.onMessage n }
  | .server => s

/-- What has come to `side` and was not read. -/
def arrived (s : PingPong) (side : Side) : List Byte :=
  (s.ends side.peer).conn.socket.accepted.drop (s.ends side).received.length

/-- The peer has no more to say. -/
def Shut (s : PingPong) (side : Side) : Prop :=
  (s.ends side).conn.socket.writeShut = true ∨ (s.ends side).conn.state = .kDisconnected

instance (s : PingPong) (side : Side) : Decidable (s.Shut side) := inferInstanceAs (Decidable (_ ∨ _))

def step (message : List Byte) (s : PingPong) : Label → Result Fault PingPong
  | .connectEstablished side w => do
    enabled ((s.ends side).conn.state = .kConnecting)
    let e ← (s.ends side).connectEstablished (opening message side) w
    return s.set side e
  | .handleRead side n w => do
    enabled ((s.ends side).Watches .POLLIN ∧ 0 < n ∧ n ≤ (s.arrived side).length)
    let e ← (s.ends side).handleRead ((s.arrived side).take n) w
    return (s.set side e).count side n
  | .handleClose side => do
    enabled ((s.ends side).Watches .POLLIN ∧ s.arrived side = [] ∧ s.Shut side.peer)
    let e ← (s.ends side).handleClose
    return s.set side e
  | .handleError side => do
    enabled ((s.ends side).Watches .POLLIN)
    return s
  | .handleWrite side w => do
    enabled ((s.ends side).Watches .POLLOUT)
    let e ← (s.ends side).handleWrite w
    return s.set side e
  | .stop => return s.set .client (s.ends .client).shutdown
  | .shutdownInLoop => do
    enabled ((s.ends .client).shuttingDown = true)
    let e := s.ends .client
    return s.set .client { e with conn := e.conn.shutdownInLoop, shuttingDown := false }
  | .connectDestroyed side => do
    enabled ((s.ends side).closing = true)
    let e ← (s.ends side).connectDestroyed
    return s.set side { e with closing := false }

end PingPong

/-- The server and a session whose client has the block `message`, as a system. -/
def pingPong (message : List Byte) : System PingPong PingPong.Label PingPong.Fault where
  init s := (∃ self sockfd, s.ends .client = PingPong.End.new self sockfd) ∧
    (∃ self sockfd, s.ends .server = PingPong.End.new self sockfd) ∧ s.session = ⟨0, 0, 0⟩
  step := PingPong.step message

end Irono
