import Irono.Net.TcpConnection
import Irono.Net.Threads

/-!
# `Net.TcpServer` — a connection between its I/O loop, the base loop and its users (`TcpServer.cc`)

One connection from `newConnection` on: the base loop creates it and takes it out of `connections_`, its
I/O loop does the work, and any thread may call `send` and `shutdown`. With no I/O threads the two loops
are one. The other connections of the server do not touch it.

A thread's code is a list of `Stmt`s, each an atomic piece: a function is cut where it calls the user and
where another thread can see it between two of its accesses (the test of `state_` and what follows it in
`send` and `shutdown`, the two halves of `handleWrite`). The object is taken to stay alive. The user has
no pointer to the connection before the first `connectionCallback_`. `History` is read by no step.
-/

namespace Irono

open Transition

/-- The threads of the base loop and of the connection's I/O loop. -/
structure LoopThreads where
  base : ThreadId
  io : ThreadId

namespace TcpServer

/-- A message given to `send`, with its number among all calls. -/
structure Message where
  sender : ThreadId
  serial : Nat
  bytes : List Byte
  deriving DecidableEq, Repr

/-- The pieces of code. -/
inductive Stmt where
  /-- user code -/
  | user
  /-- the `while` of `Acceptor::handleRead` -/
  | acceptLoop
  /-- in `newConnection`: `ioLoop->runInLoop(connectEstablished)` -/
  | runConnectEstablished
  | setCloseCallback
  | connectEstablished
  | connectDestroyed
  /-- the last line of `connectDestroyed` -/
  | removeChannel
  | handleClose
  | handleError
  | handleRead (revents : Events)
  | handleWrite
  /-- the end of `handleWrite` after the buffer was drained -/
  | drained
  | removeConnection
  | removeConnectionInLoop
  /-- `send` after its test of `state_` -/
  | send (message : Message)
  | sendInLoop (message : Message)
  /-- `shutdown` after its test of `state_` -/
  | setDisconnecting
  /-- in `shutdown`: `runInLoop(shutdownInLoop)` -/
  | runShutdownInLoop
  | shutdownInLoop
  deriving DecidableEq

/-- The channels: the acceptor's, the connection's with its `revents_`, and those of the user. -/
inductive Handler where
  | acceptor
  | connection (revents : Events)
  | user
  deriving DecidableEq

/-- A callback of the connection's channel. -/
def callbackStmt (revents : Events) : Channel.Callback → Stmt
  | .close => .handleClose
  | .error => .handleError
  | .read => .handleRead revents
  | .write => .handleWrite

/-- `handleEvent` of a channel. -/
def Handler.stmts : Handler → List Stmt
  | .acceptor => [.acceptLoop]
  | .connection revents => (Channel.callbacks revents).map (callbackStmt revents)
  | .user => [.user]

/-- What the user sees: `connectionCallback_` with `connected()`, and `messageCallback_`. -/
inductive UserCallback where
  | connection (connected : Bool)
  | message
  deriving DecidableEq, Repr

/-- The moment of the first `shutdownWrite`. -/
structure ShutdownMark where
  ran : List Message
  accepted : List Byte
  closed : Bool
  deriving DecidableEq, Repr

structure History where
  /-- the number of the next message -/
  nextSerial : Nat
  callbacks : List UserCallback
  /-- how often `closeCallback_` was invoked -/
  closeCalls : Nat
  /-- how often `connectDestroyed` got past its assert -/
  destroyCalls : Nat
  /-- the messages whose `send` saw `kConnected`, in that order -/
  sends : List Message
  /-- the messages whose `sendInLoop` has run, in that order -/
  ran : List Message
  /-- the messages whose `send` has returned -/
  returned : List Message
  /-- the messages whose `send` had returned when `shutdown` was first called -/
  beforeShutdown : Option (List Message)
  atShutdownWrite : Option ShutdownMark

inductive Fault where
  | notInLoopThread
  /-- `n == 1` in `removeConnectionInLoop` -/
  | eraseConnection
  | connection (f : TcpConnection.Fault)
  | loop (f : EventLoop.Fault)
  /-- the user's `retrieve` of more than there is -/
  | retrieve (f : Buffer.Fault)
  deriving DecidableEq, Repr

end TcpServer

/-- The server as the connection meets it. -/
structure TcpServer where
  conn : TcpConnection
  /-- `newConnection` has made the connection -/
  created : Bool
  /-- `connections_` holds it -/
  inConnections : Bool
  threads : Threads TcpServer.Handler TcpServer.Stmt
  history : TcpServer.History

namespace TcpServer

def start (self : Addr) (sockfd : Int) : TcpServer :=
  { conn := TcpConnection.new self sockfd, created := false, inConnections := false
    threads := Threads.start
    history :=
      { nextSerial := 0, callbacks := [], closeCalls := 0, destroyCalls := 0, sends := [], ran := []
        returned := [], beforeShutdown := none, atShutdownWrite := none } }

/-! ## The members -/

/-- `sendInLoop` in thread `t`. -/
def sendInLoop (cfg : LoopThreads) (s : TcpServer) (t : ThreadId) (message : Message)
    (w : Option Nat) : Result Fault TcpServer := do
  require (t = cfg.io) .notInLoopThread
  let (conn, writeComplete) ← (s.conn.sendInLoop message.bytes w).mapFault .connection
  return { s with
    conn := conn
    threads := if writeComplete then s.threads.queueInLoop t cfg.io .user else s.threads
    history := { s.history with ran := s.history.ran ++ [message] } }

/-- `shutdownInLoop` in thread `t`. -/
def shutdownInLoop (cfg : LoopThreads) (s : TcpServer) (t : ThreadId) : Result Fault TcpServer := do
  require (t = cfg.io) .notInLoopThread
  let mark : ShutdownMark := ⟨s.history.ran, s.conn.socket.accepted, decide (0 < s.history.closeCalls)⟩
  return { s with
    conn := s.conn.shutdownInLoop
    history := { s.history with
      atShutdownWrite :=
        if s.conn.channel.isWriting then s.history.atShutdownWrite
        else s.history.atShutdownWrite.or (some mark) } }

/-- A statement of thread `t`, with the results of the `::write` and the `readv` it may make. -/
def run (cfg : LoopThreads) (s : TcpServer) (t : ThreadId) (w : Option Nat) (r : Option (List Byte)) :
    Stmt → Result Fault TcpServer
  | .user => throw .blocked
  | .acceptLoop => throw .blocked
  | .runConnectEstablished => return { s with threads := s.threads.runInLoop t cfg.io .connectEstablished }
  | .setCloseCallback => return { s with conn := { s.conn with closeCallback := true } }
  | .connectEstablished => do
    require (t = cfg.io) .notInLoopThread
    let conn ← s.conn.connectEstablished.mapFault .connection
    return { s with
      conn := conn
      threads := s.threads.push t [.user]
      history := { s.history with callbacks := s.history.callbacks ++ [.connection conn.connected] } }
  | .connectDestroyed => do
    require (t = cfg.io) .notInLoopThread
    let conn ← s.conn.connectDestroyed.mapFault .connection
    return { s with
      conn := conn
      threads := s.threads.push t [.user, .removeChannel]
      history := { s.history with
        callbacks := s.history.callbacks ++ [.connection conn.connected]
        destroyCalls := s.history.destroyCalls + 1 } }
  | .removeChannel => do
    require (t = cfg.io) .notInLoopThread
    let conn ← s.conn.removeChannel.mapFault .connection
    return { s with conn := conn }
  | .handleClose => do
    require (t = cfg.io) .notInLoopThread
    let conn ← s.conn.handleClose.mapFault .connection
    return { s with
      conn := conn
      threads := s.threads.push t [.removeConnection]
      history := { s.history with closeCalls := s.history.closeCalls + 1 } }
  | .handleError => return s
  | .handleRead _ => do
    let conn ← (s.conn.readInput r).mapFault .connection
    let s := { s with conn := conn }
    match r with
    | some (_ :: _) =>
      return { s with
        threads := s.threads.push t [.user]
        history := { s.history with callbacks := s.history.callbacks ++ [.message] } }
    | some [] => return { s with threads := s.threads.push t [.handleClose] }
    | none => return { s with threads := s.threads.push t [.handleError] }
  | .handleWrite => do
    require (t = cfg.io) .notInLoopThread
    let (conn, drained) ← (s.conn.handleWrite w).mapFault .connection
    let s := { s with conn := conn }
    if drained then
      let threads := if conn.writeCompleteCallback then s.threads.queueInLoop t cfg.io .user else s.threads
      return { s with threads := threads.push t [.drained] }
    else return s
  | .drained => if s.conn.state = .kDisconnecting then s.shutdownInLoop cfg t else return s
  | .removeConnection => return { s with threads := s.threads.runInLoop t cfg.base .removeConnectionInLoop }
  | .removeConnectionInLoop => do
    require (t = cfg.base) .notInLoopThread
    require (s.inConnections = true) .eraseConnection
    return { s with
      inConnections := false
      threads := s.threads.queueInLoop t cfg.io .connectDestroyed }
  | .send message => do
    let s ← (if t = cfg.io then s.sendInLoop cfg t message w
      else .ok { s with threads := s.threads.queueInLoop t cfg.io (.sendInLoop message) } :
        Result Fault TcpServer)
    return { s with history := { s.history with returned := s.history.returned ++ [message] } }
  | .sendInLoop message => s.sendInLoop cfg t message w
  | .setDisconnecting => return { s with
      conn := { s.conn with state := .kDisconnecting }
      threads := s.threads.push t [.runShutdownInLoop] }
  | .runShutdownInLoop =>
    if t = cfg.io then s.shutdownInLoop cfg t
    else return { s with threads := s.threads.queueInLoop t cfg.io .shutdownInLoop }
  | .shutdownInLoop => s.shutdownInLoop cfg t

/-! ## The steps -/

/-- User code runs in thread `t`: a callback, or a thread that is in none of the two loops. -/
def userCode (cfg : LoopThreads) (s : TcpServer) (t : ThreadId) : Bool :=
  match s.threads.frames t with
  | .user :: _ => true
  | [] => (t != cfg.base && t != cfg.io) || (s.threads.loops t).pc == .outside ||
      (s.threads.loops t).pc == .unwinding
  | _ => false

/-- `epoll_wait` of thread `t` can report this: the connection only in its own loop and while it is
    watched, `EPOLLIN` and `EPOLLOUT` only if registered. -/
def Reportable (cfg : LoopThreads) (s : TcpServer) (t : ThreadId) : Active Handler → Prop
  | .channel .acceptor => t = cfg.base
  | .channel (.connection revents) => t = cfg.io ∧ ∃ events ∈ s.conn.watched,
      (.POLLIN ∈ revents → .POLLIN ∈ events) ∧ (.POLLOUT ∈ revents → .POLLOUT ∈ events)
  | _ => True

instance (cfg : LoopThreads) (s : TcpServer) (t : ThreadId) : (a : Active Handler) →
    Decidable (s.Reportable cfg t a)
  | .channel .acceptor => inferInstanceAs (Decidable (t = cfg.base))
  | .channel (.connection _) => inferInstanceAs (Decidable (_ ∧ ∃ events ∈ s.conn.watched, _))
  | .channel .user => isTrue trivial
  | .wakeupChannel => isTrue trivial

/-- The connection's channel. -/
def isConnection : Active Handler → Bool
  | .channel (.connection _) => true
  | _ => false

/-- What one `epoll_wait` of thread `t` can report; a descriptor is in the result once at most. -/
def Pollable (cfg : LoopThreads) (s : TcpServer) (t : ThreadId) : EventLoop.Move Handler → Prop
  | .poll active => (∀ a ∈ active, s.Reportable cfg t a) ∧ active.countP isConnection ≤ 1
  | _ => True

instance (cfg : LoopThreads) (s : TcpServer) (t : ThreadId) : (mv : EventLoop.Move Handler) →
    Decidable (s.Pollable cfg t mv)
  | .poll _ => inferInstanceAs (Decidable (_ ∧ _))
  | .enter => isTrue trivial
  | .next => isTrue trivial

/-- The steps: the loops' own code, the next statement of a thread, the return of user code and of the
    accept loop, a connection accepted, and what user code calls. -/
inductive Label where
  | loop (t : ThreadId) (mv : EventLoop.Move Handler)
  | exec (t : ThreadId) (w : Option Nat) (r : Option (List Byte))
  | ret (t : ThreadId)
  | newConnection (writeCompleteCallback : Bool)
  | send (t : ThreadId) (bytes : List Byte)
  | shutdown (t : ThreadId)
  | retrieve (len : Nat)
  | queueInLoop (t owner : ThreadId)
  | quit (t owner : ThreadId)

def step (cfg : LoopThreads) (s : TcpServer) : Label → Result Fault TcpServer
  | .loop t mv => do
    enabled ((t = cfg.base ∨ t = cfg.io) ∧ s.Pollable cfg t mv)
    let threads ← (s.threads.advance Handler.stmts t mv).mapFault .loop
    return { s with threads := threads }
  | .exec t w r =>
    match s.threads.pop t with
    | some (stmt, threads) => { s with threads := threads }.run cfg t w r stmt
    | none => throw .blocked
  | .ret t =>
    match s.threads.pop t with
    | some (.user, threads) => return { s with threads := threads }
    | some (.acceptLoop, threads) => return { s with threads := threads }
    | _ => throw .blocked
  | .newConnection writeCompleteCallback => do
    enabled ((s.threads.frames cfg.base).head? = some .acceptLoop ∧ s.created = false)
    return { s with
      conn := { s.conn with writeCompleteCallback := writeCompleteCallback }
      created := true
      inConnections := true
      threads := s.threads.push cfg.base [.runConnectEstablished, .setCloseCallback] }
  | .send t bytes => do
    enabled (s.userCode cfg t = true ∧ s.history.callbacks ≠ [])
    if s.conn.connected then
      let message : Message := ⟨t, s.history.nextSerial, bytes⟩
      return { s with
        threads := s.threads.push t [.send message]
        history := { s.history with
          nextSerial := s.history.nextSerial + 1
          sends := s.history.sends ++ [message] } }
    else return s
  | .shutdown t => do
    enabled (s.userCode cfg t = true ∧ s.history.callbacks ≠ [])
    let s := { s with history := { s.history with
      beforeShutdown := s.history.beforeShutdown.or (some s.history.returned) } }
    if s.conn.connected then return { s with threads := s.threads.push t [.setDisconnecting] }
    else return s
  | .retrieve len => do
    enabled (s.userCode cfg cfg.io = true)
    let inputBuffer ← (s.conn.inputBuffer.retrieve len).mapFault .retrieve
    return { s with conn := { s.conn with inputBuffer := inputBuffer } }
  | .queueInLoop t owner => do
    enabled (s.userCode cfg t = true)
    return { s with threads := s.threads.queueInLoop t owner .user }
  | .quit t owner => do
    enabled (s.userCode cfg t = true)
    return { s with threads := s.threads.quit t owner }

end TcpServer

/-- The connection among the loops and the users, as a system. -/
def tcpServer (cfg : LoopThreads) : System TcpServer TcpServer.Label TcpServer.Fault :=
  ⟨fun s => ∃ self sockfd, s = TcpServer.start self sockfd, TcpServer.step cfg⟩

end Irono
