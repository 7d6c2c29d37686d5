import Irono.Example.Codec
import Irono.Lib.OrderedSet
import Irono.Net.TcpConnection
import Irono.Net.Threads

/-!
# `Example.ChatHighPerformance` — the chat server with local connections (`server_threaded_highperformance.cc`)

The whole server: the base loop with the acceptor and `connections_`, the pool of I/O loops, every
connection in its loop with the codec on its input, and the chat on top (`ThreadLocalSingleton.h`,
`EventLoopThreadPool.cc`, `EventLoopThread.cc`, `TcpServer.cc`). A message that a client sent is put into
every loop under the mutex, and each loop passes it to its own connections.

A thread's code is a list of `Stmt`s, each an atomic piece, cut where another thread can see a difference.
Connections are known by their numbers, which are in their names, and loops by their threads; a `std::set` of
pointers has them in the order of these. `history` is read by no step.
-/

namespace Irono

open Transition

/-- A connection, by the `nextConnId_` in its name. -/
abbrev ConnId := Nat

/-- The thread of the base loop and those of the pool's loops, in the order of `loops_`. -/
structure PoolThreads where
  base : ThreadId
  pool : List ThreadId
  nodup : (base :: pool).Nodup

/-- `EventLoopThreadPool::getNextLoop`: the loop, and the next `next_`. -/
def PoolThreads.getNextLoop (cfg : PoolThreads) (next : Nat) : ThreadId × Nat :=
  if cfg.pool.isEmpty then (cfg.base, next)
  else (cfg.pool.getD next cfg.base, if cfg.pool.length ≤ next + 1 then 0 else next + 1)

namespace HighPerformance

/-- `ThreadLocalSingleton<T>` in one thread. -/
structure ThreadLocal (T : Type) where
  /-- `t_value_` -/
  value : Option T
  /-- what `pthread_getspecific(pkey_)` gives is not null -/
  specific : Bool

/-- The pieces of code. -/
inductive Stmt where
  /-- in `EventLoopThreadPool::start`: `thread_.start()` -/
  | startThread (io : ThreadId)
  /-- in `EventLoopThread::startLoop`: wait for `loop_` -/
  | waitLoop (io : ThreadId)
  /-- `threadFunc` in its new thread -/
  | threadFunc
  /-- `threadInit` up to the mutex -/
  | threadInit
  /-- the rest of `threadInit` -/
  | insertLoop
  /-- in `threadFunc`: `loop_ = &loop` -/
  | setLoop
  /-- the `while` of `Acceptor::handleRead` -/
  | acceptLoop
  /-- in `newConnection`: `ioLoop->runInLoop(connectEstablished)` -/
  | runConnectEstablished (conn : ConnId)
  | setCloseCallback (conn : ConnId)
  | connectEstablished (conn : ConnId)
  | connectDestroyed (conn : ConnId)
  /-- the last line of `connectDestroyed` -/
  | removeChannel (conn : ConnId)
  | handleRead (conn : ConnId)
  | handleWrite (conn : ConnId)
  | handleClose (conn : ConnId)
  | handleError (conn : ConnId)
  | removeConnection (conn : ConnId)
  | removeConnectionInLoop (conn : ConnId)
  | onConnection (conn : ConnId)
  /-- the `while` of the codec's `onMessage` -/
  | onMessage (conn : ConnId)
  | onStringMessage (conn : ConnId) (message : List Byte)
  /-- the `for` of `onStringMessage`, with these loops to come -/
  | queueEach (loops : List ThreadId) (message : List Byte)
  | unlock
  | distributeMessage (message : List Byte)
  /-- `codec_.send` -/
  | send (conn : ConnId) (message : List Byte)
  | sendInLoop (conn : ConnId) (bytes : List Byte)
  | shutdown (conn : ConnId)
  | shutdownInLoop (conn : ConnId)
  deriving DecidableEq

/-- The channels: the acceptor's, and a connection's with its `revents_`. -/
inductive Handler where
  | acceptor
  | connection (conn : ConnId) (revents : Events)
  deriving DecidableEq

/-- A callback of a connection's channel. -/
def callbackStmt (conn : ConnId) : Channel.Callback → Stmt
  | .close => .handleClose conn
  | .error => .handleError conn
  | .read => .handleRead conn
  | .write => .handleWrite conn

/-- `handleEvent` of a channel. -/
def Handler.stmts : Handler → List Stmt
  | .acceptor => [.acceptLoop]
  | .connection conn revents => (Channel.callbacks revents).map (callbackStmt conn)

inductive Fault where
  | notInLoopThread
  /-- `nextConnId_` overflows -/
  | connId
  /-- `n == 1` in `removeConnectionInLoop` -/
  | eraseConnection
  /-- the asserts of `threadInit` and of `Deleter::set` -/
  | singleton
  | connection (f : TcpConnection.Fault)
  | buffer (f : Buffer.Fault)
  | loop (f : EventLoop.Fault)
  deriving DecidableEq, Repr

/-- `ThreadLocalSingleton<T>::instance`, for a `T` that is made as `t`. -/
def ThreadLocal.instance {T : Type} (l : ThreadLocal T) (t : T) : Result Fault (T × ThreadLocal T) :=
  match l.value with
  | some value => return (value, l)
  | none => do
    require (l.specific = false) .singleton
    return (t, ⟨some t, true⟩)

structure History where
  /-- the messages in the order in which `onStringMessage` got the mutex, with their connections -/
  order : List (ConnId × List Byte)
  /-- how many there were when a loop came into `loops_` -/
  joined : ThreadId → Nat
  /-- the messages whose `distributeMessage` a loop has begun -/
  distributed : ThreadId → List (List Byte)
  /-- how many of these there were when `onConnection` inserted a connection -/
  since : ConnId → Nat
  /-- the messages that `send` gave to a connected connection -/
  sent : ConnId → List (List Byte)
  /-- all that was read from a connection -/
  received : ConnId → List Byte

end HighPerformance

open HighPerformance in
/-- `class ChatServer` of this program, with its `server_` and the threads. -/
structure ChatServer where
  nextConnId : Nat
  /-- `connections_` -/
  connections : List ConnId
  /-- `next_` of the pool -/
  next : Nat
  /-- `thread_.start()` has been called -/
  started : ThreadId → Bool
  /-- `loop_` has been set -/
  loopSet : ThreadId → Bool
  ioLoop : ConnId → ThreadId
  conn : ConnId → TcpConnection
  /-- who holds `mutex_` -/
  mutex : Option ThreadId
  /-- `loops_` -/
  loops : OrderedSet ThreadId
  /-- `LocalConnections` -/
  locals : ThreadId → ThreadLocal (OrderedSet ConnId)
  threads : Threads Handler Stmt
  history : History

namespace HighPerformance

open ChatServer

/-- What the main thread has to do in `start()`. -/
def startStmts (cfg : PoolThreads) : List Stmt :=
  if cfg.pool.isEmpty then [.threadInit]
  else cfg.pool.flatMap fun io => [.startThread io, .waitLoop io]

/-- The server is constructed, and the main thread calls `start()`. -/
def start (cfg : PoolThreads) : ChatServer :=
  { nextConnId := 1, connections := [], next := 0, started := fun _ => false, loopSet := fun _ => false
    ioLoop := fun _ => (cfg.getNextLoop 0).1, conn := fun _ => TcpConnection.new 0 0
    mutex := none, loops := OrderedSet.empty, locals := fun _ => ⟨none, false⟩
    threads :=
      { loops := fun _ => EventLoop.new
        frames := fun t =>
          if t = cfg.base then startStmts cfg
          else if t ∈ cfg.pool then [.threadFunc, .threadInit, .setLoop] else [] }
    history := ⟨[], fun _ => 0, fun _ => [], fun _ => 0, fun _ => [], fun _ => []⟩ }

/-! ## The members -/

def push (s : ChatServer) (t : ThreadId) (stmts : List Stmt) : ChatServer :=
  { s with threads := s.threads.push t stmts }

def setConn (s : ChatServer) (conn : ConnId) (c : TcpConnection) : ChatServer :=
  { s with conn := Function.update s.conn conn c }

/-- `TcpConnection::sendInLoop` in thread `t`; there is no `writeCompleteCallback_`. -/
def sendInLoop (s : ChatServer) (t : ThreadId) (conn : ConnId) (bytes : List Byte) (w : Option Nat) :
    Result Fault ChatServer := do
  require (t = s.ioLoop conn) .notInLoopThread
  let (c, _) ← ((s.conn conn).sendInLoop bytes w).mapFault .connection
  return setConn s conn c

/-- `TcpConnection::shutdownInLoop` in thread `t`. -/
def shutdownInLoop (s : ChatServer) (t : ThreadId) (conn : ConnId) : Result Fault ChatServer := do
  require (t = s.ioLoop conn) .notInLoopThread
  return setConn s conn (s.conn conn).shutdownInLoop

/-- `threadInit` up to the mutex. -/
def threadInit (s : ChatServer) (t : ThreadId) : Result Fault ChatServer := do
  require ((s.locals t).value.isNone) .singleton
  let (_, l) ← (s.locals t).instance OrderedSet.empty
  require l.value.isSome .singleton
  return push { s with locals := Function.update s.locals t l } t [.insertLoop]

/-- The rest of `threadInit`: one loop more gets the messages from now on. -/
def insertLoop (s : ChatServer) (t : ThreadId) : ChatServer :=
  { s with
    loops := s.loops.insert t
    history := { s.history with
      joined := if t ∈ s.loops then s.history.joined
        else Function.update s.history.joined t s.history.order.length } }

/-- `onConnection` in thread `t`. -/
def onConnection (s : ChatServer) (t : ThreadId) (conn : ConnId) : Result Fault ChatServer := do
  let (connections, l) ← (s.locals t).instance OrderedSet.empty
  let up := (s.conn conn).connected
  return { s with
    locals := Function.update s.locals t
      { l with value := some (if up then connections.insert conn else connections.erase conn) }
    history := if up ∧ conn ∉ connections then { s.history with
        since := Function.update s.history.since conn (s.history.distributed t).length }
      else s.history }

/-- What the codec calls when it leaves its loop. -/
def eventStmts (conn : ConnId) : LengthHeaderCodec.Event → List Stmt
  | .message message => [.onStringMessage conn message]
  | .invalidLength _ => []
  | .shutdown => [.shutdown conn]

/-- A turn of the codec's loop in thread `t`. -/
def onMessage (s : ChatServer) (t : ThreadId) (conn : ConnId) : Result Fault ChatServer := do
  let turn ← (LengthHeaderCodec.turn (s.conn conn).inputBuffer).mapFault .buffer
  match turn with
  | .again buf message =>
    return push (setConn s conn { s.conn conn with inputBuffer := buf }) t
      [.onStringMessage conn message, .onMessage conn]
  | .leave events => return push s t (events.flatMap (eventStmts conn))

/-- `onStringMessage` up to the `for`, with the mutex free. -/
def onStringMessage (s : ChatServer) (t : ThreadId) (conn : ConnId) (message : List Byte) : ChatServer :=
  push { s with
    mutex := some t
    history := { s.history with order := s.history.order ++ [(conn, message)] } } t
      [.queueEach s.loops.elems message, .unlock]

/-- `distributeMessage` in thread `t`. -/
def distributeMessage (s : ChatServer) (t : ThreadId) (message : List Byte) : Result Fault ChatServer := do
  let (connections, l) ← (s.locals t).instance OrderedSet.empty
  return push { s with
    locals := Function.update s.locals t l
    history := { s.history with
      distributed := Function.update s.history.distributed t (s.history.distributed t ++ [message]) } } t
      (connections.elems.map fun conn => .send conn message)

/-- `codec_.send` in thread `t`: only the connection's own loop changes its state. -/
def send (s : ChatServer) (t : ThreadId) (conn : ConnId) (message : List Byte) (w : Option Nat) :
    Result Fault ChatServer := do
  let out ← (LengthHeaderCodec.send (s.conn conn).connected message).mapFault .buffer
  match out with
  | none => return s
  | some bytes =>
    let s := { s with history := { s.history with
      sent := Function.update s.history.sent conn (s.history.sent conn ++ [message]) } }
    if t = s.ioLoop conn then sendInLoop s t conn bytes w
    else return { s with threads := s.threads.queueInLoop t (s.ioLoop conn) (.sendInLoop conn bytes) }

/-- `TcpConnection::handleRead` in thread `t`. -/
def handleRead (s : ChatServer) (t : ThreadId) (conn : ConnId) (r : Option (List Byte)) :
    Result Fault ChatServer := do
  let c ← ((s.conn conn).readInput r).mapFault .connection
  let s := setConn s conn c
  match r with
  | some (b :: bytes) =>
    return push { s with history := { s.history with
      received := Function.update s.history.received conn (s.history.received conn ++ b :: bytes) } } t
        [.onMessage conn]
  | some [] => return push s t [.handleClose conn]
  | none => return push s t [.handleError conn]

/-- `TcpConnection::handleWrite` in thread `t`. -/
def handleWrite (s : ChatServer) (t : ThreadId) (conn : ConnId) (w : Option Nat) : Result Fault ChatServer := do
  require (t = s.ioLoop conn) .notInLoopThread
  let (c, drained) ← ((s.conn conn).handleWrite w).mapFault .connection
  let s := setConn s conn c
  if drained ∧ c.state = .kDisconnecting then shutdownInLoop s t conn else return s

/-- A statement of thread `t`, with the results of the `::write` and the `readv` it may make. -/
def run (cfg : PoolThreads) (s : ChatServer) (t : ThreadId) (w : Option Nat) (r : Option (List Byte)) :
    Stmt → Result Fault ChatServer
  | .startThread io => return { s with started := Function.update s.started io true }
  | .waitLoop io => do
    enabled (s.loopSet io = true)
    return s
  | .threadFunc => do
    enabled (s.started t = true)
    return s
  | .threadInit => threadInit s t
  | .insertLoop => do
    enabled (s.mutex = none)
    return insertLoop s t
  | .setLoop => return { s with loopSet := Function.update s.loopSet t true }
  | .acceptLoop => throw .blocked
  | .runConnectEstablished conn =>
    return { s with threads := s.threads.runInLoop t (s.ioLoop conn) (.connectEstablished conn) }
  | .setCloseCallback conn => return setConn s conn { s.conn conn with closeCallback := true }
  | .connectEstablished conn => do
    require (t = s.ioLoop conn) .notInLoopThread
    let c ← (s.conn conn).connectEstablished.mapFault .connection
    return push (setConn s conn c) t [.onConnection conn]
  | .connectDestroyed conn => do
    require (t = s.ioLoop conn) .notInLoopThread
    let c ← (s.conn conn).connectDestroyed.mapFault .connection
    return push (setConn s conn c) t [.onConnection conn, .removeChannel conn]
  | .removeChannel conn => do
    require (t = s.ioLoop conn) .notInLoopThread
    let c ← (s.conn conn).removeChannel.mapFault .connection
    return setConn s conn c
  | .handleRead conn => handleRead s t conn r
  | .handleWrite conn => handleWrite s t conn w
  | .handleClose conn => do
    require (t = s.ioLoop conn) .notInLoopThread
    let c ← (s.conn conn).handleClose.mapFault .connection
    return push (setConn s conn c) t [.removeConnection conn]
  | .handleError _ => return s
  | .removeConnection conn =>
    return { s with threads := s.threads.runInLoop t cfg.base (.removeConnectionInLoop conn) }
  | .removeConnectionInLoop conn => do
    require (t = cfg.base) .notInLoopThread
    require (conn ∈ s.connections) .eraseConnection
    return { s with
      connections := s.connections.erase conn
      threads := s.threads.queueInLoop t (s.ioLoop conn) (.connectDestroyed conn) }
  | .onConnection conn => onConnection s t conn
  | .onMessage conn => onMessage s t conn
  | .onStringMessage conn message => do
    enabled (s.mutex = none)
    return onStringMessage s t conn message
  | .queueEach [] _ => return s
  | .queueEach (l :: loops) message =>
    return push { s with threads := s.threads.queueInLoop t l (.distributeMessage message) } t
      [.queueEach loops message]
  | .unlock => return { s with mutex := none }
  | .distributeMessage message => distributeMessage s t message
  | .send conn message => send s t conn message w
  | .sendInLoop conn bytes => sendInLoop s t conn bytes w
  | .shutdown conn =>
    if (s.conn conn).connected then
      let s := setConn s conn { s.conn conn with state := .kDisconnecting }
      if t = s.ioLoop conn then shutdownInLoop s t conn
      else return { s with threads := s.threads.queueInLoop t (s.ioLoop conn) (.shutdownInLoop conn) }
    else return s
  | .shutdownInLoop conn => shutdownInLoop s t conn

/-! ## The steps -/

/-- `epoll_wait` of thread `t` can report this: a connection only in its own loop and while it is watched,
    `EPOLLIN` and `EPOLLOUT` only if registered. -/
def Reportable (cfg : PoolThreads) (s : ChatServer) (t : ThreadId) : Active Handler → Prop
  | .wakeupChannel => True
  | .channel .acceptor => t = cfg.base
  | .channel (.connection conn revents) => t = s.ioLoop conn ∧ conn < s.nextConnId ∧
      ∃ events ∈ (s.conn conn).watched,
        (.POLLIN ∈ revents → .POLLIN ∈ events) ∧ (.POLLOUT ∈ revents → .POLLOUT ∈ events)

instance (cfg : PoolThreads) (s : ChatServer) (t : ThreadId) : (a : Active Handler) →
    Decidable (Reportable cfg s t a)
  | .wakeupChannel => isTrue trivial
  | .channel .acceptor => inferInstanceAs (Decidable (t = cfg.base))
  | .channel (.connection _ _) => inferInstanceAs (Decidable (_ ∧ _ ∧ ∃ events ∈ (s.conn _).watched, _))

/-- The connection of a channel. -/
def connOf : Active Handler → Option ConnId
  | .channel (.connection conn _) => some conn
  | _ => none

/-- What one `epoll_wait` of thread `t` can report; a descriptor is in the result once at most. -/
def Pollable (cfg : PoolThreads) (s : ChatServer) (t : ThreadId) : EventLoop.Move Handler → Prop
  | .poll active => (∀ a ∈ active, Reportable cfg s t a) ∧ (active.filterMap connOf).Nodup
  | _ => True

instance (cfg : PoolThreads) (s : ChatServer) (t : ThreadId) : (mv : EventLoop.Move Handler) →
    Decidable (Pollable cfg s t mv)
  | .poll _ => inferInstanceAs (Decidable (_ ∧ _))
  | .enter => isTrue trivial
  | .next => isTrue trivial

/-- The steps: the loops' own code, the next statement of a thread, a connection accepted as `sockfd` with
    its channel at `self`, and the end of the accept loop. -/
inductive Label where
  | loop (t : ThreadId) (mv : EventLoop.Move Handler)
  | exec (t : ThreadId) (w : Option Nat) (r : Option (List Byte))
  | newConnection (self : Addr) (sockfd : Int)
  | acceptEnd

/-- `TcpServer::newConnection` up to `runInLoop`. -/
def newConnection (cfg : PoolThreads) (s : ChatServer) (self : Addr) (sockfd : Int) : Result Fault ChatServer := do
  require (s.nextConnId + 1 < 2 ^ 31) .connId
  let conn := s.nextConnId
  let (io, next) := cfg.getNextLoop s.next
  return push { s with
    nextConnId := conn + 1
    next := next
    connections := conn :: s.connections
    ioLoop := Function.update s.ioLoop conn io
    conn := Function.update s.conn conn (TcpConnection.new self sockfd)
    -- the records of a connection begin with it
    history := { s.history with
      since := Function.update s.history.since conn 0
      sent := Function.update s.history.sent conn []
      received := Function.update s.history.received conn [] } } cfg.base
      [.runConnectEstablished conn, .setCloseCallback conn]

def step (cfg : PoolThreads) (s : ChatServer) : Label → Result Fault ChatServer
  | .loop t mv => do
    enabled ((t = cfg.base ∨ t ∈ cfg.pool) ∧ Pollable cfg s t mv)
    let threads ← (s.threads.advance Handler.stmts t mv).mapFault .loop
    return { s with threads := threads }
  | .exec t w r =>
    match s.threads.pop t with
    | some (stmt, threads) => run cfg { s with threads := threads } t w r stmt
    | none => throw .blocked
  | .newConnection self sockfd => do
    enabled ((s.threads.frames cfg.base).head? = some .acceptLoop)
    newConnection cfg s self sockfd
  | .acceptEnd =>
    match s.threads.pop cfg.base with
    | some (.acceptLoop, threads) => return { s with threads := threads }
    | _ => throw .blocked

end HighPerformance

/-- The chat server, as a system. -/
def chatServer (cfg : PoolThreads) : System ChatServer HighPerformance.Label HighPerformance.Fault :=
  ⟨fun s => s = HighPerformance.start cfg, HighPerformance.step cfg⟩

end Irono
