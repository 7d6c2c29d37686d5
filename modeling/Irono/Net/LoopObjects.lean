import Irono.Net.Connector
import Irono.Net.TcpConnection
import Irono.Net.Threads

/-!
# `Net.LoopObjects` — the servers, clients and connections of one loop (`TcpServer.cc`, `TcpClient.cc`)

Any number of `TcpServer`s without I/O threads and of `TcpClient`s, all made, used and deleted in the
thread `tid` of one loop, with the connections and connectors they make. Everything happens in that
thread, so a member is cut only where it calls the user, and where the loop comes between. Other threads
queue functors and let go of `TcpConnectionPtr`s.

Objects are numbered as they are made. A `TcpConnection` dies with the last `TcpConnectionPtr`, a
`Connector` with the last `ConnectorPtr`; the destructor is the next step then. Functors and callbacks
that are bound to a raw `this` hold nothing, and to run one when its object is dead is the fault
`dangling`. The channels of the loop itself and of the user have other descriptors and do not appear in
the poller here.
-/

namespace Irono

open Transition

namespace LoopObjects

/-- The number of an object. -/
abbrev Id := Nat

/-- An object that has a `Channel`. -/
inductive Owner where
  | connection (i : Id)
  | connector (k : Id)
  | server (sid : Id)
  deriving DecidableEq, Repr

/-- Who made a connection, and keeps a pointer to it in `connections_` or `connection_`. -/
inductive Creator where
  | server (sid : Id)
  | client (k : Id)
  deriving DecidableEq, Repr

/-- What `closeCallback_` is bound to; `other` is `other::removeConnection`. -/
inductive CloseCallback where
  | empty
  | server (sid : Id)
  | client (k : Id)
  | other
  deriving DecidableEq, Repr

/-- A timer and what its functor is bound to: a retry timer with a raw `this`, and the one of
    `~TcpClient` with a `ConnectorPtr`. -/
inductive Timer where
  | retry (k : Id) (timerId : Nat)
  | removeConnector (k : Id)
  deriving DecidableEq, Repr

/-- The pieces of code of the loop thread. -/
inductive Stmt where
  /-- user code that was given no connection -/
  | user
  /-- a callback of the user, with the connection as its argument -/
  | callback (i : Id)
  /-- the `while` of `Acceptor::handleRead` -/
  | acceptLoop (sid : Id)
  /-- the last line of `TcpServer::newConnection` -/
  | setCloseCallback (i sid : Id)
  | connectDestroyed (i : Id)
  /-- the last line of `connectDestroyed` -/
  | removeChannel (i : Id)
  | handleClose (i : Id)
  | handleError (i : Id)
  | handleRead (i : Id)
  | handleWrite (i : Id)
  /-- the end of `handleWrite` after the buffer was drained -/
  | drained (i : Id)
  /-- a call of `closeCallback_` -/
  | removeConnection (i : Id)
  | startInLoop (k : Id)
  /-- `Timer::run` of a retry timer, whose callback is `startInLoop` -/
  | timer (k : Id) (timerId : Nat)
  | resetChannel (k : Id)
  /-- `Connector::handleError` -/
  | connectorHandleError (k : Id)
  /-- `Connector::handleWrite` -/
  | connectorHandleWrite (k : Id)
  /-- `TimerQueue::handleRead` -/
  | handleTimers
  /-- `TimerQueue::reset`, which deletes the timers that have run -/
  | resetTimers (expired : List Timer)
  deriving DecidableEq

/-- The channels with their `revents_`. -/
inductive Handler where
  | acceptor (sid : Id)
  | connection (i : Id) (revents : Events)
  | connector (k : Id) (revents : Events)
  | timerfd
  | user
  deriving DecidableEq

/-- A callback of a connection's channel. -/
def connectionStmt (i : Id) : Channel.Callback → Stmt
  | .close => .handleClose i
  | .error => .handleError i
  | .read => .handleRead i
  | .write => .handleWrite i

/-- The callbacks that `connecting` sets. -/
def connectorStmt (k : Id) : Channel.Callback → Option Stmt
  | .error => some (.connectorHandleError k)
  | .write => some (.connectorHandleWrite k)
  | _ => none

/-- `handleEvent` of a channel. -/
def Handler.stmts : Handler → List Stmt
  | .acceptor sid => [.acceptLoop sid]
  | .connection i revents => (Channel.callbacks revents).map (connectionStmt i)
  | .connector k revents => (Channel.callbacks revents).filterMap (connectorStmt k)
  | .timerfd => [.handleTimers]
  | .user => [.user]

/-- The `TcpConnectionPtr` in a functor or in a variable of code that has begun. -/
def Stmt.pointer : Stmt → Option Id
  | .callback i => some i
  | .setCloseCallback i _ => some i
  | .connectDestroyed i => some i
  | .removeConnection i => some i
  | _ => none

/-- The `this` of a piece of code, and the connection of a call of `closeCallback_`. -/
def Stmt.this : Stmt → Option Owner
  | .setCloseCallback i _ => some (.connection i)
  | .connectDestroyed i => some (.connection i)
  | .removeChannel i => some (.connection i)
  | .handleClose i => some (.connection i)
  | .handleError i => some (.connection i)
  | .handleRead i => some (.connection i)
  | .handleWrite i => some (.connection i)
  | .drained i => some (.connection i)
  | .removeConnection i => some (.connection i)
  | .startInLoop k => some (.connector k)
  | .timer k _ => some (.connector k)
  | .resetChannel k => some (.connector k)
  | .connectorHandleError k => some (.connector k)
  | .connectorHandleWrite k => some (.connector k)
  | _ => none

/-- What the surroundings answer while a statement runs. -/
structure Answers where
  /-- `createNonblockingOrDie` -/
  sockfd : Int
  /-- `new Channel` -/
  channel : Addr
  connectErrno : Connector.Errno
  /-- `getSocketError` is not 0 -/
  soError : Bool
  isSelfConnect : Bool
  /-- what `getExpired` returns; a timer of the user is `none` -/
  expired : List (Option Timer)
  /-- `::write` -/
  w : Option Nat
  /-- `readv` -/
  r : Option (List Byte)
  /-- the user has set `writeCompleteCallback_` -/
  writeCompleteCallback : Bool

/-- A `TcpConnection`; the poller in `conn` is the loop's while a member runs. -/
structure Connection where
  conn : TcpConnection
  creator : Creator
  closeCallback : CloseCallback
  alive : Bool

/-- A `TcpServer` with its `Acceptor`. -/
structure Server where
  acceptChannel : Channel
  listenning : Bool
  connections : List Id
  alive : Bool

/-- A `TcpClient` but for its `connector_`. -/
structure Client where
  retry : Bool
  connect : Bool
  connection : Option Id
  alive : Bool

inductive Fault where
  /-- code of an object that is dead -/
  | dangling
  /-- `!channel_` in `~Connector` -/
  | channelNotReset
  /-- `n == 1` in `removeConnectionInLoop` -/
  | eraseConnection
  /-- `connection_ == conn` in `TcpClient::removeConnection` -/
  | otherConnection
  | connection (f : TcpConnection.Fault)
  | connector (f : Connector.Fault)
  | poller (f : EPoller.Fault)
  | loop (f : EventLoop.Fault)
  /-- the user's `retrieve` of more than there is -/
  | retrieve (f : Buffer.Fault)
  deriving DecidableEq, Repr

end LoopObjects

/-- A loop and the objects in its thread; client `k` has connector `k`. -/
structure LoopObjects where
  poller : EPoller
  connections : LoopObjects.Id → LoopObjects.Connection
  servers : LoopObjects.Id → LoopObjects.Server
  clients : LoopObjects.Id → LoopObjects.Client
  connectors : LoopObjects.Id → Connector
  /-- the connectors that have not been destroyed -/
  connectorAlive : LoopObjects.Id → Bool
  /-- the number of the next object -/
  nextId : LoopObjects.Id
  threads : Threads LoopObjects.Handler LoopObjects.Stmt
  /-- the functors of the batch that the loop has not left -/
  batch : List LoopObjects.Stmt
  timers : List LoopObjects.Timer
  /-- the number of the next timer -/
  nextTimer : Nat
  /-- the `TcpConnectionPtr`s of the users -/
  users : List LoopObjects.Id

namespace LoopObjects

def start : LoopObjects :=
  { poller := EPoller.new
    connections := fun _ => ⟨TcpConnection.new 0 0, .server 0, .empty, false⟩
    servers := fun _ => ⟨Channel.new 0 0, false, [], false⟩
    clients := fun _ => ⟨false, false, none, false⟩
    connectors := fun _ => Connector.new, connectorAlive := fun _ => false, nextId := 0
    threads := Threads.start, batch := [], timers := [], nextTimer := 0, users := [] }

/-! ## Objects and their channels -/

def alive (s : LoopObjects) : Owner → Bool
  | .connection i => (s.connections i).alive
  | .connector k => s.connectorAlive k
  | .server sid => (s.servers sid).alive

/-- The channel of a live object, as long as it has the descriptor: a connector that has given it away or
    closed it has only the rest of a channel, up to `resetChannel`. -/
def chan (s : LoopObjects) : Owner → Option Channel
  | .connection i => if (s.connections i).alive then some (s.connections i).conn.channel else none
  | .connector k =>
    if s.connectorAlive k ∧ (s.connectors k).state = .kConnecting then (s.connectors k).channel else none
  | .server sid => if (s.servers sid).alive then some (s.servers sid).acceptChannel else none

/-- All objects that have been made. -/
def owners (s : LoopObjects) : List Owner :=
  (List.range s.nextId).flatMap fun i => [.connection i, .connector i, .server i]

/-- No object has this descriptor. -/
def FreshSocket (s : LoopObjects) (sockfd : Int) : Prop := ∀ o ∈ s.owners, ∀ c ∈ s.chan o, c.fd ≠ sockfd

/-- No `Channel` is at this address. -/
def FreshChannel (s : LoopObjects) (self : Addr) : Prop :=
  (∀ o ∈ s.owners, ∀ c ∈ s.chan o, c.self ≠ self) ∧
    ∀ k < s.nextId, s.connectorAlive k = true → ∀ c ∈ (s.connectors k).channel, c.self ≠ self

instance (s : LoopObjects) (sockfd : Int) : Decidable (s.FreshSocket sockfd) :=
  inferInstanceAs (Decidable (∀ o ∈ s.owners, ∀ c ∈ s.chan o, c.fd ≠ sockfd))

instance (s : LoopObjects) (self : Addr) : Decidable (s.FreshChannel self) :=
  inferInstanceAs (Decidable (_ ∧ ∀ k < s.nextId, _ → ∀ c ∈ (s.connectors k).channel, c.self ≠ self))

/-- Connection `i` as its members see it. -/
def conn (s : LoopObjects) (i : Id) : TcpConnection := { (s.connections i).conn with poller := s.poller }

/-- What a member leaves of connection `i` and the poller. -/
def setConn (s : LoopObjects) (i : Id) (conn : TcpConnection) : LoopObjects :=
  { s with
    poller := conn.poller
    connections := Function.update s.connections i { s.connections i with conn := conn } }

def setCloseCallback (s : LoopObjects) (i : Id) (closeCallback : CloseCallback) : LoopObjects :=
  { s with connections := Function.update s.connections i { s.connections i with
      conn := { (s.connections i).conn with closeCallback := true }
      closeCallback := closeCallback } }

def setConnector (s : LoopObjects) (k : Id) (connector : Connector) : LoopObjects :=
  { s with connectors := Function.update s.connectors k connector }

def setClient (s : LoopObjects) (k : Id) (client : Client) : LoopObjects :=
  { s with clients := Function.update s.clients k client }

def setServer (s : LoopObjects) (sid : Id) (server : Server) : LoopObjects :=
  { s with servers := Function.update s.servers sid server }

/-- `sockets::close`; the kernel takes the descriptor off the interest list. -/
def close (s : LoopObjects) (sockfd : Int) : LoopObjects :=
  { s with poller := { s.poller with epoll := Function.update s.poller.epoll sockfd none } }

variable (tid : ThreadId)

/-! ## Pointers -/

/-- `connections_` of its server, or `connection_` of its client, points to connection `i`. -/
def held (s : LoopObjects) (i : Id) : Bool :=
  match (s.connections i).creator with
  | .server sid => (s.servers sid).connections.contains i
  | .client k => (s.clients k).connection == some i

/-- Some `TcpConnectionPtr` points to connection `i`. -/
def referenced (s : LoopObjects) (i : Id) : Bool :=
  s.held i || s.users.contains i ||
    (s.threads.frames tid ++ (s.threads.loops tid).pendingFunctors ++ s.batch).any fun x => x.pointer == some i

/-- The expired timers whose `reset` is to come. -/
def Stmt.timers : Stmt → List Timer
  | .resetTimers expired => expired
  | _ => []

/-- Some `ConnectorPtr` points to connector `k`. -/
def connectorHeld (s : LoopObjects) (k : Id) : Bool :=
  (s.clients k).alive || s.timers.contains (.removeConnector k) ||
    (s.threads.frames tid).any fun x => x.timers.contains (.removeConnector k)

/-- No destructor is due. -/
def Settled (s : LoopObjects) : Prop :=
  ∀ i < s.nextId, ((s.connections i).alive = true → s.referenced tid i = true) ∧
    (s.connectorAlive i = true → s.connectorHeld tid i = true)

instance (s : LoopObjects) : Decidable (s.Settled tid) :=
  inferInstanceAs (Decidable (∀ i < s.nextId, _ ∧ _))

/-! ## The members -/

def queueInLoop (s : LoopObjects) (stmt : Stmt) : LoopObjects :=
  { s with threads := s.threads.queueInLoop tid tid stmt }

def push (s : LoopObjects) (stmts : List Stmt) : LoopObjects := { s with threads := s.threads.push tid stmts }

/-- `TcpServer::newConnection` and `TcpClient::newConnection` from `new TcpConnection` to the call of
    `connectionCallback_`; `next` is what comes after it. -/
def newConnection (s : LoopObjects) (a : Answers) (sockfd : Int) (creator : Creator)
    (closeCallback : CloseCallback) (next : List Stmt) : Result Fault LoopObjects := do
  enabled (s.FreshChannel a.channel)
  let made : TcpConnection := { TcpConnection.new a.channel sockfd with
    poller := s.poller
    writeCompleteCallback := a.writeCompleteCallback
    closeCallback := decide (closeCallback ≠ .empty) }
  let conn ← made.connectEstablished.mapFault .connection
  let s := { s with
    poller := conn.poller
    connections := Function.update s.connections s.nextId ⟨conn, creator, closeCallback, true⟩
    nextId := s.nextId + 1 }
  return s.push tid (.callback (s.nextId - 1) :: next)

/-- `TimerQueue::cancel`, in the loop thread. -/
def cancel (s : LoopObjects) (k : Id) : Option Nat → LoopObjects
  | some timerId => { s with timers := s.timers.erase (.retry k timerId) }
  | none => s

/-- `Connector::stop` -/
def stopConnector (s : LoopObjects) (k : Id) : LoopObjects :=
  (s.setConnector k { s.connectors k with connect := false }).cancel k (s.connectors k).timerId

/-- `Connector::retry` -/
def retry (s : LoopObjects) (k : Id) (sockfd : Int) : LoopObjects :=
  let s := (s.close sockfd).setConnector k { s.connectors k with state := .kDisconnected }
  if (s.connectors k).connect then
    { s.setConnector k ((s.connectors k).setTimer s.nextTimer) with
      timers := s.timers ++ [.retry k s.nextTimer]
      nextTimer := s.nextTimer + 1 }
  else s

/-- `Connector::connect` -/
def connect (s : LoopObjects) (k : Id) (a : Answers) : Result Fault LoopObjects := do
  enabled (s.FreshSocket a.sockfd ∧ s.FreshChannel a.channel)
  match a.connectErrno.action with
  | .connecting => do
    let (connector, poller) ←
      ((s.connectors k).connecting s.poller a.channel a.sockfd).mapFault .connector
    return { s.setConnector k connector with poller := poller }
  | .retry => return s.retry k a.sockfd
  | .close => return s.close a.sockfd

/-- `Connector::startInLoop` -/
def startInLoop (s : LoopObjects) (k : Id) (a : Answers) : Result Fault LoopObjects := do
  require ((s.connectors k).state = .kDisconnected) (.connector .startInLoop)
  if (s.connectors k).connect then s.connect k a else return s

/-- `Connector::removeAndResetChannel` -/
def removeAndResetChannel (s : LoopObjects) (k : Id) : Result Fault (LoopObjects × Int) := do
  let (connector, poller, sockfd) ← ((s.connectors k).removeAndResetChannel s.poller).mapFault .connector
  return ({ s.setConnector k connector with poller := poller }.queueInLoop tid (.resetChannel k), sockfd)

/-- `Connector::handleError` -/
def connectorHandleError (s : LoopObjects) (k : Id) : Result Fault LoopObjects := do
  require ((s.connectors k).state = .kConnecting) (.connector .handleError)
  let (s, sockfd) ← s.removeAndResetChannel tid k
  return s.retry k sockfd

/-- `Connector::handleWrite` -/
def connectorHandleWrite (s : LoopObjects) (k : Id) (a : Answers) : Result Fault LoopObjects :=
  if (s.connectors k).state = .kConnecting then do
    let (s, sockfd) ← s.removeAndResetChannel tid k
    if a.soError || a.isSelfConnect then return s.retry k sockfd
    else
      let s := s.setConnector k { s.connectors k with state := .kConnected }
      if (s.connectors k).connect then do
        require ((s.clients k).alive = true) .dangling
        let i := s.nextId
        let s ← s.newConnection tid a sockfd (.client k) (.client k) []
        return s.setClient k { s.clients k with connection := some i }
      else return s.close sockfd
  else do
    require ((s.connectors k).state = .kDisconnected) (.connector .handleWrite)
    return s

/-- A call of `closeCallback_`: `removeConnection` of the server, of the client, or of `other`. -/
def removeConnection (s : LoopObjects) (i : Id) : CloseCallback → Result Fault LoopObjects
  | .empty => throw (.fault (.connection .emptyCloseCallback))
  | .server sid => do
    require ((s.servers sid).alive = true) .dangling
    require (i ∈ (s.servers sid).connections) .eraseConnection
    let server := { s.servers sid with connections := (s.servers sid).connections.erase i }
    return (s.setServer sid server).queueInLoop tid (.connectDestroyed i)
  | .client k => do
    require ((s.clients k).alive = true) .dangling
    require ((s.clients k).connection = some i) .otherConnection
    let client := { s.clients k with connection := none }
    let s := (s.setClient k client).queueInLoop tid (.connectDestroyed i)
    if client.retry && client.connect then
      return (s.setConnector k (s.connectors k).restart).push tid [.startInLoop k]
    else return s
  | .other => return s.queueInLoop tid (.connectDestroyed i)

/-- The callback of an expired timer; that of `~TcpClient` is empty. -/
def expiredStmts : Option Timer → List Stmt
  | some (.retry k timerId) => [.timer k timerId]
  | some (.removeConnector _) => []
  | none => [.user]

/-- `connection->shutdown()` -/
def shutdown (s : LoopObjects) (i : Id) : LoopObjects :=
  if (s.conn i).connected then s.setConn i { s.conn i with state := .kDisconnecting }.shutdownInLoop else s

/-- `connection->send()` -/
def send (s : LoopObjects) (i : Id) (bytes : List Byte) (w : Option Nat) : Result Fault LoopObjects :=
  if (s.conn i).connected then do
    let (conn, writeComplete) ← ((s.conn i).sendInLoop bytes w).mapFault .connection
    let s := s.setConn i conn
    return if writeComplete then s.queueInLoop tid (.callback i) else s
  else return s

/-- A statement of the loop thread. -/
def run (s : LoopObjects) (a : Answers) (stmt : Stmt) : Result Fault LoopObjects := do
  require (∀ o ∈ stmt.this, s.alive o = true) .dangling
  match stmt with
  | .user => throw .blocked
  | .callback _ => throw .blocked
  | .acceptLoop _ => throw .blocked
  | .setCloseCallback i sid => return s.setCloseCallback i (.server sid)
  | .connectDestroyed i => do
    let conn ← (s.conn i).connectDestroyed.mapFault .connection
    return (s.setConn i conn).push tid [.callback i, .removeChannel i]
  | .removeChannel i => do
    let conn ← (s.conn i).removeChannel.mapFault .connection
    return s.setConn i conn
  | .handleClose i => do
    let conn ← (s.conn i).handleClose.mapFault .connection
    return (s.setConn i conn).push tid [.removeConnection i]
  | .handleError _ => return s
  | .handleRead i => do
    let conn ← ((s.conn i).readInput a.r).mapFault .connection
    let s := s.setConn i conn
    match a.r with
    | some (_ :: _) => return s.push tid [.callback i]
    | some [] => return s.push tid [.handleClose i]
    | none => return s.push tid [.handleError i]
  | .handleWrite i => do
    let (conn, drained) ← ((s.conn i).handleWrite a.w).mapFault .connection
    let s := s.setConn i conn
    if drained then
      let s := if conn.writeCompleteCallback then s.queueInLoop tid (.callback i) else s
      return s.push tid [.drained i]
    else return s
  | .drained i =>
    if (s.conn i).state = .kDisconnecting then return s.setConn i (s.conn i).shutdownInLoop else return s
  | .removeConnection i => s.removeConnection tid i (s.connections i).closeCallback
  | .startInLoop k => s.startInLoop k a
  | .timer k _ => s.startInLoop k a
  | .resetChannel k => return s.setConnector k (s.connectors k).resetChannel
  | .connectorHandleError k => s.connectorHandleError tid k
  | .connectorHandleWrite k => s.connectorHandleWrite tid k a
  | .handleTimers => do
    let expired := a.expired.filterMap id
    enabled (expired.Subperm s.timers)
    return { s with timers := s.timers.diff expired }.push tid
      (a.expired.flatMap expiredStmts ++ [Stmt.resetTimers expired])
  | .resetTimers _ => return s

/-! ## Constructors and destructors -/

/-- `new TcpServer` -/
def newServer (s : LoopObjects) (sockfd : Int) (self : Addr) : Result Fault LoopObjects := do
  enabled (s.FreshSocket sockfd ∧ s.FreshChannel self)
  return { s.setServer s.nextId ⟨Channel.new self sockfd, false, [], true⟩ with nextId := s.nextId + 1 }

/-- `TcpServer::start` -/
def startServer (s : LoopObjects) (sid : Id) : Result Fault LoopObjects :=
  if (s.servers sid).listenning then return s
  else do
    let (poller, channel) ← (s.poller.updateChannel (s.servers sid).acceptChannel.enableReading).mapFault .poller
    return { s.setServer sid { s.servers sid with listenning := true, acceptChannel := channel } with
      poller := poller }

/-- `~TcpServer`: its members go, and `acceptSocket_` is closed. -/
def deleteServer (s : LoopObjects) (sid : Id) : LoopObjects :=
  (s.setServer sid { s.servers sid with alive := false, connections := [] }).close
    (s.servers sid).acceptChannel.fd

/-- `new TcpClient` -/
def newClient (s : LoopObjects) : LoopObjects :=
  { (s.setClient s.nextId ⟨false, true, none, true⟩).setConnector s.nextId Connector.new with
    connectorAlive := Function.update s.connectorAlive s.nextId true
    nextId := s.nextId + 1 }

/-- `~TcpClient` -/
def deleteClient (s : LoopObjects) (k : Id) : LoopObjects :=
  let client := { s.clients k with alive := false, connection := none }
  match (s.clients k).connection with
  | some i => (s.setCloseCallback i .other).setClient k client
  | none =>
    let s := (s.stopConnector k).setClient k client
    { s with timers := s.timers ++ [.removeConnector k] }

/-- `~TcpConnection`: its `socket_` is closed. -/
def destroyConnection (s : LoopObjects) (i : Id) : LoopObjects :=
  { s with connections := Function.update s.connections i { s.connections i with alive := false } }.close
    (s.connections i).conn.channel.fd

/-- `~Connector` -/
def destroyConnector (s : LoopObjects) (k : Id) : Result Fault LoopObjects := do
  let s := s.cancel k (s.connectors k).timerId
  require ((s.connectors k).channel = none) .channelNotReset
  return { s with connectorAlive := Function.update s.connectorAlive k false }

/-! ## The steps -/

/-- User code runs in the loop thread. -/
def userCode (s : LoopObjects) : Bool :=
  match s.threads.frames tid with
  | .user :: _ => true
  | .callback _ :: _ => true
  | [] => (s.threads.loops tid).pc == .outside || (s.threads.loops tid).pc == .unwinding
  | _ => false

/-- The user can get at connection `i`: by a pointer of its own, the argument of its callback, or
    `TcpClient::connection()`. -/
def Has (s : LoopObjects) (i : Id) : Prop :=
  i ∈ s.users ∨ (s.threads.frames tid).head? = some (.callback i) ∨
    ∃ k < s.nextId, (s.clients k).alive = true ∧ (s.clients k).connection = some i

instance (s : LoopObjects) (i : Id) : Decidable (s.Has tid i) := inferInstanceAs (Decidable (_ ∨ _))

def Handler.owner : Handler → Option Owner
  | .acceptor sid => some (.server sid)
  | .connection i _ => some (.connection i)
  | .connector k _ => some (.connector k)
  | .timerfd => none
  | .user => none

/-- The `revents_` that matter. -/
def Handler.revents : Handler → Events
  | .connection _ revents => revents
  | .connector _ revents => revents
  | _ => ∅

/-- `epoll_wait` can report this: an object whose channel is in the interest list, with `EPOLLIN` and
    `EPOLLOUT` only if registered. -/
def Reportable (s : LoopObjects) : Active Handler → Prop
  | .channel h => ∀ o ∈ h.owner, ∃ c ∈ s.chan o, ∃ e ∈ s.poller.epoll c.fd, e.2 = c.self ∧
      (.POLLIN ∈ h.revents → .POLLIN ∈ e.1) ∧ (.POLLOUT ∈ h.revents → .POLLOUT ∈ e.1)
  | .wakeupChannel => True

instance (s : LoopObjects) : (a : Active Handler) → Decidable (s.Reportable a)
  | .channel h => inferInstanceAs (Decidable (∀ o ∈ h.owner, ∃ c ∈ s.chan o, ∃ e ∈ _, _))
  | .wakeupChannel => isTrue trivial

/-- The object of a channel. -/
def reported : Active Handler → Option Owner
  | .channel h => h.owner
  | .wakeupChannel => none

/-- What one `epoll_wait` can report; a descriptor is in the result once at most. -/
def Pollable (s : LoopObjects) : EventLoop.Move Handler → Prop
  | .poll active => (∀ a ∈ active, s.Reportable a) ∧ (active.filterMap reported).Nodup
  | _ => True

instance (s : LoopObjects) : (mv : EventLoop.Move Handler) → Decidable (s.Pollable mv)
  | .poll _ => inferInstanceAs (Decidable (_ ∧ _))
  | .enter => isTrue trivial
  | .next => isTrue trivial

/-- The steps: the loop's own code, the next statement, the return of user code and of an accept loop, a
    connection accepted, what the user calls, and the two destructors that pointers bring about. -/
inductive Label where
  | loop (mv : EventLoop.Move Handler)
  | exec (a : Answers)
  | ret
  | newConnection (a : Answers)
  | newServer (sockfd : Int) (self : Addr)
  | startServer (sid : Id)
  | deleteServer (sid : Id)
  | newClient
  | enableRetry (k : Id)
  | connect (k : Id)
  | disconnect (k : Id)
  | stop (k : Id)
  | deleteClient (k : Id)
  | send (i : Id) (bytes : List Byte) (w : Option Nat)
  | shutdown (i : Id)
  | retrieve (i : Id) (len : Nat)
  | copy (i : Id)
  | drop (i : Id)
  | queueInLoop (t : ThreadId)
  | quit (t : ThreadId)
  | destroyConnection (i : Id)
  | destroyConnector (k : Id)

/-- The batch after a piece of the loop's own code: the swap fills it, and it is destroyed at the end of
    `doPendingFunctors`. -/
def batchAfter (s : LoopObjects) : EventLoop.Move Handler → List Stmt
  | .next =>
    match (s.threads.loops tid).pc with
    | .dispatch [] => (s.threads.loops tid).pendingFunctors
    | .unwinding => []
    | _ => s.batch
  | _ => s.batch

/-- A step when no destructor is due. -/
def act (s : LoopObjects) : Label → Result Fault LoopObjects
  | .loop mv => do
    enabled (s.Pollable mv)
    let threads ← (s.threads.advance Handler.stmts tid mv).mapFault .loop
    return { s with threads := threads, batch := s.batchAfter tid mv }
  | .exec a =>
    match s.threads.pop tid with
    | some (stmt, threads) => { s with threads := threads }.run tid a stmt
    | none => throw .blocked
  | .ret =>
    match s.threads.pop tid with
    | some (.user, threads) => return { s with threads := threads }
    | some (.callback _, threads) => return { s with threads := threads }
    | some (.acceptLoop _, threads) => return { s with threads := threads }
    | _ => throw .blocked
  | .newConnection a =>
    match s.threads.frames tid with
    | .acceptLoop sid :: _ => do
      require ((s.servers sid).alive = true) .dangling
      enabled (s.FreshSocket a.sockfd)
      let i := s.nextId
      let s ← s.newConnection tid a a.sockfd (.server sid) .empty [.setCloseCallback i sid]
      return s.setServer sid { s.servers sid with connections := (s.servers sid).connections ++ [i] }
    | _ => throw .blocked
  | .newServer sockfd self => do
    enabled (s.userCode tid = true)
    s.newServer sockfd self
  | .startServer sid => do
    enabled (s.userCode tid = true ∧ (s.servers sid).alive = true)
    s.startServer sid
  | .deleteServer sid => do
    enabled (s.userCode tid = true ∧ (s.servers sid).alive = true)
    return s.deleteServer sid
  | .newClient => do
    enabled (s.userCode tid = true)
    return s.newClient
  | .enableRetry k => do
    enabled (s.userCode tid = true ∧ (s.clients k).alive = true)
    return s.setClient k { s.clients k with retry := true }
  | .connect k => do
    enabled (s.userCode tid = true ∧ (s.clients k).alive = true)
    return ((s.setClient k { s.clients k with connect := true }).setConnector k
      { s.connectors k with connect := true }).push tid [.startInLoop k]
  | .disconnect k => do
    enabled (s.userCode tid = true ∧ (s.clients k).alive = true)
    let s := s.setClient k { s.clients k with connect := false }
    match (s.clients k).connection with
    | some i => return s.shutdown i
    | none => return s
  | .stop k => do
    enabled (s.userCode tid = true ∧ (s.clients k).alive = true)
    return (s.setClient k { s.clients k with connect := false }).stopConnector k
  | .deleteClient k => do
    enabled (s.userCode tid = true ∧ (s.clients k).alive = true)
    return s.deleteClient k
  | .send i bytes w => do
    enabled (s.userCode tid = true ∧ s.Has tid i)
    s.send tid i bytes w
  | .shutdown i => do
    enabled (s.userCode tid = true ∧ s.Has tid i)
    return s.shutdown i
  | .retrieve i len => do
    enabled (s.userCode tid = true ∧ s.Has tid i)
    let inputBuffer ← ((s.conn i).inputBuffer.retrieve len).mapFault .retrieve
    return s.setConn i { s.conn i with inputBuffer := inputBuffer }
  | .copy i => do
    enabled (i ∈ s.users ∨ s.userCode tid = true ∧ s.Has tid i)
    return { s with users := i :: s.users }
  | .drop i => do
    enabled (i ∈ s.users)
    return { s with users := s.users.erase i }
  | .queueInLoop t => do
    enabled (t = tid → s.userCode tid = true)
    return { s with threads := s.threads.queueInLoop t tid .user }
  | .quit t => do
    enabled (t = tid → s.userCode tid = true)
    return { s with threads := s.threads.quit t tid }
  | .destroyConnection _ => throw .blocked
  | .destroyConnector _ => throw .blocked

def step (s : LoopObjects) : Label → Result Fault LoopObjects
  | .destroyConnection i => do
    enabled ((s.connections i).alive = true ∧ s.referenced tid i = false)
    return s.destroyConnection i
  | .destroyConnector k => do
    enabled (s.connectorAlive k = true ∧ s.connectorHeld tid k = false)
    s.destroyConnector k
  | l => do
    enabled (s.Settled tid)
    s.act tid l

end LoopObjects

/-- The loop and the objects in its thread, as a system. -/
def loopObjects (tid : ThreadId) : System LoopObjects LoopObjects.Label LoopObjects.Fault :=
  ⟨fun s => s = LoopObjects.start, LoopObjects.step tid⟩

end Irono
