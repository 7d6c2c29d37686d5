import Irono.Lib.Ledger
import Irono.Net.Connector
import Irono.Net.Threads

/-!
# `Net.TcpClient` — a connector between its loop, its timers and its users (`Connector.cc`, `TcpClient.cc`)

One client and the loop of thread `tid`. The loop thread's code is a list of `Stmt`s, each an atomic
piece: a member is cut where another thread can see it between two of its accesses (the reads of
`connect_` at the ends of `retry` and `handleWrite`, and the assignment of `timerId_`). `start` and `stop`
may be called by any thread; by another than the loop's they are two pieces, the store to `connect_` and
the rest.

The kernel's answers, the order of its events and what the user does are in the labels. Of the timer queue
there are the numbers of the retry timers, which may expire at any time. The connection that was made is
there only as a flag, until it closes; the other channels of the loop have other descriptors. The ledger
of the sockets and `History` are read by no step, but for the descriptors that are open.
-/

namespace Irono

open Transition

namespace TcpClient

inductive Call where
  | start
  | stop
  deriving DecidableEq, Repr

/-- The pieces of code of the loop thread. -/
inductive Stmt where
  /-- user code -/
  | user
  | startInLoop
  /-- `Timer::run` of a retry timer, whose callback is `startInLoop` -/
  | timer (id : Nat)
  /-- `TimerQueue::handleRead` -/
  | handleRead
  | cancelInLoop (timerId : Option Nat)
  | resetChannel
  | handleError
  | handleWrite
  /-- `handleWrite` after `setState(kConnected)` -/
  | finishWrite (sockfd : Int)
  /-- `retry` after `setState(kDisconnected)` -/
  | finishRetry
  /-- `timerId_ = loop_->runAfter(..)` and the line after it -/
  | setTimer
  /-- `handleEvent` of the connection's channel -/
  | connectionEvent
  deriving DecidableEq

/-- The channels: the connector's with its `revents_`, the timer queue's, the connection's, and those of
    the user. -/
inductive Handler where
  | connector (revents : Events)
  | timerfd
  | connection
  | user
  deriving DecidableEq

/-- The callbacks that `connecting` sets. -/
def callbackStmt : Channel.Callback → Option Stmt
  | .error => some .handleError
  | .write => some .handleWrite
  | _ => none

/-- `handleEvent` of a channel. -/
def Handler.stmts : Handler → List Stmt
  | .connector revents => (Channel.callbacks revents).filterMap callbackStmt
  | .timerfd => [.handleRead]
  | .connection => [.connectionEvent]
  | .user => [.user]

/-- What the surroundings answer while a statement runs. -/
structure Answers where
  /-- `createNonblockingOrDie` -/
  sockfd : Int
  /-- `new Channel` -/
  channel : Addr
  connectErrno : Connector.Errno
  /-- `getSocketError` is not 0 -/
  soError : Bool
  isSelfConnect : Bool
  /-- what `getExpired` returns: retry timers, and timers of the user -/
  expired : List (Option Nat)
  /-- the event makes the connection `handleClose` -/
  closes : Bool
  /-- `retry_ && connect_` in `removeConnection` -/
  again : Bool

inductive Fault where
  | connector (f : Connector.Fault)
  /-- `connection_ == conn` in `removeConnection` -/
  | otherConnection
  | loop (f : EventLoop.Fault)
  deriving DecidableEq, Repr

structure History where
  /-- the last call of `start` or `stop` -/
  lastCall : Option Call
  /-- how many timers there had been at the last `start` -/
  timersAtStart : Nat

end TcpClient

/-- The client and its surroundings. -/
structure TcpClient where
  connector : Connector
  /-- `connection_` is set -/
  connection : Bool
  poller : EPoller
  threads : Threads TcpClient.Handler TcpClient.Stmt
  /-- the calls that threads other than the loop's have begun -/
  calls : List (ThreadId × TcpClient.Call)
  /-- the retry timers in the timer queue -/
  timers : List Nat
  /-- the number of the next timer -/
  nextTimer : Nat
  sockets : Ledger Int
  history : TcpClient.History

namespace TcpClient

def start : TcpClient :=
  { connector := Connector.new, connection := false, poller := EPoller.new, threads := Threads.start
    calls := [], timers := [], nextTimer := 0, sockets := Ledger.new
    history := { lastCall := none, timersAtStart := 0 } }

variable (tid : ThreadId)

/-! ## The members -/

/-- `retry` up to its read of `connect_`. -/
def retry (s : TcpClient) (sockfd : Int) : TcpClient :=
  { s with
    sockets := s.sockets.close sockfd
    connector := { s.connector with state := .kDisconnected }
    threads := s.threads.push tid [.finishRetry] }

def connect (s : TcpClient) (a : Answers) : Result Fault TcpClient := do
  enabled (s.sockets.table a.sockfd = none)
  match a.connectErrno.action with
  | .connecting => do
    let (connector, poller) ←
      (s.connector.connecting s.poller a.channel a.sockfd).mapFault .connector
    return { s with connector := connector, poller := poller, sockets := s.sockets.create a.sockfd }
  | .retry => return { s with sockets := s.sockets.create a.sockfd }.retry tid a.sockfd
  | .close => return { s with sockets := (s.sockets.create a.sockfd).close a.sockfd }

def startInLoop (s : TcpClient) (a : Answers) : Result Fault TcpClient := do
  require (s.connector.state = .kDisconnected) (.connector .startInLoop)
  if s.connector.connect then s.connect tid a else return s

def removeAndResetChannel (s : TcpClient) : Result Fault (TcpClient × Int) := do
  let (connector, poller, sockfd) ← (s.connector.removeAndResetChannel s.poller).mapFault .connector
  return ({ s with
    connector := connector
    poller := poller
    threads := s.threads.queueInLoop tid tid .resetChannel }, sockfd)

def handleError (s : TcpClient) : Result Fault TcpClient := do
  require (s.connector.state = .kConnecting) (.connector .handleError)
  let (s, sockfd) ← s.removeAndResetChannel tid
  return s.retry tid sockfd

/-- `handleWrite` up to its read of `connect_`. -/
def handleWrite (s : TcpClient) (a : Answers) : Result Fault TcpClient :=
  if s.connector.state = .kConnecting then do
    let (s, sockfd) ← s.removeAndResetChannel tid
    if a.soError || a.isSelfConnect then return s.retry tid sockfd
    else return { s with
      connector := { s.connector with state := .kConnected }
      threads := s.threads.push tid [.finishWrite sockfd] }
  else do
    require (s.connector.state = .kDisconnected) (.connector .handleWrite)
    return s

/-- `cancelInLoop` of the timer queue. -/
def cancelInLoop (s : TcpClient) : Option Nat → TcpClient
  | some id => { s with timers := s.timers.erase id }
  | none => s

/-- The callback of an expired timer. -/
def expiredStmt : Option Nat → Stmt
  | some id => .timer id
  | none => .user

/-- A statement of the loop thread. -/
def run (s : TcpClient) (a : Answers) : Stmt → Result Fault TcpClient
  | .user => throw .blocked
  | .startInLoop => s.startInLoop tid a
  | .timer _ => s.startInLoop tid a
  | .handleRead => do
    enabled ((a.expired.filterMap id).Subperm s.timers)
    return { s with
      timers := s.timers.diff (a.expired.filterMap id)
      threads := s.threads.push tid (a.expired.map expiredStmt) }
  | .cancelInLoop timerId => return s.cancelInLoop timerId
  | .resetChannel => return { s with connector := s.connector.resetChannel }
  | .handleError => s.handleError tid
  | .handleWrite => s.handleWrite tid a
  | .finishWrite sockfd =>
    if s.connector.connect then return { s with
      sockets := s.sockets.pass sockfd
      connection := true
      threads := s.threads.push tid [.user] }
    else return { s with sockets := s.sockets.close sockfd }
  | .finishRetry =>
    if s.connector.connect then return { s with threads := s.threads.push tid [.setTimer] }
    else return s
  | .setTimer => return { s with
      connector := s.connector.setTimer s.nextTimer
      timers := s.timers ++ [s.nextTimer]
      nextTimer := s.nextTimer + 1 }
  | .connectionEvent =>
    if a.closes then do
      require (s.connection = true) .otherConnection
      -- the functor is `connectDestroyed`, which calls the user
      let threads := s.threads.queueInLoop tid tid .user
      if a.again then return { s with
        connection := false
        connector := s.connector.restart
        threads := threads.push tid [.startInLoop] }
      else return { s with connection := false, threads := threads }
    else return { s with threads := s.threads.push tid [.user] }

/-! ## The steps -/

/-- User code runs in thread `t`: in the loop's thread a callback or code outside `loop()`, in another
    whatever is not a call begun before. -/
def userCode (s : TcpClient) (t : ThreadId) : Bool :=
  if t = tid then
    match s.threads.frames tid with
    | .user :: _ => true
    | [] => (s.threads.loops tid).pc == .outside || (s.threads.loops tid).pc == .unwinding
    | _ => false
  else s.calls.all (·.1 != t)

/-- `epoll_wait` can report this: the connector's channel only while it is in the interest list and
    `EPOLLOUT` only if registered, the connection while it is up. -/
def Reportable (s : TcpClient) : Active Handler → Prop
  | .channel (.connector revents) => ∃ c ∈ s.connector.channel, ∃ e ∈ s.poller.epoll c.fd,
      e.2 = c.self ∧ (.POLLIN ∈ revents → .POLLIN ∈ e.1) ∧ (.POLLOUT ∈ revents → .POLLOUT ∈ e.1)
  | .channel .connection => s.connection = true
  | _ => True

instance (s : TcpClient) : (a : Active Handler) → Decidable (s.Reportable a)
  | .channel (.connector _) => inferInstanceAs (Decidable (∃ c ∈ s.connector.channel, ∃ e ∈ _, _))
  | .channel .connection => inferInstanceAs (Decidable (s.connection = true))
  | .channel .timerfd => isTrue trivial
  | .channel .user => isTrue trivial
  | .wakeupChannel => isTrue trivial

/-- The connector's channel. -/
def isConnector : Active Handler → Bool
  | .channel (.connector _) => true
  | _ => false

/-- What one `epoll_wait` can report; a descriptor is in the result once at most. -/
def Pollable (s : TcpClient) : EventLoop.Move Handler → Prop
  | .poll active => (∀ a ∈ active, s.Reportable a) ∧ active.countP isConnector ≤ 1 ∧
      active.count (.channel .connection) ≤ 1
  | _ => True

instance (s : TcpClient) : (mv : EventLoop.Move Handler) → Decidable (s.Pollable mv)
  | .poll _ => inferInstanceAs (Decidable (_ ∧ _))
  | .enter => isTrue trivial
  | .next => isTrue trivial

/-- The steps: the loop's own code, the next statement of the loop thread, the return of user code, a call
    of `start` or `stop`, the rest of one that another thread has begun, what else the user calls, and the
    close of a socket by the connection that got it. -/
inductive Label where
  | loop (mv : EventLoop.Move Handler)
  | exec (a : Answers)
  | ret
  | call (t : ThreadId) (c : Call)
  | finishCall (t : ThreadId) (c : Call)
  | queueInLoop (t : ThreadId)
  | quit (t : ThreadId)
  | release (sockfd : Int)

/-- What a call leaves to be done in the loop. -/
def Call.functor (s : TcpClient) : Call → Stmt
  | .start => .startInLoop
  | .stop => .cancelInLoop s.connector.timerId

/-- The numbers a call leaves in the history. -/
def History.call (h : History) (nextTimer : Nat) : Call → History
  | .start => { lastCall := some .start, timersAtStart := nextTimer }
  | .stop => { h with lastCall := some .stop }

def step (s : TcpClient) : Label → Result Fault TcpClient
  | .loop mv => do
    enabled (s.Pollable mv)
    let threads ← (s.threads.advance Handler.stmts tid mv).mapFault .loop
    return { s with threads := threads }
  | .exec a =>
    match s.threads.pop tid with
    | some (stmt, threads) => { s with threads := threads }.run tid a stmt
    | none => throw .blocked
  | .ret =>
    match s.threads.pop tid with
    | some (.user, threads) => return { s with threads := threads }
    | _ => throw .blocked
  | .call t c => do
    enabled (s.userCode tid t = true)
    return { s with
      connector := { s.connector with connect := decide (c = .start) }
      threads := if t = tid then s.threads.push tid [c.functor s] else s.threads
      calls := if t = tid then s.calls else s.calls ++ [(t, c)]
      history := s.history.call s.nextTimer c }
  | .finishCall t c => do
    enabled ((t, c) ∈ s.calls)
    return { s with
      calls := s.calls.erase (t, c)
      threads := s.threads.queueInLoop t tid (c.functor s) }
  | .queueInLoop t => do
    enabled (s.userCode tid t = true)
    return { s with threads := s.threads.queueInLoop t tid .user }
  | .quit t => do
    enabled (s.userCode tid t = true)
    return { s with threads := s.threads.quit t tid }
  | .release sockfd => do
    enabled (s.sockets.table sockfd ≠ none ∧ s.sockets.table sockfd ∈ s.sockets.passed)
    return { s with sockets := s.sockets.release sockfd }

end TcpClient

/-- The client among its loop and its users, as a system. -/
def tcpClient (tid : ThreadId) : System TcpClient TcpClient.Label TcpClient.Fault :=
  ⟨fun s => s = TcpClient.start, TcpClient.step tid⟩

end Irono
