import Irono.Net.EPoller
import Irono.Net.Threads

/-!
# `Net.ServerStart` — calls of `TcpServer::start()` (`TcpServer.cc`, `EventLoopThreadPool.cc`, `Acceptor.cc`)

A server that has been set up, with any number of I/O threads to come, and calls of `start()` by any threads
and any number of times: by the thread `tid` of the base loop in user code, a functor or the
`threadInitCallback_` included, and by others at any moment.

A thread's code is a list of `Stmt`s. `start()` is cut where another thread may come between two accesses to
`started_`, to `listenning_` and to the queue of the base loop; the members of the pool and of the acceptor
behind their `assertInLoopThread` belong to one thread. `calls` and `poolStarts` record the history and are
read by no step.
-/

namespace Irono

open Transition

namespace ServerStart

/-- The pieces of code. -/
inductive Stmt where
  /-- user code -/
  | user
  /-- `if (!started_)` -/
  | testStarted
  | setStarted
  /-- `EventLoopThreadPool::start` up to its loop -/
  | startPool
  /-- the loop of `EventLoopThreadPool::start`, about to make thread `i`, and what comes after it -/
  | nextThread (i : Nat)
  /-- `t->startLoop()` waits for the loop of thread `i` -/
  | startLoop (i : Nat)
  /-- `if (!acceptor_->listenning())` -/
  | testListenning
  /-- `loop_->runInLoop(listen)` -/
  | runListen
  /-- the test of `queueInLoop` after its critical section -/
  | wakeup
  /-- `Acceptor::listen` up to its last line -/
  | listen
  /-- `acceptSocket_.listen()` -/
  | listenSocket
  deriving DecidableEq, Repr

inductive Fault where
  /-- `assert(!started_)` of the pool -/
  | poolStarted
  /-- the `LOG_FATAL` of `assertInLoopThread` -/
  | notInLoopThread
  | poller (f : EPoller.Fault)
  | loop (f : EventLoop.Fault)
  deriving DecidableEq, Repr

end ServerStart

/-- `class EventLoopThreadPool`; `loops_` by the threads of the loops. -/
structure EventLoopThreadPool where
  started : Bool
  numThreads : Nat
  loops : List ThreadId

/-- A `TcpServer` whose `start()` is called; every channel of the base loop calls user code. -/
structure ServerStart where
  started : Bool
  /-- `threadInitCallback_` is set -/
  threadInitCallback : Bool
  threadPool : EventLoopThreadPool
  poller : EPoller
  acceptChannel : Channel
  listenning : Bool
  /-- the kernel accepts connections for `acceptSocket_` -/
  socketListens : Bool
  threads : Threads Unit ServerStart.Stmt
  /-- how often `start()` has been called -/
  calls : Nat
  /-- how often the start of the pool got past its asserts -/
  poolStarts : Nat

namespace ServerStart

/-- After the constructor, `setThreadNum` and `setThreadInitCallback`. -/
def new (numThreads : Nat) (threadInitCallback : Bool) (acceptChannel : Addr) (sockfd : Int) : ServerStart :=
  { started := false, threadInitCallback := threadInitCallback
    threadPool := ⟨false, numThreads, []⟩
    poller := EPoller.new
    acceptChannel := Channel.new acceptChannel sockfd
    listenning := false, socketListens := false
    threads := Threads.start, calls := 0, poolStarts := 0 }

/-- `handleEvent` of a channel. -/
def handlerStmts (_ : Unit) : List Stmt := [.user]

variable (tid : ThreadId)

def push (s : ServerStart) (t : ThreadId) (stmts : List Stmt) : ServerStart :=
  { s with threads := s.threads.push t stmts }

/-- A piece of a member of the base loop. -/
def onLoop (s : ServerStart) (f : EventLoop Unit Stmt → EventLoop Unit Stmt) : ServerStart :=
  { s with threads := { s.threads with loops := Function.update s.threads.loops tid (f (s.threads.loops tid)) } }

/-- A statement in thread `t`. -/
def run (s : ServerStart) (t : ThreadId) : Stmt → Result Fault ServerStart
  | .user => throw .blocked
  | .testStarted => return if s.started then s else s.push t [.setStarted]
  | .setStarted => return { s with started := true }.push t [.startPool]
  | .startPool => do
    require (s.threadPool.started = false) .poolStarted
    require (t = tid) .notInLoopThread
    return { s with
      threadPool := { s.threadPool with started := true }
      poolStarts := s.poolStarts + 1 }.push t [.nextThread 0]
  | .nextThread i =>
    if i < s.threadPool.numThreads then return s.push t [.startLoop i]
    else if s.threadPool.numThreads = 0 && s.threadInitCallback then return s.push t [.user]
    else return s
  | .startLoop _ => throw .blocked
  | .testListenning => return if s.listenning then s else s.push t [.runListen]
  | .runListen =>
    if t = tid then return s.push t [.listen]
    else return (s.onLoop tid fun l => l.push .listen).push t [.wakeup]
  | .wakeup => return s.onLoop tid fun l => l.wakeupAfterPush (t = tid)
  | .listen => do
    require (t = tid) .notInLoopThread
    let (poller, acceptChannel) ← (s.poller.updateChannel s.acceptChannel.enableReading).mapFault .poller
    return { s with
      listenning := true
      poller := poller
      acceptChannel := acceptChannel }.push t [.listenSocket]
  | .listenSocket => return { s with socketListens := true }

/-- The steps: the loop's own code, the next statement of a thread, the return of `startLoop()` when the new
    thread has given its loop, the return of user code, a call of `start()`, and what users do to the base
    loop. -/
inductive Label where
  | loop (mv : EventLoop.Move Unit)
  | exec (t : ThreadId)
  | startLoopReturns (t loop : ThreadId)
  | ret
  | start (t : ThreadId)
  | queueInLoop (t : ThreadId)
  | quit (t : ThreadId)

/-- User code runs in thread `t`: in the base loop's thread where the loop is left to it, in another unless
    it is in `start()`. -/
def UserCode (s : ServerStart) (t : ThreadId) : Prop :=
  (s.threads.frames t).head? = some .user ∨ s.threads.frames t = [] ∧
    (t = tid → (s.threads.loops t).pc = .outside ∨ (s.threads.loops t).pc = .unwinding)

instance (s : ServerStart) (t : ThreadId) : Decidable (s.UserCode tid t) :=
  inferInstanceAs (Decidable ((s.threads.frames t).head? = some .user ∨ s.threads.frames t = [] ∧
    (t = tid → (s.threads.loops t).pc = .outside ∨ (s.threads.loops t).pc = .unwinding)))

def step (s : ServerStart) : Label → Result Fault ServerStart
  | .loop mv => do
    let threads ← (s.threads.advance handlerStmts tid mv).mapFault .loop
    return { s with threads := threads }
  | .exec t =>
    match s.threads.pop t with
    | some (stmt, threads) => { s with threads := threads }.run tid t stmt
    | none => throw .blocked
  | .startLoopReturns t loop =>
    match s.threads.pop t with
    | some (.startLoop i, threads) =>
      -- `loops_.push_back`, and the `++i` of the loop
      return { s with
        threads := threads
        threadPool := { s.threadPool with loops := s.threadPool.loops ++ [loop] } }.push t [.nextThread (i + 1)]
    | _ => throw .blocked
  | .ret =>
    match s.threads.pop tid with
    | some (.user, threads) => return { s with threads := threads }
    | _ => throw .blocked
  | .start t => do
    enabled (s.UserCode tid t)
    return { s with calls := s.calls + 1 }.push t [.testStarted, .testListenning]
  | .queueInLoop t => do
    enabled (s.UserCode tid t)
    return { s with threads := s.threads.queueInLoop t tid .user }
  | .quit t => do
    enabled (s.UserCode tid t)
    return { s with threads := s.threads.quit t tid }

end ServerStart

/-- A server among the callers of its `start()`, as a system. -/
def serverStart (tid : ThreadId) : System ServerStart ServerStart.Label ServerStart.Fault :=
  ⟨fun s => ∃ numThreads threadInitCallback acceptChannel sockfd,
    s = ServerStart.new numThreads threadInitCallback acceptChannel sockfd, ServerStart.step tid⟩

end Irono
