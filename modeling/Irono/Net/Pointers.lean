import Irono.Net.TcpServer

/-!
# `Net.Pointers` — who keeps a connection alive (`TcpConnection.cc`, `TcpServer.cc`, `EventLoop.cc`)

The connection of `Net.TcpServer` with the `TcpConnectionPtr`s that point to it: in `connections_`, in
functors that are pending or in a batch that a loop has not left, in local variables of the server, and
with the users. It dies when the last of them goes. A functor of `doPendingFunctors` is destroyed with its
batch, not when it has run.

`send` and `shutdown` bind their functors to a raw `this`: these hold no pointer, and to start one when the
connection is dead is the fault `danglingThis`. The arguments of the user's callbacks are not counted: each
of them is made while another pointer is there that outlives it.
-/

namespace Irono

open Transition

namespace TcpServer.Stmt

/-- A functor of this code has a `TcpConnectionPtr` bound to it. -/
def captures : Stmt → Bool
  | .connectEstablished => true
  | .connectDestroyed => true
  | .removeConnectionInLoop => true
  | _ => false

/-- The code runs with a `TcpConnectionPtr` in a variable of its caller: `conn` of `newConnection`, the
    argument of `closeCallback_`. -/
def onStack : Stmt → Bool
  | .runConnectEstablished => true
  | .setCloseCallback => true
  | .removeConnection => true
  | .removeConnectionInLoop => true
  | _ => false

/-- A functor of this code is bound to a raw `this`. -/
def raw : Stmt → Bool
  | .sendInLoop _ => true
  | .shutdownInLoop => true
  | _ => false

end TcpServer.Stmt

/-- A connection and the pointers to it. -/
structure Pointers where
  server : TcpServer
  /-- a functor of `writeCompleteCallback_` is pending in the I/O loop -/
  completing : Bool
  /-- the functors of the batch of a loop captured a pointer -/
  batch : ThreadId → Bool
  /-- the pointers of the users, each by its thread -/
  users : List ThreadId
  /-- the I/O loop has swapped in `connectDestroyed` -/
  swapped : Bool
  /-- the I/O loop has left the batch with `connectDestroyed` -/
  unwound : Bool
  dead : Bool

namespace Pointers

open TcpServer

inductive Fault where
  | danglingThis
  | server (f : TcpServer.Fault)
  deriving DecidableEq, Repr

/-- The steps: those of the server, a user of thread `t` gives thread `t'` a copy of a pointer, and one
    lets its pointer go. -/
inductive Label where
  | server (a : TcpServer.Label)
  | copy (t t' : ThreadId)
  | drop (t : ThreadId)

def start (self : Addr) (sockfd : Int) : Pointers :=
  { server := TcpServer.start self sockfd, completing := false, batch := fun _ => false, users := []
    swapped := false, unwound := false, dead := false }

/-- `pendingFunctors_` of thread `t`'s loop. -/
def pending (s : Pointers) (t : ThreadId) : List Stmt := (s.server.threads.loops t).pendingFunctors

/-- Some `TcpConnectionPtr` points to the connection. -/
def referenced (cfg : LoopThreads) (s : Pointers) : Bool :=
  s.server.inConnections || !s.users.isEmpty || s.completing ||
    [cfg.base, cfg.io].any fun t =>
      s.batch t || (s.pending t).any Stmt.captures || (s.server.threads.frames t).any Stmt.onStack

/-- User code of thread `t` has a pointer: its own, or the argument of a callback, which any user code of
    the I/O thread may be. -/
def Has (cfg : LoopThreads) (s : Pointers) (t : ThreadId) : Prop :=
  t ∈ s.users ∨ t = cfg.io ∧ (s.server.threads.frames t).head? = some .user ∧ s.dead = false

instance (cfg : LoopThreads) (s : Pointers) (t : ThreadId) : Decidable (s.Has cfg t) :=
  inferInstanceAs (Decidable (_ ∨ _))

/-- Who calls a member has a pointer. -/
def Entitled (cfg : LoopThreads) (s : Pointers) : TcpServer.Label → Prop
  | .send t _ => s.Has cfg t
  | .shutdown t => s.Has cfg t
  | _ => True

instance (cfg : LoopThreads) (s : Pointers) : (a : TcpServer.Label) → Decidable (s.Entitled cfg a)
  | .send t _ => inferInstanceAs (Decidable (s.Has cfg t))
  | .shutdown t => inferInstanceAs (Decidable (s.Has cfg t))
  | .loop _ _ => isTrue trivial
  | .exec _ _ _ => isTrue trivial
  | .ret _ => isTrue trivial
  | .newConnection _ => isTrue trivial
  | .retrieve _ => isTrue trivial
  | .queueInLoop _ _ => isTrue trivial
  | .quit _ _ => isTrue trivial

/-- The step starts a functor that is bound to a raw `this`. -/
def startsRaw (s : Pointers) : TcpServer.Label → Bool
  | .exec t _ _ => (s.server.threads.frames t).head?.any Stmt.raw
  | _ => false

/-- The pointers in functors after the step `a` of the server. -/
def follow (cfg : LoopThreads) (s : Pointers) (a : TcpServer.Label) (server : TcpServer) : Pointers :=
  match a with
  | .loop t .next =>
    match (s.server.threads.loops t).pc with
    -- the swap of `doPendingFunctors`
    | .dispatch [] => { s with
        server := server
        batch := Function.update s.batch t ((s.pending t).any Stmt.captures || (t == cfg.io && s.completing))
        completing := if t = cfg.io then false else s.completing
        swapped := s.swapped || (t == cfg.io && (s.pending t).any (· == .connectDestroyed)) }
    -- its end
    | .unwinding => { s with
        server := server
        batch := Function.update s.batch t false
        unwound := s.unwound || (t == cfg.io && s.swapped) }
    | _ => { s with server := server }
  | .exec _ _ _ =>
    -- what a statement queues for the user is `writeCompleteCallback_`
    let before := (s.pending cfg.io).count .user
    let after := ((server.threads.loops cfg.io).pendingFunctors).count .user
    { s with server := server, completing := s.completing || decide (before < after) }
  | _ => { s with server := server }

/-- The connection dies when nobody points to it any more. -/
def bury (cfg : LoopThreads) (s : Pointers) : Pointers :=
  { s with dead := s.dead || (s.server.created && !s.referenced cfg) }

def step (cfg : LoopThreads) (s : Pointers) : Label → Result Fault Pointers
  | .server a => do
    enabled (s.Entitled cfg a)
    require (s.startsRaw a = true → s.dead = false) .danglingThis
    let server ← (s.server.step cfg a).mapFault .server
    return (s.follow cfg a server).bury cfg
  | .copy t t' => do
    enabled (s.server.userCode cfg t = true ∧ s.server.history.callbacks ≠ [] ∧ s.Has cfg t)
    return { s with users := t' :: s.users }
  | .drop t => do
    enabled (s.server.userCode cfg t = true ∧ t ∈ s.users)
    return { s with users := s.users.erase t }.bury cfg

end Pointers

/-- The connection and the pointers to it, as a system. -/
def pointers (cfg : LoopThreads) : System Pointers Pointers.Label Pointers.Fault :=
  ⟨fun s => ∃ self sockfd, s = Pointers.start self sockfd, Pointers.step cfg⟩

end Irono
