import Irono.Lib.Ledger
import Irono.Lib.Transition

/-!
# `Net.Acceptor` — the accept loop (`Acceptor.cc`)

`handleRead` accepts until `accept` gives no positive descriptor. The descriptors are handles of a ledger:
`newConnectionCallback_` is given the socket and may close it at any later time, after which the kernel
uses the number again. An error that makes `sockets::accept` abort ends the run.
-/

namespace Irono

open Transition

/-- The bound on descriptors. -/
def kMaxConnections : Int := 20000

/-- `class Acceptor`, with the sockets it has accepted. -/
structure Acceptor where
  /-- `newConnectionCallback_` is set -/
  newConnectionCallback : Bool
  /-- `handleRead` is in its `while` -/
  reading : Bool
  sockets : Ledger Int
  /-- history: the accepted descriptors, the last one first -/
  accepted : List Int

namespace Acceptor

def new : Acceptor := { newConnectionCallback := false, reading := false, sockets := .new, accepted := [] }

/-- The body of the `while`. The `else` goes with the inner `if`. -/
def dispose (s : Acceptor) (connfd : Int) : Ledger Int :=
  if connfd < kMaxConnections then
    if s.newConnectionCallback then s.sockets.pass connfd
    else s.sockets.close connfd
  else s.sockets

/-- The steps: `setNewConnectionCallback`, the call of `handleRead`, what the next `accept` returns, and the
    `close` of a socket by the one who was given it. -/
inductive Label where
  | setNewConnectionCallback
  | handleRead
  | accept (connfd : Int)
  | closed (connfd : Int)
  deriving DecidableEq, Repr

/-- Somebody was given the socket behind `connfd`. -/
def Passed (s : Acceptor) (connfd : Int) : Prop := ∃ n ∈ s.sockets.table connfd, some n ∈ s.sockets.passed

instance (s : Acceptor) (connfd : Int) : Decidable (s.Passed connfd) :=
  inferInstanceAs (Decidable (∃ n ∈ s.sockets.table connfd, some n ∈ s.sockets.passed))

def step (s : Acceptor) : Label → Result Empty Acceptor
  | .setNewConnectionCallback => return { s with newConnectionCallback := true }
  | .handleRead => do
    enabled (s.reading = false)
    return { s with reading := true }
  | .accept connfd => do
    enabled (s.reading = true)
    if 0 < connfd then do
      enabled (s.sockets.table connfd = none)
      let s := { s with sockets := s.sockets.create connfd, accepted := connfd :: s.accepted }
      return { s with sockets := s.dispose connfd }
    else return { s with reading := false }
  | .closed connfd => do
    enabled (s.Passed connfd)
    return { s with sockets := s.sockets.release connfd }

end Acceptor

/-- The accept loop, as a system. -/
def acceptor : System Acceptor Acceptor.Label Empty := ⟨fun s => s = Acceptor.new, Acceptor.step⟩

end Irono
