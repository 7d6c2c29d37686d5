import Irono.Net.EPoller

/-!
# `Net.Connector` — the client's end of a connection attempt (`Connector.h`, `Connector.cc`)

The members that touch only the connector and the poller of its loop. What they do with the loop's queue,
its timers and the sockets is in `Net.TcpClient`, which runs them.
-/

namespace Irono

open Transition

namespace Connector

inductive States where
  | kDisconnected
  | kConnecting
  | kConnected
  deriving DecidableEq, Repr

/-- The asserts, the dereference of a null `channel_`, and what the poller may fail with. -/
inductive Fault where
  /-- `state_ == kDisconnected` in `startInLoop` -/
  | startInLoop
  /-- `!channel_` in `connecting` -/
  | connecting
  /-- `state_ == kConnecting` in `handleError` -/
  | handleError
  /-- `state_ == kDisconnected` in `handleWrite` -/
  | handleWrite
  | nullChannel
  | poller (f : EPoller.Fault)
  deriving DecidableEq, Repr

/-- What `errno` holds after `::connect`: 0, the values the `switch` names, or another. -/
inductive Errno where
  | ok
  | EINPROGRESS
  | EINTR
  | EISCONN
  | EAGAIN
  | EADDRINUSE
  | EADDRNOTAVAIL
  | ECONNREFUSED
  | ENETUNREACH
  | EACCES
  | EPERM
  | EAFNOSUPPORT
  | EALREADY
  | EBADF
  | EFAULT
  | ENOTSOCK
  | other (n : Nat)
  deriving DecidableEq, Repr

/-- The ways `connect` goes on with the new socket. -/
inductive Action where
  | connecting
  | retry
  | close
  deriving DecidableEq, Repr

/-- The `switch` of `connect`. -/
def Errno.action : Errno → Action
  | .ok | .EINPROGRESS | .EINTR | .EISCONN => .connecting
  | .EAGAIN | .EADDRINUSE | .EADDRNOTAVAIL | .ECONNREFUSED | .ENETUNREACH => .retry
  | .EACCES | .EPERM | .EAFNOSUPPORT | .EALREADY | .EBADF | .EFAULT | .ENOTSOCK => .close
  | .other _ => .close

def kMaxRetryDelayMs : Nat := 30 * 1000
def kInitRetryDelayMs : Nat := 500

end Connector

/-- `class Connector`; a timer is known by its sequence number. -/
structure Connector where
  /-- `connect_` -/
  connect : Bool
  state : Connector.States
  channel : Option Channel
  retryDelayMs : Nat
  timerId : Option Nat

namespace Connector

/-- The constructor. -/
def new : Connector :=
  { connect := false, state := .kDisconnected, channel := none, retryDelayMs := kInitRetryDelayMs
    timerId := none }

/-- `connecting` with the new socket; `self` is the address of the new `Channel`. -/
def connecting (c : Connector) (p : EPoller) (self : Addr) (sockfd : Int) :
    Result Fault (Connector × EPoller) := do
  let c := { c with state := .kConnecting }
  require (c.channel = none) .connecting
  let (p, channel) ← (p.updateChannel (Channel.new self sockfd).enableWriting).mapFault .poller
  return ({ c with channel := some channel }, p)

/-- `removeAndResetChannel` but for its `queueInLoop`; the descriptor it returns. -/
def removeAndResetChannel (c : Connector) (p : EPoller) : Result Fault (Connector × EPoller × Int) :=
  match c.channel with
  | none => throw (.fault .nullChannel)
  | some channel => do
    let (p, channel) ← (p.updateChannel channel.disableAll).mapFault .poller
    let (p, channel) ← (p.removeChannel channel).mapFault .poller
    return ({ c with channel := some channel }, p, channel.fd)

/-- `resetChannel` -/
def resetChannel (c : Connector) : Connector := { c with channel := none }

/-- The first lines of `restart`. -/
def restart (c : Connector) : Connector :=
  { c with state := .kDisconnected, retryDelayMs := kInitRetryDelayMs, connect := true }

/-- The end of `retry`, with the timer that `runAfter` gave. -/
def setTimer (c : Connector) (timerId : Nat) : Connector :=
  { c with timerId := some timerId, retryDelayMs := min (c.retryDelayMs * 2) kMaxRetryDelayMs }

/-- **What `connecting` does.** -/
theorem connecting_cases {c c' : Connector} {p p' : EPoller} {self : Addr} {sockfd : Int}
    (h : c.connecting p self sockfd = .ok (c', p')) :
    ∃ channel, c.channel = none ∧ c' = { c with state := .kConnecting, channel := some channel } ∧
      p.updateChannel (Channel.new self sockfd).enableWriting = .ok (p', channel) := by
  simp only [connecting, bind_eq_ok, require_eq_ok, Result.mapFault_eq_ok, Prod.exists, pure_eq_ok,
    Except.ok.injEq, Prod.mk.injEq] at h
  obtain ⟨-, hnone, p₁, channel, hp, rfl, rfl⟩ := h
  exact ⟨channel, hnone, rfl, hp⟩

/-- **What `removeAndResetChannel` does.** -/
theorem removeAndResetChannel_cases {c c' : Connector} {p p' : EPoller} {sockfd : Int}
    (h : c.removeAndResetChannel p = .ok (c', p', sockfd)) :
    ∃ channel channel₁ channel' p₁, c.channel = some channel ∧ c' = { c with channel := some channel' } ∧
      p.updateChannel channel.disableAll = .ok (p₁, channel₁) ∧
      p₁.removeChannel channel₁ = .ok (p', channel') ∧ sockfd = channel'.fd := by
  unfold removeAndResetChannel at h
  cases hc : c.channel with
  | none => rw [hc] at h; cases h
  | some channel =>
    rw [hc] at h
    simp only [bind_eq_ok, Result.mapFault_eq_ok, Prod.exists, pure_eq_ok, Except.ok.injEq,
      Prod.mk.injEq] at h
    obtain ⟨p₁, channel₁, hup, p₂, channel₂, hrem, rfl, rfl, rfl⟩ := h
    exact ⟨channel, channel₁, channel₂, p₁, rfl, rfl, hup, hrem, rfl⟩

end Connector

end Irono
