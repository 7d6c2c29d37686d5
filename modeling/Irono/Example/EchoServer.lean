import Irono.Lib.Transition
import Irono.Lib.Wheel

/-!
# `Example.EchoServer` — idle connections on a timing wheel (`example/echo/echo.h`, `echo.cc`)

All callbacks run in the loop's thread. An `Entry` is known by the connection it was made for; it is owned
by the `shared_ptr`s in the buckets and in the locals of the callbacks, and `useCount` is the count in their
control block. A bucket is a list in the order of insertion; an `unordered_set` has some order.

`destroyed` and `shutdowns` record the runs of `~Entry` and the calls of `shutdown()`; no step reads them.
-/

namespace Irono

open Transition

namespace EchoServer

/-- What there is of a connection. -/
inductive ConnState where
  /-- its up callback has not been called -/
  | unborn
  | up
  | down
  /-- the object has been destroyed -/
  | gone
  deriving DecidableEq, Repr

/-- The asserts, `*begin()` and `pop_back()` of a list without buckets. -/
inductive Fault where
  | emptyContext
  | noBucket
  deriving DecidableEq, Repr

end EchoServer

open EchoServer in
/-- `class EchoServer` with the connections of its server. -/
structure EchoServer (Conn : Type) where
  /-- `connectionBuckets_` -/
  buckets : List (List Conn)
  useCount : Conn → Nat
  /-- the `WeakEntryPtr` in a connection's context -/
  context : Conn → Option Conn
  conns : Conn → ConnState
  destroyed : List Conn
  shutdowns : List Conn

namespace EchoServer

variable {Conn : Type} [DecidableEq Conn]

/-- The constructor, for `idleSeconds` buckets. -/
def new (idleSeconds : Nat) : EchoServer Conn :=
  { buckets := List.replicate idleSeconds [], useCount := fun _ => 0, context := fun _ => none
    conns := fun _ => .unborn, destroyed := [], shutdowns := [] }

/-- Whether `weakConn_.lock()` gives a connection. -/
def alive (s : EchoServer Conn) (conn : Conn) : Bool := s.conns conn = .up ∨ s.conns conn = .down

/-- `~Entry` -/
def destroyEntry (s : EchoServer Conn) (entry : Conn) : EchoServer Conn :=
  { s with
    destroyed := s.destroyed ++ [entry]
    shutdowns := s.shutdowns ++ if s.alive entry then [entry] else [] }

/-- An `EntryPtr` is copied, or locked from a `WeakEntryPtr`. -/
def acquire (s : EchoServer Conn) (entry : Conn) : EchoServer Conn :=
  { s with useCount := Function.update s.useCount entry (s.useCount entry + 1) }

/-- An `EntryPtr` is destroyed, and the entry with the last of them. -/
def release (s : EchoServer Conn) (entry : Conn) : EchoServer Conn :=
  let s := { s with useCount := Function.update s.useCount entry (s.useCount entry - 1) }
  if s.useCount entry = 0 then s.destroyEntry entry else s

/-- `(*connectionBuckets_.begin()).insert(entry)`; a set that has the entry makes no copy. -/
def insert (s : EchoServer Conn) (entry : Conn) : Result Fault (EchoServer Conn) :=
  match s.buckets with
  | [] => throw (.fault .noBucket)
  | bucket :: buckets =>
    if entry ∈ bucket then return s
    else return { s.acquire entry with buckets := (entry :: bucket) :: buckets }

/-- `circular_buffer::Tick` -/
def Tick (s : EchoServer Conn) : Result Fault (EchoServer Conn) :=
  match s.buckets.getLast? with
  | none => throw (.fault .noBucket)
  | some bucket =>
    let s := bucket.foldl release { s with buckets := s.buckets.dropLast }
    return { s with buckets := [] :: s.buckets }

/-- `onConnection` -/
def onConnection (s : EchoServer Conn) (conn : Conn) : Result Fault (EchoServer Conn) := do
  if s.conns conn = .up then
    -- `entry` is the first owner, and goes at the end of the block
    let s ← (s.acquire conn).insert conn
    let s := { s with context := Function.update s.context conn (some conn) }
    return s.release conn
  else
    require ((s.context conn).isSome) .emptyContext
    return s

/-- `onMessage`, less the echo. -/
def onMessage (s : EchoServer Conn) (conn : Conn) : Result Fault (EchoServer Conn) :=
  match s.context conn with
  | none => throw (.fault .emptyContext)
  | some weakEntry => do
    if s.useCount weakEntry ≠ 0 then
      let s ← (s.acquire weakEntry).insert weakEntry
      return s.release weakEntry
    else return s

/-- `onTimer` -/
def onTimer (s : EchoServer Conn) : Result Fault (EchoServer Conn) := s.Tick

/-- What can happen. -/
inductive Event (Conn : Type) where
  | up (conn : Conn)
  | message (conn : Conn)
  | down (conn : Conn)
  /-- the last owner of the connection lets it go -/
  | gone (conn : Conn)
  | tick
  deriving DecidableEq, Repr

/-- A connection goes up once, then down once, and is destroyed after that; messages come as long as it is
    there. -/
def step (s : EchoServer Conn) : Event Conn → Result Fault (EchoServer Conn)
  | .up conn => do
    enabled (s.conns conn = .unborn)
    { s with conns := Function.update s.conns conn .up }.onConnection conn
  | .message conn => do
    enabled (s.alive conn)
    s.onMessage conn
  | .down conn => do
    enabled (s.conns conn = .up)
    { s with conns := Function.update s.conns conn .down }.onConnection conn
  | .gone conn => do
    enabled (s.conns conn = .down)
    return { s with conns := Function.update s.conns conn .gone }
  | .tick => s.onTimer

end EchoServer

/-- The echo server with a wheel of `idleSeconds` buckets, as a system. -/
def echoServer (Conn : Type) [DecidableEq Conn] (idleSeconds : Nat) :
    System (EchoServer Conn) (EchoServer.Event Conn) EchoServer.Fault :=
  ⟨fun s => s = .new idleSeconds, EchoServer.step⟩

end Irono
