import Irono.Example.ChatHighPerformance
import Irono.Lib.SharedPtr

/-!
# `Example.ChatEfficient` — the chat servers with one list (`server_threaded.cc`, `server_threaded_efficient.cc`)

`class ChatServer` of these programs, whose members the I/O loops of the server call in any order. In
`server_threaded.cc` a member holds the mutex all through, so it is one step. In
`server_threaded_efficient.cc` the list is behind a `shared_ptr`: a broadcast takes a pointer under the mutex
and goes through its list without it, and `onConnection` changes a list of which it has the only pointer.

What is seen of a server is `sent`: to whom `codec_.send` was called for the broadcasts, which have their numbers
from the order in which they got the list.
-/

namespace Irono

open Transition SharedPtr

/-! ## `server_threaded.cc` -/

/-- `class ChatServer` of `server_threaded.cc`. -/
structure ThreadedChat where
  connections : OrderedSet ConnId
  /-- the messages of the broadcasts -/
  broadcasts : List (List Byte)
  /-- to whom the n-th broadcast was sent, in their order -/
  sent : Nat → List ConnId

namespace ThreadedChat

/-- The members, with what `conn->connected()` gives. -/
inductive Label where
  | onConnection (conn : ConnId) (connected : Bool)
  | onStringMessage (message : List Byte)

def start : ThreadedChat := ⟨OrderedSet.empty, [], fun _ => []⟩

def onConnection (s : ThreadedChat) (conn : ConnId) (connected : Bool) : ThreadedChat :=
  { s with connections := if connected then s.connections.insert conn else s.connections.erase conn }

def onStringMessage (s : ThreadedChat) (message : List Byte) : ThreadedChat :=
  { s with
    broadcasts := s.broadcasts ++ [message]
    sent := Function.update s.sent s.broadcasts.length s.connections.elems }

def step (s : ThreadedChat) : Label → Result Empty ThreadedChat
  | .onConnection conn connected => return s.onConnection conn connected
  | .onStringMessage message => return s.onStringMessage message

end ThreadedChat

/-- The server of `server_threaded.cc`, as a system. -/
def threadedChat : System ThreadedChat ThreadedChat.Label Empty := ⟨fun s => s = ThreadedChat.start, ThreadedChat.step⟩

/-! ## `server_threaded_efficient.cc` -/

namespace EfficientChat

/-- Where a thread is. -/
inductive Pc where
  /-- in no member -/
  | outside
  /-- in `onConnection`, before the mutex -/
  | onConnection (conn : ConnId)
  /-- `if (!connections_.unique())` -/
  | testUnique (conn : ConnId)
  /-- `connections_.reset(new ConnectionList(*connections_))` -/
  | reset (conn : ConnId)
  /-- `assert(connections_.unique())` -/
  | assertUnique (conn : ConnId)
  /-- `insert` or `erase` -/
  | change (conn : ConnId)
  | unlock
  /-- in `onStringMessage`, in `getConnectionList` before the mutex -/
  | onStringMessage (message : List Byte)
  /-- `return connections_`, for the `n`-th broadcast -/
  | getConnectionList (message : List Byte)
  /-- the end of `getConnectionList`, which unlocks -/
  | leave (connections : Ptr) (n : Nat)
  /-- `it = connections->begin()` -/
  | begin (connections : Ptr) (n : Nat)
  /-- in the `for`, at `it`; `none` is `end()` -/
  | forEach (connections : Ptr) (it : Option ConnId) (n : Nat)
  deriving DecidableEq

/-- The pointer in the local variable `connections`. -/
def Pc.list : Pc → Option Ptr
  | .leave connections _ => some connections
  | .begin connections _ => some connections
  | .forEach connections _ _ => some connections
  | _ => none

inductive Fault where
  /-- `assert(connections_.unique())` -/
  | notUnique
  /-- the list has been destroyed -/
  | destroyed
  /-- what the iterator points to is not in the list any more -/
  | invalidIterator
  deriving DecidableEq, Repr

/-- A thread calls a member, or makes its next piece: with what `conn->connected()` gives, and with the
    address that `new` gives. -/
inductive Label where
  | onConnection (t : ThreadId) (conn : ConnId)
  | onStringMessage (t : ThreadId) (message : List Byte)
  | exec (t : ThreadId) (connected : Bool) (p : Ptr)

end EfficientChat

open EfficientChat in
/-- `class ChatServer` of `server_threaded_efficient.cc`, with the threads. -/
structure EfficientChat where
  /-- the lists there are -/
  lists : Store (OrderedSet ConnId)
  /-- `connections_` -/
  connections : Ptr
  mutex : Option ThreadId
  pc : ThreadId → Pc
  broadcasts : List (List Byte)
  sent : Nat → List ConnId

namespace EfficientChat

/-- The constructor, with the address of the first list. -/
def start (p : Ptr) : EfficientChat :=
  { lists := Store.empty.make p OrderedSet.empty, connections := p, mutex := none, pc := fun _ => .outside
    broadcasts := [], sent := fun _ => [] }

def goTo (s : EfficientChat) (t : ThreadId) (pc : Pc) : EfficientChat := { s with pc := Function.update s.pc t pc }

/-- `*p` -/
def get (s : EfficientChat) (p : Ptr) : Result Fault (OrderedSet ConnId) :=
  match s.lists.objects p with
  | some set => return set
  | none => throw (.fault .destroyed)

/-- `connections_.reset(new ConnectionList(*connections_))`, with the new list at `p`. -/
def reset (s : EfficientChat) (p : Ptr) : Result Fault EfficientChat := do
  enabled (s.lists.objects p = none)
  let set ← s.get s.connections
  return { s with lists := (s.lists.make p set).drop s.connections, connections := p }

/-- `insert` or `erase` -/
def change (s : EfficientChat) (conn : ConnId) (connected : Bool) : Result Fault EfficientChat := do
  let set ← s.get s.connections
  return { s with lists := s.lists.write s.connections (if connected then set.insert conn else set.erase conn) }

/-- A turn of the `for`, at `conn`: `codec_.send(*it, message)`, and `++it`. -/
def turn (s : EfficientChat) (t : ThreadId) (connections : Ptr) (conn : ConnId) (n : Nat) :
    Result Fault EfficientChat := do
  let set ← s.get connections
  require (conn ∈ set) .invalidIterator
  return { s with sent := Function.update s.sent n (s.sent n ++ [conn]) }.goTo t
    (.forEach connections (set.next? conn) n)

/-- The next piece of thread `t`. -/
def exec (s : EfficientChat) (t : ThreadId) (connected : Bool) (p : Ptr) : Result Fault EfficientChat :=
  match s.pc t with
  | .outside => throw .blocked
  | .onConnection conn => do
    enabled (s.mutex = none)
    return { s with mutex := some t }.goTo t (.testUnique conn)
  | .testUnique conn => return s.goTo t (if s.lists.unique s.connections then .assertUnique conn else .reset conn)
  | .reset conn => do
    let s ← s.reset p
    return s.goTo t (.assertUnique conn)
  | .assertUnique conn => do
    require (s.lists.unique s.connections) .notUnique
    return s.goTo t (.change conn)
  | .change conn => do
    let s ← s.change conn connected
    return s.goTo t .unlock
  | .unlock => return { s with mutex := none }.goTo t .outside
  | .onStringMessage message => do
    enabled (s.mutex = none)
    return { s with mutex := some t }.goTo t (.getConnectionList message)
  | .getConnectionList message =>
    return { s with lists := s.lists.copy s.connections, broadcasts := s.broadcasts ++ [message] }.goTo t
      (.leave s.connections s.broadcasts.length)
  | .leave connections n => return { s with mutex := none }.goTo t (.begin connections n)
  | .begin connections n => do
    let set ← s.get connections
    return s.goTo t (.forEach connections set.min? n)
  | .forEach connections (some conn) n => s.turn t connections conn n
  | .forEach connections none _ => return { s with lists := s.lists.drop connections }.goTo t .outside

def step (cfg : PoolThreads) (s : EfficientChat) : Label → Result Fault EfficientChat
  | .onConnection t conn => do
    enabled (t ∈ cfg.base :: cfg.pool ∧ s.pc t = .outside)
    return s.goTo t (.onConnection conn)
  | .onStringMessage t message => do
    enabled (t ∈ cfg.base :: cfg.pool ∧ s.pc t = .outside)
    return s.goTo t (.onStringMessage message)
  | .exec t connected p => s.exec t connected p

end EfficientChat

/-- The server of `server_threaded_efficient.cc`, as a system. -/
def efficientChat (cfg : PoolThreads) : System EfficientChat EfficientChat.Label EfficientChat.Fault :=
  ⟨fun s => ∃ p, s = EfficientChat.start p, EfficientChat.step cfg⟩

end Irono
