import Irono.Base.Types
import Mathlib.Data.Finset.Basic

/-!
# `Net.Channel` — event masks and the channel of a descriptor (`Channel.h`, `Channel.cc`)

A mask is a set of poll flags. The channel's callbacks are the business of its owner; what
`handleEvent` calls for a mask is `callbacks`.
-/

namespace Irono

/-- The flags of `<poll.h>` the code uses; the `EPOLL*` constants are the same. -/
inductive PollFlag where
  | POLLIN
  | POLLPRI
  | POLLOUT
  | POLLERR
  | POLLHUP
  | POLLNVAL
  | POLLRDHUP
  deriving DecidableEq, Repr

/-- A mask of flags. -/
abbrev Events := Finset PollFlag

/-- `class Channel`; `self` is its address. -/
structure Channel where
  self : Addr
  fd : Int
  events : Events
  index : Int
  deriving DecidableEq

namespace Channel

def kNoneEvent : Events := ∅
def kReadEvent : Events := {.POLLIN, .POLLPRI}
def kWriteEvent : Events := {.POLLOUT}

/-- The constructor. -/
def new (self : Addr) (fd : Int) : Channel := { self, fd, events := kNoneEvent, index := -1 }

def isNoneEvent (c : Channel) : Bool := c.events = kNoneEvent

def isWriting (c : Channel) : Bool := (c.events ∩ kWriteEvent).Nonempty

/-! The members that set `events_`; each is followed by `update()` in the source. -/

def enableReading (c : Channel) : Channel := { c with events := c.events ∪ kReadEvent }

def enableWriting (c : Channel) : Channel := { c with events := c.events ∪ kWriteEvent }

def disableWriting (c : Channel) : Channel := { c with events := c.events \ kWriteEvent }

def disableAll (c : Channel) : Channel := { c with events := kNoneEvent }

theorem isWriting_iff {c : Channel} : c.isWriting = true ↔ .POLLOUT ∈ c.events := by
  simp [isWriting, kWriteEvent, Finset.Nonempty]

theorem isNoneEvent_iff {c : Channel} : c.isNoneEvent = true ↔ c.events = ∅ :=
  decide_eq_true_iff

/-- The channels, by their addresses or their owners, after one was set. -/
theorem update_cases {O : Type} [DecidableEq O] {channels : O → Option Channel} {a b : O} {c d : Channel}
    (hd : Function.update channels a (some c) b = some d) : b = a ∧ d = c ∨ b ≠ a ∧ channels b = some d := by
  by_cases hb : b = a
  · subst hb
    rw [Function.update_self, Option.some.injEq] at hd
    exact .inl ⟨rfl, hd.symm⟩
  · rw [Function.update_of_ne hb] at hd
    exact .inr ⟨hb, hd⟩

/-- The callbacks of a channel. -/
inductive Callback where
  | close
  | error
  | read
  | write
  deriving DecidableEq, Repr

/-- `handleEvent`: what it calls, in order, for the mask `revents_`. -/
def callbacks (revents : Events) : List Callback :=
  (if .POLLHUP ∈ revents ∧ .POLLIN ∉ revents then [.close] else []) ++
  (if .POLLERR ∈ revents ∨ .POLLNVAL ∈ revents then [.error] else []) ++
  (if .POLLIN ∈ revents ∨ .POLLPRI ∈ revents ∨ .POLLRDHUP ∈ revents then [.read] else []) ++
  (if .POLLOUT ∈ revents then [.write] else [])

end Channel

end Irono
