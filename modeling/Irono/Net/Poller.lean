import Irono.Lib.Transition
import Irono.Net.Channel
import Mathlib.Logic.Function.Basic

/-!
# `Net.Poller` — the registry of channels for `poll(2)` (`Poller.cc`)

`index_` of a channel is the position of its entry in the vector `pollfds_`; an entry is disabled by the
complement of its descriptor. `removeChannel` writes to the channel of another entry, so the channels of
the loop are an argument, by their addresses. `revents` is of no use here.
-/

namespace Irono

open Transition

/-- `struct pollfd` -/
structure PollFd where
  fd : Int
  events : Events
  deriving DecidableEq

/-- `class Poller` -/
structure Poller where
  pollfds : List PollFd
  channels : Int → Option Addr

namespace Poller

/-- The asserts, in the order of the source, and the dereference of a null pointer in `removeChannel`. -/
inductive Fault where
  | channelKnown
  | channelUnknown
  | otherChannel
  | index
  | otherPollFd
  | notNoneEvent
  | notDisabled
  | nullChannel
  deriving DecidableEq, Repr

/-- The constructor. -/
def new : Poller := ⟨[], fun _ => none⟩

def updateChannel (p : Poller) (channel : Channel) : Result Fault (Poller × Channel) :=
  if channel.index < 0 then do
    require (p.channels channel.fd = none) .channelKnown
    return ({ pollfds := p.pollfds ++ [⟨channel.fd, channel.events⟩]
              channels := Function.update p.channels channel.fd (some channel.self) },
      { channel with index := p.pollfds.length })
  else do
    require (p.channels channel.fd ≠ none) .channelUnknown
    require (p.channels channel.fd = some channel.self) .otherChannel
    match p.pollfds[channel.index.toNat]? with
    | none => throw (.fault .index)
    | some pfd => do
      require (pfd.fd = channel.fd ∨ pfd.fd = -channel.fd - 1) .otherPollFd
      -- the descriptor is set when the channel has no events, and left alone when it has
      let fd := if channel.isNoneEvent then -channel.fd - 1 else pfd.fd
      return ({ p with pollfds := p.pollfds.set channel.index.toNat ⟨fd, channel.events⟩ }, channel)

/-- The end of `removeChannel`: the entry at `idx` goes, and the last one takes its place. -/
def dropEntry (p : Poller) (heap : Addr → Option Channel) (idx : Nat) (pfd back : PollFd) :
    Result Fault (Poller × (Addr → Option Channel)) :=
  if idx = p.pollfds.length - 1 then return ({ p with pollfds := p.pollfds.dropLast }, heap)
  else
    let channelAtEnd := if back.fd < 0 then -back.fd - 1 else back.fd
    -- `iter_swap` and `pop_back`
    let pollfds := ((p.pollfds.set idx back).set (p.pollfds.length - 1) pfd).dropLast
    match (p.channels channelAtEnd).bind heap with
    | none => throw (.fault .nullChannel)
    | some channel =>
      return ({ p with pollfds := pollfds }, Function.update heap channel.self (some { channel with index := idx }))

def removeChannel (p : Poller) (heap : Addr → Option Channel) (channel : Channel) :
    Result Fault (Poller × (Addr → Option Channel)) := do
  require (p.channels channel.fd ≠ none) .channelUnknown
  require (p.channels channel.fd = some channel.self) .otherChannel
  require (channel.isNoneEvent = true) .notNoneEvent
  require (0 ≤ channel.index) .index
  match p.pollfds[channel.index.toNat]?, p.pollfds.getLast? with
  | some pfd, some back => do
    require (pfd.fd = -channel.fd - 1 ∧ pfd.events = channel.events) .notDisabled
    { p with channels := Function.update p.channels channel.fd none }.dropEntry heap channel.index.toNat pfd back
  | _, _ => throw (.fault .index)

/-! ## `poll` -/

/-- The asserts of `fillActiveChannels`, a pointer to nothing, and the `LOG_FATAL` of `poll`. -/
inductive PollFault where
  /-- `ch != channels_.end()` -/
  | reportedUnknown
  | danglingPointer
  /-- `channel->fd() == pfd->fd` -/
  | reportedOther
  | pollFailed
  deriving DecidableEq, Repr

/-- `fillActiveChannels`: the channels that it activates, each with the `revents_` it gets. -/
def fillActiveChannels (p : Poller) (heap : Addr → Option Channel) :
    Nat → List (PollFd × Events) → Result PollFault (List (Addr × Events))
  | 0, _ => return []
  | _, [] => return []
  | numEvents + 1, (pfd, revents) :: rest =>
    if revents ≠ ∅ then
      match p.channels pfd.fd with
      | none => throw (.fault .reportedUnknown)
      | some ptr =>
        match heap ptr with
        | none => throw (.fault .danglingPointer)
        | some channel => do
          require (channel.fd = pfd.fd) .reportedOther
          let active ← p.fillActiveChannels heap numEvents rest
          return (ptr, revents) :: active
    else p.fillActiveChannels heap (numEvents + 1) rest

/-- `poll`; `none` when `poll(2)` fails. It returns the number of entries it found something for. -/
def poll (p : Poller) (heap : Addr → Option Channel) : Option (List Events) → Result PollFault (List (Addr × Events))
  | some revents => p.fillActiveChannels heap (revents.countP (· ≠ ∅)) (p.pollfds.zip revents)
  | none => throw (.fault .pollFailed)

end Poller

end Irono
