import Irono.Lib.Transition
import Irono.Net.Channel
import Mathlib.Logic.Function.Basic

/-!
# `Net.EPoller` — the registry of channels and the kernel's interest list (`EPoller.cc`)

`channels` is `channels_`; `epoll` is what the kernel holds for `epollfd_`. `epoll_ctl` fails as the
kernel does, on an `ADD` of a descriptor it has and on a `MOD` or `DEL` of one it has not; the source
aborts on the failure unless the operation is `DEL`.
-/

namespace Irono

open Transition

/-- `class EPoller`, and the kernel's side of `epollfd_`. -/
structure EPoller where
  channels : Int → Option Addr
  epoll : Int → Option (Events × Addr)

namespace EPoller

def kNew : Int := -1
def kAdded : Int := 1
def kDeleted : Int := 2

/-- The asserts, in the order of the source, and the `LOG_FATAL` of `update`. -/
inductive Fault where
  | channelKnown
  | channelUnknown
  | otherChannel
  | notAdded
  | notNoneEvent
  | epollCtl
  deriving DecidableEq, Repr

/-- The constructor. -/
def new : EPoller := ⟨fun _ => none, fun _ => none⟩

inductive Operation where
  | EPOLL_CTL_ADD
  | EPOLL_CTL_MOD
  | EPOLL_CTL_DEL
  deriving DecidableEq, Repr

/-- `update` -/
def update (p : EPoller) (operation : Operation) (channel : Channel) : Result Fault EPoller :=
  let entry := some (channel.events, channel.self)
  match operation with
  | .EPOLL_CTL_ADD => do
    require (p.epoll channel.fd = none) .epollCtl
    return { p with epoll := Function.update p.epoll channel.fd entry }
  | .EPOLL_CTL_MOD => do
    require (p.epoll channel.fd ≠ none) .epollCtl
    return { p with epoll := Function.update p.epoll channel.fd entry }
  -- a failed `DEL` is only logged
  | .EPOLL_CTL_DEL => return { p with epoll := Function.update p.epoll channel.fd none }

/-- The first lines of `updateChannel` for a channel that is not in the interest list. -/
def enter (p : EPoller) (channel : Channel) : Result Fault EPoller :=
  if channel.index = kNew then do
    require (p.channels channel.fd = none) .channelKnown
    return { p with channels := Function.update p.channels channel.fd (some channel.self) }
  else do
    require (p.channels channel.fd ≠ none) .channelUnknown
    require (p.channels channel.fd = some channel.self) .otherChannel
    return p

def updateChannel (p : EPoller) (channel : Channel) : Result Fault (EPoller × Channel) :=
  if channel.index = kNew ∨ channel.index = kDeleted then do
    let p ← p.enter channel
    let channel := { channel with index := kAdded }
    let p ← p.update .EPOLL_CTL_ADD channel
    return (p, channel)
  else do
    require (p.channels channel.fd ≠ none) .channelUnknown
    require (p.channels channel.fd = some channel.self) .otherChannel
    require (channel.index = kAdded) .notAdded
    if channel.isNoneEvent then
      let p ← p.update .EPOLL_CTL_DEL channel
      return (p, { channel with index := kDeleted })
    else
      let p ← p.update .EPOLL_CTL_MOD channel
      return (p, channel)

def removeChannel (p : EPoller) (channel : Channel) : Result Fault (EPoller × Channel) := do
  require (p.channels channel.fd ≠ none) .channelUnknown
  require (p.channels channel.fd = some channel.self) .otherChannel
  require (channel.isNoneEvent = true) .notNoneEvent
  require (channel.index = kAdded ∨ channel.index = kDeleted) .notAdded
  let p := { p with channels := Function.update p.channels channel.fd none }
  let p ← (if channel.index = kAdded then p.update .EPOLL_CTL_DEL channel else .ok p : Result Fault EPoller)
  return (p, { channel with index := kNew })

/-! ## The calls of `epoll_ctl` -/

/-- What the kernel accepts for a descriptor: an `ADD` if it has none, a `MOD` or `DEL` if it has it. -/
def Legal (p : EPoller) (fd : Int) : Operation → Prop
  | .EPOLL_CTL_ADD => p.epoll fd = none
  | .EPOLL_CTL_MOD => p.epoll fd ≠ none
  | .EPOLL_CTL_DEL => p.epoll fd ≠ none

/-- The operation `updateChannel` ends with. -/
def updateOperation (channel : Channel) : Operation :=
  if channel.index = kNew ∨ channel.index = kDeleted then .EPOLL_CTL_ADD
  else if channel.isNoneEvent then .EPOLL_CTL_DEL
  else .EPOLL_CTL_MOD

/-- The operation `removeChannel` ends with, if any. -/
def removeOperation (channel : Channel) : Option Operation :=
  if channel.index = kAdded then some .EPOLL_CTL_DEL else none

theorem enter_epoll {p p' : EPoller} {c : Channel} (h : p.enter c = .ok p') : p'.epoll = p.epoll := by
  unfold enter at h
  split at h
  · simp only [bind_eq_ok, pure_eq_ok, Except.ok.injEq] at h
    obtain ⟨-, -, rfl⟩ := h
    rfl
  · simp only [bind_eq_ok, pure_eq_ok, Except.ok.injEq] at h
    obtain ⟨-, -, -, -, rfl⟩ := h
    rfl

/-- `updateOperation` is the call that is made, on the interest list as it was. -/
theorem updateChannel_update {p p' : EPoller} {c c' : Channel} (h : p.updateChannel c = .ok (p', c')) :
    ∃ q : EPoller, q.epoll = p.epoll ∧ q.update (updateOperation c) { c with index := kAdded } = .ok p' := by
  unfold updateChannel at h
  unfold updateOperation
  split at h
  · rename_i hidx
    simp only [bind_eq_ok, pure_eq_ok, Except.ok.injEq, Prod.mk.injEq] at h
    obtain ⟨q, hq, p₂, hp, rfl, -⟩ := h
    exact ⟨q, enter_epoll hq, by rw [if_pos hidx]; exact hp⟩
  · rename_i hidx
    simp only [bind_eq_ok, require_eq_ok] at h
    obtain ⟨-, -, -, -, -, hadded, h⟩ := h
    have hsame : { c with index := kAdded } = c := by rw [← hadded]
    rw [if_neg hidx, hsame]
    refine ⟨p, rfl, ?_⟩
    split at h
    · rename_i hnone
      simp only [bind_eq_ok, pure_eq_ok, Except.ok.injEq, Prod.mk.injEq] at h
      obtain ⟨p₂, hp, rfl, -⟩ := h
      rw [if_pos hnone]
      exact hp
    · rename_i hnone
      simp only [bind_eq_ok, pure_eq_ok, Except.ok.injEq, Prod.mk.injEq] at h
      obtain ⟨p₂, hp, rfl, -⟩ := h
      rw [if_neg hnone]
      exact hp

/-- `removeOperation` is the call that is made, on the interest list as it was. -/
theorem removeChannel_update {p p' : EPoller} {c c' : Channel} (h : p.removeChannel c = .ok (p', c')) :
    ∃ q : EPoller, q.epoll = p.epoll ∧ (∀ operation ∈ removeOperation c, q.update operation c = .ok p') ∧
      (removeOperation c = none → p' = q) := by
  simp only [removeChannel, bind_eq_ok, require_eq_ok, pure_eq_ok, Except.ok.injEq, Prod.mk.injEq] at h
  obtain ⟨-, -, -, -, -, -, -, -, p₁, hp, rfl, -⟩ := h
  refine ⟨{ p with channels := Function.update p.channels c.fd none }, rfl, ?_⟩
  unfold removeOperation
  by_cases hidx : c.index = kAdded
  · rw [if_pos hidx] at hp ⊢
    exact ⟨fun _ hop => Option.some.inj hop ▸ hp, by simp⟩
  · rw [if_neg hidx] at hp ⊢
    exact ⟨by simp, fun _ => (Except.ok.inj hp).symm⟩

/-! ## What they do -/

/-- **What `updateChannel` does**: the descriptor ends up with the channel's mask in the interest list,
    except that a registered channel with no events leaves it. -/
theorem updateChannel_cases {p p' : EPoller} {c c' : Channel} (h : p.updateChannel c = .ok (p', c')) :
    c' = { c with index := c'.index } ∧
    ((c.index = kAdded ∧ c.events = ∅ ∧ c'.index = kDeleted ∧ p'.epoll c.fd = none) ∨
      ((c.index = kAdded → c.events ≠ ∅) ∧ c'.index = kAdded ∧
        p'.epoll c.fd = some (c.events, c.self))) := by
  unfold updateChannel at h
  split at h
  · rename_i hidx
    have hne : c.index ≠ kAdded := by
      rcases hidx with hidx | hidx <;> rw [hidx] <;> decide
    simp only [bind_eq_ok, update, pure_eq_ok, Except.ok.injEq, Prod.mk.injEq] at h
    obtain ⟨p₁, -, p₂, ⟨-, -, rfl⟩, rfl, rfl⟩ := h
    exact ⟨rfl, .inr ⟨fun heq => absurd heq hne, rfl, by simp⟩⟩
  · simp only [bind_eq_ok, require_eq_ok] at h
    obtain ⟨-, -, -, -, -, hidx, h⟩ := h
    split at h
    · rename_i hnone
      simp only [update, pure_eq_ok, ok_bind, Except.ok.injEq, Prod.mk.injEq] at h
      obtain ⟨rfl, rfl⟩ := h
      exact ⟨rfl, .inl ⟨hidx, Channel.isNoneEvent_iff.mp hnone, rfl, by simp⟩⟩
    · rename_i hnone
      simp only [bind_eq_ok, update, pure_eq_ok, Except.ok.injEq, Prod.mk.injEq] at h
      obtain ⟨p₂, ⟨-, -, rfl⟩, rfl, rfl⟩ := h
      exact ⟨rfl, .inr ⟨fun _ hempty => hnone (Channel.isNoneEvent_iff.mpr hempty), hidx, by simp⟩⟩

theorem removeChannel_cases {p p' : EPoller} {c c' : Channel} (h : p.removeChannel c = .ok (p', c')) :
    c' = { c with index := kNew } ∧ c.events = ∅ ∧
      (c.index = kAdded ∧ p'.epoll c.fd = none ∨ c.index = kDeleted ∧ p'.epoll = p.epoll) := by
  simp only [removeChannel, bind_eq_ok, require_eq_ok, pure_eq_ok, Except.ok.injEq, Prod.mk.injEq] at h
  obtain ⟨-, -, -, -, -, hnone, -, hidx, p₁, hp, rfl, rfl⟩ := h
  refine ⟨rfl, Channel.isNoneEvent_iff.mp hnone, ?_⟩
  rcases hidx with hidx | hidx
  · simp only [hidx, if_true, update, pure_eq_ok, Except.ok.injEq] at hp
    subst hp
    exact .inl ⟨hidx, by simp⟩
  · have hne : ¬ c.index = kAdded := by rw [hidx]; decide
    simp only [hne, if_false, Except.ok.injEq] at hp
    subst hp
    exact .inr ⟨hidx, rfl⟩

end EPoller

end Irono
