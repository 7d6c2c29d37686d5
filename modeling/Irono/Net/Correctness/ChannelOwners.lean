import Irono.Net.Correctness.PollerRegistry

/-!
# `Net.Correctness.ChannelOwners` — the channels of a poller, by the objects that own them

`Registered` knows a channel by its address. An address says nothing about the object around the channel,
and it comes back when the object is gone. `RegisteredBy` knows channels by their owners, of any type `O`:
what is on record in the poller are the channels of some owners, no two of them at one address.

Four operations move an owner's channel (`update`, `remove`, `create`, `forget`). `live` is what they are
for: a pointer in the poller refers to the channel of an owner.
-/

namespace Irono

open Transition EPoller

variable {O : Type}

/-- The channels on record are those of the owners, which have different addresses. -/
def RegisteredBy (p : EPoller) (chan : O → Option Channel) : Prop :=
  ∃ m, Registered p m ∧ (∀ o c, chan o = some c → m c.self = some c) ∧
    (∀ a c, m a = some c → ∃ o, chan o = some c) ∧
    ∀ o o' c c', chan o = some c → chan o' = some c' → c.self = c'.self → o = o'

namespace RegisteredBy

variable {p p' : EPoller} {chan : O → Option Channel} {o : O} {c c' : Channel}

theorem empty : RegisteredBy EPoller.new (fun _ : O => none) :=
  ⟨fun _ => none, Registered.new (by simp) (by simp), by simp, by simp, by simp⟩

/-- **Pointers in the poller are good**: in `channels_` and in the kernel's list. -/
theorem live (h : RegisteredBy p chan) {fd : Int} {a : Addr} :
    (p.channels fd = some a → ∃ o c, chan o = some c ∧ c.self = a ∧ c.fd = fd) ∧
    ∀ events, p.epoll fd = some (events, a) → ∃ o c, chan o = some c ∧ c.self = a ∧ c.fd = fd := by
  obtain ⟨m, hreg, -, honly, -⟩ := h
  constructor
  · intro hp
    obtain ⟨c, hc, hfd, -⟩ := (hreg.known fd a).mp hp
    obtain ⟨o, ho⟩ := honly a c hc
    exact ⟨o, c, ho, hreg.self a c hc, hfd⟩
  · intro events hp
    obtain ⟨c, hc, hfd, -⟩ := (hreg.watched fd events a).mp hp
    obtain ⟨o, ho⟩ := honly a c hc
    exact ⟨o, c, ho, hreg.self a c hc, hfd⟩

/-- Its descriptor is not in the kernel's list. -/
theorem epoll_fd_eq_none (h : RegisteredBy p chan) (ho : chan o = some c) (hnew : c.index = kNew) :
    p.epoll c.fd = none := by
  obtain ⟨m, hreg, howner, -, -⟩ := h
  rw [hreg.epoll_fd (howner o c ho), hnew, if_neg Registered.kNew_ne_kAdded]

theorem fd_ne (h : RegisteredBy p chan) (ho : chan o = some c) {o' : O} (hne : o' ≠ o) {d : Channel}
    (ho' : chan o' = some d) : d.fd ≠ c.fd ∧ d.self ≠ c.self := by
  obtain ⟨m, hreg, howner, -, hinj⟩ := h
  have haddr : d.self ≠ c.self := fun heq => hne (hinj o' o d c ho' ho heq)
  exact ⟨fun heq => haddr (hreg.distinct _ _ d c (howner o' d ho') (howner o c ho) heq), haddr⟩

variable [DecidableEq O]

/-- The record of one owner's channel is replaced by another at the same address. -/
theorem set (h : RegisteredBy p chan) (ho : chan o = some c) (hself : c'.self = c.self)
    (hreg' : ∀ m, Registered p m → m c.self = some c → Registered p' (Function.update m c.self (some c'))) :
    RegisteredBy p' (Function.update chan o (some c')) := by
  obtain ⟨m, hreg, howner, honly, hinj⟩ := h
  refine ⟨_, hreg' m hreg (howner o c ho), fun o' d hd => ?_, fun a d hd => ?_,
    fun o₁ o₂ c₁ c₂ h₁ h₂ heq => ?_⟩
  · rcases Channel.update_cases hd with ⟨rfl, rfl⟩ | ⟨hne, hd⟩
    · rw [hself, Function.update_self]
    · have haddr : d.self ≠ c.self := fun heq => hne (hinj o' o d c hd ho heq)
      rw [Function.update_of_ne haddr]
      exact howner o' d hd
  · by_cases ha : a = c.self
    · subst ha
      rw [Function.update_self] at hd
      exact ⟨o, by rw [Function.update_self]; exact hd⟩
    · rw [Function.update_of_ne ha] at hd
      obtain ⟨o', ho'⟩ := honly a d hd
      have hne : o' ≠ o := by
        rintro rfl
        rw [ho, Option.some.injEq] at ho'
        exact ha (by rw [ho', hreg.self a d hd])
      exact ⟨o', by rw [Function.update_of_ne hne]; exact ho'⟩
  · rcases Channel.update_cases h₁ with ⟨rfl, rfl⟩ | ⟨hne₁, h₁'⟩ <;>
      rcases Channel.update_cases h₂ with ⟨rfl, rfl⟩ | ⟨hne₂, h₂'⟩
    · rfl
    · exact absurd (hinj o₂ o₁ c₂ c h₂' ho (by rw [← heq, hself])) hne₂
    · exact absurd (hinj o₁ o₂ c₁ c h₁' ho (by rw [heq, hself])) hne₁
    · exact hinj o₁ o₂ c₁ c₂ h₁' h₂' heq

/-- `updateChannel` of an owner's channel. -/
theorem update (h : RegisteredBy p chan) (ho : chan o = some c) {events : Events}
    (hu : p.updateChannel { c with events := events } = .ok (p', c')) :
    c' = { c with events := events, index := c'.index } ∧ c'.index ≠ kNew ∧
      RegisteredBy p' (Function.update chan o (some c')) := by
  obtain ⟨hch, hcase⟩ := updateChannel_cases hu
  have hidx : c'.index ≠ kNew := by
    rcases hcase with ⟨-, -, hidx, -⟩ | ⟨-, hidx, -⟩
    · rw [hidx]; exact Registered.kDeleted_ne_kNew
    · rw [hidx]; exact Registered.kAdded_ne_kNew
  refine ⟨hch, hidx, h.set ho (by rw [hch]) fun m hreg hm => ?_⟩
  exact (hreg.of_updateChannel hm hu).2

/-- `removeChannel` of an owner's channel. -/
theorem remove (h : RegisteredBy p chan) (ho : chan o = some c) (hr : p.removeChannel c = .ok (p', c')) :
    c' = { c with index := kNew } ∧ c.events = ∅ ∧ RegisteredBy p' (Function.update chan o (some c')) := by
  obtain ⟨hch, hnone, -⟩ := removeChannel_cases hr
  refine ⟨hch, hnone, h.set ho (by rw [hch]) fun m hreg hm => ?_⟩
  exact (hreg.of_removeChannel hm hr).2

/-- An owner gets a channel that is not on record, at an address and with a descriptor of its own. -/
theorem create (h : RegisteredBy p chan) (ho : chan o = none) (hnew : c.index = kNew)
    (hfresh : ∀ o' d, chan o' = some d → d.fd ≠ c.fd ∧ d.self ≠ c.self) :
    RegisteredBy p (Function.update chan o (some c)) := by
  obtain ⟨m, hreg, howner, honly, hinj⟩ := h
  have hfree : ∀ a d, m a = some d → a ≠ c.self := by
    intro a d hd heq
    obtain ⟨o', ho'⟩ := honly a d hd
    exact (hfresh o' d ho').2 (by rw [hreg.self a d hd, heq])
  have hreg' : Registered p (Function.update m c.self (some c)) := by
    refine hreg.update_new (fun d hd => absurd rfl (hfree _ d hd)) fun d hd => ?_
    obtain rfl : c = d := Option.some.inj hd
    refine ⟨rfl, hnew, fun b e _ he => ?_⟩
    obtain ⟨o', ho'⟩ := honly b e he
    exact (hfresh o' e ho').1
  refine ⟨_, hreg', fun o' d hd => ?_, fun a d hd => ?_, fun o₁ o₂ c₁ c₂ h₁ h₂ heq => ?_⟩
  · rcases Channel.update_cases hd with ⟨-, rfl⟩ | ⟨-, hd⟩
    · rw [Function.update_self]
    · rw [Function.update_of_ne (hfresh o' d hd).2]
      exact howner o' d hd
  · by_cases ha : a = c.self
    · subst ha
      rw [Function.update_self] at hd
      exact ⟨o, by rw [Function.update_self]; exact hd⟩
    · rw [Function.update_of_ne ha] at hd
      obtain ⟨o', ho'⟩ := honly a d hd
      have hne : o' ≠ o := by
        rintro rfl
        rw [ho] at ho'
        cases ho'
      exact ⟨o', by rw [Function.update_of_ne hne]; exact ho'⟩
  · rcases Channel.update_cases h₁ with ⟨rfl, rfl⟩ | ⟨-, h₁'⟩ <;>
      rcases Channel.update_cases h₂ with ⟨rfl, rfl⟩ | ⟨-, h₂'⟩
    · rfl
    · exact absurd heq.symm (hfresh o₂ c₂ h₂').2
    · exact absurd heq (hfresh o₁ c₁ h₁').2
    · exact hinj o₁ o₂ c₁ c₂ h₁' h₂' heq

/-- An owner gives up a channel that is not on record. -/
theorem forget (h : RegisteredBy p chan) (ho : ∀ c, chan o = some c → c.index = kNew) :
    RegisteredBy p (Function.update chan o none) := by
  obtain ⟨m, hreg, howner, honly, hinj⟩ := h
  have hget : ∀ o' d, Function.update chan o none o' = some d → o' ≠ o ∧ chan o' = some d := by
    intro o' d hd
    by_cases heq : o' = o
    · subst heq
      rw [Function.update_self] at hd
      cases hd
    · rw [Function.update_of_ne heq] at hd
      exact ⟨heq, hd⟩
  cases hco : chan o with
  | none =>
    have hsame : Function.update chan o none = chan := by rw [← hco]; exact Function.update_eq_self o chan
    rw [hsame]
    exact ⟨m, hreg, howner, honly, hinj⟩
  | some c =>
    have hreg' : Registered p (Function.update m c.self none) := by
      refine hreg.update_new (fun d hd => ?_) (by simp)
      rw [howner o c hco, Option.some.injEq] at hd
      exact hd ▸ ho c hco
    refine ⟨_, hreg', fun o' d hd => ?_, fun a d hd => ?_, fun o₁ o₂ c₁ c₂ h₁ h₂ heq => ?_⟩
    · obtain ⟨hne, hd⟩ := hget o' d hd
      have haddr : d.self ≠ c.self := fun heq => hne (hinj o' o d c hd hco heq)
      rw [Function.update_of_ne haddr]
      exact howner o' d hd
    · have ha : a ≠ c.self := by
        rintro rfl
        rw [Function.update_self] at hd
        cases hd
      rw [Function.update_of_ne ha] at hd
      obtain ⟨o', ho'⟩ := honly a d hd
      have hne : o' ≠ o := by
        rintro rfl
        rw [hco, Option.some.injEq] at ho'
        exact ha (by rw [ho', hreg.self a d hd])
      exact ⟨o', by rw [Function.update_of_ne hne]; exact ho'⟩
    · exact hinj o₁ o₂ c₁ c₂ (hget o₁ c₁ h₁).2 (hget o₂ c₂ h₂).2 heq

end RegisteredBy

end Irono
