import Irono.Net.Correctness.PollerIndex
import Irono.Net.Correctness.WatchedChannels

/-!
# `Net.Correctness.Multiplexers` — `Poller` and `EPoller` watch the same

What `Poller` keeps in a vector is a map from channels to entries (`Poller.entry`). `EPoller` watches the
channels that have events. So does `Poller`, but for one thing: an entry that was disabled keeps its
complemented descriptor when the channel gets events again, and the kernel then ignores it (`reenabled`).

`multiplexers_agree`: the two agree as long as no channel gets events while its entry is disabled (`Kept`).
-/

namespace Irono

open Transition

/-! ## The two side by side -/

/-- The channels of a loop with a `Poller`, and the same channels in a loop with an `EPoller`. -/
structure Multiplexers where
  poller : Poller
  channels : Addr → Option Channel
  epoller : PollerRegistry

namespace Multiplexers

inductive Fault where
  | poller (f : Poller.Fault)
  | epoller (f : PollerRegistry.Fault)
  deriving DecidableEq, Repr

/-- A call on the channel at an address, made in both loops. -/
inductive Label where
  | update (a : Addr) (m : PollerRegistry.Member)
  | removeChannel (a : Addr)
  deriving DecidableEq

def step (s : Multiplexers) : Label → Result Fault Multiplexers
  | .update a m =>
    match s.channels a with
    | none => throw .blocked
    | some channel => do
      let (poller, channel) ← (s.poller.updateChannel (m.apply channel)).mapFault .poller
      let epoller ← (s.epoller.step (.update a m)).mapFault .epoller
      return { poller := poller, channels := Function.update s.channels a (some channel), epoller := epoller }
  | .removeChannel a =>
    match s.channels a with
    | none => throw .blocked
    | some channel => do
      let (poller, channels) ← (s.poller.removeChannel s.channels channel).mapFault .poller
      let epoller ← (s.epoller.step (.removeChannel a)).mapFault .epoller
      return { poller := poller, channels := channels, epoller := epoller }

/-- The kernel is asked to watch the same descriptors for the same events, as far as there are any. -/
def Agree (s : Multiplexers) : Prop := ∀ fd mask, mask ≠ ∅ →
  (0 ≤ fd ∧ ⟨fd, mask⟩ ∈ s.poller.pollfds ↔ ∃ a, s.epoller.poller.epoll fd = some (mask, a))

/-- **The condition on a step**: a channel gets events only while its entry is not disabled. -/
def Kept (s : Multiplexers) : Label → Prop
  | .update a m => ∀ c ∈ s.channels a, 0 ≤ c.index → (m.apply c).events ≠ ∅ →
      ∀ pfd ∈ s.poller.pollfds[c.index.toNat]?, 0 ≤ pfd.fd
  | .removeChannel _ => True

instance (s : Multiplexers) : (l : Label) → Decidable (s.Kept l)
  | .update a _ => inferInstanceAs (Decidable (∀ c ∈ s.channels a, _ → _ →
      ∀ pfd ∈ s.poller.pollfds[c.index.toNat]?, _))
  | .removeChannel _ => isTrue trivial

end Multiplexers

/-- Any channels with different descriptors, just constructed, and the two just constructed. -/
def multiplexers : System Multiplexers Multiplexers.Label Multiplexers.Fault where
  init := fun s => s.poller = Poller.new ∧ pollerRegistry.init s.epoller ∧ s.channels = s.epoller.channels ∧
    ∀ a c, s.channels a = some c → 0 ≤ c.fd
  step := Multiplexers.step

namespace Multiplexers

variable {s s' : Multiplexers} {l : Label}

/-- What the two have in common of a channel. -/
def shared (c : Channel) : Int × Events := (c.fd, c.events)

/-- What holds whatever is called. -/
structure Matched (s : Multiplexers) : Prop where
  indexed : s.poller.Indexed s.channels
  registered : Registered s.epoller.poller s.epoller.channels
  unwatched : s.epoller.Unwatched
  same : ∀ a, (s.channels a).map shared = (s.epoller.channels a).map shared

/-- A disabled entry is of a channel without events. -/
def Awake (s : Multiplexers) : Prop :=
  ∀ a pfd, s.poller.entry s.channels a = some pfd → pfd.fd < 0 → pfd.events = ∅

/-- A channel with events is in the interest list. -/
theorem Matched.epoll_eq (h : s.Matched) {a : Addr} {c : Channel} (hc : s.channels a = some c) (hne : c.events ≠ ∅) :
    s.epoller.poller.epoll c.fd = some (c.events, a) := by
  have hsame := h.same a
  rw [hc, Option.map_some, eq_comm, Option.map_eq_some_iff] at hsame
  obtain ⟨d, hd, heq⟩ := hsame
  obtain ⟨hfd, hevents⟩ := Prod.mk.inj heq
  refine (h.registered.watched _ _ _).mpr ⟨d, hd, hfd, ?_, hevents⟩
  by_contra hidx
  exact hne (hevents ▸ h.unwatched a d hd hidx)

/-- The entry of a channel with events, if it is not disabled. -/
theorem Matched.agree_iff (h : s.Matched) : s.Agree ↔ s.Awake := by
  constructor
  · intro hagree a pfd he hneg
    by_contra hne
    obtain ⟨c, hc, -, hfor⟩ := h.indexed.entry_for he
    have hc0 := h.indexed.nonneg a c hc
    have hevents : c.events ≠ ∅ := hfor.2 ▸ hne
    -- the entry that `EPoller` asks for is another one of the same channel
    obtain ⟨-, hin⟩ := (hagree c.fd c.events hevents).mpr ⟨a, h.epoll_eq hc hevents⟩
    obtain ⟨b, hb⟩ := h.indexed.mem_pollfds.mp hin
    obtain ⟨d, hd, -, hfd, -⟩ := h.indexed.entry_for hb
    have hd0 := h.indexed.nonneg b d hd
    have hfd' : d.fd = c.fd := by rcases hfd with hfd | hfd <;> dsimp only at hfd <;> omega
    obtain rfl := h.indexed.distinct b a d c hd hc hfd'
    rw [he, Option.some.injEq] at hb
    subst hb
    exact absurd hneg (not_lt.mpr hc0)
  · intro hawake fd mask hmask
    constructor
    · rintro ⟨hpos, hin⟩
      obtain ⟨a, he⟩ := h.indexed.mem_pollfds.mp hin
      obtain ⟨c, hc, -, hfd, hevents⟩ := h.indexed.entry_for he
      have hc0 := h.indexed.nonneg a c hc
      have hfd' : c.fd = fd := by rcases hfd with hfd | hfd <;> dsimp only at hfd <;> omega
      dsimp only at hevents
      refine ⟨a, ?_⟩
      rw [hevents, ← hfd']
      exact h.epoll_eq hc (hevents ▸ hmask)
    · rintro ⟨a, he⟩
      obtain ⟨d, hd, rfl, -, rfl⟩ := (h.registered.watched _ _ _).mp he
      have hsame := h.same a
      rw [hd, Option.map_some, Option.map_eq_some_iff] at hsame
      obtain ⟨c, hc, heq⟩ := hsame
      obtain ⟨hfd, hevents⟩ := Prod.mk.inj heq
      rw [← hevents] at hmask
      rw [← hfd, ← hevents]
      have hk : s.poller.channels c.fd = some a := by
        by_contra hk
        exact hmask (h.indexed.unknown a c hc hk)
      obtain ⟨-, pfd, hp, hfor⟩ := h.indexed.known_self hc hk
      have hentry : s.poller.entry s.channels a = some pfd := Poller.entry_eq_some.mpr ⟨c, hc, hk, hp⟩
      have hc0 := h.indexed.nonneg a c hc
      have hpfd : pfd = ⟨c.fd, c.events⟩ := by
        have hon : pfd.fd = c.fd := by
          refine hfor.1.resolve_right fun hneg => hmask ?_
          rw [← hfor.2]
          exact hawake a pfd hentry (by omega)
        obtain ⟨fd', events'⟩ := pfd
        exact congrArg₂ PollFd.mk hon hfor.2
      exact ⟨hc0, hpfd ▸ h.indexed.mem_pollfds.mpr ⟨a, hentry⟩⟩

/-- The members set the events by the events alone. -/
theorem apply_shared (m : PollerRegistry.Member) {c d : Channel} (h : shared c = shared d) :
    shared (m.apply c) = shared (m.apply d) := by
  obtain ⟨hfd, hevents⟩ := Prod.mk.inj h
  have hfd' : (m.apply c).fd = (m.apply d).fd := by
    rw [m.apply_eq c, m.apply_eq d]
    exact hfd
  have hevents' : (m.apply c).events = (m.apply d).events := by
    cases m <;> simp only [PollerRegistry.Member.apply, Channel.enableReading, Channel.enableWriting,
      Channel.disableWriting, Channel.disableAll, hevents]
  exact congrArg₂ Prod.mk hfd' hevents'

/-- **What a step does**, on both sides. -/
theorem step_cases (hs : s.step l = .ok s') : ∃ a c, s.channels a = some c ∧
    ((∃ m c', l = .update a m ∧ s.poller.updateChannel (m.apply c) = .ok (s'.poller, c') ∧
        s'.channels = Function.update s.channels a (some c') ∧ s.epoller.step (.update a m) = .ok s'.epoller) ∨
      l = .removeChannel a ∧ s.poller.removeChannel s.channels c = .ok (s'.poller, s'.channels) ∧
        s.epoller.step (.removeChannel a) = .ok s'.epoller) := by
  cases l with
  | update a m =>
    simp only [step] at hs
    cases hc : s.channels a with
    | none => rw [hc] at hs; cases hs
    | some c =>
      rw [hc] at hs
      simp only [bind_eq_ok, Result.mapFault_eq_ok, Prod.exists, pure_eq_ok, Except.ok.injEq] at hs
      obtain ⟨p, c', hu, r, hr, rfl⟩ := hs
      exact ⟨a, c, hc, .inl ⟨m, c', rfl, hu, rfl, hr⟩⟩
  | removeChannel a =>
    simp only [step] at hs
    cases hc : s.channels a with
    | none => rw [hc] at hs; cases hs
    | some c =>
      rw [hc] at hs
      simp only [bind_eq_ok, Result.mapFault_eq_ok, Prod.exists, pure_eq_ok, Except.ok.injEq] at hs
      obtain ⟨p, heap, hrem, r, hr, rfl⟩ := hs
      exact ⟨a, c, hc, .inr ⟨rfl, hrem, hr⟩⟩

/-- The same call sets the same events. -/
theorem Matched.same_update (h : s.Matched) {a : Addr} {m : PollerRegistry.Member} {c c' : Channel} {p : Poller}
    {r : PollerRegistry} (hc : s.channels a = some c) (hu : s.poller.updateChannel (m.apply c) = .ok (p, c'))
    (hr : s.epoller.step (.update a m) = .ok r) (b : Addr) :
    (Function.update s.channels a (some c') b).map shared = (r.channels b).map shared := by
  rcases PollerRegistry.step_channel hr with ⟨⟨_, heq⟩, -⟩ |
      ⟨a', d, d', hd, hchannels, ⟨m', heq, hup⟩ | ⟨heq, -⟩⟩
  · cases heq
  · cases heq
    have hcd : shared c = shared d := by
      have hsame := h.same a
      rwa [hc, hd, Option.map_some, Option.map_some, Option.some.injEq] at hsame
    have hc' : shared c' = shared (m.apply c) := by
      rcases Poller.updateChannel_cases hu with ⟨-, -, rfl, -⟩ | ⟨-, -, rfl, -⟩ <;> rfl
    have hd' : shared d' = shared (m.apply d) := by
      rw [(EPoller.updateChannel_cases hup).1]
      rfl
    rw [hchannels]
    by_cases hb : b = a
    · subst hb
      rw [Function.update_self, Function.update_self, Option.map_some, Option.map_some, hc', hd', apply_shared m hcd]
    · rw [Function.update_of_ne hb, Function.update_of_ne hb]
      exact h.same b
  · cases heq

/-- A removal sets none. -/
theorem Matched.same_remove (h : s.Matched) {a : Addr} {r : PollerRegistry}
    (hr : s.epoller.step (.removeChannel a) = .ok r) (b : Addr) :
    (s.channels b).map shared = (r.channels b).map shared := by
  rcases PollerRegistry.step_channel hr with ⟨⟨_, heq⟩, -⟩ |
      ⟨a', d, d', hd, hchannels, ⟨m', heq, -⟩ | ⟨heq, hrem⟩⟩
  · cases heq
  · cases heq
  · cases heq
    rw [h.same b, hchannels]
    by_cases hb : b = a
    · subst hb
      rw [Function.update_self, hd, (EPoller.removeChannel_cases hrem).1]
      rfl
    · rw [Function.update_of_ne hb]

/-- **One step** keeps the two matched, and changes one entry. -/
theorem matched_step (h : s.Matched) (hs : s.step l = .ok s') : s'.Matched ∧
    ((∃ a m c, l = .update a m ∧ s.channels a = some c ∧ s'.poller.entry s'.channels =
        Function.update (s.poller.entry s.channels) a (some (s.poller.updated (m.apply c)))) ∨
      ∃ a, l = .removeChannel a ∧
        s'.poller.entry s'.channels = Function.update (s.poller.entry s.channels) a none) := by
  obtain ⟨a, c, hc, ⟨m, c', rfl, hu, hchannels, hr⟩ | ⟨rfl, hrem, hr⟩⟩ := step_cases hs
  · have hu' := hu
    rw [m.apply_eq c] at hu'
    obtain ⟨hindexed, hentry⟩ := h.indexed.update hc hu'
    rw [← m.apply_eq c] at hentry
    rw [← hchannels] at hindexed hentry
    refine ⟨⟨hindexed, PollerRegistry.registered_step h.registered hr, PollerRegistry.unwatched_step h.unwatched hr,
      fun b => ?_⟩, .inl ⟨a, m, c, rfl, hc, hentry⟩⟩
    rw [hchannels]
    exact h.same_update hc hu hr b
  · obtain ⟨hindexed, hentry, hshared⟩ := h.indexed.remove hc hrem
    refine ⟨⟨hindexed, PollerRegistry.registered_step h.registered hr, PollerRegistry.unwatched_step h.unwatched hr,
      fun b => ?_⟩, .inr ⟨a, rfl, hentry⟩⟩
    exact (hshared b).trans (h.same_remove hr b)

/-- On the side of `Poller` a run of the two is one of `pollerChannels`: the members of `Channel` are updates. -/
theorem multiplexers_refine_pollerChannels : System.Simulation multiplexers pollerChannels
    fun s t => t = { poller := s.poller, channels := s.channels } := by
  refine ⟨fun s h0 => ?_, fun s t l s' _ hR hs => .inr ?_⟩
  · obtain ⟨hp, ⟨-, hnew, hdistinct⟩, hsame, hnonneg⟩ := h0
    rw [← hsame] at hnew hdistinct
    exact ⟨_, ⟨hp, fun a c hc => ⟨hnew a c hc, hnonneg a c hc⟩, hdistinct⟩, rfl⟩
  · subst hR
    obtain ⟨a, c, hc, ⟨m, c', rfl, hu, hchannels, -⟩ | ⟨rfl, hrem, -⟩⟩ := step_cases hs
    · rw [m.apply_eq c] at hu
      refine ⟨.update a (m.apply c).events, _, ?_, rfl⟩
      simp only [pollerChannels, PollerChannels.step, hc, hu, ok_bind, pure_eq_ok, hchannels]
    · refine ⟨.removeChannel a, _, ?_, rfl⟩
      simp only [pollerChannels, PollerChannels.step, hc, hrem, ok_bind, pure_eq_ok]

/-- The positions of the channels in `Poller` are a bijection here, too. -/
theorem bijective_of_reachable (h : multiplexers.Reachable s) :
    PollerChannels.Bijective { poller := s.poller, channels := s.channels } := by
  obtain ⟨t, ht, rfl⟩ := multiplexers_refine_pollerChannels.reachable h
  exact .of_indexed (PollerChannels.indexed_of_reachable ht)

theorem matched_of_reachable (h : multiplexers.Reachable s) : s.Matched := by
  refine h.invariant (I := Matched) (fun s h0 => ?_) (fun _ _ _ _ hI _ hs => (matched_step hI hs).1)
  obtain ⟨hp, hinit, hsame, hnonneg⟩ := h0
  obtain ⟨hep, hnew, hdistinct⟩ := hinit
  rw [← hsame] at hnew hdistinct
  refine ⟨hp ▸ Poller.Indexed.new (fun a c hc => ⟨hnew a c hc, hnonneg a c hc⟩) hdistinct, ?_,
    PollerRegistry.unwatched_of_reachable (.init ⟨hep, hsame ▸ hnew, hsame ▸ hdistinct⟩), fun a => by rw [hsame]⟩
  rw [hep, ← hsame]
  exact Registered.new hnew hdistinct

/-- **One step** from a state in which the two agree. -/
theorem agree_step_iff (h : s.Matched) (ha : s.Agree) (hs : s.step l = .ok s') : s'.Agree ↔ s.Kept l := by
  obtain ⟨h', hcase⟩ := matched_step h hs
  rw [h'.agree_iff]
  have hawake := h.agree_iff.mp ha
  rcases hcase with ⟨a, m, c, rfl, hc, hentry⟩ | ⟨a, rfl, hentry⟩
  · -- the other entries are as before
    have hone : s'.Awake ↔ ((s.poller.updated (m.apply c)).fd < 0 → (s.poller.updated (m.apply c)).events = ∅) := by
      unfold Awake
      rw [hentry]
      refine ⟨fun hall => hall a _ (Function.update_self ..), fun hnew b pfd hb => ?_⟩
      by_cases hne : b = a
      · subst hne
        rw [Function.update_self, Option.some.injEq] at hb
        exact hb ▸ hnew
      · rw [Function.update_of_ne hne] at hb
        exact hawake b pfd hb
    have hevents : (s.poller.updated (m.apply c)).events = (m.apply c).events := by
      unfold Poller.updated
      split <;> rfl
    have hfd : (m.apply c).fd = c.fd := by rw [m.apply_eq c]
    have hidx : (m.apply c).index = c.index := by rw [m.apply_eq c]
    have hc0 := h.indexed.nonneg a c hc
    have hkept : s.Kept (.update a m) ↔ (0 ≤ c.index → (m.apply c).events ≠ ∅ →
        ∀ pfd ∈ s.poller.pollfds[c.index.toNat]?, 0 ≤ pfd.fd) := by
      simp only [Kept, hc, Option.mem_def, Option.some.injEq, forall_eq']
    rw [hone, hevents, hkept]
    simp only [step, hc, bind_eq_ok, Result.mapFault_eq_ok, Prod.exists] at hs
    obtain ⟨p, c', hu, -⟩ := hs
    rcases Poller.updateChannel_cases hu with ⟨hneg, -⟩ | ⟨hpos, -, -, -, pfd, hp, -, hupd⟩
    · rw [hidx] at hneg
      refine iff_of_true (fun hlt => absurd hlt ?_) fun hpos => absurd hneg (not_lt.mpr hpos)
      unfold Poller.updated
      rw [if_pos (hidx ▸ hneg), hfd]
      exact not_lt.mpr hc0
    · rw [hidx] at hpos hp
      rw [hupd, hp]
      by_cases hnone : (m.apply c).events = ∅
      · exact iff_of_true (fun _ => hnone) fun _ hne => absurd hnone hne
      · have hsome : (m.apply c).isNoneEvent = false := by
          by_contra hn
          exact hnone (Channel.isNoneEvent_iff.mp (by simpa using hn))
        rw [hsome]
        constructor
        · intro hlt _ _ pfd' hpfd'
          obtain rfl : pfd = pfd' := Option.some.inj hpfd'
          exact not_lt.mp fun hneg => hnone (hlt hneg)
        · intro hall hlt
          exact absurd hlt (not_lt.mpr (hall hpos hnone pfd rfl))
  · refine iff_of_true (fun b pfd hb => ?_) trivial
    rw [hentry] at hb
    by_cases hne : b = a
    · subst hne
      rw [Function.update_self] at hb
      cases hb
    · rw [Function.update_of_ne hne] at hb
      exact hawake b pfd hb

/-- **The two multiplexers agree**, in every run in which no channel gets events while its entry is
    disabled. The first call that gives it some makes them disagree. -/
theorem multiplexers_agree (h : multiplexers.Reach Kept s) :
    s.Agree ∧ ∀ l s', s.step l = .ok s' → (s'.Agree ↔ s.Kept l) := by
  have ha : s.Agree := by
    refine h.invariant (I := Agree) (fun s h0 => ?_) (fun s l s' hr hI hk hs => ?_)
    · rw [(matched_of_reachable (s := s) (.init h0)).agree_iff]
      intro a pfd he
      obtain ⟨c, -, hk, -⟩ := Poller.entry_eq_some.mp he
      rw [h0.1] at hk
      cases hk
    · exact (agree_step_iff (matched_of_reachable hr.reachable) hI hs).mpr hk
  exact ⟨ha, fun l s' hs => agree_step_iff (matched_of_reachable h.reachable) ha hs⟩

/-- Channels 10 and 20 with descriptors 5 and 6. -/
def twoChannels : Multiplexers :=
  let channels : Addr → Option Channel := fun a =>
    if a = 10 then some (Channel.new 10 5) else if a = 20 then some (Channel.new 20 6) else none
  { poller := Poller.new, channels := channels, epoller := ⟨EPoller.new, channels⟩ }

theorem twoChannels_init : multiplexers.init twoChannels :=
  ⟨rfl, ⟨rfl, by grind [twoChannels, Channel.new], by grind [twoChannels, Channel.new]⟩, rfl,
    by grind [twoChannels, Channel.new]⟩

/-- The first channel is disabled and removed, and the second moves to its place. -/
theorem multiplexers_agree_sample : ∃ s : Multiplexers,
    s.poller.pollfds = [⟨6, {.POLLIN, .POLLPRI, .POLLOUT}⟩] ∧ s.Agree := by
  obtain ⟨s, hr, hp⟩ := System.Reach.of_execWhile (S := multiplexers) (C := Kept)
    (l := [.update 10 .enableReading, .update 20 .enableReading, .update 10 .disableAll, .removeChannel 10,
      .update 20 .enableWriting])
    (p := fun s => decide (s.poller.pollfds = [⟨6, {.POLLIN, .POLLPRI, .POLLOUT}⟩])) (.init twoChannels_init)
    (by decide +kernel)
  exact ⟨s, of_decide_eq_true hp, (multiplexers_agree hr).1⟩

/-- `disableAll`, then `enableReading`: the entry keeps the descriptor -6. -/
theorem reenabled : ∃ s : Multiplexers, multiplexers.Reachable s ∧
    s.poller.pollfds = [⟨-6, {.POLLIN, .POLLPRI}⟩] ∧
    s.epoller.poller.epoll 5 = some ({.POLLIN, .POLLPRI}, 10) ∧ ¬ s.Agree := by
  obtain ⟨s, hr, hp⟩ := System.Reach.of_exec (S := multiplexers)
    (l := [.update 10 .enableReading, .update 10 .disableAll, .update 10 .enableReading])
    (p := fun s => decide (s.poller.pollfds = [⟨-6, {.POLLIN, .POLLPRI}⟩] ∧
      s.epoller.poller.epoll 5 = some ({.POLLIN, .POLLPRI}, 10))) (.init twoChannels_init) (by decide +kernel)
  obtain ⟨hpollfds, hepoll⟩ := of_decide_eq_true hp
  refine ⟨s, hr, hpollfds, hepoll, fun hagree => ?_⟩
  obtain ⟨-, hin⟩ := (hagree 5 {.POLLIN, .POLLPRI} (by decide)).mpr ⟨10, hepoll⟩
  rw [hpollfds, List.mem_singleton] at hin
  cases hin

end Multiplexers

end Irono
