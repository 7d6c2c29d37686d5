import Irono.Net.Correctness.PollerIndex
import Irono.Net.Correctness.PollerRegistry

/-!
# `Net.Correctness.PollResults` — what a `poll` activates

`poll(2)` writes to every entry of the vector, and `fillActiveChannels` finds the channels by the descriptors
of those entries it wrote something to (`Answered`: nothing to a disabled entry). Positions and entries match
(`Indexed`), so it finds each of these channels, once, in the order of the vector, and nothing else
(`poll_exact`).

`epoll_wait` reports as many descriptors as `events_` has room for, and the vector doubles when it was filled.
`EPollRun` adds its size to the registry: `polled_soundly`.
-/

namespace Irono

open Transition

/-! ## `poll(2)` -/

namespace Poller

/-- What `poll(2)` may report of an entry besides what it is asked for. -/
def kAlways : Events := {.POLLERR, .POLLHUP, .POLLNVAL}

/-- What `poll(2)` writes to an entry. -/
def Answered (pfd : PollFd) (revents : Events) : Prop :=
  (pfd.fd < 0 → revents = ∅) ∧ revents ⊆ pfd.events ∪ kAlways

instance (pfd : PollFd) (revents : Events) : Decidable (Answered pfd revents) := inferInstanceAs (Decidable (_ ∧ _))

variable {p : Poller} {heap : Addr → Option Channel} {c : Channel} {pfd : PollFd} {revents : Events}

/-- What one entry activates. -/
def activated (p : Poller) : PollFd × Events → Option (Addr × Events)
  | (pfd, revents) => if revents ≠ ∅ then (p.channels pfd.fd).map (·, revents) else none

/-- **`fillActiveChannels`**, where the entries that `poll(2)` wrote to are those of known channels. -/
theorem fillActiveChannels_eq : ∀ (polled : List (PollFd × Events)) {numEvents : Nat},
    polled.countP (·.2 ≠ ∅) ≤ numEvents →
    (∀ x ∈ polled, x.2 ≠ ∅ → ∃ a c, p.channels x.1.fd = some a ∧ heap a = some c ∧ c.fd = x.1.fd) →
    p.fillActiveChannels heap numEvents polled = .ok (polled.filterMap p.activated)
  | [], numEvents, _, _ => by cases numEvents <;> rfl
  | (pfd, revents) :: rest, numEvents, hcount, hknown => by
    have hrest : ∀ x ∈ rest, x.2 ≠ ∅ →
        ∃ a c, p.channels x.1.fd = some a ∧ heap a = some c ∧ c.fd = x.1.fd :=
      fun x hx => hknown x (List.mem_cons_of_mem _ hx)
    by_cases hne : revents ≠ ∅
    · obtain ⟨a, c, hk, hc, hfd⟩ := hknown _ List.mem_cons_self hne
      rw [List.countP_cons_of_pos (by simpa using hne)] at hcount
      obtain ⟨n, rfl⟩ : ∃ n, numEvents = n + 1 := ⟨numEvents - 1, by omega⟩
      have ih := fillActiveChannels_eq rest (Nat.le_of_succ_le_succ hcount) hrest
      have hk' : p.channels pfd.fd = some a := hk
      rw [fillActiveChannels, if_pos hne, hk']
      simp only [hc, require_of hfd, ok_bind, ih, pure_eq_ok]
      rw [List.filterMap_cons_some (b := (a, revents))]
      simp [activated, hne, hk']
    · rw [List.countP_cons_of_neg (by simpa using hne)] at hcount
      have hskip : p.activated (pfd, revents) = none := if_neg hne
      rw [List.filterMap_cons_none hskip, ← fillActiveChannels_eq rest hcount hrest]
      cases numEvents with
      | zero =>
        -- nothing is left of the count, and nothing is left to be found
        cases rest <;> rfl
      | succ n => rw [fillActiveChannels, if_neg hne]

/-- An entry that is not disabled is that of the channel it has the descriptor of. -/
theorem Indexed.channel_of_entry (h : Indexed p heap) {i : Nat} (hp : p.pollfds[i]? = some pfd) (hpos : 0 ≤ pfd.fd) :
    ∃ a c, heap a = some c ∧ p.channels pfd.fd = some a ∧ c.fd = pfd.fd ∧ c.index = i ∧
      c.events = pfd.events := by
  obtain ⟨a, c, hc, hk, hidx⟩ := h.covered i (List.getElem?_eq_some_iff.mp hp).1
  obtain ⟨-, pfd', hp', hfd, hevents⟩ := h.known_self hc hk
  rw [hidx, Int.toNat_natCast, hp, Option.some.injEq] at hp'
  subst hp'
  have hc0 := h.nonneg a c hc
  have heq : c.fd = pfd.fd := by omega
  exact ⟨a, c, hc, heq ▸ hk, heq, hidx, hevents.symm⟩

end Poller

namespace PollerChannels

open Poller

variable {s : PollerChannels} {revents : List Events}

/-- **What a `poll` should activate**: of the registered channels those whose entries were written to. -/
structure Activates (s : PollerChannels) (revents : List Events) (active : List (Addr × Events)) : Prop where
  mem : ∀ a r, (a, r) ∈ active ↔ r ≠ ∅ ∧ ∃ c ∈ s.registered, c.self = a ∧
    revents[c.index.toNat]? = some r
  /-- in the order of the vector, so that none comes twice -/
  order : active.Pairwise fun x y => ∀ c d, s.channels x.1 = some c → s.channels y.1 = some d → c.index < d.index
  /-- for something it asks for, or that is always reported -/
  asked : ∀ a r, (a, r) ∈ active → ∀ c, s.channels a = some c → r ⊆ c.events ∪ kAlways
  /-- a disabled entry keeps its channel silent, whatever the channel asks for now -/
  silent : ∀ c ∈ s.registered, (∃ pfd, s.poller.pollfds[c.index.toNat]? = some pfd ∧ pfd.fd < 0) →
    ∀ r, (c.self, r) ∉ active

/-- The entries and what was written to them, by position. -/
theorem answered_get (hr : List.Forall₂ Answered s.poller.pollfds revents) {i : Nat} {pfd : PollFd} {r : Events}
    (hz : (s.poller.pollfds.zip revents)[i]? = some (pfd, r)) :
    s.poller.pollfds[i]? = some pfd ∧ revents[i]? = some r ∧ Answered pfd r := by
  obtain ⟨hp, hr'⟩ := List.getElem?_zip_eq_some.mp hz
  refine ⟨hp, hr', ?_⟩
  obtain ⟨hi, rfl⟩ := List.getElem?_eq_some_iff.mp hp
  obtain ⟨hj, rfl⟩ := List.getElem?_eq_some_iff.mp hr'
  exact hr.get hi hj

/-- The channel that an entry activates. -/
theorem activated_eq_some (h : s.poller.Indexed s.channels) (hr : List.Forall₂ Answered s.poller.pollfds revents)
    {i : Nat} {x : PollFd × Events} (hz : (s.poller.pollfds.zip revents)[i]? = some x) (hne : x.2 ≠ ∅) :
    ∃ a c, s.channels a = some c ∧ s.poller.channels x.1.fd = some a ∧ c.fd = x.1.fd ∧ c.index = i ∧
      s.poller.activated x = some (a, x.2) := by
  obtain ⟨pfd, r⟩ := x
  obtain ⟨hp, -, hneg, -⟩ := answered_get hr hz
  have hpos : 0 ≤ pfd.fd := by
    by_contra hlt
    exact hne (hneg (not_le.mp hlt))
  obtain ⟨a, c, hc, hk, hfd, hidx, -⟩ := h.channel_of_entry hp hpos
  refine ⟨a, c, hc, hk, hfd, hidx, ?_⟩
  have hne' : r ≠ ∅ := hne
  simp [activated, hne', hk]

/-- The entry of a registered channel, and what was written to it. -/
theorem answered_registered (h : s.poller.Indexed s.channels) (hr : List.Forall₂ Answered s.poller.pollfds revents)
    {c : Channel} (hc : c ∈ s.registered) {r : Events} (hget : revents[c.index.toNat]? = some r) :
    ∃ pfd, (s.poller.pollfds.zip revents)[c.index.toNat]? = some (pfd, r) ∧ PollFd.For pfd c ∧ Answered pfd r := by
  obtain ⟨-, pfd, hp, hfor⟩ := entry_of_registered h hc
  have hz : (s.poller.pollfds.zip revents)[c.index.toNat]? = some (pfd, r) :=
    List.getElem?_zip_eq_some.mpr ⟨hp, hget⟩
  exact ⟨pfd, hz, hfor, (answered_get hr hz).2.2⟩

theorem mem_activated (h : s.poller.Indexed s.channels) (hr : List.Forall₂ Answered s.poller.pollfds revents)
    (a : Addr) (r : Events) : (a, r) ∈ (s.poller.pollfds.zip revents).filterMap s.poller.activated ↔
      r ≠ ∅ ∧ ∃ c ∈ s.registered, c.self = a ∧ revents[c.index.toNat]? = some r := by
  rw [List.mem_filterMap]
  constructor
  · rintro ⟨⟨pfd, r'⟩, hx, hact⟩
    obtain ⟨i, hi⟩ := List.mem_iff_getElem?.mp hx
    have hne : r' ≠ ∅ := by
      rintro rfl
      cases hact
    obtain ⟨b, c, hc, hk, hfd, hidx, hact'⟩ := activated_eq_some h hr hi hne
    obtain ⟨rfl, rfl⟩ := Prod.mk.inj (Option.some.inj (hact.symm.trans hact'))
    refine ⟨hne, c, mem_registered h hc ?_, h.self a c hc, ?_⟩
    · rw [hfd]
      exact hk
    · rw [hidx, Int.toNat_natCast]
      exact (answered_get hr hi).2.1
  · rintro ⟨hne, c, hc, rfl, hget⟩
    obtain ⟨pfd, hz, hfor, hans⟩ := answered_registered h hr hc hget
    refine ⟨(pfd, r), List.mem_of_getElem? hz, ?_⟩
    have hfd : pfd.fd = c.fd := by
      have hpos := h.nonneg _ c hc.1
      have hneg : ¬ pfd.fd < 0 := fun hlt => hne (hans.1 hlt)
      have hfor' := hfor.1
      omega
    simp [activated, hne, hfd, hc.2]

theorem activates_of_indexed (h : s.poller.Indexed s.channels)
    (hr : List.Forall₂ Answered s.poller.pollfds revents) :
    s.Activates revents ((s.poller.pollfds.zip revents).filterMap s.poller.activated) := by
  constructor
  case mem => exact mem_activated h hr
  case order =>
    rw [List.pairwise_filterMap, List.pairwise_iff_getElem]
    intro i j hi hj hlt x hx y hy c d hc hd
    -- the entry at a position activates the channel with this index
    have hindex : ∀ {k : Nat} (hk : k < (s.poller.pollfds.zip revents).length) {z : Addr × Events} {e : Channel},
        s.poller.activated (s.poller.pollfds.zip revents)[k] = some z → s.channels z.1 = some e → e.index = k := by
      intro k hk z e hz he
      have hne : ((s.poller.pollfds.zip revents)[k]).2 ≠ ∅ := by
        intro hnil
        rw [activated, if_neg (by simpa using hnil)] at hz
        cases hz
      obtain ⟨b, e', he', -, -, hidx, hact⟩ := activated_eq_some h hr (List.getElem?_eq_getElem hk) hne
      obtain rfl := Option.some.inj (hz.symm.trans hact)
      rw [he', Option.some.injEq] at he
      exact he ▸ hidx
    rw [hindex hi hx hc, hindex hj hy hd]
    exact Int.ofNat_lt.mpr hlt
  case asked =>
    intro a r hin c hc
    obtain ⟨-, c', hc', rfl, hget⟩ := (mem_activated h hr a r).mp hin
    obtain ⟨pfd, -, hfor, hans⟩ := answered_registered h hr hc' hget
    obtain rfl := Option.some.inj (hc.symm.trans hc'.1)
    exact hfor.2 ▸ hans.2
  case silent =>
    rintro c hc ⟨pfd, hp, hneg⟩ r hin
    obtain ⟨hne, c', hc', hself, hget⟩ := (mem_activated h hr c.self r).mp hin
    have hsame := hc'.1
    rw [hself, hc.1, Option.some.injEq] at hsame
    subst hsame
    obtain ⟨pfd', hz, -, hans⟩ := answered_registered h hr hc hget
    rw [(List.getElem?_zip_eq_some.mp hz).1, Option.some.injEq] at hp
    subst hp
    exact hne (hans.1 hneg)

/-- **A `poll` activates what it should**, in every run, and no assert of `fillActiveChannels` fails. -/
theorem poll_exact (h : pollerChannels.Reachable s) (hr : List.Forall₂ Answered s.poller.pollfds revents) :
    ∃ active, s.poller.poll s.channels (some revents) = .ok active ∧ s.Activates revents active := by
  have hindexed := indexed_of_reachable h
  refine ⟨_, fillActiveChannels_eq _ ?_ ?_, activates_of_indexed hindexed hr⟩
  · have hsnd : (s.poller.pollfds.zip revents).map Prod.snd = revents :=
      List.map_snd_zip (le_of_eq hr.length_eq.symm)
    conv_rhs => rw [← hsnd, List.countP_map]
    exact le_of_eq rfl
  · intro x hx hne
    obtain ⟨i, hi⟩ := List.mem_iff_getElem?.mp hx
    obtain ⟨a, c, hc, hk, hfd, -⟩ := activated_eq_some hindexed hr hi hne
    exact ⟨a, c, hk, hc, hfd⟩

/-- Descriptors 0, 5 and 6, of which the last is disabled: the first is readable, the second hung up. -/
theorem poll_exact_sample : ∃ s : PollerChannels, s.poller.poll s.channels (some [{.POLLIN}, {.POLLHUP}, ∅]) =
    .ok [(10, {.POLLIN}), (20, {.POLLHUP})] ∧
      s.Activates [{.POLLIN}, {.POLLHUP}, ∅] [(10, {.POLLIN}), (20, {.POLLHUP})] := by
  obtain ⟨s, hs, hp⟩ := System.Reach.of_exec (S := pollerChannels)
    (s := ⟨Poller.new, fun a => if a = 10 then some (Channel.new 10 0) else
      if a = 20 then some (Channel.new 20 5) else if a = 30 then some (Channel.new 30 6) else none⟩)
    (l := [.update 10 Channel.kReadEvent, .update 20 Channel.kReadEvent, .update 30 Channel.kReadEvent, .update 30 ∅])
    (p := fun s => decide (s.poller.pollfds =
        [⟨0, Channel.kReadEvent⟩, ⟨5, Channel.kReadEvent⟩, ⟨-7, ∅⟩] ∧
      (s.poller.poll s.channels (some [{.POLLIN}, {.POLLHUP}, ∅])).toOption = some [(10, {.POLLIN}), (20, {.POLLHUP})]))
    (.init ⟨rfl, by grind [Channel.new], by grind [Channel.new]⟩) (by decide +kernel)
  obtain ⟨hentries, hpolled⟩ := of_decide_eq_true hp
  have hanswered : List.Forall₂ Answered s.poller.pollfds [{.POLLIN}, {.POLLHUP}, ∅] := by
    rw [hentries]
    exact .cons (by decide) (.cons (by decide) (.cons (by decide) .nil))
  obtain ⟨active, hactive, hact⟩ := poll_exact hs hanswered
  rw [hactive, Except.toOption, Option.some.injEq] at hpolled
  subst hpolled
  exact ⟨s, hactive, hact⟩

end PollerChannels

/-! ## `epoll_wait` -/

/-- A poller with its channels, and the size of `events_`. -/
structure EPollRun where
  registry : PollerRegistry
  events : Nat

namespace EPollRun

def kInitEventListSize : Nat := 16

inductive Fault where
  | registry (f : PollerRegistry.Fault)
  /-- `static_cast<size_t>(numEvents) <= events_.size()` -/
  | tooMany
  deriving DecidableEq, Repr

/-- The steps; `ready` are the descriptors that are ready, in the order of the kernel's list. -/
inductive Label where
  | update (a : Addr) (m : PollerRegistry.Member)
  | removeChannel (a : Addr)
  | poll (ready : List (Int × Events))

/-- What the kernel can have in its list: each descriptor of the interest list once, with a reason. -/
def Ready (s : EPollRun) (ready : List (Int × Events)) : Prop :=
  (ready.map Prod.fst).Nodup ∧ ∀ x ∈ ready, x.2 ≠ ∅ ∧ ∃ e ∈ s.registry.poller.epoll x.1,
    x.2 ⊆ e.1 ∪ Poller.kAlways

instance (s : EPollRun) (ready : List (Int × Events)) : Decidable (s.Ready ready) := inferInstanceAs (Decidable (_ ∧ _))

/-- What `epoll_wait` returns: as much as there is room for. -/
def reported (s : EPollRun) (ready : List (Int × Events)) : List (Int × Events) := ready.take s.events

/-- `poll`, with the channels that it activates. -/
def poll (s : EPollRun) (ready : List (Int × Events)) : Result Fault (EPollRun × List (Addr × Events)) := do
  let numEvents := (s.reported ready).length
  if 0 < numEvents then
    require (numEvents ≤ s.events) .tooMany
    let active ← (s.registry.fillActiveChannels (s.reported ready)).mapFault .registry
    return ({ s with events := if numEvents = s.events then s.events * 2 else s.events }, active)
  else return (s, [])

def step (s : EPollRun) : Label → Result Fault EPollRun
  | .update a m => do
    let registry ← (s.registry.step (.update a m)).mapFault .registry
    return { s with registry := registry }
  | .removeChannel a => do
    let registry ← (s.registry.step (.removeChannel a)).mapFault .registry
    return { s with registry := registry }
  | .poll ready => do
    enabled (s.Ready ready)
    let (s, _) ← s.poll ready
    return s

end EPollRun

/-- Any channels with different descriptors, just constructed, in a poller just constructed. -/
def ePollRun : System EPollRun EPollRun.Label EPollRun.Fault where
  init := fun s => pollerRegistry.init s.registry ∧ s.events = EPollRun.kInitEventListSize
  step := EPollRun.step

/-! ### What is activated -/

namespace PollerRegistry

variable {s s' : PollerRegistry} {l : Label}

/-- **`fillActiveChannels`**, for descriptors of the interest list: their channels. -/
theorem fillActiveChannels_eq (h : Registered s.poller s.channels) : ∀ reported : List (Int × Events),
    (∀ x ∈ reported, ∃ e, s.poller.epoll x.1 = some e) →
    s.fillActiveChannels reported = .ok (reported.filterMap fun x => (s.poller.epoll x.1).map fun e => (e.2, x.2))
  | [], _ => rfl
  | (fd, revents) :: rest, hwatched => by
    obtain ⟨⟨events, ptr⟩, he⟩ := hwatched _ List.mem_cons_self
    have ih := fillActiveChannels_eq h rest fun x hx => hwatched x (List.mem_cons_of_mem _ hx)
    have he' : s.poller.epoll fd = some (events, ptr) := he
    obtain ⟨c, hc, rfl, -, hknown⟩ := h.deref he'
    have hne : s.poller.channels c.fd ≠ none := by rw [hknown]; simp
    unfold fillActiveChannels
    simp only [he', hc, require_of hne, require_of hknown, ok_bind, ih, pure_eq_ok]
    rw [List.filterMap_cons_some (b := (ptr, revents))]
    simp [he']

/-- The steps make no channels and take none away. -/
theorem channels_step (hs : s.step l = .ok s') : {a | s'.channels a ≠ none} = {a | s.channels a ≠ none} := by
  rcases step_channel hs with ⟨-, rfl⟩ | ⟨a, c, c', hc, hchannels, -⟩
  · rfl
  · ext b
    show s'.channels b ≠ none ↔ s.channels b ≠ none
    rw [hchannels]
    by_cases hb : b = a
    · subst hb
      rw [Function.update_self, hc]
      simp
    · rw [Function.update_of_ne hb]

/-- Different descriptors of the interest list are those of different channels. -/
theorem length_le_encard (h : Registered s.poller s.channels) {reported : List (Int × Events)}
    (hnodup : (reported.map Prod.fst).Nodup) (hwatched : ∀ x ∈ reported, ∃ e, s.poller.epoll x.1 = some e) :
    (reported.length : ℕ∞) ≤ {a | s.channels a ≠ none}.encard := by
  let channel (fd : Int) : Addr := ((s.poller.epoll fd).map Prod.snd).getD 0
  have hderef : ∀ fd ∈ reported.map Prod.fst, ∃ c, s.channels (channel fd) = some c ∧ c.fd = fd := by
    intro fd hfd
    obtain ⟨x, hx, rfl⟩ := List.mem_map.mp hfd
    obtain ⟨⟨events, ptr⟩, he⟩ := hwatched x hx
    obtain ⟨c, hc, hcfd, -⟩ := h.deref he
    exact ⟨c, by simp only [channel, he, Option.map_some, Option.getD_some]; exact hc, hcfd⟩
  have hmaps : Set.MapsTo channel (reported.map Prod.fst).toFinset {a | s.channels a ≠ none} := by
    intro fd hfd
    obtain ⟨c, hc, -⟩ := hderef fd (List.mem_toFinset.mp hfd)
    show s.channels (channel fd) ≠ none
    rw [hc]
    simp
  have hinj : Set.InjOn channel (reported.map Prod.fst).toFinset := by
    intro fd hfd fd' hfd' heq
    obtain ⟨c, hc, rfl⟩ := hderef fd (List.mem_toFinset.mp hfd)
    obtain ⟨c', hc', rfl⟩ := hderef fd' (List.mem_toFinset.mp hfd')
    rw [heq, hc', Option.some.injEq] at hc
    rw [hc]
  have hle := Set.encard_le_encard_of_injOn hmaps hinj
  rwa [Set.encard_coe_eq_coe_finsetCard, List.toFinset_card_of_nodup hnodup, List.length_map] at hle

end PollerRegistry

namespace EPollRun

variable {s s' : EPollRun} {l : Label} {ready : List (Int × Events)}

/-- **What a `poll` does.** -/
structure Polls (s : EPollRun) (ready : List (Int × Events)) (s' : EPollRun) (active : List (Addr × Events)) :
    Prop where
  registry : s'.registry = s.registry
  /-- the channels of what is reported, each once -/
  mem : ∀ a r, (a, r) ∈ active ↔ ∃ c, s.registry.channels a = some c ∧ (c.fd, r) ∈ s.reported ready
  once : (active.map Prod.fst).Nodup
  /-- for something they ask for, or that is always reported -/
  asked : ∀ a r, (a, r) ∈ active → ∀ c, s.registry.channels a = some c → r ⊆ c.events ∪ Poller.kAlways
  /-- all that is ready, if there is room; if the room was just enough, or too little, there is twice as much next -/
  whole : ready.length ≤ s.events → s.reported ready = ready
  grows : s'.events = if s.events ≤ ready.length then s.events * 2 else s.events

/-- Between any two steps. -/
structure Sound (s : EPollRun) : Prop where
  registered : Registered s.registry.poller s.registry.channels
  size : ∃ k, s.events = kInitEventListSize * 2 ^ k
  /-- never more than twice as much room as there are channels -/
  bound : ∀ n : Nat, {a | s.registry.channels a ≠ none}.encard ≤ n → s.events ≤ max kInitEventListSize (2 * n)

theorem Ready.watched (h : s.Ready ready) : ∀ x ∈ s.reported ready, ∃ e, s.registry.poller.epoll x.1 = some e := by
  intro x hx
  obtain ⟨-, e, he, -⟩ := h.2 x (List.mem_of_mem_take hx)
  exact ⟨e, he⟩

theorem Ready.nodup (h : s.Ready ready) : ((s.reported ready).map Prod.fst).Nodup := by
  rw [reported, List.map_take]
  exact h.1.sublist (List.take_sublist ..)

/-- What is reported, as the channels of the descriptors. -/
theorem polls_reported (h : s.Sound) (hready : s.Ready ready) : s.Polls ready
    { s with events := if s.events ≤ ready.length then s.events * 2 else s.events }
    ((s.reported ready).filterMap fun x => (s.registry.poller.epoll x.1).map fun e => (e.2, x.2)) := by
  have hmem : ∀ a r, (a, r) ∈ ((s.reported ready).filterMap fun x =>
      (s.registry.poller.epoll x.1).map fun e => (e.2, x.2)) ↔
      ∃ x ∈ s.reported ready, ∃ e, s.registry.poller.epoll x.1 = some e ∧ e.2 = a ∧ x.2 = r := by
    intro a r
    rw [List.mem_filterMap]
    refine exists_congr fun x => and_congr_right fun _ => ?_
    rw [Option.map_eq_some_iff]
    refine exists_congr fun e => and_congr_right fun _ => ?_
    rw [Prod.mk.injEq]
  constructor
  case registry => rfl
  case mem =>
    intro a r
    rw [hmem]
    constructor
    · rintro ⟨x, hx, ⟨events, ptr⟩, he, rfl, rfl⟩
      obtain ⟨c, hc, hfd, -⟩ := h.registered.deref he
      refine ⟨c, hc, ?_⟩
      rw [hfd]
      exact hx
    · rintro ⟨c, hc, hin⟩
      obtain ⟨⟨events, ptr⟩, he⟩ := hready.watched _ hin
      obtain ⟨d, hd, hfd, -⟩ := h.registered.deref he
      exact ⟨_, hin, _, he, h.registered.distinct _ _ _ _ hd hc hfd, rfl⟩
  case once =>
    have hne := hready.nodup
    rw [List.Nodup, List.pairwise_map] at hne ⊢
    rw [List.pairwise_filterMap]
    refine hne.imp fun hxy z hz w hw heq => hxy ?_
    obtain ⟨⟨events, ptr⟩, he, rfl⟩ := Option.map_eq_some_iff.mp hz
    obtain ⟨⟨events', ptr'⟩, he', rfl⟩ := Option.map_eq_some_iff.mp hw
    obtain rfl : ptr = ptr' := heq
    obtain ⟨c, hc, hfd, -⟩ := h.registered.deref he
    obtain ⟨d, hd, hfd', -⟩ := h.registered.deref he'
    rw [hc, Option.some.injEq] at hd
    rw [← hfd, ← hfd', hd]
  case asked =>
    intro a r hin c hc
    obtain ⟨x, hx, ⟨events, ptr⟩, he, rfl, rfl⟩ := (hmem a r).mp hin
    obtain ⟨d, hd, -, hevents, -⟩ := h.registered.deref he
    obtain rfl := Option.some.inj (hc.symm.trans hd)
    obtain ⟨-, e, he', hsub⟩ := hready.2 x (List.mem_of_mem_take hx)
    obtain rfl := Option.some.inj (he.symm.trans he')
    rw [hevents]
    exact hsub
  case whole => exact List.take_of_length_le
  case grows => rfl

theorem Sound.pos (h : s.Sound) : 0 < s.events := by
  obtain ⟨k, hk⟩ := h.size
  rw [hk]
  exact Nat.mul_pos (by decide) (Nat.two_pow_pos k)

theorem poll_polls (h : s.Sound) (hready : s.Ready ready) : ∃ s' active, s.poll ready = .ok (s', active) ∧
    s.Polls ready s' active := by
  refine ⟨_, _, ?_, polls_reported h hready⟩
  have hpos := h.pos
  have hlen : (s.reported ready).length = min s.events ready.length := List.length_take
  by_cases hsome : 0 < (s.reported ready).length
  · have hfill := PollerRegistry.fillActiveChannels_eq h.registered _ hready.watched
    have hfull : (s.reported ready).length = s.events ↔ s.events ≤ ready.length := by omega
    have hroom : (s.reported ready).length ≤ s.events := by omega
    unfold poll
    simp only [hsome, if_true, require_of hroom, ok_bind, hfill, Result.mapFault, hfull, pure_eq_ok]
  · have hnil : ready = [] := List.length_eq_zero_iff.mp (by omega)
    subst hnil
    have hroom : ¬ s.events ≤ ([] : List (Int × Events)).length := Nat.not_le.mpr hpos
    simp only [poll, hsome, if_false, if_neg hroom, pure_eq_ok]
    simp [reported]

theorem sound_registry (h : s.Sound) {a : PollerRegistry.Label} {registry : PollerRegistry}
    (hs : s.registry.step a = .ok registry) : { s with registry := registry }.Sound := by
  refine ⟨PollerRegistry.registered_step h.registered hs, h.size, fun n hn => h.bound n ?_⟩
  rwa [← PollerRegistry.channels_step hs]

theorem sound_step (h : s.Sound) (hs : s.step l = .ok s') : s'.Sound := by
  cases l with
  | update a m =>
    simp only [step, bind_eq_ok, Result.mapFault_eq_ok, pure_eq_ok, Except.ok.injEq] at hs
    obtain ⟨registry, hs, rfl⟩ := hs
    exact sound_registry h hs
  | removeChannel a =>
    simp only [step, bind_eq_ok, Result.mapFault_eq_ok, pure_eq_ok, Except.ok.injEq] at hs
    obtain ⟨registry, hs, rfl⟩ := hs
    exact sound_registry h hs
  | poll ready =>
    simp only [step, bind_eq_ok, enabled_eq_ok, Prod.exists, pure_eq_ok, Except.ok.injEq] at hs
    obtain ⟨-, hready, s₁, active, hpoll, rfl⟩ := hs
    obtain ⟨s₂, active', hpoll', hpolls⟩ := poll_polls h hready
    obtain ⟨rfl, rfl⟩ := Prod.mk.inj (Except.ok.inj (hpoll.symm.trans hpoll'))
    refine ⟨hpolls.registry ▸ h.registered, ?_, fun n hn => ?_⟩
    · obtain ⟨k, hk⟩ := h.size
      rw [hpolls.grows, hk]
      split
      · exact ⟨k + 1, by rw [pow_succ, mul_assoc]⟩
      · exact ⟨k, rfl⟩
    · rw [hpolls.registry] at hn
      have hbound := h.bound n hn
      rw [hpolls.grows]
      split
      · -- the vector was filled, by as many channels
        rename_i hfull
        have hle := PollerRegistry.length_le_encard h.registered hready.nodup hready.watched
        have hlen : (s.reported ready).length = s.events := by rw [reported, List.length_take]; omega
        rw [hlen] at hle
        have hcast : s.events ≤ n := Nat.cast_le.mp (hle.trans hn)
        omega
      · exact hbound

theorem sound_of_reachable (h : ePollRun.Reachable s) : s.Sound := by
  refine h.invariant (I := Sound) (fun s h0 => ?_) (fun _ _ _ _ hI _ hs => sound_step hI hs)
  obtain ⟨⟨hp, hnew, hdistinct⟩, hevents⟩ := h0
  refine ⟨?_, ⟨0, hevents⟩, fun n _ => ?_⟩
  · rw [hp]
    exact .new hnew hdistinct
  · rw [hevents]
    exact le_max_left _ _

/-- **`epoll_wait` loses nothing**: no assert fails, and the vector grows with what is ready, not beyond. -/
theorem polled_soundly (h : ePollRun.Reachable s) : s.Sound ∧ ∀ ready, s.Ready ready →
    ∃ s' active, s.poll ready = .ok (s', active) ∧ s.Polls ready s' active := by
  have hsound := sound_of_reachable h
  exact ⟨hsound, fun ready hready => poll_polls hsound hready⟩

/-- Two channels, one of them readable. -/
theorem polled_soundly_sample : ∃ s : EPollRun, s.Sound ∧ ∃ s' active, s.poll [(5, {.POLLIN})] = .ok (s', active) ∧
    s.Polls [(5, {.POLLIN})] s' active := by
  obtain ⟨s, hs, hp⟩ := System.Reach.of_exec (S := ePollRun)
    (s := ⟨⟨EPoller.new, fun a => if a = 10 then some (Channel.new 10 5) else
      if a = 20 then some (Channel.new 20 6) else none⟩, 16⟩)
    (l := [.update 10 .enableReading, .update 20 .enableWriting, .poll [(6, {.POLLOUT})]])
    (p := fun s => decide (s.Ready [(5, {.POLLIN})]))
    (.init ⟨⟨rfl, by grind [Channel.new], by grind [Channel.new]⟩, rfl⟩) (by decide +kernel)
  obtain ⟨hsound, hpoll⟩ := polled_soundly hs
  exact ⟨s, hsound, hpoll _ (of_decide_eq_true hp)⟩

end EPollRun

end Irono
