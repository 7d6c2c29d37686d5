import Irono.Net.Poller

/-!
# `Net.Correctness.PollerIndex` — positions and entries of `Poller`

`index_` says where in `pollfds_` the entry of a channel is, and `removeChannel` moves the last entry into
the hole: it has nothing but the descriptor of that entry, complemented or not, to find the channel that
has to be told. `Indexed` says that positions and entries match. `updateChannel` sets one entry and
`removeChannel` takes one away, whatever the swap does to the positions (`Indexed.update`, `Indexed.remove`).

`pollerChannels` is the system of a poller and its channels; in all its states the positions of the
registered channels are a bijection onto those of the vector (`index_bijective`).
-/

namespace Irono

open Transition

/-! ## The vector as a map -/

namespace Poller

/-- The entry of the channel at `a`. -/
def entry (p : Poller) (heap : Addr → Option Channel) (a : Addr) : Option PollFd :=
  (heap a).bind fun c => if p.channels c.fd = some a then p.pollfds[c.index.toNat]? else none

/-- An entry is for the descriptor `fd`, or disabled. -/
def PollFd.For (pfd : PollFd) (c : Channel) : Prop :=
  (pfd.fd = c.fd ∨ pfd.fd = -c.fd - 1) ∧ pfd.events = c.events

/-- Positions and entries match, for channels with different descriptors. -/
structure Indexed (p : Poller) (heap : Addr → Option Channel) : Prop where
  self : ∀ a c, heap a = some c → c.self = a
  distinct : ∀ a b c d, heap a = some c → heap b = some d → c.fd = d.fd → a = b
  nonneg : ∀ a c, heap a = some c → 0 ≤ c.fd
  known : ∀ fd a, p.channels fd = some a → ∃ c, heap a = some c ∧ c.fd = fd ∧ 0 ≤ c.index ∧
    ∃ pfd, p.pollfds[c.index.toNat]? = some pfd ∧ PollFd.For pfd c
  covered : ∀ k < p.pollfds.length, ∃ a c, heap a = some c ∧ p.channels c.fd = some a ∧ c.index = k
  /-- a channel that is not on record has no events -/
  unknown : ∀ a c, heap a = some c → p.channels c.fd ≠ some a → c.events = ∅

variable {p p' : Poller} {heap heap' : Addr → Option Channel} {a b : Addr} {c c' d : Channel} {pfd : PollFd}

theorem entry_eq_some : p.entry heap a = some pfd ↔
    ∃ c, heap a = some c ∧ p.channels c.fd = some a ∧ p.pollfds[c.index.toNat]? = some pfd := by
  unfold entry
  rw [Option.bind_eq_some_iff]
  refine exists_congr fun c => and_congr_right fun _ => ?_
  split
  · rename_i hk
    exact ⟨fun hp => ⟨hk, hp⟩, fun hp => hp.2⟩
  · rename_i hk
    exact ⟨fun hp => absurd hp (by simp), fun hp => absurd hp.1 hk⟩

namespace Indexed

theorem new (hnew : ∀ a c, heap a = some c → c = Channel.new a c.fd ∧ 0 ≤ c.fd)
    (hdistinct : ∀ a b c d, heap a = some c → heap b = some d → c.fd = d.fd → a = b) :
    Indexed Poller.new heap := by
  refine ⟨fun a c hc => ?_, hdistinct, fun a c hc => (hnew a c hc).2, fun fd a hp => absurd hp (by simp [Poller.new]),
    fun k hk => absurd hk (by simp [Poller.new]), fun a c hc _ => ?_⟩ <;> rw [(hnew a c hc).1] <;> rfl

/-- The entry of a channel on record. -/
theorem known_self (h : Indexed p heap) (hc : heap a = some c) (hk : p.channels c.fd = some a) :
    0 ≤ c.index ∧ ∃ pfd, p.pollfds[c.index.toNat]? = some pfd ∧ PollFd.For pfd c := by
  obtain ⟨d, hd, -, hrest⟩ := h.known _ _ hk
  rw [hc, Option.some.injEq] at hd
  exact hd ▸ hrest

theorem entry_for (h : Indexed p heap) (he : p.entry heap a = some pfd) :
    ∃ c, heap a = some c ∧ p.channels c.fd = some a ∧ PollFd.For pfd c := by
  obtain ⟨c, hc, hk, hp⟩ := entry_eq_some.mp he
  obtain ⟨-, pfd', hp', hfor⟩ := h.known_self hc hk
  rw [hp, Option.some.injEq] at hp'
  exact ⟨c, hc, hk, hp' ▸ hfor⟩

/-- Every entry is some channel's. -/
theorem mem_pollfds (h : Indexed p heap) : pfd ∈ p.pollfds ↔ ∃ a, p.entry heap a = some pfd := by
  constructor
  · intro hin
    obtain ⟨k, hk⟩ := List.mem_iff_getElem?.mp hin
    obtain ⟨a, c, hc, hknown, hidx⟩ := h.covered k (List.getElem?_eq_some_iff.mp hk).1
    exact ⟨a, entry_eq_some.mpr ⟨c, hc, hknown, by rw [hidx, Int.toNat_natCast]; exact hk⟩⟩
  · rintro ⟨a, he⟩
    obtain ⟨c, -, -, hp⟩ := entry_eq_some.mp he
    exact List.mem_of_getElem? hp

/-- One position is not that of two channels. -/
theorem index_ne (h : Indexed p heap) (hc : heap a = some c) (hk : p.channels c.fd = some a) (hd : heap b = some d)
    (hk' : p.channels d.fd = some b) (hne : b ≠ a) : d.index ≠ c.index := by
  intro heq
  obtain ⟨-, pfd, hp, hfd, -⟩ := h.known_self hc hk
  obtain ⟨-, pfd', hp', hfd', -⟩ := h.known_self hd hk'
  rw [heq, hp, Option.some.injEq] at hp'
  subst hp'
  have hc0 := h.nonneg a c hc
  have hd0 := h.nonneg b d hd
  refine hne (h.distinct b a d c hd hc ?_)
  rcases hfd with hfd | hfd <;> rcases hfd' with hfd' | hfd' <;> omega

theorem fd_ne (h : Indexed p heap) (hc : heap a = some c) (hd : heap b = some d) (hne : b ≠ a) : d.fd ≠ c.fd :=
  fun heq => hne (h.distinct b a d c hd hc heq)

end Indexed

/-! ## Positions move, entries stay -/

/-- The channel `c` at `a` becomes `c'`, with the entry `e` or none, and the others get the positions `f`,
    where they find the entries they had. -/
structure Rearranged (p p' : Poller) (heap heap' : Addr → Option Channel) (a : Addr) (c c' : Channel)
    (e : Option PollFd) (f : Addr → Channel → Int) : Prop where
  self : c'.self = c.self
  fd : c'.fd = c.fd
  changed : heap' a = some c'
  others : ∀ b, b ≠ a → heap' b = (heap b).map fun d => { d with index := f b d }
  channels : p'.channels = Function.update p.channels c.fd (e.map fun _ => a)
  own : ∀ pfd, e = some pfd → 0 ≤ c'.index ∧ p'.pollfds[c'.index.toNat]? = some pfd ∧ PollFd.For pfd c'
  idle : e = none → c'.events = ∅
  found : ∀ b d, b ≠ a → heap b = some d → p.channels d.fd = some b →
    0 ≤ f b d ∧ p'.pollfds[(f b d).toNat]? = p.pollfds[d.index.toNat]?
  covered : ∀ k < p'.pollfds.length, (e ≠ none ∧ c'.index = k) ∨
    ∃ b d, b ≠ a ∧ heap b = some d ∧ p.channels d.fd = some b ∧ f b d = k

namespace Rearranged

variable {e : Option PollFd} {f : Addr → Channel → Int}

theorem channels_self (hr : Rearranged p p' heap heap' a c c' e f) : p'.channels c.fd = e.map fun _ => a := by
  rw [hr.channels, Function.update_self]

theorem channels_of_ne (hr : Rearranged p p' heap heap' a c c' e f) (h : Indexed p heap) (hc : heap a = some c)
    (hne : b ≠ a) (hd : heap b = some d) : p'.channels d.fd = p.channels d.fd := by
  rw [hr.channels, Function.update_of_ne (h.fd_ne hc hd hne)]

theorem get_of_ne (hr : Rearranged p p' heap heap' a c c' e f) (hne : b ≠ a) (hd : heap b = some d) :
    heap' b = some { d with index := f b d } := by
  rw [hr.others b hne, hd, Option.map_some]

/-- A channel, and what it was before. -/
theorem before (hr : Rearranged p p' heap heap' a c c' e f) (hc : heap a = some c) {d' : Channel}
    (hd' : heap' b = some d') : ∃ d, heap b = some d ∧ d'.self = d.self ∧ d'.fd = d.fd := by
  by_cases hne : b = a
  · subst hne
    rw [hr.changed, Option.some.injEq] at hd'
    exact ⟨c, hc, hd' ▸ hr.self, hd' ▸ hr.fd⟩
  · rw [hr.others b hne] at hd'
    obtain ⟨d, hd, rfl⟩ := Option.map_eq_some_iff.mp hd'
    exact ⟨d, hd, rfl, rfl⟩

/-- Positions and entries match again. -/
theorem indexed (hr : Rearranged p p' heap heap' a c c' e f) (h : Indexed p heap) (hc : heap a = some c) :
    Indexed p' heap' := by
  constructor
  case self =>
    intro b d' hd'
    obtain ⟨d, hd, hself, -⟩ := hr.before hc hd'
    rw [hself]
    exact h.self b d hd
  case distinct =>
    intro b₁ b₂ d₁' d₂' hd₁' hd₂' heq
    obtain ⟨d₁, hd₁, -, hfd₁⟩ := hr.before hc hd₁'
    obtain ⟨d₂, hd₂, -, hfd₂⟩ := hr.before hc hd₂'
    exact h.distinct b₁ b₂ d₁ d₂ hd₁ hd₂ (by rw [← hfd₁, heq, hfd₂])
  case nonneg =>
    intro b d' hd'
    obtain ⟨d, hd, -, hfd⟩ := hr.before hc hd'
    rw [hfd]
    exact h.nonneg b d hd
  case known =>
    intro fd b hk
    by_cases hfd : fd = c.fd
    · subst hfd
      rw [hr.channels_self, Option.map_eq_some_iff] at hk
      obtain ⟨pfd, he, rfl⟩ := hk
      obtain ⟨hpos, hp, hfor⟩ := hr.own pfd he
      exact ⟨c', hr.changed, hr.fd, hpos, pfd, hp, hfor⟩
    · rw [hr.channels, Function.update_of_ne hfd] at hk
      obtain ⟨d, hd, hdfd, -, pfd, hp, hfor⟩ := h.known fd b hk
      have hne : b ≠ a := by
        rintro rfl
        rw [hc, Option.some.injEq] at hd
        exact hfd (hd ▸ hdfd.symm)
      obtain ⟨hpos, hfound⟩ := hr.found b d hne hd (hdfd ▸ hk)
      exact ⟨_, hr.get_of_ne hne hd, hdfd, hpos, pfd, hfound.trans hp, hfor⟩
  case covered =>
    intro k hk
    rcases hr.covered k hk with ⟨he, hidx⟩ | ⟨b, d, hne, hd, hkd, hidx⟩
    · obtain ⟨pfd, he⟩ := Option.ne_none_iff_exists'.mp he
      refine ⟨a, c', hr.changed, ?_, hidx⟩
      rw [hr.fd, hr.channels_self, he, Option.map_some]
    · exact ⟨b, _, hr.get_of_ne hne hd, (hr.channels_of_ne h hc hne hd).trans hkd, hidx⟩
  case unknown =>
    intro b d' hd' hk
    by_cases hne : b = a
    · subst hne
      rw [hr.changed, Option.some.injEq] at hd'
      subst hd'
      rw [hr.fd, hr.channels_self] at hk
      cases he : e with
      | none => exact hr.idle he
      | some pfd =>
        rw [he, Option.map_some] at hk
        exact absurd rfl hk
    · rw [hr.others b hne] at hd'
      obtain ⟨d, hd, rfl⟩ := Option.map_eq_some_iff.mp hd'
      have hk' : p'.channels d.fd ≠ some b := hk
      rw [hr.channels_of_ne h hc hne hd] at hk'
      exact h.unknown b d hd hk'

/-- One entry is set, or taken away. -/
theorem entry_eq (hr : Rearranged p p' heap heap' a c c' e f) (h : Indexed p heap) (hc : heap a = some c) :
    p'.entry heap' = Function.update (p.entry heap) a e := by
  funext b
  unfold entry
  by_cases hne : b = a
  · subst hne
    rw [Function.update_self, hr.changed, Option.bind_some, hr.fd, hr.channels_self]
    cases he : e with
    | none => rfl
    | some pfd =>
      rw [Option.map_some, if_pos rfl]
      exact (hr.own pfd he).2.1
  · rw [Function.update_of_ne hne]
    cases hd : heap b with
    | none => rw [hr.others b hne, hd]; rfl
    | some d =>
      rw [hr.get_of_ne hne hd, Option.bind_some, Option.bind_some]
      show (if p'.channels d.fd = _ then _ else _) = _
      rw [hr.channels_of_ne h hc hne hd]
      split
      · rename_i hk
        exact (hr.found b d hne hd hk).2
      · rfl

end Rearranged

/-! ## `updateChannel` -/

/-- The entry that `updateChannel` leaves. -/
def updated (p : Poller) (channel : Channel) : PollFd :=
  if channel.index < 0 then ⟨channel.fd, channel.events⟩
  else ⟨if channel.isNoneEvent then -channel.fd - 1 else ((p.pollfds[channel.index.toNat]?).map PollFd.fd).getD 0,
    channel.events⟩

/-- **What `updateChannel` does.** -/
theorem updateChannel_cases (hu : p.updateChannel c = .ok (p', c')) :
    (c.index < 0 ∧ p.channels c.fd = none ∧ c' = { c with index := p.pollfds.length } ∧
      p' = { pollfds := p.pollfds ++ [p.updated c], channels := Function.update p.channels c.fd (some c.self) }) ∨
    (0 ≤ c.index ∧ p.channels c.fd = some c.self ∧ c' = c ∧
      p' = { p with pollfds := p.pollfds.set c.index.toNat (p.updated c) } ∧ ∃ pfd,
        p.pollfds[c.index.toNat]? = some pfd ∧ (pfd.fd = c.fd ∨ pfd.fd = -c.fd - 1) ∧
          (p.updated c).fd = if c.isNoneEvent then -c.fd - 1 else pfd.fd) := by
  unfold updateChannel at hu
  unfold updated
  split at hu
  · rename_i hneg
    simp only [bind_eq_ok, require_eq_ok, pure_eq_ok, Except.ok.injEq, Prod.mk.injEq] at hu
    obtain ⟨-, hnone, rfl, rfl⟩ := hu
    rw [if_pos hneg]
    exact .inl ⟨hneg, hnone, rfl, rfl⟩
  · rename_i hpos
    simp only [bind_eq_ok, require_eq_ok] at hu
    obtain ⟨-, -, -, hk, hu⟩ := hu
    rw [if_neg hpos]
    cases hp : p.pollfds[c.index.toNat]? with
    | none => rw [hp] at hu; cases hu
    | some pfd =>
      rw [hp] at hu
      simp only [bind_eq_ok, require_eq_ok, pure_eq_ok, Except.ok.injEq, Prod.mk.injEq] at hu
      obtain ⟨-, hfd, rfl, rfl⟩ := hu
      exact .inr ⟨not_lt.mp hpos, hk, rfl, by simp, pfd, rfl, hfd, rfl⟩

/-- `updateChannel` moves nothing, and its channel has an entry. -/
theorem Indexed.placed (h : Indexed p heap) (hc : heap a = some c) {events : Events}
    (hu : p.updateChannel { c with events := events } = .ok (p', c')) :
    Rearranged p p' heap (Function.update heap a (some c')) a c c' (some (p.updated { c with events := events }))
      fun _ d => d.index := by
  have hself := h.self a c hc
  have hothers : ∀ b, b ≠ a → Function.update heap a (some c') b =
      (heap b).map fun d => { d with index := d.index } := by
    intro b hne
    rw [Function.update_of_ne hne]
    exact Option.map_id'.symm
  rcases updateChannel_cases hu with ⟨hneg, hnone, rfl, rfl⟩ | ⟨hpos, hk, rfl, rfl, pfd, hp, hfd, hupd⟩
  · -- a new entry at the end
    have hnone' : p.channels c.fd = none := hnone
    refine ⟨rfl, rfl, Function.update_self .., hothers, by rw [← hself]; rfl, ?_, by simp, ?_, ?_⟩
    · intro pfd' he
      obtain rfl := Option.some.inj he
      refine ⟨Int.natCast_nonneg _, by simp, ?_⟩
      unfold updated
      rw [if_pos hneg]
      exact ⟨.inl rfl, rfl⟩
    · intro b d hne hd hkd
      obtain ⟨hd0, pfd, hp, -⟩ := h.known_self hd hkd
      exact ⟨hd0, List.getElem?_append_left (List.getElem?_eq_some_iff.mp hp).1⟩
    · intro k hlt
      rw [List.length_append, List.length_singleton] at hlt
      by_cases heq : k = p.pollfds.length
      · exact .inl ⟨by simp, by rw [heq]⟩
      · obtain ⟨b, d, hd, hkd, hidx⟩ := h.covered k (by omega)
        refine .inr ⟨b, d, ?_, hd, hkd, hidx⟩
        rintro rfl
        rw [hc, Option.some.injEq] at hd
        rw [← hd, hnone'] at hkd
        cases hkd
  · have hpos' : 0 ≤ c.index := hpos
    have hlt : c.index.toNat < p.pollfds.length := (List.getElem?_eq_some_iff.mp hp).1
    have hka : p.channels c.fd = some a := by rw [← hself]; exact hk
    refine ⟨rfl, rfl, Function.update_self .., hothers, ?_, ?_, by simp, ?_, ?_⟩
    · rw [Option.map_some, ← hka, Function.update_eq_self]
    · intro pfd' he
      obtain rfl := Option.some.inj he
      have hevents : (p.updated { c with events := events }).events = events := by
        unfold updated
        split <;> rfl
      refine ⟨hpos, List.getElem?_set_self hlt, ?_, hevents⟩
      rw [hupd]
      split
      · exact .inr rfl
      · exact hfd
    · intro b d hne hd hkd
      have hidx := h.index_ne hc hka hd hkd hne
      have hd0 := (h.known_self hd hkd).1
      exact ⟨hd0, List.getElem?_set_ne (by show c.index.toNat ≠ _; omega)⟩
    · intro k hk'
      rw [List.length_set] at hk'
      obtain ⟨b, d, hd, hkd, hidx⟩ := h.covered k hk'
      by_cases hne : b = a
      · subst hne
        rw [hc, Option.some.injEq] at hd
        exact .inl ⟨by simp, by rw [← hidx, ← hd]⟩
      · exact .inr ⟨b, d, hne, hd, hkd, hidx⟩

/-- `updateChannel` keeps the positions, and sets the entry of its channel. -/
theorem Indexed.update (h : Indexed p heap) (hc : heap a = some c) {events : Events}
    (hu : p.updateChannel { c with events := events } = .ok (p', c')) :
    Indexed p' (Function.update heap a (some c')) ∧
      p'.entry (Function.update heap a (some c')) =
        Function.update (p.entry heap) a (some (p.updated { c with events := events })) :=
  ⟨(h.placed hc hu).indexed h hc, (h.placed hc hu).entry_eq h hc⟩

/-! ## `removeChannel` -/

/-- **What `removeChannel` does** when the last entry goes, and when it takes the place of another. -/
theorem removeChannel_cases (hr : p.removeChannel heap c = .ok (p', heap')) :
    p.channels c.fd = some c.self ∧ c.events = ∅ ∧ 0 ≤ c.index ∧
      p'.channels = Function.update p.channels c.fd none ∧ ∃ pfd back, p.pollfds[c.index.toNat]? = some pfd ∧
        p.pollfds.getLast? = some back ∧
        (c.index.toNat = p.pollfds.length - 1 ∧ p'.pollfds = p.pollfds.dropLast ∧ heap' = heap ∨
          c.index.toNat ≠ p.pollfds.length - 1 ∧ p'.pollfds = (p.pollfds.set c.index.toNat back).dropLast ∧
            ∃ d, (p'.channels (if back.fd < 0 then -back.fd - 1 else back.fd)).bind heap = some d ∧
              heap' = Function.update heap d.self (some { d with index := c.index.toNat })) := by
  simp only [removeChannel, bind_eq_ok, require_eq_ok] at hr
  obtain ⟨-, -, -, hk, -, hnone, -, hpos, hr⟩ := hr
  split at hr
  · rename_i pfd back hp hback
    simp only [bind_eq_ok, require_eq_ok] at hr
    obtain ⟨-, -, hr⟩ := hr
    refine ⟨hk, Channel.isNoneEvent_iff.mp hnone, hpos, ?_⟩
    unfold dropEntry at hr
    split at hr
    · rename_i hidx
      simp only [pure_eq_ok, Except.ok.injEq, Prod.mk.injEq] at hr
      obtain ⟨rfl, rfl⟩ := hr
      exact ⟨rfl, pfd, back, hp, hback, .inl ⟨hidx, rfl, rfl⟩⟩
    · rename_i hidx
      dsimp only at hr
      cases hd : (Function.update p.channels c.fd none (if back.fd < 0 then -back.fd - 1 else back.fd)).bind heap with
      | none => rw [hd] at hr; cases hr
      | some d =>
        rw [hd] at hr
        simp only [pure_eq_ok, Except.ok.injEq, Prod.mk.injEq] at hr
        obtain ⟨rfl, rfl⟩ := hr
        refine ⟨rfl, pfd, back, hp, hback, .inr ⟨hidx, ?_, d, hd, rfl⟩⟩
        -- what is swapped to the end is dropped
        show ((p.pollfds.set c.index.toNat back).set (p.pollfds.length - 1) pfd).dropLast = _
        apply List.ext_getElem?
        intro k
        simp only [List.getElem?_dropLast, List.length_set]
        split
        · rename_i hlt
          rw [List.getElem?_set_ne (by omega)]
        · rfl
  · cases hr

/-- The channel of the last entry. -/
theorem Indexed.last (h : Indexed p heap) {back : PollFd} (hback : p.pollfds.getLast? = some back) :
    ∃ a c, heap a = some c ∧ p.channels c.fd = some a ∧ c.index = (p.pollfds.length - 1 : Nat) ∧
      (if back.fd < 0 then -back.fd - 1 else back.fd) = c.fd ∧ PollFd.For back c := by
  have hne : p.pollfds ≠ [] := by
    rintro hnil
    rw [hnil] at hback
    cases hback
  have hpos := List.length_pos_iff.mpr hne
  obtain ⟨a, c, hc, hk, hidx⟩ := h.covered (p.pollfds.length - 1) (by omega)
  obtain ⟨-, pfd, hp, hfor⟩ := h.known_self hc hk
  rw [hidx, Int.toNat_natCast, ← List.getLast?_eq_getElem?, hback, Option.some.injEq] at hp
  subst hp
  refine ⟨a, c, hc, hk, hidx, ?_, hfor⟩
  have hnonneg := h.nonneg a c hc
  rcases hfor.1 with hfd | hfd <;> split <;> omega

/-- The last entry goes, and nothing moves. -/
theorem Indexed.dropped (h : Indexed p heap) (hc : heap a = some c) (hk : p.channels c.fd = some a)
    (hnone : c.events = ∅) (hchannels : p'.channels = Function.update p.channels c.fd none)
    (hidx : c.index.toNat = p.pollfds.length - 1) (hpollfds : p'.pollfds = p.pollfds.dropLast) :
    Rearranged p p' heap heap a c c none fun _ d => d.index := by
  obtain ⟨hpos, pfd, hp, -⟩ := h.known_self hc hk
  have hlt := (List.getElem?_eq_some_iff.mp hp).1
  refine ⟨rfl, rfl, hc, fun b _ => Option.map_id'.symm, hchannels, ?_, fun _ => hnone, ?_, ?_⟩
  · intro pfd he
    cases he
  · intro b d hne hd hkd
    obtain ⟨hd0, pfd', hp', -⟩ := h.known_self hd hkd
    have hne' := h.index_ne hc hk hd hkd hne
    have hlt' := (List.getElem?_eq_some_iff.mp hp').1
    refine ⟨hd0, ?_⟩
    rw [hpollfds, List.getElem?_dropLast, if_pos (by omega)]
  · intro k hk'
    rw [hpollfds, List.length_dropLast] at hk'
    obtain ⟨b, d, hd, hkd, hidx'⟩ := h.covered k (by omega)
    refine .inr ⟨b, d, ?_, hd, hkd, hidx'⟩
    rintro rfl
    rw [hc, Option.some.injEq] at hd
    rw [← hd] at hidx'
    omega

/-- The last entry takes the place of another, and its channel, found by the descriptor, is told so. -/
theorem Indexed.swapped (h : Indexed p heap) (hc : heap a = some c) (hk : p.channels c.fd = some a)
    (hnone : c.events = ∅) (hchannels : p'.channels = Function.update p.channels c.fd none)
    (hidx : c.index.toNat ≠ p.pollfds.length - 1) {back : PollFd} (hback : p.pollfds.getLast? = some back)
    (hpollfds : p'.pollfds = (p.pollfds.set c.index.toNat back).dropLast)
    (hd : (p'.channels (if back.fd < 0 then -back.fd - 1 else back.fd)).bind heap = some d) :
    Rearranged p p' heap (Function.update heap d.self (some { d with index := c.index.toNat })) a c c none
      fun b e => if b = d.self then c.index.toNat else e.index := by
  obtain ⟨hpos, pfd, hp, -⟩ := h.known_self hc hk
  have hlt := (List.getElem?_eq_some_iff.mp hp).1
  obtain ⟨b₁, c₁, hc₁, hk₁, hidx₁, hend, -⟩ := h.last hback
  have hne₁ : b₁ ≠ a := by
    rintro rfl
    rw [hc, Option.some.injEq] at hc₁
    rw [← hc₁] at hidx₁
    omega
  rw [hend, hchannels, Function.update_of_ne (h.fd_ne hc hc₁ hne₁), hk₁, Option.bind_some, hc₁,
    Option.some.injEq] at hd
  subst hd
  obtain rfl := h.self b₁ c₁ hc₁
  refine ⟨rfl, rfl, ?_, ?_, hchannels, ?_, fun _ => hnone, ?_, ?_⟩
  · rw [Function.update_of_ne (Ne.symm hne₁), hc]
  · intro b _
    by_cases hb : b = c₁.self
    · subst hb
      rw [Function.update_self, hc₁, Option.map_some, if_pos rfl]
    · rw [Function.update_of_ne hb]
      cases heap b <;> simp [hb]
  · intro pfd he
    cases he
  · intro b d hne hd hkd
    by_cases hb : b = c₁.self
    · subst hb
      rw [hc₁, Option.some.injEq] at hd
      subst hd
      simp only [if_true, Int.toNat_natCast, hidx₁]
      refine ⟨Int.natCast_nonneg _, ?_⟩
      rw [hpollfds, List.getElem?_dropLast, List.length_set, if_pos (by omega), List.getElem?_set_self hlt,
        ← List.getLast?_eq_getElem?, hback]
    · simp only [if_neg hb]
      obtain ⟨hd0, pfd', hp', -⟩ := h.known_self hd hkd
      have hne' := h.index_ne hc hk hd hkd hne
      have hneLast := h.index_ne hc₁ hk₁ hd hkd hb
      have hlt' := (List.getElem?_eq_some_iff.mp hp').1
      refine ⟨hd0, ?_⟩
      rw [hpollfds, List.getElem?_dropLast, List.length_set, if_pos (by omega), List.getElem?_set_ne (by omega)]
  · intro k hk'
    rw [hpollfds, List.length_dropLast, List.length_set] at hk'
    right
    by_cases heq : k = c.index.toNat
    · exact ⟨c₁.self, c₁, hne₁, hc₁, hk₁, by rw [if_pos rfl, heq]⟩
    · obtain ⟨b, d, hd, hkd, hidx'⟩ := h.covered k (by omega)
      refine ⟨b, d, ?_, hd, hkd, ?_⟩
      · rintro rfl
        rw [hc, Option.some.injEq] at hd
        rw [← hd] at hidx'
        omega
      · rw [if_neg, hidx']
        rintro rfl
        rw [hc₁, Option.some.injEq] at hd
        rw [← hd] at hidx'
        omega

/-- `removeChannel` leaves its channel without an entry. -/
theorem Indexed.removed (h : Indexed p heap) (hc : heap a = some c) (hr : p.removeChannel heap c = .ok (p', heap')) :
    ∃ f, Rearranged p p' heap heap' a c c none f := by
  obtain ⟨hk, hnone, -, hchannels, pfd, back, -, hback, hcase⟩ := removeChannel_cases hr
  rw [h.self a c hc] at hk
  rcases hcase with ⟨hidx, hpollfds, rfl⟩ | ⟨hidx, hpollfds, d, hd, rfl⟩
  · exact ⟨_, h.dropped hc hk hnone hchannels hidx hpollfds⟩
  · exact ⟨_, h.swapped hc hk hnone hchannels hidx hback hpollfds hd⟩

/-- `removeChannel` keeps the positions, and takes the entry of its channel away. -/
theorem Indexed.remove (h : Indexed p heap) (hc : heap a = some c) (hr : p.removeChannel heap c = .ok (p', heap')) :
    Indexed p' heap' ∧ p'.entry heap' = Function.update (p.entry heap) a none ∧
      ∀ b, (heap' b).map (fun d => (d.fd, d.events)) = (heap b).map fun d => (d.fd, d.events) := by
  obtain ⟨f, hmoved⟩ := h.removed hc hr
  refine ⟨hmoved.indexed h hc, hmoved.entry_eq h hc, fun b => ?_⟩
  by_cases hne : b = a
  · subst hne
    rw [hmoved.changed, hc]
  · rw [hmoved.others b hne, Option.map_map]
    rfl

/-! ## What may fail -/

/-- The descriptor of a channel is on record for that channel, or not at all. -/
theorem Indexed.channels_fd (h : Indexed p heap) (hc : heap a = some c) :
    p.channels c.fd = none ∨ p.channels c.fd = some a := by
  cases hk : p.channels c.fd with
  | none => exact .inl rfl
  | some b =>
    obtain ⟨d, hd, hfd, -⟩ := h.known _ _ hk
    obtain rfl := h.distinct b a d c hd hc hfd
    exact .inr rfl

/-- **`updateChannel` fails** only on a channel that was removed. -/
theorem Indexed.updateChannel_fault (h : Indexed p heap) (hc : heap a = some c) {events : Events} {f : Fault}
    (hu : p.updateChannel { c with events := events } = .error (.fault f)) : f = .channelUnknown := by
  have hself := h.self a c hc
  unfold updateChannel at hu
  split at hu
  · -- a channel without a position is not on record
    rename_i hneg
    have hnone : p.channels c.fd = none := by
      refine (h.channels_fd hc).resolve_right fun hk => ?_
      exact absurd hneg (not_lt.mpr (h.known_self hc hk).1)
    rw [require_of hnone] at hu
    cases hu
  · rcases h.channels_fd hc with hnone | hk
    · rw [bind_eq_error, require_eq_error] at hu
      rcases hu with ⟨-, heq⟩ | ⟨_, hknown, -⟩
      · exact Stop.fault.inj heq
      · rw [require_eq_ok] at hknown
        exact absurd hnone hknown
    · obtain ⟨-, pfd, hp, hfd, -⟩ := h.known_self hc hk
      have hknown : p.channels c.fd ≠ none := by rw [hk]; simp
      rw [← hself] at hk
      simp only [require_of hknown, require_of hk, ok_bind, hp, require_of hfd] at hu
      cases hu

/-- **`removeChannel` fails** on a channel that is not on record, has events, or was never disabled. The
    channel of the last entry is there. -/
theorem Indexed.removeChannel_fault (h : Indexed p heap) (hc : heap a = some c) {f : Fault}
    (hr : p.removeChannel heap c = .error (.fault f)) : f = .channelUnknown ∨ f = .notNoneEvent ∨
    f = .notDisabled := by
  have hself := h.self a c hc
  unfold removeChannel at hr
  rcases h.channels_fd hc with hnone | hk
  · rw [bind_eq_error, require_eq_error] at hr
    rcases hr with ⟨-, heq⟩ | ⟨_, hknown, -⟩
    · exact .inl (Stop.fault.inj heq)
    · rw [require_eq_ok] at hknown
      exact absurd hnone hknown
  · obtain ⟨hpos, pfd, hp, -⟩ := h.known_self hc hk
    have hknown : p.channels c.fd ≠ none := by rw [hk]; simp
    have hsame : p.channels c.fd = some c.self := by rw [hself]; exact hk
    have hne : p.pollfds ≠ [] := List.ne_nil_of_mem (List.mem_of_getElem? hp)
    have hback := List.getLast?_eq_some_getLast hne
    rw [require_of hknown, ok_bind, require_of hsame, ok_bind, bind_eq_error, require_eq_error] at hr
    rcases hr with ⟨-, heq⟩ | ⟨_, -, hr⟩
    · exact .inr (.inl (Stop.fault.inj heq))
    rw [require_of hpos, ok_bind, hp, hback] at hr
    simp only [bind_eq_error, require_eq_error] at hr
    rcases hr with ⟨-, heq⟩ | ⟨_, -, hr⟩
    · exact .inr (.inr (Stop.fault.inj heq))
    unfold dropEntry at hr
    split at hr
    · cases hr
    · -- the channel that is told its new position is another one
      rename_i hne
      have hidx : c.index.toNat ≠ p.pollfds.length - 1 := hne
      obtain ⟨b, d, hd, hkd, hlast, hend, -⟩ := h.last hback
      have hfd : d.fd ≠ c.fd := by
        intro heq
        obtain rfl := h.distinct b a d c hd hc heq
        rw [hc, Option.some.injEq] at hd
        subst hd
        omega
      simp only [hend, Function.update_of_ne hfd, hkd, Option.bind_some, hd] at hr
      cases hr

end Poller

/-! ## The poller and its channels, as a system -/

/-- A poller and the `Channel` objects of its loop. -/
structure PollerChannels where
  poller : Poller
  channels : Addr → Option Channel

namespace PollerChannels

/-- The owner of a channel sets its `events_` and calls `update()`, or removes it. -/
inductive Label where
  | update (a : Addr) (events : Events)
  | removeChannel (a : Addr)
  deriving DecidableEq

def step (s : PollerChannels) : Label → Result Poller.Fault PollerChannels
  | .update a events =>
    match s.channels a with
    | none => throw .blocked
    | some channel => do
      let (poller, channel) ← s.poller.updateChannel { channel with events := events }
      return { poller := poller, channels := Function.update s.channels a (some channel) }
  | .removeChannel a =>
    match s.channels a with
    | none => throw .blocked
    | some channel => do
      let (poller, channels) ← s.poller.removeChannel s.channels channel
      return { poller := poller, channels := channels }

/-- The channels in `channels_`. -/
def registered (s : PollerChannels) : Set Channel :=
  {c | s.channels c.self = some c ∧ s.poller.channels c.fd = some c.self}

end PollerChannels

/-- Any channels with different descriptors, just constructed, in a poller just constructed. -/
def pollerChannels : System PollerChannels PollerChannels.Label Poller.Fault where
  init := fun s => s.poller = Poller.new ∧
    (∀ a c, s.channels a = some c → c = Channel.new a c.fd ∧ 0 ≤ c.fd) ∧
    ∀ a b c d, s.channels a = some c → s.channels b = some d → c.fd = d.fd → a = b
  step := PollerChannels.step

namespace PollerChannels

variable {s s' : PollerChannels} {l : Label} {c d : Channel}

/-- **One step** keeps positions and entries matched. -/
theorem indexed_step (h : s.poller.Indexed s.channels) (hs : s.step l = .ok s') : s'.poller.Indexed s'.channels := by
  cases l with
  | update a events =>
    simp only [step] at hs
    cases hc : s.channels a with
    | none => rw [hc] at hs; cases hs
    | some c =>
      rw [hc] at hs
      simp only [bind_eq_ok, Prod.exists, pure_eq_ok, Except.ok.injEq] at hs
      obtain ⟨p, c', hu, rfl⟩ := hs
      exact (h.update hc hu).1
  | removeChannel a =>
    simp only [step] at hs
    cases hc : s.channels a with
    | none => rw [hc] at hs; cases hs
    | some c =>
      rw [hc] at hs
      simp only [bind_eq_ok, Prod.exists, pure_eq_ok, Except.ok.injEq] at hs
      obtain ⟨p, heap, hr, rfl⟩ := hs
      exact (h.remove hc hr).1

theorem indexed_of_reachable (h : pollerChannels.Reachable s) : s.poller.Indexed s.channels := by
  apply h.invariant (I := fun s => s.poller.Indexed s.channels)
  · intro s h0
    obtain ⟨hp, hnew, hdistinct⟩ := h0
    rw [hp]
    exact Poller.Indexed.new hnew hdistinct
  · intro _ _ _ _ hI _ hs
    exact indexed_step hI hs

/-! ## The registered channels -/

theorem mem_registered (h : s.poller.Indexed s.channels) {a : Addr} (hc : s.channels a = some c)
    (hk : s.poller.channels c.fd = some a) : c ∈ s.registered := by
  obtain rfl := h.self a c hc
  exact ⟨hc, hk⟩

/-- The position of a registered channel, and its entry. -/
theorem entry_of_registered (h : s.poller.Indexed s.channels) (hc : c ∈ s.registered) :
    0 ≤ c.index ∧ ∃ pfd, s.poller.pollfds[c.index.toNat]? = some pfd ∧ Poller.PollFd.For pfd c :=
  h.known_self hc.1 hc.2

theorem mapsTo_index (h : s.poller.Indexed s.channels) :
    Set.MapsTo Channel.index s.registered (Set.Ico 0 s.poller.pollfds.length) := by
  intro c hc
  obtain ⟨hpos, pfd, hp, -⟩ := entry_of_registered h hc
  have hlt := (List.getElem?_eq_some_iff.mp hp).1
  exact ⟨hpos, by omega⟩

theorem injOn_index (h : s.poller.Indexed s.channels) : Set.InjOn Channel.index s.registered := by
  intro c hc d hd heq
  by_contra hne
  have haddr : d.self ≠ c.self := by
    intro hself
    have hsame := hd.1
    rw [hself, hc.1, Option.some.injEq] at hsame
    exact hne hsame
  exact h.index_ne hc.1 hc.2 hd.1 hd.2 haddr heq.symm

theorem surjOn_index (h : s.poller.Indexed s.channels) :
    Set.SurjOn Channel.index s.registered (Set.Ico 0 s.poller.pollfds.length) := by
  rintro k ⟨hpos, hlt⟩
  obtain ⟨a, c, hc, hk, hidx⟩ := h.covered k.toNat (by omega)
  refine ⟨c, mem_registered h hc hk, ?_⟩
  rw [hidx]
  exact Int.toNat_of_nonneg hpos

theorem bijOn_index (h : s.poller.Indexed s.channels) :
    Set.BijOn Channel.index s.registered (Set.Ico 0 s.poller.pollfds.length) :=
  ⟨mapsTo_index h, injOn_index h, surjOn_index h⟩

/-- The keys of `channels_` are the descriptors of these channels. -/
theorem bijOn_fd (h : s.poller.Indexed s.channels) :
    Set.BijOn Channel.fd s.registered {fd | s.poller.channels fd ≠ none} := by
  refine ⟨fun c hc => ?_, fun c hc d hd heq => ?_, fun fd hfd => ?_⟩
  · show s.poller.channels c.fd ≠ none
    rw [hc.2]
    simp
  · have hself := h.distinct _ _ _ _ hc.1 hd.1 heq
    have hsame := hc.1
    rw [hself, hd.1, Option.some.injEq] at hsame
    exact hsame.symm
  · obtain ⟨a, hk⟩ := Option.ne_none_iff_exists'.mp hfd
    obtain ⟨c, hc, rfl, -⟩ := h.known fd a hk
    exact ⟨c, mem_registered h hc hk, rfl⟩

theorem encard_Ico (n : Nat) : (Set.Ico (0 : Int) n).encard = n := by
  rw [← Finset.coe_Ico, Set.encard_coe_eq_coe_finsetCard, Int.card_Ico, sub_zero, Int.toNat_natCast]

/-- As many keys as entries, for both are as many as these channels. -/
theorem encard_channels (h : s.poller.Indexed s.channels) :
    {fd | s.poller.channels fd ≠ none}.encard = s.poller.pollfds.length := by
  have hfd := bijOn_fd h
  have hindex := bijOn_index h
  calc {fd | s.poller.channels fd ≠ none}.encard
      = s.registered.encard := by rw [← hfd.image_eq, hfd.injOn.encard_image]
    _ = (Set.Ico (0 : Int) s.poller.pollfds.length).encard := by rw [← hindex.image_eq, hindex.injOn.encard_image]
    _ = s.poller.pollfds.length := encard_Ico _

/-- The descriptors bound the positions: where the one is an `int`, so is the other. -/
theorem length_pollfds_le (h : pollerChannels.Reachable s) {n : Nat}
    (hn : ∀ a c, s.channels a = some c → c.fd < n) : s.poller.pollfds.length ≤ n := by
  have hindexed := indexed_of_reachable h
  have hsub : {fd | s.poller.channels fd ≠ none} ⊆ Set.Ico (0 : Int) n := by
    intro fd hfd
    obtain ⟨a, hk⟩ := Option.ne_none_iff_exists'.mp hfd
    obtain ⟨c, hc, rfl, -⟩ := hindexed.known fd a hk
    exact ⟨hindexed.nonneg a c hc, hn a c hc⟩
  have hle := Set.encard_le_encard hsub
  rw [encard_channels hindexed, encard_Ico] at hle
  exact Nat.cast_le.mp hle

/-! ## The result -/

/-- What holds of `pollfds_` and `channels_` between any two steps. -/
structure Bijective (s : PollerChannels) : Prop where
  /-- `channels_` maps a descriptor to the channel that has it -/
  known : ∀ fd a, s.poller.channels fd = some a → ∃ c ∈ s.registered, c.self = a ∧ c.fd = fd
  size : {fd | s.poller.channels fd ≠ none}.encard = s.poller.pollfds.length
  /-- the positions are in range, no two are the same, and none is left out -/
  index : Set.BijOn Channel.index s.registered (Set.Ico 0 s.poller.pollfds.length)
  entry : ∀ c ∈ s.registered, ∃ pfd, s.poller.pollfds[c.index.toNat]? = some pfd ∧
    (pfd.fd = c.fd ∨ pfd.fd = -c.fd - 1) ∧ pfd.events = c.events
  /-- the descriptor of an entry tells whose it is -/
  owner : ∀ pfd ∈ s.poller.pollfds, ∃! c, c ∈ s.registered ∧ (pfd.fd = c.fd ∨ pfd.fd = -c.fd - 1)
  /-- no null pointer is used, and the asserts about positions and entries hold -/
  faults : ∀ l f, s.step l = .error (.fault f) → f = .channelUnknown ∨ f = .notNoneEvent ∨ f = .notDisabled

theorem Bijective.of_indexed (h : s.poller.Indexed s.channels) : s.Bijective := by
  refine ⟨fun fd a hk => ?_, encard_channels h, bijOn_index h, fun c hc => ?_, fun pfd hin => ?_, fun l f hf => ?_⟩
  · obtain ⟨c, hc, rfl, -⟩ := h.known fd a hk
    exact ⟨c, mem_registered h hc hk, h.self a c hc, rfl⟩
  · exact (entry_of_registered h hc).2
  · obtain ⟨a, he⟩ := h.mem_pollfds.mp hin
    obtain ⟨c, hc, hk, hfd, -⟩ := h.entry_for he
    refine ⟨c, ⟨mem_registered h hc hk, hfd⟩, ?_⟩
    rintro d ⟨hd, hfd'⟩
    -- no descriptor is the complement of another
    have hpos := h.nonneg a c hc
    have hpos' := h.nonneg _ d hd.1
    exact (bijOn_fd h).injOn hd (mem_registered h hc hk) (by omega)
  · cases l with
    | update a events =>
      simp only [step] at hf
      cases hc : s.channels a with
      | none => rw [hc] at hf; cases hf
      | some c =>
        simp only [hc, bind_eq_error, pure_eq_ok, reduceCtorEq, and_false, exists_false, or_false] at hf
        exact .inl (h.updateChannel_fault hc hf)
    | removeChannel a =>
      simp only [step] at hf
      cases hc : s.channels a with
      | none => rw [hc] at hf; cases hf
      | some c =>
        simp only [hc, bind_eq_error, pure_eq_ok, reduceCtorEq, and_false, exists_false, or_false] at hf
        exact h.removeChannel_fault hc hf

/-- **The positions are a bijection**, after every step of any run. -/
theorem index_bijective (h : pollerChannels.Reachable s) : s.Bijective := .of_indexed (indexed_of_reachable h)

/-- Descriptors 0, 5 and 6: the first channel goes, and the last one, disabled, moves to its place. -/
theorem index_bijective_moved : ∃ s : PollerChannels,
    s.poller.pollfds = [⟨-7, ∅⟩, ⟨5, Channel.kWriteEvent⟩] ∧
    (s.channels 30).map Channel.index = some 0 ∧ s.Bijective := by
  obtain ⟨s, hr, hp⟩ := System.Reach.of_exec (S := pollerChannels)
    (s := ⟨Poller.new, fun a => if a = 10 then some (Channel.new 10 0) else
      if a = 20 then some (Channel.new 20 5) else if a = 30 then some (Channel.new 30 6) else none⟩)
    (l := [.update 10 Channel.kReadEvent, .update 20 Channel.kReadEvent, .update 30 Channel.kReadEvent, .update 30 ∅,
      .update 10 ∅, .removeChannel 10, .update 20 Channel.kWriteEvent])
    (p := fun s => decide (s.poller.pollfds = [⟨-7, ∅⟩, ⟨5, Channel.kWriteEvent⟩] ∧
      (s.channels 30).map Channel.index = some 0))
    (.init ⟨rfl, by grind [Channel.new], by grind [Channel.new]⟩) (by decide +kernel)
  obtain ⟨hpollfds, hidx⟩ := of_decide_eq_true hp
  exact ⟨s, hpollfds, hidx, index_bijective hr⟩

end PollerChannels

end Irono
