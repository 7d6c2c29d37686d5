import Irono.Net.EPoller

/-!
# `Net.Correctness.PollerRegistry` — the three records of a registered channel agree

A channel is on record three times: by its `index_`, in `channels_`, and in the kernel's interest list,
where its address is what the next `poll` dereferences. `Registered` says that the three agree, for any
channels with different descriptors; each operation of the poller has one lemma that it keeps this and
cannot fail (`Registered.updateChannel`, `Registered.removeChannel`).

`pollerRegistry` is the system of a poller and its channels; `registry_sound` holds in all its states.
-/

namespace Irono

open Transition

/-! ## The invariant -/

/-- `channels_` maps the descriptors of the channels that are `kAdded` or `kDeleted` to them, and the
    kernel holds those that are `kAdded`, with their masks. -/
structure Registered (p : EPoller) (channels : Addr → Option Channel) : Prop where
  self : ∀ a c, channels a = some c → c.self = a
  distinct : ∀ a b c d, channels a = some c → channels b = some d → c.fd = d.fd → a = b
  index : ∀ a c, channels a = some c →
    c.index = EPoller.kNew ∨ c.index = EPoller.kAdded ∨ c.index = EPoller.kDeleted
  known : ∀ fd a, p.channels fd = some a ↔
    ∃ c, channels a = some c ∧ c.fd = fd ∧ c.index ≠ EPoller.kNew
  watched : ∀ fd events a, p.epoll fd = some (events, a) ↔
    ∃ c, channels a = some c ∧ c.fd = fd ∧ c.index = EPoller.kAdded ∧ c.events = events

namespace Registered

open EPoller

variable {p : EPoller} {channels : Addr → Option Channel} {a : Addr} {c : Channel}

/-- Channels just constructed, in a poller just constructed. -/
theorem new (hnew : ∀ a c, channels a = some c → c = Channel.new a c.fd)
    (hdistinct : ∀ a b c d, channels a = some c → channels b = some d → c.fd = d.fd → a = b) :
    Registered EPoller.new channels := by
  have hidx : ∀ a c, channels a = some c → c.self = a ∧ c.index = kNew := fun a c hc => by
    rw [hnew a c hc]; exact ⟨rfl, rfl⟩
  refine ⟨fun a c hc => (hidx a c hc).1, hdistinct, fun a c hc => .inl (hidx a c hc).2, ?_, ?_⟩
  · intro fd a
    exact ⟨fun hp => absurd hp (by simp [EPoller.new]), fun ⟨c, hc, _, hne⟩ => absurd (hidx a c hc).2 hne⟩
  · intro fd events a
    refine ⟨fun hp => absurd hp (by simp [EPoller.new]), fun ⟨c, hc, _, hadded, _⟩ => ?_⟩
    rw [(hidx a c hc).2] at hadded
    exact absurd hadded (by decide)

/-- The descriptor of a channel is on record for that channel or for none. -/
theorem channels_fd (h : Registered p channels) (hc : channels a = some c) :
    p.channels c.fd = if c.index = kNew then none else some a := by
  split
  · rename_i hnew
    cases hp : p.channels c.fd with
    | none => rfl
    | some b =>
      obtain ⟨d, hd, hfd, hne⟩ := (h.known _ _).mp hp
      have hab := h.distinct b a d c hd hc hfd
      subst hab
      rw [hc, Option.some.injEq] at hd
      exact absurd (hd ▸ hnew) hne
  · rename_i hne
    exact (h.known _ _).mpr ⟨c, hc, rfl, hne⟩

theorem epoll_fd (h : Registered p channels) (hc : channels a = some c) :
    p.epoll c.fd = if c.index = kAdded then some (c.events, a) else none := by
  split
  · rename_i hadded
    exact (h.watched _ _ _).mpr ⟨c, hc, rfl, hadded, rfl⟩
  · rename_i hne
    cases hp : p.epoll c.fd with
    | none => rfl
    | some e =>
      obtain ⟨d, hd, hfd, hadded, -⟩ := (h.watched _ _ _).mp hp
      have hab := h.distinct e.2 a d c hd hc hfd
      subst hab
      rw [hc, Option.some.injEq] at hd
      exact absurd (hd ▸ hadded) hne

/-- What a stored pointer refers to is the channel of that descriptor: `fillActiveChannels` can
    dereference it, and its asserts hold. -/
theorem deref (h : Registered p channels) {fd : Int} {events : Events} (hw : p.epoll fd = some (events, a)) :
    ∃ c, channels a = some c ∧ c.fd = fd ∧ c.events = events ∧ p.channels fd = some a := by
  obtain ⟨c, hc, hfd, hadded, hev⟩ := (h.watched _ _ _).mp hw
  refine ⟨c, hc, hfd, hev, (h.known _ _).mpr ⟨c, hc, hfd, ?_⟩⟩
  rw [hadded]
  decide

/-- The channel of a descriptor, after one channel was replaced by another with the same descriptor. -/
theorem exists_update (h : Registered p channels) (hc : channels a = some c) {c' : Channel}
    (hfd : c'.fd = c.fd) (P : Channel → Prop) (fd : Int) (b : Addr) :
    (∃ d, Function.update channels a (some c') b = some d ∧ d.fd = fd ∧ P d) ↔
      if fd = c.fd then b = a ∧ P c' else ∃ d, channels b = some d ∧ d.fd = fd ∧ P d := by
  by_cases hb : b = a
  · subst hb
    simp only [Function.update_self, Option.some.injEq, exists_eq_left', hfd, hc, eq_comm (a := fd), true_and]
    split
    · rename_i hf
      exact and_iff_right hf
    · rename_i hf
      exact iff_of_false (fun hand => hf hand.1) (fun hand => hf hand.1)
  · rw [Function.update_of_ne hb]
    split
    · rename_i hf
      refine ⟨fun ⟨d, hd, hdf, _⟩ => ?_, fun hand => absurd hand.1 hb⟩
      exact absurd (h.distinct b a d c hd hc (hdf.trans hf)) hb
    · exact Iff.rfl

/-- One channel changes its index and its mask, and the poller the records of its descriptor. -/
theorem set (h : Registered p channels) (hc : channels a = some c) {c' : Channel} {p' : EPoller}
    (hself : c'.self = c.self) (hfd : c'.fd = c.fd)
    (hidx : c'.index = kNew ∨ c'.index = kAdded ∨ c'.index = kDeleted)
    (hch : p'.channels = Function.update p.channels c.fd (if c'.index = kNew then none else some a))
    (hep : p'.epoll = Function.update p.epoll c.fd (if c'.index = kAdded then some (c'.events, a) else none)) :
    Registered p' (Function.update channels a (some c')) := by
  have hget : ∀ b d, Function.update channels a (some c') b = some d →
      b = a ∧ d = c' ∨ channels b = some d := by
    intro b d hd
    exact (Channel.update_cases hd).imp_right And.right
  refine ⟨?_, ?_, ?_, ?_, ?_⟩
  · intro b d hd
    rcases hget b d hd with ⟨rfl, rfl⟩ | hd
    · rw [hself]; exact h.self _ _ hc
    · exact h.self b d hd
  · -- two channels of one descriptor were two before, when one of them is the one that changed
    intro b b' d d' hd hd' heq
    have hold : ∀ b d, Function.update channels a (some c') b = some d →
        ∃ e, channels b = some e ∧ e.fd = d.fd := by
      intro b d hd
      rcases hget b d hd with ⟨rfl, rfl⟩ | hd
      · exact ⟨c, hc, hfd.symm⟩
      · exact ⟨d, hd, rfl⟩
    obtain ⟨e, he, hef⟩ := hold b d hd
    obtain ⟨e', he', hef'⟩ := hold b' d' hd'
    exact h.distinct b b' e e' he he' (hef.trans (heq.trans hef'.symm))
  · intro b d hd
    rcases hget b d hd with ⟨-, rfl⟩ | hd
    · exact hidx
    · exact h.index b d hd
  · intro fd b
    rw [hch, h.exists_update hc hfd (fun d => d.index ≠ kNew)]
    by_cases hf : fd = c.fd
    · subst hf
      by_cases hnew : c'.index = kNew <;> simp [hnew, eq_comm]
    · rw [Function.update_of_ne hf, if_neg hf]
      exact h.known fd b
  · intro fd events b
    rw [hep, h.exists_update hc hfd (fun d => d.index = kAdded ∧ d.events = events)]
    by_cases hf : fd = c.fd
    · subst hf
      by_cases hadded : c'.index = kAdded <;> simp [hadded, and_comm, eq_comm]
    · rw [Function.update_of_ne hf, if_neg hf]
      exact h.watched fd events b

/-! ## The operations -/

theorem kNew_ne_kAdded : ¬ kNew = kAdded := by decide

theorem kDeleted_ne_kNew : ¬ kDeleted = kNew := by decide

theorem kDeleted_ne_kAdded : ¬ kDeleted = kAdded := by decide

theorem kAdded_ne_kNew : ¬ kAdded = kNew := by decide

/-- **`updateChannel` succeeds**, with a call of `epoll_ctl` that is legal, and the records agree again. -/
theorem updateChannel (h : Registered p channels) (hc : channels a = some c) (events : Events) :
    p.Legal c.fd (updateOperation { c with events := events }) ∧
    ∃ p' c', p.updateChannel { c with events := events } = .ok (p', c') ∧
      c' = { c with events := events, index := c'.index } ∧
      Registered p' (Function.update channels a (some c')) := by
  have hchannels := h.channels_fd hc
  have hepoll := h.epoll_fd hc
  have hself := h.self a c hc
  rcases h.index a c hc with hidx | hidx | hidx
  · -- a new channel: entered in `channels_`, then `ADD`
    rw [hidx, if_pos rfl] at hchannels
    rw [hidx, if_neg kNew_ne_kAdded] at hepoll
    refine ⟨?_, { channels := Function.update p.channels c.fd (some a)
                  epoll := Function.update p.epoll c.fd (some (events, a)) },
      { c with events := events, index := kAdded }, ?_, rfl, ?_⟩
    · simp [updateOperation, hidx, Legal, hepoll]
    · simp [EPoller.updateChannel, hidx, enter, require_of hchannels, EPoller.update, require_of hepoll, hself]
    · refine h.set hc rfl rfl (.inr (.inl rfl)) ?_ ?_
      · rw [if_neg kAdded_ne_kNew]
      · rw [if_pos rfl]
  · -- a registered channel: `MOD`, or `DEL` when it has no events left
    rw [hidx, if_neg kAdded_ne_kNew] at hchannels
    rw [hidx, if_pos rfl] at hepoll
    have hknown : p.channels c.fd ≠ none := by rw [hchannels]; simp
    have hsame : p.channels c.fd = some c.self := by rw [hself]; exact hchannels
    have hin : p.epoll c.fd ≠ none := by rw [hepoll]; simp
    have hnot : ¬ (kAdded = kNew ∨ kAdded = kDeleted) := by decide
    have hkeep : Function.update p.channels c.fd (some a) = p.channels := by
      rw [← hchannels]; exact Function.update_eq_self _ _
    by_cases hnone : events = ∅
    · refine ⟨?_, { p with epoll := Function.update p.epoll c.fd none },
        { c with events := events, index := kDeleted }, ?_, rfl, ?_⟩
      · simp [updateOperation, hidx, hnot, Channel.isNoneEvent, Channel.kNoneEvent, hnone, Legal, hin]
      · simp [EPoller.updateChannel, hidx, hnot, Channel.isNoneEvent, Channel.kNoneEvent, hnone,
          require_of hknown, require_of hsame, require_of trivial, EPoller.update]
      · refine h.set hc rfl rfl (.inr (.inr rfl)) ?_ ?_
        · rw [if_neg kDeleted_ne_kNew]; exact hkeep.symm
        · rw [if_neg kDeleted_ne_kAdded]
    · refine ⟨?_, { p with epoll := Function.update p.epoll c.fd (some (events, a)) },
        { c with events := events, index := kAdded }, ?_, rfl, ?_⟩
      · simp [updateOperation, hidx, hnot, Channel.isNoneEvent, Channel.kNoneEvent, hnone, Legal, hin]
      · simp [EPoller.updateChannel, hidx, hnot, Channel.isNoneEvent, Channel.kNoneEvent, hnone,
          require_of hknown, require_of hchannels, require_of trivial, EPoller.update, require_of hin, hself]
      · refine h.set hc rfl rfl (.inr (.inl rfl)) ?_ ?_
        · rw [if_neg kAdded_ne_kNew]; exact hkeep.symm
        · rw [if_pos rfl]
  · -- a channel deleted before: still in `channels_`, and `ADD` again
    rw [hidx, if_neg kDeleted_ne_kNew] at hchannels
    rw [hidx, if_neg kDeleted_ne_kAdded] at hepoll
    have hknown : p.channels c.fd ≠ none := by rw [hchannels]; simp
    refine ⟨?_, { p with epoll := Function.update p.epoll c.fd (some (events, a)) },
      { c with events := events, index := kAdded }, ?_, rfl, ?_⟩
    · simp [updateOperation, hidx, Legal, hepoll]
    · simp [EPoller.updateChannel, hidx, enter, kDeleted_ne_kNew, require_of hknown, require_of hchannels,
        EPoller.update, require_of hepoll, hself]
    · refine h.set hc rfl rfl (.inr (.inl rfl)) ?_ ?_
      · rw [if_neg kAdded_ne_kNew, ← hchannels]; exact (Function.update_eq_self _ _).symm
      · rw [if_pos rfl]

/-- **`removeChannel` succeeds** on a channel on record with no events. -/
theorem removeChannel (h : Registered p channels) (hc : channels a = some c) (hne : c.index ≠ kNew)
    (hnone : c.events = ∅) :
    (∀ operation ∈ removeOperation c, p.Legal c.fd operation) ∧
    ∃ p', p.removeChannel c = .ok (p', { c with index := kNew }) ∧
      Registered p' (Function.update channels a (some { c with index := kNew })) := by
  have hchannels := h.channels_fd hc
  have hepoll := h.epoll_fd hc
  rw [if_neg hne] at hchannels
  have hknown : p.channels c.fd ≠ none := by rw [hchannels]; simp
  have hsame : p.channels c.fd = some c.self := by rw [h.self a c hc]; exact hchannels
  have hidle : c.isNoneEvent = true := Channel.isNoneEvent_iff.mpr hnone
  have hidx : c.index = kAdded ∨ c.index = kDeleted := (h.index a c hc).resolve_left hne
  refine ⟨?_, { channels := Function.update p.channels c.fd none
                epoll := Function.update p.epoll c.fd none }, ?_, ?_⟩
  · intro operation hop
    unfold removeOperation at hop
    split at hop
    · rename_i hadded
      rw [Option.mem_def, Option.some.injEq] at hop
      subst hop
      rw [Legal, hepoll, if_pos hadded]
      simp
    · cases hop
  · simp only [EPoller.removeChannel, require_of hknown, require_of hsame, require_of hidle,
      require_of hidx, ok_bind]
    split
    · simp [EPoller.update]
    · rename_i hadded
      rw [if_neg hadded] at hepoll
      have hgone : Function.update p.epoll c.fd none = p.epoll := by
        rw [← hepoll]; exact Function.update_eq_self _ _
      simp [hgone]
  · refine h.set hc rfl rfl (.inl rfl) ?_ ?_
    · rw [if_pos rfl]
    · rw [if_neg kNew_ne_kAdded]

/-! ## What a call that succeeded leaves -/

theorem of_updateChannel (h : Registered p channels) (hc : channels a = some c) {events : Events}
    {p' : EPoller} {c' : Channel} (hu : p.updateChannel { c with events := events } = .ok (p', c')) :
    c' = { c with events := events, index := c'.index } ∧
      Registered p' (Function.update channels a (some c')) := by
  obtain ⟨-, p₁, c₁, hp, hc₁, hreg⟩ := h.updateChannel hc events
  rw [hp, Except.ok.injEq, Prod.mk.injEq] at hu
  obtain ⟨rfl, rfl⟩ := hu
  exact ⟨hc₁, hreg⟩

theorem of_removeChannel (h : Registered p channels) (hc : channels a = some c) {p' : EPoller}
    {c' : Channel} (hr : p.removeChannel c = .ok (p', c')) :
    c' = { c with index := kNew } ∧ Registered p' (Function.update channels a (some c')) := by
  obtain ⟨-, hnone, hidx⟩ := EPoller.removeChannel_cases hr
  have hne : c.index ≠ kNew := by
    rcases hidx with ⟨hidx, -⟩ | ⟨hidx, -⟩ <;> rw [hidx] <;> decide
  obtain ⟨-, p₁, hp, hreg⟩ := h.removeChannel hc hne hnone
  rw [hp, Except.ok.injEq, Prod.mk.injEq] at hr
  obtain ⟨rfl, rfl⟩ := hr
  exact ⟨rfl, hreg⟩

/-! ## Channels that come and go -/

/-- A channel that is not on record may appear, if its descriptor is free, and disappear. -/
theorem update_new (h : Registered p channels) {v : Option Channel}
    (hold : ∀ c, channels a = some c → c.index = kNew)
    (hnew : ∀ c, v = some c → c.self = a ∧ c.index = kNew ∧
      ∀ b d, b ≠ a → channels b = some d → d.fd ≠ c.fd) :
    Registered p (Function.update channels a v) := by
  -- a channel on record is one of the others
  have hmem : ∀ (P : Channel → Prop), (∀ c, P c → c.index ≠ kNew) → ∀ b,
      (∃ c, Function.update channels a v b = some c ∧ P c) ↔ ∃ c, channels b = some c ∧ P c := by
    intro P hP b
    by_cases hb : b = a
    · subst hb
      rw [Function.update_self]
      constructor
      · rintro ⟨c, hc, hPc⟩
        exact absurd (hnew c hc).2.1 (hP c hPc)
      · rintro ⟨c, hc, hPc⟩
        exact absurd (hold c hc) (hP c hPc)
    · rw [Function.update_of_ne hb]
  refine ⟨?_, ?_, ?_, ?_, ?_⟩
  · intro b c hc
    by_cases hb : b = a
    · subst hb
      rw [Function.update_self] at hc
      exact (hnew c hc).1
    · rw [Function.update_of_ne hb] at hc
      exact h.self b c hc
  · intro b b' c c' hc hc' hfd
    by_cases hb : b = a <;> by_cases hb' : b' = a
    · rw [hb, hb']
    · subst hb
      rw [Function.update_self] at hc
      rw [Function.update_of_ne hb'] at hc'
      exact absurd hfd.symm ((hnew c hc).2.2 b' c' hb' hc')
    · subst hb'
      rw [Function.update_self] at hc'
      rw [Function.update_of_ne hb] at hc
      exact absurd hfd ((hnew c' hc').2.2 b c hb hc)
    · rw [Function.update_of_ne hb] at hc
      rw [Function.update_of_ne hb'] at hc'
      exact h.distinct b b' c c' hc hc' hfd
  · intro b c hc
    by_cases hb : b = a
    · subst hb
      rw [Function.update_self] at hc
      exact .inl (hnew c hc).2.1
    · rw [Function.update_of_ne hb] at hc
      exact h.index b c hc
  · intro fd b
    rw [h.known fd b]
    exact (hmem (fun c => c.fd = fd ∧ c.index ≠ kNew) (fun c hc => hc.2) b).symm
  · intro fd events b
    rw [h.watched fd events b]
    refine (hmem (fun c => c.fd = fd ∧ c.index = kAdded ∧ c.events = events) (fun c hc => ?_) b).symm
    rw [hc.2.1]
    exact kAdded_ne_kNew

end Registered

/-! ## The poller and its channels, as a system -/

/-- A poller and the `Channel` objects of its loop. -/
structure PollerRegistry where
  poller : EPoller
  channels : Addr → Option Channel

namespace PollerRegistry

/-- The asserts of the poller, and what `fillActiveChannels` can meet: a pointer to nothing, and its two
    asserts. -/
inductive Fault where
  | poller (f : EPoller.Fault)
  | danglingPointer
  /-- `it != channels_.end()` -/
  | reportedUnknown
  /-- `it->second == channel` -/
  | reportedOther
  deriving DecidableEq, Repr

/-- The members of `Channel` that set `events_` and call `update()`. -/
inductive Member where
  | enableReading
  | enableWriting
  | disableWriting
  | disableAll
  deriving DecidableEq, Repr

def Member.apply : Member → Channel → Channel
  | .enableReading => Channel.enableReading
  | .enableWriting => Channel.enableWriting
  | .disableWriting => Channel.disableWriting
  | .disableAll => Channel.disableAll

theorem Member.apply_eq (m : Member) (c : Channel) : m.apply c = { c with events := (m.apply c).events } := by
  cases m <;> rfl

/-- The steps; a `poll` reports descriptors of the interest list. -/
inductive Label where
  | update (a : Addr) (m : Member)
  | removeChannel (a : Addr)
  | poll (reported : List (Int × Events))
  deriving DecidableEq

/-- `fillActiveChannels` -/
def fillActiveChannels (s : PollerRegistry) : List (Int × Events) → Result Fault (List (Addr × Events))
  | [] => return []
  | (fd, revents) :: rest =>
    match s.poller.epoll fd with
    | none => throw .blocked
    | some (_, ptr) =>
      match s.channels ptr with
      | none => throw (.fault .danglingPointer)
      | some channel => do
        require (s.poller.channels channel.fd ≠ none) .reportedUnknown
        require (s.poller.channels channel.fd = some ptr) .reportedOther
        let active ← s.fillActiveChannels rest
        return (ptr, revents) :: active

def step (s : PollerRegistry) : Label → Result Fault PollerRegistry
  | .update a m =>
    match s.channels a with
    | none => throw .blocked
    | some channel => do
      let (p, channel) ← (s.poller.updateChannel (m.apply channel)).mapFault .poller
      return { poller := p, channels := Function.update s.channels a (some channel) }
  | .removeChannel a =>
    match s.channels a with
    | none => throw .blocked
    | some channel => do
      let (p, channel) ← (s.poller.removeChannel channel).mapFault .poller
      return { poller := p, channels := Function.update s.channels a (some channel) }
  | .poll reported => do
    let _ ← s.fillActiveChannels reported
    return s

/-- The call of `epoll_ctl` a step makes, and its descriptor (`updateChannel_update`,
    `removeChannel_update`). -/
def issued (s : PollerRegistry) : Label → Option (EPoller.Operation × Int)
  | .update a m => (s.channels a).map fun c => (EPoller.updateOperation (m.apply c), c.fd)
  | .removeChannel a => (s.channels a).bind fun c => (EPoller.removeOperation c).map fun op => (op, c.fd)
  | .poll _ => none

/-- What the asserts of `removeChannel` demand of its caller. -/
def RemovesIdle (s : PollerRegistry) : Label → Prop
  | .removeChannel a => ∀ c ∈ s.channels a, c.index ≠ EPoller.kNew ∧ c.events = ∅
  | _ => True

end PollerRegistry

/-- Any channels with different descriptors, just constructed, in a poller just constructed. -/
def pollerRegistry : System PollerRegistry PollerRegistry.Label PollerRegistry.Fault where
  init := fun s => s.poller = EPoller.new ∧
    (∀ a c, s.channels a = some c → c = Channel.new a c.fd) ∧
    ∀ a b c d, s.channels a = some c → s.channels b = some d → c.fd = d.fd → a = b
  step := PollerRegistry.step

namespace PollerRegistry

variable {s s' : PollerRegistry} {l : Label}

/-- A step sets one channel, if any. -/
theorem step_channel (hs : s.step l = .ok s') : (∃ reported, l = .poll reported) ∧ s' = s ∨
    ∃ a c c', s.channels a = some c ∧ s'.channels = Function.update s.channels a (some c') ∧
      ((∃ m, l = .update a m ∧ s.poller.updateChannel (m.apply c) = .ok (s'.poller, c')) ∨
        l = .removeChannel a ∧ s.poller.removeChannel c = .ok (s'.poller, c')) := by
  cases l with
  | update a m =>
    simp only [step] at hs
    cases hc : s.channels a with
    | none => rw [hc] at hs; cases hs
    | some c =>
      rw [hc] at hs
      simp only [bind_eq_ok, Result.mapFault_eq_ok, Prod.exists, pure_eq_ok, Except.ok.injEq] at hs
      obtain ⟨p, c', hu, rfl⟩ := hs
      exact .inr ⟨a, c, c', hc, rfl, .inl ⟨m, rfl, hu⟩⟩
  | removeChannel a =>
    simp only [step] at hs
    cases hc : s.channels a with
    | none => rw [hc] at hs; cases hs
    | some c =>
      rw [hc] at hs
      simp only [bind_eq_ok, Result.mapFault_eq_ok, Prod.exists, pure_eq_ok, Except.ok.injEq] at hs
      obtain ⟨p, c', hrem, rfl⟩ := hs
      exact .inr ⟨a, c, c', hc, rfl, .inr ⟨rfl, hrem⟩⟩
  | poll reported =>
    simp only [step, bind_eq_ok, pure_eq_ok, Except.ok.injEq] at hs
    obtain ⟨-, -, rfl⟩ := hs
    exact .inl ⟨⟨reported, rfl⟩, rfl⟩

/-- **One step**: it keeps the records in agreement, whatever the asserts let pass. -/
theorem registered_step (h : Registered s.poller s.channels) (hs : s.step l = .ok s') :
    Registered s'.poller s'.channels := by
  rcases step_channel hs with ⟨-, rfl⟩ | ⟨a, c, c', hc, hchannels, ⟨m, -, hu⟩ | ⟨-, hr⟩⟩
  · exact h
  · rw [m.apply_eq c] at hu
    rw [hchannels]
    exact (h.of_updateChannel hc hu).2
  · rw [hchannels]
    exact (h.of_removeChannel hc hr).2

theorem registered_of_reachable (h : pollerRegistry.Reachable s) : Registered s.poller s.channels :=
  h.invariant (I := fun s => Registered s.poller s.channels)
    (fun s h0 => by
      obtain ⟨hp, hnew, hdistinct⟩ := h0
      exact hp ▸ Registered.new hnew hdistinct)
    (fun _ _ _ _ hI _ hs => registered_step hI hs)

/-- The pointers a `poll` reports are good: no assert of `fillActiveChannels` fails. -/
theorem fillActiveChannels_noFault (h : Registered s.poller s.channels) :
    ∀ (reported : List (Int × Events)) f, s.fillActiveChannels reported ≠ .error (.fault f)
  | [], f => by simp [fillActiveChannels]
  | (fd, revents) :: rest, f => by
    have ih := fillActiveChannels_noFault h rest
    unfold fillActiveChannels
    cases hw : s.poller.epoll fd with
    | none => simp
    | some e =>
      obtain ⟨c, hc, hfd, -, hknown⟩ := h.deref hw
      subst hfd
      have hne : s.poller.channels c.fd ≠ none := by rw [hknown]; simp
      simp only [hc, require_of hne, require_of hknown, ok_bind, ne_eq, bind_eq_error, pure_eq_ok,
        reduceCtorEq, and_false, exists_false, or_false]
      exact ih f

/-- What holds of a poller between any two steps. -/
structure Sound (s : PollerRegistry) : Prop where
  registered : Registered s.poller s.channels
  /-- no assert fails and `update` does not abort -/
  noFault : ∀ a, s.RemovesIdle a → ∀ f, s.step a ≠ .error (.fault f)
  /-- an `ADD` is of an absent descriptor, a `MOD` or `DEL` of a present one -/
  legal : ∀ a, s.RemovesIdle a → ∀ operation fd, s.issued a = some (operation, fd) →
    s.poller.Legal fd operation

/-- **The records of a poller agree**, in every run of any channels with different descriptors. -/
theorem registry_sound (h : pollerRegistry.Reachable s) : s.Sound := by
  have hreg := registered_of_reachable h
  refine ⟨hreg, ?_, ?_⟩
  · intro a ha f hf
    cases a with
    | update a m =>
      simp only [step] at hf
      cases hc : s.channels a with
      | none => rw [hc] at hf; cases hf
      | some c =>
        obtain ⟨-, p', c', hp, -⟩ := hreg.updateChannel hc (m.apply c).events
        rw [← m.apply_eq c] at hp
        simp [hc, hp, Result.mapFault] at hf
    | removeChannel a =>
      simp only [step] at hf
      cases hc : s.channels a with
      | none => rw [hc] at hf; cases hf
      | some c =>
        obtain ⟨hne, hnone⟩ := ha c hc
        obtain ⟨-, p', hp, -⟩ := hreg.removeChannel hc hne hnone
        simp [hc, hp, Result.mapFault] at hf
    | poll reported =>
      simp only [step, bind_eq_error, pure_eq_ok, reduceCtorEq, and_false, exists_false, or_false] at hf
      exact fillActiveChannels_noFault hreg reported f hf
  · intro a ha operation fd hissued
    cases a with
    | update a m =>
      obtain ⟨c, hc, heq⟩ := Option.map_eq_some_iff.mp hissued
      obtain ⟨rfl, rfl⟩ := Prod.mk.injEq .. ▸ heq
      rw [m.apply_eq c]
      exact (hreg.updateChannel hc _).1
    | removeChannel a =>
      obtain ⟨c, hc, hop⟩ := Option.bind_eq_some_iff.mp hissued
      obtain ⟨op, hremove, heq⟩ := Option.map_eq_some_iff.mp hop
      obtain ⟨rfl, rfl⟩ := Prod.mk.injEq .. ▸ heq
      obtain ⟨hne, hnone⟩ := ha c hc
      exact (hreg.removeChannel hc hne hnone).1 op hremove
    | poll reported => cases hissued

/-- Two channels; one is dropped by its mask, added again, and removed at last. -/
theorem registry_sound_sample : ∃ s : PollerRegistry, s.poller.channels 5 = none ∧
    s.poller.epoll 6 = some ({.POLLIN, .POLLPRI}, 20) ∧ s.Sound := by
  obtain ⟨s, hs, hp⟩ := System.Reach.of_exec (S := pollerRegistry)
    (s := ⟨EPoller.new, fun a => if a = 10 then some (Channel.new 10 5) else
      if a = 20 then some (Channel.new 20 6) else none⟩)
    (l := [.update 10 .enableReading, .update 20 .enableReading, .update 10 .disableAll,
      .update 10 .enableWriting, .poll [(5, {.POLLOUT}), (6, {.POLLIN})], .update 10 .disableWriting,
      .removeChannel 10])
    (p := fun s => decide (s.poller.channels 5 = none ∧ s.poller.epoll 6 = some ({.POLLIN, .POLLPRI}, 20)))
    (.init ⟨rfl, by grind [Channel.new], by grind [Channel.new]⟩) (by decide +kernel)
  rw [decide_eq_true_eq] at hp
  exact ⟨s, hp.1, hp.2, registry_sound hs⟩

end PollerRegistry

end Irono
