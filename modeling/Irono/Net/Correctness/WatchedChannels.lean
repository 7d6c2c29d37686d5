import Irono.Net.Correctness.PollerRegistry

/-!
# `Net.Correctness.WatchedChannels` — the kernel watches what the channels ask for

A channel that has events and was not removed is in the interest list (`Tracked`, in every run). The other
direction fails: `updateChannel` takes a channel without events out of the list only if it is there, and
otherwise adds it, with the mask 0. `disableAll` on a channel that is disabled already does so, as when
`connectDestroyed` follows `handleClose` (`disabled_twice`).

`watched_exactly`: no such registration comes about as long as no call leaves a channel without events that
was not in the list (`Kept`), and one does at the first call that breaks this.
-/

namespace Irono

open Transition

namespace PollerRegistry

open EPoller

variable {s s' : PollerRegistry} {l : Label}

/-- A channel that is not in the interest list has no events. -/
def Unwatched (s : PollerRegistry) : Prop := ∀ a c, s.channels a = some c → c.index ≠ kAdded → c.events = ∅

/-- **One step.** -/
theorem unwatched_step (h : s.Unwatched) (hs : s.step l = .ok s') : s'.Unwatched := by
  rcases step_channel hs with ⟨-, rfl⟩ | ⟨a, c, c', -, hchannels, hcase⟩
  · exact h
  · intro b d hd
    rw [hchannels] at hd
    rcases Channel.update_cases hd with ⟨rfl, rfl⟩ | ⟨-, hd⟩
    · rcases hcase with ⟨m, -, hu⟩ | ⟨-, hrem⟩
      · obtain ⟨hch, ⟨-, hnone, -⟩ | ⟨-, hidx, -⟩⟩ := updateChannel_cases hu
        · intro _
          rw [hch]
          exact hnone
        · exact fun hne => absurd hidx hne
      · intro _
        obtain ⟨hch, hnone, -⟩ := removeChannel_cases hrem
        rw [hch]
        exact hnone
    · exact h b d hd

theorem unwatched_of_reachable (h : pollerRegistry.Reachable s) : s.Unwatched := by
  refine h.invariant (I := Unwatched) (fun s h0 => ?_) (fun _ _ _ _ hI _ hs => unwatched_step hI hs)
  intro a c hc _
  rw [h0.2.1 a c hc]
  rfl

end PollerRegistry

/-- A poller and its channels, with what has become of each channel. -/
structure WatchRun where
  registry : PollerRegistry
  /-- history: the channel was updated, and not removed since -/
  current : Addr → Bool

namespace WatchRun

open EPoller PollerRegistry

/-- What a call makes of `current`. -/
def next (current : Addr → Bool) : PollerRegistry.Label → Addr → Bool
  | .update a _ => Function.update current a true
  | .removeChannel a => Function.update current a false
  | .poll _ => current

def step (s : WatchRun) (l : PollerRegistry.Label) : Result PollerRegistry.Fault WatchRun := do
  let registry ← s.registry.step l
  return { registry := registry, current := next s.current l }

/-- A channel's descriptor is in the interest list if and only if the channel is current and has events. -/
def Watches (s : WatchRun) : Prop :=
  ∀ a c, s.registry.channels a = some c →
    ((s.registry.poller.epoll c.fd).isSome = true ↔ s.current a = true ∧ c.events ≠ ∅)

/-- **The condition on a step**: a channel that is left without events was in the interest list. -/
def Kept (s : WatchRun) : PollerRegistry.Label → Prop
  | .update a m => ∀ c ∈ s.registry.channels a, (m.apply c).events = ∅ → c.index = kAdded
  | _ => True

instance (s : WatchRun) : (l : PollerRegistry.Label) → Decidable (s.Kept l)
  | .update a m =>
    inferInstanceAs (Decidable (∀ c ∈ s.registry.channels a, (m.apply c).events = ∅ → c.index = kAdded))
  | .removeChannel _ => isTrue trivial
  | .poll _ => isTrue trivial

end WatchRun

/-- Any channels with different descriptors, just constructed, in a poller just constructed. -/
def watchRun : System WatchRun PollerRegistry.Label PollerRegistry.Fault :=
  ⟨fun s => pollerRegistry.init s.registry ∧ s.current = fun _ => false, WatchRun.step⟩

namespace WatchRun

open EPoller PollerRegistry

variable {s s' : WatchRun} {l : PollerRegistry.Label}

/-- What holds whatever is called: the records agree, and a channel that is not in the interest list has no
    events. -/
structure Tracked (s : WatchRun) : Prop where
  registered : Registered s.registry.poller s.registry.channels
  current : ∀ a c, s.registry.channels a = some c → (c.index = kNew ↔ s.current a = false)
  unwatched : s.registry.Unwatched

/-- Then the only thing that can go wrong is a registration without events. -/
theorem Tracked.watches_iff (h : s.Tracked) :
    s.Watches ↔ ∀ a c, s.registry.channels a = some c → c.index = kAdded → c.events ≠ ∅ := by
  have hlist : ∀ a c, s.registry.channels a = some c →
      ((s.registry.poller.epoll c.fd).isSome = true ↔ c.index = kAdded) := by
    intro a c hc
    rw [h.registered.epoll_fd hc]
    split
    · rename_i hadded
      exact iff_of_true rfl hadded
    · rename_i hne
      exact iff_of_false (by simp) hne
  constructor
  · intro hw a c hc hadded
    exact ((hw a c hc).mp ((hlist a c hc).mpr hadded)).2
  · intro hne a c hc
    rw [hlist a c hc]
    constructor
    · intro hadded
      refine ⟨?_, hne a c hc hadded⟩
      by_contra hold
      have hnew := (h.current a c hc).mpr (by simpa using hold)
      exact Registered.kNew_ne_kAdded (hnew ▸ hadded)
    · rintro ⟨-, hevents⟩
      by_contra hidx
      exact hevents (h.unwatched a c hc hidx)

theorem step_eq_ok (hs : s.step l = .ok s') : s.registry.step l = .ok s'.registry ∧ s'.current = next s.current l := by
  simp only [step, bind_eq_ok, pure_eq_ok, Except.ok.injEq] at hs
  obtain ⟨r, hr, rfl⟩ := hs
  exact ⟨hr, rfl⟩

/-- **One step.** -/
theorem tracked_step (h : s.Tracked) (hs : s.step l = .ok s') : s'.Tracked := by
  obtain ⟨hr, hcur⟩ := step_eq_ok hs
  refine ⟨registered_step h.registered hr, ?_, unwatched_step h.unwatched hr⟩
  rw [hcur]
  rcases step_channel hr with ⟨⟨reported, rfl⟩, heq⟩ | ⟨a, c, c', hc, hchannels, hcase⟩
  · rw [heq]
    exact h.current
  · intro b d hd
    rw [hchannels] at hd
    rcases hcase with ⟨m, rfl, hu⟩ | ⟨rfl, hrem⟩ <;> simp only [next] <;>
      rcases Channel.update_cases hd with ⟨rfl, rfl⟩ | ⟨hb, hd⟩
    · rw [Function.update_self]
      obtain ⟨-, ⟨-, -, hidx, -⟩ | ⟨-, hidx, -⟩⟩ := updateChannel_cases hu <;> rw [hidx]
      · exact iff_of_false Registered.kDeleted_ne_kNew (by simp)
      · exact iff_of_false Registered.kAdded_ne_kNew (by simp)
    · rw [Function.update_of_ne hb]
      exact h.current b d hd
    · rw [Function.update_self, (removeChannel_cases hrem).1]
      exact iff_of_true rfl rfl
    · rw [Function.update_of_ne hb]
      exact h.current b d hd

theorem tracked_of_reachable (h : watchRun.Reachable s) : s.Tracked := by
  refine h.invariant (I := Tracked) (fun s h0 => ?_) (fun _ _ _ _ hI _ hs => tracked_step hI hs)
  obtain ⟨⟨hp, hnew, hdistinct⟩, hcur⟩ := h0
  refine ⟨hp ▸ Registered.new hnew hdistinct, fun a c hc => ?_, fun a c hc _ => ?_⟩
  · rw [hnew a c hc, hcur]
    exact iff_of_true rfl rfl
  · rw [hnew a c hc]
    rfl

/-- **One step** from a state in which the kernel watches the right channels. -/
theorem watches_step_iff (h : s.Tracked) (hw : s.Watches) (hs : s.step l = .ok s') : s'.Watches ↔ s.Kept l := by
  rw [(tracked_step h hs).watches_iff]
  rw [h.watches_iff] at hw
  rcases step_channel (step_eq_ok hs).1 with ⟨⟨reported, rfl⟩, heq⟩ | ⟨a, c, c', hc, hchannels, hcase⟩
  · rw [heq]
    exact iff_of_true hw trivial
  -- the other channels are as before
  have hone : (∀ b d, s'.registry.channels b = some d → d.index = kAdded → d.events ≠ ∅) ↔
      (c'.index = kAdded → c'.events ≠ ∅) := by
    rw [hchannels]
    refine ⟨fun hall => hall a c' (Function.update_self ..), fun hc' b d hd => ?_⟩
    rcases Channel.update_cases hd with ⟨-, rfl⟩ | ⟨-, hd⟩
    · exact hc'
    · exact hw b d hd
  rw [hone]
  rcases hcase with ⟨m, rfl, hu⟩ | ⟨rfl, hrem⟩
  · have hkept : s.Kept (.update a m) ↔ ((m.apply c).events = ∅ → c.index = kAdded) := by
      simp only [Kept, hc, Option.mem_def, Option.some.injEq, forall_eq']
    have hindex : (m.apply c).index = c.index := by rw [m.apply_eq c]
    rw [hkept]
    obtain ⟨hch, ⟨hadded, -, hidx, -⟩ | ⟨hne, hidx, -⟩⟩ := updateChannel_cases hu
    · rw [hindex] at hadded
      refine iff_of_true (fun heq => absurd heq ?_) fun _ => hadded
      rw [hidx]
      exact Registered.kDeleted_ne_kAdded
    · rw [hindex] at hne
      have hevents : c'.events = (m.apply c).events := by rw [hch]
      rw [hevents]
      constructor
      · exact fun hsome hnone => absurd hnone (hsome hidx)
      · intro hadded _ hnone
        exact hne (hadded hnone) hnone
  · refine iff_of_true (fun heq => absurd heq ?_) trivial
    rw [(removeChannel_cases hrem).1]
    exact Registered.kNew_ne_kAdded

/-- **The kernel watches exactly what the channels ask for**, in every run in which no call leaves a channel
    without events that was not in the interest list. The first call that does leaves a registration with
    the mask 0. -/
theorem watched_exactly (h : watchRun.Reach Kept s) :
    s.Watches ∧ ∀ l s', s.step l = .ok s' → (s'.Watches ↔ s.Kept l) := by
  have hw : s.Watches := by
    refine h.invariant (I := Watches) (fun s h0 => ?_) (fun s l s' hr hI hk hs => ?_)
    · have htracked := tracked_of_reachable (s := s) (.init h0)
      rw [htracked.watches_iff]
      intro a c hc hadded
      rw [h0.1.2.1 a c hc] at hadded
      exact absurd hadded Registered.kNew_ne_kAdded
    · exact (watches_step_iff (tracked_of_reachable hr.reachable) hI hs).mpr hk
  exact ⟨hw, fun l s' hs => watches_step_iff (tracked_of_reachable h.reachable) hw hs⟩

/-- Channel 10 with descriptor 5. -/
def oneChannel : WatchRun :=
  { registry := ⟨EPoller.new, fun a => if a = 10 then some (Channel.new 10 5) else none⟩, current := fun _ => false }

theorem oneChannel_init : watchRun.init oneChannel :=
  ⟨⟨rfl, by grind [oneChannel, Channel.new], by grind [oneChannel, Channel.new]⟩, rfl⟩

/-- Enabled, disabled, enabled again. -/
theorem watched_exactly_sample : ∃ s : WatchRun, s.registry.poller.epoll 5 = some ({.POLLOUT}, 10) ∧ s.Watches := by
  obtain ⟨s, hr, hp⟩ := System.Reach.of_execWhile (S := watchRun) (C := Kept)
    (l := [.update 10 .enableReading, .update 10 .disableAll, .update 10 .enableWriting])
    (p := fun s => decide (s.registry.poller.epoll 5 = some ({.POLLOUT}, 10))) (.init oneChannel_init)
    (by decide +kernel)
  exact ⟨s, of_decide_eq_true hp, (watched_exactly hr).1⟩

/-- `disableAll` twice, as `handleClose` and `connectDestroyed` do: the descriptor is back in the list, with
    the mask 0. -/
theorem disabled_twice : ∃ s : WatchRun, watchRun.Reachable s ∧ s.registry.poller.epoll 5 = some (∅, 10) ∧
    ¬ s.Watches := by
  obtain ⟨s, hr, hp⟩ := System.Reach.of_exec (S := watchRun)
    (l := [.update 10 .enableReading, .update 10 .disableAll, .update 10 .disableAll])
    (p := fun s => decide (s.registry.poller.epoll 5 = some (∅, 10) ∧
      (s.registry.channels 10).map Channel.fd = some 5 ∧ (s.registry.channels 10).map Channel.events = some ∅))
    (.init oneChannel_init) (by decide +kernel)
  obtain ⟨hlist, hfd, hevents⟩ := of_decide_eq_true hp
  refine ⟨s, hr, hlist, fun hw => ?_⟩
  obtain ⟨c, hc, hcfd⟩ := Option.map_eq_some_iff.mp hfd
  rw [hc, Option.map_some, Option.some.injEq] at hevents
  have hiff := hw 10 c hc
  rw [hcfd, hlist] at hiff
  exact (hiff.mp rfl).2 hevents

end WatchRun

end Irono
