import Irono.Net.Correctness.TimerBatch

/-!
# `Net.Correctness.TimerSpacing` — when the callback of a timer is started, over a whole run

`TimerTimes` keeps beside a run what each `addTimer` was called with, and the `now` of the `handleRead` in
which each callback was started. `Timestamp::now()` may go back; only the sums of `restart` must not overflow
(`InRange`), because `addTime` here is exact and that of the source an `int64_t`.

* `Next`: the next start of a timer is at `expiration` or later; it carries the induction.
* `Represented`: no `expiration_` is out of range, so the sums are those of the source.
* `callbacks_spaced`: no start before `when`, an interval at least between two starts, and one start only of a
  timer that does not repeat.
-/

namespace Irono

open Transition

/-- What `addTimer` was called with, and the number it gave. -/
structure MadeTimer where
  seq : Nat
  when : Timestamp
  interval : Interval
  deriving DecidableEq, Repr

/-- The times at which the callback of `m` may be started. -/
structure MadeTimer.Paced (m : MadeTimer) (times : List Timestamp) : Prop where
  first : ∀ t ∈ times.head?, m.when ≤ t
  apart : times.IsChain fun t t' => t + m.interval.microSeconds ≤ t'
  once : m.interval.positive = false → times.length ≤ 1

/-- A timer queue in use, and when its callbacks were started. -/
structure TimerTimes where
  run : TimerRun
  made : List MadeTimer
  /-- the number of a timer and the `now` of the `handleRead` that started its callback -/
  fired : List (Nat × Timestamp)

/-- The callback that `run` is to start. -/
def TimerRun.starting (s : TimerRun) : List (Nat × Timestamp) :=
  match s.batch with
  | some ⟨now, _, entry :: _⟩ => [((s.queue.idOf entry).seq, now)]
  | _ => []

namespace TimerTimes

def record (s : TimerTimes) : TimerRun.Label → TimerTimes
  | .addTimer _ w i => { s with made := s.made ++ [⟨s.run.numCreated + 1, w, i⟩] }
  | .queueTimer _ w i => { s with made := s.made ++ [⟨s.run.numCreated + 1, w, i⟩] }
  | .run => { s with fired := s.fired ++ s.run.starting }
  | _ => s

def step (s : TimerTimes) (l : TimerRun.Label) : Result TimerQueue.Fault TimerTimes := do
  let run ← s.run.step l
  return { s.record l with run := run }

/-- When the callback of the timer with this number was started. -/
def times (s : TimerTimes) (k : Nat) : List Timestamp := (s.fired.filter fun x => x.1 = k).map Prod.snd

/-- The condition on a step: `when` is an `int64_t`, and so are the sums that `reset` restarts timers for. -/
def InRange (s : TimerTimes) : TimerRun.Label → Prop
  | .addTimer _ w _ => int64 w = w
  | .queueTimer _ w _ => int64 w = w
  | .finish => ∀ b ∈ s.run.batch, ∀ e ∈ b.expired, ∀ t ∈ s.run.queue.heap e.addr,
    t.repeat_ = true ∧ ¬ .mk e.addr t.sequence ∈ s.run.queue.cancelingTimers →
      int64 (b.now + t.interval.microSeconds) = b.now + t.interval.microSeconds
  | _ => True

instance (s : TimerTimes) : (l : TimerRun.Label) → Decidable (s.InRange l)
  | .addTimer _ w _ | .queueTimer _ w _ => inferInstanceAs (Decidable (int64 w = w))
  | .finish => inferInstanceAs (Decidable (∀ b ∈ s.run.batch, ∀ e ∈ b.expired,
      ∀ t ∈ s.run.queue.heap e.addr, _ → _))
  | .createElsewhere | .addTimerInLoop _ | .cancelInLoop _ | .handleRead _ | .run => isTrue trivial

end TimerTimes

/-- The timer queue with its times, as a system. -/
def timerTimes : System TimerTimes TimerRun.Label TimerQueue.Fault where
  init s := s = ⟨TimerRun.start, [], []⟩
  step := TimerTimes.step

/-! ## What is left of a timer after `reset` -/

namespace TimerQueue

variable {q q' : TimerQueue} {out : List Addr} {now : Timestamp} {u : Timer}

/-- The loop of `reset` leaves the timers of others as they are. -/
theorem resetEntries_heap {l : List Entry} {a : Addr} (h : q.Owns (l.map Entry.addr ++ out))
    (hr : q.resetEntries now l = .ok q') (hu : q'.heap a = some u) :
    a ∉ l.map Entry.addr ∧ q.heap a = some u ∨
      a ∈ l.map Entry.addr ∧ ∃ t, q.heap a = some t ∧ t.repeat_ = true ∧ u = t.restart now := by
  induction l generalizing q with
  | nil =>
    obtain rfl := Except.ok.inj hr
    exact .inl ⟨List.not_mem_nil, hu⟩
  | cons e rest ih =>
    obtain ⟨q₁, hr₁, hr₂⟩ := bind_eq_ok.mp hr
    obtain ⟨howns, hheap, -, -⟩ := resetEntry_pending now h hr₁
    have hnot : e.addr ∉ rest.map Entry.addr := by
      intro hin
      exact (List.nodup_cons.mp h.nodup).1 (List.mem_append_left _ (List.mem_append_left _ hin))
    rw [List.map_cons, List.mem_cons]
    rcases ih howns hr₂ with ⟨hout, hu₁⟩ | ⟨hin, t, ht, hrepeat, heq⟩
    · by_cases ha : a = e.addr
      · subst ha
        exact .inr ⟨.inl rfl, resetEntry_heap h hr₁ hu₁⟩
      · rw [hheap a ha] at hu₁
        exact .inl ⟨not_or.mpr ⟨ha, hout⟩, hu₁⟩
    · have ha : a ≠ e.addr := by
        rintro rfl
        exact hnot hin
      rw [hheap a ha] at ht
      exact .inr ⟨.inr hin, t, ht, hrepeat, heq⟩

/-- `cancelInLoop` deletes a timer, or none; it changes no other. -/
theorem cancelInLoop_heap {id : TimerId} (h : q.Owns out) (hr : q.cancelInLoop id = .ok q') {a : Addr}
    (hu : q'.heap a = some u) : q.heap a = some u := by
  rcases cancelInLoop_spec h id with ⟨t, -, -, hrun, -⟩ | ⟨-, ⟨-, hrun⟩ | ⟨-, hrun⟩⟩ <;>
    rw [hr, Except.ok.injEq] at hrun <;> subst hrun
  · exact (heap_freed hu).2
  · exact hu
  · exact hu

end TimerQueue

namespace TimerRun

/-- The running `handleRead(now)` has started the callback of the timer at `a`. -/
def Ran (s : TimerRun) (a : Addr) (now : Timestamp) : Prop :=
  ∃ b ∈ s.batch, b.now = now ∧ a ∈ b.expired.map Entry.addr ∧ a ∉ b.next.map Entry.addr

variable {s : TimerRun} {a : Addr} {now : Timestamp}

theorem not_ran_of_idle (h : s.batch = none) : ¬ s.Ran a now := by
  rintro ⟨b, hb, -⟩
  rw [h] at hb
  cases hb

/-- The timers of the batch are alive. -/
theorem Owned.batch_live (h : s.Owned) {b : ExpiredBatch} (hb : s.batch = some b) {e : Entry}
    (he : e ∈ b.expired) : s.queue.heap e.addr ≠ none := by
  apply (h.queue.live _).mpr
  apply List.mem_append_left
  apply List.mem_append_right
  rw [held, hb]
  exact List.mem_map_of_mem he

/-- They are not where a new timer is made. -/
theorem Owned.not_ran_of_fresh (h : s.Owned) (hf : s.Fresh a) : ¬ s.Ran a now := by
  rintro ⟨b, hb, -, hin, -⟩
  obtain ⟨e, he, rfl⟩ := List.mem_map.mp hin
  exact h.batch_live hb he hf.1

theorem Owned.expired_nodup (h : s.Owned) {b : ExpiredBatch} (hb : s.batch = some b) :
    (b.expired.map Entry.addr).Nodup := by
  have hnodup := (List.nodup_append.mp (List.nodup_append.mp h.queue.nodup).1).2.1
  rw [held, hb] at hnodup
  exact hnodup

/-- `run` adds its own timer to those whose callbacks were started. -/
theorem Owned.ran_ran (h : s.Owned) {b : ExpiredBatch} {e : Entry} {rest : List Entry} {id : TimerId}
    (hb : s.batch = some b) (hnext : b.next = e :: rest) :
    (s.ran b rest id).Ran a now ↔ s.Ran a now ∨ a = e.addr ∧ now = b.now := by
  have hsuffix : e :: rest <:+ b.expired := hnext ▸ h.next b hb
  have hnot : e.addr ∉ rest.map Entry.addr :=
    (List.nodup_cons.mp ((hsuffix.map Entry.addr).sublist.nodup (h.expired_nodup hb))).1
  have hin : e.addr ∈ b.expired.map Entry.addr :=
    List.mem_map_of_mem (hsuffix.subset (List.mem_cons_self ..))
  unfold Ran
  simp only [ran, hb, hnext, Option.mem_def, Option.some.injEq, exists_eq_left', List.map_cons, List.mem_cons,
    not_or]
  constructor
  · rintro ⟨rfl, hexpired, hrest⟩
    by_cases ha : a = e.addr
    · exact .inr ⟨ha, rfl⟩
    · exact .inl ⟨rfl, hexpired, ha, hrest⟩
  · rintro (⟨rfl, hexpired, -, hrest⟩ | ⟨rfl, rfl⟩)
    · exact ⟨rfl, hexpired, hrest⟩
    · exact ⟨rfl, hin, hnot⟩

end TimerRun

/-! ## The invariant -/

/-- The next start of `m`, whose callback was started at `times`, may be at `w` or later. -/
structure MadeTimer.Next (m : MadeTimer) (times : List Timestamp) (w : Timestamp) : Prop where
  first : times = [] → m.when ≤ w
  after : ∀ t ∈ times.getLast?, t + m.interval.microSeconds ≤ w

/-- A start that is late enough. -/
theorem MadeTimer.Paced.start {m : MadeTimer} {times : List Timestamp} {w now : Timestamp} (h : m.Paced times)
    (hnext : m.Next times w) (hnow : w ≤ now) (honce : m.interval.positive = false → times = []) :
    m.Paced (times ++ [now]) where
  first := by
    intro t ht
    cases times with
    | nil =>
      obtain rfl := Option.some.inj ht
      exact (hnext.first rfl).trans hnow
    | cons t' rest => exact h.first t ht
  apart := by
    apply h.apart.append (List.isChain_singleton _)
    intro t ht t' ht'
    obtain rfl := Option.some.inj ht'
    exact (hnext.after t ht).trans hnow
  once := by
    intro hpositive
    rw [honce hpositive]
    exact le_rfl

namespace TimerTimes

open TimerRun TimerQueue

variable {s s' : TimerTimes} {run : TimerRun} {l : TimerRun.Label}

/-- `m` made the timer `t` at `a`. -/
structure Made (s : TimerTimes) (m : MadeTimer) (a : Addr) (t : Timer) : Prop where
  mem : m ∈ s.made
  seq : m.seq = t.sequence
  interval : m.interval = t.interval
  waiting : (∀ now, ¬ s.run.Ran a now) →
    m.Next (s.times m.seq) t.expiration ∧ (t.repeat_ = false → s.times m.seq = [])
  ran : ∀ now, s.run.Ran a now → (s.times m.seq).getLast? = some now

/-- **The invariant.** -/
structure Spaced (s : TimerTimes) : Prop where
  owned : s.run.Owned
  numbers : ∀ m ∈ s.made, m.seq ≤ s.run.numCreated
  distinct : (s.made.map MadeTimer.seq).Nodup
  source : ∀ x ∈ s.fired, ∃ m ∈ s.made, m.seq = x.1
  paced : ∀ m ∈ s.made, m.Paced (s.times m.seq)
  alive : ∀ a t, s.run.queue.heap a = some t → ∃ m, s.Made m a t
  due : ∀ b ∈ s.run.batch, ∀ e ∈ b.next, ∀ t, s.run.queue.heap e.addr = some t → t.expiration ≤ b.now

theorem spaced_start : Spaced ⟨TimerRun.start, [], []⟩ where
  owned := owned_start
  numbers := by simp
  distinct := by simp
  source := by simp
  paced := by simp
  alive := by simp [TimerRun.start, TimerQueue.new]
  due := by simp [TimerRun.start]

/-- A step that starts no callback and makes no timer: timers stay as they are, or are deleted. -/
theorem Spaced.quiet (h : s.Spaced) (howned : run.Owned) (hn : s.run.numCreated ≤ run.numCreated)
    (hheap : ∀ a t, run.queue.heap a = some t → s.run.queue.heap a = some t)
    (hran : ∀ a now, run.Ran a now ↔ s.run.Ran a now)
    (hdue : ∀ b ∈ run.batch, ∀ e ∈ b.next, ∀ t, run.queue.heap e.addr = some t → t.expiration ≤ b.now) :
    Spaced { s with run := run } := by
  refine ⟨howned, fun m hm => (h.numbers m hm).trans hn, h.distinct, h.source, h.paced, ?_, hdue⟩
  intro a t ht
  obtain ⟨m, hm⟩ := h.alive a t (hheap a t ht)
  refine ⟨m, hm.mem, hm.seq, hm.interval, fun hnot => hm.waiting fun now hr => hnot now ((hran a now).mpr hr), ?_⟩
  intro now hr
  exact hm.ran now ((hran a now).mp hr)

/-- A number that was not given out has no starts. -/
theorem Spaced.times_new (h : s.Spaced) : s.times (s.run.numCreated + 1) = [] := by
  rw [times, List.map_eq_nil_iff, List.filter_eq_nil_iff]
  intro x hx heq
  obtain ⟨m, hm, hseq⟩ := h.source x hx
  have hle := h.numbers m hm
  rw [hseq, of_decide_eq_true heq] at hle
  omega

/-- `new Timer`. -/
theorem Spaced.create (h : s.Spaced) {a : Addr} {w : Timestamp} {i : Interval} (hf : s.run.Fresh a)
    (howned : run.Owned) (hn : run.numCreated = s.run.numCreated + 1) (hbatch : run.batch = s.run.batch)
    (hheap : run.queue.heap = (s.run.create a w i).queue.heap) :
    Spaced { s with run := run, made := s.made ++ [⟨s.run.numCreated + 1, w, i⟩] } := by
  have hself : run.queue.heap a = some (s.run.newTimer w i) := by
    rw [hheap]
    exact heap_store_self ..
  have hother : ∀ b, b ≠ a → run.queue.heap b = s.run.queue.heap b := by
    intro b hb
    rw [hheap]
    exact heap_store_of_ne _ hb
  have hran : ∀ b now, run.Ran b now ↔ s.run.Ran b now := by
    intro b now
    rw [Ran, Ran, hbatch]
  -- the number is new, so nothing was recorded for it
  refine ⟨howned, ?_, ?_, ?_, ?_, ?_, ?_⟩
  · intro m hm
    rw [hn]
    rcases List.mem_append.mp hm with hm | hm
    · exact (h.numbers m hm).trans (Nat.le_succ _)
    · rw [List.mem_singleton.mp hm]
  · rw [List.map_append, List.map_singleton]
    refine List.nodup_append.mpr ⟨h.distinct, List.nodup_singleton _, ?_⟩
    intro k hk k' hk' heq
    obtain ⟨m, hm, rfl⟩ := List.mem_map.mp hk
    have hle := h.numbers m hm
    rw [heq, List.mem_singleton.mp hk'] at hle
    exact absurd hle (Nat.not_succ_le_self _)
  · intro x hx
    obtain ⟨m, hm, hseq⟩ := h.source x hx
    exact ⟨m, List.mem_append_left _ hm, hseq⟩
  · intro m hm
    rcases List.mem_append.mp hm with hm | hm
    · exact h.paced m hm
    · rw [List.mem_singleton.mp hm]
      show MadeTimer.Paced _ (s.times (s.run.numCreated + 1))
      rw [h.times_new]
      exact ⟨by simp, .nil, by simp⟩
  · intro b t ht
    by_cases hb : b = a
    · subst hb
      obtain rfl := Option.some.inj (hself.symm.trans ht)
      refine ⟨_, List.mem_append_right _ (List.mem_singleton_self _), rfl, rfl, fun _ => ?_, ?_⟩
      · show MadeTimer.Next _ (s.times (s.run.numCreated + 1)) w ∧ (_ → s.times (s.run.numCreated + 1) = [])
        rw [h.times_new]
        exact ⟨⟨fun _ => le_rfl, by simp⟩, fun _ => rfl⟩
      · intro now hr
        exact absurd ((hran _ _).mp hr) (h.owned.not_ran_of_fresh hf)
    -- a timer that was there has its record as before
    · rw [hother b hb] at ht
      obtain ⟨m, hm⟩ := h.alive b t ht
      refine ⟨m, List.mem_append_left _ hm.mem, hm.seq, hm.interval, ?_, ?_⟩
      · intro hnot
        exact hm.waiting fun now hr => hnot now ((hran _ _).mpr hr)
      · intro now hr
        exact hm.ran now ((hran _ _).mp hr)
  · intro b hb e he t ht
    have hb' : s.run.batch = some b := hbatch.symm.trans hb
    have hlive := h.owned.batch_live hb' ((h.owned.next b hb').subset he)
    -- the batch has live timers only, and the address was free
    have hne : e.addr ≠ a := fun heq => hlive (heq ▸ hf.1)
    rw [hother _ hne] at ht
    exact h.due b hb' e he t ht

theorem times_fired (x : Nat × Timestamp) (k : Nat) :
    times { s with run := run, fired := s.fired ++ [x] } k = s.times k ++ if x.1 = k then [x.2] else [] := by
  unfold times
  rw [List.filter_append, List.map_append]
  congr 1
  by_cases hx : x.1 = k
  · simp [hx]
  · simp [hx]

/-- `run()` of the next timer of the batch. -/
theorem Spaced.fire (h : s.Spaced) {b : ExpiredBatch} {e : Entry} {rest : List Entry} {t : Timer}
    (hb : s.run.batch = some b) (hnext : b.next = e :: rest) (ht : s.run.queue.heap e.addr = some t)
    (howned : (s.run.ran b rest ⟨e.addr, t.sequence⟩).Owned) :
    Spaced { s with run := s.run.ran b rest ⟨e.addr, t.sequence⟩, fired := s.fired ++ [(t.sequence, b.now)] } := by
  have hdue : t.expiration ≤ b.now := h.due b hb e (hnext ▸ List.mem_cons_self ..) t ht
  have hnot : ∀ now, ¬ s.run.Ran e.addr now := by
    rintro now ⟨b', hb', -, -, hout⟩
    obtain rfl := Option.some.inj (hb.symm.trans hb')
    rw [hnext] at hout
    exact hout (List.mem_cons_self ..)
  obtain ⟨m₀, hm₀⟩ := h.alive e.addr t ht
  obtain ⟨hready, honce⟩ := hm₀.waiting hnot
  -- the number belongs to no other timer
  have hsame : ∀ m ∈ s.made, t.sequence = m.seq → m = m₀ := fun m hm heq =>
    List.inj_on_of_nodup_map h.distinct hm hm₀.mem (heq.symm.trans hm₀.seq.symm)
  refine ⟨howned, h.numbers, h.distinct, ?_, ?_, ?_, ?_⟩
  · intro x hx
    rcases List.mem_append.mp hx with hx | hx
    · exact h.source x hx
    · rw [List.mem_singleton.mp hx]
      exact ⟨m₀, hm₀.mem, hm₀.seq⟩
  · intro m hm
    rw [times_fired]
    split
    · next heq =>
      obtain rfl := hsame m hm heq
      apply (h.paced m hm).start hready hdue
      intro hpositive
      apply honce
      rw [Timer.repeat_, ← hm₀.interval]
      exact hpositive
    · rw [List.append_nil]
      exact h.paced m hm
  · intro a u hu
    by_cases ha : a = e.addr
    · subst ha
      obtain rfl := Option.some.inj (ht.symm.trans hu)
      have hran : ∀ now, (s.run.ran b rest ⟨e.addr, t.sequence⟩).Ran e.addr now ↔ now = b.now := by
        intro now
        rw [h.owned.ran_ran hb hnext]
        exact ⟨fun hr => (hr.resolve_left (hnot now)).2, fun heq => .inr ⟨rfl, heq⟩⟩
      refine ⟨m₀, hm₀.mem, hm₀.seq, hm₀.interval, ?_, ?_⟩
      · intro hwait
        exact absurd ((hran b.now).mpr rfl) (hwait b.now)
      · intro now hr
        rw [times_fired, if_pos hm₀.seq.symm, List.getLast?_concat, (hran now).mp hr]
    · obtain ⟨m, hm⟩ := h.alive a u hu
      have hne : t.sequence ≠ m.seq := by
        intro heq
        exact ha (h.owned.queue.distinct a e.addr u t hu ht (heq.trans hm.seq).symm)
      have hran : ∀ now, (s.run.ran b rest ⟨e.addr, t.sequence⟩).Ran a now ↔ s.run.Ran a now := by
        intro now
        rw [h.owned.ran_ran hb hnext]
        exact or_iff_left fun hr => ha hr.1
      refine ⟨m, hm.mem, hm.seq, hm.interval, ?_, ?_⟩
      · intro hwait
        rw [times_fired, if_neg hne, List.append_nil]
        exact hm.waiting fun now hr => hwait now ((hran now).mpr hr)
      · intro now hr
        rw [times_fired, if_neg hne, List.append_nil]
        exact hm.ran now ((hran now).mp hr)
  · intro b' hb' e' he' u hu
    obtain rfl := Option.some.inj hb'
    exact h.due b hb e' (hnext ▸ List.mem_cons_of_mem _ he') u hu

/-- `reset`: what repeats waits for its interval from `now`. -/
theorem Spaced.finish (h : s.Spaced) {b : ExpiredBatch} {q : TimerQueue} {rearm : Option Timestamp}
    (hb : s.run.batch = some b) (hnext : b.next = [])
    (hrun : s.run.queue.finishExpired b.expired b.now = .ok (q, rearm)) (howned : (s.run.finished q).Owned) :
    Spaced { s with run := s.run.finished q } := by
  have howns : { s.run.queue with callingExpiredTimers := false }.Owns (b.expired.map Entry.addr ++ s.run.queued) :=
    { h.owned.batch_owns hb with }
  have hidle : ∀ a now, ¬ (s.run.finished q).Ran a now := fun a now => not_ran_of_idle rfl
  refine ⟨howned, h.numbers, h.distinct, h.source, h.paced, ?_, ?_⟩
  · intro a u hu
    rcases resetEntries_heap howns (resetEntries_of_finishExpired hrun) hu with
      ⟨hout, hu'⟩ | ⟨hin, t, ht, hrepeat, rfl⟩
    · obtain ⟨m, hm⟩ := h.alive a u hu'
      refine ⟨m, hm.mem, hm.seq, hm.interval, ?_, fun now hr => absurd hr (hidle a now)⟩
      intro _
      apply hm.waiting
      rintro now ⟨b', hb', -, hin, -⟩
      obtain rfl := Option.some.inj (hb.symm.trans hb')
      exact hout hin
    · obtain ⟨m, hm⟩ := h.alive a t ht
      have hlast : (s.times m.seq).getLast? = some b.now :=
        hm.ran b.now ⟨b, hb, rfl, hin, by simp [hnext]⟩
      have hrestart : t.restart b.now = { t with expiration := addTime b.now t.interval } := if_pos hrepeat
      rw [hrestart]
      refine ⟨m, hm.mem, hm.seq, hm.interval, ?_, fun now hr => absurd hr (hidle a now)⟩
      intro _
      refine ⟨⟨?_, ?_⟩, ?_⟩
      · intro hnil
        rw [show s.times m.seq = [] from hnil] at hlast
        cases hlast
      · intro x hx
        obtain rfl := Option.some.inj (hlast.symm.trans hx)
        rw [hm.interval, addTime_eq]
      · intro hfalse
        cases hrepeat.symm.trans hfalse
  · intro b' hb'
    cases hb'

/-- **One step.** -/
theorem spaced_step (h : s.Spaced) (hs : s.step l = .ok s') : s'.Spaced := by
  obtain ⟨run, hrun, heq⟩ := bind_eq_ok.mp hs
  obtain rfl := Except.ok.inj heq
  have howned := owned_step h.owned hrun
  cases moves_of_step h.owned hrun with
  | createElsewhere =>
    exact h.quiet howned (Nat.le_succ _) (fun _ _ ht => ht) (fun _ _ => Iff.rfl) h.due
  | addTimer _ hf => exact h.create hf howned rfl rfl rfl
  | queueTimer hf => exact h.create hf howned rfl rfl rfl
  | addTimerInLoop => exact h.quiet howned le_rfl (fun _ _ ht => ht) (fun _ _ => Iff.rfl) h.due
  | cancelInLoop _ hcancel =>
    have hheap : ∀ a t, _ → s.run.queue.heap a = some t := fun a t => cancelInLoop_heap h.owned.queue hcancel
    apply h.quiet howned le_rfl hheap (fun _ _ => Iff.rfl)
    intro b hb e he t ht
    exact h.due b hb e he t (hheap _ _ ht)
  | @handleRead now q expired hidle hstart =>
    obtain ⟨q', hstart', hheap, -⟩ := startExpired_pending h.owned.queue now
    rw [hstart, Except.ok.injEq, Prod.mk.injEq] at hstart'
    obtain ⟨rfl, rfl⟩ := hstart'
    refine h.quiet howned le_rfl (fun a t ht => ?_) (fun a now' => ?_) ?_
    · rw [← hheap]
      exact ht
    -- no callback of the new batch has been started
    · refine iff_of_false ?_ (not_ran_of_idle hidle)
      rintro ⟨b, hb, -, hin, hout⟩
      obtain rfl := Option.some.inj hb
      exact hout hin
    -- what is taken out is due
    · intro b hb e he t ht
      obtain rfl := Option.some.inj hb
      obtain ⟨hin, hle⟩ := mem_due.mp he
      obtain ⟨u, hu, hkey⟩ := h.owned.queue.key e hin
      have ht' : q.heap e.addr = some t := ht
      rw [hheap, hu, Option.some.injEq] at ht'
      rw [← ht', hkey]
      exact hle
  | @run b e rest t hb hnext ht =>
    have hstarting : s.run.starting = [(t.sequence, b.now)] := by
      obtain ⟨now, expired, next⟩ := b
      obtain rfl : next = e :: rest := hnext
      rw [starting, hb]
      show [((s.run.queue.idOf e).seq, now)] = _
      rw [idOf_eq ht]
    have hfire := h.fire hb hnext ht howned
    rw [← hstarting] at hfire
    exact hfire
  | finish hb hnext hfinish => exact h.finish hb hnext hfinish howned

/-! ## The range of the expirations -/

/-- Every `expiration_` is an `int64_t`. -/
def Represented (s : TimerTimes) : Prop := ∀ a t, s.run.queue.heap a = some t → int64 t.expiration = t.expiration

/-- A new timer expires at its `when`. -/
theorem Represented.create (h : s.Represented) {a : Addr} {w : Timestamp} {i : Interval} (hw : int64 w = w)
    (hheap : s'.run.queue.heap = (s.run.create a w i).queue.heap) : s'.Represented := by
  intro b t ht
  rw [hheap] at ht
  by_cases hb : b = a
  · subst hb
    obtain rfl := Option.some.inj ((heap_store_self ..).symm.trans ht)
    exact hw
  · exact h b t ((heap_store_of_ne _ hb).symm.trans ht)

/-- `reset` restarts the timers that are in the condition. -/
theorem Represented.finish (h : s.Represented) (howned : s.run.Owned) {b : ExpiredBatch} {q : TimerQueue}
    {rearm : Option Timestamp} (hb : s.run.batch = some b) (ha : s.InRange .finish)
    (hrun : s.run.queue.finishExpired b.expired b.now = .ok (q, rearm)) :
    Represented { s with run := s.run.finished q } := by
  have howns := howned.batch_owns hb
  have hbegun : { s.run.queue with callingExpiredTimers := false }.Owns (b.expired.map Entry.addr ++ s.run.queued) :=
    { howns with }
  obtain ⟨q', rearm', hrun', -, -, -, hgone⟩ := finishExpired_spec howns b.now
  rw [hrun, Except.ok.injEq, Prod.mk.injEq] at hrun'
  obtain ⟨rfl, rfl⟩ := hrun'
  intro a u hu
  have hu' : q.heap a = some u := hu
  rcases resetEntries_heap hbegun (resetEntries_of_finishExpired hrun) hu' with
    ⟨-, hold⟩ | ⟨hin, t, ht, hrepeat, rfl⟩
  · exact h a u hold
  · obtain ⟨e, he, rfl⟩ := List.mem_map.mp hin
    have hnoted := hgone e he _ hu'
    rw [t.restart_sequence] at hnoted
    have hsum := ha b hb e he t ht ⟨hrepeat, hnoted⟩
    have hrestart : (t.restart b.now).expiration = b.now + t.interval.microSeconds := by
      rw [Timer.restart, if_pos hrepeat, addTime_eq]
    rw [hrestart]
    exact hsum

/-- **One step** under the condition. -/
theorem represented_step (h : s.Represented) (howned : s.run.Owned) (ha : s.InRange l)
    (hs : s.step l = .ok s') : s'.Represented := by
  obtain ⟨run, hrun, heq⟩ := bind_eq_ok.mp hs
  obtain rfl := Except.ok.inj heq
  cases moves_of_step howned hrun with
  | createElsewhere => exact h
  | addTimer => exact h.create ha rfl
  | queueTimer => exact h.create ha rfl
  | addTimerInLoop => exact h
  | cancelInLoop _ hcancel => exact fun a t ht => h a t (cancelInLoop_heap howned.queue hcancel ht)
  | @handleRead now q expired _ hstart =>
    obtain ⟨q', hstart', hheap, -⟩ := startExpired_pending howned.queue now
    rw [hstart, Except.ok.injEq, Prod.mk.injEq] at hstart'
    obtain ⟨rfl, rfl⟩ := hstart'
    exact fun a t ht => h a t (hheap ▸ ht)
  | run => exact h
  | finish hb _ hfinish => exact h.finish howned hb ha hfinish

/-- **The callbacks of every timer**, in any run whose sums do not overflow, with any clock: each start is of a
    timer that was made, not before its `when`, and at least its interval after the one before it. -/
theorem callbacks_spaced (h : timerTimes.Reach InRange s) : s.Represented ∧ (s.made.map MadeTimer.seq).Nodup ∧
    (∀ x ∈ s.fired, ∃ m ∈ s.made, m.seq = x.1) ∧ ∀ m ∈ s.made, m.Paced (s.times m.seq) := by
  have hinv : s.Spaced ∧ s.Represented := by
    refine h.invariant (I := fun s => Spaced s ∧ Represented s) (fun s₀ h₀ => ?_) (fun _ _ _ _ hI ha hs => ?_)
    · rw [show s₀ = _ from h₀]
      exact ⟨spaced_start, fun a t ht => by simp [TimerRun.start, TimerQueue.new] at ht⟩
    · exact ⟨spaced_step hI.1 hs, represented_step hI.2 hI.1.owned ha hs⟩
  exact ⟨hinv.2, hinv.1.distinct, hinv.1.source, hinv.1.paced⟩

/-- A timer of 50 that is first started late, not yet at 179, at 180, and then much later; and one that is deleted
    and whose address is used again. -/
theorem callbacks_spaced_sample : ∃ s : TimerTimes,
    s.made = [⟨1, 100, ⟨true, 50⟩⟩, ⟨2, 120, ⟨false, 0⟩⟩, ⟨3, 300, ⟨false, 0⟩⟩] ∧
    s.fired = [(1, 130), (2, 130), (1, 180), (1, 400), (3, 400)] ∧ s.Represented ∧
    (s.made.map MadeTimer.seq).Nodup ∧ (∀ x ∈ s.fired, ∃ m ∈ s.made, m.seq = x.1) ∧
    ∀ m ∈ s.made, m.Paced (s.times m.seq) := by
  obtain ⟨s, hs, hp⟩ := System.Reach.of_execWhile (S := timerTimes) (C := InRange) (s := ⟨TimerRun.start, [], []⟩)
    (l := [.addTimer 10 100 ⟨true, 50⟩, .queueTimer 20 120 ⟨false, 0⟩, .addTimerInLoop 20, .handleRead 130,
      .run, .run, .finish, .handleRead 179, .finish, .handleRead 180, .run, .addTimer 20 300 ⟨false, 0⟩, .finish,
      .handleRead 170, .finish, .handleRead 400, .run, .run, .finish])
    (p := fun s => decide (s.made = [⟨1, 100, ⟨true, 50⟩⟩, ⟨2, 120, ⟨false, 0⟩⟩,
      ⟨3, 300, ⟨false, 0⟩⟩] ∧
      s.fired = [(1, 130), (2, 130), (1, 180), (1, 400), (3, 400)])) (.init rfl) (by decide +kernel)
  rw [decide_eq_true_eq] at hp
  exact ⟨s, hp.1, hp.2, callbacks_spaced hs⟩

end TimerTimes

end Irono
