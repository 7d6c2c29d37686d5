import Irono.Net.Correctness.TimerOwnership
import Irono.Net.TimerClock

/-!
# `Net.Correctness.TimerArmed` — no timer is stranded

The timerfd is set only when `insert` reports a new earliest timer and when `reset` finds a valid next
expiration; cancels and the re-insertions of `reset` leave it alone. That is enough: outside a
`handleRead` it has expired unread or is armed for every pending timer (`no_timer_stranded`). The one
way out is the subtraction in `howMuchTimeFromNow`, which overflows for an expiration more than `2 ^ 63`
microseconds ago (`timer_stranded`).
-/

namespace Irono

open Transition

/-! ## What the operations do to `timers_` -/

namespace TimerQueue

variable {q q' : TimerQueue} {out : List Addr}

/-- No repeating timer goes back in time. -/
def Durations (q : TimerQueue) : Prop :=
  ∀ a t, q.heap a = some t → t.interval.positive = true → 0 ≤ t.interval.microSeconds

theorem Durations.store (h : q.Durations) {a : Addr} {t : Timer}
    (ht : t.interval.positive = true → 0 ≤ t.interval.microSeconds) : (q.store a t).Durations := by
  intro b u hu
  by_cases hb : b = a
  · subst hb
    rw [heap_store_self, Option.some.injEq] at hu
    exact hu ▸ ht
  · rw [heap_store_of_ne t hb] at hu
    exact h b u hu

theorem Durations.freed (h : q.Durations) (a : Addr) (t : Timer) : (q.freed a t).Durations :=
  fun b u hu => h b u (heap_freed hu).2

/-- After `cancelInLoop` there are no new entries. -/
theorem cancelInLoop_timers (h : q.Owns out) (hd : q.Durations) {id : TimerId}
    (hs : q.cancelInLoop id = .ok q') : q'.Durations ∧ ∀ e ∈ q'.timers, e ∈ q.timers := by
  rcases cancelInLoop_spec h id with ⟨t, -, -, hrun, -⟩ | ⟨-, ⟨-, hrun⟩ | ⟨-, hrun⟩⟩
  · rw [hrun, Except.ok.injEq] at hs
    subst hs
    have hd' : (q.erased id.timer t).Durations := hd
    exact ⟨hd'.freed _ _, fun e he => (OrderedSet.mem_erase.mp he).1⟩
  · rw [hrun, Except.ok.injEq] at hs
    subst hs
    exact ⟨hd, fun e he => he⟩
  · rw [hrun, Except.ok.injEq] at hs
    subst hs
    exact ⟨hd, fun e he => he⟩

/-- What `getExpired` leaves is due after `now`. -/
theorem startExpired_timers (h : q.Owns out) (hd : q.Durations) {now : Timestamp} {expired : List Entry}
    (hs : q.startExpired now = .ok (q', expired)) : q'.Durations ∧ ∀ e ∈ q'.timers, now < e.time := by
  obtain ⟨act, hrun, -⟩ := getExpired_spec h now
  simp only [startExpired, hrun, ok_bind, pure_eq_ok, Except.ok.injEq, Prod.mk.injEq] at hs
  obtain ⟨rfl, -⟩ := hs
  refine ⟨hd, fun e he => ?_⟩
  obtain ⟨hin, hle⟩ := OrderedSet.mem_dropBelow.mp he
  obtain ⟨t, ht, -⟩ := h.key e hin
  exact Entry.now_lt_of_sentry_le (h.bound _ (by simp [ht])) hle

/-- An expired timer comes back for `now` or later. -/
theorem resetEntry_timers (hd : q.Durations) {now : Timestamp} {entry : Entry}
    (hs : q.resetEntry now entry = .ok q') :
    q'.Durations ∧ ∀ e ∈ q'.timers, e ∈ q.timers ∨ now ≤ e.time := by
  simp only [resetEntry, deref, bind_eq_ok] at hs
  obtain ⟨t, ht, hs⟩ := hs
  have ht : q.heap entry.addr = some t := by
    cases hheap : q.heap entry.addr with
    | none => rw [hheap] at ht; cases ht
    | some u =>
      rw [hheap] at ht
      simp only [pure_eq_ok, Except.ok.injEq] at ht
      rw [ht]
  split at hs
  · rename_i hagain
    have hduration := hd _ _ ht hagain.1
    have hd' : (q.store entry.addr (t.restart now)).Durations := by
      refine hd.store fun _ => ?_
      unfold Timer.restart
      split <;> exact hduration
    simp only [insert, bind_eq_ok, Prod.exists, pure_eq_ok, Except.ok.injEq, Prod.mk.injEq] at hs
    obtain ⟨q₁, -, ⟨-, -, u, hu, -, -, -, -, -, -, rfl, -⟩, rfl⟩ := hs
    simp only [deref, heap_store_self, pure_eq_ok, Except.ok.injEq] at hu
    subst hu
    refine ⟨hd', fun e he => ?_⟩
    rcases OrderedSet.mem_insert.mp he with rfl | he
    · right
      rw [Entry.time_mk]
      unfold Timer.restart
      rw [if_pos hagain.1, addTime_eq]
      exact le_add_of_nonneg_right hduration
    · exact .inl he
  · rw [delete_eq ht, Except.ok.injEq] at hs
    subst hs
    exact ⟨hd.freed _ _, fun e he => .inl he⟩

theorem resetEntries_timers {now : Timestamp} {expired : List Entry} (hd : q.Durations)
    (hs : q.resetEntries now expired = .ok q') :
    q'.Durations ∧ ∀ e ∈ q'.timers, e ∈ q.timers ∨ now ≤ e.time := by
  induction expired generalizing q with
  | nil =>
    simp only [resetEntries, pure_eq_ok, Except.ok.injEq] at hs
    subst hs
    exact ⟨hd, fun e he => .inl he⟩
  | cons entry rest ih =>
    simp only [resetEntries, bind_eq_ok] at hs
    obtain ⟨q₁, hfirst, hrest⟩ := hs
    obtain ⟨hd₁, hfirst⟩ := resetEntry_timers hd hfirst
    obtain ⟨hd', hrest⟩ := ih hd₁ hrest
    refine ⟨hd', fun e he => ?_⟩
    rcases hrest e he with he | he
    · exact hfirst e he
    · exact .inr he

/-- After its callbacks, `handleRead` sets the timerfd for the earliest timer, if that is valid. -/
theorem finishExpired_timers {expired : List Entry} {now : Timestamp} {rearm : Option Timestamp}
    (h : q.Owns (expired.map Entry.addr ++ out)) (hd : q.Durations)
    (hs : q.finishExpired expired now = .ok (q', rearm)) :
    q'.Durations ∧ (∀ e ∈ q'.timers, e ∈ q.timers ∨ now ≤ e.time) ∧
      ∀ e, q'.timers.min? = some e → rearm = if Timestamp.valid e.time then some e.time else none := by
  obtain ⟨q₁, rearm₁, hrun, howns, -⟩ := finishExpired_spec h now
  rw [hs, Except.ok.injEq, Prod.mk.injEq] at hrun
  obtain ⟨rfl, rfl⟩ := hrun
  have hd₀ : { q with callingExpiredTimers := false }.Durations := hd
  simp only [finishExpired, reset, bind_eq_ok] at hs
  obtain ⟨q₂, hentries, hs⟩ := hs
  have htimers := resetEntries_timers hd₀ hentries
  cases hmin : q₂.timers.min? with
  | none =>
    simp only [hmin, pure_eq_ok, Except.ok.injEq, Prod.mk.injEq] at hs
    obtain ⟨rfl, rfl⟩ := hs
    refine ⟨htimers.1, htimers.2, fun e he => ?_⟩
    rw [hmin] at he
    cases he
  | some e =>
    simp only [hmin, bind_eq_ok, pure_eq_ok, Except.ok.injEq, Prod.mk.injEq] at hs
    obtain ⟨t, hderef, rfl, rfl⟩ := hs
    refine ⟨htimers.1, htimers.2, fun e' he => ?_⟩
    rw [hmin, Option.some.injEq] at he
    subst he
    obtain ⟨u, hu, hkey⟩ := howns.key e (OrderedSet.mem_of_min? hmin)
    simp only [deref, hu, pure_eq_ok, Except.ok.injEq] at hderef
    rw [← hderef, hkey]

end TimerQueue

/-! ## The timerfd -/

/-- A representable difference is not taken for a later one. -/
theorem int64_le {x : Int} (h : -(2 ^ 63) ≤ x) : int64 x ≤ x := by
  unfold int64 Int.bmod
  simp only
  omega

/-- A positive time is never that long ago. -/
theorem counts_of_pos {w : Int} {clock : Nat} (hw : 0 < w) (hclock : clock < 2 ^ 63) :
    -(2 ^ 63) ≤ w - clock := by omega

namespace TimerClock

variable {s s' : TimerClock}

/-- The timerfd has expired unread, or it is armed for `when`; a time in the past costs the least delay. -/
def Watches (s : TimerClock) (when : Timestamp) : Prop :=
  0 < s.timerfd.expirations ∨
    ∃ deadline, s.timerfd.deadline = some deadline ∧ (deadline : Int) ≤ max when (s.armedAt + 100)

/-- Outside a `handleRead`, the timerfd watches the earliest timer. -/
def NotStranded (s : TimerClock) : Prop :=
  s.timers.batch = none → ∀ e, s.timers.queue.timers.min? = some e → s.Watches e.time

/-- If a timer for `when` becomes the earliest, `howMuchTimeFromNow` can represent how long ago it is. -/
def Counts (s : TimerClock) (when : Timestamp) : Prop :=
  s.timers.queue.earliestChanged when = true → -(2 ^ 63) ≤ when - s.clock

instance (s : TimerClock) (when : Timestamp) : Decidable (s.Counts when) := inferInstanceAs (Decidable (_ → _))

/-- The condition on a step: the timers that it adds count. -/
def InRange (s : TimerClock) : Label → Prop
  | .timer (.addTimer _ when _) => s.Counts when
  | .timer (.addTimerInLoop timer) => ∀ t ∈ s.timers.queue.heap timer, s.Counts t.expiration
  | _ => True

instance (s : TimerClock) : (a : Label) → Decidable (s.InRange a)
  | .timer (.addTimer _ when _) => inferInstanceAs (Decidable (s.Counts when))
  | .timer (.addTimerInLoop timer) =>
    inferInstanceAs (Decidable (∀ t ∈ s.timers.queue.heap timer, s.Counts t.expiration))
  | .timer .createElsewhere | .timer (.queueTimer ..) | .timer (.cancelInLoop _) | .timer (.handleRead _)
  | .timer .run | .timer .finish | .handleRead | .tick _ => isTrue trivial

theorem Watches.mono {w w' : Timestamp} (h : s.Watches w) (hle : w ≤ w') : s.Watches w' := by
  rcases h with hunread | ⟨d, hd, hbound⟩
  · exact .inl hunread
  · exact .inr ⟨d, hd, hbound.trans (max_le_max_right _ hle)⟩

/-- **Arming.** `resetTimerfd` watches what is due then or later. -/
theorem watches_resetTimerfd {w : Timestamp} (h : -(2 ^ 63) ≤ w - s.clock) : (s.resetTimerfd w).Watches w := by
  refine .inr ⟨_, rfl, ?_⟩
  have hle := int64_le h
  show ((s.clock + (max (int64 (w - s.clock)) 100).toNat : Nat) : Int) ≤ max w (s.clock + 100)
  omega

/-! ## The invariant -/

/-- **The invariant.** Every pending timer is watched; or `handleRead` is in progress, and all of them are
    valid, so that `reset` will set the timerfd. -/
structure Armed (s : TimerClock) : Prop where
  owned : s.timers.Owned
  positive : 0 < s.clock
  range : s.clock < 2 ^ 63
  durations : s.timers.queue.Durations
  begun : ∀ b ∈ s.timers.batch, 0 < b.now
  covered : (∀ e ∈ s.timers.queue.timers, s.Watches e.time) ∨
    s.timers.batch ≠ none ∧ ∀ e ∈ s.timers.queue.timers, 0 < e.time

theorem armed_start {clock : Nat} (h : 0 < clock) (hr : clock < 2 ^ 63) : (start clock).Armed := by
  refine ⟨TimerRun.owned_start, h, hr, ?_, ?_, .inl ?_⟩ <;>
    simp [start, TimerRun.start, TimerQueue.new, TimerQueue.Durations]

theorem Armed.notStranded (h : s.Armed) : s.NotStranded := by
  intro hbatch e he
  rcases h.covered with hall | ⟨hne, -⟩
  · exact hall e (OrderedSet.mem_of_min? he)
  · exact absurd hbatch hne

/-- The new earliest timer is due before all others. -/
theorem le_of_earliestChanged {q : TimerQueue} {w : Timestamp} (h : q.earliestChanged w = true) {e : Entry}
    (he : e ∈ q.timers) : w ≤ e.time := by
  obtain ⟨m, hmin, hle⟩ := OrderedSet.exists_min?_le he
  simp only [TimerQueue.earliestChanged, hmin, decide_eq_true_eq] at h
  exact (le_of_lt h).trans (Entry.time_le hle)

/-- A timer that is not the earliest has one before it. -/
theorem exists_of_not_earliestChanged {q : TimerQueue} {w : Timestamp} (h : q.earliestChanged w = false) :
    ∃ e ∈ q.timers, e.time ≤ w := by
  unfold TimerQueue.earliestChanged at h
  cases hmin : q.timers.min? with
  | none => simp [hmin] at h
  | some m =>
    simp only [hmin, decide_eq_false_iff_not, not_lt] at h
    exact ⟨m, OrderedSet.mem_of_min? hmin, h⟩

/-- **Adding a timer**: it is the earliest and the timerfd is set for it, or an earlier one is watched. -/
theorem covered_added (h : s.Armed) {a : Addr} {t : Timer} {timers : TimerRun}
    (hq : timers.queue.timers = s.timers.queue.timers.insert (.mk t.expiration a))
    (hb : timers.batch = s.timers.batch) (hc : s.Counts t.expiration) :
    let s' := s.withTimers timers
      (if s.timers.queue.earliestChanged t.expiration then some t.expiration else none)
    (∀ e ∈ s'.timers.queue.timers, s'.Watches e.time) ∨
      s'.timers.batch ≠ none ∧ ∀ e ∈ s'.timers.queue.timers, 0 < e.time := by
  cases he : s.timers.queue.earliestChanged t.expiration with
  | true =>
    left
    show ∀ e ∈ timers.queue.timers, _
    intro e hin
    have harmed : ({ s with timers := timers }.resetTimerfd t.expiration).Watches t.expiration :=
      watches_resetTimerfd (hc he)
    refine harmed.mono ?_
    rw [hq] at hin
    rcases OrderedSet.mem_insert.mp hin with rfl | hin
    · exact le_refl _
    · exact le_of_earliestChanged he hin
  | false =>
    obtain ⟨m, hm, hle⟩ := exists_of_not_earliestChanged he
    rcases h.covered with hall | ⟨hbatch, hpos⟩
    · left
      show ∀ e ∈ timers.queue.timers, s.Watches e.time
      intro e hin
      rw [hq] at hin
      rcases OrderedSet.mem_insert.mp hin with rfl | hin
      · exact (hall m hm).mono hle
      · exact hall e hin
    · right
      show timers.batch ≠ none ∧ ∀ e ∈ timers.queue.timers, 0 < e.time
      refine ⟨hb ▸ hbatch, fun e hin => ?_⟩
      rw [hq] at hin
      rcases OrderedSet.mem_insert.mp hin with rfl | hin
      · exact lt_of_lt_of_le (hpos m hm) hle
      · exact hpos e hin

theorem armed_added (h : s.Armed) {a : Addr} {t : Timer} {timers : TimerRun}
    (howned : timers.Owned) (hd : timers.queue.Durations) (hb : timers.batch = s.timers.batch)
    (hq : timers.queue.timers = s.timers.queue.timers.insert (.mk t.expiration a))
    (hc : s.Counts t.expiration) :
    (s.withTimers timers
      (if s.timers.queue.earliestChanged t.expiration then some t.expiration else none)).Armed := by
  have hcovered := covered_added h hq hb hc
  have hbegun : ∀ b ∈ timers.batch, 0 < b.now := hb ▸ h.begun
  cases he : s.timers.queue.earliestChanged t.expiration with
  | true => exact ⟨howned, h.positive, h.range, hd, hbegun, by rw [he] at hcovered; exact hcovered⟩
  | false => exact ⟨howned, h.positive, h.range, hd, hbegun, by rw [he] at hcovered; exact hcovered⟩

/-- A step that adds no entry and leaves the timerfd alone. -/
theorem Armed.quiet (h : s.Armed) {timers : TimerRun} (howned : timers.Owned)
    (hd : timers.queue.Durations) (hbegun : ∀ b ∈ timers.batch, 0 < b.now)
    (hsub : ∀ e ∈ timers.queue.timers, e ∈ s.timers.queue.timers)
    (hb : s.timers.batch ≠ none → timers.batch ≠ none) : (s.withTimers timers none).Armed := by
  refine ⟨howned, h.positive, h.range, hd, hbegun, ?_⟩
  rcases h.covered with hall | ⟨hbatch, hpos⟩
  · exact .inl fun e he => hall e (hsub e he)
  · exact .inr ⟨hb hbatch, fun e he => hpos e (hsub e he)⟩

/-- **The end of `handleRead`.** An invalid earliest timer was added by a callback, which set the timerfd;
    otherwise `reset` sets it now. -/
theorem armed_finish (h : s.Armed) {timers : TimerRun} {rearm : Option Timestamp}
    (hs : s.timers.act .finish = .ok (timers, rearm)) : (s.withTimers timers rearm).Armed := by
  have howned : timers.Owned := TimerRun.owned_step h.owned (a := .finish) (by simp [TimerRun.step, hs])
  simp only [TimerRun.act] at hs
  split at hs
  · rename_i now expired hbatch
    simp only [bind_eq_ok, Prod.exists, pure_eq_ok, Except.ok.injEq, Prod.mk.injEq] at hs
    obtain ⟨q, rearm', hfinish, rfl, rfl⟩ := hs
    have howns : s.timers.queue.Owns (expired.map Entry.addr ++ s.timers.queued) := by
      refine h.owned.queue.perm ?_
      rw [TimerRun.held, hbatch]
      exact List.perm_append_comm
    have hnow : 0 < now := h.begun ⟨now, expired, []⟩ (by rw [hbatch]; rfl)
    obtain ⟨hd, hentries, hrearm⟩ := TimerQueue.finishExpired_timers howns h.durations hfinish
    have hcovered : ∀ e ∈ q.timers, (s.withTimers { s.timers with queue := q, batch := none } rearm').Watches
        e.time := by
      intro e he
      obtain ⟨m, hmin, hle⟩ := OrderedSet.exists_min?_le he
      have hle := Entry.time_le hle
      rw [hrearm m hmin]
      by_cases hvalid : Timestamp.valid m.time
      · rw [if_pos hvalid]
        have hcounts : -(2 ^ 63) ≤ m.time - (s.clock : Int) := counts_of_pos hvalid h.range
        exact (watches_resetTimerfd (s := { s with timers := { s.timers with queue := q, batch := none } })
          hcounts).mono hle
      · -- an invalid timer was not put back by `reset`
        rw [if_neg hvalid]
        have hold : m ∈ s.timers.queue.timers := by
          rcases hentries m (OrderedSet.mem_of_min? hmin) with hold | hge
          · exact hold
          · exact absurd (lt_of_lt_of_le hnow hge) hvalid
        have hwatch : s.Watches m.time := by
          rcases h.covered with hall | ⟨-, hpos⟩
          · exact hall m hold
          · exact absurd (hpos m hold) hvalid
        exact hwatch.mono hle
    cases rearm' with
    | none => exact ⟨howned, h.positive, h.range, hd, by simp [withTimers], .inl hcovered⟩
    | some w => exact ⟨howned, h.positive, h.range, hd, by simp [withTimers, resetTimerfd], .inl hcovered⟩
  · cases hs

theorem armed_timer {a : TimerRun.Label} {timers : TimerRun} {rearm : Option Timestamp} (h : s.Armed)
    (ha : Typed a) (hc : s.InRange (.timer a)) (hs : s.timers.act a = .ok (timers, rearm)) :
    (s.withTimers timers rearm).Armed := by
  have howned : timers.Owned := TimerRun.owned_step h.owned (a := a) (by simp [TimerRun.step, hs])
  have hguard := hs
  cases a with
  | createElsewhere =>
    simp only [TimerRun.act, pure_eq_ok, Except.ok.injEq, Prod.mk.injEq] at hs
    obtain ⟨rfl, rfl⟩ := hs
    exact h.quiet howned h.durations h.begun (fun e he => he) id
  | addTimer a w i =>
    simp only [TimerRun.act, bind_eq_ok, enabled_eq_ok] at hguard
    obtain ⟨-, ⟨hu, hf⟩, -⟩ := hguard
    rw [(TimerRun.act_addTimer h.owned hu hf).2, Except.ok.injEq, Prod.mk.injEq] at hs
    obtain ⟨rfl, rfl⟩ := hs
    exact armed_added h (t := s.timers.newTimer w i) howned (h.durations.store ha.2) rfl rfl hc
  | queueTimer a w i =>
    simp only [TimerRun.act, bind_eq_ok, pure_eq_ok, Except.ok.injEq, Prod.mk.injEq] at hs
    obtain ⟨-, -, rfl, rfl⟩ := hs
    exact h.quiet howned (h.durations.store ha.2) h.begun (fun e he => he) id
  | addTimerInLoop a =>
    simp only [TimerRun.act, bind_eq_ok, enabled_eq_ok] at hguard
    obtain ⟨-, ⟨hb, hin⟩, -⟩ := hguard
    obtain ⟨t, ht, -, hrun⟩ := TimerRun.act_addTimerInLoop h.owned hb hin
    rw [hrun, Except.ok.injEq, Prod.mk.injEq] at hs
    obtain ⟨rfl, rfl⟩ := hs
    exact armed_added h howned h.durations rfl rfl (hc t ht)
  | cancelInLoop id =>
    simp only [TimerRun.act, bind_eq_ok, pure_eq_ok, Except.ok.injEq, Prod.mk.injEq] at hs
    obtain ⟨-, -, q, hcancel, rfl, rfl⟩ := hs
    obtain ⟨hd, hsub⟩ := TimerQueue.cancelInLoop_timers h.owned.queue h.durations hcancel
    exact h.quiet howned hd h.begun hsub (fun hne => hne)
  | handleRead now => exact ha.elim
  | run =>
    simp only [TimerRun.act] at hs
    split at hs
    · rename_i now expired entry rest hbatch
      simp only [bind_eq_ok, pure_eq_ok, Except.ok.injEq, Prod.mk.injEq] at hs
      obtain ⟨t, -, rfl, rfl⟩ := hs
      have hnow : 0 < now := h.begun ⟨now, expired, entry :: rest⟩ (by rw [hbatch]; rfl)
      refine h.quiet howned h.durations ?_ (fun e he => he) (by simp)
      intro b hb
      rw [Option.mem_def, Option.some.injEq] at hb
      exact hb ▸ hnow
    · cases hs
  | finish => exact armed_finish h hs

/-- **One step** under the condition. -/
theorem armed_step {a : Label} (h : s.Armed) (hc : s.InRange a) (hs : s.step a = .ok s') : s'.Armed := by
  cases a with
  | timer a =>
    simp only [step, bind_eq_ok, enabled_eq_ok, Result.mapFault_eq_ok, Prod.exists, pure_eq_ok,
      Except.ok.injEq] at hs
    obtain ⟨-, ha, timers, rearm, hact, rfl⟩ := hs
    exact armed_timer h ha hc hact
  | handleRead =>
    -- what is left in the sets is due later than `now`
    simp only [step, bind_eq_ok, Result.mapFault_eq_ok, Prod.exists, pure_eq_ok, Except.ok.injEq] at hs
    obtain ⟨-, -, -, -, timers, rearm, hact, rfl⟩ := hs
    have howned : timers.Owned :=
      TimerRun.owned_step h.owned (a := .handleRead s.clock) (by simp [TimerRun.step, hact])
    simp only [TimerRun.act, bind_eq_ok, Prod.exists, pure_eq_ok, Except.ok.injEq, Prod.mk.injEq] at hact
    obtain ⟨-, -, q, expired, hstart, rfl, rfl⟩ := hact
    obtain ⟨hd, hlater⟩ := TimerQueue.startExpired_timers h.owned.queue h.durations hstart
    have hnow : (0 : Int) < s.clock := Int.natCast_pos.mpr h.positive
    refine ⟨howned, h.positive, h.range, hd, ?_, .inr ⟨by simp [withTimers], fun e he => ?_⟩⟩
    · intro b hb
      simp only [withTimers, Option.mem_def, Option.some.injEq] at hb
      exact hb ▸ hnow
    · exact hnow.trans (hlater e he)
  | tick elapsed =>
    simp only [step, bind_eq_ok, enabled_eq_ok, pure_eq_ok, Except.ok.injEq] at hs
    obtain ⟨-, hrange, rfl⟩ := hs
    refine ⟨h.owned, Nat.add_pos_left h.positive _, hrange, h.durations, h.begun, ?_⟩
    refine h.covered.imp_left fun hall e he => ?_
    show 0 < (s.timerfd.tick (s.clock + elapsed)).expirations ∨ _
    rcases hall e he with hunread | ⟨d, hd, hbound⟩
    · exact .inl (Nat.lt_of_lt_of_le hunread (s.timerfd.le_expirations_tick _))
    · unfold TimerFd.tick
      rw [hd]
      by_cases hle : d ≤ s.clock + elapsed
      · simp [hle]
      · simp only [hle, if_false]
        exact .inr ⟨d, hd, hbound⟩

/-- **No timer is stranded**, in every run whose new earliest timers are not more than `2 ^ 63`
    microseconds past. -/
theorem no_timer_stranded (h : timerClock.Reach InRange s) : s.NotStranded := by
  have ha : s.Armed := h.invariant (I := Armed)
    (fun s h0 => by obtain ⟨clock, hpos, hrange, rfl⟩ := h0; exact armed_start hpos hrange)
    (fun _ _ _ _ hI hc hs => armed_step hI hc hs)
  exact ha.notStranded

/-- A callback adds two timers for the past and cancels the earlier one: `reset` finds no valid next
    expiration, and the timerfd is still armed as the first of them left it. -/
theorem no_timer_stranded_sample : ∃ s : TimerClock, s.timers.queue.timers.min? = some (.mk (-3) 30) ∧
    s.timers.batch = none ∧ s.timerfd.deadline = some 1700 ∧ s.NotStranded := by
  obtain ⟨s, hs, hp⟩ := System.Reach.of_execWhile (S := timerClock) (C := InRange)
    (l := [.timer (.addTimer 10 1500 ⟨false, 0⟩), .tick 600, .handleRead, .timer .run,
      .timer (.addTimer 20 (-5) ⟨false, 0⟩), .timer (.addTimer 30 (-3) ⟨false, 0⟩),
      .timer (.cancelInLoop ⟨20, 2⟩), .timer .finish])
    (p := fun s => decide (s.timers.queue.timers.min? = some (.mk (-3) 30) ∧ s.timers.batch.isNone ∧
      s.timerfd.deadline = some 1700)) (.init ⟨1000, by decide, by decide, rfl⟩) (by decide +kernel)
  rw [decide_eq_true_eq] at hp
  exact ⟨s, hp.1, Option.isNone_iff_eq_none.mp hp.2.1, hp.2.2, no_timer_stranded hs⟩

/-- **The difference overflows.** A timer for the least `int64_t` is the earliest; `when - now` wraps around
    to the far future, and so does the timerfd. -/
theorem timer_stranded : ¬ ∀ s : TimerClock, timerClock.Reachable s → s.NotStranded := by
  intro hall
  obtain ⟨s, hs, hp⟩ := System.Reach.of_exec (S := timerClock)
    (l := [.timer (.addTimer 10 (-(2 ^ 63)) ⟨false, 0⟩)])
    (p := fun s => decide (s.timers.batch.isNone ∧
      s.timers.queue.timers.min? = some (.mk (-(2 ^ 63)) 10) ∧ s.timerfd = ⟨some (2 ^ 63), 0⟩ ∧
      s.armedAt = 1000)) (.init ⟨1000, by decide, by decide, rfl⟩) (by decide +kernel)
  rw [decide_eq_true_eq] at hp
  obtain ⟨hbatch, hmin, hfd, harmed⟩ := hp
  rcases hall s hs (Option.isNone_iff_eq_none.mp hbatch) _ hmin with hunread | ⟨d, hd, hbound⟩
  · rw [hfd] at hunread
    exact absurd hunread (Nat.lt_irrefl 0)
  · rw [hfd, Option.some.injEq] at hd
    rw [← hd, harmed, Entry.time_mk] at hbound
    exact absurd hbound (by decide)

end TimerClock

end Irono
