import Irono.Net.AddTimer
import Irono.Net.Correctness.StaleIds

/-!
# `Net.Correctness.AddTimerRead` — when `addTimer` reads a timer that is gone

The loop thread may run `addTimerInLoop`, wait until the timer is due, call it and come to `reset` before
the thread in `addTimer` goes on. `reset` deletes a timer that does not repeat. One that does stays until
somebody cancels it, and nobody can before `addTimer` has returned its id.

* `Keeps`: a repeating timer is there, and no note tells `reset` to drop it.
* `addTimer_read`: so the read is safe exactly for `interval > 0.0`, whatever `when` is.
-/

namespace Irono

open Transition

namespace TimerQueue

variable {q r : TimerQueue} {out : List Addr} {now : Timestamp} {a : Addr} {t : Timer}

/-- The repeating timer of `reset` is put back, under its number and with its interval. -/
theorem resetEntry_kept {e : Entry} (h : q.Owns (e.addr :: out)) (ht : q.heap e.addr = some t)
    (hrepeat : t.repeat_ = true) (hfree : ¬ .mk e.addr t.sequence ∈ q.cancelingTimers)
    (hr : q.resetEntry now e = .ok r) : r.heap e.addr = some (t.restart now) := by
  have hderef : q.deref e.addr = .ok t := by simp [deref, ht]
  obtain ⟨u, hu, hrun, -⟩ := insert_spec (store_owns h ht (t.restart_sequence now))
  simp only [resetEntry, hderef, ok_bind, hrepeat, hfree, not_false_eq_true, and_self, if_true, hrun, pure_eq_ok,
    Except.ok.injEq] at hr
  subst hr
  exact heap_store_self ..

theorem restart_interval (t : Timer) (now : Timestamp) : (t.restart now).interval = t.interval := by
  unfold Timer.restart
  split <;> rfl

/-- `reset` deletes no repeating timer without a note. -/
theorem resetEntries_kept : ∀ {l : List Entry} {q r : TimerQueue} {a : Addr} {t : Timer},
    q.Owns (l.map Entry.addr ++ out) → q.resetEntries now l = .ok r → q.heap a = some t → t.repeat_ = true →
    (a ∈ l.map Entry.addr → ¬ .mk a t.sequence ∈ q.cancelingTimers) →
    ∃ u, r.heap a = some u ∧ u.sequence = t.sequence ∧ u.interval = t.interval
  | [], q, r, a, t, _, hr, ht, _, _ => by
    obtain rfl := Except.ok.inj hr
    exact ⟨t, ht, rfl, rfl⟩
  | e :: rest, q, r, a, t, h, hr, ht, hrepeat, hfree => by
    obtain ⟨q₁, hr₁, hr₂⟩ := bind_eq_ok.mp hr
    obtain ⟨howns, hheap, hcanceling, -⟩ := resetEntry_pending now h hr₁
    by_cases ha : a = e.addr
    · subst ha
      have hkept := resetEntry_kept h ht hrepeat (hfree (List.mem_cons_self ..)) hr₁
      have hnot : e.addr ∉ rest.map Entry.addr := fun hin =>
        (List.nodup_cons.mp h.nodup).1 (List.mem_append_left _ (List.mem_append_left _ hin))
      have hrepeat' : (t.restart now).repeat_ = true := by
        rw [Timer.repeat_, restart_interval]
        exact hrepeat
      obtain ⟨u, hu, hseq, hinterval⟩ :=
        resetEntries_kept howns hr₂ hkept hrepeat' fun hin => absurd hin hnot
      exact ⟨u, hu, hseq.trans (t.restart_sequence now), hinterval.trans (restart_interval t now)⟩
    · refine resetEntries_kept howns hr₂ ((hheap a ha).trans ht) hrepeat fun hin => ?_
      rw [hcanceling]
      exact hfree (List.mem_cons_of_mem _ hin)

theorem finishExpired_kept {expired : List Entry} {rearm : Option Timestamp}
    (h : q.Owns (expired.map Entry.addr ++ out)) (hr : q.finishExpired expired now = .ok (r, rearm))
    (ht : q.heap a = some t) (hrepeat : t.repeat_ = true)
    (hfree : a ∈ expired.map Entry.addr → ¬ .mk a t.sequence ∈ q.cancelingTimers) :
    ∃ u, r.heap a = some u ∧ u.sequence = t.sequence ∧ u.interval = t.interval := by
  have howns : { q with callingExpiredTimers := false }.Owns (expired.map Entry.addr ++ out) := { h with }
  exact resetEntries_kept howns (resetEntries_of_finishExpired hr) ht hrepeat hfree

end TimerQueue

namespace AddTimers

open TimerQueue TimerRun

variable {s s' : AddTimers} {l : Label} {p : AddTimer}

/-- A repeating timer is there, and no note tells `reset` to drop it. -/
def Keeps (r : TimerRun) (p : AddTimer) : Prop :=
  ∃ t, r.queue.heap p.timer = some t ∧ t.sequence = p.sequence ∧ t.interval = p.interval ∧
    (p.timer ∈ r.held → ¬ .mk p.timer p.sequence ∈ r.queue.cancelingTimers)

/-- **One step of the queue** keeps a repeating timer whose id is not used. -/
theorem keeps_step {r r' : TimerRun} {l : TimerRun.Label} (h : r.Owned) (hp : p.interval.positive = true)
    (hk : Keeps r p) (hl : l ≠ .cancelInLoop p.id) (hs : r.step l = .ok r') : Keeps r' p := by
  obtain ⟨t, ht, hseq, hinterval, hfree⟩ := hk
  have hother : ∀ {a}, r.Fresh a → p.timer ≠ a := by
    rintro _ hf rfl
    rw [hf.1] at ht
    cases ht
  cases moves_of_step h hs with
  | createElsewhere => exact ⟨t, ht, hseq, hinterval, hfree⟩
  | addTimer _ hf => exact ⟨t, (heap_store_of_ne _ (hother hf)).trans ht, hseq, hinterval, hfree⟩
  | queueTimer hf => exact ⟨t, (heap_store_of_ne _ (hother hf)).trans ht, hseq, hinterval, hfree⟩
  | addTimerInLoop => exact ⟨t, ht, hseq, hinterval, hfree⟩
  | @cancelInLoop id q _ hrun =>
    have hne : id ≠ p.id := fun he => hl (he ▸ rfl)
    have hleaves := cancelInLoop_leaves h.queue hrun
    refine ⟨t, hleaves.heap _ t ht ?_, hseq, hinterval, fun hin => ?_⟩
    · rw [hseq]
      exact hne.symm
    · refine (hleaves.noted _ ?_).not.mpr (hfree hin)
      rw [ne_eq, ActiveTimer.mk_inj]
      rintro ⟨haddr, hnum⟩
      refine hne ?_
      rw [AddTimer.id, haddr, hnum]
  | handleRead _ hrun =>
    obtain ⟨q, hrun', hheap, hempty, -⟩ := startExpired_pending h.queue _
    rw [hrun, Except.ok.injEq, Prod.mk.injEq] at hrun'
    obtain ⟨rfl, rfl⟩ := hrun'
    refine ⟨t, (congrFun hheap _).trans ht, hseq, hinterval, fun _ hin => ?_⟩
    replace hin := hempty ▸ hin
    exact OrderedSet.not_mem_empty _ hin
  | @run b e rest u hbatch =>
    refine ⟨t, ht, hseq, hinterval, fun hin => hfree ?_⟩
    rw [held, hbatch]
    exact hin
  | @finish b q rearm hbatch _ hrun =>
    have hheld : r.held = b.expired.map Entry.addr := by rw [held, hbatch]
    have howns : r.queue.Owns (b.expired.map Entry.addr ++ r.queued) :=
      h.queue.perm (hheld ▸ List.perm_append_comm)
    have hrepeat : t.repeat_ = true := by
      rw [Timer.repeat_, hinterval]
      exact hp
    obtain ⟨u, hu, hnum, hperiod⟩ := finishExpired_kept howns hrun ht hrepeat fun hin => by
      rw [hseq]
      exact hfree (hheld ▸ hin)
    exact ⟨u, hu, hnum.trans hseq, hperiod.trans hinterval, fun hin => by cases hin⟩

/-- **The invariant**: the queue is in order, and it keeps the repeating timers of the threads inside
    `addTimer`. -/
structure Sound (s : AddTimers) : Prop where
  owned : s.run.Owned
  keeps : ∀ p ∈ s.adding, p.interval.positive = true → Keeps s.run p

/-- **One step** keeps it. -/
theorem sound_step (h : s.Sound) (hs : s.step l = .ok s') : s'.Sound := by
  cases l with
  | queue l =>
    simp only [step, bind_eq_ok, enabled_eq_ok, exists_and_left, exists_const, pure_eq_ok, Except.ok.injEq] at hs
    obtain ⟨hpossible, r', hr, rfl⟩ := hs
    have hold : ∀ p ∈ s.adding, p.interval.positive = true → Keeps r' p := by
      intro p hin hp
      refine keeps_step h.owned hp (h.keeps p hin hp) ?_ hr
      rintro rfl
      exact hpossible p hin rfl
    refine ⟨owned_step h.owned hr, fun p hin hp => ?_⟩
    cases l with
    | queueTimer a w i =>
      rcases List.mem_append.mp hin with hin | hin
      · exact hold p hin hp
      · -- the timer just made
        rw [List.mem_singleton] at hin
        subst hin
        cases moves_of_step h.owned hr with
        | queueTimer hf =>
          refine ⟨_, heap_store_self .., rfl, rfl, fun hheld => ?_⟩
          exact absurd ((h.owned.queue.live a).mpr (List.mem_append_left _ (List.mem_append_right _ hheld)))
            (not_not.mpr hf.1)
    | createElsewhere | addTimer | addTimerInLoop | cancelInLoop | handleRead | run | finish => exact hold p hin hp
  | returns p =>
    simp only [step, bind_eq_ok, enabled_eq_ok, require_eq_ok, exists_and_left, exists_const, pure_eq_ok,
      Except.ok.injEq] at hs
    obtain ⟨-, -, rfl⟩ := hs
    exact ⟨h.owned, fun p' hin => h.keeps p' (List.mem_of_mem_erase hin)⟩

theorem sound_of_reachable (h : addTimers.Reachable s) : s.Sound := by
  refine h.invariant (I := Sound) (fun s h0 => ?_) (fun _ _ _ _ hI _ hs => sound_step hI hs)
  have hs : s = start := h0
  subst hs
  exact ⟨owned_start, nofun⟩

/-! ## The read -/

/-- In no run does `addTimer(cb, when, interval)` read a timer that is gone. -/
def ReadsAlive (when : Timestamp) (interval : Interval) : Prop :=
  ∀ s, addTimers.Reachable s → ∀ p ∈ s.adding, p.when = when → p.interval = interval →
    s.step (.returns p) ≠ .error (.fault .useAfterFree)

theorem step_returns (hin : p ∈ s.adding) :
    s.step (.returns p) ≠ .error (.fault .useAfterFree) ↔ s.run.queue.Alive p.id := by
  simp only [step, enabled_of hin, ok_bind]
  show _ ↔ ∃ t ∈ s.run.queue.heap p.timer, t.sequence = p.sequence
  by_cases halive : ∃ t ∈ s.run.queue.heap p.timer, t.sequence = p.sequence
  · simp only [require_of halive, ok_bind, pure_eq_ok]
    exact iff_of_true (by simp) halive
  · simp only [require, if_neg halive, error_bind]
    exact iff_of_false (fun hne => hne rfl) halive

theorem reach_queue {r r' : TimerRun} {adding : List AddTimer} {l : TimerRun.Label}
    (h : addTimers.Reachable ⟨r, adding⟩) (hl : (AddTimers.mk r adding).Possible l) (hr : r.step l = .ok r') :
    addTimers.Reachable ⟨r', (AddTimers.mk r adding).addingAfter l⟩ := by
  refine h.step (a := .queue l) trivial ?_
  show (AddTimers.mk r adding).step (.queue l) = _
  simp only [step, enabled_of hl, hr, ok_bind, pure_eq_ok]

/-- The thread is stopped after `runInLoop`. The loop adds its timer, and calls it as soon as it is due. -/
theorem overtaken (when : Timestamp) (interval : Interval) : ∃ r₂ r₃ r₄ r₅ : TimerRun,
    timerQueue.Reachable r₂ ∧ r₂.step (.handleRead when) = .ok r₃ ∧ r₃.step .run = .ok r₄ ∧
      r₄.step .finish = .ok r₅ ∧ r₂.queue.heap 10 = some ⟨when, interval, 1⟩ ∧ r₅.queued = [] ∧
      r₅.batch = none ∧ addTimers.Reachable ⟨r₅, [⟨10, when, interval, 1⟩]⟩ := by
  have hf : TimerRun.start.Fresh 10 := ⟨rfl, by decide⟩
  obtain ⟨h₁, hact₁⟩ := act_queueTimer (w := when) (i := interval) owned_start hf
  have hs₁ : TimerRun.start.step (.queueTimer 10 when interval) = .ok (TimerRun.start.enqueued 10 when interval) :=
    step_of_act hact₁
  obtain ⟨t, ht, h₂, hact₂⟩ := act_addTimerInLoop h₁ rfl (List.mem_singleton.mpr rfl)
  obtain rfl : ⟨when, interval, 1⟩ = t := Option.some.inj ((heap_store_self (q := new) ..).symm.trans ht)
  have hs₂ : (TimerRun.start.enqueued 10 when interval).step (.addTimerInLoop 10) =
      .ok ((TimerRun.start.enqueued 10 when interval).dequeued 10 ⟨when, interval, 1⟩) :=
    step_of_act hact₂
  generalize hr₂ : (TimerRun.start.enqueued 10 when interval).dequeued 10 ⟨when, interval, 1⟩ = r₂ at h₂ hs₂
  have hdue : r₂.queue.due when = [.mk when 10] := by
    have helems : r₂.queue.timers.elems = [.mk when 10] := by
      rw [← hr₂]
      rfl
    rw [due, helems]
    simp
  obtain ⟨q, hrun, -⟩ := startExpired_pending h₂.queue when
  have hidle : r₂.batch.isNone = true := by
    rw [← hr₂]
    rfl
  have hs₃ : r₂.step (.handleRead when) = .ok (r₂.expiring when q (r₂.queue.due when)) := by
    simp only [TimerRun.step, act, enabled_of hidle, ok_bind, hrun, pure_eq_ok]
    rfl
  have h₃ := owned_step h₂ hs₃
  obtain ⟨u, -, h₄, hact₄⟩ := act_run h₃ rfl hdue
  obtain ⟨q', rearm, -, hact₅, -⟩ := act_finish h₄ rfl rfl
  have hs₄ := step_of_act hact₄
  have hs₅ := step_of_act hact₅
  have hreach : timerQueue.Reachable r₂ := ((System.Reach.init rfl).step trivial hs₁).step trivial hs₂
  have hqueued : r₂.queued = [] := by
    rw [← hr₂]
    rfl
  refine ⟨_, _, _, _, hreach, hs₃, hs₄, hs₅, ?_, hqueued, rfl, ?_⟩
  · rw [← hr₂]
    rfl
  · have ha₁ : addTimers.Reachable ⟨TimerRun.start.enqueued 10 when interval, [⟨10, when, interval, 1⟩]⟩ :=
      reach_queue (l := .queueTimer 10 when interval) (.init rfl) trivial hs₁
    have ha₂ := reach_queue (l := .addTimerInLoop 10) ha₁ trivial hs₂
    have ha₃ := reach_queue (l := .handleRead when) ha₂ trivial hs₃
    exact reach_queue (l := .finish) (reach_queue (l := .run) ha₃ trivial hs₄) trivial hs₅

/-- **The read of `addTimer` is safe exactly for a repeating timer**, whenever it is to expire. -/
theorem addTimer_read (when : Timestamp) (interval : Interval) :
    ReadsAlive when interval ↔ interval.positive = true := by
  constructor
  · intro hsafe
    by_contra honce
    obtain ⟨r₂, r₃, r₄, r₅, hr₂, hread, hrun, hfinish, ht, hqueued, hidle, hreach⟩ := overtaken when interval
    have hin : (⟨10, when, interval, 1⟩ : AddTimer) ∈ [(⟨10, when, interval, 1⟩ : AddTimer)] :=
      List.mem_singleton.mpr rfl
    obtain ⟨t, ht₅, hseq⟩ : r₅.queue.Alive ⟨10, 1⟩ := (step_returns hin).mp (hsafe _ hreach _ hin rfl rfl)
    have h₅ : r₅.Owned := (sound_of_reachable hreach).owned
    -- what exists and is neither queued nor held is pending
    have haddr : 10 ∈ r₅.queue.addrs := by
      have hplace := (h₅.queue.live 10).mp (by rw [ht₅]; exact nofun)
      rw [hqueued, held, hidle] at hplace
      exact hplace
    have hpending : r₅.queue.Pending ⟨10, 1⟩ t.expiration :=
        h₅.queue.pending_iff.mpr ⟨haddr, t, ht₅, hseq, rfl⟩
    have hexec : timerQueue.exec r₃ [.run] = .ok r₄ := bind_eq_ok.mpr ⟨_, hrun, rfl⟩
    rcases ((handleRead_batch hr₂ hread hexec (by decide) hfinish).2 _ _).mp hpending with
      ⟨hbefore, hlater, -⟩ | ⟨before, after, r, i, heq, -⟩ | ⟨⟨_, -, -, u, hu, hrepeat, -⟩, -⟩
    · obtain ⟨-, u, hu, -, hw⟩ := (owned_of_reachable hr₂).queue.pending_iff.mp hbefore
      obtain rfl := Option.some.inj (ht.symm.trans hu)
      rw [← hw] at hlater
      exact lt_irrefl _ hlater
    · cases before with
      | nil => cases heq
      | cons l before => simp at heq
    · obtain rfl := Option.some.inj (ht.symm.trans hu)
      exact honce hrepeat
  · intro hp s hr p hin hwhen hinterval
    obtain ⟨t, ht, hseq, -⟩ := (sound_of_reachable hr).keeps p hin (hinterval ▸ hp)
    exact (step_returns hin).mpr ⟨t, ht, hseq⟩

/-- A one-shot timer is due at 100. It is called and deleted before `addTimer` reads its number. -/
theorem read_after_delete : ¬ ReadsAlive 100 ⟨false, 0⟩ := by
  intro hsafe
  obtain ⟨s, hr, hp⟩ := System.Reach.of_exec (S := addTimers)
    (l := [.queue (.queueTimer 10 100 ⟨false, 0⟩), .queue (.addTimerInLoop 10), .queue (.handleRead 100),
      .queue .run, .queue .finish])
    (p := fun s => decide (⟨10, 100, ⟨false, 0⟩, 1⟩ ∈ s.adding ∧
      faultOf (s.step (.returns ⟨10, 100, ⟨false, 0⟩, 1⟩)) = some .useAfterFree)) (.init rfl) (by decide +kernel)
  obtain ⟨hin, hfault⟩ := of_decide_eq_true hp
  exact hsafe s hr _ hin rfl rfl (faultOf_eq_some.mp hfault)

end AddTimers

end Irono
