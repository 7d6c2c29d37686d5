import Irono.Net.Correctness.TimerOwnership
import Irono.Net.TimerLoop

/-!
# `Net.Correctness.TimerFd` — when the read of the timerfd cannot fail

`poll` reports the timerfd once, and the handlers before it in the batch run in between. One that adds a
timer which becomes the earliest makes `addTimerInLoop` set the timerfd, and the expiration that was
reported is gone: `readTimerfd` then reads nothing and aborts (`readTimerfd_aborts`). In every run without
such an `addTimer` the read succeeds (`readTimerfd_never_aborts`).

The loop's timer queue is the one of `timerQueue`: `timers_refine`, hence `timerLoop_sound`.
-/

namespace Irono

open Transition

namespace TimerLoop

/-! ## The timer queue of the loop -/

variable {s s' : TimerLoop}

theorem timerStep_timers {a : TimerRun.Label} (h : s.timerStep a = .ok s') :
    timerQueue.step s.timers a = .ok s'.timers ∧ s'.loop = s.loop := by
  obtain ⟨timers, rearm, hact, rfl⟩ := timerStep_eq_ok.mp h
  refine ⟨?_, s.withTimers_loop timers rearm⟩
  show TimerRun.step s.timers a = _
  simp only [TimerRun.step, hact, ok_bind, pure_eq_ok, withTimers_timers]

/-- What the first piece of a task does to the timer queue. -/
theorem startTask_timers {task : Option (EventLoop.Task Handler Functor)}
    (h : s.startTask task = .ok s') :
    (s'.timers = s.timers ∨ ∃ a, timerQueue.step s.timers a = .ok s'.timers) ∧ s'.loop = s.loop := by
  match task with
  | none => simp only [startTask, pure_eq_ok, Except.ok.injEq] at h; exact h ▸ ⟨.inl rfl, rfl⟩
  | some (.handler .user) => simp only [startTask, pure_eq_ok, Except.ok.injEq] at h; exact h ▸ ⟨.inl rfl, rfl⟩
  | some (.functor .user) => simp only [startTask, pure_eq_ok, Except.ok.injEq] at h; exact h ▸ ⟨.inl rfl, rfl⟩
  | some (.functor (.addTimerInLoop a)) => exact (timerStep_timers h).imp_left (fun hs => .inr ⟨_, hs⟩)
  | some (.functor (.cancelInLoop id)) => exact (timerStep_timers h).imp_left (fun hs => .inr ⟨_, hs⟩)
  | some (.handler .timerfd) =>
    simp only [startTask, handleRead, readTimerfd, bind_eq_ok, require_eq_ok, pure_eq_ok,
      Except.ok.injEq] at h
    obtain ⟨_, ⟨-, -, rfl⟩, hs⟩ := h
    exact (timerStep_timers hs).imp_left (fun hs => .inr ⟨_, hs⟩)

/-- **Refinement.** Each step of the loop is at most one step of its timer queue. -/
theorem timers_refine : System.Simulation timerLoop timerQueue (fun s t => s.timers = t) where
  init := fun s h0 => by
    have hs : s = start := h0
    exact ⟨_, rfl, by rw [hs]; rfl⟩
  step := fun s t a s' _ hR hs => by
    subst hR
    have timer : ∀ {b s₁}, s.timerStep b = .ok s₁ → s₁.timers = s'.timers →
        s'.timers = s.timers ∨ ∃ b t', timerQueue.step s.timers b = .ok t' ∧ s'.timers = t' :=
      fun hb heq => .inr ⟨_, _, (timerStep_timers hb).1, heq.symm⟩
    have hs : step s a = .ok s' := hs
    cases a with
    | loop mv =>
      simp only [step, bind_eq_ok, Prod.exists] at hs
      obtain ⟨-, -, loop, task, -, htask⟩ := hs
      rcases (startTask_timers htask).1 with heq | ⟨b, hb⟩
      · exact .inl heq
      · exact .inr ⟨b, _, hb, rfl⟩
    | run => exact timer hs rfl
    | finish => exact timer hs rfl
    | createElsewhere => exact timer hs rfl
    | addTimer a w i =>
      simp only [step, bind_eq_ok] at hs
      obtain ⟨-, -, hs⟩ := hs
      exact timer hs rfl
    | cancel id =>
      simp only [step, bind_eq_ok] at hs
      obtain ⟨-, -, hs⟩ := hs
      exact timer hs rfl
    | queueTimer a w i =>
      simp only [step, bind_eq_ok, pure_eq_ok, Except.ok.injEq] at hs
      obtain ⟨s₁, hs₁, rfl⟩ := hs
      exact timer hs₁ rfl
    | ret =>
      simp only [step, bind_eq_ok, pure_eq_ok, Except.ok.injEq] at hs
      obtain ⟨-, -, rfl⟩ := hs
      exact .inl rfl
    | queueInLoop b =>
      simp only [step, bind_eq_ok, pure_eq_ok, Except.ok.injEq] at hs
      obtain ⟨-, -, rfl⟩ := hs
      exact .inl rfl
    | queueCancel id =>
      simp only [step, pure_eq_ok, Except.ok.injEq] at hs
      exact .inl (by rw [← hs])
    | quit =>
      simp only [step, pure_eq_ok, Except.ok.injEq] at hs
      exact .inl (by rw [← hs])
    | tick d now =>
      simp only [step, pure_eq_ok, Except.ok.injEq] at hs
      exact .inl (by rw [← hs])

theorem timers_owned (h : timerLoop.Reachable s) : s.timers.Owned := by
  obtain ⟨t, ht, heq⟩ := timers_refine.reachable h
  exact heq ▸ TimerRun.owned_of_reachable ht

/-- The timers of a loop are in order whatever the loop does. -/
theorem timerLoop_sound (h : timerLoop.Reachable s) : s.timers.Sound := (timers_owned h).sound

/-! ## The reported timerfd -/

/-- The timerfd was reported by the last `poll` and its handler is still to come. -/
def Reported (s : TimerLoop) : Prop := .channel .timerfd ∈ s.loop.activeChannels

instance (s : TimerLoop) : Decidable s.Reported := inferInstanceAs (Decidable (_ ∈ _))

/-- While the timerfd is reported, `addTimer` does not make its timer the earliest. -/
def KeepsReport (s : TimerLoop) : Label → Prop
  | .addTimer _ when _ => s.Reported → s.timers.queue.earliestChanged when = false
  | _ => True

instance (s : TimerLoop) : (a : Label) → Decidable (s.KeepsReport a)
  | .addTimer _ when _ =>
    inferInstanceAs (Decidable (s.Reported → s.timers.queue.earliestChanged when = false))
  | .loop _ => isTrue trivial
  | .run => isTrue trivial
  | .finish => isTrue trivial
  | .ret => isTrue trivial
  | .cancel _ => isTrue trivial
  | .queueTimer .. => isTrue trivial
  | .queueCancel _ => isTrue trivial
  | .queueInLoop _ => isTrue trivial
  | .quit => isTrue trivial
  | .tick .. => isTrue trivial
  | .createElsewhere => isTrue trivial

/-- **The invariant.** A reported timerfd has an unread expiration. -/
structure Unread (s : TimerLoop) : Prop where
  once : s.loop.activeChannels.count (.channel .timerfd) ≤ 1
  unread : s.Reported → 0 < s.timerfd.expirations ∧ s.timers.batch = none

theorem unread_start : start.Unread := by
  constructor <;> simp [start, EventLoop.new, EventLoop.activeChannels, Reported]

/-- Where the dispatch list is the same, only a reported timerfd matters. -/
theorem Unread.frame (h : s.Unread) (hloop : s'.loop.activeChannels = s.loop.activeChannels)
    (hrep : s.Reported → 0 < s'.timerfd.expirations ∧ s'.timers.batch = none) : s'.Unread := by
  refine ⟨hloop ▸ h.once, fun hr => hrep ?_⟩
  rw [Reported, ← hloop]
  exact hr

theorem unread_withTimers (h : s.Unread) {timers : TimerRun} {rearm : Option Timestamp}
    (hrep : s.Reported → rearm = none ∧ timers.batch = s.timers.batch) :
    (s.withTimers timers rearm).Unread := by
  refine h.frame (by simp) (fun hr => ?_)
  obtain ⟨rfl, hbatch⟩ := hrep hr
  exact ⟨(h.unread hr).1, hbatch.trans (h.unread hr).2⟩

/-- Only a handler of the loop's own code comes before the read, and it does not touch the timerfd. -/
theorem unread_loop {loop : EventLoop Handler Functor} {task : Option (EventLoop.Task Handler Functor)}
    {mv : EventLoop.Move Handler} (h : s.Unread) (hb : s.timers.batch = none) (hr : s.Reportable mv)
    (hadv : s.loop.advance mv = .ok (loop, task))
    (hs : { s with loop := loop }.startTask task = .ok s') : s'.Unread := by
  have hloop : s'.loop = loop := (startTask_timers hs).2
  rcases EventLoop.advance_activeChannels hadv with ⟨hnil, -⟩ | ⟨active, rfl, hactive, rfl⟩ |
    ⟨a, hcons, hcase⟩
  · refine ⟨by simp [hloop, hnil], fun hrep => ?_⟩
    simp [Reported, hloop, hnil] at hrep
  · simp only [startTask, pure_eq_ok, Except.ok.injEq] at hs
    subst hs
    refine ⟨hactive.symm ▸ hr.2, fun hrep => ⟨hr.1 ?_, hb⟩⟩
    rwa [Reported, hactive] at hrep
  · have hcount : s.loop.activeChannels.count (.channel .timerfd) ≤ 1 := h.once
    rw [hcons] at hcount
    have hreported : .channel .timerfd ∈ loop.activeChannels → s.Reported := fun hin => by
      rw [Reported, hcons]; exact List.mem_cons_of_mem _ hin
    refine ⟨hloop.symm ▸ (List.count_le_count_cons ..).trans hcount, fun hrep => ?_⟩
    rw [Reported, hloop] at hrep
    rcases hcase with ⟨rfl, rfl⟩ | ⟨hd, rfl, rfl⟩
    · simp only [startTask, pure_eq_ok, Except.ok.injEq] at hs
      subst hs
      exact h.unread (hreported hrep)
    · cases hd with
      | user =>
        simp only [startTask, pure_eq_ok, Except.ok.injEq] at hs
        subst hs
        exact h.unread (hreported hrep)
      | timerfd =>
        -- it was reported once, so its handler is not called again
        rw [List.count_cons_self] at hcount
        have hpos := List.count_pos_iff.mpr hrep
        omega

/-- **One step** under the condition. -/
theorem unread_step {a : Label} (h : s.Unread) (hown : s.timers.Owned) (ha : s.KeepsReport a)
    (hs : s.step a = .ok s') : s'.Unread := by
  cases a with
  | loop mv =>
    simp only [step, bind_eq_ok, enabled_eq_ok, Result.mapFault_eq_ok, Prod.exists] at hs
    obtain ⟨-, ⟨hb, -, hr⟩, loop, task, hadv, hs⟩ := hs
    exact unread_loop h (Option.isNone_iff_eq_none.mp hb) hr hadv hs
  | run =>
    obtain ⟨timers, rearm, hact, rfl⟩ := timerStep_eq_ok.mp hs
    refine unread_withTimers h (fun hr => ?_)
    simp [TimerRun.act, (h.unread hr).2] at hact
  | finish =>
    obtain ⟨timers, rearm, hact, rfl⟩ := timerStep_eq_ok.mp hs
    refine unread_withTimers h (fun hr => ?_)
    simp [TimerRun.act, (h.unread hr).2] at hact
  | createElsewhere =>
    obtain ⟨timers, rearm, hact, rfl⟩ := timerStep_eq_ok.mp hs
    simp only [TimerRun.act, pure_eq_ok, Except.ok.injEq, Prod.mk.injEq] at hact
    exact unread_withTimers h (fun _ => ⟨hact.2.symm, by rw [← hact.1]⟩)
  | addTimer a w i =>
    simp only [step, bind_eq_ok] at hs
    obtain ⟨-, -, hs⟩ := hs
    obtain ⟨timers, rearm, hact, rfl⟩ := timerStep_eq_ok.mp hs
    have hg := hact
    simp only [TimerRun.act, bind_eq_ok, enabled_eq_ok] at hg
    obtain ⟨-, ⟨hu, hf⟩, -⟩ := hg
    rw [(TimerRun.act_addTimer hown hu hf).2, Except.ok.injEq, Prod.mk.injEq] at hact
    obtain ⟨rfl, rfl⟩ := hact
    exact unread_withTimers h (fun hr => ⟨by rw [ha hr]; rfl, rfl⟩)
  | cancel id =>
    simp only [step, bind_eq_ok] at hs
    obtain ⟨-, -, hs⟩ := hs
    obtain ⟨timers, rearm, hact, rfl⟩ := timerStep_eq_ok.mp hs
    simp only [TimerRun.act, bind_eq_ok, pure_eq_ok, Except.ok.injEq, Prod.mk.injEq] at hact
    obtain ⟨-, -, q, -, rfl, rfl⟩ := hact
    exact unread_withTimers h (fun _ => ⟨rfl, rfl⟩)
  | queueTimer a w i =>
    simp only [step, bind_eq_ok, pure_eq_ok, Except.ok.injEq] at hs
    obtain ⟨s₁, hs₁, rfl⟩ := hs
    obtain ⟨timers, rearm, hact, rfl⟩ := timerStep_eq_ok.mp hs₁
    simp only [TimerRun.act, bind_eq_ok, pure_eq_ok, Except.ok.injEq, Prod.mk.injEq] at hact
    obtain ⟨-, -, rfl, rfl⟩ := hact
    refine h.frame ?_ h.unread
    simp [EventLoop.activeChannels]
  | ret =>
    simp only [step, bind_eq_ok, pure_eq_ok, Except.ok.injEq] at hs
    obtain ⟨-, -, rfl⟩ := hs
    exact h.frame rfl h.unread
  | queueInLoop b =>
    simp only [step, bind_eq_ok, pure_eq_ok, Except.ok.injEq] at hs
    obtain ⟨-, -, rfl⟩ := hs
    exact h.frame (by simp [EventLoop.activeChannels]) h.unread
  | queueCancel id =>
    simp only [step, pure_eq_ok, Except.ok.injEq] at hs
    subst hs
    exact h.frame (by simp [EventLoop.activeChannels]) h.unread
  | quit =>
    simp only [step, pure_eq_ok, Except.ok.injEq] at hs
    subst hs
    exact h.frame rfl h.unread
  | tick d now =>
    simp only [step, pure_eq_ok, Except.ok.injEq] at hs
    subst hs
    refine h.frame rfl (fun hr => ⟨?_, (h.unread hr).2⟩)
    exact Nat.lt_of_lt_of_le (h.unread hr).1 (s.timerfd.le_expirations_tick _)

/-! ## The abort -/

theorem timerStep_fault {a : TimerRun.Label} {f : Fault} (h : s.timerStep a = .error (.fault f)) :
    f ≠ .readTimerfd := by
  simp only [timerStep, bind_eq_error, Result.mapFault_eq_fault, pure_eq_ok, reduceCtorEq, and_false,
    exists_false, or_false] at h
  obtain ⟨e, -, rfl⟩ := h
  simp

/-- The abort comes from the handler of the timerfd, with nothing to read. -/
theorem startTask_abort {task : Option (EventLoop.Task Handler Functor)}
    (h : s.startTask task = .error (.fault .readTimerfd)) :
    task = some (.handler .timerfd) ∧ s.timerfd.expirations = 0 := by
  match task with
  | none => simp [startTask] at h
  | some (.handler .user) => simp [startTask] at h
  | some (.functor .user) => simp [startTask] at h
  | some (.functor (.addTimerInLoop a)) => exact absurd rfl (timerStep_fault h)
  | some (.functor (.cancelInLoop id)) => exact absurd rfl (timerStep_fault h)
  | some (.handler .timerfd) =>
    simp only [startTask, handleRead, readTimerfd, bind_eq_error, require_eq_error, bind_eq_ok] at h
    rcases h with (⟨hzero, -⟩ | ⟨-, -, h⟩) | ⟨s₁, -, h⟩
    · exact ⟨rfl, Nat.eq_zero_of_not_pos hzero⟩
    · cases h
    · exact absurd rfl (timerStep_fault h)

/-- **The read cannot fail.** In every run whose handlers do not make a new timer the earliest while the
    timerfd is reported, no step aborts in `readTimerfd`. -/
theorem readTimerfd_never_aborts (h : timerLoop.Reach KeepsReport s) (a : Label) :
    faultOf (timerLoop.step s a) ≠ some .readTimerfd := by
  have hu : s.Unread := h.invariant (I := Unread)
    (fun s h0 => by have hs : s = start := h0; exact hs ▸ unread_start)
    (fun s a s' hr hI ha hs => unread_step hI (timers_owned hr.reachable) ha hs)
  rw [Ne, faultOf_eq_some]
  intro hs
  have hs : step s a = .error (.fault .readTimerfd) := hs
  cases a with
  | loop mv =>
    simp only [step, bind_eq_error, enabled_eq_error, enabled_eq_ok, Result.mapFault_eq_fault,
      Result.mapFault_eq_ok, Prod.exists, reduceCtorEq, and_false, exists_false, false_or] at hs
    obtain ⟨-, -, loop, task, hadv, hs⟩ := hs
    obtain ⟨rfl, hzero⟩ := startTask_abort hs
    rcases EventLoop.advance_activeChannels hadv with ⟨-, hno⟩ | ⟨_, -, -, hno⟩ | ⟨c, hcons, hcase⟩
    · exact absurd rfl (hno _)
    · cases hno
    · rcases hcase with ⟨-, hno⟩ | ⟨hd, rfl, heq⟩
      · cases hno
      · simp only [Option.some.injEq, EventLoop.Task.handler.injEq] at heq
        subst heq
        have hpos := (hu.unread (by rw [Reported, hcons]; exact List.mem_cons_self ..)).1
        simp only at hzero
        omega
  | run => exact timerStep_fault hs rfl
  | finish => exact timerStep_fault hs rfl
  | createElsewhere => exact timerStep_fault hs rfl
  | addTimer a w i =>
    simp only [step, bind_eq_error, enabled_eq_error, reduceCtorEq, and_false, false_or] at hs
    obtain ⟨-, -, hs⟩ := hs
    exact timerStep_fault hs rfl
  | cancel id =>
    simp only [step, bind_eq_error, enabled_eq_error, reduceCtorEq, and_false, false_or] at hs
    obtain ⟨-, -, hs⟩ := hs
    exact timerStep_fault hs rfl
  | queueTimer a w i =>
    simp only [step, bind_eq_error, pure_eq_ok, reduceCtorEq, and_false, exists_false, or_false] at hs
    exact timerStep_fault hs rfl
  | ret => simp [step, bind_eq_error, enabled_eq_error] at hs
  | queueInLoop b => simp [step, bind_eq_error, enabled_eq_error] at hs
  | queueCancel id => simp [step] at hs
  | quit => simp [step] at hs
  | tick d now => simp [step] at hs

/-- A handler before the timerfd's adds a later timer; the timerfd is still to be read. -/
theorem readTimerfd_never_aborts_sample :
    ∃ s : TimerLoop, s.Reported ∧ s.timers.queue.timers.size = 2 ∧
      faultOf (timerLoop.step s (.loop .next)) ≠ some .readTimerfd := by
  obtain ⟨s, hs, hp⟩ := System.Reach.of_execWhile (S := timerLoop) (C := KeepsReport)
    (l := [.addTimer 10 500 ⟨false, 0⟩, .loop .enter, .loop .next, .tick 500 500,
      .loop (.poll [.channel .user, .channel .timerfd]), .loop .next, .addTimer 20 900 ⟨false, 0⟩, .ret])
    (p := fun s => decide (s.Reported ∧ s.timers.queue.timers.size = 2)) (.init rfl) (by decide +kernel)
  rw [decide_eq_true_eq] at hp
  exact ⟨s, hp.1, hp.2, readTimerfd_never_aborts hs _⟩

/-- **The earliest timer is replaced.** The timerfd is reported together with another channel, whose
    handler cancels the expired timer and adds one for later: the timerfd is set anew, and its handler
    aborts. -/
theorem readTimerfd_aborts :
    ¬ ∀ s : TimerLoop, timerLoop.Reachable s →
      ∀ a, faultOf (timerLoop.step s a) ≠ some .readTimerfd := by
  intro hall
  obtain ⟨s, hs, hp⟩ := System.Reach.of_exec (S := timerLoop)
    (l := [.addTimer 10 500 ⟨false, 0⟩, .loop .enter, .loop .next, .tick 500 500,
      .loop (.poll [.channel .user, .channel .timerfd]), .loop .next, .cancel ⟨10, 1⟩,
      .addTimer 20 900 ⟨false, 0⟩, .ret])
    (p := fun s => faultOf (timerLoop.step s (.loop .next)) == some .readTimerfd) (.init rfl)
    (by decide +kernel)
  exact hall s hs (.loop .next) (by simpa using hp)

end TimerLoop

end Irono
