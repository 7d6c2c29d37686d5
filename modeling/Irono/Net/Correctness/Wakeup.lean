import Irono.Net.EventLoop

/-!
# `Net.Correctness.Wakeup` — when a queued functor cannot wait for the poll timeout

`queueInLoop` skips `wakeup()` in the loop thread outside `doPendingFunctors`: it relies on a
`doPendingFunctors` that is still to come in this iteration. That is so in a channel handler, and it is
not so before `loop()` is entered, nor while a finished batch is being destroyed. `NoLostWakeup` fails
in the first of these (`lost_wakeup_before_loop`) and holds in every run whose loop thread queues
functors from handlers and functors only (`no_lost_wakeup`).
-/

namespace Irono

namespace LoopState

open Transition

variable {H F : Type}

/-- Whoever sleeps in `poll` with functors pending is about to be woken. -/
def NoLostWakeup (tid : ThreadId) (s : LoopState H F) : Prop :=
  s.loop.pc = .polling → s.loop.pendingFunctors ≠ [] →
    0 < s.loop.wakeupFd ∨ ∃ t, t ≠ tid ∧ s.calls t = .pushed

/-- A call of `queueInLoop` by the loop thread comes from a handler or a functor. -/
def QueuesInTask (tid : ThreadId) (s : LoopState H F) : Label H F → Prop
  | .push t _ => t = tid → s.inTask = true
  | _ => True

instance (tid : ThreadId) (s : LoopState H F) : (a : Label H F) → Decidable (QueuesInTask tid s a)
  | .push t _ => inferInstanceAs (Decidable (t = tid → s.inTask = true))
  | .loop _ => isTrue trivial
  | .ret => isTrue trivial
  | .finishPush _ => isTrue trivial
  | .quit _ => isTrue trivial
  | .finishQuit _ => isTrue trivial

/-- The loop thread is in the `for` over the active channels: a `doPendingFunctors` is to come. -/
def Dispatching (s : LoopState H F) : Prop := ∃ active, s.loop.pc = .dispatch active

/-- **The invariant.** A pending functor is covered by the coming `doPendingFunctors`, by an unread
    wakeup, or by a thread that has yet to call `wakeup()`. -/
structure Covered (tid : ThreadId) (s : LoopState H F) : Prop where
  calling : s.loop.callingPendingFunctors = true ↔ s.loop.pc = .functors
  task : s.inTask = true → s.Dispatching ∨ s.loop.pc = .functors
  pushed : s.calls tid = .pushed → s.inTask = true
  quitting : s.calls tid ≠ .quitting
  cover : s.loop.pendingFunctors ≠ [] → s.Dispatching ∨ 0 < s.loop.wakeupFd ∨
    (∃ t, t ≠ tid ∧ s.calls t = .pushed) ∨ (s.calls tid = .pushed ∧ s.loop.pc = .functors)

theorem covered_start (tid : ThreadId) : Covered tid (start : LoopState H F) := by
  constructor <;> simp [start, EventLoop.new]

/-- What covers a pending functor when the loop thread is in no call of its own. -/
theorem Covered.cover_idle {tid : ThreadId} {s : LoopState H F} (h : Covered tid s)
    (hidle : s.calls tid = .idle) (hpend : s.loop.pendingFunctors ≠ []) :
    s.Dispatching ∨ 0 < s.loop.wakeupFd ∨ ∃ t, t ≠ tid ∧ s.calls t = .pushed := by
  rcases h.cover hpend with hd | hw | ht | ⟨hp, -⟩
  · exact .inl hd
  · exact .inr (.inl hw)
  · exact .inr (.inr ht)
  · rw [hidle] at hp; cases hp

variable [DecidableEq H] {tid : ThreadId}

/-- The loop thread's own code: it leaves `dispatch` only through the swap, which empties the queue. -/
theorem covered_loop {s s' : LoopState H F} {mv : EventLoop.Move H} (h : Covered tid s)
    (hs : step tid s (.loop mv) = .ok s') : Covered tid s' := by
  obtain ⟨⟨-, hidle⟩, l, task, hadv, rfl⟩ := loop_eq_ok hs
  have hcalling := h.calling
  have hcover := h.cover_idle hidle
  have hnp : s.calls tid ≠ .pushed := by rw [hidle]; simp
  rcases EventLoop.advance_cases hadv with
    ⟨-, hpc, rfl, rfl⟩ | ⟨active, -, hpc, rfl, -, rfl⟩ | ⟨-, hpc, rfl, ⟨-, rfl⟩ | ⟨-, rfl⟩⟩ |
    ⟨-, hpc, rfl, rfl⟩ | ⟨rest, -, hpc, rfl, rfl⟩ | ⟨hd, rest, -, hpc, rfl, rfl⟩ |
    ⟨f, rest, -, hpc, hfs, rfl, rfl⟩ | ⟨-, hpc, hfs, rfl, rfl⟩ | ⟨-, hpc, rfl, rfl⟩
  all_goals
    simp only [Dispatching, hpc, reduceCtorEq, exists_false, false_or, LoopPc.dispatch.injEq,
      iff_false, iff_true, Bool.not_eq_true] at hcalling hcover
    refine ⟨?_, ?_, fun hp => absurd hp hnp, h.quitting, fun hpend => ?_⟩
    · simp [hpc, hcalling, EventLoop.swapFunctors]
    · simp [hpc, Dispatching]
    · first
        | exact .inl ⟨_, rfl⟩
        | exact absurd rfl hpend
        | exact .inr ((hcover hpend).imp_right .inl)

/-- **One step** under the condition. -/
theorem covered_step {s s' : LoopState H F} {a : Label H F} (h : Covered tid s)
    (ha : QueuesInTask tid s a) (hs : step tid s a = .ok s') : Covered tid s' := by
  cases a with
  | loop mv => exact covered_loop h hs
  | ret =>
    obtain ⟨⟨-, hidle⟩, rfl⟩ := ret_eq_ok hs
    exact ⟨h.calling, by simp, fun hp => absurd hp (by simp [hidle]), h.quitting, h.cover⟩
  | push t f =>
    obtain ⟨-, rfl⟩ := push_eq_ok hs
    by_cases ht : t = tid
    · -- the loop thread pushes from a task: in a handler the swap is to come, in a functor the test
      -- after the push will call `wakeup()`
      subst ht
      have htask : s.inTask = true := ha rfl
      refine ⟨h.calling, h.task, fun _ => htask, by simp, fun _ => ?_⟩
      rcases h.task htask with hd | hf
      · exact .inl hd
      · exact .inr (.inr (.inr ⟨by simp, hf⟩))
    · refine ⟨h.calling, h.task, ?_, ?_, fun _ => ?_⟩
      · simpa [Function.update_of_ne (Ne.symm ht)] using h.pushed
      · simpa [Function.update_of_ne (Ne.symm ht)] using h.quitting
      · exact .inr (.inr (.inl ⟨t, ht, by simp⟩))
  | finishPush t =>
    obtain ⟨hpushed, rfl⟩ := finishPush_eq_ok hs
    by_cases ht : t = tid
    · subst ht
      have htask := h.pushed hpushed
      unfold EventLoop.wakeupAfterPush
      split
      · refine ⟨h.calling, h.task, by simp, by simp, fun _ => .inr (.inl ?_)⟩
        simp [EventLoop.wakeup]
      · -- no `wakeup()`: the test was false, so the loop thread is in a handler
        rename_i hcall
        have hd : s.Dispatching := (h.task htask).resolve_right (fun hf => by
          simp [h.calling.mpr hf] at hcall)
        exact ⟨h.calling, h.task, by simp, by simp, fun _ => .inl hd⟩
    · have hwake : s.loop.wakeupAfterPush (decide (t = tid)) = s.loop.wakeup := by
        simp [EventLoop.wakeupAfterPush, ht]
      simp only [hwake]
      refine ⟨h.calling, h.task, ?_, ?_, fun _ => .inr (.inl ?_)⟩
      · simpa [Function.update_of_ne (Ne.symm ht)] using h.pushed
      · simpa [Function.update_of_ne (Ne.symm ht)] using h.quitting
      · simp [EventLoop.wakeup]
  | quit t =>
    obtain ⟨⟨hidle, -⟩, rfl⟩ := quit_eq_ok hs
    by_cases ht : t = tid
    · simp only [ht, if_true]
      exact ⟨h.calling, h.task, h.pushed, h.quitting, h.cover⟩
    · simp only [ht, if_false]
      have hself : Function.update s.calls t .quitting tid = s.calls tid :=
        Function.update_of_ne (Ne.symm ht) _ _
      refine ⟨h.calling, h.task, by simpa [hself] using h.pushed, by simpa [hself] using h.quitting,
        fun hpend => ?_⟩
      rcases h.cover hpend with hd | hw | ⟨u, hu, hup⟩ | ⟨hp, hf⟩
      · exact .inl hd
      · exact .inr (.inl hw)
      · have hut : u ≠ t := fun e => by rw [e, hidle] at hup; cases hup
        exact .inr (.inr (.inl ⟨u, hu, by simpa [Function.update_of_ne hut] using hup⟩))
      · exact .inr (.inr (.inr ⟨hself.trans hp, hf⟩))
  | finishQuit t =>
    obtain ⟨hquit, rfl⟩ := finishQuit_eq_ok hs
    have ht : t ≠ tid := fun e => h.quitting (e ▸ hquit)
    refine ⟨h.calling, h.task, ?_, ?_, fun _ => .inr (.inl ?_)⟩
    · simpa [Function.update_of_ne (Ne.symm ht)] using h.pushed
    · simpa [Function.update_of_ne (Ne.symm ht)] using h.quitting
    · simp [EventLoop.wakeup]

/-- **No lost wakeup.** In every run whose loop thread queues functors from handlers and functors only,
    `poll` is never entered over a pending functor without a wakeup that is there or on its way. -/
theorem no_lost_wakeup {s : LoopState H F} (h : (eventLoop H F tid).Reach (QueuesInTask tid) s) :
    NoLostWakeup tid s := by
  have hc : Covered tid s := h.invariant
    (fun s h0 => by have hs : s = start := h0; exact hs ▸ covered_start tid)
    (fun _ _ _ _ hI ha hs => covered_step hI ha hs)
  intro hpc hpend
  rcases hc.cover hpend with ⟨active, hd⟩ | hw | ht | ⟨-, hf⟩
  · rw [hpc] at hd; cases hd
  · exact .inl hw
  · exact .inr ht
  · rw [hpc] at hf; cases hf

/-- A handler queues a functor and another thread pushes before the next poll. -/
theorem no_lost_wakeup_sample :
    ∃ s : LoopState Unit Nat, s.loop.pc = .polling ∧ s.loop.pendingFunctors = [2] ∧
      NoLostWakeup 0 s := by
  obtain ⟨s, hs, hp⟩ := System.Reach.of_execWhile (S := eventLoop Unit Nat 0) (C := QueuesInTask 0)
    (l := [.loop .enter, .loop .next, .loop (.poll [.channel ()]), .loop .next, .push 0 1,
      .finishPush 0, .ret, .loop .next, .loop .next, .ret, .push 5 2, .loop .next, .loop .next,
      .loop .next])
    (p := fun s => s.loop.pc == .polling && s.loop.pendingFunctors == [2]) (.init rfl)
    (by decide +kernel)
  simp only [Bool.and_eq_true, beq_iff_eq] at hp
  exact ⟨s, hp.1, hp.2, no_lost_wakeup hs⟩

/-- **The thread init callback.** It runs in the loop thread before `loop()`: its `queueInLoop` calls no
    `wakeup()`, and the loop goes to sleep over the functor with the counter at zero. -/
theorem lost_wakeup_before_loop :
    ¬ ∀ s : LoopState Unit Nat, (eventLoop Unit Nat 0).Reachable s → NoLostWakeup 0 s := by
  intro hall
  have hrun : (eventLoop Unit Nat 0).exec start [.push 0 1, .finishPush 0, .loop .enter, .loop .next]
      = .ok { loop := { (EventLoop.new : EventLoop Unit Nat) with looping := true, pendingFunctors := [1], pc := .polling }
              inTask := false
              calls := Function.update (Function.update (fun _ => .idle) 0 .pushed) 0 .idle
              queued := [1], executed := [], atSwap := [] } := rfl
  rcases hall _ (System.Reach.exec (.init rfl) hrun) rfl (by simp) with hw | ⟨t, ht, hp⟩
  · simp [EventLoop.new] at hw
  · simp [Function.update, ht] at hp

end LoopState

end Irono
