import Irono.Net.Correctness.FunctorOrder
import Irono.Net.Correctness.Quit

/-!
# `Net.Correctness.QuitDrain` — which functors `quit()` leaves behind

After the store of `quit_` the loop finishes its iteration and returns. If the swap of that iteration is
still to come, it takes everything that was queued before the store; if not, there is no other one, and what
was queued since the last swap stays in `pendingFunctors_`.
-/

namespace Irono

open Transition

namespace LoopState

variable {H F : Type} [DecidableEq H] {tid : ThreadId} {s s' : LoopState H F} {a : Label H F}

omit [DecidableEq H] in
/-- The loop thread is in `poll` or in the handlers: `doPendingFunctors` follows. -/
def SwapToCome (s : LoopState H F) : Prop := s.loop.pc = .polling ∨ ∃ active, s.loop.pc = .dispatch active

omit [DecidableEq H] in
theorem swapToCome_congr (h : s'.loop.pc = s.loop.pc) : s'.SwapToCome ↔ s.SwapToCome := by
  unfold SwapToCome
  rw [h]

/-! ## One step -/

/-- The history of the queue only grows. -/
theorem step_queued (hs : step tid s a = .ok s') : s.queued <+: s'.queued := by
  cases a with
  | loop mv =>
    obtain ⟨-, l, task, -, rfl⟩ := loop_eq_ok hs
    exact List.prefix_refl _
  | push t f =>
    obtain ⟨-, rfl⟩ := push_eq_ok hs
    exact List.prefix_append _ _
  | ret =>
    obtain ⟨-, rfl⟩ := ret_eq_ok hs
    exact List.prefix_refl _
  | finishPush t =>
    obtain ⟨-, rfl⟩ := finishPush_eq_ok hs
    exact List.prefix_refl _
  | quit t =>
    obtain ⟨-, rfl⟩ := quit_eq_ok hs
    exact List.prefix_refl _
  | finishQuit t =>
    obtain ⟨-, rfl⟩ := finishQuit_eq_ok hs
    exact List.prefix_refl _

/-- The loop thread, with `quit_` set: it swaps if the swap is to come, and never goes back to `poll`. -/
theorem loop_swap {mv : EventLoop.Move H} (hq : s.loop.quit = true) (hs : step tid s (.loop mv) = .ok s') :
    s'.atSwap = s.atSwap ∧ (s'.SwapToCome ↔ s.SwapToCome) ∨
      s.SwapToCome ∧ ¬ s'.SwapToCome ∧ s'.atSwap = s.queued := by
  obtain ⟨-, l, task, hadv, rfl⟩ := loop_eq_ok hs
  unfold SwapToCome
  rcases EventLoop.advance_cases hadv with
    ⟨-, hpc, -, rfl⟩ | ⟨active, -, hpc, -, -, rfl⟩ | ⟨-, hpc, -, ⟨-, rfl⟩ | ⟨hfalse, -⟩⟩ |
    ⟨-, hpc, -, rfl⟩ |
    ⟨rest, -, hpc, -, rfl⟩ | ⟨hd, rest, -, hpc, -, rfl⟩ | ⟨f, rest, -, hpc, -, -, rfl⟩ |
    ⟨-, hpc, -, -, rfl⟩ | ⟨-, hpc, -, rfl⟩
  case inr.inr.inl.inr =>
    rw [hq] at hfalse
    cases hfalse
  case inr.inr.inr.inl =>
    -- the swap
    right
    rw [if_pos hpc]
    exact ⟨.inr ⟨[], hpc⟩, by simp [EventLoop.swapFunctors], rfl⟩
  all_goals
    left
    simp [hpc]

/-- **One step** with `quit_` set. -/
theorem step_swap (hq : s.loop.quit = true) (hs : step tid s a = .ok s') :
    s'.atSwap = s.atSwap ∧ (s'.SwapToCome ↔ s.SwapToCome) ∨
      s.SwapToCome ∧ ¬ s'.SwapToCome ∧ s'.atSwap = s.queued := by
  cases a with
  | loop mv => exact loop_swap hq hs
  | ret =>
    obtain ⟨-, rfl⟩ := ret_eq_ok hs
    exact .inl ⟨rfl, Iff.rfl⟩
  | push t f =>
    obtain ⟨-, rfl⟩ := push_eq_ok hs
    exact .inl ⟨rfl, Iff.rfl⟩
  | finishPush t =>
    obtain ⟨-, rfl⟩ := finishPush_eq_ok hs
    refine .inl ⟨rfl, swapToCome_congr ?_⟩
    show (s.loop.wakeupAfterPush _).pc = _
    unfold EventLoop.wakeupAfterPush
    split <;> rfl
  | quit t =>
    obtain ⟨-, rfl⟩ := quit_eq_ok hs
    exact .inl ⟨rfl, Iff.rfl⟩
  | finishQuit t =>
    obtain ⟨-, rfl⟩ := finishQuit_eq_ok hs
    exact .inl ⟨rfl, Iff.rfl⟩

/-! ## From the store of `quit_` on -/

/-- What a later state `u` of the same call of `loop()` knows of the state `s` at the store. -/
structure Quitting (s u : LoopState H F) : Prop where
  quit : u.loop.quit = true
  queued : s.queued <+: u.queued
  /-- the swap takes all that had been queued -/
  early : s.SwapToCome → u.SwapToCome ∨ s.queued.length ≤ u.atSwap.length
  late : ¬ s.SwapToCome → ¬ u.SwapToCome ∧ u.atSwap = s.atSwap

theorem quitting_quit {t : ThreadId} (hs : step tid s (.quit t) = .ok s') : Quitting s s' := by
  obtain ⟨-, rfl⟩ := quit_eq_ok hs
  exact ⟨rfl, List.prefix_refl _, .inl, fun hlate => ⟨hlate, rfl⟩⟩

theorem Quitting.step {u u' : LoopState H F} (h : Quitting s u) (ha : a ≠ .loop .enter)
    (hs : LoopState.step tid u a = .ok u') : Quitting s u' := by
  refine ⟨step_quit hs ha h.quit, h.queued.trans (step_queued hs), fun hearly => ?_, fun hlate => ?_⟩
  · -- the swap takes what is queued then, and that is no less than at the store
    rcases step_swap h.quit hs with ⟨hswap, hcome⟩ | ⟨-, -, hswap⟩
    · rw [hcome, hswap]
      exact h.early hearly
    · right
      rw [hswap]
      exact h.queued.length_le
  · obtain ⟨hnone, heq⟩ := h.late hlate
    rcases step_swap h.quit hs with ⟨hswap, hcome⟩ | ⟨hcome, -, -⟩
    · rw [hcome, hswap]
      exact ⟨hnone, heq⟩
    · -- there is no second swap
      exact absurd hcome hnone

theorem quitting_exec {u u' : LoopState H F} (h : Quitting s u) {labels : List (Label H F)}
    (hrun : (eventLoop H F tid).exec u labels = .ok u') (henter : .loop .enter ∉ labels) : Quitting s u' := by
  refine System.exec_invariant (S := eventLoop H F tid) (I := fun labels u => .loop .enter ∉ labels → Quitting s u)
    (fun _ => h) ?_ hrun henter
  intro as a t t' _ ih hs henter
  rw [List.mem_append, List.mem_singleton, not_or] at henter
  exact (ih henter.1).step (Ne.symm henter.2) hs

/-- Outside `doPendingFunctors` all of the last batch has run. -/
theorem executed_eq_atSwap (h : (eventLoop H F tid).Reachable s) (hpc : s.loop.pc ≠ .functors) :
    s.executed = s.atSwap := by
  obtain ⟨m, -, hm⟩ := eventLoop_refines_mailbox.reachable h
  have hfifo := (functors_fifo h).2
  rwa [hm.batch_nil hpc, List.append_nil] at hfifo

/-! ## The result -/

/-- What `loop()` has done of the functors that were queued before a store of `quit_`, when it has returned. -/
structure Drained (s u : LoopState H F) : Prop where
  queued : s.queued <+: u.queued
  /-- what was not executed is still pending -/
  rest : u.executed ++ u.loop.pendingFunctors = u.queued
  /-- the functor queued as the `i`-th -/
  executed : ∀ i < s.queued.length, i < u.executed.length ↔ s.SwapToCome ∨ i < s.atSwap.length

/-- **A functor queued before `quit()` is executed before `loop()` returns** exactly when the swap of the
    iteration was still to come at the store, or it had been queued before that swap. -/
theorem quit_drains {t : ThreadId} {s s₁ s₂ : LoopState H F} {labels : List (Label H F)}
    (h : (eventLoop H F tid).Reachable s) (hquit : (eventLoop H F tid).step s (.quit t) = .ok s₁)
    (hrun : (eventLoop H F tid).exec s₁ labels = .ok s₂) (henter : .loop .enter ∉ labels)
    (hret : s₂.loop.pc = .outside) : s.Drained s₂ := by
  have hreach := (h.step trivial hquit).exec hrun
  have hq := quitting_exec (quitting_quit hquit) hrun henter
  have hnone : ¬ s₂.SwapToCome := by simp [SwapToCome, hret]
  have hexec := executed_eq_atSwap hreach (by rw [hret]; simp)
  obtain ⟨hsplit, hbatch⟩ := functors_fifo hreach
  refine ⟨hq.queued, ?_, fun i hi => ?_⟩
  · rwa [hbatch, ← hexec] at hsplit
  · rw [hexec]
    by_cases hcome : s.SwapToCome
    · have hlen := (hq.early hcome).resolve_left hnone
      exact ⟨fun _ => .inl hcome, fun _ => Nat.lt_of_lt_of_le hi hlen⟩
    · rw [(hq.late hcome).2]
      exact (or_iff_right hcome).symm

/-- Thread 5 queues a functor while the loop polls, and quits. -/
theorem quit_drains_polling : ∃ s s₂ : LoopState Unit Nat, s.queued = [1] ∧
    s₂.executed = [1] ∧ s.Drained s₂ := by
  refine ⟨_, _, ?_, ?_, quit_drains
    (System.Reach.exec (.init rfl) (show (eventLoop Unit Nat 0).exec LoopState.start
      [.loop .enter, .loop .next, .push 5 1, .finishPush 5] = .ok _ from rfl))
    (show (eventLoop Unit Nat 0).step _ (.quit 5) = .ok _ from rfl)
    (show (eventLoop Unit Nat 0).exec _ [.finishQuit 5, .loop (.poll [.wakeupChannel]), .loop .next, .loop .next,
      .loop .next, .ret, .loop .next, .loop .next, .loop .next] = .ok _ from rfl) (by simp) rfl⟩
  · rfl
  · rfl

/-- Thread 5 queues a functor between the swap and the end of the iteration, and quits: the functor is
    never run. -/
theorem quit_leaves_functor :
    ((eventLoop Unit Nat 0).exec LoopState.start
        [.loop .enter, .loop .next, .loop (.poll []), .loop .next, .push 5 1, .finishPush 5, .quit 5, .finishQuit 5,
          .loop .next, .loop .next, .loop .next]).map
      (fun s => (s.loop.pc, s.queued, s.executed, s.loop.pendingFunctors)) = .ok (.outside, [1], [], [1]) := by
  rfl

end LoopState

end Irono
