import Irono.Lib.Mailbox
import Irono.Net.EventLoop

/-!
# `Net.Correctness.FunctorOrder` — the functor queue is a first-in first-out mailbox

`doPendingFunctors` swaps the whole queue into a local batch while producers keep pushing. The loop
refines the batched mailbox of `Lib.Mailbox`: a push is `put`, the swap is `openBatch`, starting a
functor is `take`, and every other step changes nothing. The order of execution is then the mailbox's.
-/

namespace Irono

namespace LoopState

open Transition Mailbox

variable {H F : Type} [DecidableEq H] {tid : ThreadId}

/-- The loop state shows the mailbox `m`; outside `doPendingFunctors` the batch is used up. -/
structure Shows (s : LoopState H F) (m : Box F) : Prop where
  queued : s.queued = m.log
  executed : s.executed = m.done
  functors : s.loop.functors = m.batch
  pending : s.loop.pendingFunctors = m.waiting
  atSwap : s.atSwap = m.opened
  batch_nil : s.loop.pc ≠ .functors → s.loop.functors = []

omit [DecidableEq H] in
/-- A step that touches neither queue nor history shows the same mailbox. -/
theorem Shows.of_eq {s s' : LoopState H F} {m : Box F} (h : Shows s m)
    (hq : s'.queued = s.queued) (he : s'.executed = s.executed) (ha : s'.atSwap = s.atSwap)
    (hf : s'.loop.functors = s.loop.functors)
    (hp : s'.loop.pendingFunctors = s.loop.pendingFunctors)
    (hpc : s'.loop.pc ≠ .functors → s.loop.functors = []) : Shows s' m :=
  ⟨hq.trans h.queued, he.trans h.executed, hf.trans h.functors, hp.trans h.pending,
    ha.trans h.atSwap, fun hne => hf.trans (hpc hne)⟩

/-- The loop thread's own code: the swap opens a batch, starting a functor takes one. -/
theorem shows_loop {s s' : LoopState H F} {m : Box F} {mv : EventLoop.Move H} (h : Shows s m)
    (hs : step tid s (.loop mv) = .ok s') :
    Shows s' m ∨ ∃ b m', (mailbox F).step m b = .ok m' ∧ Shows s' m' := by
  obtain ⟨-, l, task, hadv, rfl⟩ := loop_eq_ok hs
  have hnil : s.loop.pc ≠ .functors → s.loop.functors = [] := h.batch_nil
  rcases EventLoop.advance_cases hadv with
    ⟨-, hpc, rfl, rfl⟩ | ⟨active, -, hpc, rfl, -, rfl⟩ | ⟨-, hpc, rfl, ⟨-, rfl⟩ | ⟨-, rfl⟩⟩ |
    ⟨-, hpc, rfl, rfl⟩ | ⟨rest, -, hpc, rfl, rfl⟩ | ⟨hd, rest, -, hpc, rfl, rfl⟩ |
    ⟨f, rest, -, hpc, hfs, rfl, rfl⟩ | ⟨-, hpc, hfs, rfl, rfl⟩ | ⟨-, hpc, rfl, rfl⟩
  case inr.inr.inr.inl =>
    -- the swap: the batch was used up, so `openBatch` is possible
    right
    have hb : m.batch = [] := by rw [← h.functors]; exact hnil (by rw [hpc]; simp)
    refine ⟨.openBatch, m.openBatch, ?_, ?_, ?_, ?_, ?_, ?_, ?_⟩
    · simp [mailbox, Box.batch_eq_nil.mp hb]
    · exact h.queued
    · simpa [started, Box.done_openBatch] using h.executed
    · rw [Box.batch_openBatch hb]; exact h.pending
    · rw [Box.waiting_openBatch]; rfl
    · rw [Box.opened_openBatch]; simpa [hpc] using h.queued
    · intro hne; exact absurd rfl hne
  case inr.inr.inr.inr.inr.inr.inl =>
    -- a functor starts
    right
    obtain ⟨hlt, hdone, hbatch, hwait, hopen⟩ := Box.take_spec (h.functors.symm.trans hfs)
    refine ⟨.take, m.take hlt, ?_, ?_, ?_, ?_, ?_, ?_, ?_⟩
    · simp [mailbox, hlt]
    · exact h.queued
    · rw [hdone, ← h.executed]; rfl
    · exact hbatch.symm
    · exact h.pending.trans hwait.symm
    · rw [hopen]; simpa [hpc] using h.atSwap
    · intro hne; exact absurd hpc hne
  all_goals
    left
    refine h.of_eq rfl (by simp [started]) (by simp [hpc]) rfl rfl ?_
  all_goals simp_all

/-- **One step.** Every step of the loop or of a caller is one mailbox move or none. -/
theorem shows_step {s s' : LoopState H F} {m : Box F} {a : Label H F} (h : Shows s m)
    (hs : step tid s a = .ok s') :
    Shows s' m ∨ ∃ b m', (mailbox F).step m b = .ok m' ∧ Shows s' m' := by
  cases a with
  | loop mv => exact shows_loop h hs
  | push t f =>
    obtain ⟨-, rfl⟩ := push_eq_ok hs
    right
    refine ⟨.put f, m.put f, rfl, ?_, ?_, ?_, ?_, ?_, h.batch_nil⟩
    · simp [Box.put, h.queued]
    · rw [Box.done_put]; exact h.executed
    · rw [Box.batch_put]; exact h.functors
    · rw [Box.waiting_put, ← h.pending]; rfl
    · rw [Box.opened_put]; exact h.atSwap
  | ret =>
    obtain ⟨-, rfl⟩ := ret_eq_ok hs
    exact .inl (h.of_eq rfl rfl rfl rfl rfl h.batch_nil)
  | finishPush t =>
    obtain ⟨-, rfl⟩ := finishPush_eq_ok hs
    have hwake : ∀ b, (s.loop.wakeupAfterPush b).functors = s.loop.functors ∧
        (s.loop.wakeupAfterPush b).pendingFunctors = s.loop.pendingFunctors ∧
        (s.loop.wakeupAfterPush b).pc = s.loop.pc := by
      intro b; unfold EventLoop.wakeupAfterPush; split <;> exact ⟨rfl, rfl, rfl⟩
    obtain ⟨hf, hp, hpc⟩ := hwake (decide (t = tid))
    exact .inl (h.of_eq rfl rfl rfl hf hp (by rw [hpc]; exact h.batch_nil))
  | quit t =>
    obtain ⟨-, rfl⟩ := quit_eq_ok hs
    exact .inl (h.of_eq rfl rfl rfl rfl rfl h.batch_nil)
  | finishQuit t =>
    obtain ⟨-, rfl⟩ := finishQuit_eq_ok hs
    exact .inl (h.of_eq rfl rfl rfl rfl rfl h.batch_nil)

/-- **The loop refines the mailbox.** -/
theorem eventLoop_refines_mailbox :
    System.Simulation (eventLoop H F tid) (mailbox F) Shows where
  init := by
    intro s h0
    have hs : s = start := h0
    subst hs
    refine ⟨Box.empty, rfl, ?_⟩
    constructor <;> simp [start, EventLoop.new, Box.empty, Box.done, Box.batch, Box.waiting, Box.opened,
      Slice.slice]
  step := fun _ _ _ _ _ h hs => shows_step h hs

/-- **Order of functors.** In every reachable state the functors started so far, then the rest of the
    running batch, then `pendingFunctors_` are exactly the functors queued so far, in the order of the
    critical sections. During a batch, what has run and what is left of the batch is what had been
    queued at the swap: nothing queued later runs inside it. -/
theorem functors_fifo {s : LoopState H F} (h : (eventLoop H F tid).Reachable s) :
    s.executed ++ s.loop.functors ++ s.loop.pendingFunctors = s.queued ∧
      s.executed ++ s.loop.functors = s.atSwap := by
  obtain ⟨m, -, hm⟩ := eventLoop_refines_mailbox.reachable h
  rw [hm.executed, hm.functors, hm.pending, hm.queued, hm.atSwap]
  exact ⟨m.split, m.done_append_batch⟩

/-- A functor queued before `loop()` runs and queues another, which waits for the next batch. -/
theorem functors_fifo_sample :
    ∃ s : LoopState Unit Nat, s.executed = [1] ∧ s.loop.pendingFunctors = [2] ∧
      s.executed ++ s.loop.functors ++ s.loop.pendingFunctors = s.queued ∧
      s.executed ++ s.loop.functors = s.atSwap := by
  obtain ⟨s, hs, hp⟩ := System.Reach.of_exec (S := eventLoop Unit Nat 0)
    (l := [.push 5 1, .loop .enter, .loop .next, .loop (.poll []), .loop .next, .loop .next, .push 0 2])
    (p := fun s => s.executed == [1] && s.loop.pendingFunctors == [2]) (.init rfl) (by decide +kernel)
  simp only [Bool.and_eq_true, beq_iff_eq] at hp
  exact ⟨s, hp.1, hp.2, functors_fifo hs⟩

end LoopState

end Irono
