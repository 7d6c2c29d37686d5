import Irono.Net.EventLoopThread

/-!
# `Net.Correctness.Quit` — whether `quit()` ends `loop()`

`loop()` writes `quit_ = false` when it is entered, and `startLoop()` returns as soon as `threadFunc` has
published the loop, before that. A `quit()` whose store falls between the two is overwritten: the wakeup
that follows it is read by the first iteration, and the destructor stays in `join()` (`quit_overwritten`).
In every run that enters `loop()` with `quit_` still false, no quit is lost (`no_lost_quit`).
-/

namespace Irono

open Transition

/-! ## One step of the loop -/

namespace LoopState

variable {H F : Type} [DecidableEq H] {tid : ThreadId} {s s' : LoopState H F} {a : Label H F}

/-- What a step does to the loop object. -/
theorem step_loop (hs : step tid s a = .ok s') :
    (∃ mv task, a = .loop mv ∧ s.loop.advance mv = .ok (s'.loop, task)) ∨
    (∃ f, s'.loop = s.loop.push f) ∨
    (∃ t, a = .quit t ∧ s'.loop = { s.loop with quit := true }) ∨
    s'.loop = s.loop ∨ s'.loop = s.loop.wakeup := by
  cases a with
  | loop mv =>
    obtain ⟨-, l, task, hadv, rfl⟩ := loop_eq_ok hs
    exact .inl ⟨mv, task, rfl, hadv⟩
  | ret =>
    obtain ⟨-, rfl⟩ := ret_eq_ok hs
    exact .inr (.inr (.inr (.inl rfl)))
  | push t f =>
    obtain ⟨-, rfl⟩ := push_eq_ok hs
    exact .inr (.inl ⟨f, rfl⟩)
  | finishPush t =>
    obtain ⟨-, rfl⟩ := finishPush_eq_ok hs
    show _ ∨ _ ∨ _ ∨ s.loop.wakeupAfterPush (t = tid) = s.loop ∨ s.loop.wakeupAfterPush (t = tid) = _
    unfold EventLoop.wakeupAfterPush
    split <;> simp
  | quit t =>
    obtain ⟨-, rfl⟩ := quit_eq_ok hs
    exact .inr (.inr (.inl ⟨t, rfl, rfl⟩))
  | finishQuit t =>
    obtain ⟨-, rfl⟩ := finishQuit_eq_ok hs
    exact .inr (.inr (.inr (.inr rfl)))

/-- Only the entry of `loop()` clears `quit_`. -/
theorem step_quit (hs : step tid s a = .ok s') (ha : a ≠ .loop .enter) (hq : s.loop.quit = true) :
    s'.loop.quit = true := by
  rcases step_loop hs with ⟨mv, task, rfl, hadv⟩ | ⟨f, h⟩ | ⟨t, -, h⟩ | h | h
  · rcases EventLoop.advance_cases hadv with
      ⟨rfl, -⟩ | ⟨_, -, -, -, -, h⟩ | ⟨-, -, -, ⟨-, h⟩ | ⟨-, h⟩⟩ | ⟨-, -, -, h⟩ |
      ⟨_, -, -, -, h⟩ | ⟨_, _, -, -, -, h⟩ | ⟨_, _, -, -, -, -, h⟩ | ⟨-, -, -, -, h⟩ | ⟨-, -, -, h⟩
    · exact absurd rfl ha
    all_goals rw [h]; exact hq
  · rw [h]; exact hq
  · rw [h]
  · rw [h]; exact hq
  · rw [h]; exact hq

/-- `poll` is entered with `quit_` false, and while the loop thread is in it no wakeup is read. -/
theorem step_polling (hs : step tid s a = .ok s') (hpc : s'.loop.pc = .polling) :
    (s.loop.pc = .polling ∧ s.loop.wakeupFd ≤ s'.loop.wakeupFd) ∨ s.loop.quit = false := by
  rcases step_loop hs with ⟨mv, task, rfl, hadv⟩ | ⟨f, h⟩ | ⟨t, -, h⟩ | h | h
  · rcases EventLoop.advance_cases hadv with
      ⟨-, -, -, h⟩ | ⟨_, -, -, -, -, h⟩ | ⟨-, -, -, ⟨-, h⟩ | ⟨hq, h⟩⟩ | ⟨-, -, -, h⟩ |
      ⟨_, -, -, -, h⟩ |
      ⟨_, _, -, -, -, h⟩ | ⟨_, _, -, hfun, -, -, h⟩ | ⟨-, -, -, -, h⟩ | ⟨-, -, -, h⟩
    case inl.inr.inr.inl.inr => exact .inr hq
    case inl.inr.inr.inr.inr.inr.inr.inl =>
      rw [h] at hpc
      exact absurd (hfun.symm.trans hpc) (by simp)
    all_goals rw [h] at hpc; cases hpc
  all_goals
    rw [h] at hpc ⊢
    exact .inl ⟨hpc, by simp [EventLoop.push, EventLoop.wakeup]⟩

/-- A thread that is inside `quit()` has made its store. -/
theorem step_quitting (hs : step tid s a = .ok s') {t : ThreadId} (ht : s'.calls t = .quitting) :
    s.calls t = .quitting ∨ s'.loop.quit = true := by
  cases a with
  | loop mv =>
    obtain ⟨-, l, task, -, rfl⟩ := loop_eq_ok hs
    exact .inl ht
  | ret =>
    obtain ⟨-, rfl⟩ := ret_eq_ok hs
    exact .inl ht
  | quit u =>
    obtain ⟨-, rfl⟩ := quit_eq_ok hs
    exact .inr rfl
  | push u f | finishPush u | finishQuit u =>
    simp only [step, bind_eq_ok, pure_eq_ok, Except.ok.injEq] at hs
    obtain ⟨-, -, rfl⟩ := hs
    by_cases htu : t = u
    · subst htu
      simp at ht
    · exact .inl (by simpa [Function.update_of_ne htu] using ht)

/-- The loop thread is in no task while it polls. -/
def TaskAwake (s : LoopState H F) : Prop := s.inTask = true → s.loop.pc ≠ .polling

theorem step_taskAwake (h : s.TaskAwake) (hs : step tid s a = .ok s') : s'.TaskAwake := by
  intro htask hpc
  cases a with
  | loop mv =>
    obtain ⟨-, l, task, hadv, rfl⟩ := loop_eq_ok hs
    rcases EventLoop.advance_cases hadv with
      ⟨-, -, rfl, h⟩ | ⟨_, -, -, rfl, -, h⟩ | ⟨-, -, rfl, h⟩ | ⟨-, -, rfl, h⟩ | ⟨_, -, -, rfl, h⟩ |
      ⟨_, _, -, -, rfl, h⟩ | ⟨_, _, -, hfun, -, rfl, h⟩ | ⟨-, -, -, rfl, h⟩ | ⟨-, -, rfl, h⟩
    case inr.inr.inr.inr.inr.inl =>
      rw [h] at hpc
      cases hpc
    case inr.inr.inr.inr.inr.inr.inl =>
      rw [h] at hpc
      exact absurd (hfun.symm.trans hpc) (by simp)
    all_goals cases htask
  | ret =>
    obtain ⟨-, rfl⟩ := ret_eq_ok hs
    cases htask
  | finishPush t =>
    obtain ⟨-, rfl⟩ := finishPush_eq_ok hs
    refine h htask ?_
    revert hpc
    show (s.loop.wakeupAfterPush (t = tid)).pc = .polling → _
    unfold EventLoop.wakeupAfterPush
    split <;> exact id
  | push t f | quit t | finishQuit t =>
    simp only [step, bind_eq_ok, pure_eq_ok, Except.ok.injEq] at hs
    obtain ⟨-, -, rfl⟩ := hs
    exact h htask hpc

/-- A call of `quit()` by the loop thread itself does not come out of `poll`. -/
theorem step_quit_self (h : s.TaskAwake) (hs : step tid s (.quit tid) = .ok s') : s'.loop.pc ≠ .polling := by
  obtain ⟨⟨-, huser⟩, rfl⟩ := quit_eq_ok hs
  intro hpc
  have hpc' : s.loop.pc = .polling := hpc
  have hcode := huser rfl
  unfold userCode at hcode
  rw [hpc', Bool.or_false] at hcode
  exact h hcode hpc'

end LoopState

/-! ## The thread and its owner -/

namespace EventLoopThread

variable {H F : Type} {ids : ThreadIds}

/-- Once `quit()` has returned, the loop thread polls with `quit_` set or a wakeup to read; and while the
    destructor is in `join()` it polls with both, so that it leaves `poll` and then `loop()`. -/
def NoLostQuit (s : EventLoopThread H F) : Prop :=
  (s.quitReturned = true → s.loop.loop.pc = .polling →
    s.loop.loop.quit = true ∨ 0 < s.loop.loop.wakeupFd) ∧
  (s.owner = .joining → s.loop.loop.pc = .polling →
    s.loop.loop.quit = true ∧ 0 < s.loop.loop.wakeupFd)

/-- `loop()` is entered with `quit_` false: no `quit()` has made its store before. -/
def EntersUnquit (s : EventLoopThread H F) : Label H F → Prop
  | .loop (.loop .enter) => s.loop.loop.quit = false
  | _ => True

instance (s : EventLoopThread H F) : (a : Label H F) → Decidable (s.EntersUnquit a)
  | .loop (.loop .enter) => inferInstanceAs (Decidable (s.loop.loop.quit = false))
  | .loop (.loop (.poll _)) | .loop (.loop .next) | .loop .ret | .loop (.push _ _) | .loop (.finishPush _)
  | .loop (.quit _) | .loop (.finishQuit _) | .startLoop _ | .latched | .startLoopReturns | .destroy
  | .finishQuit | .join | .thread => isTrue trivial

/-- **The invariant**: a store of `quit_` stays, and the wakeup after it is not read in `poll`. -/
structure Quits (s : EventLoopThread H F) : Prop where
  task : s.loop.TaskAwake
  stored : ∀ t, s.loop.calls t = .quitting → s.loop.loop.quit = true
  kept : s.quitReturned = true → s.loop.loop.quit = true
  woken : s.quitReturned = true → s.loop.loop.pc = .polling → 0 < s.loop.loop.wakeupFd
  joining : s.owner = .joining → s.quitReturned = true
  fresh : s.pc = .none ∨ s.pc = .spawned ∨ s.pc = .counted → s.quitReturned = false
  unstarted : s.started = false → s.pc = .none

theorem quits_new : (new : EventLoopThread H F).Quits := by
  constructor <;> simp [new, LoopState.start, EventLoop.new, LoopState.TaskAwake]

variable [DecidableEq H]

/-- What a step on the loop does to the rest. -/
theorem onLoop_eq_ok {s s' : EventLoopThread H F} {a : LoopState.Label H F} (hs : onLoop ids s a = .ok s') :
    s.loop.step ids.loop a = .ok s'.loop ∧ s'.owner = s.owner ∧
      s'.quitReturned = (s.quitReturned || returnsQuit ids a) ∧ s'.started = s.started ∧ s.pc ≠ .none ∧
      ¬ (s'.pc = .none ∨ s'.pc = .spawned ∨ s'.pc = .counted) := by
  unfold onLoop at hs
  cases hpc : s.pc with
  | none | spawned | counted | finished => simp [hpc] at hs
  | callback | published | looping =>
    simp only [hpc, bind_eq_ok, Result.mapFault_eq_ok, pure_eq_ok, Except.ok.injEq] at hs
    obtain ⟨l, hstep, rfl⟩ := hs
    refine ⟨hstep, rfl, rfl, rfl, by simp, ?_⟩
    cases a with
    | loop mv => cases mv <;> simp
    | _ => simp

/-- A step on the loop that does not enter `loop()` over a stored `quit_`. -/
theorem quits_onLoop {s s' : EventLoopThread H F} {a : LoopState.Label H F} (h : s.Quits)
    (ha : a = .loop .enter → s.loop.loop.quit = false) (hs : onLoop ids s a = .ok s') : s'.Quits := by
  obtain ⟨hstep, howner, hreturned, hstarted, hsome, hpc⟩ := onLoop_eq_ok hs
  have hkeep : s.loop.loop.quit = true → s'.loop.loop.quit = true := by
    intro hq
    refine LoopState.step_quit hstep (fun he => ?_) hq
    rw [ha he] at hq
    cases hq
  -- a call of `quit()` returns either before this step or with it
  have hquits : s'.quitReturned = true →
      s.quitReturned = true ∨ a = .quit ids.loop ∨ ∃ t, a = .finishQuit t := by
    intro hr
    rw [hreturned, Bool.or_eq_true] at hr
    rcases hr with hr | hr
    · exact .inl hr
    · right
      unfold returnsQuit at hr
      split at hr
      · exact .inl (by rw [of_decide_eq_true hr])
      · exact .inr ⟨_, rfl⟩
      · cases hr
  have hfinish : ∀ t, a = .finishQuit t → s.loop.loop.quit = true ∧ 0 < s'.loop.loop.wakeupFd := by
    intro t he
    subst he
    obtain ⟨hcall, hloop⟩ := LoopState.finishQuit_eq_ok hstep
    refine ⟨h.stored t hcall, ?_⟩
    rw [hloop]
    exact Nat.succ_pos _
  refine ⟨LoopState.step_taskAwake h.task hstep, ?_, ?_, ?_, ?_, fun hf => absurd hf hpc,
    fun hf => absurd (h.unstarted (hstarted ▸ hf)) hsome⟩
  · intro t ht
    rcases LoopState.step_quitting hstep ht with hbefore | hnow
    · exact hkeep (h.stored t hbefore)
    · exact hnow
  · intro hr
    rcases hquits hr with hr | he | ⟨t, he⟩
    · exact hkeep (h.kept hr)
    · subst he
      obtain ⟨-, hloop⟩ := LoopState.quit_eq_ok hstep
      rw [hloop]
    · exact hkeep (hfinish t he).1
  · intro hr hpoll
    rcases hquits hr with hr | he | ⟨t, he⟩
    · rcases LoopState.step_polling hstep hpoll with ⟨hbefore, hle⟩ | hq
      · exact Nat.lt_of_lt_of_le (h.woken hr hbefore) hle
      · rw [h.kept hr] at hq
        cases hq
    · subst he
      exact absurd hpoll (LoopState.step_quit_self h.task hstep)
    · exact (hfinish t he).2
  · intro hj
    rw [hreturned, h.joining (howner ▸ hj), Bool.true_or]

omit [DecidableEq H] in
/-- A step that leaves the loop alone; the owner is in `join()` only after its `quit()` has returned. -/
theorem Quits.moved {s s' : EventLoopThread H F} (h : s.Quits) (hloop : s'.loop = s.loop)
    (hreturned : s'.quitReturned = s.quitReturned) (hjoin : s'.owner = .joining → s.quitReturned = true)
    (hpc : s'.pc = .none ∨ s'.pc = .spawned ∨ s'.pc = .counted → s.quitReturned = false)
    (hstarted : s'.started = false → s'.pc = .none) : s'.Quits := by
  refine ⟨?_, ?_, ?_, ?_, ?_, ?_, hstarted⟩
  · rw [hloop]; exact h.task
  · rw [hloop]; exact h.stored
  · rw [hloop, hreturned]; exact h.kept
  · rw [hloop, hreturned]; exact h.woken
  · rw [hreturned]; exact hjoin
  · rw [hreturned]; exact hpc

theorem quits_threadFunc {s s' : EventLoopThread H F} (h : s.Quits) (hs : threadFunc ids s = .ok s') :
    s'.Quits := by
  unfold threadFunc at hs
  -- the thread runs, so it was started
  have hrun : s.pc ≠ .none → ∀ {p : Prop}, s.started = false → p :=
    fun hne _ hf => absurd (h.unstarted hf) hne
  cases hpc : s.pc with
  | none | published | finished => simp [hpc] at hs
  | spawned =>
    simp only [hpc, pure_eq_ok, Except.ok.injEq] at hs
    subst hs
    exact h.moved rfl rfl h.joining (fun _ => h.fresh (by simp [hpc])) (hrun (by simp [hpc]))
  | counted =>
    simp only [hpc, pure_eq_ok, Except.ok.injEq] at hs
    subst hs
    have hfresh : s.quitReturned = false := h.fresh (by simp [hpc])
    refine ⟨by simp [LoopState.TaskAwake, LoopState.start], by simp [LoopState.start], ?_, ?_, h.joining,
      fun _ => hfresh, hrun (by simp [hpc])⟩
    · intro hr
      rw [hfresh] at hr
      cases hr
    · intro hr
      rw [hfresh] at hr
      cases hr
  | callback =>
    simp only [hpc, bind_eq_ok, pure_eq_ok, Except.ok.injEq] at hs
    obtain ⟨-, -, rfl⟩ := hs
    exact h.moved rfl rfl h.joining (by simp) (hrun (by simp [hpc]))
  | looping =>
    simp only [hpc, bind_eq_ok, pure_eq_ok, Except.ok.injEq] at hs
    obtain ⟨-, -, -, -, rfl⟩ := hs
    exact h.moved rfl rfl h.joining (by simp) (hrun (by simp [hpc]))

/-- **One step** under the condition. -/
theorem quits_step {s s' : EventLoopThread H F} {a : Label H F} (h : s.Quits) (ha : s.EntersUnquit a)
    (hs : step ids s a = .ok s') : s'.Quits := by
  cases a with
  | startLoop created =>
    simp only [step, bind_eq_ok, require_eq_ok] at hs
    obtain ⟨-, -, -, hstarted, hs⟩ := hs
    have hnone := h.unstarted hstarted
    split at hs
    · simp only [pure_eq_ok, Except.ok.injEq] at hs
      subst hs
      exact h.moved rfl rfl (by simp) (fun _ => h.fresh (.inl hnone)) (by simp)
    · simp only [pure_eq_ok, Except.ok.injEq] at hs
      subst hs
      exact h.moved rfl rfl (by simp) h.fresh h.unstarted
  | latched | startLoopReturns | join =>
    simp only [step, bind_eq_ok, pure_eq_ok, Except.ok.injEq] at hs
    obtain ⟨-, -, rfl⟩ := hs
    exact h.moved rfl rfl (by simp) h.fresh h.unstarted
  | destroy =>
    simp only [step, bind_eq_ok, pure_eq_ok, Except.ok.injEq] at hs
    obtain ⟨-, -, -, -, s1, hquit, rfl⟩ := hs
    have h1 := quits_onLoop h (by simp) hquit
    exact h1.moved rfl rfl (by simp) h1.fresh h1.unstarted
  | finishQuit =>
    simp only [step, bind_eq_ok, pure_eq_ok, Except.ok.injEq] at hs
    obtain ⟨-, -, s1, hquit, rfl⟩ := hs
    have hreturned : s1.quitReturned = true := by
      rw [(onLoop_eq_ok hquit).2.2.1]
      exact Bool.or_true _
    have h1 := quits_onLoop h (by simp) hquit
    exact h1.moved rfl rfl (fun _ => hreturned) h1.fresh h1.unstarted
  | thread => exact quits_threadFunc h hs
  | loop b =>
    simp only [step, bind_eq_ok] at hs
    obtain ⟨-, -, hs⟩ := hs
    refine quits_onLoop h (fun he => ?_) hs
    subst he
    exact ha

/-- **No lost quit**, in every run that enters `loop()` before any `quit()` has made its store. -/
theorem no_lost_quit {s : EventLoopThread H F} (h : (eventLoopThread H F ids).Reach EntersUnquit s) :
    s.NoLostQuit := by
  have hq : s.Quits := h.invariant (I := Quits)
    (fun s h0 => by have hs : s = new := h0; exact hs ▸ quits_new)
    (fun _ _ _ _ hI ha hs => quits_step hI ha hs)
  refine ⟨fun hr _ => .inl (hq.kept hr), fun hj hpoll => ?_⟩
  have hr := hq.joining hj
  exact ⟨hq.kept hr, hq.woken hr hpoll⟩

/-- The owner starts the loop, which polls; the destructor waits for it with the wakeup unread. -/
theorem no_lost_quit_sample : ∃ s : EventLoopThread Unit Nat, s.owner = .joining ∧
    s.loop.loop.pc = .polling ∧ s.NoLostQuit := by
  obtain ⟨s, hs, hp⟩ := System.Reach.of_execWhile (S := eventLoopThread Unit Nat ⟨0, 1, by decide⟩)
    (C := EntersUnquit)
    (l := [.startLoop true, .thread, .latched, .thread, .thread, .startLoopReturns, .loop (.loop .enter),
      .loop (.loop .next), .destroy, .finishQuit])
    (p := fun s => decide (s.owner = .joining ∧ s.loop.loop.pc = .polling)) (.init rfl) (by decide +kernel)
  rw [decide_eq_true_eq] at hp
  exact ⟨s, hp.1, hp.2, no_lost_quit hs⟩

/-- **The destructor before `loop()`.** `startLoop()` has returned the published loop; `quit_ = true` and
    the wakeup come first, `quit_ = false` of `loop()` after them. The first iteration reads the wakeup, and
    the destructor joins a thread that polls with `quit_` false and nothing to read. -/
theorem quit_overwritten : ∃ s : EventLoopThread Unit Nat,
    (eventLoopThread Unit Nat ⟨0, 1, by decide⟩).Reachable s ∧ s.quitReturned = true ∧
      s.owner = .joining ∧ s.loop.loop.pc = .polling ∧ s.loop.loop.quit = false ∧
      s.loop.loop.wakeupFd = 0 ∧ ¬ s.NoLostQuit := by
  obtain ⟨s, hs, hp⟩ := System.Reach.of_exec (S := eventLoopThread Unit Nat ⟨0, 1, by decide⟩)
    (l := [.startLoop true, .thread, .latched, .thread, .thread, .startLoopReturns, .destroy, .finishQuit,
      .loop (.loop .enter), .loop (.loop .next), .loop (.loop (.poll [.wakeupChannel])),
      .loop (.loop .next), .loop (.loop .next), .loop (.loop .next), .loop (.loop .next),
      .loop (.loop .next)])
    (p := fun s => decide (s.quitReturned = true ∧ s.owner = .joining ∧ s.loop.loop.pc = .polling ∧
      s.loop.loop.quit = false ∧ s.loop.loop.wakeupFd = 0)) (.init rfl) (by decide +kernel)
  rw [decide_eq_true_eq] at hp
  obtain ⟨hreturned, hjoin, hpoll, hquit, hfd⟩ := hp
  refine ⟨s, hs, hreturned, hjoin, hpoll, hquit, hfd, fun hno => ?_⟩
  have hset := (hno.2 hjoin hpoll).1
  rw [hquit] at hset
  cases hset

end EventLoopThread

end Irono
