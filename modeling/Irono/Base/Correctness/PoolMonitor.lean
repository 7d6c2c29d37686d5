import Irono.Base.ThreadPool

/-!
# `Base.Correctness.PoolMonitor` — the bounded queue and the wakeups of the pool

Two condition variables with single notifications serve any number of producers and workers, and a thread
that has not waited can take the place of one that was notified. What holds throughout is a count: while
somebody waits on `notEmpty_`, at least as many workers have been notified as there are tasks, and while
somebody waits on `notFull_`, at least as many producers as there are free slots.

* `push_cases`, `take_cases`: what the two critical sections do.
* `Sound`: the invariant, one clause a property; `sound_step` keeps it.
* `monitor_sound`: what a user of the pool can rely on, in every reachable state.
-/

namespace Irono

open Transition CondVar

namespace ThreadPool

variable {s s' : ThreadPool} {l : Label} {t : ThreadId} {who : Option ThreadId} {i : Nat}

/-! ## The critical sections -/

theorem isFull_eq_true : s.isFull = true ↔ 0 < s.maxQueueSize ∧ s.maxQueueSize ≤ s.queue.length := by
  unfold isFull
  rw [decide_eq_true_eq]

theorem isFull_eq_false (h : s.isFull = false) (hmax : 0 < s.maxQueueSize) : s.queue.length < s.maxQueueSize := by
  by_contra hge
  rw [isFull_eq_true.mpr ⟨hmax, not_lt.mp hge⟩] at h
  cases h

/-- The producer waits, goes away, or puts its task in. -/
theorem push_cases (hs : s.push t who = .ok s') : ∃ task, s.calls t = some task ∧
    (s.isFull = true ∧ s.running = true ∧ s' = { s with notFull := s.notFull.wait t } ∨
      s.running = false ∧
        s' = { s with notFull := s.notFull.leave t, calls := Function.update s.calls t none } ∨
      s.running = true ∧ s.isFull = false ∧ s.notEmpty.Chooses who ∧
        s' = { s with
          notFull := s.notFull.leave t
          calls := Function.update s.calls t none
          queue := s.queue ++ [task]
          notEmpty := s.notEmpty.notify who
          pushed := s.pushed ++ [task] }) := by
  unfold push at hs
  cases hcall : s.calls t with
  | none =>
    rw [hcall] at hs
    cases hs
  | some task =>
    rw [hcall] at hs
    refine ⟨task, rfl, ?_⟩
    cases hrun : s.running with
    | false =>
      simp only [hrun, Bool.and_false, Bool.false_eq_true, if_false, Bool.not_false, if_true, pure_eq_ok,
        Except.ok.injEq] at hs
      exact .inr (.inl ⟨rfl, hs.symm⟩)
    | true =>
      cases hfull : s.isFull with
      | true =>
        simp only [hrun, hfull, Bool.and_self, if_true, pure_eq_ok, Except.ok.injEq] at hs
        exact .inl ⟨rfl, rfl, hs.symm⟩
      | false =>
        simp only [hrun, hfull, Bool.and_true, Bool.false_eq_true, if_false, Bool.not_true, bind_eq_ok,
          require_eq_ok, enabled_eq_ok, exists_and_left, pure_eq_ok, Except.ok.injEq, exists_const] at hs
        obtain ⟨-, hwho, rfl⟩ := hs
        exact .inr (.inr ⟨rfl, rfl, hwho, rfl⟩)

/-- The worker waits, goes away with an empty task, or takes the first one. -/
theorem take_cases (hs : s.take i who = .ok s') : s.pc i = .take ∧
    (s.queue = [] ∧ s.running = true ∧ s' = { s with notEmpty := s.notEmpty.wait (.worker i) } ∨
      s.queue = [] ∧ s.running = false ∧
        s' = { (s.setPc i (.taken none)) with notEmpty := s.notEmpty.leave (.worker i) } ∨
      ∃ task queue, s.queue = task :: queue ∧ (0 < s.maxQueueSize → s.notFull.Chooses who) ∧
        s' = { (s.setPc i (.taken task)) with
          notEmpty := s.notEmpty.leave (.worker i)
          queue := queue
          dequeued := s.dequeued ++ [task]
          notFull := if 0 < s.maxQueueSize then s.notFull.notify who else s.notFull }) := by
  simp only [take, bind_eq_ok, enabled_eq_ok, exists_const] at hs
  obtain ⟨hpc, hs⟩ := hs
  refine ⟨hpc, ?_⟩
  by_cases hwait : (s.queue.isEmpty && s.running) = true
  · rw [if_pos hwait] at hs
    rw [Bool.and_eq_true, List.isEmpty_iff] at hwait
    exact .inl ⟨hwait.1, hwait.2, (Except.ok.inj hs).symm⟩
  · rw [if_neg hwait] at hs
    split at hs
    · rename_i hqueue
      refine .inr (.inl ⟨hqueue, ?_, (Except.ok.inj hs).symm⟩)
      rw [hqueue] at hwait
      simpa using hwait
    · rename_i task queue hqueue
      refine .inr (.inr ⟨task, queue, hqueue, ?_⟩)
      split at hs
      · rename_i hmax
        obtain ⟨_, hwho, hs⟩ := bind_eq_ok.mp hs
        rw [if_pos (show 0 < s.maxQueueSize from hmax)]
        exact ⟨fun _ => enabled_eq_ok.mp hwho, (Except.ok.inj hs).symm⟩
      · rename_i hmax
        rw [if_neg (show ¬ 0 < s.maxQueueSize from hmax)]
        exact ⟨fun h => absurd h hmax, (Except.ok.inj hs).symm⟩

/-! ## The other pieces -/

/-- The task that a worker has and has not finished. -/
def Pc.inFlight : Pc → Option Nat
  | .taken task => task
  | .running f => some f
  | _ => none

/-- `stop()` has been in its critical section. -/
def OwnerPc.stopCalled : OwnerPc → Bool
  | .joining _ => true
  | .stopped => true
  | _ => false

theorem run_cases {task : Task} (hs : s.run t task = .ok s') : s.inUserCode t = true ∧
    ((∃ f, task = some f ∧ s' = { s with inlined := s.inlined ++ [f] }) ∨
      s' = { s with calls := Function.update s.calls t (some task) }) := by
  simp only [run, bind_eq_ok, enabled_eq_ok, exists_const] at hs
  obtain ⟨huser, hs⟩ := hs
  refine ⟨huser, ?_⟩
  split at hs
  · cases task with
    | none => cases hs
    | some f => exact .inl ⟨f, rfl, (Except.ok.inj hs).symm⟩
  · exact .inr (Except.ok.inj hs).symm

/-- A worker outside the mutex goes to another piece, or finishes its task. -/
theorem runInThread_cases (hs : s.runInThread i = .ok s') :
    s.pc i ≠ .notStarted ∧ s.pc i ≠ .take ∧ s.pc i ≠ .finished ∧
      ((∃ pc, pc.inFlight = (s.pc i).inFlight ∧ s' = s.setPc i pc) ∨
        ∃ f, s.pc i = .running f ∧ s' = { (s.setPc i .head) with executed := s.executed ++ [f] }) := by
  unfold runInThread at hs
  cases hpc : s.pc i with
  | notStarted | take | finished =>
    rw [hpc] at hs
    cases hs
  | init =>
    simp only [hpc, bind_eq_ok, enabled_eq_ok, exists_const, pure_eq_ok, Except.ok.injEq] at hs
    exact ⟨nofun, nofun, nofun, .inl ⟨.head, rfl, hs.2.symm⟩⟩
  | head =>
    simp only [hpc, pure_eq_ok, Except.ok.injEq] at hs
    refine ⟨nofun, nofun, nofun, .inl ⟨_, ?_, hs.symm⟩⟩
    split <;> rfl
  | taken task =>
    cases task with
    | none =>
      simp only [hpc, pure_eq_ok, Except.ok.injEq] at hs
      exact ⟨nofun, nofun, nofun, .inl ⟨.head, rfl, hs.symm⟩⟩
    | some f =>
      simp only [hpc, pure_eq_ok, Except.ok.injEq] at hs
      exact ⟨nofun, nofun, nofun, .inl ⟨.running f, rfl, hs.symm⟩⟩
  | running f =>
    simp only [hpc, bind_eq_ok, enabled_eq_ok, exists_const, pure_eq_ok, Except.ok.injEq] at hs
    exact ⟨nofun, nofun, nofun, .inr ⟨f, rfl, hs.2.symm⟩⟩

/-- What each label leads to. -/
inductive Moves (s : ThreadPool) : Label → ThreadPool → Prop where
  | run {t : ThreadId} {task : Task} {s' : ThreadPool} : s.run t task = .ok s' → s.Moves (.run t task) s'
  | push {t : ThreadId} {who : Option ThreadId} {s' : ThreadPool} : s.push t who = .ok s' → s.Moves (.push t who) s'
  | take {i : Nat} {who : Option ThreadId} {s' : ThreadPool} : s.take i who = .ok s' → s.Moves (.take i who) s'
  | runInThread {i : Nat} {s' : ThreadPool} : s.runInThread i = .ok s' → s.Moves (.runInThread i) s'
  | start : s.owner = .constructed → s.Moves .start { s with running := true, owner := .starting }
  | startThread : s.owner = .starting → s.Moves .startThread
      { (s.setPc s.threads .init) with threads := s.threads + 1 }
  | startReturns : s.Moves .startReturns { s with owner := .started }
  | stop : s.owner = .started → s.Moves .stop
      { s with running := false, notEmpty := s.notEmpty.notifyAll, notFull := s.notFull.notifyAll, owner := .joining 0 }
  | join {i : Nat} : s.owner = .joining i → s.pc i = .finished → s.Moves .join { s with owner := .joining (i + 1) }
  | stopReturns : s.owner = .joining s.threads → s.Moves .stopReturns { s with owner := .stopped }

/-- What a step does, by its label. -/
theorem moves_of_step (hs : s.step l = .ok s') : s.Moves l s' := by
  cases l with
  | run t task => exact .run hs
  | push t who => exact .push hs
  | take i who => exact .take hs
  | runInThread i => exact .runInThread hs
  | start =>
    simp only [step, bind_eq_ok, enabled_eq_ok, pure_eq_ok, Except.ok.injEq] at hs
    obtain ⟨-, howner, -, -, rfl⟩ := hs
    exact .start howner
  | startThread =>
    simp only [step, bind_eq_ok, enabled_eq_ok, pure_eq_ok, Except.ok.injEq] at hs
    obtain ⟨-, ⟨howner, -⟩, rfl⟩ := hs
    exact .startThread howner
  | startReturns =>
    simp only [step, bind_eq_ok, enabled_eq_ok, pure_eq_ok, Except.ok.injEq] at hs
    obtain ⟨-, -, rfl⟩ := hs
    exact .startReturns
  | stop =>
    simp only [step, bind_eq_ok, enabled_eq_ok, pure_eq_ok, Except.ok.injEq] at hs
    obtain ⟨-, howner, rfl⟩ := hs
    exact .stop howner
  | join =>
    simp only [step] at hs
    cases howner : s.owner with
    | joining i =>
      simp only [howner, bind_eq_ok, enabled_eq_ok, pure_eq_ok, Except.ok.injEq] at hs
      obtain ⟨-, ⟨-, hfinished⟩, rfl⟩ := hs
      exact .join howner hfinished
    | constructed | starting | started | stopped =>
      rw [howner] at hs
      cases hs
  | stopReturns =>
    simp only [step, bind_eq_ok, enabled_eq_ok, pure_eq_ok, Except.ok.injEq] at hs
    obtain ⟨-, howner, rfl⟩ := hs
    exact .stopReturns howner

/-! ## The invariant -/

structure Sound (s : ThreadPool) : Prop where
  bounded : 0 < s.maxQueueSize → s.queue.length ≤ s.maxQueueSize
  fifo : s.pushed = s.dequeued ++ s.queue
  /-- a notified worker for each task -/
  tasks : s.notEmpty.Enough s.queue.length
  /-- a notified producer for each free slot -/
  slots : s.notFull.Enough (s.maxQueueSize - s.queue.length)
  unbounded : s.maxQueueSize = 0 → s.notFull.waiting = ∅
  workers : ∀ t, s.notEmpty.Inside t → ∃ i, t = .worker i ∧ s.pc i = .take
  producers : ∀ t, s.notFull.Inside t → (s.calls t).isSome = true
  /-- nobody waits when `running_` is false -/
  idle : s.running = false → s.notEmpty.waiting = ∅ ∧ s.notFull.waiting = ∅
  stopped : s.owner.stopCalled = true → s.running = false
  created : ∀ i, s.threads ≤ i → s.pc i = .notStarted

theorem sound_new (numThreads maxQueueSize : Nat) : (new numThreads maxQueueSize).Sound where
  bounded := fun _ => Nat.zero_le _
  fifo := rfl
  tasks := .zero
  slots := .of_waiting_empty rfl
  unbounded := fun _ => rfl
  workers := fun _ hin => absurd hin Cond.not_inside_empty
  producers := fun _ hin => absurd hin Cond.not_inside_empty
  idle := fun _ => ⟨rfl, rfl⟩
  stopped := nofun
  created := fun _ _ => rfl

/-- A thread whose piece is done does not matter to the rest. -/
theorem Sound.setPc {pc : Pc} (h : s.Sound) (hstarted : s.pc i ≠ .notStarted) (htake : s.pc i ≠ .take) :
    (s.setPc i pc).Sound :=
  { h with
    workers := by
      intro t hin
      obtain ⟨j, rfl, hj⟩ := h.workers t hin
      have hne : j ≠ i := fun he => htake (he ▸ hj)
      exact ⟨j, rfl, (Function.update_of_ne hne ..).trans hj⟩
    created := by
      intro j hj
      have hne : j ≠ i := fun he => hstarted (he ▸ h.created j hj)
      exact (Function.update_of_ne hne ..).trans (h.created j hj) }

/-- `run` begins, or does the task itself if there are no threads. -/
theorem Sound.run {task : Task} (h : s.Sound) (hs : s.run t task = .ok s') : s'.Sound := by
  obtain ⟨-, ⟨f, -, rfl⟩ | rfl⟩ := run_cases hs
  · exact { h with }
  · refine { h with producers := fun u hin => ?_ }
    show (Function.update s.calls t (some task) u).isSome = true
    by_cases hu : u = t
    · rw [hu, Function.update_self]
      rfl
    · rw [Function.update_of_ne hu]
      exact h.producers u hin

/-- `run` waits while the queue is full, gives up after `stop`, or queues its task. -/
theorem Sound.push (h : s.Sound) (hs : s.push t who = .ok s') : s'.Sound := by
  obtain ⟨task, hcall, ⟨hfull, hrun, rfl⟩ | ⟨hrun, rfl⟩ | ⟨hrun, hfull, hwho, rfl⟩⟩ := push_cases hs
  · -- there is no free slot to come for
    have hfull := isFull_eq_true.mp hfull
    exact { h with
      slots := Cond.Enough.zero.mono (by
        show s.maxQueueSize - s.queue.length ≤ 0
        omega)
      unbounded := fun h0 => absurd h0 (Nat.pos_iff_ne_zero.mp hfull.1)
      producers := by
        intro u hin
        rcases Cond.inside_wait.mp hin with rfl | hin
        · show (s.calls u).isSome = true
          rw [hcall]
          rfl
        · exact h.producers u hin
      idle := fun hidle => absurd (hrun.symm.trans hidle) nofun }
  all_goals
    have hproducers : ∀ u, (s.notFull.leave t).Inside u → (Function.update s.calls t none u).isSome = true := by
      intro u hin
      obtain ⟨hu, hin⟩ := Cond.inside_leave.mp hin
      rw [Function.update_of_ne hu]
      exact h.producers u hin
  · obtain ⟨htasks, hslots⟩ := h.idle hrun
    have hempty : (s.notFull.leave t).waiting = ∅ := by
      show s.notFull.waiting.erase t = ∅
      rw [hslots, Finset.erase_empty]
    exact { h with
      slots := .of_waiting_empty hempty
      unbounded := fun _ => hempty
      producers := hproducers
      idle := fun _ => ⟨htasks, hempty⟩ }
  · exact { h with
      bounded := by
        intro hmax
        have := isFull_eq_false hfull hmax
        show (s.queue ++ [task]).length ≤ s.maxQueueSize
        rw [List.length_append, List.length_singleton]
        exact this
      fifo := by
        show s.pushed ++ [task] = s.dequeued ++ (s.queue ++ [task])
        rw [h.fifo, List.append_assoc]
      tasks := by
        show (s.notEmpty.notify who).Enough (s.queue ++ [task]).length
        rw [List.length_append, List.length_singleton]
        exact h.tasks.notify hwho
      slots := by
        show (s.notFull.leave t).Enough (s.maxQueueSize - (s.queue ++ [task]).length)
        rw [List.length_append, List.length_singleton]
        rcases Nat.eq_zero_or_pos s.maxQueueSize with h0 | hmax
        · rw [h0, Nat.zero_sub]
          exact .zero
        · -- the slot that is taken
          have hlt := isFull_eq_false hfull hmax
          have hone : s.maxQueueSize - s.queue.length = s.maxQueueSize - (s.queue.length + 1) + 1 := by omega
          exact Cond.Enough.leave (hone ▸ h.slots)
      unbounded := by
        intro h0
        show s.notFull.waiting.erase t = ∅
        rw [h.unbounded h0, Finset.erase_empty]
      workers := fun u hin => h.workers u (Cond.inside_notify.mp hin)
      producers := hproducers
      idle := fun hidle => absurd (hrun.symm.trans hidle) nofun }

/-- `take` waits while the queue is empty, gets nothing after `stop`, or takes the first task. -/
theorem Sound.take (h : s.Sound) (hs : s.take i who = .ok s') : s'.Sound := by
  obtain ⟨hpc, ⟨hqueue, hrun, rfl⟩ | ⟨hqueue, hrun, rfl⟩ | ⟨task, queue, hqueue, hwho, rfl⟩⟩ :=
    take_cases hs
  · exact { h with
      tasks := by
        show (s.notEmpty.wait (.worker i)).Enough s.queue.length
        rw [hqueue]
        exact .zero
      workers := by
        intro t hin
        rcases Cond.inside_wait.mp hin with rfl | hin
        · exact ⟨i, rfl, hpc⟩
        · exact h.workers t hin
      idle := fun hidle => absurd (hrun.symm.trans hidle) nofun }
  all_goals
    have hworkers : ∀ pc t, (s.notEmpty.leave (.worker i)).Inside t →
        ∃ j, t = .worker j ∧ Function.update s.pc i pc j = .take := by
      intro pc t hin
      obtain ⟨hne, hin⟩ := Cond.inside_leave.mp hin
      obtain ⟨j, rfl, hj⟩ := h.workers t hin
      have hji : j ≠ i := fun he => hne (congrArg ThreadId.worker he)
      exact ⟨j, rfl, (Function.update_of_ne hji ..).trans hj⟩
    have hcreated : ∀ pc j, s.threads ≤ j → Function.update s.pc i pc j = .notStarted := by
      intro pc j hj
      have hne : j ≠ i := by
        rintro rfl
        rw [h.created j hj] at hpc
        cases hpc
      exact (Function.update_of_ne hne ..).trans (h.created j hj)
  · obtain ⟨htasks, hslots⟩ := h.idle hrun
    have hempty : (s.notEmpty.leave (.worker i)).waiting = ∅ := by
      show s.notEmpty.waiting.erase _ = ∅
      rw [htasks, Finset.erase_empty]
    exact { h with
      tasks := .of_waiting_empty hempty
      workers := hworkers _
      idle := fun _ => ⟨hempty, hslots⟩
      created := hcreated _ }
  · have hlength : s.queue.length = queue.length + 1 := by rw [hqueue, List.length_cons]
    have hwaiting : (if 0 < s.maxQueueSize then s.notFull.notify who else s.notFull).waiting ⊆
        s.notFull.waiting := by
      split
      · exact Cond.waiting_notify_subset
      · exact Finset.Subset.refl _
    exact { h with
      bounded := fun hmax => by
        have := h.bounded hmax
        show queue.length ≤ s.maxQueueSize
        omega
      fifo := by
        show s.pushed = s.dequeued ++ [task] ++ queue
        rw [h.fifo, hqueue, List.append_assoc, List.singleton_append]
      tasks := Cond.Enough.leave (hlength ▸ h.tasks)
      slots := by
        show (if 0 < s.maxQueueSize then s.notFull.notify who else s.notFull).Enough
          (s.maxQueueSize - queue.length)
        split
        · -- the slot that becomes free
          rename_i hmax
          have hbound := h.bounded hmax
          have hone : s.maxQueueSize - queue.length = s.maxQueueSize - s.queue.length + 1 := by omega
          rw [hone]
          exact h.slots.notify (hwho hmax)
        · rename_i hmax
          exact .of_waiting_empty (h.unbounded (Nat.eq_zero_of_not_pos hmax))
      unbounded := fun h0 => Finset.subset_empty.mp (h.unbounded h0 ▸ hwaiting)
      workers := hworkers _
      producers := by
        intro t hin
        refine h.producers t ?_
        replace hin : (if 0 < s.maxQueueSize then s.notFull.notify who else s.notFull).Inside t := hin
        split at hin
        · exact Cond.inside_notify.mp hin
        · exact hin
      idle := by
        intro hidle
        obtain ⟨htasks, hslots⟩ := h.idle hidle
        refine ⟨?_, Finset.subset_empty.mp (hslots ▸ hwaiting)⟩
        show s.notEmpty.waiting.erase _ = ∅
        rw [htasks, Finset.erase_empty]
      created := hcreated _ }

theorem Sound.runInThread (h : s.Sound) (hs : s.runInThread i = .ok s') : s'.Sound := by
  obtain ⟨hstarted, htake, -, ⟨pc, -, rfl⟩ | ⟨f, -, rfl⟩⟩ := runInThread_cases hs
  · exact h.setPc hstarted htake
  · exact { h.setPc hstarted htake with }

/-- **One step** keeps the invariant. -/
theorem sound_step (h : s.Sound) (hs : s.step l = .ok s') : s'.Sound := by
  cases moves_of_step hs with
  | run hrun => exact h.run hrun
  | push hpush => exact h.push hpush
  | take htake => exact h.take htake
  | runInThread hrun => exact h.runInThread hrun
  | start howner =>
    exact { h with
      idle := fun h => by cases h
      stopped := fun h => by cases h }
  | startThread howner =>
    have hnew := h.created s.threads (le_refl _)
    exact { h with
      workers := by
        intro t hin
        obtain ⟨i, rfl, hi⟩ := h.workers t hin
        have hne : i ≠ s.threads := by
          rintro rfl
          rw [hnew] at hi
          cases hi
        exact ⟨i, rfl, (Function.update_of_ne hne ..).trans hi⟩
      created := by
        intro i hi
        replace hi : s.threads + 1 ≤ i := hi
        exact (Function.update_of_ne (by omega) ..).trans (h.created i (by omega)) }
  | startReturns => exact { h with stopped := fun h => by cases h }
  | stop howner =>
    exact { h with
      tasks := .of_waiting_empty rfl
      slots := .of_waiting_empty rfl
      unbounded := fun _ => rfl
      workers := fun t hin => h.workers t (Cond.inside_notifyAll.mp hin)
      producers := fun t hin => h.producers t (Cond.inside_notifyAll.mp hin)
      idle := fun _ => ⟨rfl, rfl⟩
      stopped := fun _ => rfl }
  | join howner => exact { h with stopped := fun _ => h.stopped (by rw [howner]; rfl) }
  | stopReturns howner =>
    exact { h with stopped := fun _ => h.stopped (by rw [howner]; rfl) }

theorem sound_of_reachable (h : threadPool.Reachable s) : s.Sound := by
  refine h.invariant (I := Sound) (fun s h0 => ?_) (fun _ _ _ _ hI _ hs => sound_step hI hs)
  obtain ⟨numThreads, maxQueueSize, rfl⟩ := h0
  exact sound_new numThreads maxQueueSize

/-! ## What the users rely on -/

theorem push_ne_isFull : s.push t who ≠ .error (.fault .isFull) := by
  intro hs
  unfold push at hs
  cases hcall : s.calls t with
  | none =>
    rw [hcall] at hs
    cases hs
  | some task =>
    rw [hcall] at hs
    cases hrun : s.running with
    | false =>
      simp only [hrun, Bool.and_false, Bool.false_eq_true, if_false, Bool.not_false, if_true] at hs
      cases hs
    | true =>
      cases hfull : s.isFull with
      | true =>
        simp only [hrun, hfull, Bool.and_self, if_true] at hs
        cases hs
      | false =>
        simp only [hrun, hfull, Bool.and_true, Bool.false_eq_true, if_false, Bool.not_true, bind_eq_error,
          require_eq_error, enabled_eq_error] at hs
        obtain ⟨hnot, -⟩ | ⟨_, -, ⟨-, hblocked⟩ | ⟨_, -, hok⟩⟩ := hs
        · exact hnot hfull
        · cases hblocked
        · cases hok

/-- **The assert of `run`** never fails. -/
theorem step_ne_isFull : s.step l ≠ .error (.fault .isFull) := by
  intro hs
  cases l with
  | push t who => exact push_ne_isFull hs
  | run t task =>
    simp only [step, run, bind_eq_error, enabled_eq_error] at hs
    obtain ⟨-, hblocked⟩ | ⟨_, -, hs⟩ := hs
    · cases hblocked
    · split at hs
      · cases task <;> cases hs
      · cases hs
  | take i who =>
    simp only [step, take, bind_eq_error, enabled_eq_error] at hs
    obtain ⟨-, hblocked⟩ | ⟨_, -, hs⟩ := hs
    · cases hblocked
    · split at hs
      · cases hs
      · split at hs
        · cases hs
        · split at hs
          · obtain hblocked | ⟨_, -, hok⟩ := bind_eq_error.mp hs
            · cases (enabled_eq_error.mp hblocked).2
            · cases hok
          · cases hs
  | runInThread i =>
    simp only [step, runInThread] at hs
    split at hs <;> simp [bind_eq_error, enabled_eq_error] at hs
  | join =>
    simp only [step] at hs
    split at hs <;> simp [bind_eq_error, enabled_eq_error] at hs
  | start | startThread | startReturns | stop | stopReturns =>
    simp [step, bind_eq_error, enabled_eq_error, require_eq_error] at hs

/-- Once `stop()` has released the mutex, whoever is in `take()` or in `run()` gets out of it. -/
structure Released (s : ThreadPool) : Prop where
  waiting : s.notEmpty.waiting = ∅ ∧ s.notFull.waiting = ∅
  take : ∀ i, s.pc i = .take → (∃ s', s.step (.take i none) = .ok s') ∧
    ∀ who s', s.step (.take i who) = .ok s' → s'.pc i ≠ .take
  run : ∀ t, (s.calls t).isSome = true → (∃ s', s.step (.push t none) = .ok s') ∧
    ∀ who s', s.step (.push t who) = .ok s' → s'.calls t = none

/-- After `stop` nobody waits, and `take` and `run` come to an end. -/
theorem Sound.released (h : s.Sound) (hrun : s.running = false) : s.Released where
  waiting := h.idle hrun
  take := by
    intro i hpc
    constructor
    · show ∃ s', s.take i none = .ok s'
      simp only [ThreadPool.take, hpc, hrun, Bool.and_false, Bool.false_eq_true, if_false, enabled_of, ok_bind]
      split
      · exact ⟨_, rfl⟩
      · split
        · -- `notify()` finds nobody
          exact ⟨_, bind_eq_ok.mpr ⟨(), enabled_of (h.idle hrun).2, rfl⟩⟩
        · exact ⟨_, rfl⟩
    · intro who s' hs
      obtain ⟨-, ⟨-, hrunning, -⟩ | ⟨-, -, rfl⟩ | ⟨task, queue, -, -, rfl⟩⟩ := take_cases (s := s) hs
      · rw [hrun] at hrunning
        cases hrunning
      all_goals
        show Function.update s.pc i _ i ≠ .take
        rw [Function.update_self]
        exact fun heq => by cases heq
  run := by
    intro t hcall
    constructor
    · obtain ⟨task, htask⟩ := Option.isSome_iff_exists.mp hcall
      show ∃ s', s.push t none = .ok s'
      simp only [ThreadPool.push, htask, hrun, Bool.and_false, Bool.false_eq_true, if_false, Bool.not_false, if_true]
      exact ⟨_, rfl⟩
    · intro who s' hs
      obtain ⟨task, -, ⟨-, hrunning, -⟩ | ⟨-, rfl⟩ | ⟨hrunning, -⟩⟩ := push_cases (s := s) hs
      · rw [hrun] at hrunning
        cases hrunning
      · exact Function.update_self ..
      · rw [hrun] at hrunning
        cases hrunning

/-- What the pool's monitor does for its users. -/
structure Monitored (s : ThreadPool) : Prop where
  bounded : 0 < s.maxQueueSize → s.queue.length ≤ s.maxQueueSize
  asserts : ∀ l, s.step l ≠ .error (.fault .isFull)
  fifo : s.pushed = s.dequeued ++ s.queue
  /-- who waits on `notEmpty_` is a worker in `take()`; while one does, each task has a notified worker -/
  takers : ∀ t, s.notEmpty.Inside t → ∃ i, t = .worker i ∧ s.pc i = .take
  tasks : s.running = true → ∀ t ∈ s.notEmpty.waiting, s.queue.length ≤ s.notEmpty.notified.card
  /-- who waits on `notFull_` is in `run()`; while one does, each free slot has a notified producer -/
  producers : ∀ t, s.notFull.Inside t → (s.calls t).isSome = true
  slots : s.running = true → ∀ t ∈ s.notFull.waiting,
    0 < s.maxQueueSize ∧ s.maxQueueSize - s.queue.length ≤ s.notFull.notified.card
  released : s.owner.stopCalled = true → s.Released

/-- **No task is lost, reordered or repeated, and no wakeup is lost**, in every reachable state of a pool
    of any size with a queue of any size. -/
theorem monitor_sound (h : threadPool.Reachable s) : s.Monitored := by
  have hsound := sound_of_reachable h
  exact
    { bounded := hsound.bounded
      asserts := fun _ => step_ne_isFull
      fifo := hsound.fifo
      takers := hsound.workers
      tasks := fun _ t ht => hsound.tasks ⟨t, ht⟩
      producers := hsound.producers
      slots := by
        intro _ t ht
        refine ⟨Nat.pos_of_ne_zero fun h0 => ?_, hsound.slots ⟨t, ht⟩⟩
        rw [hsound.unbounded h0] at ht
        cases ht
      released := fun hstop => hsound.released (hsound.stopped hstop) }

/-- A producer takes the slot for which another one was notified; the other one waits again. -/
theorem monitor_sound_sample : ∃ s : ThreadPool, s.pushed = [some 1, some 2, some 4] ∧
    s.notFull.waiting = {.other 2} ∧ s.Monitored := by
  obtain ⟨s, hr, hp⟩ := System.Reach.of_exec (S := threadPool)
    (l := [.start, .startThread, .startReturns, .runInThread 0, .runInThread 0, .take 0 none,
      .run (.other 0) (some 1), .push (.other 0) (some (.worker 0)), .take 0 none,
      .run (.other 1) (some 2), .push (.other 1) none, .run (.other 2) (some 3), .push (.other 2) none,
      .runInThread 0, .runInThread 0, .runInThread 0, .take 0 (some (.other 2)),
      .run (.other 0) (some 4), .push (.other 0) none, .push (.other 2) none])
    (p := fun s => decide (s.pushed = [some 1, some 2, some 4] ∧ s.notFull.waiting = {.other 2}))
    (.init ⟨1, 1, rfl⟩) (by decide +kernel)
  rw [decide_eq_true_eq] at hp
  exact ⟨s, hp.1, hp.2, monitor_sound hr⟩

end ThreadPool

end Irono
