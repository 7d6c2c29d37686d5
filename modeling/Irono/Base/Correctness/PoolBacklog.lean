import Irono.Base.Correctness.PoolMonitor
import Mathlib.Algebra.BigOperators.Fin
import Mathlib.Algebra.Order.BigOperators.Group.Finset

/-!
# `Base.Correctness.PoolBacklog` — what `ThreadPool::stop` leaves undone

A worker looks at `running_` between two tasks. So the tasks that were handed out are finished before
`stop()` returns, each once, and those that are still in `queue_` when the last worker has looked are never
handed out (`backlog_dropped`).

* `Accounted`: each task handed out is finished, or in the hands of one worker.
* `stopped_backlog`: hence what was finished when `stop()` returns, and nothing changes from there on.
-/

namespace Irono

open Transition CondVar

namespace ThreadPool

variable {s s' : ThreadPool} {l : Label} {t : ThreadId} {who : Option ThreadId} {i : Nat}

/-! ## The tasks in the workers' hands -/

/-- 1 if the worker has this task, else 0. -/
def Pc.holds (f : Nat) (pc : Pc) : Nat := if pc.inFlight = some f then 1 else 0

/-- How often the workers have it. -/
def held (s : ThreadPool) (f : Nat) : Nat := ∑ i ∈ Finset.range s.threads, (s.pc i).holds f

theorem Pc.holds_eq {f : Nat} {pc pc' : Pc} (h : pc.inFlight = pc'.inFlight) : pc.holds f = pc'.holds f := by
  unfold holds
  rw [h]

theorem Pc.holds_of_none {f : Nat} {pc : Pc} (h : pc.inFlight = none) : pc.holds f = 0 := by
  unfold holds
  rw [h, if_neg nofun]

theorem Pc.holds_taken (f : Nat) (task : Task) : (Pc.taken task).holds f = [task].count (some f) := by
  unfold holds inFlight
  by_cases ht : task = some f
  · subst ht
    simp
  · rw [if_neg ht, List.count_singleton, if_neg (by simpa using ht)]

theorem Pc.holds_running (f g : Nat) : (Pc.running g).holds f = [g].count f := by
  unfold holds inFlight
  by_cases hg : g = f
  · subst hg
    simp
  · rw [if_neg (by simpa using hg), List.count_singleton, if_neg (by simpa using hg)]

/-- One worker's share is exchanged. -/
theorem held_setPc (hi : i < s.threads) (pc : Pc) (f : Nat) :
    (s.setPc i pc).held f + (s.pc i).holds f = s.held f + pc.holds f := by
  have hin : i ∈ Finset.range s.threads := Finset.mem_range.mpr hi
  have hrest : ∑ j ∈ (Finset.range s.threads).erase i, (Function.update s.pc i pc j).holds f =
      ∑ j ∈ (Finset.range s.threads).erase i, (s.pc j).holds f :=
    Finset.sum_congr rfl fun j hj => by rw [Function.update_of_ne (Finset.ne_of_mem_erase hj)]
  have hafter : (s.setPc i pc).held f =
      pc.holds f + ∑ j ∈ (Finset.range s.threads).erase i, (s.pc j).holds f := by
    show ∑ j ∈ Finset.range s.threads, (Function.update s.pc i pc j).holds f = _
    rw [← Finset.add_sum_erase _ _ hin, Function.update_self, hrest]
  have hbefore : s.held f = (s.pc i).holds f + ∑ j ∈ (Finset.range s.threads).erase i, (s.pc j).holds f :=
    (Finset.add_sum_erase _ _ hin).symm
  omega

/-- Each task handed out is finished, or in the hands of one worker. -/
def Accounted (s : ThreadPool) : Prop := ∀ f, s.executed.count f + s.held f = s.dequeued.count (some f)

theorem Sound.lt_threads (h : s.Sound) (hi : s.pc i ≠ .notStarted) : i < s.threads := by
  by_contra hge
  exact hi (h.created i (not_lt.mp hge))

/-- **One step** keeps the account. -/
theorem accounted_step (h : s.Sound) (ha : s.Accounted) (hs : s.step l = .ok s') : s'.Accounted := by
  cases moves_of_step hs with
  | run hrun =>
    obtain ⟨-, ⟨f, -, rfl⟩ | rfl⟩ := run_cases hrun
    · exact ha
    · exact ha
  | push hpush =>
    obtain ⟨task, -, ⟨-, -, rfl⟩ | ⟨-, rfl⟩ | ⟨-, -, -, rfl⟩⟩ := push_cases hpush
    · exact ha
    · exact ha
    · exact ha
  | take htake =>
    rename_i i _
    obtain ⟨hpc, hcase⟩ := take_cases htake
    have hi : i < s.threads := h.lt_threads (by rw [hpc]; exact nofun)
    have hnone : ∀ f, (s.pc i).holds f = 0 := fun f => by
      rw [hpc]
      exact Pc.holds_of_none rfl
    obtain ⟨-, -, rfl⟩ | ⟨-, -, rfl⟩ | ⟨task, queue, -, -, rfl⟩ := hcase
    · exact ha
    · intro f
      have hheld := held_setPc hi (.taken none) f
      rw [hnone, Pc.holds_of_none rfl] at hheld
      have hbefore := ha f
      show s.executed.count f + (s.setPc i (.taken none)).held f = s.dequeued.count (some f)
      omega
    · intro f
      have hheld := held_setPc hi (.taken task) f
      rw [hnone, Pc.holds_taken] at hheld
      have hbefore := ha f
      show s.executed.count f + (s.setPc i (.taken task)).held f = (s.dequeued ++ [task]).count (some f)
      rw [List.count_append]
      omega
  | runInThread hrun =>
    rename_i i
    obtain ⟨hstarted, -, -, ⟨pc, hsame, rfl⟩ | ⟨g, hpc, rfl⟩⟩ := runInThread_cases hrun
    · intro f
      have hheld := held_setPc (h.lt_threads hstarted) pc f
      rw [Pc.holds_eq hsame] at hheld
      have hbefore := ha f
      show s.executed.count f + (s.setPc i pc).held f = s.dequeued.count (some f)
      omega
    · intro f
      have hheld := held_setPc (h.lt_threads hstarted) .head f
      rw [hpc, Pc.holds_running, Pc.holds_of_none (show Pc.head.inFlight = none from rfl)] at hheld
      have hbefore := ha f
      show (s.executed ++ [g]).count f + (s.setPc i .head).held f = s.dequeued.count (some f)
      rw [List.count_append]
      omega
  | startThread =>
    intro f
    have hold : ∑ i ∈ Finset.range s.threads, (Function.update s.pc s.threads .init i).holds f = s.held f :=
      Finset.sum_congr rfl fun i hi => by rw [Function.update_of_ne (Nat.ne_of_lt (Finset.mem_range.mp hi))]
    have hnew : ∑ i ∈ Finset.range (s.threads + 1), (Function.update s.pc s.threads .init i).holds f =
        s.held f := by
      rw [Finset.sum_range_succ, Function.update_self, Pc.holds_of_none rfl, hold, Nat.add_zero]
    exact (congrArg (s.executed.count f + ·) hnew).trans (ha f)
  | start | startReturns | stop | join | stopReturns => exact ha

theorem accounted_of_reachable (h : threadPool.Reachable s) : s.Accounted := by
  refine h.invariant (I := Accounted) (fun s h0 => ?_)
    (fun _ _ _ hr hI _ hs => accounted_step (sound_of_reachable hr) hI hs)
  obtain ⟨numThreads, maxQueueSize, rfl⟩ := h0
  exact fun _ => rfl

/-! ## After `stop()` -/

/-- How many threads `stop()` has joined. -/
def joined (s : ThreadPool) : Nat :=
  match s.owner with
  | .joining i => i
  | .stopped => s.threads
  | _ => 0

/-- The threads that were joined have returned. -/
def Joined (s : ThreadPool) : Prop := ∀ i < s.joined, s.pc i = .finished

/-- A worker that has returned stays so, and `stop()` joins one thread after the other. -/
theorem joined_step (hj : s.Joined) (hs : s.step l = .ok s') : s'.Joined := by
  have hframe : ∀ i pc, s.pc i ≠ .finished → s'.joined = s.joined → s'.pc = Function.update s.pc i pc →
      s'.Joined := by
    intro i pc hrun hjoined hpc j hlt
    rw [hjoined] at hlt
    have hne : j ≠ i := fun he => hrun (he ▸ hj j hlt)
    rw [hpc, Function.update_of_ne hne]
    exact hj j hlt
  cases moves_of_step hs with
  | run hrun =>
    obtain ⟨-, ⟨f, -, rfl⟩ | rfl⟩ := run_cases hrun
    · exact hj
    · exact hj
  | push hpush =>
    obtain ⟨task, -, ⟨-, -, rfl⟩ | ⟨-, rfl⟩ | ⟨-, -, -, rfl⟩⟩ := push_cases hpush
    · exact hj
    · exact hj
    · exact hj
  | take htake =>
    rename_i i _
    obtain ⟨hpc, hcase⟩ := take_cases htake
    have hrun : s.pc i ≠ .finished := by
      rw [hpc]
      exact nofun
    obtain ⟨-, -, rfl⟩ | ⟨-, -, rfl⟩ | ⟨task, queue, -, -, rfl⟩ := hcase
    · exact hj
    · exact hframe i _ hrun rfl rfl
    · exact hframe i _ hrun rfl rfl
  | runInThread hstep =>
    obtain ⟨-, -, hrun, ⟨pc, -, rfl⟩ | ⟨g, -, rfl⟩⟩ := runInThread_cases hstep
    · exact hframe _ _ hrun rfl rfl
    · exact hframe _ _ hrun rfl rfl
  | join howner hfinished =>
    intro j hlt
    rcases Nat.lt_succ_iff_lt_or_eq.mp hlt with hlt | rfl
    · refine hj j ?_
      rw [joined, howner]
      exact hlt
    · exact hfinished
  | stopReturns howner =>
    intro j hlt
    refine hj j ?_
    rw [joined, howner]
    exact hlt
  | startThread howner =>
    -- nobody has been joined
    intro j hlt
    rw [joined] at hlt
    simp only [setPc, howner] at hlt
    exact absurd hlt (Nat.not_lt_zero j)
  | start | startReturns | stop =>
    intro j hlt
    exact absurd hlt (Nat.not_lt_zero j)

theorem joined_of_reachable (h : threadPool.Reachable s) : s.Joined := by
  refine h.invariant (I := Joined) (fun s h0 => ?_) (fun _ _ _ _ hI _ hs => joined_step hI hs)
  obtain ⟨numThreads, maxQueueSize, rfl⟩ := h0
  exact fun i hlt => absurd hlt (Nat.not_lt_zero i)

/-- All workers have returned. -/
theorem stopped_finished (h : threadPool.Reachable s) (hstop : s.owner = .stopped) (hi : i < s.threads) :
    s.pc i = .finished := by
  refine joined_of_reachable h i ?_
  rw [joined, hstop]
  exact hi

/-- **What is left when `stop()` has returned** stays as it is: no step of anybody changes it. -/
theorem stopped_step (h : threadPool.Reachable s) (hstop : s.owner = .stopped) (hs : s.step l = .ok s') :
    s'.owner = .stopped ∧ s'.executed = s.executed ∧ s'.pushed = s.pushed := by
  have hrun : s.running = false := (sound_of_reachable h).stopped (by rw [hstop]; rfl)
  have hover : ∀ i, s.pc i ≠ .notStarted → s.pc i = .finished := fun i hi =>
    stopped_finished h hstop ((sound_of_reachable h).lt_threads hi)
  cases l with
  | run t task =>
    obtain ⟨-, ⟨f, -, rfl⟩ | rfl⟩ := run_cases (s := s) hs
    · exact ⟨hstop, rfl, rfl⟩
    · exact ⟨hstop, rfl, rfl⟩
  | push t who =>
    obtain ⟨task, -, ⟨-, hrunning, -⟩ | ⟨-, rfl⟩ | ⟨hrunning, -⟩⟩ := push_cases (s := s) hs
    · exact absurd (hrun.symm.trans hrunning) nofun
    · exact ⟨hstop, rfl, rfl⟩
    · exact absurd (hrun.symm.trans hrunning) nofun
  | take i who =>
    have hpc := (take_cases (s := s) hs).1
    have hfinished := hover i (by rw [hpc]; exact nofun)
    rw [hpc] at hfinished
    cases hfinished
  | runInThread i =>
    obtain ⟨hstarted, -, hfinished, -⟩ := runInThread_cases (s := s) hs
    exact absurd (hover i hstarted) hfinished
  | join =>
    simp only [step, hstop] at hs
    cases hs
  | start | startThread | startReturns | stop | stopReturns =>
    simp [step, bind_eq_ok, hstop] at hs

/-- The same of any steps. -/
theorem stopped_exec (h : threadPool.Reachable s) (hstop : s.owner = .stopped) {ls : List Label}
    (hs : threadPool.exec s ls = .ok s') : s'.executed = s.executed ∧ s'.pushed = s.pushed := by
  induction ls generalizing s with
  | nil =>
    obtain rfl := Except.ok.inj hs
    exact ⟨rfl, rfl⟩
  | cons l ls ih =>
    obtain ⟨s1, hone, hrest⟩ := bind_eq_ok.mp hs
    obtain ⟨hstop1, hexecuted, hpushed⟩ := stopped_step h hstop hone
    obtain ⟨he, hp⟩ := ih (h.step trivial hone) hstop1 hrest
    exact ⟨he.trans hexecuted, hp.trans hpushed⟩

/-- **When `stop()` returns**, the tasks that were handed out have been executed, each as often as it was
    handed out; the others are in `queue_`, and no run executes them any more. -/
theorem stopped_backlog (h : threadPool.Reachable s) (hstop : s.owner = .stopped) :
    (∀ f, s.executed.count f = s.dequeued.count (some f)) ∧ s.pushed = s.dequeued ++ s.queue ∧
      ∀ ls s', threadPool.exec s ls = .ok s' → s'.executed = s.executed ∧ s'.pushed = s.pushed := by
  refine ⟨fun f => ?_, (sound_of_reachable h).fifo, fun ls s' hs => stopped_exec h hstop hs⟩
  have hheld : s.held f = 0 := Finset.sum_eq_zero fun i hi => by
    rw [stopped_finished h hstop (Finset.mem_range.mp hi)]
    exact Pc.holds_of_none rfl
  have haccount := accounted_of_reachable h f
  rwa [hheld, Nat.add_zero] at haccount

/-- One worker, two tasks: `stop()` is called while the first one runs. -/
def dropped : List Label :=
  [.start, .startThread, .startReturns, .run (.other 0) (some 1), .push (.other 0) none,
    .run (.other 0) (some 2), .push (.other 0) none, .runInThread 0, .runInThread 0, .take 0 none, .runInThread 0,
    .stop, .runInThread 0, .runInThread 0, .join, .stopReturns]

theorem stopped_backlog_sample : ∃ s : ThreadPool, s.queue = [some 2] ∧
    (∀ f, s.executed.count f = s.dequeued.count (some f)) ∧ s.pushed = s.dequeued ++ s.queue ∧
      ∀ ls s', threadPool.exec s ls = .ok s' → s'.executed = s.executed ∧ s'.pushed = s.pushed := by
  obtain ⟨s, hr, hp⟩ := System.Reach.of_exec (S := threadPool) (l := dropped)
    (p := fun s => decide (s.queue = [some 2] ∧ s.owner = .stopped)) (.init ⟨1, 0, rfl⟩) (by decide +kernel)
  rw [decide_eq_true_eq] at hp
  exact ⟨s, hp.1, stopped_backlog hr hp.2⟩

/-- `stop()` has returned, and the second task has not been executed. -/
theorem backlog_dropped : ∃ s : ThreadPool, threadPool.Reachable s ∧ s.owner = .stopped ∧
    s.pushed = [some 1, some 2] ∧ s.executed = [1] ∧ ¬ ∀ f, s.pushed.count (some f) = s.executed.count f := by
  obtain ⟨s, hr, hp⟩ := System.Reach.of_exec (S := threadPool) (l := dropped)
    (p := fun s => decide (s.owner = .stopped ∧ s.pushed = [some 1, some 2] ∧ s.executed = [1]))
    (.init ⟨1, 0, rfl⟩) (by decide +kernel)
  obtain ⟨hstop, hpushed, hexecuted⟩ := of_decide_eq_true hp
  refine ⟨s, hr, hstop, hpushed, hexecuted, fun hall => ?_⟩
  have htwo := hall 2
  rw [hpushed, hexecuted] at htwo
  exact absurd htwo (by decide)

end ThreadPool

end Irono
