import Irono.Base.Correctness.LogIntegrity

/-!
# `Base.Correctness.LogStop` — what `stop()` leaves behind in the front-end buffers

The back end tests `running_` once an iteration. When `stop()` clears it between that test and the swap,
the iteration under way collects everything; when it clears it later in the iteration, the next test ends
the loop and what was appended after the swap stays in `buffers_` and `currentBuffer_`
(`stop_loses_lines`). In every run whose `stop()` comes in time or finds its lines collected, they are
written and flushed (`stop_delivers`).
-/

namespace Irono

open Transition

namespace AsyncLogging

variable {s s' : AsyncLogging}

/-- When `running_` is cleared, the iteration has passed its test and not yet swapped, or every line
    appended before `stop()` was called has been collected. -/
def StopsInTime (s : AsyncLogging) (a : Label) : Prop :=
  s.ShortLines a ∧
    (a = .clearRunning → s.pc = .enter ∨ s.pc = .waiting ∨ s.beforeStop.length ≤ s.swapped)

instance (s : AsyncLogging) (a : Label) : Decidable (s.StopsInTime a) :=
  inferInstanceAs (Decidable (_ ∧ (_ → _ ∨ _ ∨ _)))

/-- `stop()` has cleared `running_`. -/
def Cleared (s : AsyncLogging) : Prop := s.owner = .notifying ∨ s.owner = .joining ∨ s.owner = .stopped

/-- The lines of `stop()` are collected, or the iteration that will collect them is under way. -/
def Collects (s : AsyncLogging) : Prop :=
  s.pc = .enter ∨ s.pc = .waiting ∨ s.beforeStop.length ≤ s.swapped

/-- **The invariant.** -/
structure Stopping (s : AsyncLogging) : Prop where
  before : s.beforeStop <+: s.lines
  collects : s.Cleared → s.running = false ∧ s.Collects
  finished : s.pc = .finished → s.flushed = s.output
  stopped : s.owner = .stopped → s.pc = .finished

theorem stopping_new : new.Stopping := by
  constructor <;> simp [new, Cleared]

/-- The swap collects the lines appended so far. -/
theorem stopping_swap (h : s.Stopping) (hend : s.pc ≠ .finished) (hs : s.swapBuffers = .ok s') : s'.Stopping := by
  unfold swapBuffers at hs
  cases hb : s.newBuffer1 with
  | none => rw [hb] at hs; cases hs
  | some b =>
    simp only [hb, pure_eq_ok, Except.ok.injEq] at hs
    subst hs
    exact ⟨h.before, fun hc => ⟨(h.collects hc).1, .inr (.inr h.before.length_le)⟩, by simp,
      fun ho => absurd (h.stopped ho) hend⟩

/-- A piece of the back end that takes no lines; the test of `running_` does not begin an iteration once
    it is cleared. -/
theorem Stopping.moved (h : s.Stopping) (hend : s.pc ≠ .finished)
    (hframe : s' = { s with
      pc := s'.pc, newBuffer1 := s'.newBuffer1, newBuffer2 := s'.newBuffer2
      buffersToWrite := s'.buffersToWrite, output := s'.output, flushed := s'.flushed })
    (hpc : s.pc = .enter → s'.pc = .waiting) (hwait : s.pc ≠ .waiting)
    (hfin : s'.pc = .finished → s'.flushed = s'.output) : s'.Stopping := by
  refine ⟨?_, ?_, hfin, ?_⟩
  · rw [hframe]; exact h.before
  · intro hc
    have hc' : s.Cleared := by rw [hframe] at hc; exact hc
    obtain ⟨hrun, hcol⟩ := h.collects hc'
    refine ⟨by rw [hframe]; exact hrun, ?_⟩
    rcases hcol with henter | hwaiting | hle
    · exact .inr (.inl (hpc henter))
    · exact absurd hwaiting hwait
    · exact .inr (.inr (by rw [hframe]; exact hle))
  · intro ho
    rw [hframe] at ho
    exact absurd (h.stopped ho) hend

theorem stopping_backend (h : s.Stopping) (hs : s.backend = .ok s') : s'.Stopping := by
  cases backend_step hs with
  | started hpc | again hpc | ended hpc | overload hpc | write hpc | written hpc | flush hpc =>
    exact h.moved (by simp [hpc]) rfl (by simp [hpc]) (by simp [hpc]) (by simp)
  | wait hpc => exact h.moved (by simp [hpc]) rfl (by simp) (by simp [hpc]) (by simp)
  | swap hpc hswap =>
    refine stopping_swap h (fun hend => ?_) hswap
    rw [hend] at hpc
    simp at hpc
  | recycle hpc hrecycle =>
    simp only [AsyncLogging.recycle, bind_eq_ok, Prod.exists, pure_eq_ok, Except.ok.injEq] at hrecycle
    obtain ⟨b₁, l₁, -, b₂, l₂, -, rfl⟩ := hrecycle
    exact h.moved (by simp [hpc]) rfl (by simp [hpc]) (by simp [hpc]) (by simp)
  | lastFlush hpc => exact h.moved (by simp [hpc]) rfl (by simp [hpc]) (by simp [hpc]) (fun _ => rfl)

/-- **One step** under the condition. -/
theorem stopping_step {a : Label} (h : s.Stopping) (ha : s.StopsInTime a) (hs : s.step a = .ok s') :
    s'.Stopping := by
  cases a with
  | append logline =>
    simp only [step, pure_eq_ok, Except.ok.injEq] at hs
    subst hs
    have hbefore : s.beforeStop <+: s.lines ++ [logline] := h.before.trans (List.prefix_append _ _)
    unfold append
    split
    · exact ⟨hbefore, h.collects, h.finished, h.stopped⟩
    · exact ⟨hbefore, h.collects, h.finished, h.stopped⟩
  | backend => exact stopping_backend h hs
  | start =>
    simp only [step, bind_eq_ok, enabled_eq_ok, pure_eq_ok, Except.ok.injEq] at hs
    obtain ⟨-, -, rfl⟩ := hs
    exact ⟨h.before, by simp [Cleared], by simp, by simp⟩
  | startReturns =>
    simp only [step, bind_eq_ok, enabled_eq_ok, pure_eq_ok, Except.ok.injEq] at hs
    obtain ⟨-, -, rfl⟩ := hs
    exact ⟨h.before, by simp [Cleared], h.finished, by simp⟩
  | stop =>
    simp only [step, bind_eq_ok, enabled_eq_ok, pure_eq_ok, Except.ok.injEq] at hs
    obtain ⟨-, -, rfl⟩ := hs
    exact ⟨List.prefix_rfl, by simp [Cleared], h.finished, by simp⟩
  | clearRunning =>
    simp only [step, bind_eq_ok, enabled_eq_ok, pure_eq_ok, Except.ok.injEq] at hs
    obtain ⟨-, -, rfl⟩ := hs
    exact ⟨h.before, fun _ => ⟨rfl, ha.2 rfl⟩, h.finished, by simp⟩
  | notify =>
    simp only [step, bind_eq_ok, enabled_eq_ok, pure_eq_ok, Except.ok.injEq] at hs
    obtain ⟨-, howner, rfl⟩ := hs
    exact ⟨h.before, fun _ => h.collects (.inl howner), h.finished, by simp⟩
  | join =>
    simp only [step, bind_eq_ok, enabled_eq_ok, pure_eq_ok, Except.ok.injEq] at hs
    obtain ⟨-, ⟨howner, hpc⟩, rfl⟩ := hs
    exact ⟨h.before, fun _ => h.collects (.inr (.inl howner)), h.finished, fun _ => hpc⟩

/-! ## The result -/

/-- Every line appended before `stop()` was called is in a batch, and what the overload rule left of the
    batches was handed to `output_.append` and flushed. -/
def Delivered (s : AsyncLogging) : Prop :=
  ∃ taken full rest, s.Split taken full rest ∧ s.beforeStop <+: taken.flatten.flatten ∧
    s.flushed = (taken.map kept).flatten.flatten.flatten

/-- Once `stop()` has returned, its lines are delivered. -/
def StopDelivers (s : AsyncLogging) : Prop := s.owner = .stopped → s.Delivered

/-- **`stop()` delivers**, in every run in which it clears `running_` in time. -/
theorem stop_delivers (h : asyncLogging.Reach StopsInTime s) : s.StopDelivers := by
  intro howner
  have ha : s.Accounted := accounted_of_reach (h.mono (fun _ _ hc => hc.1))
  have hst : s.Stopping := h.invariant (I := Stopping)
    (fun s h0 => by have hs : s = new := h0; exact hs ▸ stopping_new)
    (fun _ _ _ _ hI hc hs => stopping_step hI hc hs)
  have hpc := hst.stopped howner
  obtain ⟨taken, full, rest, hsplit⟩ := ha.split
  refine ⟨taken, full, rest, hsplit, ?_, ?_⟩
  · have hle : s.beforeStop.length ≤ s.swapped := by
      rcases (hst.collects (.inr (.inr howner))).2 with henter | hwaiting | hle
      · rw [hpc] at henter; cases henter
      · rw [hpc] at hwaiting; cases hwaiting
      · exact hle
    have htaken : taken.flatten.flatten <+: s.lines := ⟨_, hsplit.lines⟩
    exact List.prefix_of_prefix_length_le hst.before htaken (by rw [hsplit.swapped]; exact hle)
  · have hwritten := ha.written
    simp only [toWrite, hpc, List.append_nil] at hwritten
    rw [hst.finished hpc, hwritten, hsplit.toOutput]

/-- `stop()` is called while the back end waits. -/
theorem stop_delivers_sample : ∃ s : AsyncLogging, s.owner = .stopped ∧ s.beforeStop = [[1], [2]] ∧
    s.flushed = [1, 2] ∧ s.StopDelivers := by
  obtain ⟨s, hs, hp⟩ := System.Reach.of_execWhile (S := asyncLogging) (C := StopsInTime)
    (l := [Label.start, .backend, .startReturns, .append [1], .backend, .backend, .append [2], .stop, .clearRunning,
      .notify] ++ List.replicate 8 Label.backend ++ [Label.join])
    (p := fun s => decide (s.owner = .stopped ∧ s.beforeStop = [[1], [2]] ∧ s.flushed = [1, 2]))
    (.init rfl) (by decide +kernel)
  rw [decide_eq_true_eq] at hp
  exact ⟨s, hp.1, hp.2.1, hp.2.2, stop_delivers hs⟩

/-- **`stop()` while the back end writes.** The line was appended after the swap; the next test of
    `running_` ends the loop, and the line stays in `currentBuffer_`. -/
theorem stop_loses_lines :
    ¬ ∀ s : AsyncLogging, asyncLogging.Reach ShortLines s → s.StopDelivers := by
  intro hall
  obtain ⟨s, hs, hp⟩ := System.Reach.of_execWhile (S := asyncLogging) (C := ShortLines)
    (l := [Label.start, .backend, .startReturns, .backend, .backend, .backend, .append [1], .stop, .clearRunning,
      .notify] ++ List.replicate 7 Label.backend ++ [Label.join])
    (p := fun s => decide (s.owner = .stopped ∧ s.beforeStop = [[1]] ∧ s.swapped = 0)) (.init rfl)
    (by decide +kernel)
  rw [decide_eq_true_eq] at hp
  obtain ⟨taken, full, rest, hsplit, hbefore, -⟩ := hall s hs hp.1
  have hlen := hbefore.length_le
  rw [hsplit.swapped, hp.2.1, hp.2.2] at hlen
  exact absurd hlen (by decide)

end AsyncLogging

end Irono
