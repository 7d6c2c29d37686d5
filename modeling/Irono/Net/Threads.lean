import Irono.Net.EventLoop

/-!
# `Net.Threads` — several loops and the statements their threads are in

A system of several loops that hand work to each other. The code of a functor or handler is a list of
statements of type `S`, and a functor is the one statement it starts with; `frames t` are the statements
thread `t` has begun and not finished, innermost first. A loop takes its next task when its thread has
finished the one before.

The *agenda* of a thread is all it has still to do, in order. A loop's own code only works it off, so
what holds of the order in an agenda (first come, first served) is a matter of the statements alone.
-/

namespace Irono

open Transition EventLoop

structure Threads (H S : Type) where
  loops : ThreadId → EventLoop H S
  frames : ThreadId → List S

namespace Threads

variable {H S : Type}

/-- Nobody has begun anything. -/
def start : Threads H S := ⟨fun _ => EventLoop.new, fun _ => []⟩

/-- Thread `t` begins `stmts`. -/
def push (th : Threads H S) (t : ThreadId) (stmts : List S) : Threads H S :=
  { th with frames := Function.update th.frames t (stmts ++ th.frames t) }

/-- The statement thread `t` is at, taken off its frames. -/
def pop (th : Threads H S) (t : ThreadId) : Option (S × Threads H S) :=
  match th.frames t with
  | stmt :: rest => some (stmt, { th with frames := Function.update th.frames t rest })
  | [] => none

/-- `owner`'s loop `queueInLoop`, called by thread `t`. -/
def queueInLoop (th : Threads H S) (t owner : ThreadId) (stmt : S) : Threads H S :=
  { th with loops := Function.update th.loops owner ((th.loops owner).queueInLoop (t = owner) stmt) }

/-- `owner`'s loop `runInLoop`, called by thread `t`. -/
def runInLoop (th : Threads H S) (t owner : ThreadId) (stmt : S) : Threads H S :=
  if t = owner then th.push t [stmt] else th.queueInLoop t owner stmt

/-- `owner`'s loop `quit`, called by thread `t`. -/
def quit (th : Threads H S) (t owner : ThreadId) : Threads H S :=
  let loop := { th.loops owner with quit := true }
  { th with loops := Function.update th.loops owner (if t = owner then loop else loop.wakeup) }

variable (handle : H → List S)

/-- The statements of a task. -/
def stmts : Task H S → List S
  | .handler h => handle h
  | .functor stmt => [stmt]

/-- One piece of the loop's own code in thread `t`. -/
def advance [DecidableEq H] (th : Threads H S) (t : ThreadId) (mv : Move H) :
    Result EventLoop.Fault (Threads H S) := do
  enabled ((th.frames t).isEmpty)
  let (loop, task) ← (th.loops t).advance mv
  return { loops := Function.update th.loops t loop
           frames := Function.update th.frames t (task.toList.flatMap (stmts handle)) }

/-! ## The agenda -/

/-- All that thread `t` has still to do. -/
def agenda (th : Threads H S) (t : ThreadId) : List S :=
  th.frames t ++ (th.loops t).agenda.flatMap (stmts handle)

/-- Every loop has used up its batch outside `doPendingFunctors`. -/
def Batched (th : Threads H S) : Prop := ∀ t, (th.loops t).Batched

theorem batched_start : (start : Threads H S).Batched := fun _ => EventLoop.batched_new

variable {handle} {th th' : Threads H S} {t owner : ThreadId}

@[simp] theorem agenda_start (t : ThreadId) : (start : Threads H S).agenda handle t = [] := rfl

theorem agenda_push (stmts : List S) (t' : ThreadId) :
    (th.push t stmts).agenda handle t' = (if t' = t then stmts else []) ++ th.agenda handle t' := by
  by_cases h : t' = t
  · subst h; simp [agenda, push]
  · simp [agenda, push, h]

theorem agenda_queueInLoop (stmt : S) (t' : ThreadId) :
    (th.queueInLoop t owner stmt).agenda handle t' =
      th.agenda handle t' ++ (if t' = owner then [stmt] else []) := by
  by_cases h : t' = owner
  · subst h; simp [agenda, queueInLoop, stmts]
  · simp [agenda, queueInLoop, h]

theorem agenda_quit (t' : ThreadId) : (th.quit t owner).agenda handle t' = th.agenda handle t' := by
  by_cases h : t' = owner
  · subst h
    simp only [agenda, quit, Function.update_self]
    split <;> rfl
  · simp [agenda, quit, h]

theorem agenda_pop {stmt : S} (h : th.pop t = some (stmt, th')) (t' : ThreadId) :
    th.agenda handle t' = (if t' = t then [stmt] else []) ++ th'.agenda handle t' := by
  unfold pop at h
  split at h
  · rename_i st rest hst
    simp only [Option.some.injEq, Prod.mk.injEq] at h
    obtain ⟨rfl, rfl⟩ := h
    by_cases h' : t' = t
    · subst h'; simp [agenda, hst]
    · simp [agenda, h']
  · cases h

theorem frames_pop {stmt : S} (h : th.pop t = some (stmt, th')) :
    th.frames t = stmt :: th'.frames t ∧ ∀ t', t' ≠ t → th'.frames t' = th.frames t' := by
  unfold pop at h
  split at h
  · rename_i st rest hst
    simp only [Option.some.injEq, Prod.mk.injEq] at h
    obtain ⟨rfl, rfl⟩ := h
    exact ⟨by simp [hst], fun t' ht' => by simp [ht']⟩
  · cases h

/-- A thread that queues a functor is still at the same statement. -/
theorem pop_queueInLoop {stmt : S} (h : th.pop t = some (stmt, th')) (x : S) :
    (th.queueInLoop t owner x).pop t = some (stmt, th'.queueInLoop t owner x) := by
  unfold pop at h ⊢
  split at h
  · rename_i st rest hst
    simp only [Option.some.injEq, Prod.mk.injEq] at h
    obtain ⟨rfl, rfl⟩ := h
    simp [queueInLoop, hst]
  · cases h

theorem loops_pop {stmt : S} (h : th.pop t = some (stmt, th')) : th'.loops = th.loops := by
  unfold pop at h
  split at h
  · simp only [Option.some.injEq, Prod.mk.injEq] at h
    obtain ⟨-, rfl⟩ := h
    rfl
  · cases h

theorem batched_push (h : th.Batched) (stmts : List S) : (th.push t stmts).Batched := h

theorem batched_pop {stmt : S} (h : th.Batched) (hp : th.pop t = some (stmt, th')) : th'.Batched := by
  unfold Batched
  rw [loops_pop hp]
  exact h

theorem batched_queueInLoop (h : th.Batched) (stmt : S) : (th.queueInLoop t owner stmt).Batched := by
  intro t'
  by_cases h' : t' = owner
  · subst h'; simpa [queueInLoop] using queueInLoop_batched (h t') _ _
  · simpa [queueInLoop, h'] using h t'

theorem batched_quit (h : th.Batched) : (th.quit t owner).Batched := by
  intro t'
  by_cases h' : t' = owner
  · subst h'
    simp only [quit, Function.update_self]
    split <;> exact h t'
  · simpa [quit, h'] using h t'

/-- **A loop's own code works the agenda off**; `poll` puts the reported handlers in front of what is
    then only functors. -/
theorem agenda_advance [DecidableEq H] {mv : Move H} (hb : th.Batched)
    (h : th.advance handle t mv = .ok th') :
    th'.Batched ∧ th.frames t = [] ∧ (∀ t', t' ≠ t → th'.frames t' = th.frames t') ∧
    ((∃ active, mv = .poll active ∧ th'.frames t = [] ∧
        th.agenda handle t = (th.loops t).pendingFunctors ∧
        ∀ t', th'.agenda handle t' =
          (if t' = t then (handlers active).flatMap (stmts handle) else []) ++ th.agenda handle t') ∨
      ((∃ task : Option (Task H S), th'.frames t = task.toList.flatMap (stmts handle)) ∧
        ∀ t', th'.agenda handle t' = th.agenda handle t')) := by
  simp only [advance, bind_eq_ok, enabled_eq_ok, Prod.exists, pure_eq_ok, Except.ok.injEq] at h
  obtain ⟨-, hnil, loop, task, hadv, rfl⟩ := h
  have hframes : th.frames t = [] := List.isEmpty_iff.mp hnil
  obtain ⟨hb', hcase⟩ := advance_agenda (hb t) hadv
  refine ⟨fun t' => ?_, hframes, fun t' ht' => by simp [ht'], ?_⟩
  · by_cases ht' : t' = t
    · subst ht'; simpa using hb'
    · simpa [ht'] using hb t'
  · rcases hcase with ⟨active, rfl, rfl, hag, hag'⟩ | ⟨-, hag⟩
    · refine .inl ⟨active, rfl, by simp, ?_, fun t' => ?_⟩
      · simp [agenda, hframes, hag, List.flatMap_map, stmts]
      · by_cases ht' : t' = t
        · subst ht'; simp [agenda, hag', hframes]
        · simp [agenda, ht']
    · refine .inr ⟨⟨task, by simp⟩, fun t' => ?_⟩
      by_cases ht' : t' = t
      · subst ht'; simp [agenda, hag, hframes]
      · simp [agenda, ht']

/-- **The task a loop's own code leaves in the frames**: none, the handler that was first in the dispatch
    list, or the functor that was first in the batch. -/
theorem frames_advance [DecidableEq H] {mv : Move H} (h : th.advance handle t mv = .ok th') :
    th'.frames t = [] ∨
    (∃ hd rest, (th.loops t).pc = .dispatch (.channel hd :: rest) ∧ (th'.loops t).pc = .dispatch rest ∧
      th'.frames t = handle hd) ∨
    (∃ stmt rest, (th.loops t).pc = .functors ∧ (th.loops t).functors = stmt :: rest ∧
      (th'.loops t).pc = .functors ∧ th'.frames t = [stmt]) := by
  simp only [advance, bind_eq_ok, enabled_eq_ok, Prod.exists, pure_eq_ok, Except.ok.injEq] at h
  obtain ⟨-, -, loop, task, hadv, rfl⟩ := h
  simp only [Function.update_self]
  rcases advance_cases hadv with
    ⟨-, -, rfl, -⟩ | ⟨active, -, -, rfl, -, -⟩ | ⟨-, -, rfl, -⟩ | ⟨-, -, rfl, -⟩ |
    ⟨rest, -, -, rfl, -⟩ |
    ⟨hd, rest, -, hpc, rfl, rfl⟩ | ⟨f, rest, -, hpc, hf, rfl, rfl⟩ | ⟨-, -, -, rfl, -⟩ | ⟨-, -, rfl, -⟩
  case inr.inr.inr.inr.inr.inl =>
    exact .inr (.inl ⟨hd, rest, hpc, rfl, List.append_nil _⟩)
  case inr.inr.inr.inr.inr.inr.inl =>
    exact .inr (.inr ⟨f, rest, hpc, hf, hpc, rfl⟩)
  all_goals exact .inl rfl

theorem polling_of_advance [DecidableEq H] {active : List (Active H)}
    (h : th.advance handle t (.poll active) = .ok th') : (th.loops t).pc = .polling := by
  simp only [advance, bind_eq_ok, Prod.exists] at h
  obtain ⟨-, -, loop, task, hadv, -⟩ := h
  cases hpc : (th.loops t).pc with
  | polling => rfl
  | _ => simp [EventLoop.advance, hpc] at hadv

/-- What is pending after a piece of the loop's own code was so before, and the loop has not left the
    dispatch by it. -/
theorem pending_advance [DecidableEq H] {mv : Move H} (h : th.advance handle t mv = .ok th') {x : S}
    (hx : x ∈ (th'.loops t).pendingFunctors) :
    x ∈ (th.loops t).pendingFunctors ∧
      ((∃ active, (th.loops t).pc = .dispatch active) → ∃ active, (th'.loops t).pc = .dispatch active) := by
  simp only [advance, bind_eq_ok, enabled_eq_ok, Prod.exists, pure_eq_ok, Except.ok.injEq] at h
  obtain ⟨-, -, loop, task, hadv, rfl⟩ := h
  simp only [Function.update_self] at hx ⊢
  rcases advance_cases hadv with
    ⟨-, hpc, -, rfl⟩ | ⟨active, -, -, -, -, rfl⟩ | ⟨-, hpc, -, ⟨-, rfl⟩ | ⟨-, rfl⟩⟩ |
    ⟨-, -, -, rfl⟩ | ⟨rest, -, -, -, rfl⟩ | ⟨hd, rest, -, -, -, rfl⟩ |
    ⟨f, rest, -, hpc, -, -, rfl⟩ | ⟨-, hpc, -, -, rfl⟩ | ⟨-, hpc, -, rfl⟩
  case inr.inl => exact ⟨hx, fun _ => ⟨active, rfl⟩⟩
  case inr.inr.inr.inl => exact absurd hx List.not_mem_nil
  case inr.inr.inr.inr.inl => exact ⟨hx, fun _ => ⟨rest, rfl⟩⟩
  case inr.inr.inr.inr.inr.inl => exact ⟨hx, fun _ => ⟨rest, rfl⟩⟩
  all_goals exact ⟨hx, fun ⟨active, hact⟩ => absurd (hpc.symm.trans hact) (by simp)⟩

/-- **The batch after a piece of the loop's own code**: a swap, the end of a batch, or neither. -/
theorem batch_advance [DecidableEq H] {mv : Move H} (hb : th.Batched)
    (h : th.advance handle t mv = .ok th') :
    (∀ t', t' ≠ t → th'.frames t' = th.frames t' ∧ th'.loops t' = th.loops t') ∧
    ((mv = .next ∧ (th.loops t).pc = .dispatch [] ∧ (th'.loops t).pc = .functors ∧ th'.frames t = [] ∧
        (th'.loops t).functors = (th.loops t).pendingFunctors ∧ (th'.loops t).pendingFunctors = []) ∨
      (mv = .next ∧ (th.loops t).pc = .unwinding ∧ th'.frames t = [] ∧ (th'.loops t).functors = [] ∧
        (th'.loops t).pendingFunctors = (th.loops t).pendingFunctors) ∨
      ((th.loops t).pc ≠ .dispatch [] ∧ (th.loops t).pc ≠ .unwinding ∧
        ((th.loops t).pc = .functors → (th'.loops t).pc = .functors ∨ (th'.loops t).pc = .unwinding) ∧
        (∀ x ∈ th'.frames t ++ (th'.loops t).functors, x ∈ (th.loops t).functors ∨ ∃ hd, x ∈ handle hd) ∧
        (th'.loops t).pendingFunctors = (th.loops t).pendingFunctors)) := by
  simp only [advance, bind_eq_ok, enabled_eq_ok, Prod.exists, pure_eq_ok, Except.ok.injEq] at h
  obtain ⟨-, -, loop, task, hadv, rfl⟩ := h
  refine ⟨fun t' ht => by simp [ht], ?_⟩
  simp only [Function.update_self]
  rcases advance_cases hadv with
    ⟨-, hpc, rfl, rfl⟩ | ⟨active, -, hpc, rfl, -, rfl⟩ | ⟨-, hpc, rfl, ⟨-, rfl⟩ | ⟨-, rfl⟩⟩ |
    ⟨hmv, hpc, rfl, rfl⟩ | ⟨rest, -, hpc, rfl, rfl⟩ | ⟨hd, rest, -, hpc, rfl, rfl⟩ |
    ⟨f, rest, -, hpc, hf, rfl, rfl⟩ | ⟨-, hpc, hf, rfl, rfl⟩ | ⟨hmv, hpc, rfl, rfl⟩
  case inr.inr.inr.inl => exact .inl ⟨hmv, hpc, rfl, rfl, rfl, rfl⟩
  case inr.inr.inr.inr.inr.inl =>
    refine .inr (.inr ⟨by simp [hpc], by simp [hpc], by simp [hpc], fun x hx => ?_, rfl⟩)
    rcases List.mem_append.mp hx with hx | hx
    · exact .inr ⟨hd, by simpa [stmts] using hx⟩
    · exact .inl hx
  case inr.inr.inr.inr.inr.inr.inl =>
    refine .inr (.inr ⟨by simp [hpc], by simp [hpc], fun _ => .inl hpc, fun x hx => .inl ?_, rfl⟩)
    rw [hf]
    simpa [stmts] using hx
  case inr.inr.inr.inr.inr.inr.inr.inl =>
    exact .inr (.inr ⟨by simp [hpc], by simp [hpc], fun _ => .inr rfl, fun x hx => .inl hx, rfl⟩)
  case inr.inr.inr.inr.inr.inr.inr.inr =>
    exact .inr (.inl ⟨hmv, hpc, rfl, hb t (by simp [hpc]), rfl⟩)
  all_goals exact .inr (.inr ⟨by simp [hpc], by simp [hpc], by simp [hpc], fun x hx => .inl hx, rfl⟩)

/-- An order in an agenda stays, if what comes in front may precede and what comes behind may follow
    anything. -/
theorem pairwise_agenda {R : S → S → Prop} {front rest back : List S} (hrest : rest.Pairwise R)
    (hfront : ∀ x ∈ front, ∀ y, R x y) (hback : ∀ y ∈ back, ∀ x, R x y) :
    (front ++ rest ++ back).Pairwise R := by
  rw [List.pairwise_append, List.pairwise_append]
  exact ⟨⟨List.pairwise_of_forall_mem_list fun x hx y _ => hfront x hx y, hrest, fun x hx y _ => hfront x hx y⟩,
    List.pairwise_of_forall_mem_list fun x _ y hy => hback y hy x, fun x _ y hy => hback y hy x⟩

/-! ## The functors alone -/

/-- The functors of thread `t`'s loop that have not been started. -/
def functors (th : Threads H S) (t : ThreadId) : List S :=
  (th.loops t).functors ++ (th.loops t).pendingFunctors

theorem functors_queueInLoop (stmt : S) (t' : ThreadId) : (th.queueInLoop t owner stmt).functors t' =
    th.functors t' ++ (if t' = owner then [stmt] else []) := by
  by_cases h : t' = owner
  · subst h; simp [functors, queueInLoop]
  · simp [functors, queueInLoop, h]

theorem functors_quit (t' : ThreadId) : (th.quit t owner).functors t' = th.functors t' := by
  by_cases h : t' = owner
  · subst h
    simp only [functors, quit, Function.update_self]
    split <;> rfl
  · simp [functors, quit, h]

theorem functors_pop {stmt : S} (h : th.pop t = some (stmt, th')) (t' : ThreadId) :
    th'.functors t' = th.functors t' := by
  unfold functors
  rw [loops_pop h]

/-- A loop's own code only takes functors away. -/
theorem functors_advance [DecidableEq H] {mv : Move H} (hb : th.Batched)
    (h : th.advance handle t mv = .ok th') {t' : ThreadId} {x : S} (hx : x ∈ th'.functors t') :
    x ∈ th.functors t' := by
  simp only [advance, bind_eq_ok, enabled_eq_ok, Prod.exists, pure_eq_ok, Except.ok.injEq] at h
  obtain ⟨-, -, loop, task, hadv, rfl⟩ := h
  by_cases ht' : t' = t
  · subst ht'
    simp only [functors, Function.update_self] at hx ⊢
    exact advance_functors (hb t') hadv hx
  · simpa [functors, ht'] using hx

/-! ## Counting statements -/

/-- The weight of what thread `t` has still to do. -/
def load (handle : H → List S) (weight : S → Nat) (th : Threads H S) (t : ThreadId) : Nat :=
  ((th.agenda handle t).map weight).sum

variable {weight : S → Nat}

theorem load_push (stmts : List S) (t' : ThreadId) : load handle weight (th.push t stmts) t' =
    (if t' = t then (stmts.map weight).sum else 0) + load handle weight th t' := by
  simp only [load, agenda_push]
  split <;> simp

theorem load_queueInLoop (stmt : S) (t' : ThreadId) : load handle weight (th.queueInLoop t owner stmt) t' =
    load handle weight th t' + (if t' = owner then weight stmt else 0) := by
  simp only [load, agenda_queueInLoop]
  split <;> simp

theorem load_pop {stmt : S} (h : th.pop t = some (stmt, th')) (t' : ThreadId) :
    load handle weight th t' = (if t' = t then weight stmt else 0) + load handle weight th' t' := by
  simp only [load, agenda_pop h]
  split <;> simp

end Threads

end Irono
