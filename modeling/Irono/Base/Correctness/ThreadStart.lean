import Irono.Base.Thread

/-!
# `Base.Correctness.ThreadStart` — `start()` and the new thread

The latch is what makes a `Thread` safe to destroy as soon as `start()` has returned: the new thread is through
with `tid_` and `latch_` then. The invariant says where one party can be while the other is somewhere.
-/

namespace Irono

open Transition CondVar

namespace Thread

variable {s s' : Thread} {l : Label}

/-- The new thread still goes through pointers into the `Thread`. -/
@[grind] def Pc.touches : Pc → Bool
  | .setTid => true
  | .lock => true
  | .decrement => true
  | .notify => true
  | .unlock => true
  | _ => false

/-- It has not counted down. -/
@[grind] def Pc.early : Pc → Bool
  | .none => true
  | .setTid => true
  | .lock => true
  | .decrement => true
  | _ => false

/-- It has the mutex of the latch. -/
@[grind] def Pc.locks : Pc → Bool
  | .decrement => true
  | .notify => true
  | .unlock => true
  | _ => false

/-- It has set `tid_`. -/
@[grind] def Pc.named : Pc → Bool
  | .none => false
  | .setTid => false
  | _ => true

/-- The owner has the mutex. -/
@[grind] def Owner.locks : Owner → Bool
  | .test => true
  | .unlock => true
  | _ => false

/-- The owner is in `latch_.wait()` and may wait. -/
@[grind] def Owner.waits : Owner → Bool
  | .lock => true
  | .test => true
  | .waiting => true
  | _ => false

/-- The owner has found the latch open. -/
@[grind] def Owner.passed : Owner → Bool
  | .unlock => true
  | .check => true
  | _ => false

/-- The pthread was joined or detached. -/
@[grind] def Settled (s : Thread) : Prop :=
  s.joined = true ∧ s.owner ≠ .join ∨ s.started = true ∧ s.owner = .destroyed

/-- The owner is in `start`, and a thread was created. -/
def Starting (s : Thread) : Prop := s.owner.waits = true ∨ s.owner.passed = true

/-- Where the parties can be, with the latch between them. -/
@[grind cases] structure Latched (s : Thread) : Prop where
  count : s.latch.count = if s.pc.early then 1 else 0
  threadLocks : s.latch.mutex = some .thread ↔ s.pc.locks = true
  ownerLocks : s.latch.mutex = some .owner ↔ s.owner.locks = true
  named : s.pc.named = true → 0 < s.tid
  touches : s.pc.touches = true → s.owner.waits = true
  passed : s.owner.passed = true → s.pc.early = false ∧ s.pc.touches = false
  asleep : .owner ∈ s.latch.condition.waiting → s.owner = .waiting ∧ s.pc ≠ .unlock ∧ s.pc.touches = true

/-- What the owner has done with the pthread. -/
structure Handle (s : Thread) : Prop where
  created : s.started = true ↔ s.pc ≠ .none
  starting : s.Starting → s.started = true ∧ s.joined = false
  joined : s.joined = true → s.started = true
  joining : s.owner = .join → s.joined = true
  released : s.released = 1 ∧ s.Settled ∨ s.released = 0 ∧ ¬ s.Settled

/-- **The invariant.** -/
structure Inv (s : Thread) : Prop where
  latched : s.Latched
  handle : s.Handle

theorem inv_new : new.Inv := by
  constructor
  · constructor <;> simp [new, CountDownLatch.new, Cond.empty, Pc.early, Pc.locks, Pc.named, Pc.touches,
      Owner.locks, Owner.passed]
  · constructor <;> simp [new, Starting, Settled, Owner.waits, Owner.passed]

/-! ## Each step -/

/-- A thread that has counted down and has not the mutex is through with the object. -/
theorem Pc.through {pc : Pc} (hearly : pc.early = false) (hlocks : pc.locks = false) : pc.touches = false := by
  cases pc <;> grind

/-- A thread that was created and has not counted down will. -/
theorem Pc.touches_of_early {pc : Pc} (hearly : pc.early = true) (hcreated : pc ≠ .none) : pc.touches = true := by
  cases pc <;> grind

section

variable {pc : Pc} {owner : Owner} {latch : CountDownLatch Party} {tid : Nat}

/-- The thread is created. -/
theorem Latched.start (h : s.Latched) (howner : s.owner = .outside) (hpc : s.pc = .none) :
    Latched { s with started := true, owner := .lock, pc := .setTid } := by
  constructor <;> grind

theorem Latched.ownerLock (h : s.Latched) (howner : s.owner = .lock) (hfree : s.latch.mutex = none) :
    Latched { s with latch := s.latch.lock .owner, owner := .test } := by
  constructor <;> grind

theorem Latched.sleep (h : s.Latched) (howner : s.owner = .test) (htouches : s.pc.touches = true) :
    Latched { s with latch := s.latch.sleep .owner, owner := .waiting } := by
  constructor <;> grind

theorem Latched.open (h : s.Latched) (hlocks : s.owner.locks = true) (hearly : s.pc.early = false)
    (hthrough : s.pc.touches = false) : Latched { s with owner := .unlock } := by
  constructor <;> grind

theorem Latched.wake (h : s.Latched) (hfree : s.latch.mutex = none) :
    Latched { s with latch := s.latch.wake .owner, owner := .test } := by
  constructor <;> grind

theorem Latched.ownerUnlock (h : s.Latched) (howner : s.owner = .unlock) :
    Latched { s with latch := s.latch.unlock, owner := .check } := by
  constructor <;> grind

/-- Outside the latch the owner moves as he likes, when the new thread is through with the object. -/
theorem Latched.away (h : s.Latched) (hwaits : s.owner.waits = false) (hlocks : s.owner.locks = false)
    (hnext : owner.waits = false ∧ owner.passed = false ∧ owner.locks = false) :
    Latched { s with owner := owner } := by
  constructor <;> grind

theorem Latched.setTid (h : s.Latched) (hpc : s.pc = .setTid) (htid : 0 < tid) :
    Latched { s with tid := tid, pc := .lock } := by
  constructor <;> grind

theorem Latched.threadLock (h : s.Latched) (hpc : s.pc = .lock) (hfree : s.latch.mutex = none) :
    Latched { s with latch := s.latch.lock .thread, pc := .decrement } := by
  constructor <;> grind

theorem Latched.decrement (h : s.Latched) (hpc : s.pc = .decrement) :
    Latched { s with latch := s.latch.decrement, pc := .notify } := by
  constructor <;> grind

theorem Latched.notify (h : s.Latched) (hpc : s.pc = .notify) :
    Latched { s with latch := s.latch.notify, pc := .unlock } := by
  constructor <;> grind

theorem Latched.threadUnlock (h : s.Latched) (hpc : s.pc = .unlock) :
    Latched { s with latch := s.latch.unlock, pc := .func } := by
  constructor <;> grind

theorem Latched.returns (h : s.Latched) (hpc : s.pc = .func) : Latched { s with pc := .finished } := by
  constructor <;> grind

/-- The new thread goes on. -/
theorem Handle.thread (h : s.Handle) (hpc : s.pc ≠ .none) (hnext : pc ≠ .none) :
    Handle { s with tid := tid, latch := latch, pc := pc } :=
  ⟨⟨fun _ => hnext, fun _ => h.created.mpr hpc⟩, h.starting, h.joined, h.joining, h.released⟩

/-- The owner goes on in `start`, or returns from it. -/
theorem Handle.inStart (h : s.Handle) (hin : s.Starting)
    (hnext : owner.waits = true ∨ owner.passed = true ∨ owner = .outside) :
    Handle { s with latch := latch, owner := owner } := by
  obtain ⟨hstarted, hnot⟩ := h.starting hin
  have hsettled : ¬ s.Settled := by
    rintro (⟨hjoined, -⟩ | ⟨-, howner⟩)
    · cases hnot.symm.trans hjoined
    · rw [Starting, howner] at hin
      cases hin <;> contradiction
  refine ⟨h.created, fun _ => ⟨hstarted, hnot⟩, h.joined, ?_, ?_⟩
  · rintro rfl
    rcases hnext with hnext | hnext | hnext <;> cases hnext
  · refine .inr ⟨(h.released.resolve_left fun hr => hsettled hr.2).1, ?_⟩
    rintro (⟨hjoined, -⟩ | ⟨-, rfl⟩)
    · cases hnot.symm.trans hjoined
    · rcases hnext with hnext | hnext | hnext <;> cases hnext

end

/-- **One step of the owner** inside `start` or `join`. -/
theorem Inv.ownerStep (h : s.Inv) (hs : s.ownerStep = .ok s') : s'.Inv := by
  unfold Thread.ownerStep at hs
  split at hs
  · next howner =>
    simp only [bind_eq_ok, enabled_eq_ok, pure_eq_ok, Except.ok.injEq] at hs
    obtain ⟨-, hfree, rfl⟩ := hs
    exact ⟨h.latched.ownerLock howner hfree, h.handle.inStart (.inl (by rw [howner]; rfl)) (.inl rfl)⟩
  · next howner =>
    have hin : s.Starting := .inl (by rw [howner]; rfl)
    have hcreated : s.pc ≠ .none := h.handle.created.mp (h.handle.starting hin).1
    split at hs
    · next hcount =>
      obtain rfl := Except.ok.inj hs
      have hearly : s.pc.early = true := by
        by_contra hne
        rw [h.latched.count, if_neg hne] at hcount
        exact absurd hcount (lt_irrefl 0)
      exact ⟨h.latched.sleep howner (Pc.touches_of_early hearly hcreated), h.handle.inStart hin (.inl rfl)⟩
    · next hcount =>
      obtain rfl := Except.ok.inj hs
      have hearly : s.pc.early = false := by
        by_contra hne
        rw [h.latched.count, if_pos (Bool.of_not_eq_false hne)] at hcount
        exact hcount Int.one_pos
      -- the owner has the mutex
      have hlocks : s.pc.locks = false := by
        by_contra hne
        have hthread := h.latched.threadLocks.mpr (Bool.of_not_eq_false hne)
        have howns := h.latched.ownerLocks.mpr (by rw [howner]; rfl)
        rw [howns] at hthread
        cases hthread
      exact ⟨h.latched.open (by rw [howner]; rfl) hearly (Pc.through hearly hlocks),
        h.handle.inStart hin (.inr (.inl rfl))⟩
  · next howner =>
    simp only [bind_eq_ok, enabled_eq_ok, pure_eq_ok, Except.ok.injEq] at hs
    obtain ⟨-, hfree, rfl⟩ := hs
    exact ⟨h.latched.wake hfree, h.handle.inStart (.inl (by rw [howner]; rfl)) (.inl rfl)⟩
  · next howner =>
    obtain rfl := Except.ok.inj hs
    exact ⟨h.latched.ownerUnlock howner, h.handle.inStart (.inr (by rw [howner]; rfl)) (.inr (.inl rfl))⟩
  · next howner =>
    simp only [bind_eq_ok, require_eq_ok, pure_eq_ok, Except.ok.injEq] at hs
    obtain ⟨-, -, rfl⟩ := hs
    exact ⟨h.latched.away (by rw [howner]; rfl) (by rw [howner]; rfl) ⟨rfl, rfl, rfl⟩,
      h.handle.inStart (.inr (by rw [howner]; rfl)) (.inr (.inr rfl))⟩
  · next howner =>
    simp only [bind_eq_ok, enabled_eq_ok, pure_eq_ok, Except.ok.injEq] at hs
    obtain ⟨-, -, rfl⟩ := hs
    have hjoined := h.handle.joining howner
    have hlatched : Latched { s with owner := .outside } :=
      h.latched.away (by rw [howner]; rfl) (by rw [howner]; rfl) ⟨rfl, rfl, rfl⟩
    refine ⟨{ hlatched with }, h.handle.created, ?_, h.handle.joined, by simp, ?_⟩
    · intro hin
      cases hin <;> contradiction
    · have hnot : ¬ s.Settled := by
        rintro (⟨-, hne⟩ | ⟨-, hd⟩)
        · exact hne howner
        · cases howner.symm.trans hd
      have hzero := (h.handle.released.resolve_left fun hr => hnot hr.2).1
      exact .inl ⟨congrArg Nat.succ hzero, .inl ⟨hjoined, by simp⟩⟩
  · cases hs

/-- **One step of the new thread.** -/
theorem Inv.runInThread (h : s.Inv) {tid : Nat} (hs : s.runInThread tid = .ok s') : s'.Inv := by
  unfold Thread.runInThread at hs
  split at hs
  · cases hs
  · next hpc =>
    simp only [bind_eq_ok, require_eq_ok, enabled_eq_ok, pure_eq_ok, Except.ok.injEq] at hs
    obtain ⟨-, -, -, htid, rfl⟩ := hs
    exact ⟨h.latched.setTid hpc htid, h.handle.thread (by simp [hpc]) (by simp)⟩
  · next hpc =>
    simp only [bind_eq_ok, require_eq_ok, enabled_eq_ok, pure_eq_ok, Except.ok.injEq] at hs
    obtain ⟨-, -, -, hfree, rfl⟩ := hs
    exact ⟨h.latched.threadLock hpc hfree, h.handle.thread (by simp [hpc]) (by simp)⟩
  · next hpc =>
    simp only [bind_eq_ok, require_eq_ok, pure_eq_ok, Except.ok.injEq] at hs
    obtain ⟨-, -, rfl⟩ := hs
    exact ⟨h.latched.decrement hpc, h.handle.thread (by simp [hpc]) (by simp)⟩
  · next hpc =>
    simp only [bind_eq_ok, require_eq_ok, pure_eq_ok, Except.ok.injEq] at hs
    obtain ⟨-, -, rfl⟩ := hs
    exact ⟨h.latched.notify hpc, h.handle.thread (by simp [hpc]) (by simp)⟩
  · next hpc =>
    simp only [bind_eq_ok, require_eq_ok, pure_eq_ok, Except.ok.injEq] at hs
    obtain ⟨-, -, rfl⟩ := hs
    exact ⟨h.latched.threadUnlock hpc, h.handle.thread (by simp [hpc]) (by simp)⟩
  · next hpc =>
    obtain rfl := Except.ok.inj hs
    exact ⟨h.latched.returns hpc, h.handle.thread (by simp [hpc]) (by simp)⟩
  · cases hs

/-- **One step.** -/
theorem inv_step (h : s.Inv) (hs : s.step l = .ok s') : s'.Inv := by
  cases l with
  | start created =>
    simp only [step, bind_eq_ok, enabled_eq_ok, require_eq_ok] at hs
    obtain ⟨-, howner, -, hnot, hs⟩ := hs
    cases created with
    | false =>
      obtain rfl := Except.ok.inj hs
      exact h
    | true =>
      obtain rfl := Except.ok.inj hs
      have hpc : s.pc = .none := by
        by_contra hne
        cases hnot.symm.trans (h.handle.created.mpr hne)
      have hjoined : s.joined = false := by
        by_contra hne
        cases hnot.symm.trans (h.handle.joined (Bool.of_not_eq_false hne))
      have hsettled : ¬ s.Settled := by
        rintro (⟨hj, -⟩ | ⟨-, hd⟩)
        · cases hjoined.symm.trans hj
        · cases howner.symm.trans hd
      refine ⟨h.latched.start howner hpc, ⟨fun _ => by simp, fun _ => rfl⟩, fun _ => ⟨rfl, hjoined⟩,
        fun _ => rfl, by simp, .inr ⟨(h.handle.released.resolve_left fun hr => hsettled hr.2).1, ?_⟩⟩
      rintro (⟨hj, -⟩ | ⟨-, hd⟩)
      · cases hjoined.symm.trans hj
      · cases hd
  | join =>
    simp only [step, bind_eq_ok, enabled_eq_ok, require_eq_ok, pure_eq_ok, Except.ok.injEq] at hs
    obtain ⟨-, howner, -, hstarted, -, hnot, rfl⟩ := hs
    have hlatched : Latched { s with owner := .join } :=
      h.latched.away (by rw [howner]; rfl) (by rw [howner]; rfl) ⟨rfl, rfl, rfl⟩
    have hsettled : ¬ s.Settled := by
      rintro (⟨hj, -⟩ | ⟨-, hd⟩)
      · cases hnot.symm.trans hj
      · cases howner.symm.trans hd
    refine ⟨{ hlatched with }, h.handle.created, ?_, fun _ => hstarted, fun _ => rfl,
      .inr ⟨(h.handle.released.resolve_left fun hr => hsettled hr.2).1, ?_⟩⟩
    · intro hin
      cases hin <;> contradiction
    · rintro (⟨-, hne⟩ | ⟨-, hd⟩)
      · exact hne rfl
      · cases hd
  | destroy =>
    simp only [step, bind_eq_ok, enabled_eq_ok] at hs
    obtain ⟨-, howner, hs⟩ := hs
    have hlatched : Latched { s with owner := .destroyed } :=
      h.latched.away (by rw [howner]; rfl) (by rw [howner]; rfl) ⟨rfl, rfl, rfl⟩
    have hunsettled : s.joined = false → ¬ s.Settled := by
      rintro hjoined (⟨hj, -⟩ | ⟨-, hd⟩)
      · cases hjoined.symm.trans hj
      · cases howner.symm.trans hd
    split at hs
    · next hdetach =>
      obtain rfl := Except.ok.inj hs
      have hzero :=
        (h.handle.released.resolve_left fun hr => hunsettled (Bool.eq_false_iff.mpr hdetach.2) hr.2).1
      refine ⟨{ hlatched with }, h.handle.created, ?_, h.handle.joined, by simp,
        .inl ⟨congrArg Nat.succ hzero, .inr ⟨hdetach.1, rfl⟩⟩⟩
      intro hin
      cases hin <;> contradiction
    · next hkept =>
      obtain rfl := Except.ok.inj hs
      refine ⟨{ hlatched with }, h.handle.created, ?_, h.handle.joined, by simp, ?_⟩
      · intro hin
        cases hin <;> contradiction
      · by_cases hjoined : s.joined = true
        · have hsettled : s.Settled := .inl ⟨hjoined, by simp [howner]⟩
          exact .inl ⟨(h.handle.released.resolve_right fun hr => hr.2 hsettled).1, .inl ⟨hjoined, by simp⟩⟩
        · have hnot := hunsettled (Bool.eq_false_iff.mpr hjoined)
          refine .inr ⟨(h.handle.released.resolve_left fun hr => hnot hr.2).1, ?_⟩
          rintro (⟨hj, -⟩ | ⟨hstarted, -⟩)
          · exact hjoined hj
          · exact hkept ⟨hstarted, hjoined⟩
  | owner => exact h.ownerStep hs
  | thread tid => exact h.runInThread hs

/-! ## What it gives -/

/-- An assert that the owner fails by calling what he is not to call. -/
def Fault.misuse : Fault → Bool
  | .startedTwice => true
  | .notStarted => true
  | .joinedTwice => true
  | _ => false

/-- The new thread finds the object, and `tid_` is set when the owner looks. -/
theorem Inv.noFault (h : s.Inv) {f : Fault} (hs : s.step l = .error (.fault f)) : f.misuse = true := by
  have halive : s.pc.touches = true → s.owner ≠ .destroyed := by
    intro htouches howner
    have hwaits := h.latched.touches htouches
    rw [howner] at hwaits
    cases hwaits
  cases l with
  | start created =>
    simp only [step, bind_eq_error, enabled_eq_error, require_eq_error] at hs
    rcases hs with ⟨-, hs⟩ | ⟨-, -, ⟨-, hs⟩ | ⟨-, -, hs⟩⟩
    · cases hs
    · cases hs
      rfl
    · cases created <;> cases hs
  | join =>
    simp only [step, bind_eq_error, enabled_eq_error, require_eq_error] at hs
    rcases hs with ⟨-, hs⟩ | ⟨-, -, ⟨-, hs⟩ | ⟨-, -, ⟨-, hs⟩ | ⟨-, -, hs⟩⟩⟩ <;> cases hs <;> rfl
  | destroy =>
    simp only [step, bind_eq_error, enabled_eq_error] at hs
    rcases hs with ⟨-, hs⟩ | ⟨-, -, hs⟩
    · cases hs
    · split at hs <;> cases hs
  | owner =>
    simp only [step, Thread.ownerStep] at hs
    split at hs
    case h_5 howner =>
      have hpassed := h.latched.passed (by rw [howner]; rfl)
      have htid : 0 < s.tid := h.latched.named (by cases hpc : s.pc <;> grind)
      rw [require_of htid] at hs
      cases hs
    all_goals first | cases hs | simp [bind_eq_error, enabled_eq_error] at hs
    split at hs <;> cases hs
  | thread tid =>
    simp only [step, Thread.runInThread] at hs
    split at hs
    case h_1 => cases hs
    case h_7 => cases hs
    case h_8 => cases hs
    all_goals
      next hpc =>
      rw [require_of (halive (by rw [hpc]; rfl))] at hs
      simp [bind_eq_error, enabled_eq_error] at hs

/-- The new thread can go on with its `countDown()`. -/
theorem Inv.thread_goes_on (h : s.Inv) (htouches : s.pc.touches = true)
    (hlock : s.pc = .lock → s.latch.mutex = none) : ∃ s', s.step (.thread 1) = .ok s' := by
  have halive : s.owner ≠ .destroyed := by
    intro howner
    have hwaits := h.latched.touches htouches
    rw [howner] at hwaits
    cases hwaits
  simp only [step, Thread.runInThread]
  cases hpc : s.pc with
  | none => rw [hpc] at htouches; cases htouches
  | func => rw [hpc] at htouches; cases htouches
  | finished => rw [hpc] at htouches; cases htouches
  | lock => exact ⟨_, by simp only [require_of halive, enabled_of (hlock hpc), ok_bind]; rfl⟩
  | setTid => exact ⟨_, by simp only [require_of halive, enabled_of Nat.one_pos, ok_bind]; rfl⟩
  | decrement => exact ⟨_, by simp only [require_of halive, ok_bind]; rfl⟩
  | notify => exact ⟨_, by simp only [require_of halive, ok_bind]; rfl⟩
  | unlock => exact ⟨_, by simp only [require_of halive, ok_bind]; rfl⟩

/-- The owner can go on in `start()`, when he has the mutex or can have it. -/
theorem Inv.owner_goes_on (h : s.Inv) (hin : s.Starting)
    (hmutex : s.owner.locks = true ∨ s.latch.mutex = none) : ∃ s', s.step .owner = .ok s' := by
  have hfree : s.owner.locks = false → s.latch.mutex = none := by
    intro hlocks
    exact hmutex.resolve_left (by simp [hlocks])
  simp only [step, Thread.ownerStep]
  cases howner : s.owner with
  | outside => rw [Starting, howner] at hin; cases hin <;> contradiction
  | join => rw [Starting, howner] at hin; cases hin <;> contradiction
  | destroyed => rw [Starting, howner] at hin; cases hin <;> contradiction
  | lock => exact ⟨_, by simp only [enabled_of (hfree (by rw [howner]; rfl)), ok_bind]; rfl⟩
  | waiting => exact ⟨_, by simp only [enabled_of (hfree (by rw [howner]; rfl)), ok_bind]; rfl⟩
  | test =>
    by_cases hcount : 0 < s.latch.count
    · exact ⟨_, if_pos hcount⟩
    · exact ⟨_, if_neg hcount⟩
  | unlock => exact ⟨_, rfl⟩
  | check =>
    have hpassed := h.latched.passed (by rw [howner]; rfl)
    have htid : 0 < s.tid := h.latched.named (by cases hpc : s.pc <;> grind)
    exact ⟨_, by simp only [require_of htid, ok_bind]; rfl⟩

/-- **`start()` gets on** without a spurious wakeup. -/
theorem Inv.goes_on (h : s.Inv) (hin : s.Starting) :
    (s.pc.touches = true ∧ ∃ tid s', s.step (.thread tid) = .ok s') ∨
      (Party.owner ∉ s.latch.condition.waiting ∧ ∃ s', s.step .owner = .ok s') := by
  by_cases hlocks : s.owner.locks = true
  · refine .inr ⟨fun hasleep => ?_, h.owner_goes_on hin (.inl hlocks)⟩
    rw [(h.latched.asleep hasleep).1] at hlocks
    cases hlocks
  · have howner : s.latch.mutex ≠ some .owner := fun hmutex => hlocks (h.latched.ownerLocks.mp hmutex)
    by_cases htouches : s.pc.touches = true
    · refine .inl ⟨htouches, 1, h.thread_goes_on htouches fun hlock => ?_⟩
      -- the thread is at the lock, so it has not the mutex either
      cases hmutex : s.latch.mutex with
      | none => rfl
      | some t =>
        cases t with
        | owner => exact absurd hmutex howner
        | thread =>
          have hthread := h.latched.threadLocks.mp hmutex
          rw [hlock] at hthread
          cases hthread
    · refine .inr ⟨fun hasleep => htouches (h.latched.asleep hasleep).2.2, h.owner_goes_on hin (.inr ?_)⟩
      cases hmutex : s.latch.mutex with
      | none => rfl
      | some t =>
        cases t with
        | owner => exact absurd hmutex howner
        | thread =>
          have hthread := h.latched.threadLocks.mp hmutex
          refine absurd ?_ htouches
          cases hpc : s.pc <;> grind

/-- A `Thread` between any two steps. -/
structure Sound (s : Thread) : Prop where
  /-- no pointer to a `Thread` that is gone is followed, and `assert(tid_ > 0)` holds -/
  noFault : ∀ l f, s.step l = .error (.fault f) → f.misuse = true
  /-- once `start()` has returned the thread is known, and is through with the object -/
  returned : s.started = true → ¬ s.Starting → 0 < s.tid ∧ s.pc.touches = false
  /-- nobody sleeps on an open latch -/
  awake : s.Starting → (s.pc.touches = true ∧ ∃ tid s', s.step (.thread tid) = .ok s') ∨
    (Party.owner ∉ s.latch.condition.waiting ∧ ∃ s', s.step .owner = .ok s')
  /-- the pthread is not joined or detached twice -/
  once : s.released ≤ 1
  /-- it is by the time the destructor has run, and was not if it does not exist -/
  settled : s.owner = .destroyed → (s.released = 1 ↔ s.started = true)

theorem Inv.sound (h : s.Inv) : s.Sound where
  noFault := fun _ _ => h.noFault
  returned := by
    intro hstarted hout
    have htouches : s.pc.touches = false := by
      by_contra hne
      exact hout (.inl (h.latched.touches (Bool.of_not_eq_false hne)))
    have hcreated : s.pc ≠ .none := h.handle.created.mp hstarted
    refine ⟨h.latched.named ?_, htouches⟩
    cases hpc : s.pc <;> grind
  awake := h.goes_on
  once := by
    rcases h.handle.released with ⟨heq, -⟩ | ⟨heq, -⟩ <;> omega
  settled := by
    intro howner
    constructor
    · intro hone
      rcases h.handle.released with ⟨-, ⟨hjoined, -⟩ | ⟨hstarted, -⟩⟩ | ⟨hzero, -⟩
      · exact h.handle.joined hjoined
      · exact hstarted
      · omega
    · intro hstarted
      rcases h.handle.released with ⟨hone, -⟩ | ⟨-, hnot⟩
      · exact hone
      · exact absurd (.inr ⟨hstarted, howner⟩) hnot

/-- **A `Thread`** in any run of its owner and the new thread, with spurious wakeups. -/
theorem thread_sound (h : threadObject.Reachable s) : s.Sound := by
  apply Inv.sound
  refine h.invariant (I := Inv) (fun s₀ h₀ => ?_) (fun _ _ _ _ hI _ hs => inv_step hI hs)
  rw [show s₀ = new from h₀]
  exact inv_new

/-- `pthread_create` fails once; then the owner waits, wakes up too early, and destroys the object while the thread
    runs. -/
theorem thread_sound_sample : ∃ s : Thread,
    s.owner = .destroyed ∧ s.pc = .func ∧ s.tid = 70 ∧ s.released = 1 ∧ s.Sound := by
  obtain ⟨s, hs, hp⟩ := System.Reach.of_exec (S := threadObject) (s := new)
    (l := [.start false, .start true, .owner, .thread 70, .owner, .owner, .owner, .thread 0, .thread 0, .thread 0,
      .thread 0, .owner, .owner, .owner, .owner, .destroy])
    (p := fun s => decide (s.owner = .destroyed ∧ s.pc = .func ∧ s.tid = 70 ∧ s.released = 1))
    (.init rfl) (by decide +kernel)
  rw [decide_eq_true_eq] at hp
  exact ⟨s, hp.1, hp.2.1, hp.2.2.1, hp.2.2.2, thread_sound hs⟩

end Thread

end Irono
