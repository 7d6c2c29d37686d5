import Irono.Net.Correctness.TimerOps

/-!
# `Net.Correctness.TimerOwnership` — who owns a `Timer`, and why no assert of the queue fails

A timer outside the two sets is held by a queued `addTimerInLoop` or by the `expired` vector of the
running `handleRead`. `Owned` puts the queue's ownership over whole runs, with the numbers that tell two
timers of one address apart; `timers_sound` is what it gives.
-/

namespace Irono

open Transition

namespace TimerRun

open TimerQueue

/-- The timers in `expired` of the running `handleRead`. -/
def held (s : TimerRun) : List Addr :=
  match s.batch with
  | some b => b.expired.map Entry.addr
  | none => []

theorem held_idle {s : TimerRun} (h : s.batch = none) : s.held = [] := by
  rw [held, h]

/-- Every number in use has been given out, and an id's timer is alive or deleted. -/
structure Numbered (s : TimerRun) : Prop where
  alive : ∀ a t, s.queue.heap a = some t → t.sequence ≤ s.numCreated
  deleted : ∀ k ∈ s.queue.deleted, k ≤ s.numCreated
  issued : ∀ id, .issued id ∈ s.history → s.queue.Alive id ∨ id.seq ∈ s.queue.deleted

/-- **The invariant.** The queue owns its timers together with the queued `addTimerInLoop`s and the
    running `handleRead`. -/
structure Owned (s : TimerRun) : Prop where
  queue : s.queue.Owns (s.queued ++ s.held)
  calling : s.queue.callingExpiredTimers = s.batch.isSome
  next : ∀ b ∈ s.batch, b.next <:+ b.expired
  numbered : s.Numbered

theorem owned_start : start.Owned := by
  refine ⟨new_owns, rfl, by simp [start], ⟨?_, ?_, ?_⟩⟩ <;> simp [start, new]

variable {s : TimerRun}

/-- The numbers survive an operation that makes no timer. -/
theorem Numbered.evolve (h : s.Numbered) {s' : TimerRun} (hq : s.queue.Evolves s'.queue)
    (hn : s'.numCreated = s.numCreated)
    (hist : ∀ id, .issued id ∈ s'.history → .issued id ∈ s.history) : s'.Numbered := by
  refine ⟨fun a t' ht' => ?_, fun k hk => ?_, fun id hid => ?_⟩
  · obtain ⟨t, ht, hseq⟩ := hq.origin a t' ht'
    rw [hn, ← hseq]; exact h.alive a t ht
  · rw [hn]
    rcases hq.source k hk with hk | ⟨a, t, ht, rfl⟩
    · exact h.deleted k hk
    · exact h.alive a t ht
  · rcases h.issued id (hist id hid) with ⟨t, ht, hseq⟩ | hdel
    · rw [← hseq]
      exact (hq.survives _ t ht).imp_left (fun ⟨t', ht', hseq'⟩ => ⟨t', ht', hseq'.trans hseq⟩)
    · exact .inr (hq.keeps _ hdel)

/-- The timer that `create` makes. -/
abbrev newTimer (s : TimerRun) (when : Timestamp) (interval : Interval) : Timer :=
  ⟨when, interval, s.numCreated + 1⟩

/-- A new timer is outside the sets, like the queued ones and those of the batch. -/
theorem create_owns (h : s.Owned) {a : Addr} (hf : s.Fresh a) (w : Timestamp) (i : Interval) :
    (s.create a w i).queue.Owns (a :: (s.queued ++ s.held)) := by
  refine new_timer_owns h.queue hf.1 hf.2 (fun b u hu heq => ?_) (fun hin => ?_)
  · have hle := h.numbered.alive b u hu
    simp only at heq
    omega
  · have hle := h.numbered.deleted _ hin
    simp only at hle
    omega

/-- It has a number that no other timer has. -/
theorem create_numbered (h : s.Owned) {a : Addr} (hf : s.Fresh a) (w : Timestamp) (i : Interval) :
    (s.create a w i).Numbered := by
  refine ⟨fun b u hu => ?_, fun k hk => Nat.le_succ_of_le (h.numbered.deleted k hk), fun id hid => ?_⟩
  · by_cases hb : b = a
    · subst hb
      simp only [create, heap_store_self, Option.some.injEq] at hu
      simp [← hu, create]
    · simp only [create, heap_store_of_ne _ hb] at hu
      exact Nat.le_succ_of_le (h.numbered.alive b u hu)
  · simp only [create, List.mem_append, List.mem_singleton, TimerEvent.issued.injEq] at hid
    rcases hid with hid | rfl
    · refine (h.numbered.issued id hid).imp_left (fun ⟨t, ht, hseq⟩ => ⟨t, ?_, hseq⟩)
      have hne : id.timer ≠ a := fun heq => by rw [heq, hf.1] at ht; cases ht
      exact (heap_store_of_ne _ hne).trans ht
    · exact .inl ⟨_, heap_store_self .., rfl⟩

/-! Each label, under the invariant: the step cannot fault, and the state it leads to is named. -/

/-- After `addTimer` in the loop thread. -/
def added (s : TimerRun) (a : Addr) (w : Timestamp) (i : Interval) : TimerRun :=
  { s.create a w i with queue := (s.create a w i).queue.inserted a (s.newTimer w i) }

/-- `addTimer` in the loop thread inserts the timer and fails no assert. -/
theorem act_addTimer (h : s.Owned) {a : Addr} {w : Timestamp} {i : Interval} (hu : s.userCode)
    (hf : s.Fresh a) : (s.added a w i).Owned ∧ s.act (.addTimer a w i) =
      .ok (s.added a w i, if s.queue.earliestChanged w then some w else none) := by
  obtain ⟨t, ht, howns, hrun⟩ := addTimerInLoop_spec (create_owns h hf w i)
  have hnew : t = s.newTimer w i := by
    simpa [create, heap_store_self] using ht.symm
  subst hnew
  have hderef : ((s.create a w i).queue.inserted a (s.newTimer w i)).deref a = .ok (s.newTimer w i) := by
    simp [deref, inserted, create, heap_store_self]
  refine ⟨⟨howns, h.calling, h.next, ?_⟩, ?_⟩
  · exact (create_numbered h hf w i).evolve (inserted_evolves _ _) rfl (fun _ hid => hid)
  · simp only [act, enabled_of (And.intro hu hf), ok_bind, hrun, hderef, pure_eq_ok]
    rfl

/-- After `addTimer` in another thread. -/
def enqueued (s : TimerRun) (a : Addr) (w : Timestamp) (i : Interval) : TimerRun :=
  { s.create a w i with queued := s.queued ++ [a] }

/-- `addTimer` in another thread makes the timer and queues it. -/
theorem act_queueTimer (h : s.Owned) {a : Addr} {w : Timestamp} {i : Interval} (hf : s.Fresh a) :
    (s.enqueued a w i).Owned ∧ s.act (.queueTimer a w i) = .ok (s.enqueued a w i, none) := by
  refine ⟨⟨?_, h.calling, h.next, ?_⟩, ?_⟩
  · refine (create_owns h hf w i).perm ?_
    show (s.queued ++ [a] ++ s.held).Perm _
    rw [List.append_assoc]
    exact List.perm_middle
  · exact (create_numbered h hf w i).evolve (.of_same rfl rfl) rfl (fun _ hid => hid)
  · simp only [act, enabled_of hf, ok_bind, pure_eq_ok]
    rfl

/-- After the queued `addTimerInLoop` of the timer `t` at `a`. -/
def dequeued (s : TimerRun) (a : Addr) (t : Timer) : TimerRun :=
  { s with queue := s.queue.inserted a t, queued := s.queued.erase a }

/-- A queued timer is inserted. -/
theorem act_addTimerInLoop (h : s.Owned) {a : Addr} (hb : s.batch.isNone) (ha : a ∈ s.queued) :
    ∃ t, s.queue.heap a = some t ∧ (s.dequeued a t).Owned ∧ s.act (.addTimerInLoop a) =
      .ok (s.dequeued a t, if s.queue.earliestChanged t.expiration then some t.expiration else none) := by
  have howns := h.queue.perm ((List.perm_cons_erase ha).symm.append_right s.held)
  obtain ⟨t, ht, howns', hrun⟩ := addTimerInLoop_spec howns
  refine ⟨t, ht, ⟨howns', h.calling, h.next, ?_⟩, ?_⟩
  · exact h.numbered.evolve (inserted_evolves _ _) rfl (fun _ hid => hid)
  · simp only [act, enabled_of (And.intro hb ha), ok_bind, hrun, pure_eq_ok]
    rfl

/-- After `cancelInLoop`, with the queue it leaves. -/
def cancelledWith (s : TimerRun) (id : TimerId) (q : TimerQueue) : TimerRun :=
  { s with queue := q, history := s.history ++ [.cancelled id] }

/-- `cancelInLoop` fails no assert, whatever the id. -/
theorem act_cancelInLoop (h : s.Owned) (id : TimerId) (hu : s.userCode) :
    ∃ q, s.queue.cancelInLoop id = .ok q ∧ (s.cancelledWith id q).Owned ∧
      s.act (.cancelInLoop id) = .ok (s.cancelledWith id q, none) := by
  have hist : ∀ id', TimerEvent.issued id' ∈ s.history ++ [.cancelled id] → .issued id' ∈ s.history := by
    intro id' hid
    simpa using hid
  have hact : ∀ q, s.queue.cancelInLoop id = .ok q →
      s.act (.cancelInLoop id) = .ok (s.cancelledWith id q, none) := by
    intro q hq
    simp only [act, enabled_of hu, ok_bind, hq, pure_eq_ok]
    rfl
  rcases cancelInLoop_spec h.queue id with ⟨t, ht, -, hrun, howns⟩ | ⟨-, ⟨-, hrun⟩ | ⟨-, hrun⟩⟩
  · have hev : s.queue.Evolves (s.queue.erased id.timer t) := .of_same rfl rfl
    have hev' := hev.trans (freed_evolves ht)
    exact ⟨_, hrun, ⟨howns, h.calling, h.next, h.numbered.evolve hev' rfl hist⟩, hact _ hrun⟩
  · exact ⟨_, hrun, ⟨{ h.queue with }, h.calling, h.next, h.numbered.evolve (.of_same rfl rfl) rfl hist⟩,
      hact _ hrun⟩
  · exact ⟨_, hrun, ⟨h.queue, h.calling, h.next, h.numbered.evolve (.of_same rfl rfl) rfl hist⟩,
      hact _ hrun⟩

/-- After the first part of `handleRead`, with the queue it leaves and the timers it found due. -/
def expiring (s : TimerRun) (now : Timestamp) (q : TimerQueue) (expired : List Entry) : TimerRun :=
  { s with queue := q, batch := some ⟨now, expired, expired⟩ }

/-- `handleRead` takes the batch out of both sets. -/
theorem act_handleRead (h : s.Owned) (now : Timestamp) (hb : s.batch.isNone) :
    ∃ q expired, s.queue.Evolves q ∧ (s.expiring now q expired).Owned ∧
      s.act (.handleRead now) = .ok (s.expiring now q expired, none) := by
  have hheld : s.held = [] := held_idle (Option.isNone_iff_eq_none.mp hb)
  obtain ⟨q, expired, hrun, howns, hev, hcalling⟩ := startExpired_spec h.queue now
  refine ⟨q, expired, hev, ⟨?_, hcalling, ?_, ?_⟩, ?_⟩
  · rw [hheld, List.append_nil] at howns
    exact howns.perm List.perm_append_comm
  · intro b hb'
    simp only [expiring, Option.mem_def, Option.some.injEq] at hb'
    subst hb'
    exact List.suffix_refl _
  · exact h.numbered.evolve hev rfl (fun _ hid => hid)
  · simp only [act, enabled_of hb, ok_bind, hrun, pure_eq_ok]
    rfl

/-- After `it->second->run()`. -/
def ran (s : TimerRun) (b : ExpiredBatch) (rest : List Entry) (id : TimerId) : TimerRun :=
  { s with batch := some { b with next := rest }, history := s.history ++ [.started id] }

/-- The next callback of the batch is that of a live timer. -/
theorem act_run (h : s.Owned) {b : ExpiredBatch} {e : Entry} {rest : List Entry} (hb : s.batch = some b)
    (hnext : b.next = e :: rest) : ∃ t, s.queue.heap e.addr = some t ∧
      (s.ran b rest ⟨e.addr, t.sequence⟩).Owned ∧
      s.act .run = .ok (s.ran b rest ⟨e.addr, t.sequence⟩, none) := by
  have hsuffix : e :: rest <:+ b.expired := hnext ▸ h.next b hb
  have hheld : e.addr ∈ s.queued ++ s.held := by
    rw [held, hb]
    exact List.mem_append_right _ (List.mem_map_of_mem (hsuffix.subset (List.mem_cons_self ..)))
  obtain ⟨t, ht, -⟩ := h.queue.out_live hheld
  have hderef : s.queue.deref e.addr = .ok t := by simp [deref, ht]
  have hheld' : (s.ran b rest ⟨e.addr, t.sequence⟩).held = s.held := by simp [held, ran, hb]
  refine ⟨t, ht, ⟨?_, ?_, ?_, ?_⟩, ?_⟩
  · rw [hheld']; exact h.queue
  · rw [ran, h.calling, hb]; rfl
  · intro b' hb'
    simp only [ran, Option.mem_def, Option.some.injEq] at hb'
    subst hb'
    exact (List.suffix_cons e rest).trans hsuffix
  · exact h.numbered.evolve (.of_same rfl rfl) rfl (fun id hid => by simpa [ran] using hid)
  · obtain ⟨now, expired, next⟩ := b
    subst hnext
    simp only [act, hb, hderef, ok_bind, pure_eq_ok]
    rfl

/-- What `reset` owns when it begins. -/
theorem Owned.batch_owns (h : s.Owned) {b : ExpiredBatch} (hb : s.batch = some b) :
    s.queue.Owns (b.expired.map Entry.addr ++ s.queued) := by
  have hperm : (s.queued ++ s.held).Perm (b.expired.map Entry.addr ++ s.queued) := by
    rw [held, hb]
    exact List.perm_append_comm
  exact h.queue.perm hperm.symm

/-- After `handleRead`, with the queue `reset` leaves. -/
def finished (s : TimerRun) (q : TimerQueue) : TimerRun := { s with queue := q, batch := none }

/-- `reset` fails no assert, and puts back no timer that was cancelled in its batch. -/
theorem act_finish (h : s.Owned) {b : ExpiredBatch} (hb : s.batch = some b) (hnext : b.next = []) :
    ∃ q rearm, (s.finished q).Owned ∧ s.act .finish = .ok (s.finished q, rearm) ∧ s.queue.Evolves q ∧
      ∀ e ∈ b.expired, ∀ t, q.heap e.addr = some t → ¬ .mk e.addr t.sequence ∈ s.queue.cancelingTimers := by
  obtain ⟨q, rearm, hrun, howns', hev, hcalling, hgone⟩ := finishExpired_spec (h.batch_owns hb) b.now
  refine ⟨q, rearm, ⟨?_, hcalling, by simp [finished], ?_⟩, ?_, hev, hgone⟩
  · simpa [finished, held] using howns'
  · exact h.numbered.evolve hev rfl (fun _ hid => hid)
  · obtain ⟨now, expired, next⟩ := b
    subst hnext
    simp only [act, hb, hrun, ok_bind, pure_eq_ok]
    rfl

/-- **One step.** A label is impossible, or its step keeps the invariant: none faults. -/
theorem act_owned (h : s.Owned) (a : Label) :
    s.act a = .error .blocked ∨ ∃ s' rearm, s.act a = .ok (s', rearm) ∧ s'.Owned := by
  cases a with
  | createElsewhere =>
    refine .inr ⟨_, _, rfl, h.queue, h.calling, h.next, fun b t ht => ?_, fun k hk => ?_, h.numbered.issued⟩
    · exact Nat.le_succ_of_le (h.numbered.alive b t ht)
    · exact Nat.le_succ_of_le (h.numbered.deleted k hk)
  | addTimer a w i =>
    by_cases hg : s.userCode ∧ s.Fresh a
    · exact .inr ⟨_, _, (act_addTimer h hg.1 hg.2).2, (act_addTimer h hg.1 hg.2).1⟩
    · exact .inl (by simp [act, enabled, hg])
  | queueTimer a w i =>
    by_cases hg : s.Fresh a
    · exact .inr ⟨_, _, (act_queueTimer h hg).2, (act_queueTimer h hg).1⟩
    · exact .inl (by simp [act, enabled, hg])
  | addTimerInLoop a =>
    by_cases hg : s.batch.isNone ∧ a ∈ s.queued
    · obtain ⟨t, -, howned, hrun⟩ := act_addTimerInLoop h hg.1 hg.2
      exact .inr ⟨_, _, hrun, howned⟩
    · exact .inl (by simp only [act, enabled, hg]; rfl)
  | cancelInLoop id =>
    by_cases hg : s.userCode
    · obtain ⟨q, -, howned, hrun⟩ := act_cancelInLoop h _ hg
      exact .inr ⟨_, _, hrun, howned⟩
    · exact .inl (by simp [act, enabled, hg])
  | handleRead now =>
    by_cases hg : s.batch.isNone
    · obtain ⟨q, expired, -, howned, hrun⟩ := act_handleRead h now hg
      exact .inr ⟨_, _, hrun, howned⟩
    · exact .inl (by simp only [act, enabled, hg]; rfl)
  | run =>
    match hb : s.batch with
    | none => exact .inl (by simp [act, hb])
    | some ⟨now, expired, []⟩ => exact .inl (by simp [act, hb])
    | some ⟨now, expired, e :: rest⟩ =>
      obtain ⟨t, -, howned, hrun⟩ := act_run h hb rfl
      exact .inr ⟨_, _, hrun, howned⟩
  | finish =>
    match hb : s.batch with
    | none => exact .inl (by simp [act, hb])
    | some ⟨now, expired, e :: rest⟩ => exact .inl (by simp [act, hb])
    | some ⟨now, expired, []⟩ =>
      obtain ⟨q, rearm, howned, hrun, -⟩ := act_finish h hb rfl
      exact .inr ⟨_, _, hrun, howned⟩

/-- **One step.** -/
theorem owned_step {s' : TimerRun} {a : Label} (h : s.Owned) (hs : s.step a = .ok s') : s'.Owned := by
  simp only [step, bind_eq_ok, pure_eq_ok, Except.ok.injEq, Prod.exists] at hs
  obtain ⟨s₁, rearm, hrun, rfl⟩ := hs
  rcases act_owned h a with hblocked | ⟨s₂, _, hrun', howned⟩
  · rw [hblocked] at hrun; cases hrun
  · rw [hrun', Except.ok.injEq, Prod.mk.injEq] at hrun
    exact hrun.1 ▸ howned

theorem owned_of_reachable {s : TimerRun} (h : timerQueue.Reachable s) : s.Owned :=
  h.invariant (I := Owned) (fun s h0 => by have hs : s = start := h0; exact hs ▸ owned_start)
    (fun _ _ _ _ hI _ hs => owned_step hI hs)

/-! ## The steps by name -/

/-- What each label leads to, where it is possible. -/
inductive Moves (s : TimerRun) : Label → TimerRun → Prop
  | createElsewhere : s.Moves .createElsewhere { s with numCreated := s.numCreated + 1 }
  | addTimer {a : Addr} {w : Timestamp} {i : Interval} (user : s.userCode) (fresh : s.Fresh a) :
      s.Moves (.addTimer a w i) (s.added a w i)
  | queueTimer {a : Addr} {w : Timestamp} {i : Interval} (fresh : s.Fresh a) :
      s.Moves (.queueTimer a w i) (s.enqueued a w i)
  | addTimerInLoop {a : Addr} {t : Timer} (idle : s.batch = none) (queued : a ∈ s.queued)
      (live : s.queue.heap a = some t) : s.Moves (.addTimerInLoop a) (s.dequeued a t)
  | cancelInLoop {id : TimerId} {q : TimerQueue} (user : s.userCode)
      (run : s.queue.cancelInLoop id = .ok q) : s.Moves (.cancelInLoop id) (s.cancelledWith id q)
  | handleRead {now : Timestamp} {q : TimerQueue} {expired : List Entry} (idle : s.batch = none)
      (run : s.queue.startExpired now = .ok (q, expired)) (evolves : s.queue.Evolves q) :
      s.Moves (.handleRead now) (s.expiring now q expired)
  | run {b : ExpiredBatch} {e : Entry} {rest : List Entry} {t : Timer} (batch : s.batch = some b)
      (next : b.next = e :: rest) (live : s.queue.heap e.addr = some t) :
      s.Moves .run (s.ran b rest ⟨e.addr, t.sequence⟩)
  | finish {b : ExpiredBatch} {q : TimerQueue} {rearm : Option Timestamp} (batch : s.batch = some b)
      (next : b.next = []) (run : s.queue.finishExpired b.expired b.now = .ok (q, rearm))
      (evolves : s.queue.Evolves q) : s.Moves .finish (s.finished q)

/-- **A step is one of these moves.** -/
theorem moves_of_act {s' : TimerRun} {l : Label} {r : Option Timestamp} (h : s.Owned)
    (hs : s.act l = .ok (s', r)) : s.Moves l s' := by
  have hg := hs
  cases l with
  | createElsewhere =>
    simp only [act, pure_eq_ok, Except.ok.injEq, Prod.mk.injEq] at hs
    exact hs.1 ▸ .createElsewhere
  | addTimer a w i =>
    simp only [act, bind_eq_ok, enabled_eq_ok] at hg
    obtain ⟨-, ⟨hu, hf⟩, -⟩ := hg
    rw [(act_addTimer h hu hf).2, Except.ok.injEq, Prod.mk.injEq] at hs
    exact hs.1 ▸ .addTimer hu hf
  | queueTimer a w i =>
    simp only [act, bind_eq_ok, enabled_eq_ok] at hg
    obtain ⟨-, hf, -⟩ := hg
    rw [(act_queueTimer h hf).2, Except.ok.injEq, Prod.mk.injEq] at hs
    exact hs.1 ▸ .queueTimer hf
  | addTimerInLoop a =>
    simp only [act, bind_eq_ok, enabled_eq_ok] at hg
    obtain ⟨-, ⟨hb, hin⟩, -⟩ := hg
    obtain ⟨t, ht, -, hrun⟩ := act_addTimerInLoop h hb hin
    rw [hrun, Except.ok.injEq, Prod.mk.injEq] at hs
    exact hs.1 ▸ .addTimerInLoop (Option.isNone_iff_eq_none.mp hb) hin ht
  | cancelInLoop id =>
    simp only [act, bind_eq_ok, enabled_eq_ok] at hg
    obtain ⟨-, hu, -⟩ := hg
    obtain ⟨q, hrun, -, hact⟩ := act_cancelInLoop h id hu
    rw [hact, Except.ok.injEq, Prod.mk.injEq] at hs
    exact hs.1 ▸ .cancelInLoop hu hrun
  | handleRead now =>
    simp only [act, bind_eq_ok, enabled_eq_ok, Prod.exists, pure_eq_ok, Except.ok.injEq, Prod.mk.injEq] at hg
    obtain ⟨-, hb, q, expired, hrun, rfl, -⟩ := hg
    obtain ⟨q', expired', hrun', -, hev, -⟩ := startExpired_spec h.queue now
    rw [hrun, Except.ok.injEq, Prod.mk.injEq] at hrun'
    obtain ⟨rfl, rfl⟩ := hrun'
    exact .handleRead (Option.isNone_iff_eq_none.mp hb) hrun hev
  | run =>
    cases hb : s.batch with
    | none => simp [act, hb] at hs
    | some b =>
      obtain ⟨now, expired, next⟩ := b
      cases next with
      | nil => simp [act, hb] at hs
      | cons e rest =>
        obtain ⟨t, ht, -, hact⟩ := act_run h hb rfl
        rw [hact, Except.ok.injEq, Prod.mk.injEq] at hs
        exact hs.1 ▸ .run hb rfl ht
  | finish =>
    cases hb : s.batch with
    | none => simp [act, hb] at hs
    | some b =>
      obtain ⟨now, expired, next⟩ := b
      cases next with
      | cons e rest => simp [act, hb] at hs
      | nil =>
        simp only [act, hb, bind_eq_ok, Prod.exists, pure_eq_ok, Except.ok.injEq, Prod.mk.injEq] at hg
        obtain ⟨q, rearm, hrun, rfl, -⟩ := hg
        obtain ⟨q', rearm', hrun', -, hev, -⟩ := finishExpired_spec (h.batch_owns hb) now
        rw [hrun, Except.ok.injEq, Prod.mk.injEq] at hrun'
        obtain ⟨rfl, rfl⟩ := hrun'
        exact .finish hb rfl hrun hev

theorem step_of_act {s' : TimerRun} {l : Label} {r : Option Timestamp} (h : s.act l = .ok (s', r)) :
    s.step l = .ok s' := bind_eq_ok.mpr ⟨_, h, rfl⟩

/-- What a step of a sound queue does, by its label. -/
theorem moves_of_step {s' : TimerRun} {l : Label} (h : s.Owned) (hs : s.step l = .ok s') : s.Moves l s' := by
  obtain ⟨⟨s₁, r⟩, hact, hs'⟩ := bind_eq_ok.mp hs
  obtain rfl := Except.ok.inj hs'
  exact moves_of_act h hact

/-! ## What it gives -/

/-- What holds of the timers between any two steps. -/
structure Sound (s : TimerRun) : Prop where
  /-- the two sets hold the same `Timer` objects, under their own numbers -/
  sameTimers : ∀ a, (∃ w, Entry.mk w a ∈ s.queue.timers) ↔ ∃ k, ActiveTimer.mk a k ∈ s.queue.activeTimers
  numbers : ∀ a k, ActiveTimer.mk a k ∈ s.queue.activeTimers → s.queue.Alive ⟨a, k⟩
  keys : ∀ e ∈ s.queue.timers, ∃ t, s.queue.heap e.addr = some t ∧ e.time = t.expiration
  /-- an allocated timer is in one place: a queued `addTimerInLoop`, `expired`, or the sets -/
  onePlace : (s.queued ++ s.held ++ s.queue.addrs).Nodup
  allocated : ∀ a, s.queue.heap a ≠ none ↔ a ∈ s.queued ++ s.held ++ s.queue.addrs
  /-- a timer is deleted once, and then is no longer there -/
  deletedOnce : s.queue.deleted.Nodup
  aliveOrDeleted : ∀ id, .issued id ∈ s.history → (s.queue.Alive id ↔ id.seq ∉ s.queue.deleted)
  /-- whatever comes next, no assert fails and no deleted timer is touched or deleted again -/
  noFault : ∀ a f, s.act a ≠ .error (.fault f)

/-- The sets, the numbers and the asserts, from the invariant. -/
theorem Owned.sound (h : s.Owned) : s.Sound where
  sameTimers := fun a => by
    rw [← mem_addrs]
    constructor
    · intro hin
      obtain ⟨w, hw⟩ := mem_addrs.mp hin
      obtain ⟨t, ht, -⟩ := h.queue.key _ hw
      exact ⟨t.sequence, (h.queue.active _ _).mpr ⟨hin, t, ht, rfl⟩⟩
    · rintro ⟨k, hk⟩
      exact ((h.queue.active _ _).mp hk).1
  numbers := fun a k hk => ((h.queue.active _ _).mp hk).2
  keys := fun e he => by
    obtain ⟨t, ht, hkey⟩ := h.queue.key e he
    exact ⟨t, ht, hkey.symm⟩
  onePlace := h.queue.nodup
  allocated := h.queue.live
  deletedOnce := h.queue.deleted
  aliveOrDeleted := fun id hid => by
    constructor
    · rintro ⟨t, ht, hseq⟩
      exact hseq ▸ h.queue.gone _ t ht
    · exact (h.numbered.issued id hid).resolve_right
  noFault := fun a f => by
    rcases act_owned h a with hblocked | ⟨s', rearm, hrun, -⟩
    · rw [hblocked]; simp
    · rw [hrun]; simp

/-- **Ownership over whole runs.** However `addTimer`, `cancel` and `handleRead` follow one another,
    callbacks that add and cancel included, every timer has one owner and no assert fails. -/
theorem timers_sound {s : TimerRun} (h : timerQueue.Reachable s) : s.Sound := (owned_of_reachable h).sound

/-- Three timers fall due; the first, a repeating one, cancels itself and the second and adds a fourth. -/
theorem timers_sound_sample :
    ∃ s : TimerRun, s.queue.deleted = [1, 2, 3] ∧ s.queue.timers.elems = [Entry.mk 900 40] ∧ s.Sound := by
  obtain ⟨s, hs, hp⟩ := System.Reach.of_exec (S := timerQueue)
    (l := [.addTimer 10 100 ⟨true, 50⟩, .addTimer 20 100 ⟨true, 50⟩, .queueTimer 30 120 ⟨false, 0⟩,
      .addTimerInLoop 30, .handleRead 130, .run, .cancelInLoop ⟨10, 1⟩, .cancelInLoop ⟨20, 2⟩,
      .addTimer 40 900 ⟨false, 0⟩, .run, .run, .finish])
    (p := fun s => s.queue.deleted == [1, 2, 3] && s.queue.timers.elems == [Entry.mk 900 40]) (.init rfl)
    (by decide +kernel)
  simp only [Bool.and_eq_true, beq_iff_eq] at hp
  exact ⟨s, hp.1, hp.2, timers_sound hs⟩

end TimerRun

end Irono
