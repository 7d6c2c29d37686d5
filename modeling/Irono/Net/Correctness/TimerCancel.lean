import Irono.Net.Correctness.TimerBatch
import Irono.Net.TimerReset

/-!
# `Net.Correctness.TimerCancel` — when a cancelled timer stays quiet

`cancelInLoop` deletes a timer that is in the sets, and a note in `cancelingTimers_` keeps `reset` from
putting a timer of the running batch back. Neither helps a timer whose turn in the batch is still to
come: the loop of `handleRead` does not look at the cancel set. Nor is there a note for a timer whose
`addTimerInLoop` is still queued, nor in `reset` itself, where a destructor cancels a timer that is to be
put back. `NeverStartedAfterCancel` fails in these three cases (`started_after_cancel_in_batch` is the
first) and holds in every run without them.
-/

namespace Irono

open Transition

namespace TimerRun

open TimerQueue

/-- No id is issued, then cancelled, then started. -/
def NeverStartedAfterCancel (history : List TimerEvent) : Prop :=
  ∀ id, ¬ [.issued id, .cancelled id, .started id].Sublist history

/-- The timer of `id` exists and neither the sets hold it nor has its turn come: its `addTimerInLoop` is
    queued, or `handleRead` has yet to run it. -/
def Waits (s : TimerRun) (id : TimerId) : Prop :=
  s.queue.Alive id ∧ (id.timer ∈ s.queued ∨ ∃ b ∈ s.batch, id.timer ∈ b.next.map Entry.addr)

instance (s : TimerRun) (id : TimerId) : Decidable (s.Waits id) :=
  have : Decidable (s.queue.Alive id) :=
    inferInstanceAs (Decidable (∃ t ∈ s.queue.heap id.timer, t.sequence = id.seq))
  inferInstanceAs (Decidable (_ ∧ (_ ∨ _)))

/-- **The invariant.** A cancelled timer that still exists is in the running batch, has had its turn, and
    `reset` will find it in the cancel set. -/
structure Quiet (s : TimerRun) : Prop where
  never : NeverStartedAfterCancel s.history
  noted : ∀ id, [.issued id, .cancelled id].Sublist s.history → s.queue.Alive id →
    ∃ b ∈ s.batch, id.timer ∈ b.expired.map Entry.addr ∧ id.timer ∉ b.next.map Entry.addr ∧
      .mk id.timer id.seq ∈ s.queue.cancelingTimers

theorem quiet_start : start.Quiet := by
  refine ⟨fun id h => ?_, fun id h => ?_⟩ <;> simp [start] at h

/-- The last event of a subsequence is the last of the history, or the whole is older. -/
theorem snoc_sublist_snoc {l h : List TimerEvent} {x y : TimerEvent} :
    (l ++ [x]).Sublist (h ++ [y]) ↔ (x = y ∧ l.Sublist h) ∨ (l ++ [x]).Sublist h := by
  have hrev : ∀ l l' : List TimerEvent, l.Sublist l' ↔ l.reverse.Sublist l'.reverse :=
    fun _ _ => List.reverse_sublist.symm
  rw [hrev, hrev l h, hrev (l ++ [x]) h]
  simp only [List.reverse_append, List.reverse_cons, List.reverse_nil, List.nil_append,
    List.singleton_append, List.sublist_cons_iff, List.cons.injEq]
  constructor
  · rintro (h' | ⟨r, ⟨rfl, rfl⟩, hr⟩)
    · exact .inr h'
    · exact .inl ⟨rfl, hr⟩
  · rintro (⟨rfl, hr⟩ | h')
    · exact .inr ⟨_, ⟨rfl, rfl⟩, hr⟩
    · exact .inl h'

theorem never_snoc {h : List TimerEvent} {y : TimerEvent} (hn : NeverStartedAfterCancel h)
    (hy : ∀ id, y = .started id → ¬ [.issued id, .cancelled id].Sublist h) :
    NeverStartedAfterCancel (h ++ [y]) := by
  intro id hsub
  rcases snoc_sublist_snoc (l := [.issued id, .cancelled id]).mp hsub with ⟨heq, hl⟩ | hold
  · exact hy id heq.symm hl
  · exact hn id hold

/-- Only a cancellation adds a cancelled id. -/
theorem cancelled_snoc {h : List TimerEvent} {y : TimerEvent} {id : TimerId}
    (hsub : [.issued id, .cancelled id].Sublist (h ++ [y])) (hy : y ≠ .cancelled id) :
    [.issued id, .cancelled id].Sublist h := by
  rcases snoc_sublist_snoc (l := [.issued id]).mp hsub with ⟨heq, -⟩ | hold
  · exact absurd heq.symm hy
  · exact hold

variable {s : TimerRun}

/-- A timer just made is not an old id's, even at an address used before. -/
theorem alive_of_create (h : s.Owned) {a : Addr} {w : Timestamp} {i : Interval} {id : TimerId}
    (hid : .issued id ∈ s.history) (ha : (s.create a w i).queue.Alive id) : s.queue.Alive id := by
  obtain ⟨t, ht, hseq⟩ := ha
  by_cases hid' : id.timer = a
  · rw [hid', create, heap_store_self, Option.some.injEq] at ht
    subst ht
    rcases h.numbered.issued id hid with halive | hdel
    · exact halive
    · have hle := h.numbered.deleted _ hdel
      simp only at hseq
      omega
  · exact ⟨t, by rwa [create, heap_store_of_ne _ hid'] at ht, hseq⟩

theorem quiet_create (h : s.Owned) (hq : s.Quiet) (a : Addr) (w : Timestamp) (i : Interval) :
    (s.create a w i).Quiet := by
  refine ⟨never_snoc hq.never (fun id heq => by cases heq), fun id hsub halive => ?_⟩
  have hold := cancelled_snoc hsub (by simp)
  exact hq.noted id hold (alive_of_create h (hold.subset (by simp)) halive)

/-- Between batches no cancelled timer exists. -/
theorem Quiet.not_alive (hq : s.Quiet) (hb : s.batch.isNone) {id : TimerId}
    (hsub : [.issued id, .cancelled id].Sublist s.history) : ¬ s.queue.Alive id := by
  intro halive
  obtain ⟨b, hb', -⟩ := hq.noted id hsub halive
  rw [Option.isNone_iff_eq_none.mp hb] at hb'
  cases hb'

/-- A timer that exists outside the sets and does not wait is in the batch and has had its turn. -/
theorem Owned.turn_over (h : s.Owned) {id : TimerId} (halive : s.queue.Alive id)
    (hout : ¬ .mk id.timer id.seq ∈ s.queue.activeTimers) (hw : ¬ s.Waits id) :
    ∃ b ∈ s.batch, id.timer ∈ b.expired.map Entry.addr ∧ id.timer ∉ b.next.map Entry.addr := by
  obtain ⟨t, ht, hseq⟩ := halive
  have hnotin : id.timer ∉ s.queue.addrs := fun hin => hout ((h.queue.active _ _).mpr ⟨hin, t, ht, hseq⟩)
  have hplace := (h.queue.live id.timer).mp (by simp [ht])
  simp only [List.mem_append, hnotin, or_false] at hplace
  rcases hplace with hqueued | hheld
  · exact absurd ⟨⟨t, ht, hseq⟩, .inl hqueued⟩ hw
  · match hb : s.batch with
    | none => simp [held, hb] at hheld
    | some b =>
      exact ⟨b, rfl, by simpa only [held, hb] using hheld,
        fun hnext => hw ⟨⟨t, ht, hseq⟩, .inr ⟨b, hb, hnext⟩⟩⟩

theorem quiet_cancelInLoop (h : s.Owned) (hq : s.Quiet) {id : TimerId} {q : TimerQueue}
    (hw : ¬ s.Waits id) (hrun : s.queue.cancelInLoop id = .ok q) : (s.cancelledWith id q).Quiet := by
  refine ⟨never_snoc hq.never (fun id' heq => by cases heq), fun id' hsub halive => ?_⟩
  have hold : id' ≠ id → [.issued id', .cancelled id'].Sublist s.history := fun hne =>
    cancelled_snoc hsub (by simpa using hne.symm)
  rcases cancelInLoop_spec h.queue id with ⟨t, ht, hseq, hrun', -⟩ |
      ⟨hout, ⟨-, hrun'⟩ | ⟨hcalling, hrun'⟩⟩ <;>
    rw [hrun, Except.ok.injEq] at hrun' <;> subst hrun'
  · -- found and deleted
    have hne : id' ≠ id := by
      rintro rfl
      obtain ⟨u, hu, -⟩ := halive
      exact (heap_freed (q := s.queue.erased _ t) hu).1 rfl
    exact hq.noted id' (hold hne) (Evolves.alive (freed_evolves (q := s.queue.erased _ t) ht) halive)
  · -- noted
    by_cases hid : id' = id
    · subst hid
      obtain ⟨b, hb, hexp, hnext⟩ := h.turn_over halive hout hw
      exact ⟨b, hb, hexp, hnext, OrderedSet.mem_insert.mpr (.inl rfl)⟩
    · obtain ⟨b, hb, hexp, hnext, hin⟩ := hq.noted id' (hold hid) halive
      exact ⟨b, hb, hexp, hnext, OrderedSet.mem_insert.mpr (.inr hin)⟩
  · -- forgotten: no batch is running
    have hnone : s.batch = none := by
      have := h.calling
      rw [hcalling] at this
      simpa using this.symm
    by_cases hid : id' = id
    · subst hid
      obtain ⟨b, hb, -⟩ := h.turn_over halive hout hw
      rw [hnone] at hb; cases hb
    · exact absurd halive (hq.not_alive (by simp [hnone]) (hold hid))

theorem quiet_run (hq : s.Quiet) {b : ExpiredBatch} {e : Entry} {rest : List Entry}
    {t : Timer} (hb : s.batch = some b) (hnext : b.next = e :: rest) (ht : s.queue.heap e.addr = some t) :
    (s.ran b rest ⟨e.addr, t.sequence⟩).Quiet := by
  refine ⟨never_snoc hq.never (fun id heq hsub => ?_), fun id hsub halive => ?_⟩
  · -- a cancelled timer would have had its turn
    simp only [TimerEvent.started.injEq] at heq
    subst heq
    obtain ⟨b', hb', -, hturn, -⟩ := hq.noted _ hsub ⟨t, ht, rfl⟩
    rw [hb, Option.mem_def, Option.some.injEq] at hb'
    subst hb'
    exact hturn (by simp [hnext])
  · obtain ⟨b', hb', hexp, hturn, hin⟩ := hq.noted id (cancelled_snoc hsub (by simp)) halive
    rw [hb, Option.mem_def, Option.some.injEq] at hb'
    subst hb'
    rw [hnext, List.map_cons, List.mem_cons, not_or] at hturn
    exact ⟨_, rfl, hexp, hturn.2, hin⟩

/-- **One step** of the timer queue up to the end of the callbacks, with no `cancelInLoop` of a timer that waits. -/
theorem quiet_step {s' : TimerRun} {a : Label} (h : s.Owned) (hq : s.Quiet)
    (hcancel : ∀ id, a = .cancelInLoop id → ¬ s.Waits id) (ha : a ≠ .finish) (hs : s.step a = .ok s') :
    s'.Quiet := by
  cases moves_of_step h hs with
  | createElsewhere => exact ⟨hq.never, hq.noted⟩
  | @addTimer a w i hu hf => exact ⟨(quiet_create h hq a w i).never, (quiet_create h hq a w i).noted⟩
  | @queueTimer a w i hf => exact ⟨(quiet_create h hq a w i).never, (quiet_create h hq a w i).noted⟩
  | addTimerInLoop hidle hin ht => exact ⟨hq.never, hq.noted⟩
  | cancelInLoop hu hrun => exact quiet_cancelInLoop h hq (hcancel _ rfl) hrun
  | handleRead hidle hrun hev =>
    -- no batch runs, so that no cancelled timer is left
    have hnone : s.batch.isNone := by rw [hidle]; rfl
    exact ⟨hq.never, fun id hsub halive => absurd (hev.alive halive) (hq.not_alive hnone hsub)⟩
  | run hb hnext ht => exact quiet_run hq hb hnext ht
  | finish => exact absurd rfl ha

end TimerRun

/-! ## `reset`, an entry at a time -/

namespace TimerReset

open TimerRun TimerQueue

/-- The `for` of `reset` without user code in it. -/
theorem reach_resetEntries (run : TimerRun) {now : Timestamp} {l : List Entry} {q q' : TimerQueue}
    (h : timerReset.Reachable ⟨{ run with queue := q }, some (now, l)⟩) (hrun : q.resetEntries now l = .ok q') :
    timerReset.Reachable ⟨{ run with queue := q' }, some (now, [])⟩ := by
  induction l generalizing q with
  | nil =>
    obtain rfl := Except.ok.inj hrun
    exact h
  | cons e rest ih =>
    obtain ⟨q₁, he, hrest⟩ := bind_eq_ok.mp hrun
    refine ih (h.step (a := .resetEntry) trivial ?_) hrest
    simp only [timerReset, step, he, ok_bind, pure_eq_ok]

/-- **The runs of the timer queue are among these**: `finish` is `reset` without user code. -/
theorem reachable_of_timerQueue {run : TimerRun} (h : timerQueue.Reachable run) :
    timerReset.Reachable ⟨run, none⟩ := by
  induction h with
  | init h0 => exact .init (congrArg (TimerReset.mk · none) h0)
  | @step run run' a hreach _ hs ih =>
    by_cases ha : a = .finish
    · subst ha
      cases moves_of_step (owned_of_reachable hreach) hs with
      | @finish b q rearm hb hnext hfinish =>
        obtain ⟨now, expired, next⟩ := b
        obtain rfl : next = [] := hnext
        rw [TimerQueue.finishExpired, reset_eq] at hfinish
        obtain ⟨q₁, hentries, htail⟩ := bind_eq_ok.mp hfinish
        obtain rfl := reset_nil htail
        let idle : TimerRun := { run with batch := none }
        have hbegun : timerReset.Reachable
            ⟨{ idle with queue := { run.queue with callingExpiredTimers := false } }, some (now, expired)⟩ :=
          ih.step (a := .reset) trivial (by simp only [timerReset, step, hb]; rfl)
        have hlooped := reach_resetEntries idle hbegun hentries
        exact hlooped.step (a := .resetTimerfd) trivial (by simp only [timerReset, step, htail, ok_bind]; rfl)
    · have huser : userCode ⟨run, none⟩ := fun r hr => by cases hr
      have hallows : Allows ⟨run, none⟩ a := by
        cases a <;> first | exact trivial | exact huser | rfl | exact absurd rfl ha
      refine ih.step (a := .timer a) trivial ?_
      have hstep : run.step a = .ok run' := hs
      simp only [timerReset, step, enabled_of hallows, hstep, ok_bind, pure_eq_ok]

/-- The timer of `id` exists and is still to be started or to be put back, and no note keeps it from that: its
    `addTimerInLoop` is queued, `handleRead` has yet to run it, or `reset` has yet to restart it. -/
def Waits (s : TimerReset) (id : TimerId) : Prop :=
  s.run.Waits id ∨ s.run.queue.Alive id ∧
    ∃ r ∈ s.resetting, ∃ e ∈ r.2, e.addr = id.timer ∧ Restarts s.run.queue e

instance (s : TimerReset) (id : TimerId) : Decidable (s.Waits id) :=
  have : Decidable (s.run.queue.Alive id) :=
    inferInstanceAs (Decidable (∃ t ∈ s.run.queue.heap id.timer, t.sequence = id.seq))
  inferInstanceAs (Decidable (_ ∨ _ ∧ ∃ r ∈ s.resetting, ∃ e ∈ r.2, _ ∧ _))

/-- A `cancelInLoop` is executed for a timer that does not wait. -/
def CancelsInTime (s : TimerReset) : Label → Prop
  | .timer (.cancelInLoop id) => ¬ s.Waits id
  | _ => True

instance (s : TimerReset) : (a : Label) → Decidable (s.CancelsInTime a)
  | .timer (.cancelInLoop id) => inferInstanceAs (Decidable (¬ s.Waits id))
  | .timer .createElsewhere | .timer (.addTimer ..) | .timer (.queueTimer ..) | .timer (.addTimerInLoop _)
  | .timer (.handleRead _) | .timer .run | .timer .finish | .reset | .resetEntry | .resetTimerfd => isTrue trivial

/-- The timers that `reset` has yet to come to. -/
def pending (s : TimerReset) : List Addr :=
  match s.resetting with
  | some r => r.2.map Entry.addr
  | none => []

/-- The timer queue as if these were queued with the others: they are alive and in no set. -/
def seen (s : TimerReset) : TimerRun := { s.run with queued := s.pending ++ s.run.queued }

/-- `r` has yet to delete the timer of `id`. -/
def Doomed (r : Timestamp × List Entry) (q : TimerQueue) (id : TimerId) : Prop :=
  ∃ e ∈ r.2, e.addr = id.timer ∧ ¬ Restarts q e

/-- **The invariant.** While `reset` runs, a cancelled timer that still exists is one it has yet to delete. -/
structure Quiet (s : TimerReset) : Prop where
  owned : s.seen.Owned
  batch : s.resetting ≠ none → s.run.batch = none
  outside : s.resetting = none → s.run.Quiet
  never : NeverStartedAfterCancel s.run.history
  doomed : ∀ r ∈ s.resetting, ∀ id, [.issued id, .cancelled id].Sublist s.run.history → s.run.queue.Alive id →
    Doomed r s.run.queue id

theorem quiet_start : Quiet ⟨TimerRun.start, none⟩ where
  owned := owned_start
  batch := nofun
  outside := fun _ => TimerRun.quiet_start
  never := TimerRun.quiet_start.never
  doomed := nofun

variable {s s' : TimerReset}

theorem seen_of_none (h : s.resetting = none) : s.seen = s.run := by
  unfold seen pending
  rw [h]
  rfl

/-- A step that `reset` allows is one of the timer queue as seen. -/
theorem seen_step {a : TimerRun.Label} {run : TimerRun} (ha : s.Allows a) (hs : s.run.step a = .ok run) :
    s.seen.step a = .ok (seen { s with run := run }) := by
  rcases Option.eq_none_or_eq_some s.resetting with hr | ⟨r, hr⟩
  · rwa [seen_of_none hr, seen_of_none (s := { s with run := run }) hr]
  · cases a with
    | createElsewhere =>
      obtain rfl := Except.ok.inj hs
      rfl
    | addTimer timer w i =>
      simp only [TimerRun.step, act, bind_eq_ok, enabled_eq_ok, Prod.exists, pure_eq_ok, Except.ok.injEq,
        Prod.mk.injEq] at hs ⊢
      obtain ⟨_, rearm, ⟨-, henabled, queue, rearm', hadd, t, hderef, rfl, rfl⟩, rfl⟩ := hs
      exact ⟨_, _, ⟨(), henabled, queue, rearm', hadd, t, hderef, rfl, rfl⟩, rfl⟩
    | queueTimer timer w i =>
      simp only [TimerRun.step, act, bind_eq_ok, enabled_eq_ok, Prod.exists, pure_eq_ok, Except.ok.injEq,
        Prod.mk.injEq] at hs ⊢
      obtain ⟨_, rearm, ⟨-, henabled, rfl, rfl⟩, rfl⟩ := hs
      refine ⟨_, _, ⟨(), henabled, rfl, rfl⟩, ?_⟩
      simp only [seen, pending, create, List.append_assoc]
    | cancelInLoop id =>
      simp only [TimerRun.step, act, bind_eq_ok, enabled_eq_ok, Prod.exists, pure_eq_ok, Except.ok.injEq,
        Prod.mk.injEq] at hs ⊢
      obtain ⟨_, rearm, ⟨-, henabled, queue, hcancel, rfl, rfl⟩, rfl⟩ := hs
      exact ⟨_, _, ⟨(), henabled, queue, hcancel, rfl, rfl⟩, rfl⟩
    | addTimerInLoop timer => simp [Allows, hr] at ha
    | handleRead now => simp [Allows, hr] at ha
    | run => simp [Allows, hr] at ha
    | finish => exact ha.elim

/-- What is restarted after a deletion was to be restarted before. -/
theorem Restarts.mono {q q' : TimerQueue} {e : Entry} (h : Restarts q' e)
    (hheap : ∀ t, q'.heap e.addr = some t → q.heap e.addr = some t)
    (hcanceling : q'.cancelingTimers = q.cancelingTimers) : Restarts q e := by
  obtain ⟨t, ht, hrepeat, hnoted⟩ := h
  exact ⟨t, hheap t ht, hrepeat, hcanceling ▸ hnoted⟩

variable {r : Timestamp × List Entry}

/-- A new timer is at no entry of `reset`. -/
theorem Quiet.create (h : s.Quiet) (hr : s.resetting = some r) {a : Addr} {w : Timestamp} {i : Interval}
    (hf : s.seen.Fresh a) {id : TimerId} (hsub : [.issued id, .cancelled id].Sublist (s.seen.create a w i).history)
    (halive : (s.seen.create a w i).queue.Alive id) : Doomed r (s.seen.create a w i).queue id := by
  have hold := cancelled_snoc hsub (by simp)
  have hbefore : s.run.queue.Alive id := alive_of_create h.owned (hold.subset (by simp)) halive
  obtain ⟨e, he, haddr, hnot⟩ := h.doomed r hr id hold hbefore
  refine ⟨e, he, haddr, fun hrestarts => hnot (hrestarts.mono (fun t ht => ?_) rfl)⟩
  have hne : e.addr ≠ a := by
    rintro rfl
    obtain ⟨t, ht, -⟩ := hbefore
    rw [← haddr] at ht
    cases hf.1.symm.trans ht
  exact (heap_store_of_ne _ hne).symm.trans ht

/-- A destructor calls `cancel`. -/
theorem Quiet.cancel (h : s.Quiet) (hr : s.resetting = some r) {id : TimerId} {q : TimerQueue}
    (hw : ¬ s.Waits id) (hrun : s.run.queue.cancelInLoop id = .ok q) {id' : TimerId}
    (hsub : [.issued id', .cancelled id'].Sublist (s.run.history ++ [.cancelled id])) (halive : q.Alive id') :
    Doomed r q id' := by
  have hold : id' ≠ id → [.issued id', .cancelled id'].Sublist s.run.history := fun hne =>
    cancelled_snoc hsub (by simpa using hne.symm)
  have hbatch : s.run.batch = none := h.batch (by rw [hr]; simp)
  rcases cancelInLoop_spec h.owned.queue id with ⟨t, ht, hseq, hrun', -⟩ |
      ⟨hout, ⟨hcalling, -⟩ | ⟨-, hrun'⟩⟩
  · -- found and deleted
    obtain rfl := Except.ok.inj (hrun.symm.trans hrun')
    have hne : id' ≠ id := by
      rintro rfl
      obtain ⟨u, hu, -⟩ := halive
      exact (heap_freed (q := s.run.queue.erased _ t) hu).1 rfl
    have hbefore : s.run.queue.Alive id' := Evolves.alive (freed_evolves (q := s.run.queue.erased _ t) ht) halive
    obtain ⟨e, he, haddr, hnot⟩ := h.doomed r hr id' (hold hne) hbefore
    refine ⟨e, he, haddr, fun hrestarts => hnot (hrestarts.mono (fun u hu => ?_) rfl)⟩
    exact (heap_freed (q := s.run.queue.erased _ t) hu).2
  · -- `callingExpiredTimers_` is false already
    have hfalse := h.owned.calling
    have hseen : s.seen.batch = none := hbatch
    rw [hcalling, hseen] at hfalse
    cases hfalse
  · obtain rfl := Except.ok.inj (hrun.symm.trans hrun')
    by_cases hid : id' = id
    · subst hid
      -- in no set and not queued, so it is an entry that `reset` has not left
      obtain ⟨t, ht, hseq⟩ := halive
      have hheap : s.run.queue.heap id'.timer = some t := ht
      have hnotin : id'.timer ∉ s.run.queue.addrs := fun hin =>
        hout ((h.owned.queue.active _ _).mpr ⟨hin, t, ht, hseq⟩)
      have hplace := (h.owned.queue.live id'.timer).mp (hheap.trans_ne (Option.some_ne_none t))
      rw [held_idle (s := s.seen) hbatch, List.append_nil, List.mem_append, seen, pending, hr, List.mem_append] at hplace
      rcases hplace with (hentry | hqueued) | hin
      · obtain ⟨e, he, haddr⟩ := List.mem_map.mp hentry
        exact ⟨e, he, haddr, fun hrestarts => hw (.inr ⟨⟨t, hheap, hseq⟩, r, hr, e, he, haddr, hrestarts⟩)⟩
      · exact absurd (.inl ⟨⟨t, hheap, hseq⟩, .inl hqueued⟩) hw
      · exact absurd hin hnotin
    · exact h.doomed r hr id' (hold hid) halive

/-- What happens while `reset` runs, but for `reset` itself. -/
theorem Quiet.inside (h : s.Quiet) (hr : s.resetting = some r) {a : TimerRun.Label} {t : TimerRun}
    (ha : s.Allows a) (hw : ∀ id, a = .cancelInLoop id → ¬ s.Waits id) (hm : s.seen.Moves a t) :
    t.batch = none ∧ NeverStartedAfterCancel t.history ∧
      ∀ id, [.issued id, .cancelled id].Sublist t.history → t.queue.Alive id → Doomed r t.queue id := by
  have hbatch : s.run.batch = none := h.batch (by rw [hr]; simp)
  cases hm with
  | createElsewhere => exact ⟨hbatch, h.never, h.doomed r hr⟩
  | addTimer _ hf => exact ⟨hbatch, never_snoc h.never nofun, fun id hsub halive => h.create hr hf hsub halive⟩
  | queueTimer hf => exact ⟨hbatch, never_snoc h.never nofun, fun id hsub halive => h.create hr hf hsub halive⟩
  | cancelInLoop _ hrun =>
    exact ⟨hbatch, never_snoc h.never nofun, fun id hsub halive => h.cancel hr (hw _ rfl) hrun hsub halive⟩
  | addTimerInLoop => simp [Allows, hr] at ha
  | handleRead => simp [Allows, hr] at ha
  | run => simp [Allows, hr] at ha
  | finish => exact ha.elim

/-- A step of the timer queue. -/
theorem quiet_timer (h : s.Quiet) {a : TimerRun.Label} {run : TimerRun} (ha : s.Allows a)
    (hw : ∀ id, a = .cancelInLoop id → ¬ s.Waits id) (hs : s.run.step a = .ok run) :
    Quiet { s with run := run } := by
  have hseen := seen_step ha hs
  have howned := owned_step h.owned hseen
  rcases Option.eq_none_or_eq_some s.resetting with hr | ⟨r, hr⟩
  · have hrun : s.run.Owned := seen_of_none hr ▸ h.owned
    have hfinish : a ≠ .finish := by
      rintro rfl
      exact ha
    have hquiet := TimerRun.quiet_step hrun (h.outside hr) (fun id hid hwaits => hw id hid (.inl hwaits)) hfinish hs
    exact ⟨howned, fun hne => absurd hr hne, fun _ => hquiet, hquiet.never, fun r' hr' => by cases hr.symm.trans hr'⟩
  · have hmoves := moves_of_step h.owned hseen
    obtain ⟨hbatch, hnever, hdoomed⟩ := h.inside hr ha hw hmoves
    refine ⟨howned, fun _ => hbatch, fun hnone => ?_, hnever, fun r' hr' => ?_⟩
    · cases hr.symm.trans hnone
    · obtain rfl := Option.some.inj (hr.symm.trans hr')
      exact hdoomed

/-- `reset` begins: the cancelled timers of the batch are noted. -/
theorem quiet_reset (h : s.Quiet) {b : ExpiredBatch} (hb : s.run.batch = some b) :
    Quiet ⟨{ s.run with queue := { s.run.queue with callingExpiredTimers := false }, batch := none },
      some (b.now, b.expired)⟩ := by
  have hr : s.resetting = none := by
    by_contra hne
    cases hb.symm.trans (h.batch hne)
  have hrun : s.run.Owned := seen_of_none hr ▸ h.owned
  refine ⟨⟨?_, rfl, nofun, ?_⟩, fun _ => rfl, nofun, h.never, ?_⟩
  · show TimerQueue.Owns { s.run.queue with callingExpiredTimers := false }
      (b.expired.map Entry.addr ++ s.run.queued ++ [])
    rw [List.append_nil]
    exact { hrun.batch_owns hb with }
  · exact hrun.numbered.evolve (.of_same rfl rfl) rfl fun _ hid => hid
  · intro r hr' id hsub halive
    obtain rfl := Option.some.inj hr'
    obtain ⟨b', hb', hin, -, hnoted⟩ := (h.outside hr).noted id hsub halive
    obtain rfl := Option.some.inj (hb.symm.trans hb')
    obtain ⟨e, he, haddr⟩ := List.mem_map.mp hin
    refine ⟨e, he, haddr, ?_⟩
    rintro ⟨t, ht, -, hfree⟩
    obtain ⟨u, hu, hseq⟩ := halive
    rw [← haddr] at hu
    obtain rfl := Option.some.inj (ht.symm.trans hu)
    rw [haddr, hseq] at hfree
    exact hfree hnoted

/-- An iteration deletes the timer at hand, or restarts one that is not cancelled. -/
theorem quiet_resetEntry (h : s.Quiet) {now : Timestamp} {entry : Entry} {rest : List Entry} {q : TimerQueue}
    (hr : s.resetting = some (now, entry :: rest)) (hrun : s.run.queue.resetEntry now entry = .ok q) :
    Quiet ⟨{ s.run with queue := q }, some (now, rest)⟩ := by
  have hbatch : s.run.batch = none := h.batch (by rw [hr]; simp)
  have howns : s.run.queue.Owns (entry.addr :: (rest.map Entry.addr ++ s.run.queued)) := by
    have hqueue := h.owned.queue
    rw [held_idle (s := s.seen) hbatch, seen, pending, hr, List.append_nil] at hqueue
    exact hqueue
  obtain ⟨q', hrun', howns', hev, ⟨hcalling, -⟩, hgone⟩ := resetEntry_spec now howns
  obtain rfl := Except.ok.inj (hrun.symm.trans hrun')
  obtain ⟨-, hother, hcanceling, -⟩ := resetEntry_pending now howns hrun
  refine ⟨⟨?_, ?_, ?_, ?_⟩, fun _ => hbatch, nofun, h.never, ?_⟩
  · rw [held_idle (s := seen ⟨{ s.run with queue := q }, some (now, rest)⟩) hbatch, List.append_nil]
    exact howns'
  · show q.callingExpiredTimers = s.run.batch.isSome
    rw [hcalling]
    exact h.owned.calling
  · exact h.owned.next
  · exact h.owned.numbered.evolve hev rfl fun _ hid => hid
  · intro r hr' id hsub halive
    obtain rfl := Option.some.inj hr'
    obtain ⟨e, he, haddr, hnot⟩ := h.doomed _ hr id hsub (hev.alive halive)
    by_cases hentry : e.addr = entry.addr
    · -- what is still there was restarted
      obtain ⟨u, hu, hseq⟩ := halive
      rw [← haddr, hentry] at hu
      obtain ⟨t, ht, hrepeat, rfl⟩ := resetEntry_heap howns hrun hu
      have hfree := hgone _ hu
      rw [t.restart_sequence] at hfree
      exact absurd ⟨t, hentry ▸ ht, hrepeat, hentry ▸ hfree⟩ hnot
    · refine ⟨e, (List.mem_cons.mp he).resolve_left fun heq => hentry (congrArg Entry.addr heq), haddr, ?_⟩
      exact fun hrestarts => hnot (hrestarts.mono (fun t ht => (hother _ hentry).symm.trans ht) hcanceling)

/-- `reset` is over: no cancelled timer is left. -/
theorem quiet_resetTimerfd (h : s.Quiet) {now : Timestamp} (hr : s.resetting = some (now, [])) :
    Quiet ⟨s.run, none⟩ := by
  have hseen : s.seen = s.run := by
    unfold seen pending
    rw [hr]
    rfl
  refine ⟨hseen ▸ h.owned, fun hne => absurd rfl hne, fun _ => ⟨h.never, ?_⟩, h.never, nofun⟩
  intro id hsub halive
  obtain ⟨e, he, -⟩ := h.doomed _ hr id hsub halive
  cases he

/-- **One step** under the condition. -/
theorem quiet_step {l : Label} (h : s.Quiet) (hl : s.CancelsInTime l) (hs : s.step l = .ok s') : s'.Quiet := by
  cases l with
  | timer a =>
    simp only [step, bind_eq_ok, enabled_eq_ok, pure_eq_ok, Except.ok.injEq] at hs
    obtain ⟨-, ha, run, hrun, rfl⟩ := hs
    refine quiet_timer h ha ?_ hrun
    rintro id rfl
    exact hl
  | reset =>
    simp only [step] at hs
    split at hs
    · next now expired hb =>
      obtain rfl := Except.ok.inj hs
      exact quiet_reset h hb
    · cases hs
  | resetEntry =>
    simp only [step] at hs
    split at hs
    · next now entry rest hr =>
      obtain ⟨q, hrun, hs⟩ := bind_eq_ok.mp hs
      obtain rfl := Except.ok.inj hs
      exact quiet_resetEntry h hr hrun
    · cases hs
  | resetTimerfd =>
    simp only [step] at hs
    split at hs
    · next now hr =>
      simp only [bind_eq_ok, Prod.exists, pure_eq_ok, Except.ok.injEq] at hs
      obtain ⟨q, rearm, hrun, rfl⟩ := hs
      rw [reset_nil hrun]
      exact quiet_resetTimerfd h hr
    · cases hs

/-- **A cancelled timer stays quiet.** In every run whose `cancelInLoop`s are executed for timers that do
    not wait, no callback starts after its id was cancelled. -/
theorem never_started_after_cancel (h : timerReset.Reach CancelsInTime s) : NeverStartedAfterCancel s.run.history := by
  have hq : s.Quiet := h.invariant (I := Quiet)
    (fun s h0 => by have hs : s = ⟨TimerRun.start, none⟩ := h0; exact hs ▸ quiet_start)
    (fun _ _ _ _ hI ha hs => quiet_step hI ha hs)
  exact hq.never

/-- A timer cancels itself from its callback, and one that already ran; both repeat and neither is put back. The
    destructor of the last cancels a timer that was put back before. -/
theorem never_started_after_cancel_sample : ∃ s : TimerReset, s.run.history.length = 10 ∧
    s.run.queue.deleted = [2, 1, 3] ∧ NeverStartedAfterCancel s.run.history := by
  obtain ⟨s, hs, hp⟩ := System.Reach.of_execWhile (S := timerReset) (C := CancelsInTime)
    (l := [.timer (.addTimer 10 90 ⟨true, 50⟩), .timer (.addTimer 20 100 ⟨true, 50⟩),
      .timer (.addTimer 30 100 ⟨true, 50⟩), .timer (.handleRead 100), .timer .run, .timer .run,
      .timer (.cancelInLoop ⟨20, 2⟩), .timer .run, .timer (.cancelInLoop ⟨30, 3⟩), .reset, .resetEntry,
      .resetEntry,
      .timer (.cancelInLoop ⟨10, 1⟩), .resetEntry, .resetTimerfd, .timer (.addTimer 10 100 ⟨true, 50⟩)])
    (p := fun s => s.run.history.length == 10 && s.run.queue.deleted == [2, 1, 3]) (.init rfl) (by decide +kernel)
  simp only [Bool.and_eq_true, beq_iff_eq] at hp
  exact ⟨s, hp.1, hp.2, never_started_after_cancel hs⟩

/-- **Two timers fall due together.** The callback of the first cancels the second, which is run all the
    same. -/
theorem started_after_cancel_in_batch :
    ¬ ∀ s : TimerReset, timerReset.Reachable s → NeverStartedAfterCancel s.run.history := by
  intro hall
  obtain ⟨s, hs, hp⟩ := System.Reach.of_exec (S := timerReset)
    (l := [.timer (.addTimer 10 100 ⟨false, 0⟩), .timer (.addTimer 20 100 ⟨false, 0⟩), .timer (.handleRead 100),
      .timer .run, .timer (.cancelInLoop ⟨20, 2⟩), .timer .run])
    (p := fun s => s.run.history == [.issued ⟨10, 1⟩, .issued ⟨20, 2⟩, .started ⟨10, 1⟩,
      .cancelled ⟨20, 2⟩, .started ⟨20, 2⟩]) (.init rfl) (by decide +kernel)
  rw [beq_iff_eq] at hp
  exact hall s hs ⟨20, 2⟩ (by rw [hp]; decide)

/-- Another case: `addTimerInLoop` is queued, the loop thread cancels the id, and the timer is added and run. -/
example : (timerReset.exec ⟨TimerRun.start, none⟩ [.timer (.queueTimer 10 100 ⟨false, 0⟩),
    .timer (.cancelInLoop ⟨10, 1⟩), .timer (.addTimerInLoop 10), .timer (.handleRead 100),
    .timer .run]).toOption.map (fun s => s.run.history) =
    some [.issued ⟨10, 1⟩, .cancelled ⟨10, 1⟩, .started ⟨10, 1⟩] := by decide +kernel

/-- The third: the destructor of a timer that `reset` deletes cancels one that `reset` puts back afterwards. -/
example : (timerReset.exec ⟨TimerRun.start, none⟩ [.timer (.addTimer 10 100 ⟨false, 0⟩),
    .timer (.addTimer 20 100 ⟨true, 50⟩), .timer (.handleRead 100), .timer .run, .timer .run, .reset,
    .timer (.cancelInLoop ⟨20, 2⟩), .resetEntry, .resetEntry, .resetTimerfd, .timer (.handleRead 150),
    .timer .run]).toOption.map (fun s => s.run.history.drop 2) =
    some [.started ⟨10, 1⟩, .started ⟨20, 2⟩, .cancelled ⟨20, 2⟩, .started ⟨20, 2⟩] := by decide +kernel

end TimerReset

end Irono
