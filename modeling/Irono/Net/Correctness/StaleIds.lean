import Irono.Net.Correctness.TimerBatch

/-!
# `Net.Correctness.StaleIds` — an id whose timer is gone cancels nothing

The address in a `TimerId` may belong to another timer by the time the id is used. The number does not: it
is in no timer any more, and no timer to come gets it. So a stale id is found in neither set, and its note
in `cancelingTimers_` is one that `reset` never looks up.

* `LeavesOthers`: what `cancelInLoop` leaves alone, stale or not.
* `Alike`: two states that differ in such notes; `alike_step` shows that no step tells them apart.
* `stale_ids_harmless`: hence nothing observable changes, now or in any run from here.
-/

namespace Irono

open Transition

namespace TimerQueue

variable {q r : TimerQueue} {out : List Addr} {k : Nat} {c : OrderedSet ActiveTimer} {now : Timestamp}
  {id : TimerId}

/-! ## The operations do not depend on a note that nothing looks up -/

def withCanceling (q : TimerQueue) (c : OrderedSet ActiveTimer) : TimerQueue := { q with cancelingTimers := c }

/-- No timer has the number `k`. -/
def Unused (q : TimerQueue) (k : Nat) : Prop := ∀ a t, q.heap a = some t → t.sequence ≠ k

/-- The two sets differ in entries of the number `k` at most. -/
def SameBut (k : Nat) (c c' : OrderedSet ActiveTimer) : Prop := ∀ x : ActiveTimer, x.seq ≠ k → (x ∈ c' ↔ x ∈ c)

theorem SameBut.symm {c c' : OrderedSet ActiveTimer} (h : SameBut k c c') : SameBut k c' c :=
  fun x hx => (h x hx).symm

theorem SameBut.insert {c c' : OrderedSet ActiveTimer} (h : SameBut k c c') (x : ActiveTimer) :
    SameBut k (c.insert x) (c'.insert x) := by
  intro y hy
  rw [OrderedSet.mem_insert, OrderedSet.mem_insert, h y hy]

theorem SameBut.insert_note {x : ActiveTimer} (hx : x.seq = k) : SameBut k c (c.insert x) := by
  intro y hy
  rw [OrderedSet.mem_insert]
  refine or_iff_right ?_
  rintro rfl
  exact hy hx

theorem Unused.evolves (h : q.Unused k) (hev : q.Evolves r) : r.Unused k := by
  intro a t' ht'
  obtain ⟨t, ht, hseq⟩ := hev.origin a t' ht'
  exact hseq ▸ h a t ht

/-- To delete a timer makes none. -/
theorem cancelled_evolves {a : Addr} {t : Timer} (ht : q.heap a = some t) : q.Evolves (q.cancelled a t) := by
  have hsets : q.Evolves (q.erased a t) := .of_same rfl rfl
  exact hsets.trans (freed_evolves ht)

/-- `insert` does not look at the cancel set. -/
theorem insert_withCanceling {a : Addr} {b : Bool} (c : OrderedSet ActiveTimer) (hr : q.insert a = .ok (r, b)) :
    (q.withCanceling c).insert a = .ok (r.withCanceling c, b) ∧ r.heap = q.heap ∧
      r.cancelingTimers = q.cancelingTimers := by
  simp only [insert, bind_eq_ok, require_eq_ok, pure_eq_ok, Except.ok.injEq, Prod.mk.injEq] at hr
  obtain ⟨u, hsizes, t, ht, _, htimer, _, hactive, v, hsizes', rfl, rfl⟩ := hr
  refine ⟨?_, rfl, rfl⟩
  simp only [insert, bind_eq_ok, require_eq_ok, pure_eq_ok, Except.ok.injEq, Prod.mk.injEq]
  exact ⟨u, hsizes, t, ht, (), htimer, (), hactive, v, hsizes', rfl, rfl⟩

theorem delete_withCanceling {a : Addr} (c : OrderedSet ActiveTimer) (hr : q.delete a = .ok r) :
    (q.withCanceling c).delete a = .ok (r.withCanceling c) ∧ r.cancelingTimers = q.cancelingTimers := by
  cases ht : q.heap a with
  | none =>
    rw [delete, ht] at hr
    cases hr
  | some t =>
    rw [delete_eq ht, Except.ok.injEq] at hr
    subst hr
    exact ⟨delete_eq (q := q.withCanceling c) ht, rfl⟩

/-- Nor does the second loop of `getExpired`. -/
theorem eraseActive_withCanceling (c : OrderedSet ActiveTimer) : ∀ {l : List Entry} {q r : TimerQueue},
    q.eraseActive l = .ok r → (q.withCanceling c).eraseActive l = .ok (r.withCanceling c)
  | [], q, r, hr => by
    obtain rfl := Except.ok.inj hr
    rfl
  | e :: rest, q, r, hr => by
    simp only [eraseActive, bind_eq_ok, require_eq_ok] at hr
    obtain ⟨t, ht, _, hin, hrest⟩ := hr
    simp only [eraseActive, bind_eq_ok, require_eq_ok]
    exact ⟨t, ht, (), hin, eraseActive_withCanceling c hrest⟩

/-- `handleRead` clears the cancel set before it calls anybody. -/
theorem startExpired_withCanceling {expired : List Entry} (c : OrderedSet ActiveTimer)
    (hr : q.startExpired now = .ok (r, expired)) : (q.withCanceling c).startExpired now = .ok (r, expired) := by
  simp only [startExpired, getExpired, bind_eq_ok, require_eq_ok, Prod.exists, pure_eq_ok, Except.ok.injEq,
    Prod.mk.injEq] at hr
  obtain ⟨q₁, l, ⟨u, hsizes, _, hlower, q₂, herase, v, hsizes', rfl, rfl⟩, rfl, rfl⟩ := hr
  simp only [startExpired, getExpired, bind_eq_ok, require_eq_ok, Prod.exists, pure_eq_ok, Except.ok.injEq,
    Prod.mk.injEq]
  exact ⟨_, _, ⟨u, hsizes, (), hlower, _, eraseActive_withCanceling c herase, v, hsizes', rfl, rfl⟩, rfl, rfl⟩

/-- `reset` asks for the notes of its own timers only. -/
theorem resetEntry_withCanceling {e : Entry} (hk : q.Unused k) (hc : SameBut k q.cancelingTimers c)
    (hr : q.resetEntry now e = .ok r) : (q.withCanceling c).resetEntry now e = .ok (r.withCanceling c) ∧
      r.cancelingTimers = q.cancelingTimers := by
  simp only [resetEntry, bind_eq_ok] at hr
  obtain ⟨t, ht, hr⟩ := hr
  have hlive : q.heap e.addr = some t := by
    unfold deref at ht
    cases hheap : q.heap e.addr with
    | none =>
      rw [hheap] at ht
      cases ht
    | some u =>
      rw [hheap] at ht
      rw [Except.ok.inj ht]
  have hnote : .mk e.addr t.sequence ∈ (q.withCanceling c).cancelingTimers ↔
      .mk e.addr t.sequence ∈ q.cancelingTimers := hc _ (hk _ t hlive)
  simp only [resetEntry, bind_eq_ok]
  by_cases hagain : t.repeat_ ∧ ¬ ActiveTimer.mk e.addr t.sequence ∈ q.cancelingTimers
  · rw [if_pos hagain] at hr
    simp only [bind_eq_ok, Prod.exists, pure_eq_ok, Except.ok.injEq] at hr
    obtain ⟨q₁, b, hinsert, rfl⟩ := hr
    obtain ⟨hinsert', -, hsame⟩ := insert_withCanceling c hinsert
    refine ⟨⟨t, ht, ?_⟩, hsame⟩
    rw [if_pos ⟨hagain.1, hnote.not.mpr hagain.2⟩]
    exact bind_eq_ok.mpr ⟨_, hinsert', rfl⟩
  · rw [if_neg hagain] at hr
    obtain ⟨hdelete, hsame⟩ := delete_withCanceling c hr
    refine ⟨⟨t, ht, ?_⟩, hsame⟩
    rw [if_neg fun hboth => hagain ⟨hboth.1, hnote.not.mp hboth.2⟩]
    exact hdelete

/-- `reset` looks up the numbers of its own entries only. -/
theorem resetEntries_withCanceling : ∀ {l : List Entry} {q r : TimerQueue},
    q.Owns (l.map Entry.addr ++ out) → q.Unused k → SameBut k q.cancelingTimers c →
    q.resetEntries now l = .ok r → (q.withCanceling c).resetEntries now l = .ok (r.withCanceling c) ∧
      r.cancelingTimers = q.cancelingTimers
  | [], q, r, _, _, _, hr => by
    obtain rfl := Except.ok.inj hr
    exact ⟨rfl, rfl⟩
  | e :: rest, q, r, h, hk, hc, hr => by
    obtain ⟨q₁, hr₁, hr₂⟩ := bind_eq_ok.mp hr
    obtain ⟨q₂, hr₂', howns, hev, -⟩ := resetEntry_spec now h
    obtain rfl : q₁ = q₂ := Except.ok.inj (hr₁.symm.trans hr₂')
    obtain ⟨hone, hsame⟩ := resetEntry_withCanceling hk hc hr₁
    obtain ⟨hall, hsame'⟩ := resetEntries_withCanceling howns (hk.evolves hev) (hsame ▸ hc) hr₂
    exact ⟨bind_eq_ok.mpr ⟨_, hone, hall⟩, hsame'.trans hsame⟩

theorem finishExpired_withCanceling {expired : List Entry} {rearm : Option Timestamp}
    (h : q.Owns (expired.map Entry.addr ++ out)) (hk : q.Unused k) (hc : SameBut k q.cancelingTimers c)
    (hr : q.finishExpired expired now = .ok (r, rearm)) :
    (q.withCanceling c).finishExpired expired now = .ok (r.withCanceling c, rearm) ∧
      r.cancelingTimers = q.cancelingTimers := by
  obtain ⟨q₁, hr₁, hr₂⟩ := bind_eq_ok.mp hr
  have howns : { q with callingExpiredTimers := false }.Owns (expired.map Entry.addr ++ out) := { h with }
  obtain ⟨hall, hsame⟩ := resetEntries_withCanceling (c := c) howns hk hc hr₁
  have hmin : (q₁.withCanceling c).timers.min? = q₁.timers.min? := rfl
  cases htop : q₁.timers.min? with
  | none =>
    simp only [htop, pure_eq_ok, Except.ok.injEq, Prod.mk.injEq] at hr₂
    obtain ⟨rfl, rfl⟩ := hr₂
    refine ⟨bind_eq_ok.mpr ⟨_, hall, ?_⟩, hsame⟩
    simp only [hmin, htop, pure_eq_ok]
  | some e =>
    simp only [htop, bind_eq_ok, pure_eq_ok, Except.ok.injEq, Prod.mk.injEq] at hr₂
    obtain ⟨t, ht, rfl, rfl⟩ := hr₂
    refine ⟨bind_eq_ok.mpr ⟨_, hall, ?_⟩, hsame⟩
    simp only [hmin, htop, bind_eq_ok, pure_eq_ok]
    exact ⟨t, ht, rfl⟩

theorem eraseAndDelete_withCanceling (c : OrderedSet ActiveTimer) (hr : q.eraseAndDelete id = .ok r) :
    (q.withCanceling c).eraseAndDelete id = .ok (r.withCanceling c) ∧ r.cancelingTimers = q.cancelingTimers := by
  simp only [eraseAndDelete, bind_eq_ok, require_eq_ok, pure_eq_ok, Except.ok.injEq] at hr
  obtain ⟨t, ht, _, hin, q₁, hdelete, rfl⟩ := hr
  obtain ⟨hdelete', hsame⟩ := delete_withCanceling c hdelete
  refine ⟨?_, hsame⟩
  simp only [eraseAndDelete, bind_eq_ok, require_eq_ok, pure_eq_ok, Except.ok.injEq]
  exact ⟨t, ht, (), hin, _, hdelete', rfl⟩

/-- **`cancelInLoop`** does the same to both. -/
theorem cancelInLoop_withCanceling (hc : SameBut k q.cancelingTimers c) (hr : q.cancelInLoop id = .ok r) :
    ∃ c', (q.withCanceling c).cancelInLoop id = .ok (r.withCanceling c') ∧ SameBut k r.cancelingTimers c' := by
  simp only [cancelInLoop, bind_eq_ok, pure_eq_ok, ok_bind] at hr ⊢
  obtain ⟨u, hsizes, hr⟩ := hr
  -- `activeTimers_` and the flag are the same, so the branch is
  split at hr
  · rename_i hin
    obtain ⟨q₁, herase, hr⟩ := bind_eq_ok.mp hr
    obtain ⟨v, hsizes', hr⟩ := bind_eq_ok.mp hr
    obtain rfl := Except.ok.inj hr
    obtain ⟨herase', hsame⟩ := eraseAndDelete_withCanceling c herase
    refine ⟨c, ⟨u, hsizes, ?_⟩, hsame ▸ hc⟩
    rw [if_pos (show _ ∈ (q.withCanceling c).activeTimers from hin)]
    exact bind_eq_ok.mpr ⟨_, herase', bind_eq_ok.mpr ⟨v, hsizes', rfl⟩⟩
  · rename_i hout
    split at hr
    · rename_i hcalling
      obtain ⟨v, hsizes', hr⟩ := bind_eq_ok.mp hr
      obtain rfl := Except.ok.inj hr
      refine ⟨_, ⟨u, hsizes, ?_⟩, hc.insert (.mk id.timer id.seq)⟩
      rw [if_neg (show ¬ _ ∈ (q.withCanceling c).activeTimers from hout),
        if_pos (show (q.withCanceling c).callingExpiredTimers = true from hcalling)]
      exact bind_eq_ok.mpr ⟨v, hsizes', rfl⟩
    · rename_i hcalling
      obtain ⟨v, hsizes', hr⟩ := bind_eq_ok.mp hr
      obtain rfl := Except.ok.inj hr
      refine ⟨c, ⟨u, hsizes, ?_⟩, hc⟩
      rw [if_neg (show ¬ _ ∈ (q.withCanceling c).activeTimers from hout),
        if_neg (show ¬ (q.withCanceling c).callingExpiredTimers = true from hcalling)]
      exact bind_eq_ok.mpr ⟨v, hsizes', rfl⟩

/-! ## What `cancelInLoop` leaves alone -/

/-- What the queue has for every other timer: the object, its place in the sets, its note. -/
structure LeavesOthers (q r : TimerQueue) (id : TimerId) : Prop where
  heap : ∀ a t, q.heap a = some t → ⟨a, t.sequence⟩ ≠ id → r.heap a = some t
  pending : ∀ id' w, id' ≠ id → (r.Pending id' w ↔ q.Pending id' w)
  noted : ∀ x, x ≠ .mk id.timer id.seq → (x ∈ r.cancelingTimers ↔ x ∈ q.cancelingTimers)

/-- `cancelInLoop` leaves every other timer as it is. -/
theorem cancelInLoop_leaves (h : q.Owns out) (hr : q.cancelInLoop id = .ok r) : q.LeavesOthers r id := by
  have hpending := (cancelInLoop_pending h hr).1
  refine ⟨?_, fun id' w hne => (hpending id' w).trans (and_iff_left hne), ?_⟩
  all_goals
    rcases cancelInLoop_spec h id with ⟨t, ht, hseq, hrun, -⟩ | ⟨-, ⟨-, hrun⟩ | ⟨-, hrun⟩⟩ <;>
      rw [hr, Except.ok.injEq] at hrun <;> subst hrun
  · intro a u hu hne
    refine (heap_freed_of_ne t ?_).trans hu
    rintro rfl
    obtain rfl : t = u := Option.some.inj (ht.symm.trans hu)
    exact hne (by rw [hseq])
  · exact fun a u hu _ => hu
  · exact fun a u hu _ => hu
  · exact fun x _ => Iff.rfl
  · intro x hx
    exact OrderedSet.mem_insert.trans (or_iff_right hx)
  · exact fun x _ => Iff.rfl

/-- A stale id is in neither set, so all that is left is the note. -/
theorem cancelInLoop_stale (h : q.Owns out) (hstale : ¬ q.Alive id) (hr : q.cancelInLoop id = .ok r) :
    ∃ c, r = q.withCanceling c ∧ SameBut id.seq q.cancelingTimers c := by
  rcases cancelInLoop_spec h id with ⟨t, ht, hseq, -⟩ | ⟨-, ⟨-, hrun⟩ | ⟨-, hrun⟩⟩
  · exact absurd ⟨t, ht, hseq⟩ hstale
  · rw [hr, Except.ok.injEq] at hrun
    exact ⟨_, hrun, .insert_note rfl⟩
  · rw [hr, Except.ok.injEq] at hrun
    exact ⟨q.cancelingTimers, hrun, fun _ _ => Iff.rfl⟩

end TimerQueue

namespace TimerRun

open TimerQueue

variable {s s' s₁ : TimerRun} {l : Label} {k : Nat} {id : TimerId}

/-- `k` has been given out, and its timer is gone. -/
structure Retired (s : TimerRun) (k : Nat) : Prop where
  unused : s.queue.Unused k
  used : k ≤ s.numCreated

/-- The two states differ in notes of the number `k` and in the record of cancellations. -/
structure Alike (k : Nat) (s s' : TimerRun) : Prop where
  queue : ∃ c, s'.queue = s.queue.withCanceling c ∧ SameBut k s.queue.cancelingTimers c
  numCreated : s'.numCreated = s.numCreated
  queued : s'.queued = s.queued
  batch : s'.batch = s.batch
  starts : s'.starts = s.starts

theorem Alike.symm (h : Alike k s s') : Alike k s' s := by
  obtain ⟨c, hq, hc⟩ := h.queue
  refine ⟨⟨s.queue.cancelingTimers, ?_, ?_⟩, h.numCreated.symm, h.queued.symm, h.batch.symm, h.starts.symm⟩
  · rw [hq]
    rfl
  · rw [hq]
    exact hc.symm

theorem Alike.retired (h : Alike k s s') (hk : s.Retired k) : s'.Retired k := by
  obtain ⟨c, hq, -⟩ := h.queue
  refine ⟨?_, h.numCreated ▸ hk.used⟩
  rw [hq]
  exact hk.unused

/-- A number is given out once. -/
theorem retired_step (h : s.Owned) (hk : s.Retired k) (hs : s.step l = .ok s') : s'.Retired k := by
  -- the one timer that is made has a greater number
  have hcreate : ∀ a w i, (s.create a w i).queue.Unused k := by
    intro a w i b t ht
    by_cases hb : b = a
    · rw [hb, create, heap_store_self, Option.some.injEq] at ht
      have hlt : k < s.numCreated + 1 := Nat.lt_succ_of_le hk.used
      rw [← ht]
      exact Nat.ne_of_gt hlt
    · rw [create, heap_store_of_ne _ hb] at ht
      exact hk.unused b t ht
  cases moves_of_step h hs with
  | createElsewhere => exact ⟨hk.unused, Nat.le_succ_of_le hk.used⟩
  | addTimer => exact ⟨hcreate _ _ _, Nat.le_succ_of_le hk.used⟩
  | queueTimer => exact ⟨hcreate _ _ _, Nat.le_succ_of_le hk.used⟩
  | addTimerInLoop => exact ⟨hk.unused, hk.used⟩
  | cancelInLoop _ hrun =>
    refine ⟨?_, hk.used⟩
    rcases cancelInLoop_spec h.queue _ with ⟨t, ht, -, hrun', -⟩ | ⟨-, ⟨-, hrun'⟩ | ⟨-, hrun'⟩⟩ <;>
      rw [hrun, Except.ok.injEq] at hrun' <;> subst hrun'
    · exact hk.unused.evolves (cancelled_evolves ht)
    · exact hk.unused
    · exact hk.unused
  | handleRead _ _ hev => exact ⟨hk.unused.evolves hev, hk.used⟩
  | run => exact ⟨hk.unused, hk.used⟩
  | finish _ _ _ hev => exact ⟨hk.unused.evolves hev, hk.used⟩

/-- **No step tells them apart.** -/
theorem alike_step (h : s.Owned) (h' : s'.Owned) (ha : Alike k s s') (hk : s.Retired k)
    (hs : s.step l = .ok s₁) : ∃ s₁', s'.step l = .ok s₁' ∧ Alike k s₁ s₁' := by
  obtain ⟨queue', numCreated', queued', batch', history'⟩ := s'
  obtain ⟨⟨c, hq, hc⟩, hn, hqueued, hb, hstarts⟩ := ha
  simp only at hq hn hqueued hb
  subst hq hn hqueued hb
  let s' : TimerRun := ⟨s.queue.withCanceling c, s.numCreated, s.queued, s.batch, history'⟩
  cases moves_of_step h hs with
  | createElsewhere => exact ⟨_, rfl, ⟨c, rfl, hc⟩, rfl, rfl, rfl, hstarts⟩
  | addTimer hu hf =>
    refine ⟨_, step_of_act (act_addTimer h' hu hf).2, ⟨c, rfl, hc⟩, rfl, rfl, rfl, ?_⟩
    simpa [starts, added, create] using hstarts
  | queueTimer hf =>
    refine ⟨_, step_of_act (act_queueTimer h' hf).2, ⟨c, rfl, hc⟩, rfl, rfl, rfl, ?_⟩
    simpa [starts, enqueued, create] using hstarts
  | addTimerInLoop hidle hin ht =>
    obtain ⟨u, hu, -, hact⟩ := act_addTimerInLoop h' (Option.isNone_iff_eq_none.mpr hidle) hin
    obtain rfl := Option.some.inj (ht.symm.trans hu)
    exact ⟨_, step_of_act hact, ⟨c, rfl, hc⟩, rfl, rfl, rfl, hstarts⟩
  | cancelInLoop hu hrun =>
    obtain ⟨c', hrun', hc'⟩ := cancelInLoop_withCanceling hc hrun
    obtain ⟨q', hq', -, hact⟩ := act_cancelInLoop h' _ hu
    obtain rfl := Except.ok.inj (hq'.symm.trans hrun')
    refine ⟨_, step_of_act hact, ⟨c', rfl, hc'⟩, rfl, rfl, rfl, ?_⟩
    simpa [starts, cancelledWith] using hstarts
  | @handleRead now q expired hidle hrun =>
    have hrun' := startExpired_withCanceling c hrun
    have hact : s'.act (.handleRead now) = .ok (s'.expiring now q expired, none) := by
      simp only [act, enabled_of (Option.isNone_iff_eq_none.mpr hidle), ok_bind, s', hrun', pure_eq_ok]
      rfl
    exact ⟨_, step_of_act hact, ⟨_, rfl, fun _ _ => Iff.rfl⟩, rfl, rfl, rfl, hstarts⟩
  | run hbatch hnext ht =>
    obtain ⟨u, hu, -, hact⟩ := act_run h' hbatch hnext
    obtain rfl := Option.some.inj (ht.symm.trans hu)
    refine ⟨_, step_of_act hact, ⟨c, rfl, hc⟩, rfl, rfl, rfl, ?_⟩
    simpa [starts, ran] using hstarts
  | @finish b q rearm hbatch hnext hrun =>
    obtain ⟨now, expired, next⟩ := b
    obtain rfl : next = [] := hnext
    have howns : s.queue.Owns (expired.map Entry.addr ++ s.queued) :=
      h.queue.perm (by rw [held, hbatch]; exact List.perm_append_comm)
    obtain ⟨hrun', hsame⟩ := finishExpired_withCanceling howns hk.unused hc hrun
    have hact : s'.act .finish = .ok (s'.finished (q.withCanceling c), rearm) := by
      simp only [act, s', hbatch, hrun', ok_bind, pure_eq_ok]
      rfl
    exact ⟨_, step_of_act hact, ⟨c, rfl, hsame ▸ hc⟩, rfl, rfl, rfl, hstarts⟩

/-- What can be seen of the queue. -/
def seen (s : TimerRun) : OrderedSet Entry × OrderedSet ActiveTimer × List TimerId :=
  (s.queue.timers, s.queue.activeTimers, s.starts)

/-- Every run from one of the two is one from the other, with the same sets and the same callbacks. -/
def SameFuture (s s' : TimerRun) : Prop :=
  ∀ ls, (timerQueue.exec s ls).toOption.map seen = (timerQueue.exec s' ls).toOption.map seen

/-- From two states that differ in a retired number only, the runs are the same. -/
theorem Alike.sameFuture (h : s.Owned) (h' : s'.Owned) (ha : Alike k s s') (hk : s.Retired k) :
    s.SameFuture s' := by
  intro ls
  induction ls generalizing s s' with
  | nil =>
    obtain ⟨c, hq, -⟩ := ha.queue
    show some s.seen = some s'.seen
    rw [seen, seen, ha.starts, hq]
    rfl
  | cons l ls ih =>
    show ((s.step l >>= fun t => timerQueue.exec t ls).toOption).map seen =
      ((s'.step l >>= fun t => timerQueue.exec t ls).toOption).map seen
    cases hs : s.step l with
    | ok t =>
      obtain ⟨t', hs', ha'⟩ := alike_step h h' ha hk hs
      rw [hs']
      exact ih (owned_step h hs) (owned_step h' hs') ha' (retired_step h hk hs)
    | error e =>
      cases hs' : s'.step l with
      | error e' => rfl
      | ok t' =>
        obtain ⟨t, ht, -⟩ := alike_step h' h ha.symm (ha.retired hk) hs'
        rw [hs] at ht
        cases ht

/-- **Stale ids are harmless.** `cancelInLoop(id)` touches no timer but its own, neither in the sets nor in
    what `reset` will find noted. When its timer is gone it changes nothing that anybody sees. -/
theorem stale_ids_harmless (h : timerQueue.Reachable s) (hid : .issued id ∈ s.history)
    (hs : s.step (.cancelInLoop id) = .ok s') :
    s.queue.LeavesOthers s'.queue id ∧ s'.batch = s.batch ∧ s'.queued = s.queued ∧
      (¬ s.queue.Alive id → s'.queue.timers = s.queue.timers ∧ s'.queue.activeTimers = s.queue.activeTimers ∧
        s'.queue.heap = s.queue.heap ∧ s.SameFuture s') := by
  have howned := owned_of_reachable h
  have howned' := owned_step howned hs
  obtain ⟨q, hrun, rfl⟩ : ∃ q, s.queue.cancelInLoop id = .ok q ∧ s' = s.cancelledWith id q := by
    cases moves_of_step howned hs with
    | cancelInLoop _ hrun => exact ⟨_, hrun, rfl⟩
  refine ⟨cancelInLoop_leaves howned.queue hrun, rfl, rfl, fun hstale => ?_⟩
  obtain ⟨c, rfl, hc⟩ := cancelInLoop_stale howned.queue hstale hrun
  have hdeleted := (howned.numbered.issued id hid).resolve_left hstale
  have hretired : s.Retired id.seq :=
    ⟨fun a t ht hseq => howned.queue.gone a t ht (hseq ▸ hdeleted), howned.numbered.deleted _ hdeleted⟩
  have halike : Alike id.seq s (s.cancelledWith id (s.queue.withCanceling c)) :=
    ⟨⟨c, rfl, hc⟩, rfl, rfl, rfl, by simp [starts, cancelledWith]⟩
  exact ⟨rfl, rfl, rfl, halike.sameFuture howned howned' hretired⟩

/-- The timer 1 is gone, and a repeating one of the number 2 has its address. Its callback cancels the old
    id, which leaves a note. -/
theorem stale_ids_harmless_sample : ∃ s s' : TimerRun, s.queue.heap 10 = some ⟨200, ⟨true, 50⟩, 2⟩ ∧
    .mk 10 1 ∈ s'.queue.cancelingTimers ∧ s.queue.LeavesOthers s'.queue ⟨10, 1⟩ ∧ s'.batch = s.batch ∧
      s'.queued = s.queued ∧ (¬ s.queue.Alive ⟨10, 1⟩ → s'.queue.timers = s.queue.timers ∧
        s'.queue.activeTimers = s.queue.activeTimers ∧ s'.queue.heap = s.queue.heap ∧ s.SameFuture s') := by
  let before : List Label := [.addTimer 10 100 ⟨false, 0⟩, .handleRead 100, .run, .finish,
    .addTimer 10 200 ⟨true, 50⟩, .handleRead 200, .run]
  have hbefore : (timerQueue.exec start before).toOption.map (fun s => decide
      (s.queue.heap 10 = some ⟨200, ⟨true, 50⟩, 2⟩ ∧ .issued ⟨10, 1⟩ ∈ s.history)) = some true := by
    decide +kernel
  have hafter : (timerQueue.exec start (before ++ [.cancelInLoop ⟨10, 1⟩])).toOption.map
      (fun s => decide (.mk 10 1 ∈ s.queue.cancelingTimers)) = some true := by decide +kernel
  cases hrun : timerQueue.exec start (before ++ [.cancelInLoop ⟨10, 1⟩]) with
  | error e =>
    rw [hrun] at hafter
    cases hafter
  | ok s' =>
    obtain ⟨s, hs, hcancel⟩ := System.exec_concat.mp hrun
    rw [hs] at hbefore
    rw [hrun] at hafter
    obtain ⟨hheap, hissued⟩ := of_decide_eq_true (Option.some.inj hbefore)
    have hnoted := of_decide_eq_true (Option.some.inj hafter)
    exact ⟨s, s', hheap, hnoted, stale_ids_harmless (System.Reach.exec (.init rfl) hs) hissued hcancel⟩

end TimerRun

end Irono
