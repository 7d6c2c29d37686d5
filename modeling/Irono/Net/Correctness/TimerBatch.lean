import Irono.Net.Correctness.TimerOwnership

/-!
# `Net.Correctness.TimerBatch` — one `handleRead`, whatever its callbacks do

`getExpired` cuts the due timers off, the callbacks add and cancel timers while the batch is walked, and
`reset` puts the repeating ones back. Each operation has one lemma that says what it does to the pending
timers (`Pending`); `Underway` follows them through the callbacks, whose labels are kept.

* `Fires`: the callbacks `handleRead` is to start, each once, the earlier ones first.
* `handleRead_batch`: it starts these, and leaves what was not due, what was added, and what repeats,
  without what was cancelled.
-/

namespace Irono

open Transition

namespace TimerQueue

variable {q q' : TimerQueue} {out : List Addr} {id : TimerId} {w now : Timestamp} {a : Addr} {t : Timer}

/-- The timer of `id` is in the two sets, with expiration `w`. -/
def Pending (q : TimerQueue) (id : TimerId) (w : Timestamp) : Prop :=
  .mk w id.timer ∈ q.timers ∧ .mk id.timer id.seq ∈ q.activeTimers

theorem Owns.pending_iff (h : q.Owns out) : q.Pending id w ↔
    id.timer ∈ q.addrs ∧ ∃ t, q.heap id.timer = some t ∧ t.sequence = id.seq ∧ t.expiration = w := by
  constructor
  · rintro ⟨hentry, hactive⟩
    obtain ⟨hin, t, ht, hseq⟩ := (h.active _ _).mp hactive
    obtain ⟨u, hu, hkey⟩ := h.key _ hentry
    obtain rfl : t = u := Option.some.inj (ht.symm.trans hu)
    exact ⟨hin, t, ht, hseq, hkey⟩
  · rintro ⟨hin, t, ht, hseq, rfl⟩
    obtain ⟨v, hv⟩ := mem_addrs.mp hin
    exact ⟨h.entry_eq hv ht ▸ hv, (h.active _ _).mpr ⟨hin, t, ht, hseq⟩⟩

/-! ## The pending timers after each operation -/

/-- `insert` makes one more timer pending. -/
theorem pending_inserted (h : q.Owns (a :: out)) (ht : q.heap a = some t) :
    (q.inserted a t).Pending id w ↔ q.Pending id w ∨ id = ⟨a, t.sequence⟩ ∧ w = t.expiration := by
  obtain ⟨_, -, hnot⟩ := h.out_live (List.mem_cons_self ..)
  rw [(inserted_owns h ht).pending_iff, h.pending_iff, (addrs_inserted a t hnot).mem_iff, List.mem_cons]
  show _ ∧ (∃ u, q.heap id.timer = some u ∧ _) ↔ _
  constructor
  · rintro ⟨haddr | hin, u, hu, hseq, hw⟩
    · rw [haddr, ht, Option.some.injEq] at hu
      subst hu
      refine .inr ⟨?_, hw.symm⟩
      rw [← haddr, hseq]
    · exact .inl ⟨hin, u, hu, hseq, hw⟩
  · rintro (⟨hin, hu⟩ | ⟨rfl, rfl⟩)
    · exact ⟨.inr hin, hu⟩
    · exact ⟨.inl rfl, t, ht, rfl, rfl⟩

/-- A timer that is found and cancelled is pending no more. -/
theorem pending_cancelled (h : q.Owns out) (hin : .mk t.expiration a ∈ q.timers) (ht : q.heap a = some t) :
    (q.cancelled a t).Pending id w ↔ q.Pending id w ∧ id ≠ ⟨a, t.sequence⟩ := by
  have howns : (q.cancelled a t).Owns out := freed_owns (erased_owns h hin ht) ht
  rw [howns.pending_iff, h.pending_iff]
  have hperm : q.addrs.Perm (a :: (q.cancelled a t).addrs) := (OrderedSet.erase_perm hin).map Entry.addr
  have hgone : a ∉ (q.cancelled a t).addrs :=
    (List.nodup_cons.mp (hperm.nodup_iff.mp (List.nodup_append.mp h.nodup).2.1)).1
  rw [hperm.mem_iff, List.mem_cons]
  constructor
  · rintro ⟨hmem, u, hu, hseq, hw⟩
    refine ⟨⟨.inr hmem, u, (heap_freed hu).2, hseq, hw⟩, ?_⟩
    rintro rfl
    exact hgone hmem
  · rintro ⟨⟨haddr | hmem, u, hu, hseq, hw⟩, hne⟩
    · rw [haddr, ht, Option.some.injEq] at hu
      subst hu
      refine absurd ?_ hne
      rw [← haddr, hseq]
    · have hother : id.timer ≠ a := fun haddr => hgone (haddr ▸ hmem)
      exact ⟨hmem, u, (heap_freed_of_ne t hother).trans hu, hseq, hw⟩

/-- **`cancelInLoop`** takes its timer out of the pending ones. The id of a timer that is not pending is
    noted while a batch is running. -/
theorem cancelInLoop_pending (h : q.Owns out) (hr : q.cancelInLoop id = .ok q') :
    (∀ id' w, q'.Pending id' w ↔ q.Pending id' w ∧ id' ≠ id) ∧
      (∀ b ∈ out, q'.heap b = q.heap b) ∧
      ∀ x, ¬ x ∈ q.activeTimers → q.callingExpiredTimers = true →
        (x ∈ q'.cancelingTimers ↔ x ∈ q.cancelingTimers ∨ x = .mk id.timer id.seq) := by
  rcases cancelInLoop_spec h id with ⟨t, ht, hseq, hrun, howns⟩ | ⟨hout, hcase⟩
  · rw [hr, Except.ok.injEq] at hrun
    subst hrun
    have hnot : id.timer ∉ out := fun hin => (howns.live id.timer).mpr (List.mem_append_left _ hin)
      (Function.update_self ..)
    have hmem : id.timer ∈ q.addrs :=
      (List.mem_append.mp ((h.live id.timer).mp (by simp [ht]))).resolve_left hnot
    obtain ⟨v, hv⟩ := mem_addrs.mp hmem
    have hentry : Entry.mk t.expiration id.timer ∈ q.timers := h.entry_eq hv ht ▸ hv
    refine ⟨fun id' w => ?_, fun b hb => heap_freed_of_ne t fun he => hnot (he ▸ hb), fun x hx _ => ?_⟩
    · rw [pending_cancelled h hentry ht, hseq]
    · refine (or_iff_left ?_).symm
      rintro rfl
      exact hx ((h.active _ _).mpr ⟨hmem, t, ht, hseq⟩)
  · have hsame : ∀ id' w, q.Pending id' w ↔ q.Pending id' w ∧ id' ≠ id := by
      intro id' w
      refine (and_iff_left_of_imp ?_).symm
      rintro hpending rfl
      exact hout hpending.2
    rcases hcase with ⟨-, hrun⟩ | ⟨hcalling, hrun⟩
    · rw [hr, Except.ok.injEq] at hrun
      subst hrun
      refine ⟨hsame, fun _ _ => rfl, fun x _ _ => ?_⟩
      show x ∈ q.cancelingTimers.insert _ ↔ _
      rw [OrderedSet.mem_insert, or_comm]
    · rw [hr, Except.ok.injEq] at hrun
      subst hrun
      exact ⟨hsame, fun _ _ => rfl, fun x _ hcall => absurd (hcalling.symm.trans hcall) nofun⟩

/-! ## The due timers -/

/-- The entries that are due, in order. -/
def due (q : TimerQueue) (now : Timestamp) : List Entry := q.timers.elems.filter fun e => e.time ≤ now

/-- The id of an entry's timer. -/
def idOf (q : TimerQueue) (e : Entry) : TimerId := ⟨e.addr, ((q.heap e.addr).map Timer.sequence).getD 0⟩

theorem mem_due {e : Entry} : e ∈ q.due now ↔ e ∈ q.timers ∧ e.time ≤ now := by
  rw [due, List.mem_filter, decide_eq_true_eq]
  rfl

theorem idOf_eq {e : Entry} (ht : q.heap e.addr = some t) : q.idOf e = ⟨e.addr, t.sequence⟩ := by
  rw [idOf, ht]
  rfl

/-- The sentry with the greatest address is behind every entry of its time. -/
theorem Owns.lt_sentry_iff (h : q.Owns out) {e : Entry} (he : e ∈ q.timers) (now : Timestamp) :
    e < .mk now UINTPTR_MAX ↔ e.time ≤ now := by
  obtain ⟨t, ht, -⟩ := h.key e he
  have hbound : e.addr < UINTPTR_MAX := h.bound _ (by simp [ht])
  constructor
  · intro hlt
    exact Entry.time_le (le_of_lt hlt)
  · intro hle
    by_contra hge
    exact absurd (Entry.now_lt_of_sentry_le hbound (not_lt.mp hge)) (not_lt.mpr hle)

/-- **`handleRead` up to its callbacks** cuts off what is due. -/
theorem startExpired_pending (h : q.Owns out) (now : Timestamp) :
    ∃ q', q.startExpired now = .ok (q', q.due now) ∧ q'.heap = q.heap ∧ q'.cancelingTimers = .empty ∧
      ∀ id w, q'.Pending id w ↔ q.Pending id w ∧ now < w := by
  obtain ⟨act, hrun, howns⟩ := getExpired_spec h now
  have hdue : q.timers.below (.mk now UINTPTR_MAX) = q.due now :=
    List.filter_congr fun e he => by rw [decide_eq_decide]; exact h.lt_sentry_iff he now
  rw [hdue] at hrun howns
  refine ⟨{ q with
    timers := q.timers.dropBelow (.mk now UINTPTR_MAX), activeTimers := act
    callingExpiredTimers := true, cancelingTimers := .empty }, ?_, rfl, rfl, fun id w => ?_⟩
  · simp only [startExpired, hrun, ok_bind, pure_eq_ok]
  show { q with timers := q.timers.dropBelow (.mk now UINTPTR_MAX), activeTimers := act }.Pending id w ↔ _
  have hrest : ∀ v, Entry.mk v id.timer ∈ q.timers.dropBelow (.mk now UINTPTR_MAX) ↔
      Entry.mk v id.timer ∈ q.timers ∧ now < v := by
    intro v
    rw [OrderedSet.mem_dropBelow]
    refine and_congr_right fun hin => ?_
    rw [← not_lt, h.lt_sentry_iff hin, not_le]
    rfl
  rw [howns.pending_iff, h.pending_iff, mem_addrs, mem_addrs]
  constructor
  · rintro ⟨⟨v, hv⟩, t, ht, hseq, hw⟩
    obtain ⟨hin, hlt⟩ := (hrest v).mp hv
    have hvw : v = w := (Entry.mk_inj.mp (h.entry_eq hin ht)).1.trans hw
    exact ⟨⟨⟨v, hin⟩, t, ht, hseq, hw⟩, hvw ▸ hlt⟩
  · rintro ⟨⟨⟨v, hv⟩, t, ht, hseq, hw⟩, hlt⟩
    have hvw : v = w := (Entry.mk_inj.mp (h.entry_eq hv ht)).1.trans hw
    exact ⟨⟨v, (hrest v).mpr ⟨hv, hvw ▸ hlt⟩⟩, t, ht, hseq, hw⟩

/-- The callbacks that `handleRead(now)` is to start: those of the pending timers that are due, each once,
    the earlier ones first. -/
structure Fires (q : TimerQueue) (now : Timestamp) (ids : List TimerId) : Prop where
  due : ∀ id, id ∈ ids ↔ ∃ w ≤ now, q.Pending id w
  once : ids.Nodup
  ordered : ids.Pairwise fun id id' => ∀ w w', q.Pending id w → q.Pending id' w' → w ≤ w'

/-- An entry is pending under the id of its timer, with its own time. -/
theorem Owns.pending_idOf (h : q.Owns out) {e : Entry} (he : e ∈ q.timers) :
    q.Pending (q.idOf e) w ↔ w = e.time := by
  obtain ⟨t, ht, hkey⟩ := h.key e he
  rw [h.pending_iff, idOf_eq ht]
  constructor
  · rintro ⟨-, u, hu, -, rfl⟩
    rw [← hkey, Option.some.inj (ht.symm.trans hu)]
  · rintro rfl
    exact ⟨mem_addrs.mpr ⟨e.time, he⟩, t, ht, rfl, hkey⟩

theorem Owns.fires_due (h : q.Owns out) (now : Timestamp) : q.Fires now ((q.due now).map q.idOf) where
  due := by
    intro id
    rw [List.mem_map]
    constructor
    · rintro ⟨e, he, rfl⟩
      obtain ⟨hin, hle⟩ := mem_due.mp he
      exact ⟨e.time, hle, (h.pending_idOf hin).mpr rfl⟩
    · rintro ⟨w, hle, hpending⟩
      obtain ⟨hin, t, ht, hseq, rfl⟩ := h.pending_iff.mp hpending
      refine ⟨.mk t.expiration id.timer, mem_due.mpr ⟨hpending.1, hle⟩, ?_⟩
      rw [idOf_eq (e := .mk t.expiration id.timer) ht, hseq]
      rfl
  once := by
    refine List.Nodup.map_on (fun e he e' he' heq => ?_) (q.timers.nodup.filter _)
    exact List.inj_on_of_nodup_map (List.nodup_append.mp h.nodup).2.1 (mem_due.mp he).1 (mem_due.mp he').1
      (congrArg TimerId.timer heq)
  ordered := by
    rw [List.pairwise_map]
    refine (q.timers.sorted.filter _).imp_of_mem fun he he' hlt w w' hw hw' => ?_
    rw [h.pending_idOf (mem_due.mp he).1] at hw
    rw [h.pending_idOf (mem_due.mp he').1] at hw'
    rw [hw, hw']
    exact Entry.time_le (le_of_lt hlt)

/-! ## `reset` -/

/-- The timer of `id` in this entry is to be put back, with expiration `w`. -/
def Repeats (q : TimerQueue) (now : Timestamp) (e : Entry) (id : TimerId) (w : Timestamp) : Prop :=
  ∃ t, q.heap e.addr = some t ∧ id = ⟨e.addr, t.sequence⟩ ∧ t.repeat_ = true ∧
    ¬ .mk e.addr t.sequence ∈ q.cancelingTimers ∧ w = now + t.interval.microSeconds

/-- One iteration of `reset`. -/
theorem resetEntry_pending (now : Timestamp) {e : Entry} (h : q.Owns (e.addr :: out))
    (hr : q.resetEntry now e = .ok q') : q'.Owns out ∧ (∀ b, b ≠ e.addr → q'.heap b = q.heap b) ∧
      q'.cancelingTimers = q.cancelingTimers ∧
      ∀ id w, q'.Pending id w ↔ q.Pending id w ∨ q.Repeats now e id w := by
  obtain ⟨t, ht, hnot⟩ := h.out_live (List.mem_cons_self ..)
  have hderef : q.deref e.addr = .ok t := by simp [deref, ht]
  by_cases hagain : t.repeat_ ∧ ¬ ActiveTimer.mk e.addr t.sequence ∈ q.cancelingTimers
  · have hseq := t.restart_sequence now
    have hstored := store_owns h ht hseq
    obtain ⟨u, hu, hrun, howns⟩ := insert_spec hstored
    have hu' : u = t.restart now := Option.some.inj (hu.symm.trans (heap_store_self ..))
    subst hu'
    simp only [resetEntry, hderef, ok_bind, hagain, not_false_eq_true, and_self, if_true, hrun, pure_eq_ok,
      Except.ok.injEq] at hr
    subst hr
    refine ⟨howns, fun b hb => heap_store_of_ne _ hb, rfl, fun id w => ?_⟩
    have hother : ∀ b ∈ q.addrs, (q.store e.addr (t.restart now)).heap b = q.heap b := fun b hb =>
      heap_store_of_ne _ fun he => hnot (he ▸ hb)
    have hpending : (q.store e.addr (t.restart now)).Pending id w ↔ q.Pending id w := Iff.rfl
    have hexp : (t.restart now).expiration = now + t.interval.microSeconds := by
      rw [Timer.restart, if_pos hagain.1, addTime_eq]
    rw [pending_inserted hstored hu, hpending, hseq, hexp]
    refine or_congr_right ⟨?_, ?_⟩
    · rintro ⟨hid, hw⟩
      exact ⟨t, ht, hid, hagain.1, hagain.2, hw⟩
    · rintro ⟨v, hv, hid, -, -, hw⟩
      obtain rfl : t = v := Option.some.inj (ht.symm.trans hv)
      exact ⟨hid, hw⟩
  · simp only [resetEntry, hderef, ok_bind, hagain, if_false, delete_eq ht, Except.ok.injEq] at hr
    subst hr
    refine ⟨freed_owns h ht, fun b hb => heap_freed_of_ne t hb, rfl, fun id w => ?_⟩
    have hpending : (q.freed e.addr t).Pending id w ↔ q.Pending id w := Iff.rfl
    refine hpending.trans (or_iff_left ?_).symm
    rintro ⟨v, hv, -, hrepeat, hfree, -⟩
    obtain rfl : t = v := Option.some.inj (ht.symm.trans hv)
    exact hagain ⟨hrepeat, hfree⟩

/-- The loop of `reset`: what repeats and was not cancelled is pending again. -/
theorem resetEntries_pending (now : Timestamp) : ∀ {l : List Entry} {q q' : TimerQueue},
    q.Owns (l.map Entry.addr ++ out) → q.resetEntries now l = .ok q' →
    ∀ id w, q'.Pending id w ↔ q.Pending id w ∨ ∃ e ∈ l, q.Repeats now e id w
  | [], q, q', _, hr, id, w => by
    obtain rfl := Except.ok.inj hr
    simp
  | e :: rest, q, q', h, hr, id, w => by
    obtain ⟨q₁, hr₁, hr₂⟩ := bind_eq_ok.mp hr
    obtain ⟨howns, hheap, hcanceling, hpending⟩ := resetEntry_pending now h hr₁
    have hne : ∀ e' ∈ rest, e'.addr ≠ e.addr := by
      intro e' he' heq
      refine (List.nodup_cons.mp h.nodup).1 (List.mem_append_left _ (List.mem_append_left _ ?_))
      exact List.mem_map.mpr ⟨e', he', heq⟩
    -- the other entries are as they were
    have hrest : (∃ e' ∈ rest, q₁.Repeats now e' id w) ↔ ∃ e' ∈ rest, q.Repeats now e' id w := by
      refine exists_congr fun e' => and_congr_right fun he' => ?_
      unfold Repeats
      rw [hheap _ (hne e' he'), hcanceling]
    rw [resetEntries_pending now howns hr₂ id w, hpending, hrest, or_assoc]
    simp only [List.mem_cons, exists_eq_or_imp]

theorem reset_eq (expired : List Entry) :
    q.reset expired now = q.resetEntries now expired >>= fun q₁ => q₁.reset [] now := by
  simp only [reset, resetEntries, pure_eq_ok, ok_bind]

/-- What comes after the loop of `reset` only looks. -/
theorem reset_nil {rearm : Option Timestamp} (hr : q.reset [] now = .ok (q', rearm)) : q' = q := by
  simp only [reset, resetEntries, pure_eq_ok, ok_bind] at hr
  cases hmin : q.timers.min? with
  | none =>
    rw [hmin] at hr
    exact (congrArg Prod.fst (Except.ok.inj hr)).symm
  | some e =>
    rw [hmin] at hr
    obtain ⟨t, -, hr⟩ := bind_eq_ok.mp hr
    exact (congrArg Prod.fst (Except.ok.inj hr)).symm

theorem resetEntries_of_finishExpired {expired : List Entry} {rearm : Option Timestamp}
    (hr : q.finishExpired expired now = .ok (q', rearm)) :
    { q with callingExpiredTimers := false }.resetEntries now expired = .ok q' := by
  rw [finishExpired, reset_eq] at hr
  obtain ⟨q₁, hr₁, hr₂⟩ := bind_eq_ok.mp hr
  exact reset_nil hr₂ ▸ hr₁

/-- **`handleRead` after its callbacks.** -/
theorem finishExpired_pending {expired : List Entry} {rearm : Option Timestamp}
    (h : q.Owns (expired.map Entry.addr ++ out)) (hr : q.finishExpired expired now = .ok (q', rearm)) :
    ∀ id w, q'.Pending id w ↔ q.Pending id w ∨ ∃ e ∈ expired, q.Repeats now e id w := by
  intro id w
  have howns : { q with callingExpiredTimers := false }.Owns (expired.map Entry.addr ++ out) := { h with }
  exact (resetEntries_pending now howns (resetEntries_of_finishExpired hr) id w).trans Iff.rfl

end TimerQueue

namespace TimerRun

open TimerQueue

variable {s s' s₀ s₁ : TimerRun} {l : Label} {ls : List Label} {now : Timestamp} {id : TimerId} {w : Timestamp}

/-- The timers whose callbacks were started, in order. -/
def starts (s : TimerRun) : List TimerId := s.history.filterMap fun
  | .started id => some id
  | _ => none

/-- `addTimer` was called for `id` in the loop thread, with expiration `w`, and no `cancelInLoop` since. -/
def Added (s₁ : TimerRun) (ls : List Label) (id : TimerId) (w : Timestamp) : Prop :=
  ∃ before after s i, ls = before ++ .addTimer id.timer w i :: after ∧ timerQueue.exec s₁ before = .ok s ∧
    id.seq = s.numCreated + 1 ∧ .cancelInLoop id ∉ after

theorem not_added_nil : ¬ s₁.Added [] id w := by
  rintro ⟨before, after, s, i, heq, -⟩
  simp at heq

/-- One more label adds a timer, takes one away, or does neither. -/
theorem added_concat (hs : timerQueue.exec s₁ ls = .ok s) : s₁.Added (ls ++ [l]) id w ↔
    s₁.Added ls id w ∧ l ≠ .cancelInLoop id ∨
    (∃ i, l = .addTimer id.timer w i) ∧ id.seq = s.numCreated + 1 := by
  constructor
  · rintro ⟨before, after, r, i, heq, hr, hseq, hkept⟩
    rcases List.eq_nil_or_concat after with rfl | ⟨after, l', rfl⟩
    · obtain ⟨rfl, hl⟩ := List.append_inj' heq rfl
      obtain rfl : s = r := Except.ok.inj (hs.symm.trans hr)
      exact .inr ⟨⟨i, List.head_eq_of_cons_eq hl⟩, hseq⟩
    · rw [List.concat_eq_append, ← List.cons_append, ← List.append_assoc] at heq
      obtain ⟨rfl, hl⟩ := List.append_inj' heq rfl
      obtain rfl := List.head_eq_of_cons_eq hl
      rw [List.concat_eq_append, List.mem_append, List.mem_singleton, not_or] at hkept
      exact .inl ⟨⟨before, after, r, i, rfl, hr, hseq, hkept.1⟩, fun he => hkept.2 he.symm⟩
  · rintro (⟨⟨before, after, r, i, rfl, hr, hseq, hkept⟩, hl⟩ | ⟨⟨i, rfl⟩, hseq⟩)
    · refine ⟨before, after ++ [l], r, i, by simp, hr, hseq, ?_⟩
      rw [List.mem_append, List.mem_singleton, not_or]
      exact ⟨hkept, fun he => hl he.symm⟩
    · exact ⟨ls, [], s, i, rfl, hs, hseq, nofun⟩

/-- **The invariant of a running `handleRead(now)`** entered from `s₀`, with `s₁` the state before the first
    callback and `ls` the labels since. -/
structure Underway (s₀ s₁ : TimerRun) (now : Timestamp) (ls : List Label) (s : TimerRun) : Prop where
  owned : s.Owned
  /-- what was started, and what is still to start -/
  batch : ∃ next, s.batch = some ⟨now, s₀.queue.due now, next⟩ ∧
    s.starts ++ next.map s₀.queue.idOf = s₀.starts ++ (s₀.queue.due now).map s₀.queue.idOf
  heap : ∀ e ∈ s₀.queue.due now, s.queue.heap e.addr = s₀.queue.heap e.addr
  noted : ∀ e ∈ s₀.queue.due now, ∀ t, s₀.queue.heap e.addr = some t →
    (.mk e.addr t.sequence ∈ s.queue.cancelingTimers ↔ .cancelInLoop ⟨e.addr, t.sequence⟩ ∈ ls)
  pending : ∀ id w, s.queue.Pending id w ↔
    s₀.queue.Pending id w ∧ now < w ∧ .cancelInLoop id ∉ ls ∨ s₁.Added ls id w

/-- The due timers are held by the batch. -/
theorem Underway.held_eq (h : Underway s₀ s₁ now ls s) : s.held = (s₀.queue.due now).map Entry.addr := by
  obtain ⟨next, hb, -⟩ := h.batch
  rw [held, hb]

theorem Underway.mem_out (h : Underway s₀ s₁ now ls s) {e : Entry} (he : e ∈ s₀.queue.due now) :
    e.addr ∈ s.queued ++ s.held := by
  rw [h.held_eq]
  exact List.mem_append_right _ (List.mem_map_of_mem he)

theorem added_concat_other (hs : timerQueue.exec s₁ ls = .ok s) (hc : ∀ id, l ≠ .cancelInLoop id)
    (ha : ∀ a w i, l ≠ .addTimer a w i) : s₁.Added (ls ++ [l]) id w ↔ s₁.Added ls id w := by
  rw [added_concat hs]
  constructor
  · rintro (⟨hadded, -⟩ | ⟨⟨i, rfl⟩, -⟩)
    · exact hadded
    · exact absurd rfl (ha _ _ _)
  · intro hadded
    exact .inl ⟨hadded, hc id⟩

/-- A step that neither adds nor cancels, and leaves the sets as they are. -/
theorem Underway.other (h : Underway s₀ s₁ now ls s) (hs : timerQueue.exec s₁ ls = .ok s)
    (hc : ∀ id, l ≠ .cancelInLoop id) (ha : ∀ a w i, l ≠ .addTimer a w i) (howned : s'.Owned)
    (hbatch : ∃ next, s'.batch = some ⟨now, s₀.queue.due now, next⟩ ∧
      s'.starts ++ next.map s₀.queue.idOf = s₀.starts ++ (s₀.queue.due now).map s₀.queue.idOf)
    (hheap : ∀ e ∈ s₀.queue.due now, s'.queue.heap e.addr = s.queue.heap e.addr)
    (hcanceling : s'.queue.cancelingTimers = s.queue.cancelingTimers)
    (hpending : ∀ id w, s'.queue.Pending id w ↔ s.queue.Pending id w) :
    Underway s₀ s₁ now (ls ++ [l]) s' := by
  have hls : ∀ id, .cancelInLoop id ∈ ls ++ [l] ↔ .cancelInLoop id ∈ ls := by
    intro id
    rw [List.mem_append, List.mem_singleton]
    exact or_iff_left fun he => hc id he.symm
  refine ⟨howned, hbatch, fun e he => (hheap e he).trans (h.heap e he), fun e he t ht => ?_, fun id w => ?_⟩
  · rw [hcanceling, h.noted e he t ht, hls]
  · rw [hpending, h.pending, hls, added_concat_other hs hc ha]

/-- **The batch begins.** -/
theorem underway_start (h : s₀.Owned) (hs : s₀.step (.handleRead now) = .ok s₁) :
    Underway s₀ s₁ now [] s₁ := by
  have howned := owned_step h hs
  cases moves_of_step h hs with
  | handleRead _ hrun =>
    obtain ⟨q, hrun', hheap, hempty, hpending⟩ := startExpired_pending h.queue now
    rw [hrun, Except.ok.injEq, Prod.mk.injEq] at hrun'
    obtain ⟨rfl, rfl⟩ := hrun'
    refine ⟨howned, ⟨_, rfl, rfl⟩, fun e _ => congrFun hheap e.addr, fun e _ t _ => ?_, fun id w => ?_⟩
    · refine iff_of_false (fun hin => ?_) List.not_mem_nil
      replace hin := hempty ▸ hin
      exact OrderedSet.not_mem_empty _ hin
    · refine (hpending id w).trans ?_
      rw [or_iff_left not_added_nil]
      simp

/-- **One step** during the batch. -/
theorem underway_step (h : Underway s₀ s₁ now ls s) (hex : timerQueue.exec s₁ ls = .ok s)
    (hl : l ≠ .finish) (hs : s.step l = .ok s') : Underway s₀ s₁ now (ls ++ [l]) s' := by
  have howned := owned_step h.owned hs
  obtain ⟨next, hb, hstarts⟩ := h.batch
  -- a new timer is not where a timer of the batch is
  have hother : ∀ {a}, s.Fresh a → ∀ e ∈ s₀.queue.due now, e.addr ≠ a := by
    rintro _ hf e he rfl
    exact (h.owned.queue.live _).mpr (List.mem_append_left _ (h.mem_out he)) hf.1
  cases moves_of_step h.owned hs with
  | createElsewhere =>
    exact h.other hex (by simp) (by simp) howned ⟨next, hb, hstarts⟩ (fun _ _ => rfl) rfl fun _ _ => Iff.rfl
  | @addTimer a w₀ i _ hf =>
    have hnew : (s.create a w₀ i).queue.heap a = some (s.newTimer w₀ i) := heap_store_self ..
    have hls : ∀ id, .cancelInLoop id ∈ ls ++ [Label.addTimer a w₀ i] ↔ .cancelInLoop id ∈ ls := by
      intro id
      rw [List.mem_append, List.mem_singleton]
      exact or_iff_left (by simp)
    refine ⟨howned, ⟨next, hb, ?_⟩, fun e he => ?_, fun e he t ht => ?_, fun id w => ?_⟩
    · rw [← hstarts]
      simp [starts, added, create]
    · exact (heap_store_of_ne _ (hother hf e he)).trans (h.heap e he)
    · rw [hls]
      exact h.noted e he t ht
    · have hbefore : (s.create a w₀ i).queue.Pending id w ↔ s.queue.Pending id w := Iff.rfl
      show ((s.create a w₀ i).queue.inserted a (s.newTimer w₀ i)).Pending id w ↔ _
      rw [pending_inserted (create_owns h.owned hf w₀ i) hnew, hbefore, h.pending, hls, added_concat hex,
        or_assoc]
      refine or_congr_right (or_congr (and_iff_left (by simp)).symm ⟨?_, ?_⟩)
      · rintro ⟨rfl, rfl⟩
        exact ⟨⟨i, rfl⟩, rfl⟩
      · rintro ⟨⟨i', heq⟩, hseq⟩
        obtain ⟨rfl, rfl, -⟩ := Label.addTimer.inj heq
        refine ⟨?_, rfl⟩
        show id = ⟨id.timer, s.numCreated + 1⟩
        rw [← hseq]
  | queueTimer hf =>
    refine h.other hex (by simp) (by simp) howned ⟨next, hb, ?_⟩
      (fun e he => heap_store_of_ne _ (hother hf e he)) rfl fun _ _ => Iff.rfl
    rw [← hstarts]
    simp [starts, enqueued, create]
  | addTimerInLoop hidle =>
    rw [hb] at hidle
    cases hidle
  | @cancelInLoop id₀ q _ hrun =>
    obtain ⟨hpending, hheap, hnoted⟩ := cancelInLoop_pending h.owned.queue hrun
    have hls : ∀ id, .cancelInLoop id ∈ ls ++ [Label.cancelInLoop id₀] ↔
        .cancelInLoop id ∈ ls ∨ id = id₀ := by
      intro id
      rw [List.mem_append, List.mem_singleton, Label.cancelInLoop.injEq]
    refine ⟨howned, ⟨next, hb, ?_⟩, fun e he => ?_, fun e he t ht => ?_, fun id w => ?_⟩
    · rw [← hstarts]
      simp [starts, cancelledWith]
    · exact (hheap _ (h.mem_out he)).trans (h.heap e he)
    · -- a timer of the batch is in neither set
      have hout : ¬ .mk e.addr t.sequence ∈ s.queue.activeTimers := fun hin =>
        (h.owned.queue.out_live (h.mem_out he)).choose_spec.2 ((h.owned.queue.active _ _).mp hin).1
      have hcalling : s.queue.callingExpiredTimers = true := by
        rw [h.owned.calling, hb]
        rfl
      show _ ∈ q.cancelingTimers ↔ _
      rw [hnoted _ hout hcalling, h.noted e he t ht, hls, ActiveTimer.mk_inj]
      refine or_congr_right ⟨fun heq => by rw [heq.1, heq.2], ?_⟩
      rintro rfl
      exact ⟨rfl, rfl⟩
    · show q.Pending id w ↔ _
      rw [hpending, h.pending, hls, added_concat hex, not_or]
      have hnone : ¬ ((∃ i, Label.cancelInLoop id₀ = .addTimer id.timer w i) ∧ id.seq = s.numCreated + 1) := by
        rintro ⟨⟨i, heq⟩, -⟩
        cases heq
      have hne : Label.cancelInLoop id₀ ≠ .cancelInLoop id ↔ id ≠ id₀ := by
        rw [ne_eq, Label.cancelInLoop.injEq, eq_comm]
      rw [or_iff_left hnone, hne]
      tauto
  | handleRead hidle =>
    rw [hb] at hidle
    cases hidle
  | @run b e rest t hbatch hnext ht =>
    obtain rfl := Option.some.inj (hb.symm.trans hbatch)
    obtain rfl : next = e :: rest := hnext
    have he : e ∈ s₀.queue.due now := (h.owned.next _ hb).subset (List.mem_cons_self ..)
    have hid : s₀.queue.idOf e = ⟨e.addr, t.sequence⟩ := idOf_eq ((h.heap e he).symm.trans ht)
    refine h.other hex (by simp) (by simp) howned ⟨rest, rfl, ?_⟩ (fun _ _ => rfl) rfl fun _ _ => Iff.rfl
    rw [← hstarts, List.map_cons, hid]
    simp [starts, ran]
  | finish => exact absurd rfl hl

/-- The repeating timer of `id` was pending and due at `now`, and is to expire at `w` next. -/
def Again (q : TimerQueue) (now : Timestamp) (id : TimerId) (w : Timestamp) : Prop :=
  ∃ w₀ ≤ now, q.Pending id w₀ ∧
    ∃ t, q.heap id.timer = some t ∧ t.repeat_ = true ∧ w = now + t.interval.microSeconds

/-- The entries that `reset` puts back. -/
theorem Underway.repeats_iff (h : Underway s₀ s₁ now ls s) (h₀ : s₀.Owned) :
    (∃ e ∈ s₀.queue.due now, s.queue.Repeats now e id w) ↔
      Again s₀.queue now id w ∧ .cancelInLoop id ∉ ls := by
  constructor
  · rintro ⟨e, he, t, ht, rfl, hrepeat, hfree, rfl⟩
    obtain ⟨hin, hle⟩ := mem_due.mp he
    rw [h.heap e he] at ht
    have hpending : s₀.queue.Pending ⟨e.addr, t.sequence⟩ e.time :=
      idOf_eq ht ▸ (h₀.queue.pending_idOf hin).mpr rfl
    exact ⟨⟨e.time, hle, hpending, t, ht, hrepeat, rfl⟩, (h.noted e he t ht).not.mp hfree⟩
  · rintro ⟨⟨w₀, hle, hpending, t, ht, hrepeat, rfl⟩, hkept⟩
    obtain ⟨-, u, hu, hseq, rfl⟩ := h₀.queue.pending_iff.mp hpending
    obtain rfl : t = u := Option.some.inj (ht.symm.trans hu)
    have he : Entry.mk t.expiration id.timer ∈ s₀.queue.due now := mem_due.mpr ⟨hpending.1, hle⟩
    have hid : id = ⟨id.timer, t.sequence⟩ := by rw [hseq]
    refine ⟨_, he, t, (h.heap _ he).trans ht, hid, hrepeat, ?_, rfl⟩
    refine (h.noted _ he t ht).not.mpr ?_
    rw [hid] at hkept
    exact hkept

/-- **One `handleRead(now)`**, from any reachable state, with any callbacks: it starts the due timers, each
    once and in order. Pending at its end are the timers that were not due, those that were added, and the
    repeating ones that were due, a period from `now`; of all of them those that were not cancelled. -/
theorem handleRead_batch {s₂ : TimerRun} (h : timerQueue.Reachable s₀)
    (hread : s₀.step (.handleRead now) = .ok s₁) (hcallbacks : timerQueue.exec s₁ ls = .ok s)
    (hls : .finish ∉ ls) (hfinish : s.step .finish = .ok s₂) :
    (∃ ids, s₀.queue.Fires now ids ∧ s₂.starts = s₀.starts ++ ids) ∧
      ∀ id w, s₂.queue.Pending id w ↔
        s₀.queue.Pending id w ∧ now < w ∧ .cancelInLoop id ∉ ls ∨
        s₁.Added ls id w ∨
        Again s₀.queue now id w ∧ .cancelInLoop id ∉ ls := by
  have h₀ := owned_of_reachable h
  have hrun : Underway s₀ s₁ now ls s := by
    refine System.exec_invariant (S := timerQueue)
      (I := fun ls s => .finish ∉ ls → Underway s₀ s₁ now ls s) (fun _ => underway_start h₀ hread)
      (fun ls l t t' hex hI hs hmem => ?_) hcallbacks hls
    rw [List.mem_append, List.mem_singleton, not_or] at hmem
    exact underway_step (hI hmem.1) hex (fun he => hmem.2 he.symm) hs
  obtain ⟨next, hb, hstarts⟩ := hrun.batch
  cases moves_of_step hrun.owned hfinish with
  | @finish b q rearm hbatch hnext hq =>
    obtain rfl := Option.some.inj (hb.symm.trans hbatch)
    obtain rfl : next = [] := hnext
    have howns : s.queue.Owns ((s₀.queue.due now).map Entry.addr ++ s.queued) :=
      hrun.owned.queue.perm (hrun.held_eq ▸ List.perm_append_comm)
    refine ⟨⟨_, h₀.queue.fires_due now, ?_⟩, fun id w => ?_⟩
    · rw [← hstarts, List.map_nil, List.append_nil]
      rfl
    · show q.Pending id w ↔ _
      rw [finishExpired_pending howns hq, hrun.pending, hrun.repeats_iff h₀, or_assoc]

/-- Two timers are due; the first callback cancels a third timer and adds a fourth. -/
theorem handleRead_batch_sample : ∃ s₀ s₁ s₂ : TimerRun, ∃ ls, s₂.starts = [⟨10, 1⟩, ⟨20, 2⟩] ∧
    s₂.queue.timers.elems = [.mk 180 10, .mk 900 40] ∧
    (∃ ids, s₀.queue.Fires 130 ids ∧ s₂.starts = s₀.starts ++ ids) ∧
      ∀ id w, s₂.queue.Pending id w ↔
        s₀.queue.Pending id w ∧ 130 < w ∧ .cancelInLoop id ∉ ls ∨
        s₁.Added ls id w ∨
        Again s₀.queue 130 id w ∧ .cancelInLoop id ∉ ls := by
  let before : List Label := [.addTimer 10 100 ⟨true, 50⟩, .addTimer 20 120 ⟨false, 0⟩,
    .addTimer 30 500 ⟨false, 0⟩]
  let ls : List Label := [.run, .cancelInLoop ⟨30, 3⟩, .addTimer 40 900 ⟨false, 0⟩, .run]
  have hp : (timerQueue.exec start (((before ++ [.handleRead 130]) ++ ls) ++ [.finish])).toOption.map
      (fun s => decide (s.starts = [⟨10, 1⟩, ⟨20, 2⟩] ∧ s.queue.timers.elems = [.mk 180 10, .mk 900 40])) =
      some true := by decide +kernel
  cases hrun : timerQueue.exec start (((before ++ [.handleRead 130]) ++ ls) ++ [.finish]) with
  | error e =>
    rw [hrun] at hp
    cases hp
  | ok s₂ =>
    rw [hrun] at hp
    obtain ⟨hstarts, helems⟩ := of_decide_eq_true (Option.some.inj hp)
    obtain ⟨s, hs, hfinish⟩ := System.exec_concat.mp hrun
    rw [System.exec_append, bind_eq_ok] at hs
    obtain ⟨s₁, hs₁, hcallbacks⟩ := hs
    obtain ⟨s₀, hs₀, hread⟩ := System.exec_concat.mp hs₁
    have hreach : timerQueue.Reachable s₀ := System.Reach.exec (.init rfl) hs₀
    exact ⟨s₀, s₁, s₂, ls, hstarts, helems, handleRead_batch hreach hread hcallbacks (by decide) hfinish⟩

end TimerRun

end Irono
