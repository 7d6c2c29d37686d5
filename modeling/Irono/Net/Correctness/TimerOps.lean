import Irono.Net.TimerQueue
import Mathlib.Data.List.Nodup

/-!
# `Net.Correctness.TimerOps` — the operations of the timer queue keep track of every `Timer`

The two sets hold the same timers; a timer that is in neither is held by somebody else. `Owns q out` says
so of the queue alone, with `out` the timers held elsewhere: each operation moves timers between `out`
and the sets, and `delete` takes one out of `out` for good. Each operation has one `_spec` lemma, which
also says that none of its asserts fails.
-/

namespace Irono

open Transition

namespace TimerQueue

/-- The timers of `timers_`. -/
def addrs (q : TimerQueue) : List Addr := q.timers.elems.map Entry.addr

/-- **Ownership of the timers.** The allocated timers are those in the sets and those in `out`, each in
    one place only, and the sets agree with each other and with the timers themselves. -/
structure Owns (q : TimerQueue) (out : List Addr) : Prop where
  nodup : (out ++ q.addrs).Nodup
  live : ∀ a, q.heap a ≠ none ↔ a ∈ out ++ q.addrs
  bound : ∀ a, q.heap a ≠ none → a < UINTPTR_MAX
  key : ∀ e ∈ q.timers, ∃ t, q.heap e.addr = some t ∧ t.expiration = e.time
  active : ∀ a k, .mk a k ∈ q.activeTimers ↔ a ∈ q.addrs ∧ ∃ t, q.heap a = some t ∧ t.sequence = k
  distinct : ∀ a b t u, q.heap a = some t → q.heap b = some u → t.sequence = u.sequence → a = b
  gone : ∀ a t, q.heap a = some t → t.sequence ∉ q.deleted
  deleted : q.deleted.Nodup

/-- No timer is made; each timer keeps its number until it is recorded as deleted. -/
structure Evolves (q q' : TimerQueue) : Prop where
  survives : ∀ a t, q.heap a = some t →
    (∃ t', q'.heap a = some t' ∧ t'.sequence = t.sequence) ∨ t.sequence ∈ q'.deleted
  origin : ∀ a t', q'.heap a = some t' → ∃ t, q.heap a = some t ∧ t.sequence = t'.sequence
  keeps : ∀ k ∈ q.deleted, k ∈ q'.deleted
  source : ∀ k ∈ q'.deleted, k ∈ q.deleted ∨ ∃ a t, q.heap a = some t ∧ t.sequence = k

theorem Evolves.of_same {q q' : TimerQueue} (hheap : q'.heap = q.heap) (hdel : q'.deleted = q.deleted) :
    q.Evolves q' := by
  refine ⟨fun a t h => .inl ⟨t, hheap ▸ h, rfl⟩, fun a t h => ⟨t, hheap ▸ h, rfl⟩, ?_, ?_⟩
  · intro k hk; rw [hdel]; exact hk
  · intro k hk; rw [hdel] at hk; exact .inl hk

theorem Evolves.trans {q₁ q₂ q₃ : TimerQueue} (h : q₁.Evolves q₂) (h' : q₂.Evolves q₃) :
    q₁.Evolves q₃ := by
  refine ⟨?_, ?_, fun k hk => h'.keeps k (h.keeps k hk), ?_⟩
  · intro a t ht
    rcases h.survives a t ht with ⟨t₂, ht₂, hseq⟩ | hdel
    · rw [← hseq]; exact h'.survives a t₂ ht₂
    · exact .inr (h'.keeps _ hdel)
  · intro a t₃ ht₃
    obtain ⟨t₂, ht₂, hseq⟩ := h'.origin a t₃ ht₃
    obtain ⟨t, ht, hseq'⟩ := h.origin a t₂ ht₂
    exact ⟨t, ht, hseq'.trans hseq⟩
  · intro k hk
    rcases h'.source k hk with hk | ⟨a, t₂, ht₂, hseq⟩
    · exact h.source k hk
    · obtain ⟨t, ht, hseq'⟩ := h.origin a t₂ ht₂
      exact .inr ⟨a, t, ht, hseq'.trans hseq⟩

/-! ## What ownership gives -/

variable {q : TimerQueue} {out : List Addr}

theorem new_owns : new.Owns [] := by
  constructor <;> simp [new, addrs, OrderedSet.empty, OrderedSet.mem_def]

theorem mem_addrs {a : Addr} : a ∈ q.addrs ↔ ∃ w, Entry.mk w a ∈ q.timers := by
  simp only [addrs, List.mem_map]
  constructor
  · rintro ⟨e, he, rfl⟩; exact ⟨e.time, he⟩
  · rintro ⟨w, hw⟩; exact ⟨_, hw, rfl⟩

/-- A timer of `out` is alive and in neither set. -/
theorem Owns.out_live (h : q.Owns out) {a : Addr} (ha : a ∈ out) :
    ∃ t, q.heap a = some t ∧ a ∉ q.addrs := by
  have hlive := (h.live a).mpr (List.mem_append_left _ ha)
  obtain ⟨t, ht⟩ := Option.ne_none_iff_exists'.mp hlive
  exact ⟨t, ht, fun hin => (List.nodup_append.mp h.nodup).2.2 a ha a hin rfl⟩

/-- An entry of `timers_` is determined by its timer. -/
theorem Owns.entry_eq (h : q.Owns out) {e : Entry} (he : e ∈ q.timers) {t : Timer}
    (ht : q.heap e.addr = some t) : e = .mk t.expiration e.addr := by
  obtain ⟨u, hu, hkey⟩ := h.key e he
  rw [ht, Option.some.injEq] at hu
  subst hu
  rw [hkey, Entry.mk_time_addr]

/-- The asserts on the sizes hold: entries of the two sets correspond. -/
theorem Owns.sizes (h : q.Owns out) : q.checkSizes = .ok () := by
  rw [checkSizes, require_eq_ok]
  refine OrderedSet.size_eq_of_bij
    (fun e => .mk e.addr (((q.heap e.addr).map Timer.sequence).getD 0)) ?_ ?_
  · intro e he e' he' heq
    exact List.inj_on_of_nodup_map (List.nodup_append.mp h.nodup).2.1 he he' (ActiveTimer.mk_inj.mp heq).1
  · intro x
    rw [← ActiveTimer.mk_addr_seq x, h.active, addrs, List.mem_map]
    constructor
    · rintro ⟨⟨e, he, haddr⟩, t, ht, hseq⟩
      exact ⟨e, he, by simp [haddr, ht, hseq]⟩
    · rintro ⟨e, he, heq⟩
      obtain ⟨t, ht, -⟩ := h.key e he
      obtain ⟨haddr, hseq⟩ := ActiveTimer.mk_inj.mp heq
      simp only [ht, Option.map_some, Option.getD_some] at hseq
      exact ⟨⟨e, he, haddr⟩, t, haddr ▸ ht, hseq⟩

/-- The order of `out` does not matter. -/
theorem Owns.perm (h : q.Owns out) {out' : List Addr} (hp : out'.Perm out) : q.Owns out' :=
  { h with
    nodup := (hp.append_right _).nodup_iff.mpr h.nodup
    live := fun a => (h.live a).trans (hp.append_right _).mem_iff.symm }

/-- Where the places change, only the total counts. -/
theorem Owns.live_of_perm (h : q.Owns out) {l : List Addr} (hp : l.Perm (out ++ q.addrs)) (a : Addr) :
    q.heap a ≠ none ↔ a ∈ l := (h.live a).trans hp.mem_iff.symm

/-! ## `insert` -/

/-- The queue after `insert` of the timer `t` at `a`. -/
def inserted (q : TimerQueue) (a : Addr) (t : Timer) : TimerQueue :=
  { q with
    timers := q.timers.insert (.mk t.expiration a)
    activeTimers := q.activeTimers.insert (.mk a t.sequence) }

theorem addrs_inserted (a : Addr) (t : Timer) (h : a ∉ q.addrs) :
    (q.inserted a t).addrs.Perm (a :: q.addrs) :=
  (OrderedSet.insert_perm (fun hin => h (mem_addrs.mpr ⟨_, hin⟩))).map Entry.addr

/-- `insert` takes a timer that was outside into both sets. -/
theorem inserted_owns {a : Addr} {t : Timer} (h : q.Owns (a :: out)) (ht : q.heap a = some t) :
    (q.inserted a t).Owns out := by
  obtain ⟨_, -, hnot⟩ := h.out_live (List.mem_cons_self ..)
  have hperm : (out ++ (q.inserted a t).addrs).Perm (a :: out ++ q.addrs) :=
    ((addrs_inserted a t hnot).append_left out).trans List.perm_middle
  refine { nodup := hperm.nodup_iff.mpr h.nodup, live := h.live_of_perm hperm, bound := h.bound
           key := ?_, active := ?_, distinct := h.distinct, gone := h.gone, deleted := h.deleted }
  · intro e he
    rcases OrderedSet.mem_insert.mp he with rfl | he
    · exact ⟨t, ht, rfl⟩
    · exact h.key e he
  · intro b k
    have hb : b ∈ (q.inserted a t).addrs ↔ b = a ∨ b ∈ q.addrs := by
      rw [(addrs_inserted a t hnot).mem_iff, List.mem_cons]
    rw [hb]
    show _ ∈ q.activeTimers.insert _ ↔ (b = a ∨ b ∈ q.addrs) ∧ ∃ u, q.heap b = some u ∧ u.sequence = k
    rw [OrderedSet.mem_insert, ActiveTimer.mk_inj, h.active]
    constructor
    · rintro (⟨rfl, rfl⟩ | ⟨hin, hu⟩)
      · exact ⟨.inl rfl, t, ht, rfl⟩
      · exact ⟨.inr hin, hu⟩
    · rintro ⟨rfl | hin, hu⟩
      · obtain ⟨u, hu, rfl⟩ := hu
        rw [ht, Option.some.injEq] at hu
        exact .inl ⟨rfl, by rw [hu]⟩
      · exact .inr ⟨hin, hu⟩

/-- `insert` of a timer held outside succeeds and puts it in both sets. -/
theorem insert_spec {a : Addr} (h : q.Owns (a :: out)) :
    ∃ t, q.heap a = some t ∧ q.insert a = .ok (q.inserted a t, q.earliestChanged t.expiration) ∧
      (q.inserted a t).Owns out := by
  obtain ⟨t, ht, hnot⟩ := h.out_live (List.mem_cons_self ..)
  refine ⟨t, ht, ?_, inserted_owns h ht⟩
  have hderef : q.deref a = .ok t := by simp [deref, ht]
  have htimers : ¬ Entry.mk t.expiration a ∈ q.timers := fun hin => hnot (mem_addrs.mpr ⟨_, hin⟩)
  have hactive : ¬ ActiveTimer.mk a t.sequence ∈ q.activeTimers := fun hin =>
    hnot ((h.active _ _).mp hin).1
  have hsizes : (q.inserted a t).checkSizes = .ok () := (inserted_owns h ht).sizes
  simp only [inserted] at hsizes
  simp only [insert, h.sizes, hderef, ok_bind, require_of htimers, require_of hactive, hsizes,
    pure_eq_ok, inserted]

theorem inserted_evolves (a : Addr) (t : Timer) : q.Evolves (q.inserted a t) := .of_same rfl rfl

/-! ## `delete` -/

/-- The queue after `delete` of the timer `t` at `a`. -/
def freed (q : TimerQueue) (a : Addr) (t : Timer) : TimerQueue :=
  { q with heap := Function.update q.heap a none, deleted := q.deleted ++ [t.sequence] }

theorem heap_freed_of_ne {a b : Addr} (t : Timer) (h : b ≠ a) : (q.freed a t).heap b = q.heap b :=
  Function.update_of_ne h _ _

theorem heap_freed {a b : Addr} {t u : Timer} (h : (q.freed a t).heap b = some u) :
    b ≠ a ∧ q.heap b = some u := by
  by_cases hb : b = a
  · simp [freed, hb] at h
  · exact ⟨hb, by rwa [heap_freed_of_ne t hb] at h⟩

theorem freed_evolves {a : Addr} {t : Timer} (ht : q.heap a = some t) : q.Evolves (q.freed a t) := by
  refine ⟨fun b u hu => ?_, fun b u hu => ⟨u, (heap_freed hu).2, rfl⟩, ?_, ?_⟩
  · by_cases hb : b = a
    · subst hb
      rw [ht, Option.some.injEq] at hu
      exact .inr (by simp [freed, hu])
    · exact .inl ⟨u, by rw [heap_freed_of_ne t hb]; exact hu, rfl⟩
  · intro k hk; simp [freed, hk]
  · intro k hk
    simp only [freed, List.mem_append, List.mem_singleton] at hk
    exact hk.imp_right (fun hk => ⟨a, t, ht, hk.symm⟩)

theorem delete_eq {a : Addr} {t : Timer} (ht : q.heap a = some t) : q.delete a = .ok (q.freed a t) := by
  simp [delete, ht, freed]

/-- The heap part of ownership after a `delete`, given that the sets no longer hold the timer. -/
theorem freed_owns {a : Addr} {t : Timer} (h : q.Owns (a :: out)) (ht : q.heap a = some t) :
    (q.freed a t).Owns out := by
  have hnodup : a ∉ out ++ q.addrs ∧ (out ++ q.addrs).Nodup := List.nodup_cons.mp h.nodup
  have hnot : a ∉ q.addrs := fun hin => hnodup.1 (List.mem_append_right _ hin)
  refine { nodup := hnodup.2, live := fun b => ?_, bound := fun b hb => ?_, key := fun e he => ?_
           active := fun b k => ?_, distinct := fun b c u v hb hc => ?_, gone := fun b u hb => ?_
           deleted := ?_ }
  · by_cases hb : b = a
    · subst hb
      simp only [freed, Function.update_self, ne_eq, not_true_eq_false, false_iff]
      exact hnodup.1
    · rw [heap_freed_of_ne t hb, h.live b, List.cons_append, List.mem_cons]
      exact or_iff_right hb
  · obtain ⟨u, hu⟩ := Option.ne_none_iff_exists'.mp hb
    exact h.bound b (by rw [(heap_freed hu).2]; simp)
  · have hne : e.addr ≠ a := fun heq => hnot (mem_addrs.mpr ⟨e.time, heq ▸ he⟩)
    obtain ⟨u, hu, hkey⟩ := h.key e he
    exact ⟨u, by rw [heap_freed_of_ne t hne]; exact hu, hkey⟩
  · refine (h.active b k).trans (and_congr_right fun hin => ?_)
    have hne : b ≠ a := fun heq => hnot (heq ▸ hin)
    rw [heap_freed_of_ne t hne]
  · exact h.distinct b c u v (heap_freed hb).2 (heap_freed hc).2
  · obtain ⟨hne, hu⟩ := heap_freed hb
    intro hin
    rcases List.mem_append.mp hin with hin | hin
    · exact h.gone b u hu hin
    · exact hne (h.distinct b a u t hu ht (List.mem_singleton.mp hin))
  · refine List.nodup_append.mpr ⟨h.deleted, by simp, fun k hk k' hk' heq => ?_⟩
    rw [List.mem_singleton] at hk'
    exact h.gone a t ht (hk' ▸ heq ▸ hk)

/-! ## `cancelInLoop` -/

/-- Both sets without the timer `t` at `a`. -/
def erased (q : TimerQueue) (a : Addr) (t : Timer) : TimerQueue :=
  { q with
    timers := q.timers.erase (.mk t.expiration a)
    activeTimers := q.activeTimers.erase (.mk a t.sequence) }

/-- Taking a timer out of both sets leaves it outside. -/
theorem erased_owns {a : Addr} {t : Timer} (h : q.Owns out) (hin : .mk t.expiration a ∈ q.timers)
    (ht : q.heap a = some t) : (q.erased a t).Owns (a :: out) := by
  have hperm : q.addrs.Perm (a :: (q.erased a t).addrs) := (OrderedSet.erase_perm hin).map Entry.addr
  have hplaces : (a :: out ++ (q.erased a t).addrs).Perm (out ++ q.addrs) :=
    List.perm_middle.symm.trans (hperm.symm.append_left out)
  have hnodup : a ∉ (q.erased a t).addrs :=
    (List.nodup_cons.mp (hperm.nodup_iff.mp (List.nodup_append.mp h.nodup).2.1)).1
  refine { nodup := hplaces.nodup_iff.mpr h.nodup, live := h.live_of_perm hplaces, bound := h.bound
           key := fun e he => h.key e (OrderedSet.mem_erase.mp he).1, active := fun b k => ?_
           distinct := h.distinct, gone := h.gone, deleted := h.deleted }
  show _ ∈ q.activeTimers.erase _ ↔ _
  rw [OrderedSet.mem_erase, h.active, hperm.mem_iff, List.mem_cons, ne_eq, ActiveTimer.mk_inj]
  constructor
  · rintro ⟨⟨hb, u, hu, rfl⟩, hne⟩
    refine ⟨hb.resolve_left (fun heq => hne ⟨heq, ?_⟩), u, hu, rfl⟩
    rw [heq, ht, Option.some.injEq] at hu
    rw [hu]
  · rintro ⟨hb, hu⟩
    exact ⟨⟨.inr hb, hu⟩, fun heq => hnodup (heq.1 ▸ hb)⟩

/-- The queue after `cancelInLoop` of a timer in the sets. -/
def cancelled (q : TimerQueue) (a : Addr) (t : Timer) : TimerQueue := (q.erased a t).freed a t

theorem eraseAndDelete_eq {id : TimerId} {t : Timer} (ht : q.heap id.timer = some t)
    (hseq : t.sequence = id.seq) (hin : .mk t.expiration id.timer ∈ q.timers) :
    q.eraseAndDelete id = .ok (q.cancelled id.timer t) := by
  have hderef : q.deref id.timer = .ok t := by simp [deref, ht]
  simp only [eraseAndDelete, hderef, ok_bind, require_of hin, delete, ht, pure_eq_ok, cancelled, freed,
    erased, hseq]

/-- **What `cancelInLoop` does.** It deletes the timer when the sets hold it, notes the id when a batch
    is running, and otherwise forgets it. -/
theorem cancelInLoop_spec (h : q.Owns out) (id : TimerId) :
    (∃ t, q.heap id.timer = some t ∧ t.sequence = id.seq ∧
      q.cancelInLoop id = .ok (q.cancelled id.timer t) ∧ (q.cancelled id.timer t).Owns out) ∨
    (¬ .mk id.timer id.seq ∈ q.activeTimers ∧
      (q.callingExpiredTimers = true ∧ q.cancelInLoop id =
        .ok { q with cancelingTimers := q.cancelingTimers.insert (.mk id.timer id.seq) } ∨
      q.callingExpiredTimers = false ∧ q.cancelInLoop id = .ok q)) := by
  by_cases hin : ActiveTimer.mk id.timer id.seq ∈ q.activeTimers
  · obtain ⟨haddr, t, ht, hseq⟩ := (h.active _ _).mp hin
    obtain ⟨w, hw⟩ := mem_addrs.mp haddr
    have hentry : Entry.mk t.expiration id.timer ∈ q.timers := h.entry_eq hw ht ▸ hw
    have howns : (q.cancelled id.timer t).Owns out := freed_owns (erased_owns h hentry ht) ht
    refine .inl ⟨t, ht, hseq, ?_, howns⟩
    simp only [cancelInLoop, h.sizes, ok_bind, hin, if_true, eraseAndDelete_eq ht hseq hentry,
      howns.sizes, pure_eq_ok]
  · refine .inr ⟨hin, ?_⟩
    cases hc : q.callingExpiredTimers with
    | false => exact .inr ⟨rfl, by simp [cancelInLoop, h.sizes, hin, hc]⟩
    | true =>
      have hsizes : { q with cancelingTimers := q.cancelingTimers.insert (.mk id.timer id.seq) }.checkSizes
          = .ok () := h.sizes
      simp only [hc] at hsizes
      exact .inl ⟨rfl, by simp [cancelInLoop, h.sizes, hin, hc, hsizes]⟩

/-! ## `getExpired` -/

/-- The loop over `expired` takes each of its timers out of `activeTimers_` and touches nothing else. -/
theorem eraseActive_spec : ∀ {l : List Entry} {q : TimerQueue},
    (∀ e ∈ l, ∃ t, q.heap e.addr = some t ∧ .mk e.addr t.sequence ∈ q.activeTimers) →
    (l.map Entry.addr).Nodup →
    ∃ act, q.eraseActive l = .ok { q with activeTimers := act } ∧
      ∀ x, x ∈ act ↔ x ∈ q.activeTimers ∧ (x.addr ∈ l.map Entry.addr →
        ∀ t, q.heap x.addr = some t → x.seq ≠ t.sequence)
  | [], q, _, _ => ⟨q.activeTimers, rfl, by simp⟩
  | e :: rest, q, hlive, hnodup => by
    obtain ⟨t, ht, hin⟩ := hlive e (List.mem_cons_self ..)
    obtain ⟨hne, hnodup'⟩ := List.nodup_cons.mp hnodup
    have hderef : q.deref e.addr = .ok t := by simp [deref, ht]
    let q' : TimerQueue := { q with activeTimers := q.activeTimers.erase (.mk e.addr t.sequence) }
    obtain ⟨act, hrun, hact⟩ := eraseActive_spec (l := rest) (q := q') (fun e' he' => by
      obtain ⟨u, hu, hin'⟩ := hlive e' (List.mem_cons_of_mem _ he')
      refine ⟨u, hu, OrderedSet.mem_erase.mpr ⟨hin', fun heq => hne ?_⟩⟩
      exact List.mem_map.mpr ⟨e', he', (ActiveTimer.mk_inj.mp heq).1⟩) hnodup'
    refine ⟨act, ?_, fun x => ?_⟩
    · simp only [eraseActive, hderef, ok_bind, require_of hin]
      exact hrun
    · rw [hact x, List.map_cons, List.mem_cons]
      show x ∈ q.activeTimers.erase _ ∧ _ ↔ _
      rw [OrderedSet.mem_erase, ← ActiveTimer.mk_addr_seq x, ne_eq, ActiveTimer.mk_inj,
        ActiveTimer.addr_mk, ActiveTimer.seq_mk, and_assoc]
      refine and_congr_right fun _ => ⟨fun hx hmem u hu => ?_, fun hx => ⟨fun heq => ?_, fun hmem => ?_⟩⟩
      · rcases hmem with heq | hmem
        · rw [heq, ht, Option.some.injEq] at hu
          exact fun hseq => hx.1 ⟨heq, hu ▸ hseq⟩
        · exact hx.2 hmem u hu
      · exact hx (.inl heq.1) t (heq.1 ▸ ht) heq.2
      · exact hx (.inr hmem)

/-- **`getExpired`** moves the timers due at `now` out of the sets, and no assert fails. -/
theorem getExpired_spec (h : q.Owns out) (now : Timestamp) :
    ∃ act, q.getExpired now =
        .ok ({ q with timers := q.timers.dropBelow (.mk now UINTPTR_MAX), activeTimers := act },
          q.timers.below (.mk now UINTPTR_MAX)) ∧
      { q with timers := q.timers.dropBelow (.mk now UINTPTR_MAX), activeTimers := act }.Owns
        ((q.timers.below (.mk now UINTPTR_MAX)).map Entry.addr ++ out) := by
  generalize hrest : q.timers.dropBelow (.mk now UINTPTR_MAX) = rest
  generalize hexp : q.timers.below (.mk now UINTPTR_MAX) = expired
  have hperm : (expired.map Entry.addr ++ rest.elems.map Entry.addr).Perm q.addrs := by
    rw [← List.map_append, ← hrest, ← hexp]
    exact (OrderedSet.below_append_dropBelow_perm q.timers _).map _
  have hnodup := hperm.nodup_iff.mpr (List.nodup_append.mp h.nodup).2.1
  have hdisj := (List.nodup_append.mp hnodup).2.2
  have hexpin : ∀ e ∈ expired, e ∈ q.timers := fun e he => by
    rw [← hexp] at he; exact (OrderedSet.mem_below.mp he).1
  have hrestin : ∀ e ∈ rest, e ∈ q.timers ∧ Entry.mk now UINTPTR_MAX ≤ e := fun e he => by
    rw [← hrest] at he; exact OrderedSet.mem_dropBelow.mp he
  have hbound : ∀ e ∈ q.timers, e.addr < UINTPTR_MAX := fun e he => by
    obtain ⟨t, ht, -⟩ := h.key e he
    exact h.bound _ (by simp [ht])
  have hlower : ∀ e ∈ rest.min?, now < e.time := fun e he =>
    have hin := hrestin e (OrderedSet.mem_of_min? he)
    Entry.now_lt_of_sentry_le (hbound e hin.1) hin.2
  obtain ⟨act, hrun, hact⟩ := eraseActive_spec (l := expired) (q := { q with timers := rest })
    (fun e he => by
      obtain ⟨t, ht, -⟩ := h.key e (hexpin e he)
      exact ⟨t, ht, (h.active _ _).mpr ⟨mem_addrs.mpr ⟨e.time, hexpin e he⟩, t, ht, rfl⟩⟩)
    (List.nodup_append.mp hnodup).1
  have howns : { q with timers := rest, activeTimers := act }.Owns (expired.map Entry.addr ++ out) := by
    have hplaces : (expired.map Entry.addr ++ out ++ rest.elems.map Entry.addr).Perm (out ++ q.addrs) := by
      refine (List.perm_append_comm.append_right _).trans ?_
      rw [List.append_assoc]
      exact hperm.append_left out
    refine { nodup := hplaces.nodup_iff.mpr h.nodup, live := h.live_of_perm hplaces, bound := h.bound
             key := fun e he => h.key e (hrestin e he).1, active := fun a k => ?_
             distinct := h.distinct, gone := h.gone, deleted := h.deleted }
    show _ ∈ act ↔ _ ∈ rest.elems.map Entry.addr ∧ _
    rw [hact, ActiveTimer.addr_mk, ActiveTimer.seq_mk, h.active, ← hperm.mem_iff, List.mem_append]
    constructor
    · rintro ⟨⟨hin, t, ht, hseq⟩, hnot⟩
      exact ⟨hin.resolve_left (fun hexpired => hnot hexpired t ht hseq.symm), t, ht, hseq⟩
    · rintro ⟨hin, ht⟩
      exact ⟨⟨.inr hin, ht⟩, fun hexpired => absurd rfl (hdisj a hexpired a hin)⟩
  refine ⟨act, ?_, howns⟩
  simp only [getExpired, h.sizes, ok_bind, hrest, hexp, require_of hlower, hrun, howns.sizes, pure_eq_ok]

/-! ## `reset` -/

/-- `handleRead` up to its callbacks: the due timers are out, the flag is up, the cancel set empty. -/
theorem startExpired_spec (h : q.Owns out) (now : Timestamp) :
    ∃ q' expired, q.startExpired now = .ok (q', expired) ∧ q'.Owns (expired.map Entry.addr ++ out) ∧
      q.Evolves q' ∧ q'.callingExpiredTimers = true := by
  obtain ⟨act, hrun, howns⟩ := getExpired_spec h now
  refine ⟨{ q with
    timers := q.timers.dropBelow (.mk now UINTPTR_MAX), activeTimers := act
    callingExpiredTimers := true, cancelingTimers := .empty }, _, ?_, { howns with }, .of_same rfl rfl, rfl⟩
  simp only [startExpired, hrun, ok_bind, pure_eq_ok]

/-- What `reset` leaves unchanged besides: the flag and the cancel set. -/
def SameBatch (q q' : TimerQueue) : Prop :=
  q'.callingExpiredTimers = q.callingExpiredTimers ∧ q'.cancelingTimers = q.cancelingTimers

theorem heap_store_self (a : Addr) (t : Timer) : (q.store a t).heap a = some t :=
  Function.update_self ..

theorem heap_store_of_ne {a b : Addr} (t : Timer) (h : b ≠ a) : (q.store a t).heap b = q.heap b :=
  Function.update_of_ne h _ _

/-- Rewriting a timer in place keeps every number where it is. -/
theorem sequence_store {a b : Addr} {t t' u : Timer} (ht : q.heap a = some t)
    (hseq : t'.sequence = t.sequence) (hu : (q.store a t').heap b = some u) :
    ∃ v, q.heap b = some v ∧ v.sequence = u.sequence := by
  by_cases hb : b = a
  · subst hb
    rw [heap_store_self, Option.some.injEq] at hu
    exact ⟨t, ht, hu ▸ hseq.symm⟩
  · exact ⟨u, by rwa [heap_store_of_ne t' hb] at hu, rfl⟩

/-- `restart` changes a timer outside the sets, not its number. -/
theorem store_owns {a : Addr} {t t' : Timer} (h : q.Owns (a :: out)) (ht : q.heap a = some t)
    (hseq : t'.sequence = t.sequence) : (q.store a t').Owns (a :: out) := by
  obtain ⟨_, -, hnot⟩ := h.out_live (List.mem_cons_self ..)
  have hnone : ∀ b, (q.store a t').heap b ≠ none ↔ q.heap b ≠ none := by
    intro b
    by_cases hb : b = a
    · subst hb; simp [heap_store_self, ht]
    · rw [heap_store_of_ne t' hb]
  have hother : ∀ b ∈ q.addrs, (q.store a t').heap b = q.heap b := fun b hb =>
    heap_store_of_ne t' (fun heq => hnot (heq ▸ hb))
  refine { nodup := h.nodup, live := fun b => (hnone b).trans (h.live b)
           bound := fun b hb => h.bound b ((hnone b).mp hb), key := fun e he => ?_
           active := fun b k => ?_, distinct := fun b c u v hb hc heq => ?_
           gone := fun b u hb => ?_, deleted := h.deleted }
  · obtain ⟨u, hu, hkey⟩ := h.key e he
    exact ⟨u, (hother _ (mem_addrs.mpr ⟨e.time, he⟩)).trans hu, hkey⟩
  · exact (h.active b k).trans (and_congr_right fun hin => by rw [hother b hin])
  · obtain ⟨u', hu', hequ⟩ := sequence_store ht hseq hb
    obtain ⟨v', hv', heqv⟩ := sequence_store ht hseq hc
    exact h.distinct b c u' v' hu' hv' (by rw [hequ, heqv, heq])
  · obtain ⟨u', hu', hequ⟩ := sequence_store ht hseq hb
    exact hequ ▸ h.gone b u' hu'

theorem store_evolves {a : Addr} {t t' : Timer} (ht : q.heap a = some t)
    (hseq : t'.sequence = t.sequence) : q.Evolves (q.store a t') := by
  refine ⟨fun b u hu => .inl ?_, fun b u hu => sequence_store ht hseq hu, fun k hk => hk,
    fun k hk => .inl hk⟩
  by_cases hb : b = a
  · subst hb
    rw [ht, Option.some.injEq] at hu
    exact ⟨t', heap_store_self .., hu ▸ hseq⟩
  · exact ⟨u, (heap_store_of_ne t' hb).trans hu, rfl⟩

/-- **One expired timer.** It goes back into the sets or is deleted; a cancelled one is deleted. -/
theorem resetEntry_spec (now : Timestamp) {e : Entry} (h : q.Owns (e.addr :: out)) :
    ∃ q', q.resetEntry now e = .ok q' ∧ q'.Owns out ∧ q.Evolves q' ∧ q.SameBatch q' ∧
      ∀ t, q'.heap e.addr = some t → ¬ .mk e.addr t.sequence ∈ q.cancelingTimers := by
  obtain ⟨t, ht, -⟩ := h.out_live (List.mem_cons_self ..)
  have hderef : q.deref e.addr = .ok t := by simp [deref, ht]
  by_cases hagain : t.repeat_ ∧ ¬ ActiveTimer.mk e.addr t.sequence ∈ q.cancelingTimers
  · have hseq := t.restart_sequence now
    obtain ⟨u, hu, hrun, howns⟩ := insert_spec (store_owns h ht hseq)
    refine ⟨_, ?_, howns, (store_evolves ht hseq).trans (inserted_evolves _ _), ⟨rfl, rfl⟩, ?_⟩
    · simp only [resetEntry, hderef, ok_bind, hagain, not_false_eq_true, and_self, if_true, hrun, pure_eq_ok]
    · intro v hv
      have hv' : (q.store e.addr (t.restart now)).heap e.addr = some v := hv
      rw [heap_store_self, Option.some.injEq] at hv'
      rw [← hv', hseq]
      exact hagain.2
  · refine ⟨q.freed e.addr t, ?_, freed_owns h ht, freed_evolves ht, ⟨rfl, rfl⟩, ?_⟩
    · simp only [resetEntry, hderef, ok_bind, hagain, if_false, delete_eq ht]
    · intro v hv
      simp [freed] at hv

/-- A timer that is still there after its iteration of `reset` repeats, and was restarted. -/
theorem resetEntry_heap {e : Entry} (h : q.Owns (e.addr :: out)) {now : Timestamp} {q' : TimerQueue} {u : Timer}
    (hr : q.resetEntry now e = .ok q') (hu : q'.heap e.addr = some u) :
    ∃ t, q.heap e.addr = some t ∧ t.repeat_ = true ∧ u = t.restart now := by
  obtain ⟨t, ht, -⟩ := h.out_live (List.mem_cons_self ..)
  have hderef : q.deref e.addr = .ok t := by simp [deref, ht]
  by_cases hagain : t.repeat_ ∧ ¬ ActiveTimer.mk e.addr t.sequence ∈ q.cancelingTimers
  · have hstored := store_owns h ht (t.restart_sequence now)
    obtain ⟨v, hv, hrun, -⟩ := insert_spec hstored
    simp only [resetEntry, hderef, ok_bind, hagain, not_false_eq_true, and_self, if_true, hrun, pure_eq_ok,
      Except.ok.injEq] at hr
    subst hr
    have hu' : (q.store e.addr (t.restart now)).heap e.addr = some u := hu
    rw [heap_store_self, Option.some.injEq] at hu'
    exact ⟨t, ht, hagain.1, hu'.symm⟩
  · simp only [resetEntry, hderef, ok_bind, hagain, if_false, delete_eq ht, Except.ok.injEq] at hr
    subst hr
    exact absurd rfl (heap_freed hu).1

/-- The loop of `reset`: every expired timer leaves `out`, and no cancelled one is alive after it. -/
theorem resetEntries_spec (now : Timestamp) : ∀ {l : List Entry} {q : TimerQueue},
    q.Owns (l.map Entry.addr ++ out) →
    ∃ q', q.resetEntries now l = .ok q' ∧ q'.Owns out ∧ q.Evolves q' ∧ q.SameBatch q' ∧
      ∀ e ∈ l, ∀ t, q'.heap e.addr = some t → ¬ .mk e.addr t.sequence ∈ q.cancelingTimers
  | [], q, h => ⟨q, rfl, h, .of_same rfl rfl, ⟨rfl, rfl⟩, by simp⟩
  | e :: rest, q, h => by
    obtain ⟨q₁, hrun₁, howns₁, hev₁, hsame₁, hgone₁⟩ := resetEntry_spec now h
    obtain ⟨q₂, hrun₂, howns₂, hev₂, hsame₂, hgone₂⟩ := resetEntries_spec now howns₁
    refine ⟨q₂, ?_, howns₂, hev₁.trans hev₂,
      ⟨hsame₂.1.trans hsame₁.1, hsame₂.2.trans hsame₁.2⟩, fun e' he' t ht => ?_⟩
    · simp only [resetEntries, hrun₁, ok_bind, hrun₂]
    · rcases List.mem_cons.mp he' with rfl | he'
      · obtain ⟨t₁, ht₁, hseq⟩ := hev₂.origin _ t ht
        exact hseq ▸ hgone₁ t₁ ht₁
      · rw [← hsame₁.2]; exact hgone₂ e' he' t ht

/-- `reset` leaves nothing of its batch outside. -/
theorem reset_spec {expired : List Entry} (h : q.Owns (expired.map Entry.addr ++ out))
    (now : Timestamp) :
    ∃ q' rearm, q.reset expired now = .ok (q', rearm) ∧ q'.Owns out ∧ q.Evolves q' ∧
      q.SameBatch q' ∧
      ∀ e ∈ expired, ∀ t, q'.heap e.addr = some t → ¬ .mk e.addr t.sequence ∈ q.cancelingTimers := by
  obtain ⟨q', hrun, howns, hev, hsame, hgone⟩ := resetEntries_spec now h
  cases hmin : q'.timers.min? with
  | none => exact ⟨q', none, by simp only [reset, hrun, ok_bind, hmin, pure_eq_ok], howns, hev, hsame, hgone⟩
  | some e =>
    obtain ⟨t, ht, -⟩ := howns.key e (OrderedSet.mem_of_min? hmin)
    have hderef : q'.deref e.addr = .ok t := by simp [deref, ht]
    exact ⟨q', _, by simp only [reset, hrun, ok_bind, hmin, hderef, pure_eq_ok]; rfl, howns, hev, hsame, hgone⟩

/-- `handleRead` after its callbacks. -/
theorem finishExpired_spec {expired : List Entry} (h : q.Owns (expired.map Entry.addr ++ out))
    (now : Timestamp) :
    ∃ q' rearm, q.finishExpired expired now = .ok (q', rearm) ∧ q'.Owns out ∧ q.Evolves q' ∧
      q'.callingExpiredTimers = false ∧
      ∀ e ∈ expired, ∀ t, q'.heap e.addr = some t → ¬ .mk e.addr t.sequence ∈ q.cancelingTimers := by
  have howns : { q with callingExpiredTimers := false }.Owns (expired.map Entry.addr ++ out) := { h with }
  have hev : q.Evolves { q with callingExpiredTimers := false } := .of_same rfl rfl
  obtain ⟨q', rearm, hrun, howns', hev', hsame, hgone⟩ := reset_spec howns now
  exact ⟨q', rearm, hrun, howns', hev.trans hev', hsame.1, hgone⟩

/-! ## `addTimerInLoop` -/

/-- The queue after `addTimerInLoop` of the timer `t` at `a`, and the time the timerfd is set for. -/
theorem addTimerInLoop_spec {a : Addr} (h : q.Owns (a :: out)) :
    ∃ t, q.heap a = some t ∧ (q.inserted a t).Owns out ∧
      q.addTimerInLoop a = .ok (q.inserted a t,
        if q.earliestChanged t.expiration then some t.expiration else none) := by
  obtain ⟨t, ht, hrun, howns⟩ := insert_spec h
  have hderef : (q.inserted a t).deref a = .ok t := by simp [deref, inserted, ht]
  refine ⟨t, ht, howns, ?_⟩
  cases he : q.earliestChanged t.expiration <;>
    simp [addTimerInLoop, hrun, he, hderef]

/-! ## `new Timer` -/

/-- A new timer is outside. -/
theorem new_timer_owns {a : Addr} {t : Timer} (h : q.Owns out) (ha : q.heap a = none)
    (hbound : a < UINTPTR_MAX) (halive : ∀ b u, q.heap b = some u → u.sequence ≠ t.sequence)
    (hdel : t.sequence ∉ q.deleted) : (q.store a t).Owns (a :: out) := by
  have hnot : a ∉ out ++ q.addrs := fun hin => (h.live a).mpr hin ha
  have hheap : ∀ b u, (q.store a t).heap b = some u → (b = a ∧ u = t) ∨ (b ≠ a ∧ q.heap b = some u) := by
    intro b u hb
    by_cases hba : b = a
    · subst hba
      rw [heap_store_self, Option.some.injEq] at hb
      exact .inl ⟨rfl, hb.symm⟩
    · exact .inr ⟨hba, by rwa [heap_store_of_ne t hba] at hb⟩
  have hother : ∀ b ∈ q.addrs, (q.store a t).heap b = q.heap b := fun b hb =>
    heap_store_of_ne t (fun heq => hnot (heq ▸ List.mem_append_right _ hb))
  refine { nodup := List.nodup_cons.mpr ⟨hnot, h.nodup⟩, live := fun b => ?_, bound := fun b hb => ?_
           key := fun e he => ?_, active := fun b k => ?_, distinct := fun b c u v hb hc heq => ?_
           gone := fun b u hb => ?_, deleted := h.deleted }
  · show _ ↔ b ∈ a :: (out ++ q.addrs)
    rw [List.mem_cons, ← h.live b]
    by_cases hba : b = a
    · subst hba; simp [heap_store_self]
    · rw [heap_store_of_ne t hba]; simp [hba]
  · by_cases hba : b = a
    · exact hba ▸ hbound
    · exact h.bound b (by rwa [heap_store_of_ne t hba] at hb)
  · obtain ⟨u, hu, hkey⟩ := h.key e he
    exact ⟨u, (hother _ (mem_addrs.mpr ⟨e.time, he⟩)).trans hu, hkey⟩
  · exact (h.active b k).trans (and_congr_right fun hin => by rw [hother b hin])
  · rcases hheap b u hb with ⟨rfl, rfl⟩ | ⟨-, hb'⟩ <;> rcases hheap c v hc with ⟨rfl, rfl⟩ | ⟨-, hc'⟩
    · rfl
    · exact absurd heq.symm (halive c v hc')
    · exact absurd heq (halive b u hb')
    · exact h.distinct b c u v hb' hc' heq
  · rcases hheap b u hb with ⟨rfl, rfl⟩ | ⟨-, hb⟩
    · exact hdel
    · exact h.gone b u hb

/-- The timer an id was made for exists. -/
def Alive (q : TimerQueue) (id : TimerId) : Prop := ∃ t, q.heap id.timer = some t ∧ t.sequence = id.seq

theorem Evolves.alive {q q' : TimerQueue} (h : q.Evolves q') {id : TimerId} (ha : q'.Alive id) :
    q.Alive id := by
  obtain ⟨t', ht', hseq⟩ := ha
  obtain ⟨t, ht, hseq'⟩ := h.origin _ t' ht'
  exact ⟨t, ht, hseq'.trans hseq⟩

end TimerQueue

end Irono
