import Mathlib.Data.Finset.Card

/-!
# `Lib.CondVar` — a condition variable and the wakeups it owes

The threads inside `wait` are in two sets: those that wait for a notification, and those that were
notified and have yet to take the mutex again. A notification moves one thread, of the scheduler's
choice, from the first set to the second. A thread can leave either set at any time: out of the first one
it is a spurious wakeup.

* `Enough cv n`: while somebody waits, at least `n` threads have been notified. With `n` the number of
  things to be had, nobody waits for a thing that no notified thread will come for: **no lost wakeup**.
* `Enough.notify`, `Enough.leave`: one more thing with one notification, one thing less with one thread
  that leaves. Threads that take a thing without having waited do no harm.
-/

namespace CondVar

/-- A condition variable over the threads `T`. -/
structure Cond (T : Type) where
  waiting : Finset T
  notified : Finset T
  disjoint : Disjoint waiting notified

namespace Cond

variable {T : Type} [DecidableEq T]

def empty : Cond T := ⟨∅, ∅, Finset.disjoint_empty_left _⟩

/-- `t` gives the mutex up, and waits for a notification. -/
def wait (cv : Cond T) (t : T) : Cond T where
  waiting := insert t cv.waiting
  notified := cv.notified.erase t
  disjoint := by
    rw [Finset.disjoint_insert_left]
    exact ⟨Finset.notMem_erase t _, cv.disjoint.mono_right (Finset.erase_subset t _)⟩

/-- `t` has the mutex again. -/
def leave (cv : Cond T) (t : T) : Cond T where
  waiting := cv.waiting.erase t
  notified := cv.notified.erase t
  disjoint := cv.disjoint.mono (Finset.erase_subset t _) (Finset.erase_subset t _)

/-- A notification reaches `who`; nobody, if there is nobody to reach. -/
def notify (cv : Cond T) : Option T → Cond T
  | none => cv
  | some t =>
    { waiting := cv.waiting.erase t
      notified := if t ∈ cv.waiting then insert t cv.notified else cv.notified
      disjoint := by
        have hrest := cv.disjoint.mono_left (Finset.erase_subset t _)
        split
        · exact Finset.disjoint_insert_right.mpr ⟨Finset.notMem_erase t _, hrest⟩
        · exact hrest }

def notifyAll (cv : Cond T) : Cond T where
  waiting := ∅
  notified := cv.waiting ∪ cv.notified
  disjoint := Finset.disjoint_empty_left _

/-- The scheduler may choose `who`: somebody who waits, if anybody does. -/
def Chooses (cv : Cond T) : Option T → Prop
  | none => cv.waiting = ∅
  | some t => t ∈ cv.waiting

instance (cv : Cond T) : (who : Option T) → Decidable (cv.Chooses who)
  | none => inferInstanceAs (Decidable (cv.waiting = ∅))
  | some t => inferInstanceAs (Decidable (t ∈ cv.waiting))

/-! ## Who is in `wait` -/

variable {cv : Cond T} {t u : T} {who : Option T}

/-- Inside `wait`, notified or not. -/
def Inside (cv : Cond T) (t : T) : Prop := t ∈ cv.waiting ∨ t ∈ cv.notified

omit [DecidableEq T] in
theorem not_inside_empty : ¬ (empty : Cond T).Inside t := by
  unfold Inside empty
  simp

/-- Only `wait` brings a thread in. -/
theorem inside_wait : (cv.wait t).Inside u ↔ u = t ∨ cv.Inside u := by
  unfold Inside wait
  by_cases hu : u = t
  · simp [hu]
  · simp [hu]

/-- Only leaving takes one out, with or without a notification. -/
theorem inside_leave : (cv.leave t).Inside u ↔ u ≠ t ∧ cv.Inside u := by
  unfold Inside leave
  rw [Finset.mem_erase, Finset.mem_erase, ← and_or_left]

/-- A notified thread is still inside. -/
theorem inside_notify : (cv.notify who).Inside u ↔ cv.Inside u := by
  cases who with
  | none => rfl
  | some t =>
    unfold Inside notify
    by_cases hu : u = t
    · subst hu
      by_cases hw : u ∈ cv.waiting
      · simp [hw]
      · simp [hw]
    · by_cases hw : t ∈ cv.waiting
      · simp [hu, hw]
      · simp [hw]

theorem inside_notifyAll : cv.notifyAll.Inside u ↔ cv.Inside u := by
  unfold Inside notifyAll
  rw [Finset.mem_union]
  simp

theorem waiting_notify_subset : (cv.notify who).waiting ⊆ cv.waiting := by
  cases who with
  | none => exact Finset.Subset.refl _
  | some t => exact Finset.erase_subset t _

/-! ## The wakeups that are owed -/

/-- While somebody waits, at least `n` threads have been notified. -/
def Enough (cv : Cond T) (n : Nat) : Prop := cv.waiting.Nonempty → n ≤ cv.notified.card

omit [DecidableEq T] in
theorem Enough.zero : cv.Enough 0 := fun _ => Nat.zero_le _

omit [DecidableEq T] in
/-- More notifications than things do no harm. -/
theorem Enough.mono {m n : Nat} (h : cv.Enough n) (hmn : m ≤ n) : cv.Enough m :=
  fun hw => hmn.trans (h hw)

omit [DecidableEq T] in
theorem Enough.of_waiting_empty {n : Nat} (h : cv.waiting = ∅) : cv.Enough n := by
  intro hw
  rw [h] at hw
  exact absurd hw Finset.not_nonempty_empty

/-- **One more thing** goes with one notification. -/
theorem Enough.notify {n : Nat} (h : cv.Enough n) (hwho : cv.Chooses who) : (cv.notify who).Enough (n + 1) := by
  cases who with
  | none => exact .of_waiting_empty hwho
  | some t =>
    have ht : t ∈ cv.waiting := hwho
    intro _
    have hcard : (insert t cv.notified).card = cv.notified.card + 1 :=
      Finset.card_insert_of_notMem (Finset.disjoint_left.mp cv.disjoint ht)
    show n + 1 ≤ (if t ∈ cv.waiting then insert t cv.notified else cv.notified).card
    rw [if_pos ht, hcard]
    exact Nat.succ_le_succ (h ⟨t, ht⟩)

/-- **One thing less** goes with one thread that leaves, whether it had been notified or not. -/
theorem Enough.leave {n : Nat} (h : cv.Enough (n + 1)) : (cv.leave t).Enough n := by
  intro hw
  have hbefore : n + 1 ≤ cv.notified.card := h (hw.mono (Finset.erase_subset t _))
  have hafter : cv.notified.card - 1 ≤ (cv.notified.erase t).card := Finset.pred_card_le_card_erase
  show n ≤ (cv.notified.erase t).card
  omega

end Cond

end CondVar
