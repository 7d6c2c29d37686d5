import Irono.Lib.Slice
import Irono.Lib.Transition

/-!
# `Lib.Mailbox` — a first-in first-out mailbox emptied in batches

The abstract picture of a task queue whose consumer takes everything present as one **batch** and works
through it while producers keep adding. The whole history is one list, `log`; two marks cut it into what
was taken, what is left of the current batch, and what waits for the next one. The marks carry their
order as fields, so a mailbox that lost or repeated an entry cannot be built.

* `Box.split`: taken, batch and waiting always make up the log.
* `Box.done_append_batch`: taken and batch are what was in the log at the last opening, so nothing
  put in after an opening is taken before the next one.
-/

namespace Mailbox

open Transition Slice

/-- The log of everything put in, with the marks `taken ≤ cut ≤ length`. -/
structure Box (α : Type) where
  log : List α
  taken : Nat
  cut : Nat
  taken_le : taken ≤ cut
  cut_le : cut ≤ log.length

namespace Box

variable {α : Type}

def empty : Box α := ⟨[], 0, 0, le_refl _, le_refl _⟩

/-- What has been taken. -/
def done (m : Box α) : List α := slice m.log 0 m.taken

/-- What is left of the current batch. -/
def batch (m : Box α) : List α := slice m.log m.taken m.cut

/-- What waits for the next batch. -/
def waiting (m : Box α) : List α := slice m.log m.cut m.log.length

/-- What had been put in when the current batch was opened. -/
def opened (m : Box α) : List α := slice m.log 0 m.cut

theorem done_append_batch (m : Box α) : m.done ++ m.batch = m.opened :=
  slice_append_slice (Nat.zero_le _) m.taken_le

/-- **Nothing is lost, repeated or reordered.** -/
theorem split (m : Box α) : m.done ++ m.batch ++ m.waiting = m.log := by
  rw [done_append_batch, opened, waiting, slice_append_slice (Nat.zero_le _) m.cut_le]
  simp [slice]

theorem batch_eq_nil {m : Box α} : m.batch = [] ↔ m.taken = m.cut := by
  rw [← List.length_eq_zero_iff, batch, length_slice m.cut_le]
  have := m.taken_le
  omega

/-! ## The three moves -/

/-- Put an entry in. -/
def put (m : Box α) (a : α) : Box α :=
  { m with log := m.log ++ [a], cut_le := by have := m.cut_le; simp; omega }

/-- Open the next batch: everything present. -/
def openBatch (m : Box α) : Box α :=
  { m with cut := m.log.length, taken_le := m.taken_le.trans m.cut_le, cut_le := le_refl _ }

/-- Take the next entry of the batch. -/
def take (m : Box α) (h : m.taken < m.cut) : Box α := { m with taken := m.taken + 1, taken_le := h }

theorem slice_put {m : Box α} {a : α} {i j : Nat} (hj : j ≤ m.log.length) :
    slice (m.put a).log i j = slice m.log i j := by
  rcases Nat.lt_or_ge j i with hji | hij
  · simp [slice, Nat.sub_eq_zero_of_le (Nat.le_of_lt hji)]
  · rw [slice, slice, put, List.drop_append_of_le_length (by omega),
      List.take_append_of_le_length (by simp; omega)]

theorem done_put (m : Box α) (a : α) : (m.put a).done = m.done :=
  slice_put (m.taken_le.trans m.cut_le)

theorem batch_put (m : Box α) (a : α) : (m.put a).batch = m.batch := slice_put m.cut_le

theorem opened_put (m : Box α) (a : α) : (m.put a).opened = m.opened := slice_put m.cut_le

/-- What is put in waits, behind the others. -/
theorem waiting_put (m : Box α) (a : α) : (m.put a).waiting = m.waiting ++ [a] := by
  have h := m.cut_le
  simp only [waiting, put, slice, List.length_append, List.length_cons, List.length_nil]
  rw [List.drop_append_of_le_length h, List.take_of_length_le (by simp; omega),
    List.take_of_length_le (by simp)]

theorem done_openBatch (m : Box α) : m.openBatch.done = m.done := rfl

/-- All that waited is the next batch. -/
theorem batch_openBatch {m : Box α} (h : m.batch = []) : m.openBatch.batch = m.waiting := by
  rw [batch_eq_nil] at h
  simp only [batch, openBatch, waiting, h]

theorem waiting_openBatch (m : Box α) : m.openBatch.waiting = [] := slice_self _ _

theorem opened_openBatch (m : Box α) : m.openBatch.opened = m.log := by
  simp [opened, openBatch, slice]

/-- Taking moves the head of the batch to the end of what was taken. -/
theorem take_spec {m : Box α} {a : α} {rest : List α} (hb : m.batch = a :: rest) :
    ∃ h : m.taken < m.cut, (m.take h).done = m.done ++ [a] ∧ (m.take h).batch = rest ∧
      (m.take h).waiting = m.waiting ∧ (m.take h).opened = m.opened := by
  have hlt : m.taken < m.cut := by
    rcases Nat.lt_or_ge m.taken m.cut with h | h
    · exact h
    · rw [batch_eq_nil.mpr (le_antisymm m.taken_le h)] at hb; cases hb
  have hhead : slice m.log m.taken (m.taken + 1) = [a] := by
    have h := congrArg (List.take 1) hb
    rw [batch, slice, List.take_take, Nat.min_eq_left (by omega)] at h
    simpa [slice] using h
  refine ⟨hlt, ?_, ?_, rfl, rfl⟩
  · have hsplit := slice_append_slice (l := m.log) (Nat.zero_le m.taken) (Nat.le_succ m.taken)
    rw [hhead] at hsplit
    exact hsplit.symm
  · have h := congrArg (List.drop 1) hb
    rw [batch, drop_slice] at h
    simpa [batch, take] using h

end Box

/-! ## The mailbox as a system -/

/-- The moves; `openBatch` waits until the batch is used up. -/
inductive Move (α : Type) where
  | put (a : α)
  | openBatch
  | take

/-- The mailbox as a system without faults. -/
def mailbox (α : Type) : System (Box α) (Move α) Empty where
  init := fun m => m = Box.empty
  step := fun m mv => match mv with
    | .put a => .ok (m.put a)
    | .openBatch => if m.taken = m.cut then .ok m.openBatch else .error .blocked
    | .take => if h : m.taken < m.cut then .ok (m.take h) else .error .blocked

end Mailbox
