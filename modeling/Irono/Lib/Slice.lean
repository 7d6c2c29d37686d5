import Mathlib.Tactic

/-!
# `Lib.Slice` — windows of a list and in-place copies

`slice l i j` is the window `[i, j)` of `l`; `overwrite l p d` is `l` after `d` was copied to position
`p`; `resize l n z` grows (with `z`) or cuts `l` to length `n`. The lemmas say what a window shows after
a copy behind it, into its start, or after a growth. They are stated for windows that lie inside the
list, which is what a client's index invariant provides.
-/

namespace Slice

variable {α : Type}

/-- The window `[i, j)` of a list. -/
def slice (l : List α) (i j : Nat) : List α := (l.drop i).take (j - i)

/-- Copy `d` into `l` at position `p`. -/
def overwrite (l : List α) (p : Nat) (d : List α) : List α :=
  l.take p ++ d ++ l.drop (p + d.length)

/-- Set the length to `n`, filling with `z`. -/
def resize (l : List α) (n : Nat) (z : α) : List α := l.take n ++ List.replicate (n - l.length) z

theorem length_slice {l : List α} {i j : Nat} (hj : j ≤ l.length) :
    (slice l i j).length = j - i := by
  simp only [slice, List.length_take, List.length_drop]; omega

@[simp] theorem slice_self (l : List α) (i : Nat) : slice l i i = [] := by simp [slice]

theorem length_overwrite {l d : List α} {p : Nat} (h : p + d.length ≤ l.length) :
    (overwrite l p d).length = l.length := by
  simp only [overwrite, List.length_append, List.length_take, List.length_drop]; omega

theorem length_resize {l : List α} {n : Nat} {z : α} (h : l.length ≤ n) :
    (resize l n z).length = n := by
  simp only [resize, List.length_append, List.length_take, List.length_replicate]; omega

/-- A window splits at any point inside it. -/
theorem slice_append_slice {l : List α} {i m j : Nat} (him : i ≤ m) (hmj : m ≤ j) :
    slice l i m ++ slice l m j = slice l i j := by
  have hdrop : l.drop m = (l.drop i).drop (m - i) := by rw [List.drop_drop]; congr 1; omega
  have hsum : j - i = (m - i) + (j - m) := by omega
  rw [slice, slice, slice, hdrop, hsum, List.take_add]

/-- Dropping from a window moves its start. -/
theorem drop_slice {l : List α} {i j n : Nat} : (slice l i j).drop n = slice l (i + n) j := by
  rw [slice, slice, List.drop_take, List.drop_drop]; congr 1; omega

/-- A window in front of the copied range is unchanged. -/
theorem slice_overwrite_before {l d : List α} {i j p : Nat} (hj : j ≤ p) (hp : p ≤ l.length) :
    slice (overwrite l p d) i j = slice l i j := by
  rcases Nat.lt_or_ge j i with hji | hij
  · simp [slice, Nat.sub_eq_zero_of_le (Nat.le_of_lt hji)]
  · rw [slice, overwrite, List.append_assoc, List.drop_append_of_le_length (by simp; omega),
      List.take_append_of_le_length (by simp; omega), List.drop_take, List.take_take, slice]
    congr 1; omega

/-- The window of the copied range is what was copied. -/
theorem slice_overwrite_at {l d : List α} {p : Nat} (hp : p ≤ l.length) :
    slice (overwrite l p d) p (p + d.length) = d := by
  have hlen : (l.take p).length = p := by simp [hp]
  rw [slice, overwrite, List.append_assoc, List.drop_append, hlen]
  simp

/-- A window behind the copied range is unchanged. -/
theorem slice_overwrite_after {l d : List α} {i j p : Nat} (hi : p + d.length ≤ i)
    (hp : p ≤ l.length) : slice (overwrite l p d) i j = slice l i j := by
  have hlen : (l.take p ++ d).length = p + d.length := by simp [hp]
  have hdrop : (l.take p ++ d).drop i = [] := List.drop_eq_nil_of_le (by omega)
  rw [slice, overwrite, List.drop_append, hdrop, hlen, List.nil_append, List.drop_drop, slice]
  congr 2; omega

/-- Copying directly behind a window extends it. -/
theorem slice_overwrite_extend {l d : List α} {i p : Nat} (hi : i ≤ p) (hp : p ≤ l.length) :
    slice (overwrite l p d) i (p + d.length) = slice l i p ++ d := by
  rw [← slice_append_slice hi (Nat.le_add_right p d.length), slice_overwrite_before (le_refl p) hp,
    slice_overwrite_at hp]

/-- Copying directly in front of a window extends it to the front. -/
theorem slice_overwrite_front {l d : List α} {p j : Nat} (hj : p + d.length ≤ j)
    (hp : p ≤ l.length) : slice (overwrite l p d) p j = d ++ slice l (p + d.length) j := by
  rw [← slice_append_slice (Nat.le_add_right p d.length) hj, slice_overwrite_at hp,
    slice_overwrite_after (le_refl _) hp]

/-- Two copies, one behind the other, are one copy. -/
theorem overwrite_overwrite {l x y : List α} {p : Nat} (hp : p ≤ l.length) :
    overwrite (overwrite l p x) (p + x.length) y = overwrite l p (x ++ y) := by
  have hfront : (l.take p ++ x).length = p + x.length := by simp [hp]
  simp only [overwrite]
  rw [List.take_append_of_le_length (le_of_eq hfront.symm), List.take_of_length_le (le_of_eq hfront),
    List.drop_append, List.drop_of_length_le (by rw [hfront]; omega), hfront, List.nil_append, List.drop_drop,
    List.length_append]
  simp only [List.append_assoc]
  congr 4
  omega

/-- A copy into the start of an earlier one replaces that start. -/
theorem overwrite_start {l x y z : List α} {p : Nat} (hp : p ≤ l.length) (hxy : y.length = x.length) :
    overwrite (overwrite l p (x ++ z)) p y = overwrite l p (y ++ z) := by
  have hfront : (l.take p).length = p := by simp [hp]
  have hx : (l.take p ++ x).length = p + y.length := by simp [hp, hxy]
  simp only [overwrite]
  rw [List.append_assoc (l.take p), List.take_append_of_le_length (le_of_eq hfront.symm),
    List.take_of_length_le (le_of_eq hfront), ← List.append_assoc (l.take p), ← List.append_assoc (l.take p) x,
    List.append_assoc (l.take p ++ x), List.drop_append_of_le_length (le_of_eq hx.symm),
    List.drop_of_length_le (le_of_eq hx), List.nil_append]
  simp only [List.append_assoc, List.length_append, hxy]

/-- Growing a list changes no window inside it. -/
theorem slice_resize {l : List α} {i j n : Nat} {z : α} (hj : j ≤ l.length) (hn : l.length ≤ n) :
    slice (resize l n z) i j = slice l i j := by
  rcases Nat.lt_or_ge j i with hji | hij
  · simp [slice, Nat.sub_eq_zero_of_le (Nat.le_of_lt hji)]
  · rw [slice, resize, List.take_of_length_le hn, List.drop_append_of_le_length (by omega),
      List.take_append_of_le_length (by simp; omega), slice]

/-- A list that shows up again behind filling, at a window of its own length, is filling. -/
theorem take_fill_append_eq_iff {l : List α} {d : Nat} {z : α} (hd : 0 < d) :
    (List.replicate d z ++ l).take l.length = l ↔ ∀ x ∈ l, x = z := by
  obtain ⟨d, rfl⟩ := Nat.exists_eq_succ_of_ne_zero hd.ne'
  -- the window begins with `z`, so `l` does; the rest of `l` is in the same situation
  induction l with
  | nil => simp
  | cons a l ih =>
    rw [List.replicate_succ, List.cons_append, List.length_cons, List.take_succ_cons, List.cons.injEq,
      List.forall_mem_cons]
    constructor
    · rintro ⟨rfl, hrest⟩
      refine ⟨rfl, ih.mp ?_⟩
      rwa [List.replicate_succ', List.append_assoc, List.singleton_append]
    · rintro ⟨rfl, hrest⟩
      refine ⟨rfl, ?_⟩
      have hwindow := ih.mpr hrest
      rwa [List.replicate_succ', List.append_assoc, List.singleton_append] at hwindow

/-- The window that begins inside the filling in front of a list shows the list only if that is filling. -/
theorem slice_fill_eq_iff {l t : List α} {p q : Nat} {z : α} (hq : q < p) :
    slice (List.replicate p z ++ l ++ t) q (q + l.length) = l ↔ ∀ x ∈ l, x = z := by
  have hdrop : (List.replicate p z ++ l ++ t).drop q = List.replicate (p - q) z ++ l ++ t := by
    rw [List.append_assoc, List.drop_append_of_le_length (by simp; omega), List.drop_replicate,
      List.append_assoc]
  rw [slice, hdrop, Nat.add_sub_cancel_left, List.take_append_of_le_length (by simp)]
  exact take_fill_append_eq_iff (Nat.sub_pos_of_lt hq)

end Slice
