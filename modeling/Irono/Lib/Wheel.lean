import Mathlib.Tactic

/-!
# `Lib.Wheel` — a rotating row of sets

A wheel is a row of buckets, each a list without repetitions. An element is put into the first bucket; a
turn takes the last bucket away and puts an empty one in front. An element may be in several buckets: its
**age** is the place of the first of them, so a put makes it young again without removing it anywhere, and
`holders` counts the buckets it is in.

* `age_put`, `age_turn`: what the two moves do to the age.
* `age_eq_none`: no age, no holder.
* `holders_put`, `holders_turn`: what they do to the number of holders.
* `holders_of_last`: an element whose first bucket is the last one has no other holder.
-/

namespace Wheel

variable {α : Type} [DecidableEq α]

/-- The place of the first bucket that holds `a`. -/
def age (w : List (List α)) (a : α) : Option Nat := w.findIdx? (decide <| a ∈ ·)

/-- The number of buckets that hold `a`. -/
def holders (w : List (List α)) (a : α) : Nat := w.countP (decide <| a ∈ ·)

/-- Put `a` into the first bucket, if it is not there. -/
def put (w : List (List α)) (a : α) : List (List α) :=
  match w with
  | [] => []
  | bucket :: w => (if a ∈ bucket then bucket else a :: bucket) :: w

/-- The last bucket goes, an empty one comes. -/
def turn (w : List (List α)) : List (List α) := [] :: w.dropLast

variable {w : List (List α)} {a b : α}

/-! ## Put -/

theorem length_put (w : List (List α)) (a : α) : (put w a).length = w.length := by
  cases w <;> rfl

theorem nodup_put (h : ∀ bucket ∈ w, bucket.Nodup) (a : α) : ∀ bucket ∈ put w a, bucket.Nodup := by
  cases w with
  | nil => exact h
  | cons bucket w =>
    obtain ⟨hfirst, hrest⟩ := List.forall_mem_cons.mp h
    refine List.forall_mem_cons.mpr ⟨?_, hrest⟩
    split
    · exact hfirst
    · rename_i hnew
      exact List.nodup_cons.mpr ⟨hnew, hfirst⟩

theorem age_cons_eq_zero {bucket : List α} : age (bucket :: w) a = some 0 ↔ a ∈ bucket := by
  unfold age
  rw [List.findIdx?_cons]
  split
  · rename_i ha
    exact ⟨fun _ => of_decide_eq_true ha, fun _ => rfl⟩
  · rename_i ha
    rw [decide_eq_true_eq] at ha
    refine ⟨fun hzero => ?_, fun hmem => absurd hmem ha⟩
    obtain ⟨n, -, hn⟩ := Option.map_eq_some_iff.mp hzero
    exact absurd hn (Nat.succ_ne_zero n)

/-- What is put in is young again. -/
theorem age_put_self (h : w ≠ []) : age (put w a) a = some 0 := by
  cases w with
  | nil => exact absurd rfl h
  | cons bucket w =>
    refine age_cons_eq_zero.mpr ?_
    split
    · assumption
    · exact List.mem_cons_self

theorem mem_put_first {bucket : List α} (hab : b ≠ a) :
    b ∈ (if a ∈ bucket then bucket else a :: bucket) ↔ b ∈ bucket := by
  split
  · exact Iff.rfl
  · rw [List.mem_cons]
    exact or_iff_right hab

/-- The others are as old as before. -/
theorem age_put_of_ne (w : List (List α)) (hab : b ≠ a) : age (put w a) b = age w b := by
  cases w with
  | nil => rfl
  | cons bucket w =>
    unfold age put
    rw [List.findIdx?_cons, List.findIdx?_cons]
    simp only [mem_put_first hab]

/-- It has one holder more, unless the first bucket had it. -/
theorem holders_put_self {bucket : List α} :
    holders (put (bucket :: w) a) a = holders (bucket :: w) a + if a ∈ bucket then 0 else 1 := by
  unfold holders put
  rw [List.countP_cons, List.countP_cons]
  by_cases ha : a ∈ bucket
  · simp [ha]
  · simp [ha]

theorem holders_put_of_ne (w : List (List α)) (hab : b ≠ a) : holders (put w a) b = holders w b := by
  cases w with
  | nil => rfl
  | cons bucket w =>
    unfold holders put
    rw [List.countP_cons, List.countP_cons]
    simp only [mem_put_first hab]

/-! ## Turn -/

omit [DecidableEq α] in
theorem length_turn (h : w ≠ []) : (turn w).length = w.length := by
  have hpos := List.length_pos_iff.mpr h
  rw [turn, List.length_cons, List.length_dropLast]
  omega

omit [DecidableEq α] in
theorem nodup_turn (h : ∀ bucket ∈ w, bucket.Nodup) : ∀ bucket ∈ turn w, bucket.Nodup :=
  List.forall_mem_cons.mpr ⟨List.nodup_nil, fun bucket hb => h bucket (List.mem_of_mem_dropLast hb)⟩

/-- The age in a row whose last bucket is set apart. -/
theorem age_concat (w : List (List α)) (last : List α) (a : α) :
    age (w ++ [last]) a = (age w a).or (if a ∈ last then some w.length else none) := by
  unfold age
  rw [List.findIdx?_append, List.findIdx?_cons, List.findIdx?_nil]
  by_cases ha : a ∈ last
  · simp [ha]
  · simp [ha]

theorem age_lt {n : Nat} (h : age w a = some n) : n < w.length := by
  obtain ⟨hlt, -⟩ := List.findIdx?_eq_some_iff_getElem.mp h
  exact hlt

theorem age_eq_none : age w a = none ↔ holders w a = 0 := by
  unfold age holders
  rw [List.findIdx?_eq_none_iff, List.countP_eq_zero]
  simp

/-- **A turn makes everything older by one**; what would be as old as the row is long is gone. -/
theorem age_turn (h : w ≠ []) (a : α) :
    age (turn w) a = if age w a = some (w.length - 1) then none else (age w a).map (· + 1) := by
  have hturn : age (turn w) a = (age w.dropLast a).map (· + 1) := by
    unfold age turn
    rw [List.findIdx?_cons, if_neg (by simp)]
  obtain ⟨init, last, rfl⟩ : ∃ init last, w = init ++ [last] := ⟨_, _, (List.dropLast_append_getLast h).symm⟩
  rw [hturn, List.dropLast_concat, age_concat, List.length_append, List.length_singleton, Nat.add_sub_cancel]
  cases hage : age init a with
  | none =>
    rw [Option.none_or]
    split
    · rw [if_pos rfl]
      rfl
    · rw [if_neg (by simp)]
  | some n =>
    have hlt := age_lt hage
    rw [Option.some_or, if_neg]
    rw [Option.some.injEq]
    exact Nat.ne_of_lt hlt

/-- A turn takes one holder from each element of the last bucket. -/
theorem holders_turn {last : List α} (h : w.getLast? = some last) (a : α) :
    holders (turn w) a = holders w a - if a ∈ last then 1 else 0 := by
  obtain ⟨init, rfl⟩ := List.getLast?_eq_some_iff.mp h
  unfold holders turn
  rw [List.countP_cons, if_neg (by simp), List.dropLast_concat, List.countP_append, List.countP_singleton]
  by_cases ha : a ∈ last
  · simp [ha]
  · simp [ha]

/-- **The last holder**: of the elements of the last bucket, those that are in no other. -/
theorem holders_of_last {last : List α} (h : w.getLast? = some last) (ha : a ∈ last) :
    holders w a ≤ 1 ↔ age w a = some (w.length - 1) := by
  obtain ⟨init, rfl⟩ := List.getLast?_eq_some_iff.mp h
  rw [age_concat, if_pos ha, List.length_append, List.length_singleton, Nat.add_sub_cancel]
  have hholders : holders (init ++ [last]) a = holders init a + 1 := by
    unfold holders
    rw [List.countP_append, List.countP_singleton, if_pos (decide_eq_true ha)]
  rw [hholders]
  cases hage : age init a with
  | none =>
    rw [age_eq_none.mp hage]
    simp
  | some n =>
    have hlt := age_lt hage
    have hpos : holders init a ≠ 0 := fun hzero => by
      rw [age_eq_none.mpr hzero] at hage
      cases hage
    rw [Option.some_or, Option.some.injEq]
    omega

/-- An element with the age of the last bucket is in it. -/
theorem mem_last {last : List α} (h : w.getLast? = some last) (hage : age w a = some (w.length - 1)) : a ∈ last := by
  obtain ⟨init, rfl⟩ := List.getLast?_eq_some_iff.mp h
  by_contra ha
  rw [age_concat, if_neg ha, Option.or_none, List.length_append, List.length_singleton, Nat.add_sub_cancel] at hage
  exact absurd (age_lt hage) (Nat.lt_irrefl _)

end Wheel
