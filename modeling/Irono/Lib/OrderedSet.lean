import Mathlib.Data.List.Perm.Basic
import Mathlib.Order.Defs.LinearOrder
import Mathlib.Tactic

/-!
# `Lib.OrderedSet` — finite sets kept as strictly increasing lists

The executable picture of an ordered-set container: iteration is the list, the first element is the
least, and a lower bound cuts the list in two. The order is a field, so every set that can be built is
one. Membership determines the set (`ext`), and counting goes through `size_eq_of_bij`.
-/

/-- A strictly increasing list. -/
structure OrderedSet (α : Type) [LinearOrder α] where
  elems : List α
  sorted : elems.Pairwise (· < ·)

namespace OrderedSet

variable {α : Type} [LinearOrder α]

instance : Membership α (OrderedSet α) := ⟨fun s a => a ∈ s.elems⟩

instance (a : α) (s : OrderedSet α) : Decidable (a ∈ s) := inferInstanceAs (Decidable (a ∈ s.elems))

theorem mem_def {a : α} {s : OrderedSet α} : a ∈ s ↔ a ∈ s.elems := Iff.rfl

def size (s : OrderedSet α) : Nat := s.elems.length

theorem nodup (s : OrderedSet α) : s.elems.Nodup := s.sorted.imp (fun h => ne_of_lt h)

/-- The least element. -/
def min? (s : OrderedSet α) : Option α := s.elems.head?

theorem mem_of_min? {s : OrderedSet α} {a : α} (h : s.min? = some a) : a ∈ s :=
  List.mem_of_mem_head? h

/-- Below an element there is the least one. -/
theorem exists_min?_le {s : OrderedSet α} {a : α} (h : a ∈ s) : ∃ m, s.min? = some m ∧ m ≤ a := by
  obtain ⟨elems, sorted⟩ := s
  cases elems with
  | nil => cases h
  | cons b l =>
    refine ⟨b, rfl, ?_⟩
    rcases List.mem_cons.mp h with rfl | ha
    · exact le_refl _
    · exact le_of_lt ((List.pairwise_cons.mp sorted).1 a ha)

/-! ## Construction -/

def empty : OrderedSet α := ⟨[], List.Pairwise.nil⟩

@[simp] theorem not_mem_empty (a : α) : ¬ a ∈ (empty : OrderedSet α) := by simp [mem_def, empty]

/-- Insertion into a strictly increasing list; an element already there stays. -/
def insertElem (a : α) : List α → List α
  | [] => [a]
  | b :: l => if a < b then a :: b :: l else if b < a then b :: insertElem a l else b :: l

theorem mem_insertElem {a x : α} {l : List α} : x ∈ insertElem a l ↔ x = a ∨ x ∈ l := by
  induction l with
  | nil => simp [insertElem]
  | cons b l ih =>
    simp only [insertElem]
    split
    · simp
    · split
      · simp only [List.mem_cons, ih]; tauto
      · -- `a` and `b` are equal
        have hab : a = b := le_antisymm (not_lt.mp ‹_›) (not_lt.mp ‹_›)
        subst hab; simp

theorem sorted_insertElem {a : α} {l : List α} (h : l.Pairwise (· < ·)) :
    (insertElem a l).Pairwise (· < ·) := by
  induction l with
  | nil => simp [insertElem]
  | cons b l ih =>
    obtain ⟨hb, hl⟩ := List.pairwise_cons.mp h
    simp only [insertElem]
    split
    · rename_i hab
      refine List.pairwise_cons.mpr ⟨fun x hx => ?_, h⟩
      rcases List.mem_cons.mp hx with rfl | hx
      · exact hab
      · exact hab.trans (hb x hx)
    · split
      · rename_i hba
        refine List.pairwise_cons.mpr ⟨fun x hx => ?_, ih hl⟩
        rcases mem_insertElem.mp hx with rfl | hx
        · exact hba
        · exact hb x hx
      · exact h

def insert (s : OrderedSet α) (a : α) : OrderedSet α := ⟨insertElem a s.elems, sorted_insertElem s.sorted⟩

@[simp] theorem mem_insert {s : OrderedSet α} {a x : α} : x ∈ s.insert a ↔ x = a ∨ x ∈ s :=
  mem_insertElem

def erase (s : OrderedSet α) (a : α) : OrderedSet α :=
  ⟨s.elems.filter (fun b => b ≠ a), s.sorted.filter _⟩

@[simp] theorem mem_erase {s : OrderedSet α} {a x : α} : x ∈ s.erase a ↔ x ∈ s ∧ x ≠ a := by
  simp [mem_def, erase]

/-! ## Cutting at a lower bound -/

/-- The elements below `x`, in order: the range `[begin, lower_bound(x))`. -/
def below (s : OrderedSet α) (x : α) : List α := s.elems.filter (fun b => b < x)

/-- The set without the elements below `x`. -/
def dropBelow (s : OrderedSet α) (x : α) : OrderedSet α :=
  ⟨s.elems.filter (fun b => x ≤ b), s.sorted.filter _⟩

theorem mem_below {s : OrderedSet α} {x b : α} : b ∈ s.below x ↔ b ∈ s ∧ b < x := by
  simp [below, mem_def]

@[simp] theorem mem_dropBelow {s : OrderedSet α} {x b : α} : b ∈ s.dropBelow x ↔ b ∈ s ∧ x ≤ b := by
  simp [mem_def, dropBelow]

/-- The two parts together are the set. -/
theorem below_append_dropBelow_perm (s : OrderedSet α) (x : α) :
    (s.below x ++ (s.dropBelow x).elems).Perm s.elems := by
  have hnot : (fun b => decide (x ≤ b)) = fun b => !decide (b < x) := by
    funext b; simp [← not_lt]
  simp only [below, dropBelow, hnot]
  exact List.filter_append_perm (fun b => decide (b < x)) s.elems

/-! ## Counting -/

/-- Inserting a new element puts it somewhere in the list. -/
theorem insert_perm {s : OrderedSet α} {a : α} (h : ¬ a ∈ s) : (s.insert a).elems.Perm (a :: s.elems) := by
  refine (List.perm_ext_iff_of_nodup (s.insert a).nodup (List.nodup_cons.mpr ⟨h, s.nodup⟩)).mpr ?_
  intro x
  rw [List.mem_cons]
  exact mem_insert

/-- Erasing an element takes it out of the list. -/
theorem erase_perm {s : OrderedSet α} {a : α} (h : a ∈ s) : s.elems.Perm (a :: (s.erase a).elems) := by
  have hne : ¬ a ∈ (s.erase a).elems := fun hm => (mem_erase.mp hm).2 rfl
  refine (List.perm_ext_iff_of_nodup s.nodup (List.nodup_cons.mpr ⟨hne, (s.erase a).nodup⟩)).mpr ?_
  intro x
  rw [List.mem_cons]
  by_cases hx : x = a
  · simp [hx, mem_def.mp h]
  · have := mem_erase (s := s) (a := a) (x := x)
    simp only [mem_def] at this
    simp [hx, this]

/-- Two sets whose elements correspond have the same size. -/
theorem size_eq_of_bij {β : Type} [LinearOrder β] {s : OrderedSet α} {t : OrderedSet β} (f : α → β)
    (hinj : ∀ a ∈ s.elems, ∀ b ∈ s.elems, f a = f b → a = b)
    (hmem : ∀ y, y ∈ t ↔ ∃ a ∈ s.elems, f a = y) : s.size = t.size := by
  have hnodup : (s.elems.map f).Nodup := List.Nodup.map_on hinj s.nodup
  have hperm : (s.elems.map f).Perm t.elems := by
    refine (List.perm_ext_iff_of_nodup hnodup t.nodup).mpr (fun y => ?_)
    rw [List.mem_map]
    exact (hmem y).symm
  simpa [size] using hperm.length_eq

/-! ## Iterators -/

/-- The least element above `x`. -/
def next? (s : OrderedSet α) (x : α) : Option α := (s.elems.filter (fun b => x < b)).head?

/-- What an iteration has still to come to at `it`. -/
def fromIt (s : OrderedSet α) : Option α → List α
  | none => []
  | some x => s.elems.filter (fun b => x ≤ b)

/-- All elements are at or above the head. -/
theorem filter_of_head {l : List α} (hl : l.Pairwise (· < ·)) :
    l = match l.head? with
      | none => []
      | some x => l.filter (fun b => x ≤ b) := by
  cases l with
  | nil => rfl
  | cons x l =>
    refine (List.filter_eq_self.mpr fun b hb => ?_).symm
    rcases List.mem_cons.mp hb with rfl | hb
    · simp
    · simpa using le_of_lt ((List.pairwise_cons.mp hl).1 b hb)

theorem fromIt_min? (s : OrderedSet α) : s.fromIt s.min? = s.elems := by
  have hall := filter_of_head s.sorted
  unfold min?
  cases hhead : s.elems.head? with
  | none =>
    rw [hhead] at hall
    exact hall.symm
  | some x =>
    rw [hhead] at hall
    exact hall.symm

theorem mem_of_next? {s : OrderedSet α} {x y : α} (h : s.next? x = some y) : y ∈ s :=
  List.mem_of_mem_filter (List.mem_of_mem_head? h)

/-- What is at or above `x` is `x`, and what is above it. -/
theorem filter_le_of_mem {l : List α} (hl : l.Pairwise (· < ·)) {x : α} (hx : x ∈ l) :
    l.filter (fun b => x ≤ b) = x :: l.filter (fun b => x < b) := by
  induction l with
  | nil => cases hx
  | cons y l ih =>
    obtain ⟨hy, hl⟩ := List.pairwise_cons.mp hl
    rcases List.mem_cons.mp hx with rfl | hx
    · have habove : l.filter (fun b => x ≤ b) = l.filter (fun b => x < b) := by
        apply List.filter_congr
        intro b hb
        simp [hy b hb, le_of_lt (hy b hb)]
      rw [List.filter_cons_of_pos (by simp), List.filter_cons_of_neg (by simp), habove]
    · have hlt := hy x hx
      rw [List.filter_cons_of_neg (by simpa using hlt), List.filter_cons_of_neg (by simpa using le_of_lt hlt)]
      exact ih hl hx

/-- `++it` goes to the rest. -/
theorem fromIt_of_mem {s : OrderedSet α} {x : α} (h : x ∈ s) : s.fromIt (some x) = x :: s.fromIt (s.next? x) := by
  have hrest : s.fromIt (s.next? x) = s.elems.filter (fun b => x < b) := by
    have hall := filter_of_head (s.sorted.filter (fun b => decide (x < b)))
    unfold next?
    cases hhead : (s.elems.filter (fun b => x < b)).head? with
    | none =>
      rw [hhead] at hall
      exact hall.symm
    | some y =>
      rw [hhead] at hall
      refine Eq.trans ?_ hall.symm
      show s.elems.filter (fun b => y ≤ b) = (s.elems.filter (fun b => x < b)).filter (fun b => y ≤ b)
      rw [List.filter_filter]
      have hxy : x < y := by
        have hmem := List.mem_of_mem_head? (Option.mem_def.mpr hhead)
        simpa using (List.mem_filter.mp hmem).2
      apply List.filter_congr
      intro b _
      by_cases hyb : y ≤ b
      · simp [hyb, lt_of_lt_of_le hxy hyb]
      · simp [hyb]
  rw [hrest]
  exact filter_le_of_mem s.sorted h

end OrderedSet
