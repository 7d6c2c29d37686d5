import Mathlib.Data.List.Perm.Basic
import Mathlib.Logic.Function.Basic
import Mathlib.Tactic

/-!
# `Lib.SharedPtr` — objects that are counted by those who hold them

A store of objects with their use counts: `make`, `copy` and `drop` are what the pointers to an object do
when they are made, copied and destroyed, and the object goes with the last of them. An address can be
taken again by a later object.

`Counted h held`: the counts are those of the list `held` of all pointers, and just the objects somebody
holds are there. Each operation has one lemma about it; what is held by others is not touched by any of them
but `write`, and not by that where the pointer is the only one (`Counted.not_mem_of_unique`).

Nothing here mentions a particular program.
-/

namespace SharedPtr

abbrev Ptr := Nat

structure Store (α : Type) where
  objects : Ptr → Option α
  useCount : Ptr → Nat

namespace Store

variable {α : Type}

def empty : Store α := ⟨fun _ => none, fun _ => 0⟩

/-- A new object at `p`, with one pointer to it. -/
def make (h : Store α) (p : Ptr) (a : α) : Store α :=
  { objects := Function.update h.objects p (some a), useCount := Function.update h.useCount p 1 }

def copy (h : Store α) (p : Ptr) : Store α := { h with useCount := Function.update h.useCount p (h.useCount p + 1) }

/-- A pointer to `p` is destroyed, and the object if it was the last. -/
def drop (h : Store α) (p : Ptr) : Store α :=
  { objects := if h.useCount p = 1 then Function.update h.objects p none else h.objects
    useCount := Function.update h.useCount p (h.useCount p - 1) }

def unique (h : Store α) (p : Ptr) : Prop := h.useCount p = 1

instance (h : Store α) (p : Ptr) : Decidable (h.unique p) := inferInstanceAs (Decidable (_ = _))

/-- The object at `p` is changed. -/
def write (h : Store α) (p : Ptr) (a : α) : Store α := { h with objects := Function.update h.objects p (some a) }

end Store

/-- `held` are all the pointers there are. -/
structure Counted {α : Type} (h : Store α) (held : List Ptr) : Prop where
  uses : ∀ p, h.useCount p = held.count p
  present : ∀ p, (h.objects p).isSome ↔ p ∈ held

namespace Counted

variable {α : Type} {h : Store α} {held held' : List Ptr} {p q : Ptr} {a : α}

theorem empty : Counted (Store.empty : Store α) [] := ⟨fun _ => rfl, fun p => by simp [Store.empty]⟩

theorem perm (hc : Counted h held) (hp : held.Perm held') : Counted h held' :=
  ⟨fun p => by rw [hc.uses, hp.count_eq], fun p => by rw [hc.present, hp.mem_iff]⟩

/-- A held pointer does not dangle. -/
theorem get (hc : Counted h held) (hp : p ∈ held) : ∃ a, h.objects p = some a :=
  Option.isSome_iff_exists.mp ((hc.present p).mpr hp)

theorem not_mem_of_none (hc : Counted h held) (hp : h.objects p = none) : p ∉ held := by
  intro hin
  obtain ⟨a, ha⟩ := hc.get hin
  rw [hp] at ha
  cases ha

/-- The use count tells whether there is another pointer. -/
theorem unique_iff (hc : Counted h (p :: held)) : h.unique p ↔ p ∉ held := by
  rw [Store.unique, hc.uses, List.count_cons_self, Nat.add_eq_right, List.count_eq_zero]

/-- A new object has one pointer. -/
theorem make (hc : Counted h held) (hp : h.objects p = none) : Counted (h.make p a) (p :: held) := by
  have hnot := hc.not_mem_of_none hp
  refine ⟨fun q => ?_, fun q => ?_⟩
  · by_cases hq : q = p
    · subst hq
      simp [Store.make, List.count_eq_zero.mpr hnot]
    · rw [List.count_cons_of_ne (Ne.symm hq), ← hc.uses]
      exact Function.update_of_ne hq _ _
  · by_cases hq : q = p
    · subst hq
      simp [Store.make]
    · rw [List.mem_cons, or_iff_right hq, ← hc.present]
      simp [Store.make, hq]

/-- Every pointer counts: `p` is held once more, -/
theorem copy (hc : Counted h held) (hp : p ∈ held) : Counted (h.copy p) (p :: held) := by
  refine ⟨fun q => ?_, fun q => ?_⟩
  · by_cases hq : q = p
    · subst hq
      simp [Store.copy, hc.uses]
    · rw [List.count_cons_of_ne (Ne.symm hq), ← hc.uses]
      exact Function.update_of_ne hq _ _
  · show (h.objects q).isSome ↔ _
    rw [hc.present, List.mem_cons]
    exact ⟨.inr, fun hq => hq.elim (fun heq => heq ▸ hp) id⟩

/-- and once less; the last one takes the object with it. -/
theorem drop (hc : Counted h (p :: held)) : Counted (h.drop p) held := by
  have hcount : h.useCount p = held.count p + 1 := by rw [hc.uses, List.count_cons_self]
  refine ⟨fun q => ?_, fun q => ?_⟩
  · by_cases hq : q = p
    · subst hq
      simp [Store.drop, hcount]
    · rw [← List.count_cons_of_ne (Ne.symm hq), ← hc.uses]
      exact Function.update_of_ne hq _ _
  · by_cases hlast : p ∈ held
    · have hne : h.useCount p ≠ 1 := by
        have hpos := List.count_pos_iff.mpr hlast
        omega
      rw [Store.drop, if_neg hne, hc.present, List.mem_cons]
      exact ⟨fun hq => hq.elim (fun heq => heq ▸ hlast) id, .inr⟩
    · have hone : h.useCount p = 1 := by rw [hcount, List.count_eq_zero.mpr hlast]
      rw [Store.drop, if_pos hone]
      by_cases hq : q = p
      · subst hq
        simp [hlast]
      · rw [← or_iff_right hq (b := q ∈ held), ← List.mem_cons, ← hc.present]
        simp [hq]

/-- An object is changed, not who holds it. -/
theorem write (hc : Counted h held) (hp : p ∈ held) : Counted (h.write p a) held := by
  refine ⟨hc.uses, fun q => ?_⟩
  by_cases hq : q = p
  · subst hq
    simpa [Store.write] using hp
  · rw [← hc.present]
    simp [Store.write, hq]

/-! ## What the others hold stays -/

theorem objects_make (hc : Counted h held) (hp : h.objects p = none) (hq : q ∈ held) :
    (h.make p a).objects q = h.objects q :=
  Function.update_of_ne (fun heq : q = p => hc.not_mem_of_none hp (heq ▸ hq)) _ _

/-- Another held pointer keeps its object. -/
theorem objects_drop (hc : Counted h (p :: held)) (hq : q ∈ held) : (h.drop p).objects q = h.objects q := by
  rw [Store.drop]
  split
  · rename_i hone
    have hnot := hc.unique_iff.mp hone
    exact Function.update_of_ne (fun heq : q = p => hnot (heq ▸ hq)) _ _
  · rfl

/-- A write to an object that nobody else holds is seen by nobody else. -/
theorem objects_write (hunique : p ∉ held) (hq : q ∈ held) : (h.write p a).objects q = h.objects q :=
  Function.update_of_ne (fun heq : q = p => hunique (heq ▸ hq)) _ _

end Counted

/-! ## Pointers held by threads -/

variable {ι β : Type} [DecidableEq ι] {l : List ι} {i : ι}

/-- What the thread `i` holds, and what the others do. -/
theorem perm_filterMap (hi : i ∈ l) (f : ι → Option β) :
    (l.filterMap f).Perm ((f i).toList ++ (l.erase i).filterMap f) := by
  have hperm := (List.perm_cons_erase hi).filterMap f
  rw [List.filterMap_cons] at hperm
  cases hv : f i with
  | none => rwa [hv] at hperm
  | some b => rwa [hv] at hperm

/-- The thread `i` changes what it holds. -/
theorem perm_filterMap_update (hl : l.Nodup) (hi : i ∈ l) (f : ι → Option β) (v : Option β) :
    (l.filterMap (Function.update f i v)).Perm (v.toList ++ (l.erase i).filterMap f) := by
  have hrest : (l.erase i).filterMap (Function.update f i v) = (l.erase i).filterMap f := by
    apply List.filterMap_congr
    intro j hj
    exact Function.update_of_ne (fun heq => hl.not_mem_erase (heq ▸ hj)) _ _
  have hperm := perm_filterMap hi (Function.update f i v)
  rwa [Function.update_self, hrest] at hperm

end SharedPtr
