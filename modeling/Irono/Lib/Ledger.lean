import Mathlib.Data.List.Basic
import Mathlib.Tactic

/-!
# `Lib.Ledger` — resources behind reusable handles, each disposed of once

A resource is known to its users by a handle (a descriptor, an address) that the system may give to
another resource once the first is gone. The ledger numbers the resources in the order of their creation
and remembers, for each `close` and each `pass`, the resource that the handle stood for at the time:
closing a handle twice is then visible as a `close` of another resource, or of none.

`Owns l held`: the resources not yet disposed of are those behind the handles in `held`, one each, and all
others were disposed of exactly once. Each operation has one lemma about it.

Nothing here mentions a particular program.
-/

/-- The resources behind the handles `κ`. -/
structure Ledger (κ : Type) where
  /-- the open handles and their resources -/
  table : κ → Option Nat
  created : Nat
  /-- what each `close` hit -/
  closed : List (Option Nat)
  /-- what each `pass` gave away -/
  passed : List (Option Nat)

namespace Ledger

variable {κ : Type}

def new : Ledger κ := ⟨fun _ => none, 0, [], []⟩

/-- A new resource under the handle `k`. -/
def create [DecidableEq κ] (l : Ledger κ) (k : κ) : Ledger κ :=
  { l with table := Function.update l.table k (some l.created), created := l.created + 1 }

/-- `k` is closed. -/
def close [DecidableEq κ] (l : Ledger κ) (k : κ) : Ledger κ :=
  { l with table := Function.update l.table k none, closed := l.closed ++ [l.table k] }

/-- `k` is given to somebody else; it stays open. -/
def pass (l : Ledger κ) (k : κ) : Ledger κ := { l with passed := l.passed ++ [l.table k] }

/-- The one who got `k` closes it. -/
def release [DecidableEq κ] (l : Ledger κ) (k : κ) : Ledger κ := { l with table := Function.update l.table k none }

/-- How often the resource `n` was closed or given away. -/
def disposals (l : Ledger κ) (n : Nat) : Nat := l.closed.count (some n) + l.passed.count (some n)

/-- The resources not disposed of are those behind `held`. -/
structure Owns (l : Ledger κ) (held : List κ) : Prop where
  isOpen : ∀ k ∈ held, (l.table k).isSome
  account : ∀ n, l.disposals n + (held.filterMap l.table).count n = if n < l.created then 1 else 0
  /-- nothing was closed or given away but resources -/
  hits : none ∉ l.closed ++ l.passed

namespace Owns

variable {l : Ledger κ} {k : κ} {held : List κ}

theorem new : (Ledger.new : Ledger κ).Owns [] :=
  ⟨fun _ hk => absurd hk List.not_mem_nil, fun _ => by simp [Ledger.new, disposals], by simp [Ledger.new]⟩

theorem not_mem_of_closed (h : l.Owns held) (hk : l.table k = none) : k ∉ held := by
  intro hmem
  have hopen := h.isOpen k hmem
  rw [hk] at hopen
  exact absurd hopen (by simp)

/-- A handle of a resource is held once. -/
theorem not_mem_tail (h : l.Owns (k :: held)) : k ∉ held := by
  intro hmem
  obtain ⟨n, hn⟩ := Option.isSome_iff_exists.mp (h.isOpen k List.mem_cons_self)
  have haccount := h.account n
  have htail : 0 < (held.filterMap l.table).count n :=
    List.count_pos_iff.mpr (List.mem_filterMap.mpr ⟨k, hmem, hn⟩)
  rw [List.filterMap_cons_some hn, List.count_cons_self] at haccount
  split at haccount <;> omega

/-- Handles that were given away are no longer held. -/
theorem not_mem_of_passed (h : l.Owns held) {n : Nat} (hk : l.table k = some n) (hp : some n ∈ l.passed) :
    k ∉ held := by
  intro hmem
  have haccount := h.account n
  have hheld : 0 < (held.filterMap l.table).count n :=
    List.count_pos_iff.mpr (List.mem_filterMap.mpr ⟨k, hmem, hk⟩)
  have hpassed : 0 < l.passed.count (some n) := List.count_pos_iff.mpr hp
  unfold disposals at haccount
  split at haccount <;> omega

/-- What closing and giving away have in common: the resource behind `k` gets one more disposal. -/
theorem dispose (h : l.Owns (k :: held)) {l' : Ledger κ} (htable : ∀ x, x ≠ k → l'.table x = l.table x)
    (hcreated : l'.created = l.created)
    (hdisposals : ∀ n, l'.disposals n = l.disposals n + if l.table k = some n then 1 else 0)
    (hhits : none ∈ l'.closed ++ l'.passed → none ∈ l.closed ++ l.passed ∨ l.table k = none) :
    l'.Owns held := by
  have hnot := h.not_mem_tail
  have hopen := h.isOpen k List.mem_cons_self
  have hne : ∀ x ∈ held, x ≠ k := fun x hx heq => hnot (by rwa [← heq])
  have htail : held.filterMap l'.table = held.filterMap l.table :=
    List.filterMap_congr fun x hx => htable x (hne x hx)
  refine ⟨?_, ?_, ?_⟩
  · intro x hx
    rw [htable x (hne x hx)]
    exact h.isOpen x (List.mem_cons_of_mem _ hx)
  · intro n
    obtain ⟨m, hm⟩ := Option.isSome_iff_exists.mp hopen
    have haccount := h.account n
    rw [List.filterMap_cons_some hm, List.count_cons] at haccount
    rw [htail, hdisposals, hcreated, ← haccount, hm]
    simp only [Option.some.injEq, beq_iff_eq]
    omega
  · intro hnone
    rcases hhits hnone with hold | hclosed
    · exact h.hits hold
    · rw [hclosed] at hopen
      exact absurd hopen (by simp)

/-- A held resource is given away. -/
theorem pass (h : l.Owns (k :: held)) : (l.pass k).Owns held := by
  refine h.dispose (fun x _ => rfl) rfl ?_ ?_
  · intro n
    simp only [disposals, Ledger.pass, List.count_append, List.count_singleton, beq_iff_eq]
    omega
  · intro hnone
    simp only [Ledger.pass, List.mem_append, List.mem_singleton] at hnone ⊢
    tauto

variable [DecidableEq κ]

/-- A change of the table at a handle that is not held. -/
theorem filterMap_update (hk : k ∉ held) (v : Option Nat) :
    held.filterMap (Function.update l.table k v) = held.filterMap l.table := by
  apply List.filterMap_congr
  intro x hx
  exact Function.update_of_ne (fun heq => hk (by rwa [← heq])) _ _

/-- A new resource is held. -/
theorem create (h : l.Owns held) (hk : l.table k = none) : (l.create k).Owns (k :: held) := by
  have hnot := h.not_mem_of_closed hk
  refine ⟨?_, ?_, h.hits⟩
  · intro x hx
    by_cases hxk : x = k
    · subst hxk
      simp [Ledger.create]
    · rw [show (l.create k).table x = l.table x from Function.update_of_ne hxk _ _]
      exact h.isOpen x ((List.mem_cons.mp hx).resolve_left hxk)
  · intro n
    have hsome : (l.create k).table k = some l.created := Function.update_self _ _ _
    have htail : held.filterMap (l.create k).table = held.filterMap l.table := filterMap_update hnot _
    have haccount := h.account n
    rw [List.filterMap_cons_some hsome, htail, List.count_cons]
    have hdisposals : (l.create k).disposals n = l.disposals n := rfl
    have hcreated : (l.create k).created = l.created + 1 := rfl
    rw [hdisposals, hcreated]
    -- the new resource is the only one whose share changes
    by_cases hn : n = l.created
    · subst hn
      simp only [Nat.lt_irrefl, if_false] at haccount
      simp only [beq_self_eq_true, if_true, Nat.lt_succ_self]
      omega
    · have hne : ¬ l.created = n := fun heq => hn heq.symm
      have hlt : n < l.created + 1 ↔ n < l.created := by omega
      simp only [beq_iff_eq, hne, if_false, hlt]
      omega

/-- A held resource is closed. -/
theorem close (h : l.Owns (k :: held)) : (l.close k).Owns held := by
  refine h.dispose (fun x hx => Function.update_of_ne hx _ _) rfl ?_ ?_
  · intro n
    simp only [disposals, Ledger.close, List.count_append, List.count_singleton, beq_iff_eq]
    omega
  · intro hnone
    simp only [Ledger.close, List.mem_append, List.mem_singleton] at hnone ⊢
    tauto

theorem release (h : l.Owns held) (hk : k ∉ held) : (l.release k).Owns held := by
  refine ⟨?_, ?_, h.hits⟩
  · intro x hx
    have hne : x ≠ k := fun heq => hk (by rwa [← heq])
    rw [show (l.release k).table x = l.table x from Function.update_of_ne hne _ _]
    exact h.isOpen x hx
  · intro n
    rw [show held.filterMap (l.release k).table = held.filterMap l.table from filterMap_update hk _]
    exact h.account n

end Owns

end Ledger
