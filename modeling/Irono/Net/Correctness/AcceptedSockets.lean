import Irono.Net.Acceptor

/-!
# `Net.Correctness.AcceptedSockets` — what becomes of an accepted descriptor

A descriptor below `kMaxConnections` is given to `newConnectionCallback_` or closed. One above it was to
be closed, but the `else` of `handleRead` belongs to the other `if`: nobody gets it and nobody closes it,
so it stays open for good (`overload_leaks`). The ledger's `Owns` says so for whole runs, with the
descriptors from `kMaxConnections` on as what the acceptor holds.
-/

namespace Irono

open Transition

namespace Acceptor

/-- Every accepted socket was closed or given away, once; and one with a descriptor from `kMaxConnections` on
    was closed. The sockets are numbered in the order of their `accept`. -/
def Disposed (s : Acceptor) : Prop :=
  (∀ n < s.sockets.created, s.sockets.disposals n = 1) ∧
    ∀ n connfd, s.accepted.reverse[n]? = some connfd → kMaxConnections ≤ connfd →
      some n ∈ s.sockets.closed ∧ some n ∉ s.sockets.passed

/-- The descriptors `handleRead` forgets. -/
def kept (s : Acceptor) : List Int := s.accepted.filter fun connfd => kMaxConnections ≤ connfd

variable {s s' : Acceptor} {connfd : Int}

theorem owns_dispose {held : List Int} (h : s.sockets.Owns (connfd :: held)) (hlt : connfd < kMaxConnections) :
    (s.dispose connfd).Owns held := by
  unfold dispose
  rw [if_pos hlt]
  split
  · exact h.pass
  · exact h.close

/-- **One step**: the acceptor holds what it forgets, and nothing else. -/
theorem owns_step {a : Label} (h : s.sockets.Owns s.kept) (hs : s.step a = .ok s') : s'.sockets.Owns s'.kept := by
  cases a with
  | setNewConnectionCallback =>
    obtain rfl := Except.ok.inj hs
    exact h
  | handleRead =>
    simp only [step, bind_eq_ok, pure_eq_ok, Except.ok.injEq] at hs
    obtain ⟨-, -, rfl⟩ := hs
    exact h
  | accept connfd =>
    simp only [step, bind_eq_ok] at hs
    obtain ⟨-, -, hs⟩ := hs
    split at hs
    · simp only [bind_eq_ok, enabled_eq_ok, pure_eq_ok, Except.ok.injEq] at hs
      obtain ⟨-, hfresh, rfl⟩ := hs
      have hcreate := h.create hfresh
      by_cases hlt : connfd < kMaxConnections
      · have hkept : (connfd :: s.accepted).filter (fun fd => decide (kMaxConnections ≤ fd)) = s.kept :=
          List.filter_cons_of_neg (by simpa using hlt)
        unfold kept
        rw [hkept]
        exact owns_dispose hcreate hlt
      · have hkept : (connfd :: s.accepted).filter (fun fd => decide (kMaxConnections ≤ fd)) = connfd :: s.kept :=
          List.filter_cons_of_pos (by simpa using hlt)
        unfold kept dispose
        rw [hkept, if_neg hlt]
        exact hcreate
    · obtain rfl := Except.ok.inj hs
      exact h
  | closed connfd =>
    simp only [step, bind_eq_ok, enabled_eq_ok, pure_eq_ok, Except.ok.injEq] at hs
    obtain ⟨-, ⟨n, hn, hpassed⟩, rfl⟩ := hs
    exact h.release (h.not_mem_of_passed hn hpassed)

theorem owns_of_reachable (h : acceptor.Reachable s) : s.sockets.Owns s.kept := by
  refine h.invariant (I := fun s => s.sockets.Owns s.kept) (fun s h0 => ?_) (fun _ _ _ _ hI _ hs => owns_step hI hs)
  subst h0
  exact Ledger.Owns.new

/-- **Accepted descriptors**, after any runs of `handleRead`: each was disposed of, as it should be, if and
    only if none was as large as `kMaxConnections`. -/
theorem accepted_disposed (h : acceptor.Reachable s) :
    s.Disposed ↔ ∀ connfd ∈ s.accepted, connfd < kMaxConnections := by
  have howns := owns_of_reachable h
  constructor
  · intro hdisposed connfd hin
    by_contra hge
    -- the socket behind a forgotten descriptor has no disposal
    have hkept : connfd ∈ s.kept := List.mem_filter.mpr ⟨hin, by simpa using hge⟩
    obtain ⟨n, hn⟩ := Option.isSome_iff_exists.mp (howns.isOpen connfd hkept)
    have hcount : 0 < (s.kept.filterMap s.sockets.table).count n :=
      List.count_pos_iff.mpr (List.mem_filterMap.mpr ⟨connfd, hkept, hn⟩)
    have haccount := howns.account n
    split at haccount
    · rename_i hlt
      have hone := hdisposed.1 n hlt
      omega
    · omega
  · intro hall
    have hnil : s.kept = [] := List.filter_eq_nil_iff.mpr fun connfd hin => by
      simpa using hall connfd hin
    refine ⟨fun n hlt => ?_, fun n connfd hget hge => ?_⟩
    · have haccount := howns.account n
      rwa [hnil, if_pos hlt] at haccount
    · have hin : connfd ∈ s.accepted := List.mem_reverse.mp (List.mem_of_getElem? hget)
      exact absurd (hall connfd hin) (not_lt.mpr hge)

/-- One descriptor is closed for want of a callback, one is given to it, closed by the user and given out by
    the kernel again. -/
theorem accepted_disposed_sample : ∃ s : Acceptor, s.accepted = [7, 7, 6] ∧
    (s.Disposed ↔ ∀ connfd ∈ s.accepted, connfd < kMaxConnections) := by
  obtain ⟨s, hr, hp⟩ := System.Reach.of_exec (S := acceptor)
    (l := [.handleRead, .accept 6, .accept (-1), .setNewConnectionCallback, .handleRead, .accept 7, .closed 7,
      .accept 7, .accept (-1)])
    (p := fun s => decide (s.accepted = [7, 7, 6])) (.init rfl) (by decide +kernel)
  exact ⟨s, of_decide_eq_true hp, accepted_disposed hr⟩

/-- The descriptor 20000 is accepted, and neither closed nor given away. -/
theorem overload_leaks : ∃ s : Acceptor, acceptor.Reachable s ∧ s.accepted = [20000] ∧ s.reading = false ∧
    s.sockets.closed = [] ∧ s.sockets.passed = [] ∧ s.sockets.table 20000 = some 0 ∧ ¬ s.Disposed := by
  obtain ⟨s, hr, hp⟩ := System.Reach.of_exec (S := acceptor)
    (l := [.setNewConnectionCallback, .handleRead, .accept 20000, .accept (-1)])
    (p := fun s => decide (s.accepted = [20000] ∧ s.reading = false ∧ s.sockets.created = 1 ∧
      s.sockets.closed = [] ∧
      s.sockets.passed = [] ∧ s.sockets.table 20000 = some 0)) (.init rfl) (by decide +kernel)
  obtain ⟨haccepted, hreading, hcreated, hclosed, hpassed, htable⟩ := of_decide_eq_true hp
  refine ⟨s, hr, haccepted, hreading, hclosed, hpassed, htable, fun hdisposed => ?_⟩
  have hone := hdisposed.1 0 (by rw [hcreated]; exact Nat.one_pos)
  rw [Ledger.disposals, hclosed, hpassed] at hone
  cases hone

end Acceptor

end Irono
