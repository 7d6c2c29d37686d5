import Mathlib.Tactic

/-!
# `Lib.Transition` — guarded steps, runs, invariants and forward simulation

A system is a set of initial states and a **step function** `σ → α → Result φ σ`: all the
nondeterminism sits in the label `α` (which party moves, what the environment answers), so a step is a
plain function and a concrete run can be evaluated.

* `Result`: a step either yields a value, is `blocked` (the label is not possible here), or stops the
  run with a `fault` (a failed assertion, an abort).
* `System.Reach S C`: the states reached by steps that all meet the condition `C`; `Reachable` is the
  unconditional case.
* `Reach.invariant`: the induction over a run, packaged once.
* `Simulation`: one system's steps are matched by another's, hence so are its runs.

Nothing here mentions a particular program.
-/

namespace Transition

/-! ## Results of a step -/

/-- Why a step yields no value: the label is impossible here, or the run stops with a fault. -/
inductive Stop (φ : Type) where
  | blocked
  | fault (f : φ)
  deriving DecidableEq, Repr

/-- The result of a step. -/
abbrev Result (φ σ : Type) := Except (Stop φ) σ

/-- An assertion of the modelled code: the run stops with `f` when `p` does not hold. -/
def require {φ : Type} (p : Prop) [Decidable p] (f : φ) : Result φ Unit :=
  if p then .ok () else .error (.fault f)

/-- An assumption on the label: the step is impossible when `p` does not hold. -/
def enabled {φ : Type} (p : Prop) [Decidable p] : Result φ Unit :=
  if p then .ok () else .error .blocked

/-- A result of a part, among the faults of the whole. -/
def Result.mapFault {φ ψ σ : Type} (f : φ → ψ) : Result φ σ → Result ψ σ
  | .ok a => .ok a
  | .error (.fault e) => .error (.fault (f e))
  | .error .blocked => .error .blocked

/-- The fault a result carries, if any. -/
def faultOf {φ σ : Type} : Result φ σ → Option φ
  | .error (.fault f) => some f
  | _ => none

variable {φ ψ σ τ : Type}

/-- A computation that went well did so in both its parts. -/
theorem bind_eq_ok {x : Result φ σ} {f : σ → Result φ τ} {r : τ} :
    (x >>= f) = .ok r ↔ ∃ a, x = .ok a ∧ f a = .ok r := by
  cases x <;> simp [bind, Except.bind]

/-- A fault is of the first part, or of the second after it. -/
theorem bind_eq_error {x : Result φ σ} {f : σ → Result φ τ} {e : Stop φ} :
    (x >>= f) = .error e ↔ x = .error e ∨ ∃ a, x = .ok a ∧ f a = .error e := by
  cases x <;> simp [bind, Except.bind]

@[simp] theorem ok_bind (a : σ) (f : σ → Result φ τ) : ((.ok a : Result φ σ) >>= f) = f a := rfl

@[simp] theorem error_bind (e : Stop φ) (f : σ → Result φ τ) :
    ((.error e : Result φ σ) >>= f) = .error e := rfl

@[simp] theorem pure_eq_ok (a : σ) : (pure a : Result φ σ) = .ok a := rfl

@[simp] theorem throw_eq_error (e : Stop φ) : (throw e : Result φ σ) = .error e := rfl

@[simp] theorem require_eq_ok {p : Prop} [Decidable p] {f : φ} {u : Unit} :
    require p f = .ok u ↔ p := by
  unfold require; split <;> simp_all

/-- An assertion that holds is passed, whichever way it is decided. -/
theorem require_of {p : Prop} {_ : Decidable p} {f : φ} (h : p) : require p f = .ok () := if_pos h

theorem enabled_of {p : Prop} {_ : Decidable p} (h : p) : (enabled p : Result φ Unit) = .ok () := if_pos h

theorem require_eq_error {p : Prop} [Decidable p] {f : φ} {e : Stop φ} :
    require p f = .error e ↔ ¬ p ∧ e = .fault f := by
  unfold require; split <;> simp_all [eq_comm]

@[simp] theorem enabled_eq_ok {p : Prop} [Decidable p] {u : Unit} :
    (enabled p : Result φ Unit) = .ok u ↔ p := by
  unfold enabled; split <;> simp_all

theorem enabled_eq_error {p : Prop} [Decidable p] {e : Stop φ} :
    (enabled p : Result φ Unit) = .error e ↔ ¬ p ∧ e = .blocked := by
  unfold enabled; split <;> simp_all [eq_comm]

theorem Result.mapFault_eq_ok {x : Result φ σ} {f : φ → ψ} {a : σ} :
    x.mapFault f = .ok a ↔ x = .ok a := by
  unfold Result.mapFault; split <;> simp

theorem faultOf_eq_some {x : Result φ σ} {f : φ} : faultOf x = some f ↔ x = .error (.fault f) := by
  unfold faultOf; split <;> simp_all

/-- A fault of the part is one of the whole that comes from the part. -/
theorem Result.mapFault_eq_fault {x : Result φ σ} {f : φ → ψ} {e : ψ} :
    x.mapFault f = .error (.fault e) ↔ ∃ e', x = .error (.fault e') ∧ f e' = e := by
  unfold Result.mapFault; split <;> simp

/-! ## Systems and runs -/

/-- A transition system with states `σ`, labels `α` and faults `φ`. -/
structure System (σ α φ : Type) where
  init : σ → Prop
  step : σ → α → Result φ σ

namespace System

variable {α β : Type} (S : System σ α φ)

/-- The states reached by steps that each meet `C`, a condition on the label and the state before it. -/
inductive Reach (C : σ → α → Prop) : σ → Prop
  | init {s : σ} : S.init s → Reach C s
  | step {s s' : σ} {a : α} : Reach C s → C s a → S.step s a = .ok s' → Reach C s'

/-- The states reached by any steps. -/
abbrev Reachable (s : σ) : Prop := S.Reach (fun _ _ => True) s

variable {S} {C : σ → α → Prop}

/-- A weaker condition, more runs. -/
theorem Reach.mono {D : σ → α → Prop} (hCD : ∀ s a, C s a → D s a) {s : σ} (h : S.Reach C s) :
    S.Reach D s := by
  induction h with
  | init h0 => exact .init h0
  | step _ hc hs ih => exact .step ih (hCD _ _ hc) hs

theorem Reach.reachable {s : σ} (h : S.Reach C s) : S.Reachable s := h.mono (fun _ _ _ => trivial)

/-- **Invariant rule.** What holds initially and survives every step that meets `C` holds throughout.
    The step case may use that the state before it is reachable. -/
theorem Reach.invariant {I : σ → Prop} (h0 : ∀ s, S.init s → I s)
    (hstep : ∀ s a s', S.Reach C s → I s → C s a → S.step s a = .ok s' → I s')
    {s : σ} (h : S.Reach C s) : I s := by
  induction h with
  | init hi => exact h0 _ hi
  | step hr hc hs ih => exact hstep _ _ _ hr ih hc hs

/-! ## Evaluating a run -/

/-- Run a list of labels from a state. -/
def exec (S : System σ α φ) : σ → List α → Result φ σ
  | s, [] => .ok s
  | s, a :: as => do
    let s' ← S.step s a
    S.exec s' as

/-- Run a list of labels, checking the (decidable) condition `C` before each step. -/
def execWhile (S : System σ α φ) (C : σ → α → Prop) [∀ s a, Decidable (C s a)] :
    σ → List α → Result φ σ
  | s, [] => .ok s
  | s, a :: as => do
    enabled (C s a)
    let s' ← S.step s a
    S.execWhile C s' as

/-- A run that meets the condition at each step. -/
theorem Reach.execWhile [∀ s a, Decidable (C s a)] :
    ∀ {as : List α} {s s' : σ}, S.Reach C s → S.execWhile C s as = .ok s' → S.Reach C s'
  | [], s, s', hr, h => by
    simp only [System.execWhile, Except.ok.injEq] at h
    exact h ▸ hr
  | a :: as, s, s', hr, h => by
    simp only [System.execWhile, bind_eq_ok, enabled_eq_ok] at h
    obtain ⟨_, hc, s1, hs, hrest⟩ := h
    exact Reach.execWhile (hr.step hc hs) hrest

/-- Any run of steps, from a reachable state. -/
theorem Reach.exec : ∀ {as : List α} {s s' : σ}, S.Reachable s → S.exec s as = .ok s' →
    S.Reachable s'
  | [], s, s', hr, h => by
    simp only [System.exec, Except.ok.injEq] at h
    exact h ▸ hr
  | a :: as, s, s', hr, h => by
    simp only [System.exec, bind_eq_ok] at h
    obtain ⟨s1, hs, hrest⟩ := h
    exact Reach.exec (hr.step trivial hs) hrest

/-- A run in two parts. -/
theorem exec_append : ∀ {as bs : List α} {s : σ}, S.exec s (as ++ bs) = (S.exec s as >>= fun t => S.exec t bs)
  | [], _, _ => rfl
  | a :: as, bs, s => by
    show (S.step s a >>= fun t => S.exec t (as ++ bs)) = (S.step s a >>= fun t => S.exec t as) >>= _
    cases S.step s a with
    | error e => rfl
    | ok t => exact exec_append

/-- A run and one step more. -/
theorem exec_concat {as : List α} {a : α} {s t : σ} :
    S.exec s (as ++ [a]) = .ok t ↔ ∃ r, S.exec s as = .ok r ∧ S.step r a = .ok t := by
  rw [exec_append, bind_eq_ok]
  refine exists_congr fun r => and_congr_right fun _ => ?_
  show (S.step r a >>= fun u => .ok u) = .ok t ↔ _
  cases S.step r a <;> simp

/-- **Run rule.** What holds of no labels, and is carried on by one more, holds of the labels of any run
    from a state and of the state it leads to. -/
theorem exec_invariant {I : List α → σ → Prop} {s : σ} (h0 : I [] s)
    (hstep : ∀ as a t t', S.exec s as = .ok t → I as t → S.step t a = .ok t' → I (as ++ [a]) t')
    {as : List α} {t : σ} (h : S.exec s as = .ok t) : I as t := by
  induction as using List.reverseRecOn generalizing t with
  | nil => exact Except.ok.inj h ▸ h0
  | append_singleton as a ih =>
    obtain ⟨r, hr, hs⟩ := exec_concat.mp h
    exact hstep as a r t hr (ih hr) hs

/-- A run that reports a property of its last state exhibits a reachable state with that property. -/
theorem Reach.of_execWhile [∀ s a, Decidable (C s a)] {l : List α} {s : σ} {p : σ → Bool}
    (hr : S.Reach C s) (h : (S.execWhile C s l).toOption.map p = some true) :
    ∃ s', S.Reach C s' ∧ p s' = true := by
  cases he : S.execWhile C s l with
  | error e => simp [he, Except.toOption] at h
  | ok s' =>
    refine ⟨s', hr.execWhile he, ?_⟩
    simpa [he, Except.toOption] using h

/-- The same for a run without conditions. -/
theorem exec_of_toOption {l : List α} {s : σ} {p : σ → Bool} (h : (S.exec s l).toOption.map p = some true) :
    ∃ s', S.exec s l = .ok s' ∧ p s' = true := by
  cases he : S.exec s l with
  | error e => simp [he, Except.toOption] at h
  | ok s' =>
    refine ⟨s', rfl, ?_⟩
    simpa [he, Except.toOption] using h

/-- The unconditional case of `of_execWhile`. -/
theorem Reach.of_exec {l : List α} {s : σ} {p : σ → Bool} (hr : S.Reachable s)
    (h : (S.exec s l).toOption.map p = some true) : ∃ s', S.Reachable s' ∧ p s' = true := by
  obtain ⟨s', he, hp⟩ := exec_of_toOption h
  exact ⟨s', hr.exec he, hp⟩

/-! ## Forward simulation -/

/-- `R` is a forward simulation: initial states are related, and each step of `A` from a reachable
    state is matched by at most one step of `B`. -/
structure Simulation (A : System σ α φ) (B : System τ β ψ) (R : σ → τ → Prop) : Prop where
  init : ∀ s, A.init s → ∃ t, B.init t ∧ R s t
  step : ∀ s t a s', A.Reachable s → R s t → A.step s a = .ok s' →
    R s' t ∨ ∃ b t', B.step t b = .ok t' ∧ R s' t'

/-- **Runs transfer along a simulation.** -/
theorem Simulation.reachable {A : System σ α φ} {B : System τ β ψ} {R : σ → τ → Prop}
    (sim : Simulation A B R) {s : σ} (h : A.Reachable s) : ∃ t, B.Reachable t ∧ R s t := by
  induction h with
  | init hi =>
    obtain ⟨t, ht, hR⟩ := sim.init _ hi
    exact ⟨t, .init ht, hR⟩
  | step hr _ hs ih =>
    obtain ⟨t, ht, hR⟩ := ih
    rcases sim.step _ t _ _ hr hR hs with hR' | ⟨b, t', hb, hR'⟩
    · exact ⟨t, ht, hR'⟩
    · exact ⟨t', ht.step trivial hb, hR'⟩

end System

end Transition
