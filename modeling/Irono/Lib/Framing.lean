import Mathlib.Tactic

/-!
# `Lib.Framing` — decoders that see a stream in pieces

A `Decoder` takes one frame from the front of a stream, or finds none. Two properties make it one: a frame
takes something away, and what is a frame stays one when more of the stream arrives.

* `parse`: all the frames there are, and the rest in which there is none (`next_parse`).
* `parse_append`: parsing goes on from the rest, so the pieces in which a stream comes do not matter.
* `parse_encode`: what an encoder wrote is parsed into what it encoded.
-/

namespace Framing

variable {α β : Type}

/-- How one frame is taken from the front of a stream. -/
structure Decoder (α β : Type) where
  next : List α → Option (β × List α)
  shrinks : ∀ {s m rest}, next s = some (m, rest) → rest.length < s.length
  stable : ∀ {s m rest} (t), next s = some (m, rest) → next (s ++ t) = some (m, rest ++ t)

namespace Decoder

variable (D : Decoder α β)

/-- The frames of a stream, and what is left. -/
def parse (s : List α) : List β × List α :=
  match _h : D.next s with
  | none => ([], s)
  | some (m, rest) => (m :: (parse rest).1, (parse rest).2)
termination_by s.length
decreasing_by all_goals exact D.shrinks _h

variable {D}

theorem parse_of_none {s : List α} (h : D.next s = none) : D.parse s = ([], s) := by
  rw [parse]
  split
  · rfl
  · rename_i hsome
    rw [h] at hsome
    cases hsome

theorem parse_of_some {s rest : List α} {m : β} (h : D.next s = some (m, rest)) :
    D.parse s = (m :: (D.parse rest).1, (D.parse rest).2) := by
  rw [parse]
  split
  · rename_i hnone
    rw [h] at hnone
    cases hnone
  · rename_i hsome
    rw [h, Option.some.injEq, Prod.mk.injEq] at hsome
    obtain ⟨rfl, rfl⟩ := hsome
    rfl

/-- **Induction along a stream**: it begins with a frame and goes on, or there is none. -/
theorem parse_induction {motive : List α → Prop} (D : Decoder α β) (stuck : ∀ s, D.next s = none → motive s)
    (frame : ∀ s m rest, D.next s = some (m, rest) → motive rest → motive s) (s : List α) : motive s := by
  induction hn : s.length using Nat.strongRecOn generalizing s with
  | _ n ih =>
    cases h : D.next s with
    | none => exact stuck s h
    | some p =>
      obtain ⟨m, rest⟩ := p
      exact frame s m rest h (ih rest.length (hn ▸ D.shrinks h) rest rfl)

/-- In what is left there is no frame. -/
theorem next_parse (D : Decoder α β) (s : List α) : D.next (D.parse s).2 = none := by
  induction s using parse_induction D with
  | stuck s h =>
    rw [parse_of_none h]
    exact h
  | frame s m rest h ih =>
    rw [parse_of_some h]
    exact ih

/-- **Parsing goes on from what was left.** -/
theorem parse_append (D : Decoder α β) (s t : List α) :
    D.parse (s ++ t) = ((D.parse s).1 ++ (D.parse ((D.parse s).2 ++ t)).1, (D.parse ((D.parse s).2 ++ t)).2) := by
  induction s using parse_induction D with
  | stuck s h =>
    rw [parse_of_none h]
    rfl
  | frame s m rest h ih =>
    rw [parse_of_some h, parse_of_some (D.stable t h), ih]
    rfl

/-! ## What an encoder wrote -/

/-- **The frames of an encoder are parsed into what it encoded**, whatever follows them. -/
theorem parse_encode {encode : β → List α} {ms : List β}
    (h : ∀ m ∈ ms, ∀ t, D.next (encode m ++ t) = some (m, t)) (t : List α) :
    D.parse ((ms.map encode).flatten ++ t) = (ms ++ (D.parse t).1, (D.parse t).2) := by
  induction ms with
  | nil => rfl
  | cons m ms ih =>
    rw [List.map_cons, List.flatten_cons, List.append_assoc, parse_of_some (h m List.mem_cons_self _),
      ih fun m' hm' => h m' (List.mem_cons_of_mem _ hm')]
    rfl

/-- What holds of every frame that can be taken holds of all that are parsed. -/
theorem forall_parse {P : β → Prop} (h : ∀ {s m rest}, D.next s = some (m, rest) → P m) (s : List α) :
    ∀ m ∈ (D.parse s).1, P m := by
  induction s using parse_induction D with
  | stuck s hs =>
    rw [parse_of_none hs]
    intro m hm
    cases hm
  | frame s m rest hs ih =>
    rw [parse_of_some hs]
    exact List.forall_mem_cons.mpr ⟨h hs, ih⟩

end Decoder

end Framing
