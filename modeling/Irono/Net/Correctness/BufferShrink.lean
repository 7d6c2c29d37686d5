import Irono.Net.Correctness.BufferQueue

/-!
# `Net.Correctness.BufferShrink` — `Buffer::shrink` and the indices it forgets

`shrink` puts the readable bytes at the prepend mark of a new vector, as if `readerIndex_` was there. A
buffer from which something was retrieved has its reader behind the mark: after `shrink` it shows other
bytes, or its writer is behind the end of the vector (`shrink_after_retrieve`).

* `shrink_ok_iff`: on a valid buffer it goes well exactly if the reader is at the mark, or in front of it
  with nothing but zeros to read (`Shrinkable`).
* `buffer_shrink`: hence the same of every buffer, after any calls of which those of `shrink` went well.
-/

namespace Irono

namespace Buffer

open Transition Slice

variable {b : Buffer}

/-- What `shrink` is to leave: indices in order, the content as it was, and room for `reserve` bytes. -/
structure ShrinkOk (b : Buffer) (reserve : Nat) : Prop where
  reader_le : (b.shrink reserve).readerIndex ≤ (b.shrink reserve).writerIndex
  writer_le : (b.shrink reserve).writerIndex ≤ (b.shrink reserve).buffer.length
  content : (b.shrink reserve).content = b.content
  returned : (b.shrink reserve).retrieveAsString.2 = b.retrieveAsString.2
  writable : reserve ≤ (b.shrink reserve).writableBytes

/-- The reader is at the prepend mark, or in front of it with nothing but zeros to read. -/
def Shrinkable (b : Buffer) : Prop :=
  b.readerIndex = kCheapPrepend ∨ b.readerIndex < kCheapPrepend ∧ ∀ x ∈ b.content, x = 0

instance (b : Buffer) : Decidable b.Shrinkable := inferInstanceAs (Decidable (_ ∨ _))

/-- The new vector. -/
theorem shrink_buffer (h : b.Valid) (reserve : Nat) :
    (b.shrink reserve).buffer = List.replicate kCheapPrepend 0 ++ b.content ++ List.replicate reserve 0 := by
  have hlength := length_content h
  simp only [shrink, overwrite, List.take_replicate, List.drop_replicate, hlength]
  congr 2
  · congr 1; omega
  · omega

theorem length_shrink (h : b.Valid) (reserve : Nat) :
    (b.shrink reserve).buffer.length = kCheapPrepend + b.readableBytes + reserve := by
  rw [shrink_buffer h, List.length_append, List.length_append, List.length_replicate, List.length_replicate,
    length_content h]

/-- The window of the new vector that the old indices show. -/
theorem content_shrink (h : b.Valid) (reserve : Nat) :
    (b.shrink reserve).content =
      slice (List.replicate kCheapPrepend 0 ++ b.content ++ List.replicate reserve 0) b.readerIndex
        (b.readerIndex + b.content.length) := by
  have hend : b.readerIndex + b.content.length = b.writerIndex := by
    have hr := h.reader_le
    rw [length_content h, readableBytes]
    omega
  rw [hend, ← shrink_buffer h]
  rfl

/-- **When `shrink` goes well.** -/
theorem shrink_ok_iff (h : b.Valid) (reserve : Nat) : b.ShrinkOk reserve ↔ b.Shrinkable := by
  have hr := h.reader_le
  have hlength := length_shrink h reserve
  have hreader : (b.shrink reserve).readerIndex = b.readerIndex := rfl
  have hwriter : (b.shrink reserve).writerIndex = b.writerIndex := rfl
  have hread : b.readableBytes = b.writerIndex - b.readerIndex := rfl
  have hwritable : (b.shrink reserve).writableBytes = (b.shrink reserve).buffer.length - b.writerIndex := rfl
  constructor
  · intro hok
    have hle := hok.writer_le
    have hroom := hok.writable
    rw [hwriter, hlength] at hle
    rw [hwritable, hlength] at hroom
    rcases Nat.lt_trichotomy b.readerIndex kCheapPrepend with hlt | heq | hgt
    · have hcontent := hok.content
      rw [content_shrink h reserve] at hcontent
      exact .inr ⟨hlt, (slice_fill_eq_iff hlt).mp hcontent⟩
    · exact .inl heq
    · -- behind the mark the writer or the room is off by the difference
      omega
  · intro hshrink
    have hle : b.readerIndex ≤ kCheapPrepend := by
      rcases hshrink with heq | ⟨hlt, -⟩ <;> omega
    have hcontent : (b.shrink reserve).content = b.content := by
      rw [content_shrink h reserve]
      rcases hshrink with heq | ⟨hlt, hzero⟩
      · rw [heq, List.append_assoc]
        have hfill : (List.replicate kCheapPrepend (0 : Byte)).length = kCheapPrepend := List.length_replicate
        simp [slice, hfill]
      · exact (slice_fill_eq_iff hlt).mpr hzero
    refine ⟨by rw [hreader, hwriter]; exact hr, ?_, hcontent, hcontent, ?_⟩
    · rw [hwriter, hlength]
      omega
    · rw [hwritable, hlength]
      omega

theorem ShrinkOk.valid (h : b.Valid) {reserve : Nat} (hok : b.ShrinkOk reserve) : (b.shrink reserve).Valid := by
  refine ⟨hok.reader_le, hok.writer_le, ?_⟩
  rw [length_shrink h]
  omega

/-! ## Any calls on any buffers -/

/-- A member call on one buffer, `swap` of two, or `shrink` of one. -/
inductive ShrinkAct (ι : Type) where
  | call (i : ι) (op : Op)
  | swap (i j : ι)
  | shrink (i : ι) (reserve : Nat)

variable {ι : Type} [DecidableEq ι]

def shrinkStep (bufs : ι → Buffer) : ShrinkAct ι → Result Fault (ι → Buffer)
  | .call i op => do
    let (b', _) ← (bufs i).call op
    return Function.update bufs i b'
  | .swap i j => return swapAt bufs i j
  | .shrink i reserve => return Function.update bufs i ((bufs i).shrink reserve)

/-- A family of buffers, as a system. -/
def shrinking (ι : Type) [DecidableEq ι] : System (ι → Buffer) (ShrinkAct ι) Fault :=
  ⟨fun bufs => bufs = fun _ => Buffer.new, shrinkStep⟩

/-- **The condition on a step**: the callers respect the preconditions, and `shrink` is called on buffers
    that it suits. -/
def ShrinkKept (bufs : ι → Buffer) : ShrinkAct ι → Prop
  | .call i op => op.Pre (bufs i)
  | .swap _ _ => True
  | .shrink i _ => (bufs i).Shrinkable

instance (bufs : ι → Buffer) : (a : ShrinkAct ι) → Decidable (ShrinkKept bufs a)
  | .call i op => inferInstanceAs (Decidable (op.Pre (bufs i)))
  | .swap _ _ => isTrue trivial
  | .shrink i _ => inferInstanceAs (Decidable (bufs i).Shrinkable)

/-- One step leaves valid buffers. -/
theorem shrinkStep_valid {bufs bufs' : ι → Buffer} (h : ∀ i, (bufs i).Valid) {a : ShrinkAct ι}
    (ha : ShrinkKept bufs a) (hs : shrinkStep bufs a = .ok bufs') : ∀ i, (bufs' i).Valid := by
  have hset : ∀ {i : ι} {b' : Buffer}, b'.Valid → ∀ k, (Function.update bufs i b' k).Valid := by
    intro i b' hv k
    by_cases hk : k = i
    · subst hk
      rwa [Function.update_self]
    · rw [Function.update_of_ne hk]
      exact h k
  cases a with
  | call i op =>
    obtain ⟨b', hb, hv, -⟩ := call_rep ⟨h i, rfl⟩ ha
    simp only [shrinkStep, hb, ok_bind, pure_eq_ok, Except.ok.injEq] at hs
    exact hs ▸ hset hv
  | swap i j =>
    obtain rfl := Except.ok.inj hs
    exact fun k => (rep_swapAt (fun k => ⟨h k, rfl⟩) i j k).1
  | shrink i reserve =>
    obtain rfl := Except.ok.inj hs
    exact hset (((shrink_ok_iff (h i) reserve).mpr ha).valid (h i))

theorem shrink_valid {bufs : ι → Buffer} (h : (shrinking ι).Reach ShrinkKept bufs) : ∀ i, (bufs i).Valid := by
  refine h.invariant (fun bufs h0 => ?_) (fun bufs a bufs' _ hv ha hs => shrinkStep_valid hv ha hs)
  subst h0
  exact fun _ => valid_new

/-- **`shrink` of a reachable buffer** goes well exactly if its reader is at the prepend mark, or in front
    of it with nothing but zeros to read. -/
theorem buffer_shrink {bufs : ι → Buffer} (h : (shrinking ι).Reach ShrinkKept bufs) (i : ι) (reserve : Nat) :
    (bufs i).ShrinkOk reserve ↔ (bufs i).Shrinkable :=
  shrink_ok_iff (shrink_valid h i) reserve

/-- Some bytes come and go before the call. -/
theorem buffer_shrink_sample : ∃ bufs : Bool → Buffer, (bufs true).content = [2, 3] ∧
    (bufs true).readerIndex = kCheapPrepend ∧ ((bufs true).ShrinkOk 5 ↔ (bufs true).Shrinkable) := by
  obtain ⟨bufs, hr, hp⟩ := System.Reach.of_execWhile (S := shrinking Bool) (C := ShrinkKept)
    (l := [.call false (.append [1]), .call false .retrieveAsString, .shrink false 0, .swap false true,
      .call true (.append [2, 3])])
    (p := fun bufs => decide ((bufs true).content = [2, 3] ∧ (bufs true).readerIndex = kCheapPrepend))
    (.init rfl) (by decide +kernel)
  rw [decide_eq_true_eq] at hp
  exact ⟨bufs, hp.1, hp.2, buffer_shrink hr true 5⟩

/-- One byte of three is retrieved; then `shrink(0)` leaves the writer behind the end of the vector. -/
theorem shrink_after_retrieve : ∃ bufs : Unit → Buffer, (shrinking Unit).Reach ShrinkKept bufs ∧
    (bufs ()).content = [2, 3] ∧ ((bufs ()).shrink 0).buffer.length < ((bufs ()).shrink 0).writerIndex ∧
      ((bufs ()).shrink 0).content ≠ [2, 3] := by
  obtain ⟨bufs, hr, hp⟩ := System.Reach.of_execWhile (S := shrinking Unit) (C := ShrinkKept)
    (l := [.call () (.append [1, 2, 3]), .call () (.retrieve 1)])
    (p := fun bufs => decide ((bufs ()).content = [2, 3] ∧
      ((bufs ()).shrink 0).buffer.length < ((bufs ()).shrink 0).writerIndex ∧
        ((bufs ()).shrink 0).content ≠ [2, 3])) (.init rfl) (by decide +kernel)
  exact ⟨bufs, hr, of_decide_eq_true hp⟩

end Buffer

end Irono
