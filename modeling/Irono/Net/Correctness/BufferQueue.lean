import Irono.Net.Buffer
import Mathlib.Logic.Function.Basic

/-!
# `Net.Correctness.BufferQueue` — `Buffer` refines a byte queue with a prepend area

The abstract model is a family of byte lists: `append` and `readFd` add at the back, `prepend` at the
front, `retrieve` drops from the front. A `Session` runs any sequence of member calls on a family of
buffers and, beside it, the same calls on the abstract queues; `Allowed` is what the callers must
respect (the class states it as asserts on its arguments).

* `Rep`: the buffers are valid and show exactly the abstract bytes.
* `call_rep`: one member call keeps `Rep`; one case per member, each by that member's spec lemma.
* `session_refines_queue`: hence every session does, and no assert of the class is ever reached.
-/

namespace Irono

namespace Buffer

open Transition

/-! ## Member calls and the abstract queue -/

/-- A call of a member. `retrieveUntil len` passes `peek() + len`; `write len data` is
    `ensureWritableBytes(len)`, a copy of `data` to `beginWrite()`, then `hasWritten`. -/
inductive Op where
  | append (data : List Byte)
  | prepend (data : List Byte)
  | retrieve (len : Nat)
  | retrieveUntil (len : Nat)
  | retrieveAll
  | retrieveAsString
  | ensureWritableBytes (len : Nat)
  | write (len : Nat) (data : List Byte)
  | readFd (data : Option (List Byte))
  deriving DecidableEq, Repr

/-- What the caller must respect: the lengths the members assert, and what `readv` can return. -/
def Op.Pre (b : Buffer) : Op → Prop
  | .prepend data => data.length ≤ b.prependableBytes
  | .retrieve len => len ≤ b.readableBytes
  | .retrieveUntil len => len ≤ b.readableBytes
  | .write len data =>
    match b.ensureWritableBytes len with
    | .ok b' => data.length ≤ b'.writableBytes
    | .error _ => True
  | .readFd (some bytes) => bytes.length ≤ b.writableBytes + kExtraBuf
  | _ => True

instance (b : Buffer) : (op : Op) → Decidable (op.Pre b)
  | .prepend _ => inferInstanceAs (Decidable (_ ≤ _))
  | .retrieve _ => inferInstanceAs (Decidable (_ ≤ _))
  | .retrieveUntil _ => inferInstanceAs (Decidable (_ ≤ _))
  | .write len data =>
    match h : b.ensureWritableBytes len with
    | .ok b' => decidable_of_iff (data.length ≤ b'.writableBytes) (by simp [Op.Pre, h])
    | .error _ => isTrue (by simp [Op.Pre, h])
  | .readFd (some _) => inferInstanceAs (Decidable (_ ≤ _))
  | .readFd none => isTrue trivial
  | .append _ => isTrue trivial
  | .retrieveAll => isTrue trivial
  | .retrieveAsString => isTrue trivial
  | .ensureWritableBytes _ => isTrue trivial

/-- Run a member: the buffer after it, and the bytes it returns to the caller. -/
def call (b : Buffer) : Op → Result Fault (Buffer × List Byte)
  | .append data => do return (← b.append data, [])
  | .prepend data => do return (← b.prepend data, [])
  | .retrieve len => do return (← b.retrieve len, [])
  | .retrieveUntil len => do return (← b.retrieveUntil (b.readerIndex + len), [])
  | .retrieveAll => return (b.retrieveAll, [])
  | .retrieveAsString => return b.retrieveAsString
  | .ensureWritableBytes len => do return (← b.ensureWritableBytes len, [])
  | .write len data => do
    let b' ← b.ensureWritableBytes len
    return ((b'.writeAt data).hasWritten data.length, [])
  | .readFd data => do return (← b.readFd data, [])

/-- The same call on the abstract queue. -/
def Op.spec (q : List Byte) : Op → List Byte × List Byte
  | .append data => (q ++ data, [])
  | .prepend data => (data ++ q, [])
  | .retrieve len => (q.drop len, [])
  | .retrieveUntil len => (q.drop len, [])
  | .retrieveAll => ([], [])
  | .retrieveAsString => ([], q)
  | .ensureWritableBytes _ => (q, [])
  | .write _ data => (q ++ data, [])
  | .readFd none => (q, [])
  | .readFd (some bytes) => (q ++ bytes, [])

/-- `b` represents the abstract queue `q`. -/
def Rep (b : Buffer) (q : List Byte) : Prop := b.Valid ∧ b.content = q

/-- **One call.** A member called within its precondition on a buffer that represents `q` succeeds,
    returns what the queue returns, and leaves a buffer that represents the queue after the call. -/
theorem call_rep {b : Buffer} {q : List Byte} (h : Rep b q) {op : Op} (hpre : op.Pre b) :
    ∃ b', b.call op = .ok (b', (op.spec q).2) ∧ Rep b' (op.spec q).1 := by
  obtain ⟨hv, rfl⟩ := h
  cases op with
  | append data =>
    obtain ⟨b', hb, hv', hc⟩ := append_spec hv data
    exact ⟨b', by simp [call, hb, Op.spec], hv', hc⟩
  | prepend data =>
    obtain ⟨b', hb, hv', hc⟩ := prepend_spec hv hpre
    exact ⟨b', by simp [call, hb, Op.spec], hv', hc⟩
  | retrieve len =>
    obtain ⟨b', hb, hv', hc⟩ := retrieve_spec hv hpre
    exact ⟨b', by simp [call, hb, Op.spec], hv', hc⟩
  | retrieveUntil len =>
    obtain ⟨b', hb, hv', hc⟩ := retrieveUntil_spec hv hpre
    exact ⟨b', by simp [call, hb, Op.spec], hv', hc⟩
  | retrieveAll => exact ⟨b.retrieveAll, rfl, retrieveAll_spec hv⟩
  | retrieveAsString => exact ⟨b.retrieveAll, rfl, retrieveAll_spec hv⟩
  | ensureWritableBytes len =>
    obtain ⟨b', hb, hv', hc, _⟩ := ensureWritableBytes_spec hv len
    exact ⟨b', by simp [call, hb, Op.spec], hv', hc⟩
  | write len data =>
    obtain ⟨b', hb, hv', hc, _⟩ := ensureWritableBytes_spec hv len
    have hroom : data.length ≤ b'.writableBytes := by simpa [Op.Pre, hb] using hpre
    obtain ⟨hv'', hc'⟩ := writeAt_hasWritten_spec hv' hroom
    exact ⟨_, by simp [call, hb, Op.spec], hv'', by rw [hc', hc]; rfl⟩
  | readFd data =>
    cases data with
    | none => exact ⟨b, by simp [call, readFd_error, Op.spec], hv, by simp [Op.spec]⟩
    | some bytes =>
      obtain ⟨b', hb, hv', hc⟩ := readFd_spec hv bytes
      exact ⟨b', by simp [call, hb, Op.spec], hv', hc⟩

/-! ## Sessions: any calls on any buffers -/

/-- The abstract queues and the byte strings returned so far. -/
structure Queues (ι : Type) where
  bytes : ι → List Byte
  returned : List (List Byte)

/-- A family of buffers with the strings their members returned, and the abstract run beside it. -/
structure Session (ι : Type) where
  bufs : ι → Buffer
  returned : List (List Byte)
  spec : Queues ι

/-- A member call on one buffer, or `swap` of two. -/
inductive Act (ι : Type) where
  | call (i : ι) (op : Op)
  | swap (i j : ι)

variable {ι : Type} [DecidableEq ι]

/-- Exchange two entries of a family (`Buffer::swap` exchanges the vectors and both indices). -/
def swapAt {α : Type} (f : ι → α) (i j : ι) : ι → α :=
  Function.update (Function.update f i (f j)) j (f i)

def Queues.step (q : Queues ι) : Act ι → Queues ι
  | .call i op =>
    { bytes := Function.update q.bytes i (op.spec (q.bytes i)).1
      returned := q.returned ++ [(op.spec (q.bytes i)).2] }
  | .swap i j => { q with bytes := swapAt q.bytes i j }

/-- All buffers fresh, nothing returned yet. -/
def Session.fresh : Session ι := ⟨fun _ => Buffer.new, [], ⟨fun _ => [], []⟩⟩

def Session.step (s : Session ι) (a : Act ι) : Result Fault (Session ι) :=
  match a with
  | .call i op => do
    let (b', ret) ← (s.bufs i).call op
    return { bufs := Function.update s.bufs i b', returned := s.returned ++ [ret]
             spec := s.spec.step a }
  | .swap i j => return { s with bufs := swapAt s.bufs i j, spec := s.spec.step a }

/-- The sessions as a system, started on fresh buffers. -/
def sessions (ι : Type) [DecidableEq ι] : System (Session ι) (Act ι) Fault :=
  ⟨fun s => s = Session.fresh, Session.step⟩

/-- The callers respect the preconditions. -/
def Allowed (s : Session ι) : Act ι → Prop
  | .call i op => op.Pre (s.bufs i)
  | .swap _ _ => True

instance (s : Session ι) : (a : Act ι) → Decidable (Allowed s a)
  | .call i op => inferInstanceAs (Decidable (op.Pre (s.bufs i)))
  | .swap _ _ => isTrue trivial

/-- Every buffer represents its queue, and the same strings were returned. -/
def Session.Refines (s : Session ι) : Prop :=
  (∀ i, Rep (s.bufs i) (s.spec.bytes i)) ∧ s.returned = s.spec.returned

omit [DecidableEq ι] in
theorem refines_fresh : (Session.fresh : Session ι).Refines :=
  ⟨fun _ => ⟨valid_new, content_new⟩, rfl⟩

theorem rep_swapAt {f : ι → Buffer} {g : ι → List Byte} (h : ∀ k, Rep (f k) (g k)) (i j k : ι) :
    Rep (swapAt f i j k) (swapAt g i j k) := by
  by_cases hj : k = j
  · subst hj; simpa [swapAt] using h i
  · by_cases hi : k = i
    · subst hi; simpa [swapAt, hj] using h j
    · simpa [swapAt, hi, hj] using h k

/-- **One step of a session** succeeds and keeps the refinement. -/
theorem step_refines {s : Session ι} (h : s.Refines) {a : Act ι} (ha : Allowed s a) :
    ∃ s', s.step a = .ok s' ∧ s'.Refines := by
  obtain ⟨hrep, hret⟩ := h
  cases a with
  | call i op =>
    obtain ⟨b', hb, hrep'⟩ := call_rep (hrep i) ha
    refine ⟨_, by simp only [Session.step, hb]; rfl, fun k => ?_, ?_⟩
    · by_cases hk : k = i
      · subst hk; simpa [Queues.step] using hrep'
      · simpa [Queues.step, hk] using hrep k
    · simp [Queues.step, hret]
  | swap i j => exact ⟨_, rfl, fun k => rep_swapAt hrep i j k, hret⟩

/-- **Every session.** -/
theorem reach_refines {s : Session ι} (h : (sessions ι).Reach Allowed s) : s.Refines := by
  refine h.invariant (fun s h0 => ?_) (fun s a s' _ hr ha hs => ?_)
  · subst h0; exact refines_fresh
  · obtain ⟨s'', hs'', hr'⟩ := step_refines hr ha
    have heq : Session.step s a = .ok s' := hs
    rw [hs''] at heq
    exact (Except.ok.inj heq) ▸ hr'

/-- **`Buffer` refines the byte queue.** After any calls within their preconditions: the indices are in
    order, the readable bytes are the queue's, the returned strings are the queue's,
    `ensureWritableBytes` makes room and changes no content, and the next call trips no assert. -/
theorem session_refines_queue {s : Session ι} (h : (sessions ι).Reach Allowed s) :
    (∀ i, (s.bufs i).readerIndex ≤ (s.bufs i).writerIndex ∧
      (s.bufs i).writerIndex ≤ (s.bufs i).buffer.length) ∧
    (∀ i, (s.bufs i).content = s.spec.bytes i) ∧
    s.returned = s.spec.returned ∧
    (∀ i len, ∃ b', (s.bufs i).ensureWritableBytes len = .ok b' ∧
      b'.content = (s.bufs i).content ∧ len ≤ b'.writableBytes) ∧
    (∀ a, Allowed s a → ∃ s', (sessions ι).step s a = .ok s') := by
  obtain ⟨hrep, hret⟩ := reach_refines h
  refine ⟨fun i => ⟨(hrep i).1.reader_le, (hrep i).1.writer_le⟩, fun i => (hrep i).2, hret, ?_, ?_⟩
  · intro i len
    obtain ⟨b', hb, _, hc, hroom⟩ := ensureWritableBytes_spec (hrep i).1 len
    exact ⟨b', hb, hc, hroom⟩
  · intro a ha
    obtain ⟨s', hs, _⟩ := step_refines ⟨hrep, hret⟩ ha
    exact ⟨s', hs⟩

/-- Append, read into the second buffer, swap, prepend, take everything out. -/
def sampleSession : List (Act Bool) :=
  [.call false (.append [1, 2, 3]), .call true (.readFd (some [4, 5])), .swap false true,
   .call false (.prepend [0]), .call false (.retrieve 1), .call false .retrieveAsString]

theorem session_refines_queue_sample :
    ∃ s : Session Bool, s.returned.getLast? = some [4, 5] ∧
      (∀ i, (s.bufs i).content = s.spec.bytes i) ∧ s.returned = s.spec.returned := by
  obtain ⟨s, hs, hp⟩ := System.Reach.of_execWhile (S := sessions Bool) (C := Allowed)
    (l := sampleSession) (p := fun s => s.returned.getLast? == some [4, 5]) (.init rfl)
    (by decide +kernel)
  have href := session_refines_queue hs
  exact ⟨s, by simpa using hp, href.2.1, href.2.2.1⟩

end Buffer

end Irono
