import Irono.Base.AsyncLogging

/-!
# `Base.Correctness.LogIntegrity` — no line is torn, repeated or out of order

Every line appended is in exactly one buffer: of a batch the back end took, of `buffers_`, or
`currentBuffer_`, in this order (`Split`). What was handed to `output_.append`, with what of the current
batch is still to come, are the batches less what the overload rule dropped from them (`written`). The
spare buffers of the two sides are empty when they are needed and there are enough of them (`Ready`), so
no assert of `threadFunc` fails.
-/

namespace Irono

open Transition

namespace AsyncLogging

variable {s s' : AsyncLogging}

/-! ## The lines in the buffers -/

/-- A line as it was given to `append`. -/
abbrev Line := List Byte

/-- The lines in the buffers: those `taken` in the buffers of each batch, those in the `full` buffers of
    `buffers_`, and the `rest` in `currentBuffer_`. -/
structure Split (s : AsyncLogging) (taken : List (List (List Line))) (full : List (List Line))
    (rest : List Line) : Prop where
  batches : s.batches.map (·.map FixedBuffer.data) = taken.map (·.map List.flatten)
  buffers : s.buffers.map FixedBuffer.data = full.map List.flatten
  current : s.currentBuffer.data = rest.flatten
  lines : taken.flatten.flatten ++ (full.flatten ++ rest) = s.lines
  swapped : taken.flatten.flatten.length = s.swapped

variable {taken : List (List (List Line))} {full : List (List Line)} {rest : List Line}

/-- The part of the current batch that is still to be written. -/
def toWrite (s : AsyncLogging) : List Byte :=
  match s.pc with
  | .swapped => ((kept s.buffersToWrite).map FixedBuffer.data).flatten
  | .writing rest => (rest.map FixedBuffer.data).flatten
  | _ => []

/-- What the batches were, less what the overload rule dropped. -/
def toOutput (s : AsyncLogging) : List Byte := ((s.batches.map kept).flatten.map FixedBuffer.data).flatten

theorem kept_map {α β : Type} (f : α → β) (l : List α) : kept (l.map f) = (kept l).map f := by
  rcases Nat.lt_or_ge 25 l.length with hlt | hle
  · rw [kept_of_lt hlt, kept_of_lt (by rwa [List.length_map]), List.map_take]
  · rw [kept_of_le hle, kept_of_le (by rwa [List.length_map])]

/-- The bytes of the batches are those of the lines in them. -/
theorem Split.toOutput (h : s.Split taken full rest) :
    s.toOutput = (taken.map kept).flatten.flatten.flatten := by
  have hkept : (s.batches.map kept).map (·.map FixedBuffer.data) =
      (taken.map kept).map (·.map List.flatten) := by
    have hmap := congrArg (List.map kept) h.batches
    simpa only [List.map_map, Function.comp_def, kept_map] using hmap
  rw [AsyncLogging.toOutput, List.map_flatten, hkept, ← List.map_flatten, ← List.flatten_flatten]

/-! ## The spare buffers -/

/-- A buffer that is there and empty. -/
def Spare (buffer : Option Buffer) : Prop := ∃ b, buffer = some b ∧ b.data = []

theorem spare_new : Spare (some .new) := ⟨_, rfl, rfl⟩

/-- What the back end has in hand, by where it is. -/
def InHand (s : AsyncLogging) : Pc → Prop
  | .notStarted => s.owner = .constructed
  | .started => s.owner = .starting ∧ s.running = true
  | .head => Spare s.newBuffer1 ∧ Spare s.newBuffer2 ∧ s.buffersToWrite = []
  | .enter => Spare s.newBuffer1 ∧ Spare s.newBuffer2 ∧ s.buffersToWrite = []
  | .waiting => Spare s.newBuffer1 ∧ Spare s.newBuffer2 ∧ s.buffersToWrite = []
  | .flush => Spare s.newBuffer1 ∧ Spare s.newBuffer2 ∧ s.buffersToWrite = []
  | .lastFlush => True
  | .finished => True
  -- the batch gives back as many buffers as were moved away
  | _ => s.newBuffer1 = none ∧ s.buffersToWrite ≠ [] ∧
      (s.newBuffer2 = none ∧ 2 ≤ s.buffersToWrite.length ∨ Spare s.newBuffer2)

/-- Enough spare buffers, and each of them empty. -/
structure Ready (s : AsyncLogging) : Prop where
  inHand : s.InHand s.pc
  constructed : s.owner = .constructed → s.pc = .notStarted
  /-- `nextBuffer_` is used up only when a full buffer waits -/
  next : s.nextBuffer = none ∧ s.buffers ≠ [] ∨ Spare s.nextBuffer

/-- **The invariant.** -/
structure Accounted (s : AsyncLogging) : Prop where
  split : ∃ taken full rest, s.Split taken full rest
  written : s.output ++ s.toWrite = s.toOutput
  ready : s.Ready

theorem accounted_new : new.Accounted :=
  ⟨⟨[], [], [], by constructor <;> rfl⟩, rfl, rfl, fun _ => rfl, .inr spare_new⟩

/-! ## Each step -/

/-- Lines that fit in a buffer at all. -/
def ShortLines (_ : AsyncLogging) : Label → Prop
  | .append logline => logline.length < kLargeBuffer
  | _ => True

instance (s : AsyncLogging) : (a : Label) → Decidable (s.ShortLines a)
  | .append logline => inferInstanceAs (Decidable (logline.length < kLargeBuffer))
  | .backend => isTrue trivial
  | .start => isTrue trivial
  | .startReturns => isTrue trivial
  | .stop => isTrue trivial
  | .clearRunning => isTrue trivial
  | .notify => isTrue trivial
  | .join => isTrue trivial

/-- `append` puts the line behind all others, into one buffer. -/
theorem Split.append (h : s.Split taken full rest) (hn : Spare s.nextBuffer ∨ s.nextBuffer = none)
    {logline : Line} (hshort : logline.length < kLargeBuffer) :
    ∃ full' rest', (s.append logline).Split taken full' rest' := by
  have hlines := h.lines
  unfold AsyncLogging.append
  split
  · rename_i hfits
    refine ⟨full, rest ++ [logline], h.batches, h.buffers, ?_, ?_, h.swapped⟩
    · simp only
      rw [FixedBuffer.data_append hfits, h.current]
      simp
    · simp only
      rw [← hlines]
      simp
  · -- `currentBuffer_` is full: the line is the first of an empty buffer
    refine ⟨full ++ [rest], [logline], h.batches, ?_, ?_, ?_, h.swapped⟩
    · simp only [List.map_append, List.map_cons, List.map_nil]
      rw [h.buffers, h.current]
    · have hempty : (s.nextBuffer.getD .new).data = [] := by
        rcases hn with ⟨b, hb, hnil⟩ | hnone
        · rw [hb]; exact hnil
        · rw [hnone]; rfl
      simp only
      rw [FixedBuffer.data_append_empty hempty hshort]
      simp
    · simp only
      rw [← hlines]
      simp

theorem accounted_append (h : s.Accounted) {logline : Line} (hshort : logline.length < kLargeBuffer) :
    (s.append logline).Accounted := by
  obtain ⟨taken, full, rest, hsplit⟩ := h.split
  have hnext := h.ready.next
  refine ⟨⟨taken, hsplit.append (hnext.symm.imp_right And.left) hshort⟩, ?_, ?_⟩
  · unfold append
    split <;> exact h.written
  · have hhand := h.ready.inHand
    have hcons := h.ready.constructed
    unfold append
    split
    · exact ⟨hhand, hcons, hnext⟩
    · exact ⟨hhand, hcons, .inl ⟨rfl, by simp⟩⟩

/-- The critical section takes every line there is, as one batch. -/
theorem accounted_swap (h : s.Accounted) (hhand : Spare s.newBuffer1 ∧ Spare s.newBuffer2 ∧ s.buffersToWrite = [])
    (hwrite : s.toWrite = []) (hup : s.owner ≠ .constructed) (hs : s.swapBuffers = .ok s') : s'.Accounted := by
  obtain ⟨⟨b₁, hb₁, hnil₁⟩, ⟨b₂, hb₂, hnil₂⟩, -⟩ := hhand
  obtain ⟨taken, full, rest, hsplit⟩ := h.split
  simp only [swapBuffers, hb₁, pure_eq_ok, Except.ok.injEq] at hs
  subst hs
  refine ⟨⟨taken ++ [full ++ [rest]], [], [], ?_, rfl, ?_, ?_, ?_⟩, ?_, ?_, fun heq => absurd heq hup, ?_⟩
  · simp only [List.map_append, List.map_cons, List.map_nil]
    rw [hsplit.batches, hsplit.buffers, hsplit.current]
  · simpa using hnil₁
  · simp only
    rw [← hsplit.lines]
    simp
  · simp only
    rw [← hsplit.lines]
    simp
  · have hwritten := h.written
    rw [hwrite, List.append_nil] at hwritten
    simp only [toWrite, toOutput, List.map_append, List.flatten_append] at hwritten ⊢
    rw [hwritten]
    simp
  · -- the batch holds one buffer at least, and two if `nextBuffer_` had been used
    refine ⟨rfl, by simp, ?_⟩
    rcases h.ready.next with ⟨hnone, hne⟩ | ⟨b, hb, -⟩
    · have hlen := List.length_pos_iff.mpr hne
      refine .inl ⟨by simp [hnone], ?_⟩
      simp only [List.length_append, List.length_cons, List.length_nil]
      omega
    · exact .inr ⟨b₂, by simp [hb, hb₂], hnil₂⟩
  · rcases h.ready.next with ⟨hnone, -⟩ | ⟨b, hb, hnil⟩
    · exact .inr ⟨b₂, by simp [hnone, hb₂], hnil₂⟩
    · exact .inr ⟨b, by simp [hb], hnil⟩

theorem kept_ne_nil {α : Type} {l : List α} (h : l ≠ []) : kept l ≠ [] := by
  rcases Nat.lt_or_ge 25 l.length with hlt | hle
  · rw [kept_of_lt hlt]
    cases l with
    | nil => exact absurd rfl h
    | cons a l => simp
  · rw [kept_of_le hle]
    exact h

theorem two_le_kept {α : Type} {l : List α} (h : 2 ≤ l.length) : 2 ≤ (kept l).length := by
  rcases Nat.lt_or_ge 25 l.length with hlt | hle
  · rw [kept_of_lt hlt, List.length_take]
    omega
  · rw [kept_of_le hle]
    exact h

theorem refill_none {l : List Buffer} (h : l ≠ []) :
    ∃ buffer, refill none l = .ok (buffer, l.dropLast) ∧ Spare buffer := by
  have hlast : l.getLast? = some (l.getLast h) := List.getLast?_eq_some_getLast h
  exact ⟨some (l.getLast h).reset, by simp [refill, hlast], _, rfl, rfl⟩

/-- **Two buffers come back.** The batch gives the back end as many empty buffers as it is short of. -/
theorem recycle_spec (h₁ : s.newBuffer1 = none) (hne : s.buffersToWrite ≠ [])
    (h₂ : s.newBuffer2 = none ∧ 2 ≤ s.buffersToWrite.length ∨ Spare s.newBuffer2) :
    ∃ b₁ b₂, Spare b₁ ∧ Spare b₂ ∧ s.recycle =
      .ok { s with newBuffer1 := b₁, newBuffer2 := b₂, buffersToWrite := [], pc := .flush } := by
  -- what `resize(2)` leaves has two buffers where the batch had
  have hrest : ∀ rest : List Buffer, rest ≠ [] → (s.newBuffer2 = none → 2 ≤ rest.length) →
      ∃ b₁ b₂ l, Spare b₁ ∧ Spare b₂ ∧ refill s.newBuffer1 rest = .ok (b₁, rest.dropLast) ∧
        refill s.newBuffer2 rest.dropLast = .ok (b₂, l) := by
    intro rest hrest hlen
    obtain ⟨b₁, hb₁, hspare₁⟩ := refill_none hrest
    rcases h₂ with ⟨hnone, -⟩ | ⟨b, hb, hnil⟩
    · have hdrop : rest.dropLast ≠ [] := by
        rw [Ne, ← List.length_eq_zero_iff, List.length_dropLast]
        have h2 := hlen hnone
        omega
      obtain ⟨b₂, hb₂, hspare₂⟩ := refill_none hdrop
      exact ⟨b₁, b₂, _, hspare₁, hspare₂, by rw [h₁]; exact hb₁, by rw [hnone]; exact hb₂⟩
    · exact ⟨b₁, some b, rest.dropLast, hspare₁, ⟨b, rfl, hnil⟩, by rw [h₁]; exact hb₁,
        by rw [hb]; rfl⟩
  have hlen : s.newBuffer2 = none → 2 ≤ s.buffersToWrite.length := fun hnone => by
    rcases h₂ with ⟨-, hlen⟩ | ⟨b, hb, -⟩
    · exact hlen
    · rw [hnone] at hb; cases hb
  have hpos := List.length_pos_iff.mpr hne
  by_cases h10 : 10 < s.buffersToWrite.length
  · have h2 : (s.buffersToWrite.take 2).length = 2 := by rw [List.length_take]; omega
    obtain ⟨b₁, b₂, l, hs₁, hs₂, hr₁, hr₂⟩ := hrest (s.buffersToWrite.take 2)
      (by rw [Ne, ← List.length_eq_zero_iff, h2]; decide) (fun _ => le_of_eq h2.symm)
    exact ⟨b₁, b₂, hs₁, hs₂, by simp only [recycle, if_pos h10, hr₁, hr₂, ok_bind, pure_eq_ok]⟩
  · obtain ⟨b₁, b₂, l, hs₁, hs₂, hr₁, hr₂⟩ := hrest s.buffersToWrite hne hlen
    exact ⟨b₁, b₂, hs₁, hs₂, by simp only [recycle, if_neg h10, hr₁, hr₂, ok_bind, pure_eq_ok]⟩

theorem Accounted.not_constructed (h : s.Accounted) {pc : Pc} (hpc : s.pc = pc) (hne : pc ≠ .notStarted) :
    s.owner ≠ .constructed :=
  fun heq => hne (hpc.symm.trans (h.ready.constructed heq))

/-- A piece of the back end that touches neither the front end nor the batches taken. -/
theorem Accounted.moved (h : s.Accounted) (hup : s.owner ≠ .constructed)
    (hframe : s' = { s with
      pc := s'.pc, newBuffer1 := s'.newBuffer1, newBuffer2 := s'.newBuffer2
      buffersToWrite := s'.buffersToWrite, output := s'.output, flushed := s'.flushed })
    (hwrite : s'.output ++ s'.toWrite = s.output ++ s.toWrite) (hhand : s'.InHand s'.pc) : s'.Accounted := by
  obtain ⟨taken, full, rest, hsplit⟩ := h.split
  refine ⟨⟨taken, full, rest, ?_, ?_, ?_, ?_, ?_⟩, ?_, hhand, ?_, ?_⟩
  · rw [hframe]; exact hsplit.batches
  · rw [hframe]; exact hsplit.buffers
  · rw [hframe]; exact hsplit.current
  · rw [hframe]; exact hsplit.lines
  · rw [hframe]; exact hsplit.swapped
  · have hsame : s'.toOutput = s.toOutput := by rw [toOutput, hframe, toOutput]
    rw [hwrite, hsame]; exact h.written
  · intro heq; rw [hframe] at heq; exact absurd heq hup
  · rw [hframe]; exact h.ready.next

/-- The back end: it moves what is to be written on, and keeps its spare buffers. -/
theorem accounted_backend (h : s.Accounted) (hs : s.backend = .ok s') : s'.Accounted := by
  have hhand := h.ready.inHand
  cases backend_step hs with
  | started hpc =>
    exact h.moved (h.not_constructed hpc (by simp)) rfl (by simp [toWrite, hpc]) ⟨spare_new, spare_new, rfl⟩
  | again hpc | wait hpc | write hpc | written hpc | flush hpc =>
    rw [hpc] at hhand
    exact h.moved (h.not_constructed hpc (by simp)) rfl (by simp [toWrite, hpc]) hhand
  | ended hpc | lastFlush hpc =>
    exact h.moved (h.not_constructed hpc (by simp)) rfl (by simp [toWrite, hpc]) trivial
  | swap hpc hswap =>
    rcases hpc with ⟨hpc, -⟩ | hpc
    · rw [hpc] at hhand
      exact accounted_swap h hhand (by simp [toWrite, hpc]) (h.not_constructed hpc (by simp)) hswap
    · rw [hpc] at hhand
      exact accounted_swap h hhand (by simp [toWrite, hpc]) (h.not_constructed hpc (by simp)) hswap
  | overload hpc =>
    rw [hpc] at hhand
    obtain ⟨h₁, hne, h₂⟩ := hhand
    exact h.moved (h.not_constructed hpc (by simp)) rfl (by simp [toWrite, hpc])
      ⟨h₁, kept_ne_nil hne, h₂.imp_left (And.imp_right two_le_kept)⟩
  | recycle hpc hrecycle =>
    rw [hpc] at hhand
    obtain ⟨b₁, b₂, hs₁, hs₂, hrun⟩ := recycle_spec hhand.1 hhand.2.1 hhand.2.2
    rw [hrun, Except.ok.injEq] at hrecycle
    subst hrecycle
    exact h.moved (h.not_constructed hpc (by simp)) rfl (by simp [toWrite, hpc]) ⟨hs₁, hs₂, rfl⟩

/-- A step of the owner that leaves the back end where it is. -/
theorem Accounted.owned (h : s.Accounted) (hstarted : s.pc ≠ .started) (hup : s.owner ≠ .constructed)
    (running : Bool) {owner : OwnerPc} (hne : owner ≠ .constructed) (beforeStop : List Line) :
    { s with running := running, owner := owner, beforeStop := beforeStop }.Accounted := by
  obtain ⟨taken, full, rest, hsplit⟩ := h.split
  have hhand := h.ready.inHand
  have hnew : s.pc ≠ .notStarted := fun hpc => by
    rw [hpc] at hhand
    exact hup hhand
  refine ⟨⟨taken, full, rest, hsplit.batches, hsplit.buffers, hsplit.current, hsplit.lines, hsplit.swapped⟩,
    h.written, ?_, fun heq => absurd heq hne, h.ready.next⟩
  cases hpc : s.pc with
  | notStarted => exact absurd hpc hnew
  | started => exact absurd hpc hstarted
  | _ => rw [hpc] at hhand; exact hhand

/-- **One step.** -/
theorem accounted_step {a : Label} (h : s.Accounted) (ha : s.ShortLines a) (hs : s.step a = .ok s') :
    s'.Accounted := by
  have hhand := h.ready.inHand
  have hstarted : s.owner ≠ .starting → s.pc ≠ .started := fun hne hpc => by
    rw [hpc] at hhand
    exact hne hhand.1
  cases a with
  | append logline =>
    simp only [step, pure_eq_ok, Except.ok.injEq] at hs
    exact hs ▸ accounted_append h ha
  | backend => exact accounted_backend h hs
  | start =>
    simp only [step, bind_eq_ok, enabled_eq_ok, pure_eq_ok, Except.ok.injEq] at hs
    obtain ⟨-, hcons, rfl⟩ := hs
    have hpc := h.ready.constructed hcons
    obtain ⟨taken, full, rest, hsplit⟩ := h.split
    refine ⟨⟨taken, full, rest, hsplit.batches, hsplit.buffers, hsplit.current, hsplit.lines, hsplit.swapped⟩,
      ?_, ⟨rfl, rfl⟩, by simp, h.ready.next⟩
    simpa [toWrite, toOutput, hpc] using h.written
  | startReturns =>
    simp only [step, bind_eq_ok, enabled_eq_ok, pure_eq_ok, Except.ok.injEq] at hs
    obtain ⟨-, ⟨howner, hpc⟩, rfl⟩ := hs
    exact h.owned hpc (by simp [howner]) s.running (by simp) s.beforeStop
  | stop =>
    simp only [step, bind_eq_ok, enabled_eq_ok, pure_eq_ok, Except.ok.injEq] at hs
    obtain ⟨-, howner, rfl⟩ := hs
    exact h.owned (hstarted (by simp [howner])) (by simp [howner]) s.running (by simp) s.lines
  | clearRunning =>
    simp only [step, bind_eq_ok, enabled_eq_ok, pure_eq_ok, Except.ok.injEq] at hs
    obtain ⟨-, howner, rfl⟩ := hs
    exact h.owned (hstarted (by simp [howner])) (by simp [howner]) false (by simp) s.beforeStop
  | notify =>
    simp only [step, bind_eq_ok, enabled_eq_ok, pure_eq_ok, Except.ok.injEq] at hs
    obtain ⟨-, howner, rfl⟩ := hs
    exact h.owned (hstarted (by simp [howner])) (by simp [howner]) s.running (by simp) s.beforeStop
  | join =>
    simp only [step, bind_eq_ok, enabled_eq_ok, pure_eq_ok, Except.ok.injEq] at hs
    obtain ⟨-, ⟨howner, -⟩, rfl⟩ := hs
    exact h.owned (hstarted (by simp [howner])) (by simp [howner]) s.running (by simp) s.beforeStop

theorem accounted_of_reach (h : asyncLogging.Reach ShortLines s) : s.Accounted :=
  h.invariant (I := Accounted) (fun s h0 => by have hs : s = new := h0; exact hs ▸ accounted_new)
    (fun _ _ _ _ hI ha hs => accounted_step hI ha hs)

/-! ## The result -/

/-- No assert of `threadFunc` fails. -/
theorem Accounted.noFault (h : s.Accounted) (a : Label) (f : Fault) : s.step a ≠ .error (.fault f) := by
  have hhand := h.ready.inHand
  intro hs
  cases a with
  | append logline => simp [step] at hs
  | start => simp [step, bind_eq_error, enabled_eq_error] at hs
  | startReturns => simp [step, bind_eq_error, enabled_eq_error] at hs
  | stop => simp [step, bind_eq_error, enabled_eq_error] at hs
  | clearRunning => simp [step, bind_eq_error, enabled_eq_error] at hs
  | notify => simp [step, bind_eq_error, enabled_eq_error] at hs
  | join => simp [step, bind_eq_error, enabled_eq_error] at hs
  | backend =>
    simp only [step] at hs
    have hlength : ∀ {o : Option Buffer}, Spare o → o.map FixedBuffer.length = some 0 := by
      rintro _ ⟨b, rfl, hnil⟩
      simp [FixedBuffer.length, hnil]
    cases hpc : s.pc with
    | notStarted => simp [backend, hpc] at hs
    | started =>
      rw [hpc] at hhand
      simp [backend, hpc, require_of hhand.2] at hs
    | head =>
      rw [hpc] at hhand
      simp only [backend, hpc] at hs
      split at hs
      · simp only [require_of (hlength hhand.1), require_of (hlength hhand.2.1), require_of hhand.2.2, ok_bind,
          pure_eq_ok, reduceCtorEq] at hs
      · simp at hs
    | enter =>
      rw [hpc] at hhand
      obtain ⟨⟨b, hb, -⟩, -⟩ := hhand
      simp only [backend, hpc] at hs
      split at hs
      · simp at hs
      · simp [swapBuffers, hb] at hs
    | waiting =>
      rw [hpc] at hhand
      obtain ⟨⟨b, hb, -⟩, -⟩ := hhand
      simp [backend, hpc, swapBuffers, hb] at hs
    | swapped =>
      rw [hpc] at hhand
      simp [backend, hpc, require_of hhand.2.1] at hs
    | writing todo => cases todo <;> simp [backend, hpc] at hs
    | recycle =>
      rw [hpc] at hhand
      obtain ⟨b₁, b₂, -, -, hrun⟩ := recycle_spec hhand.1 hhand.2.1 hhand.2.2
      simp [backend, hpc, hrun] at hs
    | flush => simp [backend, hpc] at hs
    | lastFlush => simp [backend, hpc] at hs
    | finished => simp [backend, hpc] at hs

/-- What the log has of the lines, between any two steps outside the critical sections. -/
structure Integrity (s : AsyncLogging) : Prop where
  /-- the lines lie in the buffers in the order of the mutex, each whole in one buffer; what was handed
      out, what is still to come of the batch, `buffers_` and `currentBuffer_` are all of them, less what
      was dropped behind the first two buffers of a batch of more than 25 -/
  bytes : ∃ taken full rest, s.Split taken full rest ∧
    s.output ++ s.toWrite ++ (s.buffers.map FixedBuffer.data).flatten ++ s.currentBuffer.data =
      ((taken.map kept).flatten ++ full ++ [rest]).flatten.flatten
  noFault : ∀ a f, s.step a ≠ .error (.fault f)

/-- **The log is whole.** -/
theorem log_integrity (h : asyncLogging.Reach ShortLines s) : s.Integrity := by
  have ha := accounted_of_reach h
  obtain ⟨taken, full, rest, hsplit⟩ := ha.split
  refine ⟨⟨taken, full, rest, hsplit, ?_⟩, ha.noFault⟩
  have hfull : (s.buffers.map FixedBuffer.data).flatten = full.flatten.flatten := by
    rw [hsplit.buffers, ← List.flatten_flatten]
  rw [ha.written, hsplit.toOutput, hfull, hsplit.current]
  simp

/-! ### A batch of more than 25 buffers -/

section Overload

variable {line : List Byte}

/-- A log that is not started, after `k + 1` lines of which no two fit one buffer. -/
def filled (line : List Byte) (h : line.length ≤ kLargeBuffer) (k : Nat) : AsyncLogging :=
  { new with
    currentBuffer := ⟨line, h⟩
    nextBuffer := if k = 0 then some .new else none
    buffers := List.replicate k ⟨line, h⟩
    lines := List.replicate (k + 1) line }

theorem append_empty (h : line.length < kLargeBuffer) : (FixedBuffer.new : Buffer).append line = ⟨line, h.le⟩ := by
  rw [FixedBuffer.append, dif_pos (show line.length < (FixedBuffer.new : Buffer).avail from h)]
  rfl

theorem append_new (h : line.length < kLargeBuffer) : new.append line = filled line h.le 0 := by
  unfold append
  rw [if_pos (show line.length < new.currentBuffer.avail from h)]
  simp [filled, new, append_empty h]

/-- The next line goes to the next buffer. -/
theorem append_filled (h : line.length < kLargeBuffer) (htwo : kLargeBuffer ≤ 2 * line.length) (k : Nat) :
    (filled line h.le k).append line = filled line h.le (k + 1) := by
  have hfull : ¬ line.length < (filled line h.le k).currentBuffer.avail := by
    show ¬ line.length < kLargeBuffer - line.length
    omega
  have hnext : (filled line h.le k).nextBuffer.getD .new = .new := by
    unfold filled
    by_cases hk : k = 0
    · simp [hk]
    · simp [hk]
  unfold append
  rw [if_neg hfull, hnext, append_empty h]
  simp [filled, List.replicate_succ']

theorem reach_filled (h : line.length < kLargeBuffer) (htwo : kLargeBuffer ≤ 2 * line.length) (k : Nat) :
    asyncLogging.Reach ShortLines (filled line h.le k) := by
  induction k with
  | zero => exact .step (.init rfl) (a := .append line) h (congrArg Except.ok (append_new h))
  | succ k ih => exact ih.step (a := .append line) h (congrArg Except.ok (append_filled h htwo k))

/-- The back end takes all the buffers at once. -/
theorem filled_swapped (h : line.length < kLargeBuffer) (htwo : kLargeBuffer ≤ 2 * line.length) (k : Nat) :
    ∃ s, asyncLogging.Reach ShortLines s ∧ s.pc = .swapped ∧
      s.buffersToWrite = List.replicate (k + 1) ⟨line, h.le⟩ ++ [⟨line, h.le⟩] ∧
      s.batches = [List.replicate (k + 1) ⟨line, h.le⟩ ++ [⟨line, h.le⟩]] ∧ s.output = [] ∧
      s.lines = List.replicate (k + 2) line := by
  obtain ⟨s, hrun, hs⟩ : ∃ s, asyncLogging.execWhile ShortLines (filled line h.le (k + 1))
      [.start, .backend, .startReturns, .backend, .backend] = .ok s ∧ s.pc = .swapped ∧
      s.buffersToWrite = List.replicate (k + 1) ⟨line, h.le⟩ ++ [⟨line, h.le⟩] ∧
      s.batches = [List.replicate (k + 1) ⟨line, h.le⟩ ++ [⟨line, h.le⟩]] ∧ s.output = [] ∧
      s.lines = List.replicate (k + 2) line := ⟨_, rfl, rfl, rfl, rfl, rfl, rfl⟩
  exact ⟨s, (reach_filled h htwo (k + 1)).execWhile hrun, hs⟩

/-- **The overload rule in a run**: of the buffers of a batch of more than 25 the back end writes two. -/
theorem overload_drops (h : line.length < kLargeBuffer) (htwo : kLargeBuffer ≤ 2 * line.length) {k : Nat}
    (hk : 24 ≤ k) : ∃ s, asyncLogging.Reach ShortLines s ∧ s.lines = List.replicate (k + 2) line ∧
      s.batches.map List.length = [k + 2] ∧ s.pc = .writing [] ∧ s.output = line ++ line := by
  obtain ⟨s, hreach, hpc, hbatch, hbatches, houtput, hlines⟩ := filled_swapped h htwo k
  have hkept : kept s.buffersToWrite = [⟨line, h.le⟩, ⟨line, h.le⟩] := by
    rw [hbatch, kept_of_lt (by simp; omega)]
    obtain ⟨k, rfl⟩ := Nat.exists_eq_add_of_le' hk
    rfl
  have hne : s.buffersToWrite ≠ [] := by
    rw [hbatch]
    exact List.append_ne_nil_of_right_ne_nil _ (List.cons_ne_nil _ _)
  have hoverload : s.step .backend =
      .ok { s with buffersToWrite := kept s.buffersToWrite, pc := .writing (kept s.buffersToWrite) } := by
    simp only [step, backend, hpc, require_of hne, ok_bind, pure_eq_ok]
  rw [hkept] at hoverload
  have hshort : ∀ s : AsyncLogging, s.ShortLines .backend := fun _ => trivial
  have hwriting := hreach.step (hshort s) hoverload
  refine ⟨_, (hwriting.step (hshort _) rfl).step (hshort _) rfl, hlines, ?_, rfl, ?_⟩
  · show s.batches.map List.length = _
    simp [hbatches]
  · show s.output ++ line ++ line = _
    rw [houtput, List.nil_append]

end Overload

/-- Two lines before the first batch, a third while it is written; and 26 buffers in one batch. -/
theorem log_integrity_sample :
    (∃ s : AsyncLogging, s.output = [1, 2, 3] ∧ s.currentBuffer.data = [4] ∧ s.lines = [[1, 2], [3], [4]] ∧
      s.Integrity) ∧
    ∃ s : AsyncLogging, s.lines.length = 26 ∧ s.batches.map List.length = [26] ∧ s.pc = .writing [] ∧
      s.output = List.replicate 6000000 0 ∧ s.Integrity := by
  constructor
  · obtain ⟨s, hs, hp⟩ := System.Reach.of_execWhile (S := asyncLogging) (C := ShortLines)
      (l := [.append [1, 2], .start, .backend, .startReturns, .backend, .append [3], .backend, .backend, .backend,
        .append [4], .backend])
      (p := fun s => decide (s.output = [1, 2, 3] ∧ s.currentBuffer.data = [4] ∧ s.lines = [[1, 2], [3], [4]]))
      (.init rfl) (by decide +kernel)
    rw [decide_eq_true_eq] at hp
    exact ⟨s, hp.1, hp.2.1, hp.2.2, log_integrity hs⟩
  · have hlength : (List.replicate 3000000 (0 : Byte)).length = 3000000 := List.length_replicate
    have hfits : (List.replicate 3000000 (0 : Byte)).length < kLargeBuffer := by rw [hlength]; decide
    have htwo : kLargeBuffer ≤ 2 * (List.replicate 3000000 (0 : Byte)).length := by rw [hlength]; decide
    obtain ⟨s, hs, hlines, hbatches, hpc, houtput⟩ := overload_drops hfits htwo (le_refl 24)
    refine ⟨s, ?_, hbatches, hpc, ?_, log_integrity hs⟩
    · rw [hlines, List.length_replicate]
    · rw [houtput, List.replicate_append_replicate]

end AsyncLogging

end Irono
