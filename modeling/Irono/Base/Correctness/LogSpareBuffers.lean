import Irono.Base.Correctness.LogIntegrity
import Irono.Base.LogPointers

/-!
# `Base.Correctness.LogSpareBuffers` — no pointer of the log is null when it is used

A state of the log shows the pointers `ofLog` of a state of `AsyncLogging`, and they take the same steps
(`step_ofLog`): what is accounted for there never puts a null pointer where one is dereferenced. Two buffers
can always be taken back from a batch, for `nextBuffer_` is missing only when a full buffer is queued.
-/

namespace Irono

open Transition AsyncLogging

namespace LogPointers

variable {s : AsyncLogging} {p : LogPointers}

/-! ## The pointers of a state -/

def ofPc : AsyncLogging.Pc → Pc
  | .notStarted => .notStarted
  | .started => .started
  | .head => .head
  | .enter => .enter
  | .waiting => .waiting
  | .swapped => .swapped
  | .writing rest => .writing (rest.map some)
  | .recycle => .recycle
  | .flush => .flush
  | .lastFlush => .lastFlush
  | .finished => .finished

/-- The pointers, where `AsyncLogging` has the buffers. -/
def ofLog (s : AsyncLogging) : LogPointers :=
  { running := s.running, currentBuffer := some s.currentBuffer, nextBuffer := s.nextBuffer
    buffers := s.buffers.map some, pc := ofPc s.pc, newBuffer1 := s.newBuffer1, newBuffer2 := s.newBuffer2
    buffersToWrite := s.buffersToWrite.map some, owner := s.owner, output := s.output, flushed := s.flushed }

/-! ## The same steps -/

/-- The front end's `append` on pointers is that on buffers. -/
theorem append_ofLog (s : AsyncLogging) (logline : List Byte) :
    (ofLog s).append logline = .ok (ofLog (s.append logline)) := by
  unfold append AsyncLogging.append
  by_cases hfits : logline.length < s.currentBuffer.avail
  · simp [ofLog, deref, hfits]
  · cases hnext : s.nextBuffer with
    | none => simp [ofLog, deref, hfits, hnext]
    | some next => simp [ofLog, deref, hfits, hnext]

/-- So is the swap under the mutex, -/
theorem swapBuffers_ofLog {s' : AsyncLogging} (hempty : s.buffersToWrite = []) (hs : s.swapBuffers = .ok s') :
    (ofLog s).swapBuffers = ofLog s' := by
  unfold AsyncLogging.swapBuffers at hs
  split at hs
  · cases hs
  · rename_i buffer hbuffer
    rw [pure_eq_ok, Except.ok.injEq] at hs
    subst hs
    cases hnext : s.nextBuffer with
    | none => simp [swapBuffers, ofLog, ofPc, hempty, hnext, hbuffer]
    | some next => simp [swapBuffers, ofLog, ofPc, hempty, hnext, hbuffer]

theorem resized_map (l : List Buffer) :
    resized (l.map some) = (if 10 < l.length then l.take 2 else l).map some := by
  unfold resized
  rw [List.length_map]
  split
  · rw [List.map_take]
  · rfl

theorem refill_map (newBuffer : Option Buffer) (l : List Buffer) :
    refill newBuffer (l.map some) = (AsyncLogging.refill newBuffer l >>= fun r => .ok (r.1, r.2.map some)) := by
  unfold refill AsyncLogging.refill
  cases newBuffer with
  | some buffer => rfl
  | none =>
    cases hlast : l.getLast? with
    | none =>
      have hnil : l.map some = [] := by rw [List.getLast?_eq_none_iff.mp hlast]; rfl
      simp [hnil, require]
    | some buffer =>
      have hne : l.map some ≠ [] := by
        intro hnil
        rw [List.map_eq_nil_iff.mp hnil] at hlast
        cases hlast
      simp only [require_of hne, ok_bind, List.getLast?_map, hlast, Option.map_some, Option.join_some, deref, pure_eq_ok,
        List.map_dropLast]

/-- and the refilling of the two spare buffers. -/
theorem recycle_ofLog {s' : AsyncLogging} (hs : s.recycle = .ok s') : (ofLog s).recycle = .ok (ofLog s') := by
  unfold AsyncLogging.recycle at hs
  simp only [bind_eq_ok, pure_eq_ok, Except.ok.injEq] at hs
  obtain ⟨⟨b₁, rest⟩, h₁, ⟨b₂, rest'⟩, h₂, rfl⟩ := hs
  have hresized : resized (ofLog s).buffersToWrite =
      (if 10 < s.buffersToWrite.length then s.buffersToWrite.take 2 else s.buffersToWrite).map some := resized_map _
  unfold recycle
  rw [hresized]
  show (refill s.newBuffer1 _ >>= _) = _
  rw [refill_map, h₁]
  simp only [ok_bind]
  show (refill s.newBuffer2 _ >>= _) = _
  rw [refill_map, h₂]
  rfl

theorem kept_map_some (l : List Buffer) : kept (l.map some) = (kept l).map some := kept_map some l

/-- A piece of the back end, by where it is. -/
theorem backend_ofLog (h : s.Accounted) {s' : AsyncLogging} (hs : s.backend = .ok s') :
    (ofLog s).backend = .ok (ofLog s') := by
  have hhand := h.ready.inHand
  cases AsyncLogging.backend_step hs with
  | started hpc hrunning => simp [backend, ofLog, ofPc, hpc, hrunning, require]
  | again hpc hrunning h₁ h₂ hempty => simp [backend, ofLog, ofPc, hpc, hrunning, hempty, h₁, h₂, require]
  | ended hpc hstopped => simp [backend, ofLog, ofPc, hpc, hstopped]
  | wait hpc hnil => simp [backend, ofLog, ofPc, hpc, hnil]
  | swap hpc hswap =>
    rcases hpc with ⟨hpc, hne⟩ | hpc
    · -- the queue is not empty: no wait, and the critical section goes on
      rw [hpc] at hhand
      have hne' : (ofLog s).buffers ≠ [] := fun hnil => hne (List.map_eq_nil_iff.mp hnil)
      have hpc' : (ofLog s).pc = .enter := by rw [ofLog, hpc]; rfl
      unfold backend
      rw [hpc']
      simp only [if_neg hne', pure_eq_ok]
      rw [swapBuffers_ofLog hhand.2.2 hswap]
    · rw [hpc] at hhand
      have hpc' : (ofLog s).pc = .waiting := by rw [ofLog, hpc]; rfl
      unfold backend
      rw [hpc']
      simp only [pure_eq_ok]
      rw [swapBuffers_ofLog hhand.2.2 hswap]
  | overload hpc hne => simp [backend, ofLog, ofPc, hpc, hne, require, kept_map_some]
  | write hpc => simp [backend, ofLog, ofPc, hpc, deref]
  | written hpc => simp [backend, ofLog, ofPc, hpc]
  | recycle hpc hrecycle =>
    have hpc' : (ofLog s).pc = .recycle := by rw [ofLog, hpc]; rfl
    unfold backend
    rw [hpc']
    exact recycle_ofLog hrecycle
  | flush hpc => simp [backend, ofLog, ofPc, hpc]
  | lastFlush hpc => simp [backend, ofLog, ofPc, hpc]

/-- The back end waits for nobody, once it has begun and until it is done. -/
theorem backend_blocked (h : s.backend = .error .blocked) : s.pc = .notStarted ∨ s.pc = .finished := by
  have hswap : s.swapBuffers ≠ .error .blocked := by
    unfold AsyncLogging.swapBuffers
    split <;> simp
  have hrefill : ∀ b l, AsyncLogging.refill b l ≠ .error .blocked := by
    intro b l
    unfold AsyncLogging.refill
    split
    · simp
    · split <;> simp
  have hrecycle : s.recycle ≠ .error .blocked := by
    unfold AsyncLogging.recycle
    simp [bind_eq_error, hrefill]
  unfold AsyncLogging.backend at h
  cases hpc : s.pc with
  | notStarted => exact .inl rfl
  | finished => exact .inr rfl
  | enter =>
    simp only [hpc] at h
    split at h
    · simp at h
    · exact absurd h hswap
  | waiting =>
    simp only [hpc] at h
    exact absurd h hswap
  | recycle =>
    simp only [hpc] at h
    exact absurd h hrecycle
  | head =>
    simp only [hpc] at h
    split at h
    · simp [bind_eq_error, require_eq_error] at h
    · simp at h
  | writing rest => cases rest <;> simp [hpc] at h
  | started => simp [hpc, bind_eq_error, require_eq_error] at h
  | swapped => simp [hpc, bind_eq_error, require_eq_error] at h
  | flush => simp [hpc] at h
  | lastFlush => simp [hpc] at h

theorem ofPc_injective : Function.Injective ofPc := by
  intro q r h
  have hmap : Function.Injective (List.map (some : Buffer → BufferPtr)) :=
    List.map_injective_iff.mpr (Option.some_injective _)
  -- only `writing` has an argument
  cases q <;> cases r <;> first | rfl | cases h | exact congrArg _ (hmap (Pc.writing.inj h))

theorem ofLog_pc {q : AsyncLogging.Pc} : (ofLog s).pc = ofPc q ↔ s.pc = q := ofPc_injective.eq_iff

/-- **The pointers take the steps of the buffers**, and stop where they do. -/
theorem step_ofLog (h : s.Accounted) (a : Label) :
    (∃ s', s.step a = .ok s' ∧ (ofLog s).step a = .ok (ofLog s')) ∨ (ofLog s).step a = .error .blocked := by
  -- the owner's steps are guarded by the same test on both sides
  have howner : ∀ {q r : Prop} [Decidable q] [Decidable r] {s' : AsyncLogging} {p' : LogPointers}, (q ↔ r) →
      ofLog s' = p' → (∃ t, (enabled q >>= fun _ => .ok s' : Result Fault AsyncLogging) = .ok t ∧
        (enabled r >>= fun _ => .ok p' : Result Fault LogPointers) = .ok (ofLog t)) ∨
        (enabled r >>= fun _ => .ok p' : Result Fault LogPointers) = .error .blocked := by
    intro q r _ _ s' p' hqr hp
    by_cases hq : q
    · rw [enabled_of hq, enabled_of (hqr.mp hq)]
      exact .inl ⟨s', rfl, congrArg _ hp.symm⟩
    · right
      rw [enabled, if_neg (mt hqr.mpr hq), error_bind]
  cases a with
  | append logline => exact .inl ⟨_, rfl, append_ofLog s logline⟩
  | backend =>
    cases hs : s.backend with
    | ok s' => exact .inl ⟨s', hs, backend_ofLog h hs⟩
    | error e =>
      cases e with
      | fault f => exact absurd hs (h.noFault .backend f)
      | blocked =>
        right
        show (ofLog s).backend = _
        unfold backend
        rcases backend_blocked hs with hpc | hpc
        · simp [ofLog, hpc, ofPc]
        · simp [ofLog, hpc, ofPc]
  | start => exact howner Iff.rfl rfl
  | startReturns => exact howner (and_congr_right fun _ => not_congr (ofLog_pc (q := .started)).symm) rfl
  | stop => exact howner Iff.rfl rfl
  | clearRunning => exact howner Iff.rfl rfl
  | notify => exact howner Iff.rfl rfl
  | join => exact howner (and_congr_right fun _ => (ofLog_pc (q := .finished)).symm) rfl

/-! ## Every run -/

/-- Lines that fit in a buffer at all. -/
def ShortLines (_ : LogPointers) : Label → Prop
  | .append logline => logline.length < kLargeBuffer
  | _ => True

instance (p : LogPointers) (a : Label) : Decidable (p.ShortLines a) := by
  cases a <;> unfold ShortLines <;> infer_instance

/-- Every state of the pointers is one of the buffers. -/
theorem exists_ofLog (h : logPointers.Reach ShortLines p) : ∃ s : AsyncLogging, s.Accounted ∧ p = ofLog s := by
  refine h.invariant (I := fun p => ∃ s : AsyncLogging, s.Accounted ∧ p = ofLog s) (fun p h0 => ?_) ?_
  · have hp : p = new := h0
    exact ⟨AsyncLogging.new, accounted_new, hp⟩
  · rintro _ a p' - ⟨s, hs, rfl⟩ ha hstep
    have hstep' : (ofLog s).step a = .ok p' := hstep
    rcases step_ofLog hs a with ⟨s', hs', hof⟩ | hblocked
    · rw [hof, Except.ok.injEq] at hstep'
      have hshort : s.ShortLines a := by
        cases a <;> exact ha
      exact ⟨s', accounted_step hs hshort hs', hstep'.symm⟩
    · rw [hblocked] at hstep'
      cases hstep'

/-! ## The result -/

/-- How many buffers the back end has to take back. -/
def missing (p : LogPointers) : Nat := (if p.newBuffer1 = none then 1 else 0) + if p.newBuffer2 = none then 1 else 0

/-- What holds of the pointers between any two pieces, when `mutex_` is free. -/
structure NeverNull (p : LogPointers) : Prop where
  /-- no assert fails, and no null pointer is used -/
  noFault : ∀ a f, p.step a ≠ .error (.fault f)
  current : p.currentBuffer ≠ none
  head : p.pc = .head → Spare p.newBuffer1 ∧ Spare p.newBuffer2
  /-- the batch is enough, and none of its pointers is null: after the overload rule, and after `resize` -/
  kept : p.pc = .swapped → p.missing ≤ (AsyncLogging.kept p.buffersToWrite).length ∧ none ∉ p.buffersToWrite
  resized : p.pc = .recycle → p.missing ≤ (resized p.buffersToWrite).length ∧ none ∉ p.buffersToWrite
  /-- `nextBuffer_` is empty as long as it is there -/
  next : p.nextBuffer = none ∨ Spare p.nextBuffer
  /-- what the back end hands over is empty -/
  recycled : ∀ p', p.step .backend = .ok p' → p'.pc = .swapped →
    Spare p'.currentBuffer ∧ (p.nextBuffer = none → Spare p'.nextBuffer)

theorem none_notMem_map (l : List Buffer) : none ∉ l.map some := by
  intro hmem
  obtain ⟨buffer, -, hnone⟩ := List.mem_map.mp hmem
  cases hnone

/-- Two are missing only when there are two. -/
theorem missing_le {α : Type} {l : List α} (hne : l ≠ [])
    (h : p.newBuffer2 = none ∧ 2 ≤ l.length ∨ Spare p.newBuffer2) :
    p.missing ≤ l.length := by
  have hpos := List.length_pos_iff.mpr hne
  unfold missing
  rcases h with ⟨hnone, htwo⟩ | ⟨buffer, hsome, -⟩
  · rw [hnone]
    split
    all_goals simp only [if_true]; omega
  · rw [hsome]
    split
    all_goals simp only [reduceCtorEq, if_false]; omega

theorem resized_ne_nil {l : List BufferPtr} (h : l ≠ []) : LogPointers.resized l ≠ [] := by
  unfold LogPointers.resized
  split
  · rw [ne_eq, ← List.length_eq_zero_iff, List.length_take]
    omega
  · exact h

theorem two_le_resized {l : List BufferPtr} (h : 2 ≤ l.length) : 2 ≤ (LogPointers.resized l).length := by
  unfold LogPointers.resized
  split
  · rw [List.length_take]
    omega
  · exact h

/-- What the back end hands to the front end is a spare buffer. -/
theorem spare_of_swap (hhand : Spare s.newBuffer1 ∧ Spare s.newBuffer2 ∧ s.buffersToWrite = []) :
    Spare (ofLog s).swapBuffers.currentBuffer ∧
      ((ofLog s).nextBuffer = none → Spare (ofLog s).swapBuffers.nextBuffer) := by
  refine ⟨hhand.1, fun hnext => ?_⟩
  have hnext' : s.nextBuffer = none := hnext
  show Spare (if s.nextBuffer.isNone then s.newBuffer2 else s.nextBuffer)
  rw [hnext']
  exact hhand.2.1

/-- The critical section is the one piece that ends where a batch has been taken. -/
theorem swapBuffers_of_backend {s' : AsyncLogging} (hs : s.backend = .ok s') (hpc : s'.pc = .swapped) :
    (s.pc = .enter ∨ s.pc = .waiting) ∧ s.swapBuffers = .ok s' := by
  cases AsyncLogging.backend_step hs with
  | swap hq hswap => exact ⟨hq.imp_left And.left, hswap⟩
  | recycle hq hrecycle =>
    simp only [AsyncLogging.recycle, bind_eq_ok, pure_eq_ok, Except.ok.injEq] at hrecycle
    obtain ⟨_, -, _, -, rfl⟩ := hrecycle
    cases hpc
  | _ => cases hpc

/-- A pointer that is used points to a buffer. -/
theorem neverNull_of_accounted (h : s.Accounted) : (ofLog s).NeverNull := by
  have hhand := h.ready.inHand
  refine ⟨fun a f hs => ?_, by simp [ofLog], fun hpc => ?_, fun hpc => ?_, fun hpc => ?_, ?_, fun p' hs hpc => ?_⟩
  · rcases step_ofLog h a with ⟨s', -, hof⟩ | hblocked
    · rw [hof] at hs
      cases hs
    · rw [hblocked] at hs
      cases hs
  · rw [(ofLog_pc (q := .head)).mp hpc] at hhand
    exact ⟨hhand.1, hhand.2.1⟩
  · -- the overload rule keeps two buffers where there were two
    rw [(ofLog_pc (q := .swapped)).mp hpc] at hhand
    obtain ⟨-, hne, htwo⟩ := hhand
    refine ⟨?_, none_notMem_map _⟩
    show missing _ ≤ (AsyncLogging.kept (s.buffersToWrite.map some)).length
    rw [kept_map_some, List.length_map]
    exact missing_le (kept_ne_nil hne) (htwo.imp_left (And.imp_right two_le_kept))
  · rw [(ofLog_pc (q := .recycle)).mp hpc] at hhand
    obtain ⟨-, hne, htwo⟩ := hhand
    have hne' : s.buffersToWrite.map some ≠ [] := fun hnil => hne (List.map_eq_nil_iff.mp hnil)
    refine ⟨missing_le (resized_ne_nil hne') (htwo.imp_left (And.imp_right fun h2 => two_le_resized ?_)),
      none_notMem_map _⟩
    show 2 ≤ (s.buffersToWrite.map some).length
    rwa [List.length_map]
  · exact h.ready.next.imp_left And.left
  · -- a batch has just been taken, in exchange for the spare buffers
    rcases step_ofLog h .backend with ⟨s', hs', hof⟩ | hblocked
    · have hp : ofLog s' = p' := by
        rw [hof, Except.ok.injEq] at hs
        exact hs
      subst hp
      obtain ⟨hq, hswap⟩ := swapBuffers_of_backend hs' ((ofLog_pc (q := .swapped)).mp hpc)
      have hspare : Spare s.newBuffer1 ∧ Spare s.newBuffer2 ∧ s.buffersToWrite = [] := by
        rcases hq with hq | hq
        · rwa [hq] at hhand
        · rwa [hq] at hhand
      rw [← swapBuffers_ofLog hspare.2.2 hswap]
      exact spare_of_swap hspare
    · rw [hblocked] at hs
      cases hs

/-- **No pointer is null when it is used.** -/
theorem never_null (h : logPointers.Reach ShortLines p) : p.NeverNull := by
  obtain ⟨s, hs, rfl⟩ := exists_ofLog h
  exact neverNull_of_accounted hs

/-- A batch of one buffer, written out: it is what the back end is short of. -/
theorem never_null_refill : ∃ p : LogPointers, p.pc = .recycle ∧ p.missing = 1 ∧ p.NeverNull := by
  obtain ⟨p, hp, hpc⟩ := System.Reach.of_execWhile (S := logPointers) (C := ShortLines)
    (l := [.append [1, 2], .start, .backend, .startReturns, .backend, .append [3], .backend, .backend, .backend,
      .append [4], .backend, .backend])
    (p := fun p => decide (p.pc = .recycle ∧ p.missing = 1)) (.init rfl) (by decide +kernel)
  rw [decide_eq_true_eq] at hpc
  exact ⟨p, hpc.1, hpc.2, never_null hp⟩

end LogPointers

end Irono
