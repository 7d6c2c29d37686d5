import Irono.Base.Correctness.LogFile
import Irono.Base.LogOnFile

/-!
# `Base.Correctness.LogOnFile` — the bytes of the file are the output of the log

`AsyncLogging` hands its buffers to `output_` in one step. Here these are the calls of one thread of `LogFile`,
and other threads may flush at any time. The log's part of a run is a run of `AsyncLogging`, so what holds of
its `output` and `flushed` holds of the file.
-/

namespace Irono

open Transition

/-! ## The file between the calls -/

namespace LogFile

variable {s s' : LogFile} {t backend : ThreadId} {l : Label}

/-- The thread is in `append`, and its line is not counted, or to be flushed. -/
def Pc.appending : Pc → Bool
  | .append _ => true
  | .first _ => true
  | .again _ _ => true
  | .count _ _ => true
  | .flushEvery => true
  | _ => false

/-- Nobody is in `append`. -/
def Quiet (s : LogFile) : Prop := ∀ t, (s.pc t).appending = false

/-- What this thread has flushed is out of the buffer. -/
def Synced (s : LogFile) (t : ThreadId) : Prop :=
  s.pc t = .unlock ∨ s.pc t = .outside → s.failed = false → s.file.taken.length ≤ s.file.out

theorem Pc.pending_of_quiet {pc : Pc} (h : pc.appending = false) : pc.pending = [] := by
  cases pc <;> first | rfl | cases h

/-- A thread has one line to append, or none. -/
theorem Pc.pending_cases (pc : Pc) : pc.pending = [] ∨ ∃ line, pc.pending = [line] := by
  cases pc <;> simp [Pc.pending]

theorem Pc.progress_of_quiet {pc : Pc} (h : pc.appending = false) : pc.progress = [] := by
  cases pc <;> first | rfl | cases h

/-- What a piece of a call leaves as it is. -/
structure Inside (s s' : LogFile) : Prop where
  called : s'.called = s.called
  out : s.file.out ≤ s'.file.out
  failed : s'.failed = false → s.failed = false
  refused : s'.refused = 0 → s.refused = 0
  outside : ∀ u, s.pc u = .outside → s'.pc u = .outside
  appending : ∀ u, (s'.pc u).appending = true → (s.pc u).appending = true
  pending : ∀ u, ∀ line ∈ (s'.pc u).pending, line ∈ (s.pc u).pending

theorem Inside.setPc {pc : Pc} (hpc : s'.pc = Function.update s.pc t pc) (hcalled : s'.called = s.called)
    (hout : s.file.out ≤ s'.file.out) (hfailed : s'.failed = false → s.failed = false)
    (hrefused : s'.refused = 0 → s.refused = 0) (houtside : s.pc t ≠ .outside)
    (happending : pc.appending = true → (s.pc t).appending = true)
    (hpending : ∀ line ∈ pc.pending, line ∈ (s.pc t).pending) : s.Inside s' := by
  refine ⟨hcalled, hout, hfailed, hrefused, ?_, ?_, ?_⟩
  · intro u hu
    rw [hpc, Function.update_of_ne, hu]
    rintro rfl
    exact houtside hu
  · intro u hu
    rw [hpc] at hu
    by_cases hut : u = t
    · subst hut
      rw [Function.update_self] at hu
      exact happending hu
    · rw [Function.update_of_ne hut] at hu
      exact hu
  · intro u line hline
    rw [hpc] at hline
    by_cases hut : u = t
    · subst hut
      rw [Function.update_self] at hline
      exact hpending line hline
    · rw [Function.update_of_ne hut] at hline
      exact hline

/-- A piece of a call gives the call no other line. -/
theorem Moves.inside (hm : s.Moves l s') (hl : l.inside = true) (h : s.Inv) : s.Inside s' := by
  cases hm with
  | append => cases hl
  | flush => cases hl
  | lockAppend _ hpc =>
    exact .setPc rfl rfl le_rfl id id (by rw [hpc]; nofun) (fun _ => by rw [hpc]; rfl) (by rw [hpc]; exact fun _ => id)
  | lockFlush _ hpc => exact .setPc rfl rfl le_rfl id id (by rw [hpc]; nofun) nofun nofun
  | first hpc hwrites =>
    exact .setPc rfl rfl hwrites.2.1 id id (by rw [hpc]; nofun) (fun _ => by rw [hpc]; rfl)
      (by rw [hpc, loop_pending]; exact fun _ => id)
  | again hpc hwrites =>
    exact .setPc rfl rfl hwrites.2.1 id id (by rw [hpc]; nofun) (fun _ => by rw [hpc]; rfl)
      (by rw [hpc, loop_pending]; exact fun _ => id)
  | refused hpc hwrites =>
    exact .setPc rfl rfl hwrites.2.1 id nofun (by rw [hpc]; nofun) (fun _ => by rw [hpc]; rfl)
      (by rw [hpc]; exact fun _ => id)
  | count hpc => exact .setPc rfl rfl le_rfl id id (by rw [hpc]; nofun) nofun nofun
  | countFlush hpc => exact .setPc rfl rfl le_rfl id id (by rw [hpc]; nofun) (fun _ => by rw [hpc]; rfl) nofun
  | fflush hpc =>
    refine .setPc rfl rfl h.out id id ?_ nofun nofun
    rcases hpc with hpc | hpc <;> rw [hpc] <;> nofun
  | fflushFails hpc hmore =>
    refine .setPc rfl rfl hmore nofun id ?_ nofun nofun
    rcases hpc with hpc | hpc <;> rw [hpc] <;> nofun
  | unlock hpc => exact .setPc rfl rfl le_rfl id id (by rw [hpc]; nofun) nofun nofun

/-- A `flush` that is over has flushed, when nobody appends. -/
theorem Moves.synced (hm : s.Moves l s') (hl : l.inside = true) (hquiet : s.Quiet) (h : s.Synced backend) :
    s'.Synced backend := by
  have hnot : ∀ {t pc}, s.pc t = pc → pc.appending = true → False := by
    intro t pc hpc happending
    have hfalse := hquiet t
    rw [hpc, happending] at hfalse
    cases hfalse
  cases hm with
  | append => cases hl
  | flush => cases hl
  | lockAppend _ hpc => exact (hnot hpc rfl).elim
  | first hpc => exact (hnot hpc rfl).elim
  | again hpc => exact (hnot hpc rfl).elim
  | refused hpc => exact (hnot hpc rfl).elim
  | count hpc => exact (hnot hpc rfl).elim
  | countFlush hpc => exact (hnot hpc rfl).elim
  | @lockFlush t _ hpc =>
    intro hdone
    by_cases hb : backend = t
    · subst hb
      have hself : Function.update s.pc backend .fflush backend = .fflush := Function.update_self ..
      rcases hdone with hdone | hdone <;> cases hself.symm.trans hdone
    · have hother : Function.update s.pc t .fflush backend = s.pc backend := Function.update_of_ne hb _ _
      exact h (hdone.imp hother.symm.trans hother.symm.trans)
  | fflush hpc => exact fun _ _ => le_rfl
  | fflushFails hpc => exact fun _ => nofun
  | @unlock t hpc =>
    intro hdone
    by_cases hb : backend = t
    · subst hb
      exact h (.inl hpc)
    · have hother : Function.update s.pc t .outside backend = s.pc backend := Function.update_of_ne hb _ _
      exact h (hdone.imp hother.symm.trans hother.symm.trans)

/-- All the lines are of the thread that calls. -/
theorem Inv.lines_of_only (h : s.Inv) (honly : ∀ x ∈ s.called, x.1 = backend) :
    s.lines.map Line.logline ++ (s.pc backend).pending = s.called.map Prod.snd := by
  have hcalled : s.calledBy backend = s.called.map Prod.snd := by
    rw [calledBy, List.filter_eq_self.mpr]
    intro x hx
    exact decide_eq_true (honly x hx)
  have hmine : ∀ line ∈ s.lines, line.thread = backend := by
    intro line hline
    by_contra hne
    have hnone : s.calledBy line.thread = [] := by
      rw [calledBy, List.map_eq_nil_iff, List.filter_eq_nil_iff]
      intro x hx heq
      exact hne ((of_decide_eq_true heq).symm.trans (honly x hx))
    have hcalls := h.calls line.thread
    rw [hnone, List.append_eq_nil_iff, linesOf, List.map_eq_nil_iff, List.filter_eq_nil_iff] at hcalls
    exact hcalls.1 line hline (decide_eq_true rfl)
  have hlines : linesOf s.lines backend = s.lines.map Line.logline := by
    rw [linesOf, List.filter_eq_self.mpr]
    intro line hline
    exact decide_eq_true (hmine line hline)
  rw [← hlines, ← hcalled]
  exact h.calls backend

/-- **The file has what was called for**, but for the end of the line that is being written. -/
theorem Inv.taken_of_only (h : s.Inv) (honly : ∀ x ∈ s.called, x.1 = backend)
    (happending : ∀ t, (s.pc t).appending = true → t = backend) (hrefused : s.refused = 0) :
    s.called.flatMap Prod.snd = s.lines.flatMap Line.logline ++ (s.pc backend).pending.flatten ∧
      ∃ k, s.file.taken = s.lines.flatMap Line.logline ++ (s.pc backend).pending.flatten.take k := by
  have hcalled : s.called.flatMap Prod.snd = s.lines.flatMap Line.logline ++ (s.pc backend).pending.flatten := by
    rw [List.flatMap_def, ← h.lines_of_only honly, List.flatten_append, ← List.flatMap_def]
  refine ⟨hcalled, ?_⟩
  rw [h.contents, h.sound.whole hrefused]
  have hprogress : s.holder.progress <+: (s.pc backend).pending.flatten := by
    unfold holder
    cases hmutex : s.mutex with
    | none => exact List.nil_prefix
    | some t =>
      by_cases ht : (s.pc t).appending = true
      · obtain rfl := happending t ht
        show (s.pc t).progress <+: (s.pc t).pending.flatten
        cases s.pc t <;> simp [Pc.progress, Pc.pending, List.take_prefix]
      · show (s.pc t).progress <+: _
        rw [Pc.progress_of_quiet (Bool.eq_false_iff.mpr ht)]
        exact List.nil_prefix
  exact ⟨_, congrArg _ (List.prefix_iff_eq_take.mp hprogress)⟩

theorem Inv.taken_of_quiet (h : s.Inv) (honly : ∀ x ∈ s.called, x.1 = backend) (hquiet : s.Quiet)
    (hrefused : s.refused = 0) : s.file.taken = s.called.flatMap Prod.snd := by
  have hprogress : s.holder.progress = [] := by
    unfold holder
    cases s.mutex with
    | none => rfl
    | some t => exact Pc.progress_of_quiet (hquiet t)
  rw [h.contents, h.sound.whole hrefused, hprogress, List.append_nil, List.flatMap_def, List.flatMap_def,
    ← h.lines_of_only honly, Pc.pending_of_quiet (hquiet backend), List.append_nil]

end LogFile

/-! ## The log beside the calls -/

namespace AsyncLogging

variable {s s' : AsyncLogging} {l : Label} {backend : ThreadId}

/-- The steps that are not those of `output_`. -/
theorem other_step (hup : s.owner = .constructed → s.pc = .notStarted)
    (hother : l = .backend → s.outputCall backend = none) (hs : s.step l = .ok s') :
    s'.output = s.output ∧ s'.flushed = s.flushed ∧ (s.outputCall backend ≠ none → s'.pc = s.pc) ∧
      (s'.owner = .constructed → s'.pc = .notStarted) := by
  cases l with
  | append logline =>
    obtain rfl := Except.ok.inj hs
    unfold append
    split <;> exact ⟨rfl, rfl, fun _ => rfl, hup⟩
  | start =>
    simp only [step, bind_eq_ok, enabled_eq_ok, pure_eq_ok, Except.ok.injEq] at hs
    obtain ⟨-, howner, rfl⟩ := hs
    refine ⟨rfl, rfl, fun hcall => absurd ?_ hcall, nofun⟩
    rw [outputCall, hup howner]
  | startReturns =>
    simp only [step, bind_eq_ok, enabled_eq_ok, pure_eq_ok, Except.ok.injEq] at hs
    obtain ⟨-, -, rfl⟩ := hs
    exact ⟨rfl, rfl, fun _ => rfl, nofun⟩
  | stop =>
    simp only [step, bind_eq_ok, enabled_eq_ok, pure_eq_ok, Except.ok.injEq] at hs
    obtain ⟨-, -, rfl⟩ := hs
    exact ⟨rfl, rfl, fun _ => rfl, nofun⟩
  | clearRunning =>
    simp only [step, bind_eq_ok, enabled_eq_ok, pure_eq_ok, Except.ok.injEq] at hs
    obtain ⟨-, -, rfl⟩ := hs
    exact ⟨rfl, rfl, fun _ => rfl, nofun⟩
  | notify =>
    simp only [step, bind_eq_ok, enabled_eq_ok, pure_eq_ok, Except.ok.injEq] at hs
    obtain ⟨-, -, rfl⟩ := hs
    exact ⟨rfl, rfl, fun _ => rfl, nofun⟩
  | join =>
    simp only [step, bind_eq_ok, enabled_eq_ok, pure_eq_ok, Except.ok.injEq] at hs
    obtain ⟨-, -, rfl⟩ := hs
    exact ⟨rfl, rfl, fun _ => rfl, nofun⟩
  | backend =>
    have hcall := hother rfl
    -- of the back end's steps only `write`, `flush` and the last `flush` are calls
    have hkept : s'.output = s.output ∧ s'.flushed = s.flushed ∧ s'.owner = s.owner ∧ s.pc ≠ .notStarted := by
      cases backend_step hs with
      | started hpc => exact ⟨rfl, rfl, rfl, by rw [hpc]; nofun⟩
      | again hpc => exact ⟨rfl, rfl, rfl, by rw [hpc]; nofun⟩
      | ended hpc => exact ⟨rfl, rfl, rfl, by rw [hpc]; nofun⟩
      | wait hpc => exact ⟨rfl, rfl, rfl, by rw [hpc]; nofun⟩
      | swap hpc hswap =>
        have hstarted : s.pc ≠ .notStarted := by
          rcases hpc with ⟨hpc, -⟩ | hpc <;> rw [hpc] <;> nofun
        unfold swapBuffers at hswap
        split at hswap
        · cases hswap
        · obtain rfl := Except.ok.inj hswap
          exact ⟨rfl, rfl, rfl, hstarted⟩
      | overload hpc => exact ⟨rfl, rfl, rfl, by rw [hpc]; nofun⟩
      | written hpc => exact ⟨rfl, rfl, rfl, by rw [hpc]; nofun⟩
      | recycle hpc hrecycle =>
        obtain ⟨_, -, hrecycle⟩ := bind_eq_ok.mp hrecycle
        obtain ⟨_, -, hrecycle⟩ := bind_eq_ok.mp hrecycle
        obtain rfl := Except.ok.inj hrecycle
        exact ⟨rfl, rfl, rfl, by rw [hpc]; nofun⟩
      | write hpc =>
        rw [outputCall, hpc] at hcall
        cases hcall
      | flush hpc =>
        rw [outputCall, hpc] at hcall
        cases hcall
      | lastFlush hpc =>
        rw [outputCall, hpc] at hcall
        cases hcall
    obtain ⟨houtput, hflushed, howner, hstarted⟩ := hkept
    exact ⟨houtput, hflushed, fun hne => absurd hcall hne, fun hc => absurd (hup (howner ▸ hc)) hstarted⟩

/-- The steps that are: one buffer more is output, or all that was output is flushed. -/
inductive Outputs (s : AsyncLogging) (backend : ThreadId) (s' : AsyncLogging) : Prop where
  | append (data : List Byte) (call : s.outputCall backend = some (.append backend data))
      (output : s'.output = s.output ++ data) (flushed : s'.flushed = s.flushed)
  | flush (call : s.outputCall backend = some (.flush backend)) (output : s'.output = s.output)
      (flushed : s'.flushed = s.output)

theorem output_step (hcall : s.outputCall backend ≠ none) (hs : s.step .backend = .ok s') :
    s.Outputs backend s' ∧ s'.owner = s.owner ∧ s.pc ≠ .notStarted := by
  cases backend_step hs with
  | @write buffer rest hpc =>
    exact ⟨.append buffer.data (by rw [outputCall, hpc]) rfl rfl, rfl, by rw [hpc]; nofun⟩
  | flush hpc => exact ⟨.flush (by rw [outputCall, hpc]) rfl rfl, rfl, by rw [hpc]; nofun⟩
  | lastFlush hpc => exact ⟨.flush (by rw [outputCall, hpc]) rfl rfl, rfl, by rw [hpc]; nofun⟩
  | started hpc => exact absurd (by rw [outputCall, hpc]) hcall
  | again hpc => exact absurd (by rw [outputCall, hpc]) hcall
  | ended hpc => exact absurd (by rw [outputCall, hpc]) hcall
  | wait hpc => exact absurd (by rw [outputCall, hpc]) hcall
  | swap hpc => rcases hpc with ⟨hpc, -⟩ | hpc <;> exact absurd (by rw [outputCall, hpc]) hcall
  | overload hpc => exact absurd (by rw [outputCall, hpc]) hcall
  | written hpc => exact absurd (by rw [outputCall, hpc]) hcall
  | recycle hpc => exact absurd (by rw [outputCall, hpc]) hcall

end AsyncLogging

/-! ## The invariant -/

namespace LogOnFile

variable {s s' : LogOnFile} {backend : ThreadId} {l : Label} {file : LogFile} {log : AsyncLogging}

/-- What the call of `output_` is given. -/
def argument : Option LogFile.Label → List Byte
  | some (.append _ data) => data
  | _ => []

/-- What the call that the back end is in was given. -/
def current (s : LogOnFile) (backend : ThreadId) : List Byte :=
  if s.inCall then argument (s.log.outputCall backend) else []

/-- **The invariant.** -/
structure Inv (backend : ThreadId) (s : LogOnFile) : Prop where
  log : asyncLogging.Reachable s.log
  file : s.file.Inv
  up : s.log.owner = .constructed → s.log.pc = .notStarted
  only : ∀ x ∈ s.file.called, x.1 = backend
  called : s.file.called.flatMap Prod.snd = s.log.output ++ s.current backend
  call : s.inCall = true → s.log.outputCall backend ≠ none
  back : s.inCall = false → s.file.pc backend = .outside
  appending : ∀ t, (s.file.pc t).appending = true →
    t = backend ∧ s.inCall = true ∧ s.log.outputCall backend ≠ some (.flush backend)
  synced : s.inCall = true → s.log.outputCall backend = some (.flush backend) → s.file.Synced backend
  pending : ∀ line ∈ (s.file.pc backend).pending, line = s.current backend
  earlier : s.log.flushed <+: s.log.output
  flushed : s.file.refused = 0 → s.file.failed = false → s.log.flushed.length ≤ s.file.file.out

theorem inv_new : Inv backend new where
  log := .init rfl
  file := LogFile.inv_new 1024
  up := fun _ => rfl
  only := nofun
  called := rfl
  call := nofun
  back := fun _ => rfl
  appending := nofun
  synced := nofun
  pending := nofun
  earlier := List.nil_prefix
  flushed := fun _ _ => le_rfl

theorem fileStep_eq_ok {m : LogFile.Label} (hs : s.fileStep m = .ok s') :
    ∃ file, s.file.step m = .ok file ∧ s' = { s with file := file } := by
  obtain ⟨file, hfile, hs⟩ := bind_eq_ok.mp hs
  exact ⟨file, Result.mapFault_eq_ok.mp hfile, (Except.ok.inj hs).symm⟩

/-- Nobody appends while the back end flushes. -/
theorem Inv.quiet (h : Inv backend s) (hcall : s.log.outputCall backend = some (.flush backend)) : s.file.Quiet := by
  intro t
  by_contra hne
  exact (h.appending t (Bool.of_not_eq_false hne)).2.2 hcall

theorem Inv.quiet_of_idle (h : Inv backend s) (hidle : s.inCall = false) : s.file.Quiet := by
  intro t
  by_contra hne
  cases hidle.symm.trans (h.appending t (Bool.of_not_eq_false hne)).2.1

/-- The log goes on beside `output_`. -/
theorem Inv.beside (h : Inv backend s) {m : AsyncLogging.Label}
    (hother : m = .backend → s.log.outputCall backend = none) (hs : s.log.step m = .ok log) :
    Inv backend { s with log := log } := by
  obtain ⟨houtput, hflushed, hpc, hup⟩ := AsyncLogging.other_step h.up hother hs
  have hcall : s.inCall = true → log.outputCall backend = s.log.outputCall backend := by
    intro hin
    rw [AsyncLogging.outputCall, hpc (h.call hin), ← AsyncLogging.outputCall]
  have hcurrent : current { s with log := log } backend = s.current backend := by
    unfold current
    by_cases hin : s.inCall = true
    · rw [if_pos hin, if_pos hin, hcall hin]
    · rw [if_neg hin, if_neg hin]
  refine ⟨h.log.step trivial hs, h.file, hup, h.only, ?_, ?_, h.back, ?_, ?_, ?_, ?_, ?_⟩
  · rw [hcurrent]
    show _ = log.output ++ _
    rw [houtput]
    exact h.called
  · intro hin
    show log.outputCall backend ≠ none
    rw [hcall hin]
    exact h.call hin
  · intro t ht
    obtain ⟨hback, hin, hne⟩ := h.appending t ht
    refine ⟨hback, hin, ?_⟩
    show log.outputCall backend ≠ _
    rw [hcall hin]
    exact hne
  · intro hin hflush
    exact h.synced hin ((hcall hin).symm.trans hflush)
  · rw [hcurrent]
    exact h.pending
  · show log.flushed <+: log.output
    rw [houtput, hflushed]
    exact h.earlier
  · show _ → _ → log.flushed.length ≤ _
    rw [hflushed]
    exact h.flushed

/-- The back end calls `append` or `flush`. -/
theorem Inv.calls (h : Inv backend s) {m : LogFile.Label} (hidle : s.inCall = false)
    (hcall : s.log.outputCall backend = some m) (hs : s.file.step m = .ok file) :
    Inv backend { s with file := file, inCall := true } := by
  have hcalled := h.called
  rw [current, hidle, if_neg nofun, List.append_nil] at hcalled
  have hback := h.back hidle
  have hfile := LogFile.inv_step h.file hs
  -- between the calls no thread is inside `append_unlocked`
  have hquiet := h.quiet_of_idle hidle
  have hmove := LogFile.moves_of_step hs
  have hargument : current { s with file := file, inCall := true } backend = argument (some m) := by
    show argument (s.log.outputCall backend) = _
    rw [hcall]
  have hpcs : ∀ {pc}, ∀ t ≠ backend, Function.update s.file.pc backend pc t = s.file.pc t :=
    fun t ht => Function.update_of_ne ht _ _
  -- `append` of the next buffer, or one of the two flushes
  unfold AsyncLogging.outputCall at hcall
  split at hcall <;> cases hcall
  · next buffer rest hpc =>
    have hcall : s.log.outputCall backend = some (.append backend buffer.data) := by
      rw [AsyncLogging.outputCall, hpc]
    cases hmove with
    | append =>
      refine ⟨h.log, hfile, h.up, ?_, ?_, fun _ => ?_, nofun, ?_, fun _ hflush => ?_, ?_, h.earlier, h.flushed⟩
      · intro x hx
        rcases List.mem_append.mp hx with hx | hx
        · exact h.only x hx
        · rw [List.mem_singleton.mp hx]
      · show (s.file.called ++ [(backend, buffer.data)]).flatMap Prod.snd = s.log.output ++ _
        rw [hargument, List.flatMap_append, hcalled]
        simp [argument]
      · show s.log.outputCall backend ≠ none
        rw [hcall]
        nofun
      · intro t ht
        refine ⟨?_, rfl, ?_⟩
        · by_contra hne
          have hfalse := hquiet t
          rw [← hpcs t hne] at hfalse
          exact absurd (hfalse.symm.trans ht) nofun
        · show s.log.outputCall backend ≠ _
          rw [hcall]
          nofun
      · cases hcall.symm.trans hflush
      · have hself : Function.update s.file.pc backend (.append buffer.data) backend = .append buffer.data :=
          Function.update_self ..
        rw [hargument]
        show ∀ line ∈ (Function.update s.file.pc backend (.append buffer.data) backend).pending, _
        rw [hself]
        exact fun line hline => List.mem_singleton.mp hline
  all_goals
    next hpc =>
    have hcall : s.log.outputCall backend = some (.flush backend) := by
      rw [AsyncLogging.outputCall, hpc]
    cases hmove with
    | flush =>
      have hself : Function.update s.file.pc backend .flush backend = .flush := Function.update_self ..
      refine ⟨h.log, hfile, h.up, h.only, ?_, fun _ => ?_, nofun, ?_, fun _ _ => ?_, ?_, h.earlier, h.flushed⟩
      · show s.file.called.flatMap Prod.snd = s.log.output ++ _
        rw [hargument, hcalled]
        exact (List.append_nil _).symm
      · show s.log.outputCall backend ≠ none
        rw [hcall]
        nofun
      · intro t ht
        by_cases hb : t = backend
        · subst hb
          have ht' : (Function.update s.file.pc t LogFile.Pc.flush t).appending = true := ht
          rw [hself] at ht'
          cases ht'
        · have hfalse := hquiet t
          rw [← hpcs t hb] at hfalse
          exact absurd (hfalse.symm.trans ht) nofun
      · intro hdone
        rcases hdone with hdone | hdone <;> cases hself.symm.trans hdone
      · show ∀ line ∈ (Function.update s.file.pc backend LogFile.Pc.flush backend).pending, _
        rw [hself]
        nofun

/-- The call returns. -/
theorem Inv.returned (h : Inv backend s) (hin : s.inCall = true) (houtside : s.file.pc backend = .outside)
    (hs : s.log.step .backend = .ok log) : Inv backend { s with log := log, inCall := false } := by
  obtain ⟨houtputs, howner, hstarted⟩ := AsyncLogging.output_step (h.call hin) hs
  have hquiet : s.file.Quiet := by
    intro t
    by_contra hne
    have happending := Bool.of_not_eq_false hne
    rw [(h.appending t happending).1, houtside] at happending
    cases happending
  have hcalled := h.called
  rw [current, if_pos hin] at hcalled
  have hnow : s.file.called.flatMap Prod.snd = log.output ∧ log.flushed <+: log.output ∧
      (s.file.refused = 0 → s.file.failed = false → log.flushed.length ≤ s.file.file.out) := by
    cases houtputs with
    | append data hcall houtput hflushed =>
      rw [hcall] at hcalled
      rw [houtput, hflushed]
      exact ⟨hcalled, h.earlier.trans (List.prefix_append _ _), h.flushed⟩
    | flush hcall houtput hflushed =>
      rw [hcall] at hcalled
      have hall : s.file.called.flatMap Prod.snd = s.log.output := hcalled.trans (List.append_nil _)
      rw [houtput, hflushed]
      refine ⟨hall, List.prefix_rfl, fun hrefused hfailed => ?_⟩
      rw [← hall, ← h.file.taken_of_quiet h.only hquiet hrefused]
      exact h.synced hin hcall (.inr houtside) hfailed
  obtain ⟨hall, hearlier, hflushed⟩ := hnow
  refine ⟨h.log.step (a := .backend) trivial hs, h.file, ?_, h.only, ?_, nofun, fun _ => houtside, ?_, nofun, ?_,
    hearlier, hflushed⟩
  · intro hc
    exact absurd (h.up (howner.symm.trans hc)) hstarted
  · rw [current, if_neg nofun, List.append_nil]
    exact hall
  · intro t ht
    exact absurd ((hquiet t).symm.trans ht) nofun
  · show ∀ line ∈ (s.file.pc backend).pending, _
    rw [houtside]
    nofun

/-- Another thread calls `flush`. -/
theorem Inv.flushes (h : Inv backend s) {t : ThreadId} (ht : t ≠ backend) (hs : s.file.step (.flush t) = .ok file) :
    Inv backend { s with file := file } := by
  have hfile := LogFile.inv_step h.file hs
  cases LogFile.moves_of_step hs with
  | flush hpc =>
    have hback : Function.update s.file.pc t .flush backend = s.file.pc backend :=
      Function.update_of_ne (Ne.symm ht) _ _
    refine ⟨h.log, hfile, h.up, h.only, h.called, h.call, ?_, ?_, ?_, ?_, h.earlier, h.flushed⟩
    · intro hidle
      exact hback.trans (h.back hidle)
    · intro u hu
      by_cases hut : u = t
      · subst hut
        have hself : Function.update s.file.pc u .flush u = .flush := Function.update_self ..
        have hu' : (Function.update s.file.pc u LogFile.Pc.flush u).appending = true := hu
        rw [hself] at hu'
        cases hu'
      · have hother : Function.update s.file.pc t .flush u = s.file.pc u := Function.update_of_ne hut _ _
        have hu' : (Function.update s.file.pc t LogFile.Pc.flush u).appending = true := hu
        rw [hother] at hu'
        exact h.appending u hu'
    · intro hin hcall hdone
      exact h.synced hin hcall (hdone.imp hback.symm.trans hback.symm.trans)
    · show ∀ line ∈ (Function.update s.file.pc t .flush backend).pending, _
      rw [hback]
      exact h.pending

/-- A piece of a call of any thread. -/
theorem Inv.inside (h : Inv backend s) {m : LogFile.Label} (hm : m.inside = true)
    (hs : s.file.step m = .ok file) : Inv backend { s with file := file } := by
  have hfile := LogFile.inv_step h.file hs
  have hmove := LogFile.moves_of_step hs
  have hinside := hmove.inside hm h.file
  refine ⟨h.log, hfile, h.up, ?_, ?_, h.call, ?_, ?_, ?_, ?_, h.earlier, ?_⟩
  · intro x hx
    exact h.only x (hinside.called ▸ hx)
  · show file.called.flatMap Prod.snd = _
    rw [hinside.called]
    exact h.called
  · intro hidle
    exact hinside.outside backend (h.back hidle)
  · intro t ht
    exact h.appending t (hinside.appending t ht)
  · intro hin hcall
    exact hmove.synced hm (h.quiet hcall) (h.synced hin hcall)
  · intro line hline
    exact h.pending line (hinside.pending backend line hline)
  · intro hrefused hfailed
    exact (h.flushed (hinside.refused hrefused) (hinside.failed hfailed)).trans hinside.out

/-- **One step.** -/
theorem inv_step (h : Inv backend s) (hs : s.step backend l = .ok s') : Inv backend s' := by
  cases l with
  | log m =>
    simp only [step, bind_eq_ok, enabled_eq_ok, pure_eq_ok, Except.ok.injEq] at hs
    obtain ⟨-, hother, log, hlog, rfl⟩ := hs
    exact h.beside hother hlog
  | call =>
    simp only [step, bind_eq_ok, enabled_eq_ok] at hs
    obtain ⟨-, hidle, hs⟩ := hs
    cases hcall : s.log.outputCall backend with
    | none =>
      rw [hcall] at hs
      cases hs
    | some m =>
      rw [hcall] at hs
      obtain ⟨file, hfile, rfl⟩ := fileStep_eq_ok hs
      exact h.calls hidle hcall hfile
  | returns =>
    simp only [step, bind_eq_ok, enabled_eq_ok, pure_eq_ok, Except.ok.injEq] at hs
    obtain ⟨-, ⟨hin, houtside⟩, log, hlog, rfl⟩ := hs
    exact h.returned hin houtside hlog
  | flush t =>
    simp only [step, bind_eq_ok, enabled_eq_ok] at hs
    obtain ⟨-, ht, hs⟩ := hs
    obtain ⟨file, hfile, rfl⟩ := fileStep_eq_ok hs
    exact h.flushes ht hfile
  | file m =>
    simp only [step, bind_eq_ok, enabled_eq_ok] at hs
    obtain ⟨-, hm, hs⟩ := hs
    obtain ⟨file, hfile, rfl⟩ := fileStep_eq_ok hs
    exact h.inside hm hfile

/-! ## What it gives -/

/-- The file is what `AsyncLogging` says of its output, when no `write` was refused. -/
structure OnFile (backend : ThreadId) (s : LogOnFile) : Prop where
  /-- the log's part of the run is one of `AsyncLogging` -/
  log : asyncLogging.Reachable s.log
  /-- between the calls the file has the output -/
  taken : s.file.refused = 0 → s.inCall = false → s.file.file.taken = s.log.output
  /-- and in a call a beginning of its buffer more -/
  taking : s.file.refused = 0 → ∃ k, s.file.file.taken = s.log.output ++ (s.current backend).take k
  /-- what was flushed is out of stdio's buffer -/
  flushed : s.file.refused = 0 → s.file.failed = false → s.log.flushed <+: s.file.file.taken.take s.file.file.out

/-- What the file has of the buffer that is being appended comes after all of the output. -/
theorem Inv.taking (h : Inv backend s) (hrefused : s.file.refused = 0) :
    ∃ k, s.file.file.taken = s.log.output ++ (s.current backend).take k := by
  obtain ⟨hcalled, k, htaken⟩ := h.file.taken_of_only h.only (fun t ht => (h.appending t ht).1) hrefused
  have hall : s.log.output ++ s.current backend =
      s.file.lines.flatMap LogFile.Line.logline ++ (s.file.pc backend).pending.flatten := h.called.symm.trans hcalled
  rcases LogFile.Pc.pending_cases (s.file.pc backend) with hnone | ⟨line, hline⟩
  · -- the line is written: the file has it all
    rw [hnone, List.flatten_nil, List.append_nil] at hall
    rw [hnone, List.flatten_nil, List.take_nil, List.append_nil] at htaken
    exact ⟨(s.current backend).length, by rw [List.take_length, hall, htaken]⟩
  · obtain rfl := h.pending line (hline ▸ List.mem_singleton_self _)
    rw [hline, List.flatten_singleton] at hall htaken
    rw [← List.append_cancel_right hall] at htaken
    exact ⟨k, htaken⟩

theorem Inv.onFile (h : Inv backend s) : OnFile backend s := by
  refine ⟨h.log, ?_, h.taking, ?_⟩
  · intro hrefused hidle
    have hcalled := h.called
    rw [current, hidle, if_neg nofun, List.append_nil] at hcalled
    rw [← hcalled]
    exact h.file.taken_of_quiet h.only (h.quiet_of_idle hidle) hrefused
  · intro hrefused hfailed
    obtain ⟨k, htaken⟩ := h.taking hrefused
    have hbegins : s.log.flushed <+: s.file.file.taken := by
      rw [htaken]
      exact h.earlier.trans (List.prefix_append _ _)
    exact List.prefix_take_iff.mpr ⟨hbegins, h.flushed hrefused hfailed⟩

/-- **The log's output is in its file**, in any run of the front end, the back end and the threads that flush. -/
theorem output_on_file (h : (logOnFile backend).Reachable s) : OnFile backend s := by
  apply Inv.onFile
  refine h.invariant (I := Inv backend) (fun s₀ h₀ => ?_) (fun _ _ _ _ hI _ hs => inv_step hI hs)
  rw [show s₀ = new from h₀]
  exact inv_new

/-- The back end is in its second `append`, with one of two bytes taken, while thread 1 waits to flush. -/
theorem output_on_file_sample : ∃ s : LogOnFile, s.file.file.taken = [1, 2, 3] ∧ s.current 7 = [3, 4] ∧
    s.log.output = [1, 2] ∧ s.log.flushed = [1, 2] ∧ s.file.refused = 0 ∧ OnFile 7 s := by
  obtain ⟨s, hs, hp⟩ := System.Reach.of_exec (S := logOnFile 7) (s := new)
    (l := [.log .start, .log (.append [1, 2]), .log .backend, .log .backend, .log .backend, .log .backend,
      .log .backend, .call, .file (.lock 7), .file (.fwrite 7 2 0), .file (.count 7), .file (.unlock 7), .returns,
      .log .backend, .log .backend, .call, .file (.lock 7), .file (.fflush 7 none), .file (.unlock 7), .returns,
      .log .backend, .log (.append [3, 4]), .log .backend, .log .backend, .log .backend, .call, .file (.lock 7),
      .flush 1, .file (.fwrite 7 1 2)])
    (p := fun s => decide (s.file.file.taken = [1, 2, 3] ∧ s.current 7 = [3, 4] ∧ s.log.output = [1, 2] ∧
      s.log.flushed = [1, 2] ∧ s.file.refused = 0)) (.init rfl) (by decide +kernel)
  rw [decide_eq_true_eq] at hp
  exact ⟨s, hp.1, hp.2.1, hp.2.2.1, hp.2.2.2.1, hp.2.2.2.2, output_on_file hs⟩

end LogOnFile

end Irono
