import Irono.Base.LogFile

/-!
# `Base.Correctness.LogFile` — what is in the log file

The mutex makes the pieces of one line stay together, whatever `fwrite` takes at a time, and the file holds
the lines in the order of the mutex. A line is cut only where a `write` of the loop returned 0. While no
`fflush` fails, only the lines since the last one can still be in the buffer, fewer than `flushEveryN_`.
-/

namespace Irono

open Transition

namespace LogFile

variable {s s' : LogFile} {t u : ThreadId} {l : Label}

/-! ## The steps by name -/

/-- What each label leads to, where it is possible. -/
inductive Moves (s : LogFile) : Label → LogFile → Prop
  | append {t : ThreadId} {logline : List Byte} (pc : s.pc t = .outside) :
      s.Moves (.append t logline) { s.setPc t (.append logline) with called := s.called ++ [(t, logline)] }
  | flush {t : ThreadId} (pc : s.pc t = .outside) : s.Moves (.flush t) (s.setPc t .flush)
  | lockAppend {t : ThreadId} {logline : List Byte} (free : s.mutex = none) (pc : s.pc t = .append logline) :
      s.Moves (.lock t) { s.setPc t (.first logline) with mutex := some t }
  | lockFlush {t : ThreadId} (free : s.mutex = none) (pc : s.pc t = .flush) :
      s.Moves (.lock t) { s.setPc t .fflush with mutex := some t }
  | first {t : ThreadId} {logline : List Byte} {x out : Nat} (pc : s.pc t = .first logline)
      (writes : Writes s.file logline.length x out) :
      s.Moves (.fwrite t x out) { s.setPc t (loop logline x) with file := s.file.write logline x out }
  | again {t : ThreadId} {logline : List Byte} {n x out : Nat} (pc : s.pc t = .again logline n)
      (writes : Writes s.file (logline.length - n) x out) :
      s.Moves (.fwrite t x out) { s.setPc t (loop logline (n + x)) with file := s.file.write (logline.drop n) x out }
  | refused {t : ThreadId} {logline : List Byte} {n out : Nat} (pc : s.pc t = .again logline n)
      (writes : Writes s.file (logline.length - n) 0 out) :
      s.Moves (.fwrite t 0 out) { s.setPc t (.count logline n) with
        file := s.file.write (logline.drop n) 0 out, refused := s.refused + 1 }
  | count {t : ThreadId} {logline : List Byte} {n : Nat} (pc : s.pc t = .count logline n)
      (few : ¬ s.flushEveryN ≤ (s.count + 1 : Nat)) :
      s.Moves (.count t) { s.setPc t .unlock with count := s.count + 1, lines := s.lines ++ [⟨t, logline, n⟩] }
  | countFlush {t : ThreadId} {logline : List Byte} {n : Nat} (pc : s.pc t = .count logline n) :
      s.Moves (.count t) { s.setPc t .flushEvery with count := 0, lines := s.lines ++ [⟨t, logline, n⟩] }
  | fflush {t : ThreadId} (pc : s.pc t = .flushEvery ∨ s.pc t = .fflush) :
      s.Moves (.fflush t none) { s.setPc t .unlock with file := { s.file with out := s.file.taken.length } }
  | fflushFails {t : ThreadId} {out : Nat} (pc : s.pc t = .flushEvery ∨ s.pc t = .fflush)
      (more : s.file.out ≤ out) (bound : out ≤ s.file.taken.length) :
      s.Moves (.fflush t (some out)) { s.setPc t .unlock with file := { s.file with out := out }, failed := true }
  | unlock {t : ThreadId} (pc : s.pc t = .unlock) : s.Moves (.unlock t) { s.setPc t .outside with mutex := none }

/-- **A step is one of these moves.** -/
theorem moves_of_step (hs : s.step l = .ok s') : s.Moves l s' := by
  cases l with
  | append t logline =>
    simp only [step, bind_eq_ok, enabled_eq_ok, pure_eq_ok, Except.ok.injEq] at hs
    obtain ⟨-, hpc, rfl⟩ := hs
    exact .append hpc
  | flush t =>
    simp only [step, bind_eq_ok, enabled_eq_ok, pure_eq_ok, Except.ok.injEq] at hs
    obtain ⟨-, hpc, rfl⟩ := hs
    exact .flush hpc
  | lock t =>
    simp only [step, bind_eq_ok, enabled_eq_ok] at hs
    obtain ⟨-, hfree, hs⟩ := hs
    cases hpc : s.pc t <;> rw [hpc] at hs <;> cases hs
    · exact .lockAppend hfree hpc
    · exact .lockFlush hfree hpc
  | fwrite t x out =>
    simp only [step] at hs
    cases hpc : s.pc t <;> rw [hpc] at hs
    case first logline =>
      simp only [bind_eq_ok, enabled_eq_ok, pure_eq_ok, Except.ok.injEq] at hs
      obtain ⟨-, hwrites, rfl⟩ := hs
      exact .first hpc hwrites
    case again logline n =>
      simp only [bind_eq_ok, enabled_eq_ok, pure_eq_ok] at hs
      obtain ⟨-, hwrites, hs⟩ := hs
      by_cases hx : x = 0
      · subst hx
        rw [if_pos rfl, Except.ok.injEq] at hs
        subst hs
        exact .refused hpc hwrites
      · rw [if_neg hx, Except.ok.injEq] at hs
        subst hs
        exact .again hpc hwrites
    all_goals cases hs
  | count t =>
    simp only [step] at hs
    cases hpc : s.pc t <;> rw [hpc] at hs
    case count logline n =>
      simp only [pure_eq_ok] at hs
      by_cases hfew : s.flushEveryN ≤ (s.count + 1 : Nat)
      · rw [if_pos hfew, Except.ok.injEq] at hs
        subst hs
        exact .countFlush hpc
      · rw [if_neg hfew, Except.ok.injEq] at hs
        subst hs
        exact .count hpc hfew
    all_goals cases hs
  | fflush t failure =>
    simp only [step, bind_eq_ok, enabled_eq_ok] at hs
    obtain ⟨-, hpc, hs⟩ := hs
    cases failure with
    | none =>
      obtain rfl := Except.ok.inj hs
      exact .fflush hpc
    | some out =>
      simp only [sync, bind_eq_ok, enabled_eq_ok, pure_eq_ok, Except.ok.injEq] at hs
      obtain ⟨-, ⟨hmore, hbound⟩, rfl⟩ := hs
      exact .fflushFails hpc hmore hbound
  | unlock t =>
    simp only [step, bind_eq_ok, enabled_eq_ok, pure_eq_ok, Except.ok.injEq] at hs
    obtain ⟨-, hpc, rfl⟩ := hs
    exact .unlock hpc

/-! ## A thread in its call -/

/-- The thread has the mutex. -/
def Pc.inside : Pc → Bool
  | .first _ => true
  | .again _ _ => true
  | .count _ _ => true
  | .flushEvery => true
  | .fflush => true
  | .unlock => true
  | _ => false

/-- The line of an `append` that is not over. -/
def Pc.pending : Pc → List (List Byte)
  | .append logline => [logline]
  | .first logline => [logline]
  | .again logline _ => [logline]
  | .count logline _ => [logline]
  | _ => []

/-- What the stream has taken of it. -/
def Pc.progress : Pc → List Byte
  | .again logline n => logline.take n
  | .count logline n => logline.take n
  | _ => []

/-- How much that is. -/
def Pc.Bounded : Pc → Prop
  | .again logline n => n < logline.length
  | .count logline n => n ≤ logline.length
  | _ => True

/-- 1 if the line stays cut. -/
def Pc.cut : Pc → Nat
  | .count logline n => if n < logline.length then 1 else 0
  | _ => 0

/-- Not all of the line was taken. -/
def Line.cut (line : Line) : Bool := line.n < line.logline.length

theorem loop_inside (logline : List Byte) (n : Nat) : (loop logline n).inside = true := by
  unfold loop
  split <;> rfl

theorem loop_pending (logline : List Byte) (n : Nat) : (loop logline n).pending = [logline] := by
  unfold loop
  split <;> rfl

theorem loop_progress (logline : List Byte) (n : Nat) : (loop logline n).progress = logline.take n := by
  unfold loop
  split <;> rfl

/-- The loop ends by itself only when the line is whole. -/
theorem loop_cut (logline : List Byte) (n : Nat) : (loop logline n).cut = 0 := by
  unfold loop
  split
  · rfl
  · exact if_neg (by omega)

theorem loop_bounded {logline : List Byte} {n : Nat} (h : n ≤ logline.length) : (loop logline n).Bounded := by
  unfold loop
  split
  · show n < logline.length
    omega
  · exact h

/-! ## The invariant -/

/-- Where the thread with the mutex is. -/
def holder (s : LogFile) : Pc :=
  match s.mutex with
  | some t => s.pc t
  | none => .outside

/-- The lines of `append`s of `t` that are over, in order. -/
def linesOf (lines : List Line) (t : ThreadId) : List (List Byte) :=
  (lines.filter fun line => line.thread = t).map Line.logline

/-- What `t` has called `append` with, in order. -/
def calledBy (s : LogFile) (t : ThreadId) : List (List Byte) := (s.called.filter fun x => x.1 = t).map Prod.snd

/-- The lines of which an `fflush` has been tried since. -/
def older (lines : List Line) (count : Nat) : List Byte := (lines.take (lines.length - count)).flatMap Line.written

/-- **The invariant.** -/
structure Inv (s : LogFile) : Prop where
  locked : ∀ u, (s.pc u).inside = true ↔ s.mutex = some u
  calls : ∀ u, linesOf s.lines u ++ (s.pc u).pending = s.calledBy u
  contents : s.file.taken = s.lines.flatMap Line.written ++ s.holder.progress
  bounded : s.holder.Bounded
  lengths : ∀ line ∈ s.lines, line.n ≤ line.logline.length
  cut : s.lines.countP Line.cut + s.holder.cut = s.refused
  out : s.file.out ≤ s.file.taken.length
  recent : s.failed = false → s.holder ≠ .flushEvery → (older s.lines s.count).length ≤ s.file.out
  few : s.count = 0 ∨ (s.count : Int) < s.flushEveryN

theorem inv_new (flushEveryN : Int) : (new flushEveryN).Inv := by
  refine ⟨?_, ?_, rfl, trivial, ?_, rfl, le_rfl, ?_, .inl rfl⟩
  · intro u
    exact iff_of_false nofun nofun
  · intro u
    rfl
  · intro line hline
    cases hline
  · intro _ _
    exact le_rfl

theorem Inv.holder_eq (h : s.Inv) (ht : (s.pc t).inside = true) : s.holder = s.pc t := by
  rw [holder, (h.locked t).mp ht]

/-- What the file holds of the lines that are over is a prefix of it. -/
theorem older_length_le (lines : List Line) (count : Nat) :
    (older lines count).length ≤ (lines.flatMap Line.written).length := by
  unfold older
  conv_rhs => rw [← List.take_append_drop (lines.length - count) lines]
  rw [List.flatMap_append, List.length_append]
  exact Nat.le_add_right _ _

/-- One more line, and one more to count. -/
theorem older_concat (lines : List Line) (line : Line) (count : Nat) :
    older (lines ++ [line]) (count + 1) = older lines count := by
  unfold older
  rw [List.length_append, List.length_singleton, Nat.add_sub_add_right,
    List.take_append_of_le_length (Nat.sub_le _ _)]

theorem linesOf_concat (lines : List Line) (line : Line) (u : ThreadId) :
    linesOf (lines ++ [line]) u = linesOf lines u ++ if line.thread = u then [line.logline] else [] := by
  unfold linesOf
  rw [List.filter_append, List.map_append]
  congr 1
  by_cases hu : line.thread = u
  · simp [hu]
  · simp [hu]

/-- A thread that moves within its call keeps the line of it. -/
theorem pending_update {pcs : ThreadId → Pc} {pc : Pc} (h : pc.pending = (pcs t).pending) :
    (Function.update pcs t pc u).pending = (pcs u).pending := by
  by_cases hu : u = t
  · subst hu
    rw [Function.update_self, h]
  · rw [Function.update_of_ne hu]

/-- A thread without the mutex goes on. -/
theorem Inv.outsider (h : s.Inv) {pc : Pc} {called : List (ThreadId × List Byte)}
    (hout : (s.pc t).inside = false) (hpc : pc.inside = false)
    (hcalls : ∀ u, linesOf s.lines u ++ (Function.update s.pc t pc u).pending =
      (called.filter fun x => x.1 = u).map Prod.snd) : Inv { s.setPc t pc with called := called } := by
  have hne : s.mutex ≠ some t := fun hm => absurd ((h.locked t).mpr hm) (by simp [hout])
  have hholder : holder { s.setPc t pc with called := called } = s.holder := by
    show (match s.mutex with | some u => Function.update s.pc t pc u | none => .outside) = s.holder
    unfold holder
    cases hm : s.mutex with
    | none => rfl
    | some u =>
      have hu : u ≠ t := fun hu => hne (hu ▸ hm)
      exact Function.update_of_ne hu _ _
  refine ⟨?_, hcalls, ?_, ?_, h.lengths, ?_, h.out, ?_, h.few⟩
  · intro u
    show (Function.update s.pc t pc u).inside = true ↔ s.mutex = some u
    by_cases hu : u = t
    · subst hu
      rw [Function.update_self, hpc]
      exact iff_of_false nofun hne
    · rw [Function.update_of_ne hu]
      exact h.locked u
  · rw [hholder]
    exact h.contents
  · rw [hholder]
    exact h.bounded
  · rw [hholder]
    exact h.cut
  · rw [hholder]
    exact h.recent

/-- A thread takes the mutex. -/
theorem Inv.enter (h : s.Inv) {pc : Pc} (hfree : s.mutex = none) (hpc : pc.inside = true)
    (hpending : pc.pending = (s.pc t).pending) (hprogress : pc.progress = []) (hbounded : pc.Bounded)
    (hcut : pc.cut = 0) : Inv { s.setPc t pc with mutex := some t } := by
  have hidle : s.holder = .outside := by rw [holder, hfree]
  have hholder : holder { s.setPc t pc with mutex := some t } = pc := Function.update_self ..
  refine ⟨?_, ?_, ?_, ?_, h.lengths, ?_, h.out, ?_, h.few⟩
  · intro u
    show (Function.update s.pc t pc u).inside = true ↔ some t = some u
    by_cases hu : u = t
    · subst hu
      rw [Function.update_self]
      exact iff_of_true hpc rfl
    · rw [Function.update_of_ne hu, h.locked u, hfree, Option.some.injEq]
      exact iff_of_false nofun fun heq => hu heq.symm
  · intro u
    refine Eq.trans ?_ (h.calls u)
    show linesOf s.lines u ++ (Function.update s.pc t pc u).pending = _
    rw [pending_update hpending]
  · have hcontents := h.contents
    rw [hidle] at hcontents
    rw [hholder, hprogress]
    exact hcontents
  · rw [hholder]
    exact hbounded
  · have hrefused := h.cut
    rw [hidle] at hrefused
    rw [hholder, hcut]
    exact hrefused
  · intro hfailed _
    refine h.recent hfailed ?_
    rw [hidle]
    nofun

/-- The thread with the mutex goes on. -/
theorem Inv.insider (h : s.Inv) {pc : Pc} (hin : (s.pc t).inside = true) (hpc : pc.inside = true)
    (hpcs : s'.pc = Function.update s.pc t pc) (hmutex : s'.mutex = s.mutex) (hcalled : s'.called = s.called)
    (hcalls : ∀ u, linesOf s'.lines u ++ (Function.update s.pc t pc u).pending =
      linesOf s.lines u ++ (s.pc u).pending)
    (hcontents : s'.file.taken = s'.lines.flatMap Line.written ++ pc.progress) (hbounded : pc.Bounded)
    (hlengths : ∀ line ∈ s'.lines, line.n ≤ line.logline.length)
    (hcut : s'.lines.countP Line.cut + pc.cut = s'.refused) (hout : s'.file.out ≤ s'.file.taken.length)
    (hrecent : s'.failed = false → pc ≠ .flushEvery → (older s'.lines s'.count).length ≤ s'.file.out)
    (hfew : s'.count = 0 ∨ (s'.count : Int) < s'.flushEveryN) : s'.Inv := by
  have hmine : s'.mutex = some t := hmutex.trans ((h.locked t).mp hin)
  have hholder : s'.holder = pc := by
    rw [holder, hmine, hpcs]
    exact Function.update_self ..
  refine ⟨?_, ?_, hholder ▸ hcontents, hholder ▸ hbounded, hlengths, hholder ▸ hcut, hout, hholder ▸ hrecent,
    hfew⟩
  · intro u
    rw [hpcs]
    by_cases hu : u = t
    · subst hu
      rw [Function.update_self]
      exact iff_of_true hpc hmine
    · rw [Function.update_of_ne hu, hmutex]
      exact h.locked u
  · intro u
    rw [hpcs, hcalls u, h.calls u, calledBy, calledBy, hcalled]

/-- `fwrite` takes `x` bytes more of the line of which `n` were taken. -/
theorem Inv.fwrite (h : s.Inv) {logline : List Byte} {n x out : Nat} (hin : (s.pc t).inside = true)
    (hpending : (s.pc t).pending = [logline]) (hprogress : (s.pc t).progress = logline.take n)
    (hcut : (s.pc t).cut = 0) (hn : n ≤ logline.length) (hnever : s.pc t ≠ .flushEvery)
    (hwrites : Writes s.file (logline.length - n) x out) :
    Inv { s.setPc t (loop logline (n + x)) with file := s.file.write (logline.drop n) x out } := by
  obtain ⟨hx, hmore, hbound⟩ := hwrites
  have hholder := h.holder_eq hin
  refine h.insider hin (loop_inside _ _) rfl rfl rfl ?_ ?_ (loop_bounded (by omega)) h.lengths ?_ ?_ ?_ h.few
  · intro u
    show linesOf s.lines u ++ _ = _
    rw [pending_update ((loop_pending _ _).trans hpending.symm)]
  · show s.file.taken ++ (logline.drop n).take x = _
    rw [h.contents, hholder, hprogress, loop_progress, List.take_add, List.append_assoc]
    rfl
  · have hrefused := h.cut
    rw [hholder, hcut] at hrefused
    rw [loop_cut]
    exact hrefused
  · show out ≤ (s.file.taken ++ (logline.drop n).take x).length
    rw [List.length_append, List.length_take, List.length_drop, min_eq_left hx]
    exact hbound
  · intro hfailed _
    refine (h.recent hfailed ?_).trans hmore
    rw [hholder]
    exact hnever

/-- `AppendFile::append` is over, and the line is counted. -/
theorem Inv.counted (h : s.Inv) {logline : List Byte} {n count : Nat} {pc : Pc} (hpc : s.pc t = .count logline n)
    (hnext : pc = .unlock ∧ count = s.count + 1 ∨ pc = .flushEvery ∧ count = 0)
    (hfew : count = 0 ∨ (count : Int) < s.flushEveryN) :
    Inv { s.setPc t pc with count := count, lines := s.lines ++ [⟨t, logline, n⟩] } := by
  have hin : (s.pc t).inside = true := by rw [hpc]; rfl
  have hholder : s.holder = .count logline n := (h.holder_eq hin).trans hpc
  have hbounded := h.bounded
  rw [hholder] at hbounded
  have hnone : pc.inside = true ∧ pc.pending = [] ∧ pc.progress = [] ∧ pc.Bounded ∧ pc.cut = 0 := by
    rcases hnext with ⟨rfl, -⟩ | ⟨rfl, -⟩ <;> exact ⟨rfl, rfl, rfl, trivial, rfl⟩
  obtain ⟨hinside, hpending, hprogress, hbounded', hcut⟩ := hnone
  refine h.insider hin hinside rfl rfl rfl ?_ ?_ hbounded' ?_ ?_ h.out ?_ hfew
  · intro u
    show linesOf (s.lines ++ [(⟨t, logline, n⟩ : Line)]) u ++ _ = _
    rw [linesOf_concat]
    by_cases hu : u = t
    · subst hu
      rw [Function.update_self, hpending, hpc, if_pos rfl, List.append_nil]
      rfl
    · rw [Function.update_of_ne hu, if_neg (Ne.symm hu), List.append_nil]
  · show s.file.taken = (s.lines ++ [(⟨t, logline, n⟩ : Line)]).flatMap Line.written ++ _
    rw [h.contents, hholder, hprogress, List.append_nil, List.flatMap_append]
    simp [Pc.progress, Line.written]
  · intro line hline
    rcases List.mem_append.mp hline with hline | hline
    · exact h.lengths line hline
    · rw [List.mem_singleton.mp hline]
      exact hbounded
  · have hrefused := h.cut
    rw [hholder] at hrefused
    show (s.lines ++ [(⟨t, logline, n⟩ : Line)]).countP Line.cut + _ = s.refused
    rw [hcut, List.countP_append, List.countP_singleton, ← hrefused]
    simp [Line.cut, Pc.cut]
  · rcases hnext with ⟨-, rfl⟩ | ⟨rfl, -⟩
    · intro hfailed _
      show (older (s.lines ++ [_]) (s.count + 1)).length ≤ s.file.out
      rw [older_concat]
      refine h.recent hfailed ?_
      rw [hholder]
      nofun
    · intro _ hne
      exact absurd rfl hne

/-- The `fflush` of either function. -/
theorem Inv.synced (h : s.Inv) {out : Nat} {failed : Bool} (hpc : s.pc t = .flushEvery ∨ s.pc t = .fflush)
    (hbound : out ≤ s.file.taken.length)
    (hfailed : failed = false → out = s.file.taken.length) :
    Inv { s.setPc t .unlock with file := { s.file with out := out }, failed := failed } := by
  have hnone : (s.pc t).inside = true ∧ (s.pc t).pending = [] ∧ (s.pc t).progress = [] ∧ (s.pc t).cut = 0 := by
    rcases hpc with hpc | hpc <;> rw [hpc] <;> exact ⟨rfl, rfl, rfl, rfl⟩
  obtain ⟨hin, hpending, hprogress, hcut⟩ := hnone
  have hholder := h.holder_eq hin
  have hcontents := h.contents
  rw [hholder, hprogress] at hcontents
  refine h.insider hin rfl rfl rfl rfl ?_ hcontents trivial h.lengths ?_ hbound ?_ h.few
  · intro u
    show linesOf s.lines u ++ _ = _
    rw [pending_update (show Pc.unlock.pending = (s.pc t).pending from hpending.symm)]
  · have hrefused := h.cut
    rw [hholder, hcut] at hrefused
    exact hrefused
  · intro hf _
    show (older s.lines s.count).length ≤ out
    rw [hfailed hf, hcontents, List.append_nil]
    exact older_length_le _ _

/-- **One step.** -/
theorem inv_step (h : s.Inv) (hs : s.step l = .ok s') : s'.Inv := by
  cases moves_of_step hs with
  | @append t logline hpc =>
    refine h.outsider (by rw [hpc]; rfl) rfl fun u => ?_
    rw [List.filter_append, List.map_append]
    show _ = s.calledBy u ++ _
    rw [← h.calls u]
    by_cases hu : u = t
    · subst hu
      rw [Function.update_self, hpc]
      simp [Pc.pending]
    · rw [Function.update_of_ne hu]
      simp [Ne.symm hu]
  | @flush t hpc =>
    refine h.outsider (by rw [hpc]; rfl) rfl fun u => ?_
    refine Eq.trans ?_ (h.calls u)
    rw [pending_update (by rw [hpc]; rfl)]
  | lockAppend hfree hpc => exact h.enter hfree rfl (by rw [hpc]; rfl) rfl trivial rfl
  | lockFlush hfree hpc => exact h.enter hfree rfl (by rw [hpc]; rfl) rfl trivial rfl
  | @first t logline x out hpc hwrites =>
    have hfwrite := h.fwrite (t := t) (n := 0) (by rw [hpc]; rfl) (by rw [hpc]; rfl) (by rw [hpc]; rfl)
      (by rw [hpc]; rfl) (Nat.zero_le _) (by rw [hpc]; nofun) hwrites
    rw [Nat.zero_add] at hfwrite
    exact hfwrite
  | @again t logline n x out hpc hwrites =>
    have hbounded := h.bounded
    rw [h.holder_eq (by rw [hpc]; rfl), hpc] at hbounded
    exact h.fwrite (by rw [hpc]; rfl) (by rw [hpc]; rfl) (by rw [hpc]; rfl) (by rw [hpc]; rfl)
      (le_of_lt hbounded) (by rw [hpc]; nofun) hwrites
  | @refused t logline n out hpc hwrites =>
    obtain ⟨-, hmore, hbound⟩ := hwrites
    have hin : (s.pc t).inside = true := by rw [hpc]; rfl
    have hholder : s.holder = .again logline n := (h.holder_eq hin).trans hpc
    have hbounded := h.bounded
    rw [hholder] at hbounded
    have htaken : s.file.taken ++ (logline.drop n).take 0 = s.file.taken := List.append_nil _
    refine h.insider hin rfl rfl rfl rfl ?_ ?_ (le_of_lt hbounded) h.lengths ?_ ?_ ?_ h.few
    · intro u
      show linesOf s.lines u ++ _ = _
      rw [pending_update (by rw [hpc]; rfl)]
    · show s.file.taken ++ (logline.drop n).take 0 = _
      rw [htaken, h.contents, hholder]
      rfl
    · have hrefused := h.cut
      rw [hholder] at hrefused
      show s.lines.countP Line.cut + (if n < logline.length then 1 else 0) = s.refused + 1
      have hlt : n < logline.length := hbounded
      rw [if_pos hlt, ← hrefused]
      rfl
    · show out ≤ (s.file.taken ++ (logline.drop n).take 0).length
      rw [htaken]
      exact hbound
    · intro hfailed _
      refine (h.recent hfailed ?_).trans hmore
      rw [hholder]
      nofun
  | count hpc hfew => exact h.counted hpc (.inl ⟨rfl, rfl⟩) (.inr (not_le.mp hfew))
  | countFlush hpc => exact h.counted hpc (.inr ⟨rfl, rfl⟩) (.inl rfl)
  | fflush hpc => exact h.synced hpc le_rfl fun _ => rfl
  | fflushFails hpc _ hbound => exact h.synced hpc hbound nofun
  | @unlock t hpc =>
    have hin : (s.pc t).inside = true := by rw [hpc]; rfl
    have hmine := (h.locked t).mp hin
    have hholder : s.holder = .unlock := (h.holder_eq hin).trans hpc
    refine ⟨?_, ?_, ?_, trivial, h.lengths, ?_, h.out, ?_, h.few⟩
    · intro u
      show (Function.update s.pc t .outside u).inside = true ↔ none = some u
      by_cases hu : u = t
      · subst hu
        rw [Function.update_self]
        exact iff_of_false nofun nofun
      · rw [Function.update_of_ne hu, h.locked u, hmine, Option.some.injEq]
        exact iff_of_false (fun heq => hu heq.symm) nofun
    · intro u
      refine Eq.trans ?_ (h.calls u)
      show linesOf s.lines u ++ (Function.update s.pc t .outside u).pending = _
      rw [pending_update (by rw [hpc]; rfl)]
    · have hcontents := h.contents
      rw [hholder] at hcontents
      exact hcontents
    · have hrefused := h.cut
      rw [hholder] at hrefused
      exact hrefused
    · intro hfailed _
      refine h.recent hfailed ?_
      rw [hholder]
      nofun

/-! ## What it gives -/

/-- The log file. -/
structure Sound (s : LogFile) : Prop where
  /-- the lines one after the other, and what there is of the one that is being written -/
  contents : s.file.taken = s.lines.flatMap Line.written ++ s.holder.progress
  /-- every line of a thread's calls once, in the thread's order -/
  calls : ∀ t, linesOf s.lines t ++ (s.pc t).pending = s.calledBy t
  /-- one line is cut for each `write` of the loop that returned 0 -/
  cut : s.lines.countP Line.cut + s.holder.cut = s.refused
  whole : s.refused = 0 → s.lines.flatMap Line.written = s.lines.flatMap Line.logline
  /-- all but the last `count_` lines are out of the buffer, when no thread has the mutex -/
  recent : s.failed = false → s.mutex = none → (older s.lines s.count).length ≤ s.file.out
  few : s.count = 0 ∨ (s.count : Int) < s.flushEveryN

theorem Inv.sound (h : s.Inv) : s.Sound where
  contents := h.contents
  calls := h.calls
  cut := h.cut
  whole := by
    intro hzero
    have hcut := h.cut
    rw [hzero, Nat.add_eq_zero_iff, List.countP_eq_zero] at hcut
    apply List.flatMap_congr
    intro line hline
    have hall : ¬ line.n < line.logline.length := fun hlt => hcut.1 line hline (decide_eq_true hlt)
    exact List.take_of_length_le (not_lt.mp hall)
  recent := by
    intro hfailed hfree
    refine h.recent hfailed ?_
    rw [holder, hfree]
    nofun
  few := h.few

/-- **The log file in any run**: any threads, `append` and `flush` in any order, `fwrite` in any pieces. -/
theorem log_file_sound (h : logFile.Reachable s) : s.Sound := by
  apply Inv.sound
  refine h.invariant (I := Inv) (fun s₀ h₀ => ?_) (fun _ _ _ _ hI _ hs => inv_step hI hs)
  obtain ⟨flushEveryN, rfl⟩ := h₀
  exact inv_new flushEveryN

/-- Thread 2 waits while thread 1 writes in two pieces, then its line is cut; the third line flushes. -/
theorem log_file_sound_sample : ∃ s : LogFile, s.file.taken = [1, 2, 3, 4, 6] ∧ s.file.out = 5 ∧ s.count = 0 ∧
    s.refused = 1 ∧ s.Sound := by
  obtain ⟨s, hs, hp⟩ := System.Reach.of_exec (S := logFile) (s := new 3)
    (l := [.append 1 [1, 2, 3], .append 2 [4, 5], .lock 1, .fwrite 1 2 0, .fwrite 1 1 1, .count 1, .unlock 1, .lock 2,
      .fwrite 2 1 1, .fwrite 2 0 2, .count 2, .append 1 [6], .unlock 2, .lock 1, .fwrite 1 1 2, .count 1,
      .fflush 1 none, .unlock 1])
    (p := fun s => decide (s.file.taken = [1, 2, 3, 4, 6] ∧ s.file.out = 5 ∧ s.count = 0 ∧ s.refused = 1))
    (.init ⟨3, rfl⟩) (by decide +kernel)
  rw [decide_eq_true_eq] at hp
  exact ⟨s, hp.1, hp.2.1, hp.2.2.1, hp.2.2.2, log_file_sound hs⟩

end LogFile

end Irono
