import Irono.Net.Correctness.PollerRegistry
import Irono.Net.ServerStart

/-!
# `Net.Correctness.StartOnce` — who may call `TcpServer::start()` first

The header promises that `start()` is thread safe and may be repeated. `started_` is read and set in the
calling thread, and so is the pool started, whose first lines assert that this is the base loop's thread: a
first call by another thread ends in `assertInLoopThread`, and one between the base loop's test of `started_`
and its store as well (`start_in_other_thread`).

`start_safe`: if whoever finds `started_` not set is the base loop's thread, no assert fails, the pool is
started once, with all its threads, and the acceptor listens or `listen` is on its way in the base loop, which
is awake for it.
-/

namespace Irono

open Transition Threads

namespace ServerStart

variable (tid : ThreadId)

/-! ## The condition and the invariant -/

/-- **The condition on a step.** Who finds `started_` not set is the base loop's thread. -/
def FoundByBase (s : ServerStart) : Label → Prop
  | .exec t => (s.threads.frames t).head? = some .testStarted → s.started = false → t = tid
  | _ => True

instance (s : ServerStart) : (l : Label) → Decidable (s.FoundByBase tid l)
  | .exec t => inferInstanceAs (Decidable ((s.threads.frames t).head? = some .testStarted →
      s.started = false → t = tid))
  | .loop _ | .startLoopReturns _ _ | .ret | .start _ | .queueInLoop _ | .quit _ => isTrue trivial

/-- The pieces that a call in any thread goes through. -/
def Stmt.Anywhere : Stmt → Prop
  | .testStarted | .testListenning | .runListen | .wakeup => True
  | _ => False

/-- The pieces from the store to `started_` to the end of the pool's loop. -/
def Stmt.Starting : Stmt → Prop
  | .setStarted | .startPool | .nextThread _ | .startLoop _ => True
  | _ => False

/-- Where the threads can be. Nothing comes between the pieces that start the pool. -/
structure Framed (th : Threads Unit Stmt) : Prop where
  batched : th.Batched
  others : ∀ t, t ≠ tid → ∀ x ∈ th.frames t, x.Anywhere
  base : .wakeup ∉ th.frames tid
  functors : ∀ x ∈ th.functors tid, x = .user ∨ x = .listen
  tail : ∀ x ∈ (th.frames tid).tail, ¬ x.Starting
  polling : (th.loops tid).pc = .polling → th.frames tid = []

/-- The pool has not been started. -/
def NotYet (s : ServerStart) : Prop :=
  s.threadPool.started = false ∧ s.poolStarts = 0 ∧ s.threadPool.loops = []

/-- The pool has been started, and has made `n` threads. -/
def Made (s : ServerStart) (n : Nat) : Prop :=
  s.started = true ∧ s.threadPool.started = true ∧ s.poolStarts = 1 ∧ s.threadPool.loops.length = n

/-- The base loop's thread is not starting the pool. -/
def Resting (s : ServerStart) : Prop :=
  s.started = false ∧ s.NotYet ∨ s.Made s.threadPool.numThreads

/-- How far the pool is, by the statement the base loop's thread is at. -/
def Phase (s : ServerStart) : Option Stmt → Prop
  | some .setStarted => s.started = false ∧ s.NotYet
  | some .startPool => s.started = true ∧ s.NotYet
  | some (.nextThread i) => s.Made i ∧ i ≤ s.threadPool.numThreads
  | some (.startLoop i) => s.Made i ∧ i < s.threadPool.numThreads
  | _ => s.Resting

/-- The acceptor listens, or `listen` is to come in the base loop's thread. -/
def ListenComes (s : ServerStart) : Prop := s.listenning = true ∨ .listen ∈ s.threads.agenda handlerStmts tid

/-- The base loop goes on to a pending `listen`. -/
def Awake (th : Threads Unit Stmt) : Prop :=
  .listen ∈ (th.loops tid).pendingFunctors →
    (∃ active, (th.loops tid).pc = .dispatch active) ∨ 0 < (th.loops tid).wakeupFd ∨ ∃ t, .wakeup ∈ th.frames t

structure Sound (s : ServerStart) : Prop where
  framed : Framed tid s.threads
  phase : s.Phase (s.threads.frames tid).head?
  registered : Registered s.poller (Function.update (fun _ => none) s.acceptChannel.self (some s.acceptChannel))
  socket : s.listenning = true → s.socketListens = true ∨ .listenSocket ∈ s.threads.frames tid
  /-- a call has set `started_`, or is about to -/
  called : 0 < s.calls → s.started = true ∨ ∃ t, .testStarted ∈ s.threads.frames t ∨
    .setStarted ∈ s.threads.frames t
  /-- a call has brought `listen` on its way, or is about to -/
  comes : 0 < s.calls → s.ListenComes tid ∨
    ∃ t, .testListenning ∈ s.threads.frames t ∨ .runListen ∈ s.threads.frames t
  awake : Awake tid s.threads

variable {tid} {s s' : ServerStart} {th th' : Threads Unit Stmt} {t : ThreadId} {x y : Stmt} {l : List Stmt}

/-! ## Where the threads can be -/

theorem push_nil (th : Threads Unit Stmt) (t : ThreadId) : th.push t [] = th := by
  unfold Threads.push
  rw [List.nil_append, Function.update_eq_self]

theorem frames_push_self (th : Threads Unit Stmt) (t : ThreadId) (l : List Stmt) :
    (th.push t l).frames t = l ++ th.frames t := Function.update_self ..

theorem frames_push_of_ne (th : Threads Unit Stmt) {t t' : ThreadId} (h : t' ≠ t) (l : List Stmt) :
    (th.push t l).frames t' = th.frames t' := Function.update_of_ne h ..

/-- What a thread is in stays in its frames, but for the statement at hand. -/
theorem mem_frames_exec (hp : th.pop t = some (x, th')) {t' : ThreadId} (hy : y ∈ th.frames t') (hne : y ≠ x) :
    y ∈ (th'.push t l).frames t' := by
  obtain ⟨hself, hother⟩ := frames_pop hp
  by_cases ht : t' = t
  · subst ht
    rw [hself] at hy
    rw [frames_push_self]
    exact List.mem_append_right _ (List.mem_of_ne_of_mem hne hy)
  · rw [frames_push_of_ne _ ht, hother t' ht]
    exact hy

/-- A statement gives way to the next piece of the same function. -/
theorem Framed.exec (h : Framed tid th) (hp : th.pop t = some (x, th')) (hlen : l.length ≤ 1)
    (hany : t ≠ tid → ∀ y ∈ l, y.Anywhere) (hbase : t = tid → .wakeup ∉ l) : Framed tid (th'.push t l) := by
  obtain ⟨hself, hother⟩ := frames_pop hp
  have hloops : th'.loops = th.loops := loops_pop hp
  refine ⟨batched_push (batched_pop h.batched hp) l, fun t' ht' y hy => ?_, fun hin => ?_, ?_, ?_, fun hpc => ?_⟩
  · by_cases ht : t' = t
    · subst ht
      rw [frames_push_self] at hy
      rcases List.mem_append.mp hy with hy | hy
      · exact hany ht' y hy
      · exact h.others t' ht' y (hself ▸ List.mem_cons_of_mem x hy)
    · rw [frames_push_of_ne _ ht, hother t' ht] at hy
      exact h.others t' ht' y hy
  · by_cases ht : tid = t
    · subst ht
      rw [frames_push_self] at hin
      rcases List.mem_append.mp hin with hin | hin
      · exact hbase rfl hin
      · exact h.base (hself ▸ List.mem_cons_of_mem x hin)
    · rw [frames_push_of_ne _ ht, hother tid ht] at hin
      exact h.base hin
  · show ∀ y ∈ (th'.loops tid).functors ++ (th'.loops tid).pendingFunctors, y = .user ∨ y = .listen
    rw [hloops]
    exact h.functors
  · by_cases ht : tid = t
    · subst ht
      have htail := h.tail
      rw [hself, List.tail_cons] at htail
      rw [frames_push_self]
      cases l with
      | nil => exact fun y hy => htail y (List.mem_of_mem_tail hy)
      | cons z l =>
        obtain rfl : l = [] := List.eq_nil_of_length_eq_zero (by simpa using hlen)
        exact htail
    · rw [frames_push_of_ne _ ht, hother tid ht]
      exact h.tail
  · have hpc' : (th'.loops tid).pc = .polling := hpc
    rw [hloops] at hpc'
    have hnil := h.polling hpc'
    by_cases ht : tid = t
    · subst ht
      rw [hself] at hnil
      cases hnil
    · rw [frames_push_of_ne _ ht, hother tid ht]
      exact hnil

/-- What other code does to the base loop: its queue may grow, by user code or `listen`, and it goes on. -/
theorem Framed.onLoop (h : Framed tid th) (loop : EventLoop Unit Stmt) (hb : loop.Batched)
    (hf : ∀ x ∈ loop.functors ++ loop.pendingFunctors, x = .user ∨ x = .listen)
    (hpc : loop.pc = (th.loops tid).pc) :
    Framed tid { th with loops := Function.update th.loops tid loop } := by
  refine ⟨fun t => ?_, h.others, h.base, ?_, h.tail, ?_⟩
  · by_cases ht : t = tid
    · subst ht
      simpa using hb
    · simpa [ht] using h.batched t
  · simpa only [Threads.functors, Function.update_self] using hf
  · simpa only [Function.update_self, hpc] using h.polling

/-- The loop's own code ends in user code, in `listen`, or nowhere. -/
theorem Framed.advance (h : Framed tid th) {mv : EventLoop.Move Unit}
    (hadv : th.advance handlerStmts tid mv = .ok th') :
    Framed tid th' ∧ th.frames tid = [] ∧ (∀ x ∈ th'.frames tid, x = .user ∨ x = .listen) ∧
      ∀ t, t ≠ tid → th'.frames t = th.frames t := by
  obtain ⟨hb, hnil, hother, -⟩ := agenda_advance h.batched hadv
  have htask : (∀ x ∈ th'.frames tid, x = .user ∨ x = .listen) ∧ (th'.frames tid).tail = [] ∧
      ((th'.loops tid).pc = .polling → th'.frames tid = []) := by
    rcases frames_advance hadv with hf | ⟨hd, rest, -, hpc, hf⟩ | ⟨stmt, rest, -, hfun, hpc, hf⟩
    · rw [hf]
      exact ⟨by simp, rfl, fun _ => rfl⟩
    · rw [hf, hpc]
      exact ⟨by simp [handlerStmts], rfl, by simp⟩
    · rw [hf, hpc]
      refine ⟨fun x hx => ?_, rfl, by simp⟩
      rw [List.mem_singleton.mp hx]
      exact h.functors stmt (List.mem_append_left _ (hfun ▸ List.mem_cons_self))
  refine ⟨⟨hb, fun t ht => ?_, fun hin => ?_, fun x hx => ?_, ?_, htask.2.2⟩, hnil, htask.1, hother⟩
  · rw [hother t ht]
    exact h.others t ht
  · rcases htask.1 _ hin with heq | heq <;> cases heq
  · exact h.functors x (functors_advance h.batched hadv hx)
  · rw [htask.2.1]
    simp

/-! ## The way to the pool -/

/-- Where no piece of the pool's start is at hand, the pool is at rest. -/
theorem phase_iff {o : Option Stmt} (ho : ∀ x ∈ o, ¬ x.Starting) : s.Phase o ↔ s.Resting := by
  rcases o with _ | x
  · exact Iff.rfl
  · have hx := ho x rfl
    cases x with
    | setStarted => exact absurd trivial hx
    | startPool => exact absurd trivial hx
    | nextThread i => exact absurd trivial hx
    | startLoop i => exact absurd trivial hx
    | _ => exact Iff.rfl

/-- A piece that is not one of the pool's start comes next, in this thread or another. -/
theorem phase_exec (h : Framed tid th) (hp : th.pop t = some (x, th')) (hrest : t = tid → s.Resting)
    (hphase : t ≠ tid → s.Phase (th.frames tid).head?) (hl : ∀ y ∈ l, ¬ y.Starting) :
    s.Phase ((th'.push t l).frames tid).head? := by
  obtain ⟨hself, hother⟩ := frames_pop hp
  by_cases ht : t = tid
  · subst ht
    have htail := h.tail
    rw [hself, List.tail_cons] at htail
    rw [phase_iff]
    · exact hrest rfl
    · intro y hy
      rw [frames_push_self] at hy
      rcases List.mem_append.mp (List.mem_of_mem_head? hy) with hy | hy
      · exact hl y hy
      · exact htail y hy
  · rw [frames_push_of_ne _ (Ne.symm ht), hother tid (Ne.symm ht)]
    exact hphase ht

/-- Where a thread is outside the pool's start, the pool is at rest if the thread is the base loop's. -/
theorem Sound.resting (h : s.Sound tid) (hp : s.threads.pop t = some (x, th)) (hx : ¬ x.Starting) (ht : t = tid) :
    s.Resting := by
  subst ht
  have hphase := h.phase
  rw [(frames_pop hp).1, List.head?_cons] at hphase
  exact (phase_iff fun y hy => Option.some.inj hy ▸ hx).mp hphase

/-- A piece outside the pool's start gives way to another, and the pool stays as far as it is. -/
theorem Sound.phase_exec (h : s.Sound tid) (hp : s.threads.pop t = some (x, th)) (hx : ¬ x.Starting)
    (hl : ∀ y ∈ l, ¬ y.Starting) : s.Phase ((th.push t l).frames tid).head? :=
  ServerStart.phase_exec h.framed hp (h.resting hp hx) (fun _ => h.phase) hl

/-- A piece of the pool's start is in the base loop's thread. -/
theorem Sound.base_of_starting (h : s.Sound tid) (hp : s.threads.pop t = some (x, th)) (hx : x.Starting) :
    t = tid ∧ s.Phase (some x) := by
  obtain ⟨hself, -⟩ := frames_pop hp
  have ht : t = tid := by
    by_contra hne
    have hany := h.framed.others t hne x (hself ▸ List.mem_cons_self)
    cases x <;> first | exact hx | exact hany
  subst ht
  have hphase := h.phase
  rw [hself] at hphase
  exact ⟨rfl, hphase⟩

/-! ## The way to `listen` -/

/-- The socket is set to listen right after `listenning_`. -/
theorem Sound.socket_exec (h : s.Sound tid) (hp : s.threads.pop t = some (x, th)) (hx : x ≠ .listenSocket)
    (hlisten : s.listenning = true) : s.socketListens = true ∨ .listenSocket ∈ (th.push t l).frames tid :=
  (h.socket hlisten).imp_right fun hin => mem_frames_exec hp hin hx.symm

theorem Sound.called_exec (h : s.Sound tid) (hp : s.threads.pop t = some (x, th)) (hx : x ≠ .testStarted)
    (hx' : x ≠ .setStarted) (hcalls : 0 < s.calls) : s.started = true ∨
      ∃ t', .testStarted ∈ (th.push t l).frames t' ∨ .setStarted ∈ (th.push t l).frames t' := by
  refine (h.called hcalls).imp_right ?_
  rintro ⟨t', hin | hin⟩
  · exact ⟨t', .inl (mem_frames_exec hp hin hx.symm)⟩
  · exact ⟨t', .inr (mem_frames_exec hp hin hx'.symm)⟩

/-- `listen` stays on its way. -/
theorem listenComes_exec (h : s.ListenComes tid) (hp : s.threads.pop t = some (x, th)) (hx : x ≠ .listen) :
    { s with threads := th.push t l }.ListenComes tid := by
  refine h.imp_right fun hin => ?_
  rw [agenda_pop hp] at hin
  show _ ∈ (th.push t l).agenda handlerStmts tid
  rw [agenda_push]
  rcases List.mem_append.mp hin with hin | hin
  · split at hin
    · exact absurd (List.mem_singleton.mp hin).symm hx
    · cases hin
  · exact List.mem_append_right _ hin

theorem Sound.comes_exec (h : s.Sound tid) (hp : s.threads.pop t = some (x, th)) (hx : x ≠ .testListenning)
    (hx' : x ≠ .runListen) (hx'' : x ≠ .listen) (hcalls : 0 < s.calls) :
    { s with threads := th.push t l }.ListenComes tid ∨
      ∃ t', .testListenning ∈ (th.push t l).frames t' ∨ .runListen ∈ (th.push t l).frames t' := by
  rcases h.comes hcalls with hc | ⟨t', hin | hin⟩
  · exact .inl (listenComes_exec hc hp hx'')
  · exact .inr ⟨t', .inl (mem_frames_exec hp hin hx.symm)⟩
  · exact .inr ⟨t', .inr (mem_frames_exec hp hin hx'.symm)⟩

theorem Awake.exec (h : Awake tid th) (hp : th.pop t = some (x, th')) (hx : x ≠ .wakeup) :
    Awake tid (th'.push t l) := by
  have hloops : th'.loops = th.loops := loops_pop hp
  intro hin
  show (∃ active, (th'.loops tid).pc = .dispatch active) ∨ 0 < (th'.loops tid).wakeupFd ∨ _
  have hin' : .listen ∈ (th'.loops tid).pendingFunctors := hin
  rw [hloops] at hin' ⊢
  refine (h hin').imp_right (Or.imp_right ?_)
  rintro ⟨t', ht'⟩
  exact ⟨t', mem_frames_exec hp ht' hx.symm⟩

theorem mem_agenda_of_pending (h : x ∈ (th.loops t).pendingFunctors) : x ∈ th.agenda handlerStmts t := by
  refine List.mem_append_right _ (List.mem_flatMap.mpr ⟨.functor x, ?_, List.mem_singleton_self x⟩)
  exact List.mem_append_right _ (List.mem_map_of_mem (List.mem_append_right _ h))

theorem agenda_update (loop : EventLoop Unit Stmt) (h : loop.agenda = (th.loops tid).agenda) :
    Threads.agenda handlerStmts { th with loops := Function.update th.loops tid loop } tid =
      th.agenda handlerStmts tid := by
  simp only [Threads.agenda, Function.update_self, h]

/-- The swap takes a pending `listen`, and what ends the wait for it stays until then. -/
theorem Awake.advance (h : Awake tid th) (hf : Framed tid th) {mv : EventLoop.Move Unit}
    (hadv : th.advance handlerStmts tid mv = .ok th') : Awake tid th' := by
  obtain ⟨-, hnil, -, hother⟩ := hf.advance hadv
  have hwakeup : (∃ t, .wakeup ∈ th.frames t) → ∃ t, .wakeup ∈ th'.frames t := by
    rintro ⟨t, ht⟩
    refine ⟨t, ?_⟩
    rw [hother t]
    · exact ht
    · rintro rfl
      rw [hnil] at ht
      cases ht
  simp only [Threads.advance, bind_eq_ok, enabled_eq_ok, Prod.exists, pure_eq_ok, Except.ok.injEq] at hadv
  obtain ⟨-, -, loop, task, hadv, rfl⟩ := hadv
  intro hin
  simp only [Function.update_self] at hin ⊢
  rcases EventLoop.advance_cases hadv with
    ⟨-, hpc, -, rfl⟩ | ⟨active, -, hpc, -, -, rfl⟩ | ⟨-, hpc, -, ⟨-, rfl⟩ | ⟨-, rfl⟩⟩ |
    ⟨-, hpc, -, rfl⟩ | ⟨rest, -, hpc, -, rfl⟩ | ⟨hd, rest, -, hpc, -, rfl⟩ |
    ⟨f, rest, -, hpc, -, -, rfl⟩ | ⟨-, hpc, -, -, rfl⟩ | ⟨-, hpc, -, rfl⟩
  case inr.inl => exact .inl ⟨active, rfl⟩
  -- the swap leaves nothing pending
  case inr.inr.inr.inl => cases hin
  case inr.inr.inr.inr.inl => exact .inl ⟨rest, rfl⟩
  case inr.inr.inr.inr.inr.inl => exact .inl ⟨rest, rfl⟩
  -- elsewhere the counter stays as it is
  all_goals
    rcases h hin with ⟨active, hactive⟩ | hfd | hw
    · rw [hpc] at hactive
      cases hactive
    · exact .inr (.inl hfd)
    · exact .inr (.inr (hwakeup hw))

/-! ## The steps -/

/-- The registered channel of the acceptor can be updated, whether it is new or not. -/
theorem Sound.enableReading (h : s.Sound tid) : ∃ p c, s.poller.updateChannel s.acceptChannel.enableReading =
    .ok (p, c) ∧ Registered p (Function.update (fun _ => none) c.self (some c)) := by
  obtain ⟨-, p, c, hu, hc, hreg⟩ := h.registered.updateChannel (Function.update_self ..)
    (s.acceptChannel.events ∪ Channel.kReadEvent)
  have hself : c.self = s.acceptChannel.self := by rw [hc]
  refine ⟨p, c, hu, ?_⟩
  rwa [Function.update_idem, ← hself] at hreg

/-! ### `TcpServer::start` -/

theorem sound_testStarted (h : s.Sound tid) (hp : s.threads.pop t = some (.testStarted, th))
    (hfound : s.started = false → t = tid) (hs : { s with threads := th }.run tid t .testStarted = .ok s') :
    s'.Sound tid := by
  have hframed := h.framed
  simp only [run, pure_eq_ok, Except.ok.injEq] at hs
  subst hs
  split
  · -- another call has been here
    rename_i hstarted
    rw [← push_nil th t]
    exact ⟨hframed.exec hp (by simp) (by simp) (by simp), h.phase_exec hp id (by simp), h.registered,
      h.socket_exec hp (by simp), fun _ => .inl hstarted, h.comes_exec hp (by simp) (by simp) (by simp),
      h.awake.exec hp (by simp)⟩
  · -- the condition: this is the base loop's thread, and the pool is still to be started
    rename_i hstarted
    have hno : s.started = false := by simpa using hstarted
    obtain rfl := hfound hno
    have hmem : .setStarted ∈ (th.push t [.setStarted]).frames t := by simp [frames_push_self]
    refine ⟨hframed.exec hp (by simp) (by simp) (by simp), ?_, h.registered, h.socket_exec hp (by simp),
      fun _ => .inr ⟨t, .inr hmem⟩, h.comes_exec hp (by simp) (by simp) (by simp), h.awake.exec hp (by simp)⟩
    show s.Phase ((th.push t [.setStarted]).frames t).head?
    rw [frames_push_self]
    refine ⟨hno, (h.resting hp id rfl).elim And.right fun hmade => ?_⟩
    rw [hmade.1] at hno
    cases hno

theorem sound_setStarted (h : s.Sound tid) (hp : s.threads.pop t = some (.setStarted, th))
    (hs : { s with threads := th }.run tid t .setStarted = .ok s') : s'.Sound tid := by
  simp only [run, pure_eq_ok, Except.ok.injEq] at hs
  subst hs
  obtain ⟨rfl, hphase⟩ := h.base_of_starting hp trivial
  refine ⟨h.framed.exec hp (by simp) (by simp) (by simp), ?_, h.registered, h.socket_exec hp (by simp),
    fun _ => .inl rfl, h.comes_exec hp (by simp) (by simp) (by simp), h.awake.exec hp (by simp)⟩
  show Phase _ ((th.push t [.startPool]).frames t).head?
  rw [frames_push_self]
  exact ⟨rfl, hphase.2⟩

theorem sound_testListenning (h : s.Sound tid) (hp : s.threads.pop t = some (.testListenning, th))
    (hs : { s with threads := th }.run tid t .testListenning = .ok s') : s'.Sound tid := by
  have hframed := h.framed
  simp only [run, pure_eq_ok, Except.ok.injEq] at hs
  subst hs
  split
  · -- `listen` has run, and what is left of this call does nothing
    rename_i hlisten
    rw [← push_nil th t]
    exact ⟨hframed.exec hp (by simp) (by simp) (by simp), h.phase_exec hp id (by simp), h.registered,
      h.socket_exec hp (by simp), h.called_exec hp (by simp) (by simp), fun _ => .inl (.inl hlisten),
      h.awake.exec hp (by simp)⟩
  · have hmem : .runListen ∈ (th.push t [.runListen]).frames t := by simp [frames_push_self]
    exact ⟨hframed.exec hp (by simp) (by simp [Stmt.Anywhere]) (by simp),
      h.phase_exec hp id (by simp [Stmt.Starting]), h.registered, h.socket_exec hp (by simp),
      h.called_exec hp (by simp) (by simp), fun _ => .inr ⟨t, .inr hmem⟩, h.awake.exec hp (by simp)⟩

/-- `runInLoop` calls `listen` or queues it. -/
theorem sound_runListen (h : s.Sound tid) (hp : s.threads.pop t = some (.runListen, th))
    (hs : { s with threads := th }.run tid t .runListen = .ok s') : s'.Sound tid := by
  have hframed := h.framed
  simp only [run] at hs
  split at hs
  · -- in the base loop's thread `runInLoop` calls it at once
    rename_i ht
    subst ht
    simp only [pure_eq_ok, Except.ok.injEq] at hs
    subst hs
    have hmem : .listen ∈ (th.push t [.listen]).agenda handlerStmts t := by
      rw [agenda_push, if_pos rfl]
      exact List.mem_append_left _ (List.mem_singleton_self _)
    exact ⟨hframed.exec hp (by simp) (by simp) (by simp), h.phase_exec hp id (by simp [Stmt.Starting]), h.registered,
      h.socket_exec hp (by simp), h.called_exec hp (by simp) (by simp), fun _ => .inl (.inr hmem),
      h.awake.exec hp (by simp)⟩
  · -- in another it is queued, and the wakeup is to come
    rename_i ht
    simp only [pure_eq_ok, Except.ok.injEq] at hs
    subst hs
    have h₁ : Framed tid (th.push t [.wakeup]) := hframed.exec hp (by simp) (by simp [Stmt.Anywhere]) (by simp [ht])
    have hmem : .wakeup ∈ (th.push t [.wakeup]).frames t := by simp [frames_push_self]
    have hphase := h.phase_exec hp id (l := [.wakeup]) (by simp [Stmt.Starting])
    have hsocket := h.socket_exec hp (l := [.wakeup]) (by simp)
    have hcalled := h.called_exec hp (l := [.wakeup]) (by simp) (by simp)
    refine ⟨h₁.onLoop ((th.loops tid).push .listen) (h₁.batched tid) (fun x hx => ?_) rfl,
      hphase, h.registered, hsocket, hcalled,
      fun _ => .inl (.inr (mem_agenda_of_pending ?_)), fun _ => .inr (.inr ⟨t, hmem⟩)⟩
    · rw [EventLoop.push, ← List.append_assoc] at hx
      rcases List.mem_append.mp hx with hx | hx
      · exact h₁.functors x hx
      · exact .inr (List.mem_singleton.mp hx)
    · show _ ∈ (Function.update th.loops tid ((th.loops tid).push .listen) tid).pendingFunctors
      rw [Function.update_self]
      exact List.mem_append_right _ (List.mem_singleton_self _)

theorem sound_wakeup (h : s.Sound tid) (hp : s.threads.pop t = some (.wakeup, th))
    (hs : { s with threads := th }.run tid t .wakeup = .ok s') : s'.Sound tid := by
  have hframed := h.framed
  -- the base loop's thread queues no `listen`
  have ht : t ≠ tid := by
    rintro rfl
    exact hframed.base ((frames_pop hp).1 ▸ List.mem_cons_self)
  have hwakeup : (th.loops tid).wakeupAfterPush (t = tid) = (th.loops tid).wakeup := by
    simp [EventLoop.wakeupAfterPush, ht]
  simp only [run, onLoop, hwakeup, pure_eq_ok, Except.ok.injEq] at hs
  subst hs
  have h₁ : Framed tid th := push_nil th t ▸ hframed.exec hp (by simp) (by simp) (by simp)
  have hphase := h.phase_exec hp id (l := []) (by simp)
  have hsocket := h.socket_exec hp (l := []) (by simp)
  have hcalled := h.called_exec hp (l := []) (by simp) (by simp)
  have hcomes := h.comes_exec hp (l := []) (by simp) (by simp) (by simp)
  rw [push_nil] at hphase hsocket hcalled hcomes
  refine ⟨h₁.onLoop (th.loops tid).wakeup (h₁.batched tid) h₁.functors rfl, hphase, h.registered,
    hsocket, hcalled, fun hcalls => (hcomes hcalls).imp_left (Or.imp_right fun hin => ?_), fun _ => .inr (.inl ?_)⟩
  · show _ ∈ Threads.agenda handlerStmts
      { th with loops := Function.update th.loops tid (th.loops tid).wakeup } tid
    rw [agenda_update (th.loops tid).wakeup rfl]
    exact hin
  · show 0 < (Function.update th.loops tid (th.loops tid).wakeup tid).wakeupFd
    rw [Function.update_self]
    exact Nat.succ_pos _

/-! ### `EventLoopThreadPool::start` -/

theorem sound_startPool (h : s.Sound tid) (hp : s.threads.pop t = some (.startPool, th))
    (hs : { s with threads := th }.run tid t .startPool = .ok s') : s'.Sound tid := by
  simp only [run, bind_eq_ok, pure_eq_ok, Except.ok.injEq] at hs
  obtain ⟨-, -, -, -, rfl⟩ := hs
  obtain ⟨rfl, hstarted, -, hzero, hnil⟩ := h.base_of_starting hp trivial
  refine ⟨h.framed.exec hp (by simp) (by simp) (by simp), ?_, h.registered, h.socket_exec hp (by simp),
    fun _ => .inl hstarted, h.comes_exec hp (by simp) (by simp) (by simp), h.awake.exec hp (by simp)⟩
  show Phase _ ((th.push t [.nextThread 0]).frames t).head?
  rw [frames_push_self]
  refine ⟨⟨hstarted, rfl, ?_, ?_⟩, Nat.zero_le _⟩
  · show s.poolStarts + 1 = 1
    rw [hzero]
  · show s.threadPool.loops.length = 0
    rw [hnil]
    rfl

/-- The head of the loop over the threads, and what comes after it. -/
theorem sound_nextThread (h : s.Sound tid) {i : Nat} (hp : s.threads.pop t = some (.nextThread i, th))
    (hs : { s with threads := th }.run tid t (.nextThread i) = .ok s') : s'.Sound tid := by
  have hframed := h.framed
  obtain ⟨rfl, hmade, hle⟩ := h.base_of_starting hp trivial
  have hcalled : ∀ {l : List Stmt}, 0 < s.calls →
      s.started = true ∨ ∃ t', .testStarted ∈ (th.push t l).frames t' ∨
      .setStarted ∈ (th.push t l).frames t' := fun _ => .inl hmade.1
  simp only [run] at hs
  split at hs
  · rename_i hlt
    simp only [pure_eq_ok, Except.ok.injEq] at hs
    subst hs
    refine ⟨hframed.exec hp (by simp) (by simp) (by simp), ?_, h.registered, h.socket_exec hp (by simp),
      hcalled, h.comes_exec hp (by simp) (by simp) (by simp), h.awake.exec hp (by simp)⟩
    show s.Phase ((th.push t [.startLoop i]).frames t).head?
    rw [frames_push_self]
    exact ⟨hmade, hlt⟩
  · rename_i hge
    -- the loop ends with all the threads
    obtain rfl : i = s.threadPool.numThreads := Nat.le_antisymm hle (Nat.not_lt.mp hge)
    split at hs <;> simp only [pure_eq_ok, Except.ok.injEq] at hs <;> subst hs
    · exact ⟨hframed.exec hp (by simp) (by simp) (by simp),
        phase_exec hframed hp (fun _ => .inr hmade) (fun _ => h.phase) (by simp [Stmt.Starting]), h.registered,
        h.socket_exec hp (by simp), hcalled, h.comes_exec hp (by simp) (by simp) (by simp),
        h.awake.exec hp (by simp)⟩
    · rw [← push_nil th t]
      exact ⟨hframed.exec hp (by simp) (by simp) (by simp),
        phase_exec hframed hp (fun _ => .inr hmade) (fun _ => h.phase) (by simp), h.registered,
        h.socket_exec hp (by simp), hcalled, h.comes_exec hp (by simp) (by simp) (by simp),
        h.awake.exec hp (by simp)⟩

/-! ### `Acceptor::listen` -/

theorem sound_listen (h : s.Sound tid) (hp : s.threads.pop t = some (.listen, th))
    (hs : { s with threads := th }.run tid t .listen = .ok s') : s'.Sound tid := by
  simp only [run, bind_eq_ok, require_eq_ok, Result.mapFault_eq_ok, Prod.exists, pure_eq_ok, Except.ok.injEq] at hs
  obtain ⟨-, rfl, p, c, hu, rfl⟩ := hs
  obtain ⟨p', c', hu', hreg⟩ := h.enableReading
  obtain ⟨rfl, rfl⟩ := Prod.mk.inj (Except.ok.inj (hu.symm.trans hu'))
  have hmem : .listenSocket ∈ (th.push t [.listenSocket]).frames t := by simp [frames_push_self]
  exact ⟨h.framed.exec hp (by simp) (by simp) (by simp), h.phase_exec hp id (by simp [Stmt.Starting]), hreg,
    fun _ => .inr hmem, h.called_exec hp (by simp) (by simp), fun _ => .inl (.inl rfl), h.awake.exec hp (by simp)⟩

theorem sound_listenSocket (h : s.Sound tid) (hp : s.threads.pop t = some (.listenSocket, th))
    (hs : { s with threads := th }.run tid t .listenSocket = .ok s') : s'.Sound tid := by
  simp only [run, pure_eq_ok, Except.ok.injEq] at hs
  subst hs
  rw [← push_nil th t]
  refine ⟨h.framed.exec hp (by simp) ?_ (by simp), h.phase_exec hp id (by simp), h.registered, fun _ => .inl rfl,
    h.called_exec hp (by simp) (by simp), h.comes_exec hp (by simp) (by simp) (by simp), h.awake.exec hp (by simp)⟩
  simp

/-- **One piece of a function**, in any thread. -/
theorem sound_exec (h : s.Sound tid) (hp : s.threads.pop t = some (x, th))
    (hfound : x = .testStarted → s.started = false → t = tid)
    (hs : { s with threads := th }.run tid t x = .ok s') : s'.Sound tid := by
  cases x with
  | user => cases hs
  | startLoop i => cases hs
  | testStarted => exact sound_testStarted h hp (hfound rfl) hs
  | setStarted => exact sound_setStarted h hp hs
  | startPool => exact sound_startPool h hp hs
  | nextThread i => exact sound_nextThread h hp hs
  | testListenning => exact sound_testListenning h hp hs
  | runListen => exact sound_runListen h hp hs
  | wakeup => exact sound_wakeup h hp hs
  | listen => exact sound_listen h hp hs
  | listenSocket => exact sound_listenSocket h hp hs

/-! ### The other steps -/

theorem sound_loop (h : s.Sound tid) {mv : EventLoop.Move Unit}
    (hadv : s.threads.advance handlerStmts tid mv = .ok th) : { s with threads := th }.Sound tid := by
  obtain ⟨hframed, hnil, htask, hother⟩ := h.framed.advance hadv
  have hphase := h.phase
  rw [hnil] at hphase
  -- nothing but the base loop's thread has moved, and it had nothing in its frames
  have hkeep : ∀ {t} {x : Stmt}, x ∈ s.threads.frames t → x ∈ th.frames t := by
    intro t x hx
    rw [hother t]
    · exact hx
    · rintro rfl
      rw [hnil] at hx
      cases hx
  refine ⟨hframed, (phase_iff fun x hx => ?_).mpr hphase, h.registered, fun hlisten => ?_, fun hcalls => ?_,
    fun hcalls => ?_, h.awake.advance h.framed hadv⟩
  · rcases htask x (List.mem_of_mem_head? hx) with rfl | rfl <;> exact id
  · refine (h.socket hlisten).imp_right fun hin => ?_
    exact hkeep hin
  · refine (h.called hcalls).imp_right ?_
    rintro ⟨t, hin | hin⟩
    · exact ⟨t, .inl (hkeep hin)⟩
    · exact ⟨t, .inr (hkeep hin)⟩
  · refine (h.comes hcalls).imp (Or.imp_right fun hin => ?_) ?_
    · obtain ⟨-, -, -, ⟨active, -, -, -, hag⟩ | ⟨-, hag⟩⟩ := agenda_advance h.framed.batched hadv
      · show _ ∈ th.agenda handlerStmts tid
        rw [hag tid]
        exact List.mem_append_right _ hin
      · show _ ∈ th.agenda handlerStmts tid
        rw [hag tid]
        exact hin
    · rintro ⟨t, hin | hin⟩
      · exact ⟨t, .inl (hkeep hin)⟩
      · exact ⟨t, .inr (hkeep hin)⟩

theorem sound_startLoopReturns (h : s.Sound tid) {i : Nat} (hp : s.threads.pop t = some (.startLoop i, th))
    (loop : ThreadId) : ({ s with
      threads := th
      threadPool := { s.threadPool with loops := s.threadPool.loops ++ [loop] } }.push t
        [.nextThread (i + 1)]).Sound tid := by
  obtain ⟨rfl, ⟨hstarted, hpool, hone, hlen⟩, hlt⟩ := h.base_of_starting hp trivial
  refine ⟨h.framed.exec hp (by simp) (by simp) (by simp), ?_, h.registered, h.socket_exec hp (by simp),
    fun _ => .inl hstarted, h.comes_exec hp (by simp) (by simp) (by simp), h.awake.exec hp (by simp)⟩
  show Phase _ ((th.push t [.nextThread (i + 1)]).frames t).head?
  rw [frames_push_self]
  refine ⟨⟨hstarted, hpool, hone, ?_⟩, hlt⟩
  show (s.threadPool.loops ++ [loop]).length = i + 1
  rw [List.length_append, hlen]
  rfl

theorem sound_ret (h : s.Sound tid) (hp : s.threads.pop tid = some (.user, th)) :
    { s with threads := th }.Sound tid := by
  have hphase := h.phase_exec hp id (l := []) (by simp)
  have hframed := h.framed.exec hp (l := []) (by simp) (by simp) (by simp)
  have hsocket := h.socket_exec hp (l := []) (by simp)
  have hcalled := h.called_exec hp (l := []) (by simp) (by simp)
  have hcomes := h.comes_exec hp (l := []) (by simp) (by simp) (by simp)
  have hawake := h.awake.exec hp (l := []) (by simp)
  rw [push_nil] at hphase hframed hsocket hcalled hcomes hawake
  exact ⟨hframed, hphase, h.registered, hsocket, hcalled, hcomes, hawake⟩

/-- User code is outside the pool's start, and not in `poll`. -/
theorem Sound.userCode (h : s.Sound tid) (hu : s.UserCode tid t) (ht : t = tid) :
    s.Resting ∧ (∀ x ∈ s.threads.frames t, ¬ x.Starting) ∧ (s.threads.loops t).pc ≠ .polling := by
  subst ht
  have hphase := h.phase
  have htail := h.framed.tail
  rcases hu with hhead | ⟨hnil, hpc⟩
  · obtain ⟨rest, hrest⟩ : ∃ rest, s.threads.frames t = .user :: rest := by
      cases hf : s.threads.frames t with
      | nil => rw [hf] at hhead; cases hhead
      | cons x rest =>
        rw [hf] at hhead
        exact ⟨rest, by rw [Option.some.inj hhead]⟩
    rw [hhead] at hphase
    rw [hrest, List.tail_cons] at htail
    refine ⟨hphase, fun x hx => ?_, fun hpoll => ?_⟩
    · rw [hrest] at hx
      rcases List.mem_cons.mp hx with rfl | hx
      · exact id
      · exact htail x hx
    · have hnil := h.framed.polling hpoll
      rw [hrest] at hnil
      cases hnil
  · rw [hnil] at hphase ⊢
    refine ⟨hphase, by simp, ?_⟩
    rcases hpc rfl with hpc | hpc <;> rw [hpc] <;> decide

theorem sound_start (h : s.Sound tid) (hu : s.UserCode tid t) :
    ({ s with calls := s.calls + 1 }.push t [.testStarted, .testListenning]).Sound tid := by
  have hframed := h.framed
  have hgrow : ∀ {t'} {x : Stmt}, x ∈ s.threads.frames t' →
      x ∈ (s.threads.push t [.testStarted, .testListenning]).frames t' := by
    intro t' x hx
    by_cases ht : t' = t
    · subst ht
      rw [frames_push_self]
      exact List.mem_append_right _ hx
    · rw [frames_push_of_ne _ ht]
      exact hx
  refine ⟨⟨batched_push hframed.batched _, fun t' ht' x hx => ?_, fun hin => ?_, hframed.functors, ?_,
      fun hpc => ?_⟩, ?_, h.registered, fun hlisten => (h.socket hlisten).imp_right hgrow,
      fun _ => .inr ⟨t, .inl ?_⟩,
    fun _ => .inr ⟨t, .inl ?_⟩, fun hin => (h.awake hin).imp_right (Or.imp_right fun hw => ?_)⟩
  · by_cases ht : t' = t
    · subst ht
      have hx' : x ∈ [.testStarted, .testListenning] ++ s.threads.frames t' := (frames_push_self ..) ▸ hx
      rcases List.mem_append.mp hx' with hin | hin
      · rcases List.mem_pair.mp hin with rfl | rfl <;> trivial
      · exact hframed.others t' ht' x hin
    · exact hframed.others t' ht' x ((frames_push_of_ne _ ht _) ▸ hx)
  · by_cases ht : tid = t
    · subst ht
      have hin' : .wakeup ∈ [.testStarted, .testListenning] ++ s.threads.frames tid := (frames_push_self ..) ▸ hin
      rcases List.mem_append.mp hin' with hin' | hin'
      · simp at hin'
      · exact hframed.base hin'
    · exact hframed.base ((frames_push_of_ne _ ht _) ▸ hin)
  · show ∀ x ∈ ((s.threads.push t [.testStarted, .testListenning]).frames tid).tail, ¬ x.Starting
    by_cases ht : tid = t
    · subst ht
      rw [frames_push_self]
      rintro x (_ | ⟨_, hx⟩)
      · exact id
      · exact (h.userCode hu rfl).2.1 x hx
    · rw [frames_push_of_ne _ ht]
      exact hframed.tail
  · by_cases ht : tid = t
    · subst ht
      exact absurd hpc (h.userCode hu rfl).2.2
    · exact (frames_push_of_ne _ ht _).trans (hframed.polling hpc)
  · show s.Phase ((s.threads.push t [.testStarted, .testListenning]).frames tid).head?
    by_cases ht : tid = t
    · subst ht
      rw [frames_push_self]
      exact (h.userCode hu rfl).1
    · rw [frames_push_of_ne _ ht]
      exact h.phase
  · show _ ∈ (s.threads.push t [.testStarted, .testListenning]).frames t
    rw [frames_push_self]
    exact List.mem_cons_self
  · show _ ∈ (s.threads.push t [.testStarted, .testListenning]).frames t
    rw [frames_push_self]
    exact List.mem_cons_of_mem _ List.mem_cons_self
  · obtain ⟨t', ht'⟩ := hw
    exact ⟨t', hgrow ht'⟩

/-- What users do to the base loop. -/
theorem Sound.onLoop (h : s.Sound tid) (loop : EventLoop Unit Stmt) (hpc : loop.pc = (s.threads.loops tid).pc)
    (hfunctors : loop.functors = (s.threads.loops tid).functors) {l : List Stmt}
    (hpending : loop.pendingFunctors = (s.threads.loops tid).pendingFunctors ++ l) (hl : ∀ x ∈ l, x = .user)
    (hfd : (s.threads.loops tid).wakeupFd ≤ loop.wakeupFd) : (s.onLoop tid fun _ => loop).Sound tid := by
  have hself : Function.update s.threads.loops tid loop tid = loop := Function.update_self ..
  have hbatched : loop.Batched := by
    intro hne
    rw [hfunctors]
    exact h.framed.batched tid (hpc ▸ hne)
  refine ⟨h.framed.onLoop loop hbatched (fun x hx => ?_) hpc, h.phase, h.registered, h.socket, h.called,
    fun hcalls => (h.comes hcalls).imp_left (Or.imp_right fun hin => ?_), fun hin => ?_⟩
  · rw [hfunctors, hpending, ← List.append_assoc] at hx
    rcases List.mem_append.mp hx with hx | hx
    · exact h.framed.functors x hx
    · exact .inl (hl x hx)
  · have hagenda : loop.agenda = (s.threads.loops tid).agenda ++ l.map .functor := by
      unfold EventLoop.agenda EventLoop.activeChannels
      rw [hpc, hfunctors, hpending]
      simp
    show _ ∈ Threads.agenda handlerStmts { s.threads with loops := Function.update s.threads.loops tid loop } tid
    simp only [Threads.agenda, hself, hagenda, List.flatMap_append, ← List.append_assoc]
    exact List.mem_append_left _ hin
  · have hin' : .listen ∈ loop.pendingFunctors := hself ▸ hin
    rw [hpending] at hin'
    have hold : .listen ∈ (s.threads.loops tid).pendingFunctors := by
      refine (List.mem_append.mp hin').resolve_right fun hin => ?_
      cases hl _ hin
    show (∃ active, (Function.update s.threads.loops tid loop tid).pc = .dispatch active) ∨
      0 < (Function.update s.threads.loops tid loop tid).wakeupFd ∨ _
    rw [hself, hpc]
    exact (h.awake hold).imp_right (Or.imp_left fun hpos => Nat.lt_of_lt_of_le hpos hfd)

theorem sound_step (h : s.Sound tid) {l : Label} (hfound : s.FoundByBase tid l) (hs : s.step tid l = .ok s') :
    s'.Sound tid := by
  cases l with
  | loop mv =>
    simp only [step, bind_eq_ok, Result.mapFault_eq_ok, pure_eq_ok, Except.ok.injEq] at hs
    obtain ⟨th, hadv, rfl⟩ := hs
    exact sound_loop h hadv
  | exec t =>
    simp only [step] at hs
    split at hs
    · rename_i x th hp
      refine sound_exec h hp (fun hx => hfound ?_) hs
      rw [(frames_pop hp).1, hx]
      rfl
    · cases hs
  | startLoopReturns t loop =>
    simp only [step] at hs
    split at hs
    · rename_i i th hp
      simp only [pure_eq_ok, Except.ok.injEq] at hs
      exact hs ▸ sound_startLoopReturns h hp loop
    · cases hs
  | ret =>
    simp only [step] at hs
    split at hs
    · rename_i th hp
      simp only [pure_eq_ok, Except.ok.injEq] at hs
      exact hs ▸ sound_ret h hp
    · cases hs
  | start t =>
    simp only [step, bind_eq_ok, enabled_eq_ok, pure_eq_ok, Except.ok.injEq] at hs
    obtain ⟨-, hu, rfl⟩ := hs
    exact sound_start h hu
  | queueInLoop t =>
    simp only [step, bind_eq_ok, pure_eq_ok, Except.ok.injEq] at hs
    obtain ⟨-, -, rfl⟩ := hs
    refine h.onLoop ((s.threads.loops tid).queueInLoop (t = tid) .user) (by simp) (by simp) (l := [.user]) (by simp)
      (by simp) ?_
    unfold EventLoop.queueInLoop EventLoop.wakeupAfterPush
    split
    · exact Nat.le_succ _
    · exact Nat.le_refl _
  | quit t =>
    simp only [step, bind_eq_ok, pure_eq_ok, Except.ok.injEq] at hs
    obtain ⟨-, -, rfl⟩ := hs
    by_cases ht : t = tid
    · have hsound := h.onLoop { s.threads.loops tid with quit := true } rfl rfl (l := []) (by simp) (by simp)
        (Nat.le_refl _)
      simpa only [onLoop, Threads.quit, if_pos ht] using hsound
    · have hsound := h.onLoop ({ s.threads.loops tid with quit := true }.wakeup) rfl rfl (l := [])
        (by simp [EventLoop.wakeup]) (by simp) (Nat.le_succ _)
      simpa only [onLoop, Threads.quit, if_neg ht] using hsound

theorem update_eq_some {a b : Addr} {c d : Channel}
    (h : Function.update (fun _ => none) a (some c) b = some d) : b = a ∧ c = d := by
  by_cases hb : b = a
  · subst hb
    rw [Function.update_self] at h
    exact ⟨rfl, Option.some.inj h⟩
  · rw [Function.update_of_ne hb] at h
    cases h

theorem sound_new (numThreads : Nat) (threadInitCallback : Bool) (acceptChannel : Addr) (sockfd : Int) :
    (new numThreads threadInitCallback acceptChannel sockfd).Sound tid := by
  refine ⟨⟨batched_start, fun t _ x hx => ?_, fun hin => ?_, fun x hx => ?_, fun x hx => ?_, fun _ => rfl⟩,
    .inl ⟨rfl, rfl, rfl, rfl⟩, ?_, fun hlisten => ?_, fun hcalls => ?_, fun hcalls => ?_, fun hin => ?_⟩
  · cases hx
  · cases hin
  · cases hx
  · cases hx
  · -- a new channel in a new poller
    refine Registered.new (fun a c hc => ?_) fun a b c d hc hd _ => ?_
    · obtain ⟨rfl, rfl⟩ := update_eq_some hc
      rfl
    · exact (update_eq_some hc).1.trans (update_eq_some hd).1.symm
  · cases hlisten
  · cases hcalls
  · cases hcalls
  · cases hin

theorem sound_of_reach (h : (serverStart tid).Reach (FoundByBase tid) s) : s.Sound tid :=
  h.invariant (I := Sound tid)
    (fun s h0 => by
      obtain ⟨numThreads, threadInitCallback, acceptChannel, sockfd, rfl⟩ := h0
      exact sound_new numThreads threadInitCallback acceptChannel sockfd)
    fun _ _ _ _ hI hc hs => sound_step hI hc hs

/-! ## The result -/

/-- Every call of `start()` that was made has returned. -/
def Returned (s : ServerStart) : Prop :=
  ∀ t, ∀ x ∈ s.threads.frames t, x = .user ∨ x = .listen ∨ x = .listenSocket

/-- **`start()` does what its header says**: the next step fails no assert, but for those of the base loop's
    own code; the pool is started once, with all its threads; and when the calls have returned, the acceptor
    listens, or the base loop has `listen` to do and is not asleep. -/
structure StartSafe (tid : ThreadId) (s : ServerStart) : Prop where
  noFault : ∀ l f, s.FoundByBase tid l → s.step tid l = .error (.fault f) → ∃ e, f = .loop e
  once : s.poolStarts ≤ 1
  pool : 0 < s.calls → s.Returned → s.poolStarts = 1 ∧ s.threadPool.loops.length = s.threadPool.numThreads
  listens : 0 < s.calls → s.Returned → s.socketListens = true ∨
    ∃ x ∈ s.threads.agenda handlerStmts tid, x = .listen ∨ x = .listenSocket
  awake : 0 < s.calls → s.Returned → (s.threads.loops tid).pc = .polling →
    s.socketListens = true ∨ 0 < (s.threads.loops tid).wakeupFd

/-- No statement fails an assert. -/
theorem Sound.exec_noFault (h : s.Sound tid) (hp : s.threads.pop t = some (x, th)) (f : Fault) :
    { s with threads := th }.run tid t x ≠ .error (.fault f) := by
  intro hf
  have hmem : x ∈ s.threads.frames t := (frames_pop hp).1 ▸ List.mem_cons_self
  cases x with
  | startPool =>
    obtain ⟨rfl, -, hpool, -⟩ := h.base_of_starting hp trivial
    simp only [run, require_of hpool, require_of trivial, ok_bind, pure_eq_ok, reduceCtorEq] at hf
  | listen =>
    have ht : t = tid := by
      by_contra hne
      exact h.framed.others t hne _ hmem
    obtain ⟨p, c, hu, -⟩ := h.enableReading
    simp only [run, require_of ht, ok_bind, hu, Result.mapFault, pure_eq_ok, reduceCtorEq] at hf
  | nextThread i =>
    simp only [run] at hf
    split at hf
    · cases hf
    · split at hf <;> cases hf
  | runListen =>
    simp only [run] at hf
    split at hf <;> cases hf
  | _ => cases hf

theorem Sound.noFault (h : s.Sound tid) {l : Label} {f : Fault} (hf : s.step tid l = .error (.fault f)) :
    ∃ e, f = .loop e := by
  cases l with
  | loop mv =>
    simp only [step, bind_eq_error] at hf
    rcases hf with hf | ⟨th, -, hf⟩
    · obtain ⟨e, -, rfl⟩ := Result.mapFault_eq_fault.mp hf
      exact ⟨e, rfl⟩
    · cases hf
  | exec t =>
    simp only [step] at hf
    split at hf
    · rename_i x th hp
      exact absurd hf (h.exec_noFault hp f)
    · cases hf
  | startLoopReturns t loop =>
    simp only [step] at hf
    split at hf <;> cases hf
  | ret =>
    simp only [step] at hf
    split at hf <;> cases hf
  | start t => simp [step, bind_eq_error, enabled_eq_error] at hf
  | queueInLoop t => simp [step, bind_eq_error, enabled_eq_error] at hf
  | quit t => simp [step, bind_eq_error, enabled_eq_error] at hf

theorem Resting.poolStarts_le (h : s.Resting) : s.poolStarts ≤ 1 := by
  rcases h with ⟨-, -, hzero, -⟩ | ⟨-, -, hone, -⟩
  · rw [hzero]
    exact Nat.zero_le 1
  · exact hone.le

/-- The pool is started once at most. -/
theorem Phase.poolStarts_le {o : Option Stmt} (h : s.Phase o) : s.poolStarts ≤ 1 := by
  rcases o with _ | x
  · exact Resting.poolStarts_le h
  · cases x with
    | setStarted => exact h.2.2.1.le.trans (Nat.zero_le 1)
    | startPool => exact h.2.2.1.le.trans (Nat.zero_le 1)
    | nextThread i => exact h.1.2.2.1.le
    | startLoop i => exact h.1.2.2.1.le
    | _ => exact Resting.poolStarts_le h

/-- After the calls, `listen` has been or is on its way. -/
theorem Sound.listenComes (h : s.Sound tid) (hcalls : 0 < s.calls) (hret : s.Returned) : s.ListenComes tid := by
  refine (h.comes hcalls).resolve_right ?_
  rintro ⟨t, hin | hin⟩
  · simpa using hret t _ hin
  · simpa using hret t _ hin

/-- In `poll` the base loop has nothing to do but what is pending. -/
theorem Framed.pending_of_polling (h : Framed tid th) (hpc : (th.loops tid).pc = .polling)
    (hx : x ∈ th.agenda handlerStmts tid) : x ∈ (th.loops tid).pendingFunctors := by
  have hfunctors : (th.loops tid).functors = [] := h.batched tid (by simp [hpc])
  simpa [Threads.agenda, h.polling hpc, EventLoop.agenda, EventLoop.activeChannels, hpc, hfunctors,
    EventLoop.handlers, stmts] using hx

/-- **`start()` is thread safe and may be repeated**, in every run in which whoever finds `started_` not set is
    the base loop's thread. -/
theorem start_safe (h : (serverStart tid).Reach (FoundByBase tid) s) : s.StartSafe tid := by
  have hs := sound_of_reach h
  refine ⟨fun _ _ _ hf => hs.noFault hf, hs.phase.poolStarts_le, fun hcalls hret => ?_, fun hcalls hret => ?_,
    fun hcalls hret hpc => ?_⟩
  · -- no call is among the pieces that start the pool
    have hrest : s.Resting := by
      refine (phase_iff fun x hx => ?_).mp hs.phase
      rcases hret tid x (List.mem_of_mem_head? hx) with rfl | rfl | rfl <;> exact id
    have hstarted : s.started = true := by
      refine (hs.called hcalls).resolve_right ?_
      rintro ⟨t, hin | hin⟩
      · simpa using hret t _ hin
      · simpa using hret t _ hin
    rcases hrest with ⟨hno, -⟩ | ⟨-, -, hone, hlen⟩
    · rw [hno] at hstarted
      cases hstarted
    · exact ⟨hone, hlen⟩
  · rcases hs.listenComes hcalls hret with hlisten | hin
    · exact (hs.socket hlisten).imp_right fun hin => ⟨_, List.mem_append_left _ hin, .inr rfl⟩
    · exact .inr ⟨_, hin, .inl rfl⟩
  · rcases hs.listenComes hcalls hret with hlisten | hin
    · refine .inl ((hs.socket hlisten).resolve_right fun hin => ?_)
      rw [hs.framed.polling hpc] at hin
      cases hin
    · refine .inr ?_
      rcases hs.awake (hs.framed.pending_of_polling hpc hin) with ⟨active, hactive⟩ | hfd | ⟨t, ht⟩
      · rw [hpc] at hactive
        cases hactive
      · exact hfd
      · simpa using hret t _ ht

/-- The base loop's thread calls first, with two I/O threads to make; another calls while it waits for the
    second of them, and the base loop listens in its own call before it comes to the other's `listen`. -/
theorem start_safe_twice : ∃ s : ServerStart, s.calls = 2 ∧ s.poolStarts = 1 ∧ s.threadPool.loops = [5, 6] ∧
    s.socketListens = true ∧ s.StartSafe 0 := by
  obtain ⟨s, hs, hp⟩ := System.Reach.of_execWhile (S := serverStart 0) (C := FoundByBase 0) (s := new 2 false 100 7)
    (l := [.start 0, .exec 0, .exec 0, .exec 0, .exec 0, .startLoopReturns 0 5, .exec 0, .start 1, .exec 1, .exec 1,
        .exec 1, .exec 1, .startLoopReturns 0 6, .exec 0, .exec 0, .exec 0, .exec 0, .exec 0, .loop .enter, .loop .next,
        .loop (.poll [.wakeupChannel]), .loop .next, .loop .next, .loop .next, .exec 0, .exec 0])
    (p := fun s => decide (s.calls = 2 ∧ s.poolStarts = 1 ∧ s.threadPool.loops = [5, 6] ∧ s.socketListens = true))
    (.init ⟨2, false, 100, 7, rfl⟩) (by decide +kernel)
  rw [decide_eq_true_eq] at hp
  exact ⟨s, hp.1, hp.2.1, hp.2.2.1, hp.2.2.2, start_safe hs⟩

/-- **The first call is made by another thread**: it finds `started_` not set, and the pool's start ends in
    `assertInLoopThread`. -/
theorem start_in_other_thread : ¬ ∀ tid s, (serverStart tid).Reachable s →
    ∀ l f, s.step tid l = .error (.fault f) → ∃ e, f = .loop e := by
  intro hall
  obtain ⟨s, hs, hp⟩ := System.Reach.of_exec (S := serverStart 0) (s := new 0 false 100 7)
    (l := [.start 1, .exec 1, .exec 1])
    (p := fun s => decide (faultOf (s.step 0 (.exec 1)) = some .notInLoopThread))
    (.init ⟨0, false, 100, 7, rfl⟩) (by decide +kernel)
  rw [decide_eq_true_eq] at hp
  obtain ⟨e, he⟩ := hall 0 s hs (.exec 1) .notInLoopThread (faultOf_eq_some.mp hp)
  cases he

/-- The race: the base loop's thread has found `started_` not set and has not set it yet. -/
example : faultOf ((serverStart 0).exec (new 0 false 100 7)
    [.start 0, .exec 0, .start 1, .exec 1, .exec 0, .exec 0, .exec 1, .exec 1]) = some .poolStarted := by
  decide +kernel

end ServerStart

end Irono
