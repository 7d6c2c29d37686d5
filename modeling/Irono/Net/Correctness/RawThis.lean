import Irono.Net.Pointers
import Irono.Net.Correctness.Statements

/-!
# `Net.Correctness.RawThis` — the functors that do not keep the connection alive

`sendInLoop` and `shutdownInLoop` are queued with a raw `this`. Up to the swap of the batch that runs
`connectDestroyed` the server itself holds a pointer, and a functor of that batch or an earlier one runs
before the batch is left. A functor queued later has only the pointers of the users, and its caller may
drop the last of them as soon as the call has returned: `send_after_swap` is such a run.

`functors_alive`: as long as the users keep a pointer while such a functor is to come (`Kept`), none of
them starts on a dead connection.
-/

namespace Irono

open Transition Threads

namespace TcpServer

/-! ## Calls and what they queue -/

/-- The code of a call between its test of `state_` and the end of its hand-over to the loop. -/
def Stmt.inCall : Stmt → Bool
  | .send _ => true
  | .setDisconnecting => true
  | .runShutdownInLoop => true
  | _ => false

/-- What a piece of thread `t` does to the loops: no batch is touched, and only a call in a thread other
    than the I/O thread queues a raw functor. -/
structure HandsOver (cfg : LoopThreads) (t : ThreadId) (inCall : Bool) (th th' : Threads Handler Stmt) :
    Prop where
  pc : ∀ t', (th'.loops t').pc = (th.loops t').pc
  functors : ∀ t', (th'.loops t').functors = (th.loops t').functors
  pending : ∀ t', ∀ x ∈ (th'.loops t').pendingFunctors, x ∈ (th.loops t').pendingFunctors ∨
    x.inCall = false ∧ (x.raw = true → inCall = true ∧ t ≠ cfg.io ∧ t' = cfg.io)

variable {cfg : LoopThreads} {t owner : ThreadId} {inCall : Bool} {stmt : Stmt} {s s' : TcpServer}
variable {th th' th'' : Threads Handler Stmt}

theorem HandsOver.same (h : th'.loops = th.loops) : HandsOver cfg t inCall th th' :=
  ⟨fun t' => by rw [h], fun t' => by rw [h], fun t' x hx => .inl (by rwa [h] at hx)⟩

theorem HandsOver.queueInLoop {x : Stmt} (hcall : x.inCall = false)
    (hraw : x.raw = true → inCall = true ∧ t ≠ cfg.io ∧ owner = cfg.io) :
    HandsOver cfg t inCall th (th.queueInLoop t owner x) := by
  refine ⟨fun t' => ?_, fun t' => ?_, fun t' y hy => ?_⟩ <;> unfold Threads.queueInLoop at * <;>
    by_cases ht : t' = owner
  · subst ht; simp
  · simp [ht]
  · subst ht; simp
  · simp [ht]
  · subst ht
    simp only [Function.update_self, EventLoop.queueInLoop_pendingFunctors, List.mem_append,
      List.mem_singleton] at hy
    rcases hy with hy | rfl
    · exact .inl hy
    · exact .inr ⟨hcall, hraw⟩
  · exact .inl (by simpa [ht] using hy)

theorem HandsOver.runInLoop {x : Stmt} (hcall : x.inCall = false) (hraw : x.raw = false) :
    HandsOver cfg t inCall th (th.runInLoop t owner x) := by
  unfold Threads.runInLoop
  split
  · exact .same rfl
  · exact .queueInLoop hcall (by simp [hraw])

theorem HandsOver.quit : HandsOver cfg t inCall th (th.quit t owner) := by
  have hloop : ∀ t', ((th.quit t owner).loops t').pc = (th.loops t').pc ∧
      ((th.quit t owner).loops t').functors = (th.loops t').functors ∧
      ((th.quit t owner).loops t').pendingFunctors = (th.loops t').pendingFunctors := by
    intro t'
    unfold Threads.quit
    by_cases ht : t' = owner
    · subst ht
      simp only [Function.update_self]
      split <;> exact ⟨rfl, rfl, rfl⟩
    · simp [ht]
  exact ⟨fun t' => (hloop t').1, fun t' => (hloop t').2.1, fun t' x hx => .inl ((hloop t').2.2 ▸ hx)⟩

theorem HandsOver.trans (h : HandsOver cfg t inCall th th') (h' : HandsOver cfg t inCall th' th'') :
    HandsOver cfg t inCall th th'' :=
  ⟨fun t' => (h'.pc t').trans (h.pc t'), fun t' => (h'.functors t').trans (h.functors t'),
    fun t' x hx => (h'.pending t' x hx).elim (h.pending t' x) .inr⟩

theorem sendInLoop_handsOver {message : Message} {w : Option Nat}
    (hs : s.sendInLoop cfg t message w = .ok s') : HandsOver cfg t inCall s.threads s'.threads := by
  obtain ⟨-, conn, wc, -, rfl⟩ := sendInLoop_eq hs
  cases wc with
  | false => exact .same rfl
  | true => exact .queueInLoop rfl (by simp [Stmt.raw])

theorem run_handsOver {w : Option Nat} {r : Option (List Byte)} (hs : s.run cfg t w r stmt = .ok s') :
    HandsOver cfg t stmt.inCall s.threads s'.threads := by
  cases stmt with
  | user => simp [run] at hs
  | acceptLoop => simp [run] at hs
  | runConnectEstablished =>
    simp only [run, pure_eq_ok, Except.ok.injEq] at hs
    subst hs
    exact .runInLoop rfl rfl
  | handleRead revents =>
    obtain ⟨conn, next, callbacks, -, rfl, -⟩ := run_handleRead hs
    exact .same rfl
  | handleWrite =>
    obtain ⟨conn, drained, -, rfl⟩ := run_handleWrite hs
    cases drained with
    | false => exact .same rfl
    | true =>
      cases conn.writeCompleteCallback with
      | false => exact .same rfl
      | true =>
        have hq : HandsOver cfg t Stmt.handleWrite.inCall s.threads (s.threads.queueInLoop t cfg.io .user) :=
          .queueInLoop rfl (by simp [Stmt.raw])
        exact hq.trans (.same rfl)
  | drained =>
    simp only [run] at hs
    split at hs
    · exact .same (by rw [shutdownInLoop_threads hs])
    · simp only [pure_eq_ok, Except.ok.injEq] at hs
      exact .same (by rw [hs])
  | removeConnection =>
    simp only [run, pure_eq_ok, Except.ok.injEq] at hs
    subst hs
    exact .runInLoop rfl rfl
  | removeConnectionInLoop =>
    simp only [run, bind_eq_ok, pure_eq_ok, Except.ok.injEq] at hs
    obtain ⟨-, -, -, -, rfl⟩ := hs
    exact .queueInLoop rfl (by simp [Stmt.raw])
  | send message =>
    simp only [run, bind_eq_ok, pure_eq_ok, Except.ok.injEq] at hs
    obtain ⟨s₁, hs₁, rfl⟩ := hs
    split at hs₁
    · have h₁ : HandsOver cfg t (Stmt.send message).inCall s.threads s₁.threads := sendInLoop_handsOver hs₁
      exact h₁
    · rename_i hne
      simp only [Except.ok.injEq] at hs₁
      subst hs₁
      exact .queueInLoop rfl fun _ => ⟨rfl, hne, rfl⟩
  | sendInLoop message => exact sendInLoop_handsOver hs
  | runShutdownInLoop =>
    simp only [run] at hs
    split at hs
    · exact .same (by rw [shutdownInLoop_threads hs])
    · rename_i hne
      simp only [pure_eq_ok, Except.ok.injEq] at hs
      subst hs
      exact .queueInLoop rfl fun _ => ⟨rfl, hne, rfl⟩
  | shutdownInLoop => exact .same (by rw [shutdownInLoop_threads hs])
  | _ =>
    simp only [run, bind_eq_ok, pure_eq_ok, Except.ok.injEq] at hs
    first
      | (subst hs; exact .same rfl)
      | (obtain ⟨-, -, _, -, rfl⟩ := hs; exact .same rfl)

/-! ### Statements that are neither -/

/-- Handlers start no call and no functor. -/
theorem handler_plain {hd : Handler} {x : Stmt} (hx : x ∈ hd.stmts) :
    x.raw = false ∧ x.inCall = false ∧ x ≠ .connectDestroyed := by
  cases hd with
  | acceptor => rw [List.mem_singleton.mp hx]; simp [Stmt.raw, Stmt.inCall]
  | user => rw [List.mem_singleton.mp hx]; simp [Stmt.raw, Stmt.inCall]
  | connection revents =>
    rcases callbackStmt_cases hx with rfl | rfl | rfl | rfl <;> simp [Stmt.raw, Stmt.inCall]

/-- Nor does a statement that follows another, but for the second half of `shutdown`. -/
theorem Stmt.Begins.plain {x : Stmt} (h : stmt.Begins x) : x.raw = false ∧ x ≠ .connectDestroyed ∧
    (x.inCall = true → stmt = .setDisconnecting) := by
  cases stmt <;> simp only [Stmt.Begins] at h
  case connectDestroyed => rcases h with rfl | rfl <;> simp [Stmt.raw, Stmt.inCall]
  case handleRead => rcases h with rfl | rfl | rfl <;> simp [Stmt.raw, Stmt.inCall]
  all_goals subst h; simp [Stmt.raw, Stmt.inCall]

/-- What is on an agenda has begun, belongs to a handler, or is a functor. -/
theorem mem_agenda {x : Stmt} (hx : x ∈ s.agenda t) :
    x ∈ s.threads.frames t ∨ (∃ hd : Handler, x ∈ hd.stmts) ∨ x ∈ s.threads.functors t := by
  unfold agenda Threads.agenda at hx
  rcases List.mem_append.mp hx with hx | hx
  · exact .inl hx
  obtain ⟨task, htask, hx⟩ := List.mem_flatMap.mp hx
  cases task with
  | handler hd => exact .inr (.inl ⟨hd, hx⟩)
  | functor f =>
    have hf : f ∈ s.threads.functors t := by
      unfold EventLoop.agenda at htask
      rcases List.mem_append.mp htask with hh | hf
      · obtain ⟨a, -, ha⟩ := List.mem_filterMap.mp hh
        cases a <;> simp at ha
      · simpa [Threads.functors] using hf
    rw [List.mem_singleton.mp hx]
    exact .inr (.inr hf)

end TcpServer

namespace Pointers

open TcpServer

/-! ## The condition -/

/-- A raw functor that was queued after the swap of `connectDestroyed` has not run. -/
def Late (cfg : LoopThreads) (s : Pointers) : Prop :=
  s.swapped = true ∧ (∃ x ∈ s.pending cfg.io, x.raw = true) ∨
  s.unwound = true ∧ ∃ x ∈ s.server.threads.frames cfg.io ++ (s.server.threads.loops cfg.io).functors,
    x.raw = true

instance (cfg : LoopThreads) (s : Pointers) : Decidable (s.Late cfg) := inferInstanceAs (Decidable (_ ∨ _))

/-- The last pointer of the users is not dropped while such a functor is to come. -/
def Kept (cfg : LoopThreads) (s : Pointers) : Label → Prop
  | .drop t => s.users.erase t = [] → ¬ s.Late cfg
  | _ => True

instance (cfg : LoopThreads) (s : Pointers) : (l : Label) → Decidable (s.Kept cfg l)
  | .drop t => inferInstanceAs (Decidable (s.users.erase t = [] → _))
  | .server _ => isTrue trivial
  | .copy _ _ => isTrue trivial

/-! ## The invariant -/

/-- What thread `t` has begun, and the functors of its loop. -/
def work (s : Pointers) (t : ThreadId) : List Stmt := s.server.threads.frames t ++ s.server.threads.functors t

/-- **Who keeps the connection alive.** -/
structure Lives (cfg : LoopThreads) (s : Pointers) : Prop where
  server : s.server.Lifecycle cfg
  /-- only the innermost code of a thread can be a call, and the thread has a pointer then -/
  calls : ∀ t x rest, s.server.threads.frames t = x :: rest →
    (∀ y ∈ rest, y.inCall = false) ∧ (x.inCall = true → t ≠ cfg.io → t ∈ s.users)
  queued : ∀ t, ∀ x ∈ s.server.threads.functors t, x.inCall = false
  raw : ∀ t, ∀ x ∈ s.work t, x.raw = true → t = cfg.io
  /-- `connectDestroyed` leaves the pending functors by a swap -/
  begun : .connectDestroyed ∈ s.server.threads.frames cfg.io ++ (s.server.threads.loops cfg.io).functors →
    s.swapped = true
  done : 0 < s.server.history.destroyCalls → s.swapped = true
  left : s.unwound = true → s.swapped = true
  /-- until it is left, the batch keeps its pointer -/
  held : s.swapped = true → s.unwound = false → s.batch cfg.io = true ∧
    ((s.server.threads.loops cfg.io).pc = .functors ∨ (s.server.threads.loops cfg.io).pc = .unwinding)
  kept : s.Late cfg → s.users ≠ []
  buried : s.dead = true → s.users = [] ∧ ∀ x ∈ s.work cfg.io, x.raw = false

variable {cfg : LoopThreads} {s s' : Pointers}

theorem lives_start (self : Addr) (sockfd : Int) : (start self sockfd).Lives cfg := by
  refine ⟨lifecycle_start self sockfd, ?_, ?_, ?_, ?_, ?_, ?_, ?_, ?_, ?_⟩ <;>
    simp [start, TcpServer.start, Threads.start, Threads.functors, EventLoop.new, work, Late, pending]

/-- A raw functor that is to come is not late without a pointer of the users, so something of the server
    points to the connection: `connections_`, the pending `connectDestroyed`, or the batch it is in. -/
theorem Lives.referenced (h : s.Lives cfg) (hc : s.server.created = true) (hu : s.users = []) {x : Stmt}
    (hx : x ∈ s.work cfg.io) (hraw : x.raw = true) : s.referenced cfg = true := by
  have hlate : ¬ s.Late cfg := fun hl => h.kept hl hu
  have hpoint : s.swapped = false → s.referenced cfg = true := by
    intro hsw
    by_cases hin : s.server.inConnections = true
    · simp [Pointers.referenced, hin]
    have hdone : s.server.history.destroyCalls = 0 := by
      by_contra hne
      exact absurd (h.done (Nat.pos_of_ne_zero hne)) (by simp [hsw])
    have hwait : 0 < s.server.waiting .connectDestroyed cfg.io := by
      have hd := h.server.destroys
      rw [hc, hdone, Bool.not_eq_true _ |>.mp hin, Bool.toNat_true, Bool.toNat_false] at hd
      omega
    have hpend : .connectDestroyed ∈ s.pending cfg.io := by
      rcases mem_agenda (mem_of_waiting hwait) with hf | ⟨hd, hh⟩ | hf
      · exact absurd (h.begun (List.mem_append_left _ hf)) (by simp [hsw])
      · exact absurd rfl (handler_plain hh).2.2
      · rcases List.mem_append.mp hf with hf | hf
        · exact absurd (h.begun (List.mem_append_right _ hf)) (by simp [hsw])
        · exact hf
    have hany : (s.pending cfg.io).any Stmt.captures = true := List.any_eq_true.mpr ⟨_, hpend, rfl⟩
    simp [Pointers.referenced, hany]
  by_cases hsw : s.swapped = true
  · -- the functor is not pending, so it is in the batch or an earlier one
    have hun : s.unwound = false := by
      by_contra hun
      refine hlate ?_
      rcases List.mem_append.mp hx with hf | hf
      · exact .inr ⟨by simpa using hun, x, List.mem_append_left _ hf, hraw⟩
      · rcases List.mem_append.mp hf with hf | hf
        · exact .inr ⟨by simpa using hun, x, List.mem_append_right _ hf, hraw⟩
        · exact .inl ⟨hsw, x, hf, hraw⟩
    simp [Pointers.referenced, (h.held hsw hun).1]
  · exact hpoint (by simpa using hsw)

theorem Lives.bury (h : s.Lives cfg) : (s.bury cfg).Lives cfg := by
  refine ⟨h.server, h.calls, h.queued, h.raw, h.begun, h.done, h.left, h.held, h.kept, fun hdead => ?_⟩
  by_cases hd : s.dead = true
  · exact h.buried hd
  have hnow : s.server.created = true ∧ s.referenced cfg = false := by
    simpa [Pointers.bury, hd] using hdead
  have hu : s.users = [] := by
    by_contra hne
    have href : s.referenced cfg = true := by simp [Pointers.referenced, hne]
    exact absurd href (by simp [hnow.2])
  refine ⟨hu, fun x hx => ?_⟩
  by_contra hraw
  have href := h.referenced hnow.1 hu hx (by simpa using hraw)
  exact absurd href (by simp [hnow.2])

/-! ## A piece of a thread -/

theorem follow_frame (a : TcpServer.Label) (v : TcpServer) : (s.follow cfg a v).server = v ∧
    (s.follow cfg a v).users = s.users ∧ (s.follow cfg a v).dead = s.dead := by
  unfold follow
  split
  · split <;> exact ⟨rfl, rfl, rfl⟩
  · exact ⟨rfl, rfl, rfl⟩
  · exact ⟨rfl, rfl, rfl⟩

/-- Only the loops' own code moves batches. -/
theorem follow_piece {a : TcpServer.Label} (ha : ∀ t mv, a ≠ .loop t mv) (v : TcpServer) :
    ∃ completing, s.follow cfg a v = { s with server := v, completing := completing } := by
  unfold follow
  split
  · rename_i t
    exact absurd rfl (ha t .next)
  · exact ⟨_, rfl⟩
  · exact ⟨s.completing, rfl⟩

/-- **A piece of thread `t`**: a call has a pointer of its thread, hence it may queue a raw functor. -/
theorem Lives.piece (h : s.Lives cfg) {v : TcpServer} {t : ThreadId} {inCall : Bool} (completing : Bool)
    (hl : v.Lifecycle cfg) (hq : HandsOver cfg t inCall s.server.threads v.threads)
    (hcall : inCall = true → t ≠ cfg.io → t ∈ s.users)
    (hothers : ∀ t', t' ≠ t → v.threads.frames t' = s.server.threads.frames t')
    (hown : ∀ x ∈ v.threads.frames t, x ∈ s.server.threads.frames t ∨ x.raw = false ∧ x ≠ .connectDestroyed)
    (hcalls : ∀ x rest, v.threads.frames t = x :: rest →
      (∀ y ∈ rest, y.inCall = false) ∧ (x.inCall = true → t ≠ cfg.io → t ∈ s.users))
    (hdone : 0 < v.history.destroyCalls → s.swapped = true) :
    { s with server := v, completing := completing }.Lives cfg := by
  have hframes : ∀ t', ∀ x ∈ v.threads.frames t',
      x ∈ s.server.threads.frames t' ∨ x.raw = false ∧ x ≠ .connectDestroyed := by
    intro t' x hx
    by_cases ht : t' = t
    · subst ht; exact hown x hx
    · exact .inl (hothers t' ht ▸ hx)
  -- a functor was there before, or it is new and no call; a new one that is raw has a caller
  have hfun : ∀ t', ∀ x ∈ v.threads.functors t', x ∈ s.server.threads.functors t' ∨
      x.inCall = false ∧ (x.raw = true → t' = cfg.io ∧ t ∈ s.users) := by
    intro t' x hx
    rcases List.mem_append.mp hx with hx | hx
    · exact .inl (List.mem_append_left _ (hq.functors t' ▸ hx))
    · rcases hq.pending t' x hx with hx | ⟨hno, hraw⟩
      · exact .inl (List.mem_append_right _ hx)
      · exact .inr ⟨hno, fun hr => ⟨(hraw hr).2.2, hcall (hraw hr).1 (hraw hr).2.1⟩⟩
  have hwork : ∀ t', ∀ x ∈ v.threads.frames t' ++ v.threads.functors t', x.raw = true →
      x ∈ s.work t' ∨ t' = cfg.io ∧ t ∈ s.users := by
    intro t' x hx hraw
    rcases List.mem_append.mp hx with hx | hx
    · rcases hframes t' x hx with hx | ⟨hno, -⟩
      · exact .inl (List.mem_append_left _ hx)
      · exact absurd hraw (by simp [hno])
    · rcases hfun t' x hx with hx | ⟨-, hr⟩
      · exact .inl (List.mem_append_right _ hx)
      · exact .inr (hr hraw)
  refine ⟨hl, fun t' x rest hx => ?_, fun t' x hx => ?_, fun t' x hx hraw => ?_, fun hx => ?_, hdone, h.left,
    fun hsw hun => ?_, ?_, fun hdead => ?_⟩
  · by_cases ht : t' = t
    · subst ht; exact hcalls x rest hx
    · exact h.calls t' x rest (hothers t' ht ▸ hx)
  · exact (hfun t' x hx).elim (h.queued t' x) And.left
  · exact (hwork t' x hx hraw).elim (fun hx => h.raw t' x hx hraw) And.left
  · rcases List.mem_append.mp hx with hx | hx
    · rcases hframes cfg.io _ hx with hx | ⟨-, hno⟩
      · exact h.begun (List.mem_append_left _ hx)
      · exact absurd rfl hno
    · exact h.begun (List.mem_append_right _ (hq.functors cfg.io ▸ hx))
  · have hpc := hq.pc cfg.io
    exact ⟨(h.held hsw hun).1, by rw [hpc]; exact (h.held hsw hun).2⟩
  · rintro (⟨hsw, x, hx, hraw⟩ | ⟨hun, x, hx, hraw⟩)
    · rcases hq.pending cfg.io x hx with hx | ⟨-, hr⟩
      · exact h.kept (.inl ⟨hsw, x, hx, hraw⟩)
      · exact List.ne_nil_of_mem (hcall (hr hraw).1 (hr hraw).2.1)
    · refine h.kept (.inr ⟨hun, x, ?_, hraw⟩)
      rcases List.mem_append.mp hx with hx | hx
      · rcases hframes cfg.io x hx with hx | ⟨hno, -⟩
        · exact List.mem_append_left _ hx
        · exact absurd hraw (by simp [hno])
      · exact List.mem_append_right _ (hq.functors cfg.io ▸ hx)
  · obtain ⟨hu, hraw⟩ := h.buried hdead
    refine ⟨hu, fun x hx => ?_⟩
    by_contra hr
    rcases hwork cfg.io x hx (by simpa using hr) with hx | ⟨-, hin⟩
    · exact hr (hraw x hx)
    · exact absurd hin (by simp [hu])

/-- A statement. -/
theorem Lives.exec (h : s.Lives cfg) {t : ThreadId} {stmt : Stmt} {th : Threads Handler Stmt} {v : TcpServer}
    {w : Option Nat} {r : Option (List Byte)} (completing : Bool)
    (hp : s.server.threads.pop t = some (stmt, th)) (hs : { s.server with threads := th }.run cfg t w r stmt = .ok v)
    (hl : v.Lifecycle cfg) : { s with server := v, completing := completing }.Lives cfg := by
  obtain ⟨hhead, hrest⟩ := frames_pop hp
  obtain ⟨htail, hcall⟩ := h.calls t stmt _ hhead
  obtain ⟨front, back, hg, hfront, -⟩ := run_growsBy hs
  have hfr : v.threads.frames t = front ++ th.frames t := by rw [hg.frames t, if_pos rfl]
  have hq : HandsOver cfg t stmt.inCall s.server.threads v.threads :=
    HandsOver.trans (.same (loops_pop hp)) (run_handsOver hs)
  refine h.piece completing hl hq hcall (fun t' ht => ?_) (fun x hx => ?_) (fun x rest hx => ?_) (fun hpos => ?_)
  · rw [hg.frames t', if_neg ht, List.nil_append]
    exact hrest t' ht
  · rw [hfr] at hx
    rcases List.mem_append.mp hx with hx | hx
    · exact .inr ⟨(hfront x hx).plain.1, (hfront x hx).plain.2.1⟩
    · exact .inl (by rw [hhead]; exact List.mem_cons_of_mem _ hx)
  · by_cases hset : stmt = .setDisconnecting
    · -- `shutdown` goes on, so the thread still has its pointer
      subst hset
      simp only [run, pure_eq_ok, Except.ok.injEq] at hs
      have hone : front = [.runShutdownInLoop] := hg.front_of_push (by rw [← hs])
      rw [hfr, hone] at hx
      obtain ⟨rfl, rfl⟩ := List.cons.inj hx
      exact ⟨htail, fun _ => hcall rfl⟩
    · have hno : ∀ y ∈ v.threads.frames t, y.inCall = false := by
        intro y hy
        rw [hfr] at hy
        rcases List.mem_append.mp hy with hy | hy
        · by_contra hin
          exact hset ((hfront y hy).plain.2.2 (by simpa using hin))
        · exact htail y hy
      rw [hx] at hno
      refine ⟨fun y hy => hno y (List.mem_cons_of_mem _ hy), fun hin => ?_⟩
      exact absurd hin (by simp [hno x List.mem_cons_self])
  · have hcounts := run_counts (s := { s.server with threads := th }) h.server.intact.valid hs
    rw [hcounts.2.1] at hpos
    by_cases hst : stmt = .connectDestroyed
    · subst hst
      simp only [run, bind_eq_ok, require_eq_ok] at hs
      obtain ⟨-, rfl, -⟩ := hs
      exact h.begun (List.mem_append_left _ (by rw [hhead]; exact List.mem_cons_self))
    · exact h.done (by simpa [hst] using hpos)

/-- What a piece of a loop's own code does to the batches of the I/O loop. -/
theorem follow_loop (hb : s.server.threads.Batched) {t : ThreadId} {mv : EventLoop.Move Handler}
    {th : Threads Handler Stmt} (hadv : s.server.threads.advance Handler.stmts t mv = .ok th)
    (hs' : s.follow cfg (.loop t mv) { s.server with threads := th } = s') :
    -- the swap
    (s'.swapped = (s.swapped || (s.pending cfg.io).any (· == .connectDestroyed)) ∧ s'.unwound = s.unwound ∧
      s'.batch cfg.io = ((s.pending cfg.io).any Stmt.captures || s.completing) ∧
      (s.server.threads.loops cfg.io).pc = .dispatch [] ∧ (th.loops cfg.io).pc = .functors ∧
      th.frames cfg.io = [] ∧ (th.loops cfg.io).functors = s.pending cfg.io ∧
      (th.loops cfg.io).pendingFunctors = []) ∨
    -- the end of a batch
    (s'.swapped = s.swapped ∧ s'.unwound = (s.unwound || s.swapped) ∧
      th.frames cfg.io = [] ∧ (th.loops cfg.io).functors = [] ∧
      (th.loops cfg.io).pendingFunctors = s.pending cfg.io) ∨
    (s'.swapped = s.swapped ∧ s'.unwound = s.unwound ∧ s'.batch cfg.io = s.batch cfg.io ∧
      ((s.server.threads.loops cfg.io).pc = .functors ∨ (s.server.threads.loops cfg.io).pc = .unwinding →
        (th.loops cfg.io).pc = .functors ∨ (th.loops cfg.io).pc = .unwinding) ∧
      (∀ x ∈ th.frames cfg.io ++ (th.loops cfg.io).functors,
        x ∈ s.server.threads.frames cfg.io ++ (s.server.threads.loops cfg.io).functors ∨
          ∃ hd : Handler, x ∈ hd.stmts) ∧
      (th.loops cfg.io).pendingFunctors = s.pending cfg.io) := by
  subst hs'
  obtain ⟨hothers, hown⟩ := batch_advance hb hadv
  by_cases ht : t = cfg.io
  · subst ht
    rcases hown with ⟨rfl, hpc, hrest⟩ | ⟨rfl, hpc, hrest⟩ | ⟨hpc, hpc', hgo, hsub, hpend⟩
    · refine .inl ?_
      simp only [follow, hpc, Function.update_self, beq_self_eq_true, Bool.true_and, true_and]
      exact hrest
    · refine .inr (.inl ?_)
      simp only [follow, hpc, beq_self_eq_true, Bool.true_and, true_and]
      exact hrest
    · have hfol : s.follow cfg (.loop cfg.io mv) { s.server with threads := th } =
          { s with server := { s.server with threads := th } } := by
        cases mv with
        | enter => rfl
        | poll active => rfl
        | next => simp only [follow]
      rw [hfol]
      refine .inr (.inr ⟨rfl, rfl, rfl, fun hp => hgo (hp.resolve_right hpc'), fun x hx => ?_, hpend⟩)
      exact (hsub x hx).imp_left fun hx => List.mem_append_right _ hx
  · obtain ⟨hfr, hlo⟩ := hothers cfg.io (Ne.symm ht)
    have hfol : (s.follow cfg (.loop t mv) { s.server with threads := th }).swapped = s.swapped ∧
        (s.follow cfg (.loop t mv) { s.server with threads := th }).unwound = s.unwound ∧
        (s.follow cfg (.loop t mv) { s.server with threads := th }).batch cfg.io = s.batch cfg.io := by
      cases mv with
      | enter => exact ⟨rfl, rfl, rfl⟩
      | poll active => exact ⟨rfl, rfl, rfl⟩
      | next =>
        simp only [follow]
        split <;> simp [ht, Ne.symm ht]
    rw [hlo, hfr]
    exact .inr (.inr ⟨hfol.1, hfol.2.1, hfol.2.2, id, fun x hx => .inl hx, rfl⟩)

/-- What a thread begins in its loop was a functor before, or belongs to a handler. -/
theorem functor_or_handler (hb : s.server.threads.Batched) {t : ThreadId} {mv : EventLoop.Move Handler}
    {th : Threads Handler Stmt} (hadv : s.server.threads.advance Handler.stmts t mv = .ok th) {x : Stmt}
    (hx : x ∈ th.frames t) : x ∈ s.server.threads.functors t ∨ ∃ hd : Handler, x ∈ hd.stmts := by
  obtain ⟨-, hown⟩ := batch_advance hb hadv
  rcases hown with ⟨-, -, -, hnil, -⟩ | ⟨-, -, hnil, -⟩ | ⟨-, -, -, hsub, -⟩
  · rw [hnil] at hx; cases hx
  · rw [hnil] at hx; cases hx
  · exact (hsub x (List.mem_append_left _ hx)).imp_left fun hx => List.mem_append_left _ hx

/-- What has a raw `this` was there before. -/
theorem mem_work_of_raw (hb : s.server.threads.Batched) {t : ThreadId} {mv : EventLoop.Move Handler}
    {th : Threads Handler Stmt} (hadv : s.server.threads.advance Handler.stmts t mv = .ok th) {t' : ThreadId}
    {x : Stmt} (hx : x ∈ th.frames t' ++ th.functors t') (hraw : x.raw = true) : x ∈ s.work t' := by
  rcases List.mem_append.mp hx with hx | hx
  · by_cases ht : t' = t
    · subst ht
      rcases functor_or_handler hb hadv hx with hx | ⟨hd, hx⟩
      · exact List.mem_append_right _ hx
      · exact absurd hraw (by simp [(handler_plain hx).1])
    · exact List.mem_append_left _ (((batch_advance hb hadv).1 t' ht).1 ▸ hx)
  · exact List.mem_append_right _ (functors_advance hb hadv hx)

/-- **A piece of a loop's own code.** -/
theorem Lives.loop (h : s.Lives cfg) {t : ThreadId} {mv : EventLoop.Move Handler} {th : Threads Handler Stmt}
    (hadv : s.server.threads.advance Handler.stmts t mv = .ok th)
    (hl : { s.server with threads := th }.Lifecycle cfg) :
    (s.follow cfg (.loop t mv) { s.server with threads := th }).Lives cfg := by
  have hb := h.server.batched
  have hothers := (batch_advance hb hadv).1
  have hcalm : ∀ x ∈ th.frames t, x.inCall = false := by
    intro x hx
    rcases functor_or_handler hb hadv hx with hx | ⟨hd, hx⟩
    · exact h.queued t x hx
    · exact (handler_plain hx).2.1
  obtain ⟨hsv, hus, hde⟩ := @follow_frame cfg s (.loop t mv) { s.server with threads := th }
  have hio := @follow_loop cfg s _ hb t mv th hadv rfl
  generalize s.follow cfg (.loop t mv) { s.server with threads := th } = s' at hsv hus hde hio ⊢
  have hth : s'.server.threads = th := by rw [hsv]
  have hhist : s'.server.history = s.server.history := by rw [hsv]
  -- `hio` tells the swap, the end of a batch and everything else apart
  refine ⟨hsv ▸ hl, fun t' x rest hx => ?_, fun t' x hx => ?_, fun t' x hx hraw => ?_, fun hx => ?_,
    fun hpos => ?_, fun hun => ?_, fun hsw hun => ?_, fun hlate => ?_, fun hdead => ?_⟩
  · rw [hth] at hx
    by_cases ht : t' = t
    · subst ht
      refine ⟨fun y hy => hcalm y (by rw [hx]; exact List.mem_cons_of_mem _ hy), fun hin => ?_⟩
      exact absurd hin (by simp [hcalm x (by rw [hx]; exact List.mem_cons_self)])
    · rw [hus]
      exact h.calls t' x rest ((hothers t' ht).1 ▸ hx)
  · rw [hth] at hx
    exact h.queued t' x (functors_advance hb hadv hx)
  · rw [work, hth] at hx
    exact h.raw t' x (mem_work_of_raw hb hadv hx hraw) hraw
  · rw [hth] at hx
    rcases hio with ⟨hsw, -, -, -, -, hfr, hfun, -⟩ | ⟨-, -, hfr, hfun, -⟩ | ⟨hsw, -, -, -, hsub, -⟩
    · -- the swap takes it out of the pending functors
      rw [hfr, hfun, List.nil_append] at hx
      have hany : (s.pending cfg.io).any (· == .connectDestroyed) = true :=
        List.any_eq_true.mpr ⟨_, hx, by simp⟩
      rw [hsw, hany, Bool.or_true]
    · rw [hfr, hfun] at hx
      exact absurd hx List.not_mem_nil
    · rw [hsw]
      rcases hsub _ hx with hx | ⟨hd, hx⟩
      · exact h.begun hx
      · exact absurd rfl (handler_plain hx).2.2
  · rw [hhist] at hpos
    have hsw := h.done hpos
    rcases hio with ⟨hsw', -⟩ | ⟨hsw', -⟩ | ⟨hsw', -⟩ <;> simp [hsw', hsw]
  · rcases hio with ⟨hsw', hun', -⟩ | ⟨hsw', hun', -⟩ | ⟨hsw', hun', -⟩
    · simp [hsw', h.left (hun' ▸ hun)]
    · rw [hsw']
      rw [hun', Bool.or_eq_true] at hun
      exact hun.elim h.left id
    · exact hsw' ▸ h.left (hun' ▸ hun)
  · rw [hth]
    rcases hio with ⟨hsw', hun', hba, hpc, hpc', -⟩ | ⟨hsw', hun', -⟩ | ⟨hsw', hun', hba, hgo, -⟩
    · refine ⟨?_, .inl hpc'⟩
      have hnot : s.swapped = false := by
        by_contra hs
        rcases (h.held (by simpa using hs) (hun' ▸ hun)).2 with hp | hp <;> simp [hp] at hpc
      rw [hsw', hnot, Bool.false_or, List.any_eq_true] at hsw
      obtain ⟨x, hx, heq⟩ := hsw
      rw [beq_iff_eq] at heq
      subst heq
      rw [hba, List.any_eq_true.mpr ⟨_, hx, rfl⟩, Bool.true_or]
    · rw [hun', ← hsw', hsw, Bool.or_true] at hun
      cases hun
    · obtain ⟨hb', hpc⟩ := h.held (hsw' ▸ hsw) (hun' ▸ hun)
      exact ⟨hba ▸ hb', hgo hpc⟩
  · rw [hus]
    unfold Late pending at hlate
    rw [hth] at hlate
    rcases hio with ⟨hsw', hun', -, -, -, hfr, hfun, hpend⟩ | ⟨hsw', hun', hfr, hfun, hpend⟩ |
      ⟨hsw', hun', -, -, hsub, hpend⟩
    · rw [hpend, hfr, hfun] at hlate
      rcases hlate with ⟨-, x, hx, -⟩ | ⟨hun, x, hx, hraw⟩
      · exact absurd hx List.not_mem_nil
      · -- it was pending after the earlier swap of `connectDestroyed`
        exact h.kept (.inl ⟨h.left (hun' ▸ hun), x, hx, hraw⟩)
    · rw [hpend, hfr, hfun] at hlate
      rcases hlate with ⟨hsw, hx⟩ | ⟨-, x, hx, -⟩
      · exact h.kept (.inl ⟨hsw' ▸ hsw, hx⟩)
      · exact absurd hx List.not_mem_nil
    · rw [hpend] at hlate
      rcases hlate with ⟨hsw, hx⟩ | ⟨hun, x, hx, hraw⟩
      · exact h.kept (.inl ⟨hsw' ▸ hsw, hx⟩)
      · rcases hsub x hx with hx | ⟨hd, hx⟩
        · exact h.kept (.inr ⟨hun' ▸ hun, x, hx, hraw⟩)
        · exact absurd hraw (by simp [(handler_plain hx).1])
  · obtain ⟨hu, hraw⟩ := h.buried (hde ▸ hdead)
    refine ⟨hus ▸ hu, fun x hx => ?_⟩
    by_contra hr
    rw [work, hth] at hx
    exact hr (hraw x (mem_work_of_raw hb hadv hx (by simpa using hr)))

/-! ## The steps -/

theorem Lives.calm (h : s.Lives cfg) {t : ThreadId}
    (hhead : ∀ x, (s.server.threads.frames t).head? = some x → x.inCall = false) :
    ∀ x ∈ s.server.threads.frames t, x.inCall = false := by
  intro x hx
  cases hf : s.server.threads.frames t with
  | nil => rw [hf] at hx; cases hx
  | cons y rest =>
    rw [hf] at hx hhead
    rcases List.mem_cons.mp hx with rfl | hx
    · exact hhead _ rfl
    · exact (h.calls t y rest hf).1 x hx

/-- User code is not in the middle of a call. -/
theorem Lives.calm_of_userCode (h : s.Lives cfg) {t : ThreadId} (hu : s.server.userCode cfg t = true) :
    ∀ x ∈ s.server.threads.frames t, x.inCall = false := by
  refine h.calm fun x hx => ?_
  unfold userCode at hu
  split at hu
  · rename_i hf
    rw [hf] at hx
    cases hx
    rfl
  · rename_i hf
    rw [hf] at hx
    cases hx
  · cases hu

/-- Thread `t`, in no call, begins code of the server or a call it has a pointer for. -/
theorem Lives.begins (h : s.Lives cfg) {v : TcpServer} {t : ThreadId} {x : Stmt} {l : List Stmt}
    (hl : v.Lifecycle cfg) (hth : v.threads = s.server.threads.push t (x :: l))
    (hhist : v.history.destroyCalls = s.server.history.destroyCalls)
    (hcalm : ∀ y ∈ s.server.threads.frames t, y.inCall = false)
    (hx : x.inCall = true → t ≠ cfg.io → t ∈ s.users) (hno : ∀ y ∈ l, y.inCall = false)
    (hplain : ∀ y ∈ x :: l, y.raw = false ∧ y ≠ .connectDestroyed) (completing : Bool) :
    { s with server := v, completing := completing }.Lives cfg := by
  have hfr : v.threads.frames t = x :: (l ++ s.server.threads.frames t) := by simp [hth, Threads.push]
  have hq : HandsOver cfg t false s.server.threads v.threads := .same (by rw [hth]; rfl)
  refine h.piece completing hl hq (by simp)
    (fun t' ht => by simp [hth, Threads.push, ht]) (fun y hy => ?_) (fun y rest hy => ?_) (hhist ▸ h.done)
  · rw [hfr, ← List.cons_append] at hy
    exact (List.mem_append.mp hy).elim (fun hy => .inr (hplain y hy)) .inl
  · rw [hfr] at hy
    obtain ⟨rfl, rfl⟩ := List.cons.inj hy
    exact ⟨fun y hy => (List.mem_append.mp hy).elim (hno y) (hcalm y), hx⟩

/-- No thread begins or ends anything. -/
theorem Lives.stays (h : s.Lives cfg) {v : TcpServer} {t : ThreadId} (hl : v.Lifecycle cfg)
    (hq : HandsOver cfg t false s.server.threads v.threads)
    (hfr : v.threads.frames = s.server.threads.frames)
    (hhist : v.history.destroyCalls = s.server.history.destroyCalls) (completing : Bool) :
    { s with server := v, completing := completing }.Lives cfg := by
  refine h.piece completing hl hq (by simp) (fun t' _ => by rw [hfr]) (fun x hx => .inl (hfr ▸ hx)) ?_ (hhist ▸ h.done)
  rw [hfr]
  exact h.calls t

theorem Lives.server_step (h : s.Lives cfg) {a : TcpServer.Label} (ha : s.Entitled cfg a) {v : TcpServer}
    (hs : s.server.step cfg a = .ok v) : (s.follow cfg a v).Lives cfg := by
  have hl := lifecycle_step h.server hs
  by_cases hloop : ∃ t mv, a = .loop t mv
  · obtain ⟨t, mv, rfl⟩ := hloop
    simp only [TcpServer.step, bind_eq_ok, enabled_eq_ok, Result.mapFault_eq_ok, pure_eq_ok, Except.ok.injEq] at hs
    obtain ⟨-, -, th, hadv, rfl⟩ := hs
    exact h.loop hadv hl
  obtain ⟨completing, hfol⟩ := @follow_piece cfg s _ (fun t mv heq => hloop ⟨t, mv, heq⟩) v
  rw [hfol]
  cases a with
  | loop t mv => exact absurd ⟨t, mv, rfl⟩ hloop
  | exec t w r =>
    simp only [TcpServer.step] at hs
    split at hs
    · rename_i stmt th hp
      exact h.exec completing hp hs hl
    · cases hs
  | ret t =>
    have hret : ∃ x th, s.server.threads.pop t = some (x, th) ∧ v = { s.server with threads := th } := by
      simp only [TcpServer.step] at hs
      split at hs
      · rename_i th hp
        simp only [pure_eq_ok, Except.ok.injEq] at hs
        exact ⟨_, th, hp, hs.symm⟩
      · rename_i th hp
        simp only [pure_eq_ok, Except.ok.injEq] at hs
        exact ⟨_, th, hp, hs.symm⟩
      · cases hs
    obtain ⟨x, th, hp, rfl⟩ := hret
    obtain ⟨hhead, hrest⟩ := frames_pop hp
    have htail := (h.calls t x _ hhead).1
    have hq : HandsOver cfg t false s.server.threads th := .same (loops_pop hp)
    refine h.piece completing hl hq (by simp) hrest
      (fun y hy => .inl ?_) (fun y rest hy => ?_) h.done
    · rw [hhead]
      exact List.mem_cons_of_mem _ hy
    · have hy' : th.frames t = y :: rest := hy
      rw [hy'] at htail
      refine ⟨fun z hz => htail z (List.mem_cons_of_mem _ hz), fun hin => ?_⟩
      exact absurd hin (by simp [htail y List.mem_cons_self])
  | newConnection wc =>
    simp only [TcpServer.step, bind_eq_ok, enabled_eq_ok, pure_eq_ok, Except.ok.injEq] at hs
    obtain ⟨-, ⟨hhead, -⟩, rfl⟩ := hs
    refine h.begins hl rfl rfl (h.calm fun x hx => ?_) (by simp [Stmt.inCall]) (by simp [Stmt.inCall])
      (by simp [Stmt.raw]) completing
    rw [hhead] at hx
    cases hx
    rfl
  | send t bytes =>
    have hhas : t ≠ cfg.io → t ∈ s.users := fun ht => ha.elim id fun hio => absurd hio.1 ht
    simp only [TcpServer.step, bind_eq_ok, enabled_eq_ok] at hs
    obtain ⟨-, ⟨hu, -⟩, hs⟩ := hs
    split at hs <;> simp only [pure_eq_ok, Except.ok.injEq] at hs <;> subst hs
    · exact h.begins hl rfl rfl (h.calm_of_userCode hu) (fun _ => hhas) (by simp) (by simp [Stmt.raw]) completing
    · exact h.stays (t := t) hl (.same rfl) rfl rfl completing
  | shutdown t =>
    have hhas : t ≠ cfg.io → t ∈ s.users := fun ht => ha.elim id fun hio => absurd hio.1 ht
    simp only [TcpServer.step, bind_eq_ok, enabled_eq_ok] at hs
    obtain ⟨-, ⟨hu, -⟩, hs⟩ := hs
    split at hs <;> simp only [pure_eq_ok, Except.ok.injEq] at hs <;> subst hs
    · exact h.begins hl rfl rfl (h.calm_of_userCode hu) (fun _ => hhas) (by simp) (by simp [Stmt.raw]) completing
    · exact h.stays (t := t) hl (.same rfl) rfl rfl completing
  | retrieve len =>
    simp only [TcpServer.step, bind_eq_ok, pure_eq_ok, Except.ok.injEq] at hs
    obtain ⟨-, -, b, -, rfl⟩ := hs
    exact h.stays (t := cfg.io) hl (.same rfl) rfl rfl completing
  | queueInLoop t owner =>
    simp only [TcpServer.step, bind_eq_ok, pure_eq_ok, Except.ok.injEq] at hs
    obtain ⟨-, -, rfl⟩ := hs
    exact h.stays (t := t) hl (.queueInLoop rfl (by simp [Stmt.raw])) rfl rfl completing
  | quit t owner =>
    simp only [TcpServer.step, bind_eq_ok, pure_eq_ok, Except.ok.injEq] at hs
    obtain ⟨-, -, rfl⟩ := hs
    exact h.stays (t := t) hl .quit rfl rfl completing

/-- A copy of a pointer. -/
theorem Lives.copy (h : s.Lives cfg) {t : ThreadId} (ht : s.Has cfg t) (t' : ThreadId) :
    { s with users := t' :: s.users }.Lives cfg := by
  refine ⟨h.server, fun t₁ x rest hx => ?_, h.queued, h.raw, h.begun, h.done, h.left, h.held,
    fun _ => List.cons_ne_nil _ _, fun hdead => ?_⟩
  · exact (h.calls t₁ x rest hx).imp_right fun hcall hin hne => List.mem_cons_of_mem _ (hcall hin hne)
  · -- nobody has a pointer to a dead connection
    have hd : s.dead = true := hdead
    rcases ht with ht | ⟨-, -, hlive⟩
    · rw [(h.buried hd).1] at ht
      cases ht
    · rw [hd] at hlive
      cases hlive

/-- The end of a pointer. -/
theorem Lives.drop (h : s.Lives cfg) {t : ThreadId} (hu : s.server.userCode cfg t = true)
    (hkept : s.users.erase t = [] → ¬ s.Late cfg) : { s with users := s.users.erase t }.Lives cfg := by
  refine ⟨h.server, fun t' x rest hx => ?_, h.queued, h.raw, h.begun, h.done, h.left, h.held,
    fun hlate hnil => hkept hnil hlate, fun hdead => ?_⟩
  · obtain ⟨hrest, hcall⟩ := h.calls t' x rest hx
    refine ⟨hrest, fun hin hne => ?_⟩
    have ht : t' ≠ t := by
      rintro rfl
      have hx' : s.server.threads.frames t' = x :: rest := hx
      exact absurd hin (by simp [h.calm_of_userCode hu x (by rw [hx']; exact List.mem_cons_self)])
    exact (List.mem_erase_of_ne ht).mpr (hcall hin hne)
  · obtain ⟨hnil, hraw⟩ := h.buried hdead
    exact ⟨by rw [hnil]; rfl, hraw⟩

theorem lives_step {l : Label} (h : s.Lives cfg) (hk : s.Kept cfg l) (hs : s.step cfg l = .ok s') :
    s'.Lives cfg := by
  cases l with
  | server a =>
    simp only [step, bind_eq_ok, enabled_eq_ok, Result.mapFault_eq_ok, pure_eq_ok, Except.ok.injEq] at hs
    obtain ⟨-, ha, -, -, v, hv, rfl⟩ := hs
    exact (h.server_step ha hv).bury
  | copy t t' =>
    simp only [step, bind_eq_ok, enabled_eq_ok, pure_eq_ok, Except.ok.injEq] at hs
    obtain ⟨-, ⟨-, -, ht⟩, rfl⟩ := hs
    exact h.copy ht t'
  | drop t =>
    simp only [step, bind_eq_ok, enabled_eq_ok, pure_eq_ok, Except.ok.injEq] at hs
    obtain ⟨-, ⟨hu, -⟩, rfl⟩ := hs
    exact (h.drop hu hk).bury

theorem lives_of_reach (h : (pointers cfg).Reach (Kept cfg) s) : s.Lives cfg :=
  h.invariant (I := Lives cfg)
    (fun s h0 => by obtain ⟨self, sockfd, rfl⟩ := h0; exact lives_start self sockfd)
    (fun _ _ _ _ hI hk hs => lives_step hI hk hs)

/-- **No raw functor starts on a dead connection**, if the users keep a pointer while one is to come that
    was queued after the swap. -/
theorem functors_alive (h : (pointers cfg).Reach (Kept cfg) s) (l : Label) :
    s.step cfg l ≠ .error (.fault .danglingThis) := by
  have hI := lives_of_reach h
  intro hs
  cases l with
  | copy t t' => simp [step, bind_eq_error, enabled_eq_error] at hs
  | drop t => simp [step, bind_eq_error, enabled_eq_error] at hs
  | server a =>
    simp only [step, bind_eq_error, enabled_eq_error, require_eq_error, enabled_eq_ok, require_eq_ok] at hs
    rcases hs with ⟨-, hs⟩ | ⟨-, -, ⟨hstart, -⟩ | ⟨-, -, hs | ⟨v, -, hs⟩⟩⟩
    · cases hs
    · rw [Classical.not_imp] at hstart
      obtain ⟨hraw, hdead⟩ := hstart
      obtain ⟨hu, hno⟩ := hI.buried (by simpa using hdead)
      cases a with
      | exec t w r =>
        simp only [startsRaw, Option.any_eq_true] at hraw
        obtain ⟨x, hx, hraw⟩ := hraw
        have hin : x ∈ s.work t := List.mem_append_left _ (List.mem_of_mem_head? hx)
        have ht : t = cfg.io := hI.raw t x hin hraw
        exact absurd hraw (by simp [hno x (ht ▸ hin)])
      | _ => cases hraw
    · obtain ⟨e, -, he⟩ := Result.mapFault_eq_fault.mp hs
      cases he
    · cases hs

/-! ## Runs -/

/-- The steps of the server alone. -/
def steps (l : List TcpServer.Label) : List Label := l.map .server

/-- The user of thread 2 gets a pointer, the peer closes, and the I/O loop 1 swaps in `connectDestroyed`. -/
def destroying : List Label :=
  steps ([TcpServer.Label.loop 0 .enter] ++ polls 0 [.channel .acceptor] ++
    [TcpServer.Label.newConnection false, .exec 0 none none, .exec 0 none none, .ret 0] ++
    [TcpServer.Label.loop 1 .enter] ++ polls 1 [.wakeupChannel] ++ swaps 1 ++ [TcpServer.Label.exec 1 none none]) ++
  [Label.copy 1 2] ++
  steps ([TcpServer.Label.ret 1] ++ unwinds 1 ++ polls 1 [.channel (.connection {.POLLIN})] ++
    [TcpServer.Label.exec 1 none (some []), .exec 1 none none, .exec 1 none none] ++ swaps 0 ++
    [TcpServer.Label.exec 0 none none] ++ unwinds 0 ++ [TcpServer.Label.loop 1 .next])

/-- The I/O loop runs `connectDestroyed`, leaves the batch, and begins the next one. -/
def nextBatch : List Label :=
  steps ([TcpServer.Label.loop 1 .next, .exec 1 none none, .ret 1, .exec 1 none none] ++ unwinds 1 ++
    polls 1 [.wakeupChannel] ++ swaps 1)

/-- The functor of the send is started while thread 2 still has its pointer. -/
theorem functors_alive_sample : ∃ s, (pointers ⟨0, 1⟩).Reach (Kept ⟨0, 1⟩) s ∧
    s.startsRaw (.exec 1 none none) = true ∧ s.unwound = true ∧
    s.step ⟨0, 1⟩ (.server (.exec 1 none none)) ≠ .error (.fault .danglingThis) := by
  obtain ⟨s, hs, hp⟩ := System.Reach.of_execWhile (S := pointers ⟨0, 1⟩) (C := Kept ⟨0, 1⟩) (s := start 100 7)
    (l := destroying ++ [Label.server (.send 2 [1]), .server (.exec 2 none none)] ++ nextBatch)
    (p := fun s => s.startsRaw (.exec 1 none none) && s.unwound)
    (.init ⟨100, 7, rfl⟩) (by decide +kernel)
  simp only [Bool.and_eq_true] at hp
  exact ⟨s, hs, hp.1, hp.2, functors_alive hs _⟩

/-- **A send after the swap**: thread 2 sends once the I/O loop has taken `connectDestroyed`, and drops
    its pointer; the functor of the next batch finds the connection dead. -/
theorem send_after_swap : ∃ s, (pointers ⟨0, 1⟩).Reachable s ∧
    ∃ l, s.step ⟨0, 1⟩ l = .error (.fault .danglingThis) := by
  obtain ⟨s, hs, hp⟩ := System.Reach.of_exec (S := pointers ⟨0, 1⟩) (s := start 100 7)
    (l := destroying ++ [Label.server (.send 2 [1]), .server (.exec 2 none none), .drop 2] ++ nextBatch)
    (p := fun s => decide (faultOf (s.step ⟨0, 1⟩ (.server (.exec 1 none none))) = some .danglingThis))
    (.init ⟨100, 7, rfl⟩) (by decide +kernel)
  rw [decide_eq_true_eq] at hp
  exact ⟨s, hs, _, faultOf_eq_some.mp hp⟩

end Pointers

end Irono
