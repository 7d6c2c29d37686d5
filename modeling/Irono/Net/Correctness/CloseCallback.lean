import Irono.Net.Correctness.CloseOnce

/-!
# `Net.Correctness.CloseCallback` — whether `closeCallback_` is set when it is called

`newConnection` hands the connection to its I/O loop and sets `closeCallback_` after that. Between the two
the I/O loop may register the connection, see the peer close and call the empty callback
(`close_callback_empty`). `ClosesAfterSetUp` says that the I/O loop does not learn of the close in between;
in every run with it the callback is set whenever `handleClose` runs (`close_callback_set`).
-/

namespace Irono

open Transition Threads

namespace TcpServer

variable {cfg : LoopThreads} {s s' : TcpServer} {t : ThreadId} {th : Threads Handler Stmt} {stmt : Stmt}

/-- The loop is about to handle an event whose first callback is `handleClose`. -/
def dispatchesClose (l : EventLoop Handler Stmt) : Bool :=
  match l.pc with
  | .dispatch (.channel (.connection revents) :: _) => decide (ClosesFirst revents)
  | _ => false

/-- `handleRead` is about to read the end of the stream. -/
def readsEnd : List Stmt → Option (List Byte) → Bool
  | .handleRead _ :: _, some [] => true
  | _, _ => false

/-- With this step a loop learns that the peer has closed. -/
def learnsClose (s : TcpServer) : Label → Bool
  | .loop t .next => dispatchesClose (s.threads.loops t)
  | .exec t _ r => readsEnd (s.threads.frames t) r
  | _ => false

/-- It does so only when `newConnection` is not before its last line. -/
def ClosesAfterSetUp (cfg : LoopThreads) (s : TcpServer) (a : Label) : Prop :=
  s.learnsClose a = true → .setCloseCallback ∉ s.threads.frames cfg.base

instance (cfg : LoopThreads) (s : TcpServer) (a : Label) : Decidable (s.ClosesAfterSetUp cfg a) :=
  inferInstanceAs (Decidable (_ → _))

/-- What the close path relies on. -/
structure CloseCallbackSet (cfg : LoopThreads) (s : TcpServer) : Prop where
  /-- whenever `handleClose` runs, the callback is set -/
  set : ∀ t th, s.threads.pop t = some (.handleClose, th) → s.conn.closeCallback = true
  notEmpty : ∀ a, s.step cfg a ≠ .error (.fault (.connection .emptyCloseCallback))
  /-- a closed connection is out of `connections_`, or its removal is under way -/
  removed : s.history.closeCalls ≠ 0 → s.inConnections = false ∨
    .removeConnection ∈ s.agenda cfg.io ∨ .removeConnectionInLoop ∈ s.agenda cfg.base

/-! ## Where `closeCallback_` is set -/

/-- Only `setCloseCallback` touches it. -/
theorem run_closeCallback (hv : s.conn.outputBuffer.Valid) {w : Option Nat} {r : Option (List Byte)}
    (hs : s.run cfg t w r stmt = .ok s') :
    s'.conn.closeCallback = s.conn.closeCallback ∨
      stmt = .setCloseCallback ∧ s'.conn.closeCallback = true := by
  have hsend : ∀ {message s₁}, s.sendInLoop cfg t message w = .ok s₁ →
      s₁.conn.closeCallback = s.conn.closeCallback := by
    intro message s₁ h₁
    obtain ⟨-, conn, wc, hconn, rfl⟩ := sendInLoop_eq h₁
    rw [(TcpConnection.sendInLoop_cases hv hconn).1]
  have hshut : ∀ {s₁}, s.shutdownInLoop cfg t = .ok s₁ → s₁.conn.closeCallback = s.conn.closeCallback := by
    intro s₁ h₁
    simp only [shutdownInLoop, bind_eq_ok, pure_eq_ok, Except.ok.injEq] at h₁
    obtain ⟨-, -, rfl⟩ := h₁
    show s.conn.shutdownInLoop.closeCallback = _
    unfold TcpConnection.shutdownInLoop
    split <;> rfl
  cases stmt with
  | user => simp [run] at hs
  | acceptLoop => simp [run] at hs
  | setCloseCallback =>
    simp only [run, pure_eq_ok, Except.ok.injEq] at hs
    exact .inr ⟨rfl, by rw [← hs]⟩
  | connectEstablished =>
    simp only [run, bind_eq_ok, Result.mapFault_eq_ok, pure_eq_ok, Except.ok.injEq] at hs
    obtain ⟨-, -, conn, hconn, rfl⟩ := hs
    exact .inl (by rw [(TcpConnection.connectEstablished_cases hconn).2.1])
  | connectDestroyed =>
    simp only [run, bind_eq_ok, Result.mapFault_eq_ok, pure_eq_ok, Except.ok.injEq] at hs
    obtain ⟨-, -, conn, hconn, rfl⟩ := hs
    exact .inl (by rw [(TcpConnection.connectDestroyed_cases hconn).2.1])
  | removeChannel =>
    simp only [run, bind_eq_ok, Result.mapFault_eq_ok, pure_eq_ok, Except.ok.injEq] at hs
    obtain ⟨-, -, conn, hconn, rfl⟩ := hs
    exact .inl (by rw [(TcpConnection.removeChannel_cases hconn).1])
  | handleClose =>
    simp only [run, bind_eq_ok, Result.mapFault_eq_ok, pure_eq_ok, Except.ok.injEq] at hs
    obtain ⟨-, -, conn, hconn, rfl⟩ := hs
    exact .inl (by rw [(TcpConnection.handleClose_cases hconn).2.1])
  | handleRead revents =>
    obtain ⟨conn, next, callbacks, hconn, rfl, -⟩ := run_handleRead hs
    exact .inl (by rw [TcpConnection.readInput_cases hconn])
  | handleWrite =>
    obtain ⟨conn, drained, hconn, rfl⟩ := run_handleWrite hs
    exact .inl (by rw [(TcpConnection.handleWrite_cases hv hconn).1])
  | drained =>
    simp only [run] at hs
    split at hs
    · exact .inl (hshut hs)
    · simp only [pure_eq_ok, Except.ok.injEq] at hs
      exact .inl (by rw [← hs])
  | runShutdownInLoop =>
    simp only [run] at hs
    split at hs
    · exact .inl (hshut hs)
    · simp only [pure_eq_ok, Except.ok.injEq] at hs
      exact .inl (by rw [← hs])
  | shutdownInLoop => exact .inl (hshut hs)
  | send message =>
    simp only [run, bind_eq_ok, pure_eq_ok, Except.ok.injEq] at hs
    obtain ⟨s₁, hs₁, rfl⟩ := hs
    split at hs₁
    · have hsame := hsend hs₁
      exact .inl hsame
    · simp only [Except.ok.injEq] at hs₁
      exact .inl (by rw [← hs₁])
  | sendInLoop message => exact .inl (hsend hs)
  | removeConnectionInLoop =>
    simp only [run, bind_eq_ok, pure_eq_ok, Except.ok.injEq] at hs
    obtain ⟨-, -, -, -, rfl⟩ := hs
    exact .inl rfl
  | runConnectEstablished | removeConnection | setDisconnecting | handleError =>
    simp only [run, pure_eq_ok, Except.ok.injEq] at hs
    exact .inl (by rw [← hs])

/-- Every other step: `newConnection` goes on to set it. -/
theorem step_closeCallback {a : Label} (hs : s.step cfg a = .ok s') (ha : ∀ t w r, a ≠ .exec t w r) :
    s'.conn.closeCallback = s.conn.closeCallback ∧
      (s'.created = s.created ∨ .setCloseCallback ∈ s'.threads.frames cfg.base) := by
  cases a with
  | exec t w r => exact absurd rfl (ha t w r)
  | loop t mv =>
    simp only [step, bind_eq_ok, pure_eq_ok, Except.ok.injEq] at hs
    obtain ⟨-, -, th, -, rfl⟩ := hs
    exact ⟨rfl, .inl rfl⟩
  | ret t =>
    simp only [step] at hs
    split at hs
    · simp only [pure_eq_ok, Except.ok.injEq] at hs
      exact hs ▸ ⟨rfl, .inl rfl⟩
    · simp only [pure_eq_ok, Except.ok.injEq] at hs
      exact hs ▸ ⟨rfl, .inl rfl⟩
    · cases hs
  | newConnection wc =>
    simp only [step, bind_eq_ok, pure_eq_ok, Except.ok.injEq] at hs
    obtain ⟨-, -, rfl⟩ := hs
    exact ⟨rfl, .inr (by simp [Threads.push])⟩
  | send t bytes | shutdown t =>
    simp only [step, bind_eq_ok] at hs
    obtain ⟨-, -, hs⟩ := hs
    split at hs <;> simp only [pure_eq_ok, Except.ok.injEq] at hs <;> exact hs ▸ ⟨rfl, .inl rfl⟩
  | retrieve len =>
    simp only [step, bind_eq_ok, pure_eq_ok, Except.ok.injEq] at hs
    obtain ⟨-, -, b, -, rfl⟩ := hs
    exact ⟨rfl, .inl rfl⟩
  | queueInLoop t owner | quit t owner =>
    simp only [step, bind_eq_ok, pure_eq_ok, Except.ok.injEq] at hs
    obtain ⟨-, -, rfl⟩ := hs
    exact ⟨rfl, .inl rfl⟩

/-! ## The invariant -/

/-- **The invariant**: `newConnection` sets the callback or has still to do it, and nobody has begun
    `handleClose` before that. -/
structure SetUp (cfg : LoopThreads) (s : TcpServer) : Prop where
  unset : s.created = true → s.conn.closeCallback = true ∨ .setCloseCallback ∈ s.threads.frames cfg.base
  closing : .handleClose ∈ s.threads.frames cfg.io → s.conn.closeCallback = true
  queued : ∀ t, .handleClose ∉ s.threads.functors t

theorem setUp_start (self : Addr) (sockfd : Int) : (start self sockfd).SetUp cfg := by
  refine ⟨by simp [start], by simp [start, Threads.start], fun t => ?_⟩
  simp [start, Threads.functors, Threads.start, EventLoop.new]

/-- A connection that has called back was made, so a close that is learned now finds the callback set. -/
theorem SetUp.set_of_learned (h : s.SetUp cfg) (hb : s.Born) (hup : s.history.callbacks ≠ [])
    (hset : .setCloseCallback ∉ s.threads.frames cfg.base) : s.conn.closeCallback = true := by
  have hcreated : s.created = true := by
    by_contra hne
    exact hup (hb (by simpa using hne)).1
  exact (h.unset hcreated).resolve_right hset

theorem Stmt.Queues.ne_handleClose (h : stmt.Queues .handleClose) : False := by
  cases stmt <;> simp [Stmt.Queues] at h

/-- A statement goes on with `handleClose` when it has read the end of the stream. -/
theorem run_begins_handleClose {w : Option Nat} {r : Option (List Byte)} {front : List Stmt}
    {back : ThreadId → List Stmt} (hg : Grows t s s' front back) (hfront : ∀ x ∈ front, stmt.Begins x)
    (hs : s.run cfg t w r stmt = .ok s') (hin : .handleClose ∈ front) :
    (∃ revents, stmt = .handleRead revents) ∧ r = some [] := by
  have hbegins := hfront _ hin
  cases stmt with
  | handleRead revents =>
    obtain ⟨conn, next, callbacks, -, rfl, hnext⟩ := run_handleRead hs
    rw [hg.front_of_push rfl, List.mem_singleton] at hin
    rcases hnext with ⟨rfl, -⟩ | ⟨-, -, hr⟩ | ⟨rfl, -⟩
    · cases hin
    · exact ⟨⟨revents, rfl⟩, hr⟩
    · cases hin
  | _ => simp [Stmt.Begins] at hbegins

theorem closesFirst_of_mem {revents : Events} (h : .close ∈ Channel.callbacks revents) :
    ClosesFirst revents := by
  by_contra hno
  unfold Channel.callbacks at h
  rw [if_neg (show ¬ (.POLLHUP ∈ revents ∧ .POLLIN ∉ revents) from hno)] at h
  split_ifs at h <;> simp at h

/-- A loop begins `handleClose` with the event that asks for it. -/
theorem advance_begins_handleClose {mv : EventLoop.Move Handler}
    (hadv : s.threads.advance Handler.stmts t mv = .ok th) (hq : .handleClose ∉ s.threads.functors t)
    (hin : .handleClose ∈ th.frames t) : s.learnsClose (.loop t mv) = true := by
  simp only [advance, bind_eq_ok, Prod.exists, pure_eq_ok, Except.ok.injEq] at hadv
  obtain ⟨-, -, loop, task, hloop, rfl⟩ := hadv
  simp only [Function.update_self] at hin
  rcases EventLoop.advance_cases hloop with
    ⟨-, -, rfl, -⟩ | ⟨_, -, -, rfl, -, -⟩ | ⟨-, -, rfl, -⟩ | ⟨-, -, rfl, -⟩ | ⟨_, -, -, rfl, -⟩ |
    ⟨hd, rest, rfl, hpc, rfl, -⟩ | ⟨f, rest, -, -, hfs, rfl, -⟩ | ⟨-, -, -, rfl, -⟩ | ⟨-, -, rfl, -⟩
  case inr.inr.inr.inr.inr.inl =>
    have hin : Stmt.handleClose ∈ hd.stmts := by simpa [stmts] using hin
    show dispatchesClose (s.threads.loops t) = true
    unfold dispatchesClose
    rw [hpc]
    cases hd with
    | acceptor => simp [Handler.stmts] at hin
    | user => simp [Handler.stmts] at hin
    | connection revents =>
      obtain ⟨cb, hcb, heq⟩ := List.mem_map.mp hin
      cases cb with
      | close => exact decide_eq_true (closesFirst_of_mem hcb)
      | error | read | write => cases heq
  case inr.inr.inr.inr.inr.inr.inl =>
    have heq : Stmt.handleClose = f := by simpa [stmts] using hin
    exact absurd (by simp [Threads.functors, hfs, heq]) hq
  all_goals simp at hin

theorem setUp_run (hl : s.Lifecycle cfg) (hb : s.Born) (h : s.SetUp cfg) {w : Option Nat}
    {r : Option (List Byte)} (hc : s.ClosesAfterSetUp cfg (.exec t w r))
    (hp : s.threads.pop t = some (stmt, th)) (hs : { s with threads := th }.run cfg t w r stmt = .ok s') :
    s'.SetUp cfg := by
  obtain ⟨front, back, hg, hfront, hback⟩ := run_growsBy hs
  have hset := run_closeCallback (s := { s with threads := th }) hl.intact.valid hs
  have hcreated : s'.created = s.created := (run_sameCalls hs).created
  obtain ⟨hself, hother⟩ := frames_pop hp
  have hpopped : ∀ {t' x}, x ∈ th.frames t' → x ∈ s.threads.frames t' := by
    intro t' x hx
    by_cases ht : t' = t
    · subst ht; rw [hself]; exact List.mem_cons_of_mem _ hx
    · rwa [← hother t' ht]
  have hkeep : s.conn.closeCallback = true → s'.conn.closeCallback = true := by
    intro hset'
    rcases hset with hsame | ⟨-, hset⟩
    · exact hsame.trans hset'
    · exact hset
  refine ⟨fun hcr => ?_, fun hin => ?_, fun t' hin => ?_⟩
  · rcases h.unset (hcreated ▸ hcr) with hset' | hin
    · exact .inl (hkeep hset')
    · -- the statement taken off the frames is the one that sets it, or another one
      by_cases ht : cfg.base = t
      · rw [ht, hself, List.mem_cons] at hin
        rcases hin with rfl | hin
        · rcases hset with hsame | ⟨-, hset⟩
          · simp only [run, pure_eq_ok, Except.ok.injEq] at hs
            exact .inl (by rw [← hs])
          · exact .inl hset
        · exact .inr (by rw [hg.frames, ht]; exact List.mem_append_right _ hin)
      · rw [← hother _ ht] at hin
        exact .inr (by rw [hg.frames]; exact List.mem_append_right _ hin)
  · rw [hg.frames, List.mem_append] at hin
    rcases hin with hin | hin
    · split at hin
      · rename_i ht
        obtain ⟨⟨revents, rfl⟩, hr⟩ := run_begins_handleClose hg hfront hs hin
        have hlearn : s.learnsClose (.exec t w r) = true := by
          show readsEnd (s.threads.frames t) r = true
          rw [hself, hr]
          rfl
        exact hkeep (h.set_of_learned hb (hl.placed_pop hp).1.2 (hc hlearn))
      · cases hin
    · exact hkeep (h.closing (hpopped hin))
  · rw [hg.functors, List.mem_append] at hin
    rcases hin with hin | hin
    · exact h.queued t' (functors_pop hp t' ▸ hin)
    · exact (hback t' _ hin).ne_handleClose

theorem setUp_step {a : Label} (hl : s.Lifecycle cfg) (hb : s.Born) (h : s.SetUp cfg)
    (hc : s.ClosesAfterSetUp cfg a) (hs : s.step cfg a = .ok s') : s'.SetUp cfg := by
  have hl' := lifecycle_step hl hs
  by_cases hexec : ∃ t w r, a = .exec t w r
  · obtain ⟨t, w, r, rfl⟩ := hexec
    simp only [step] at hs
    split at hs
    · rename_i stmt th hp
      exact setUp_run hl hb h hc hp hs
    · cases hs
  obtain ⟨hset, hcreated⟩ := step_closeCallback hs fun t w r he => hexec ⟨t, w, r, he⟩
  rcases step_cases hs with ⟨t, w, r, stmt, th, rfl, -, -⟩ | ⟨t, mv, th, rfl, -, hadv, rfl⟩ |
    ⟨t, stmt, th, rfl, hst, hp, rfl⟩ | ⟨hout, -, t, front, back, hg, -, hfront, hback, -⟩
  · exact absurd ⟨t, w, r, rfl⟩ hexec
  · obtain ⟨-, hframes, hother, -⟩ := agenda_advance hl.batched hadv
    refine ⟨fun hcr => ?_, fun hin => ?_, fun t' hin => h.queued t' (functors_advance hl.batched hadv hin)⟩
    · refine (h.unset hcr).imp_right fun hin => ?_
      by_cases ht : cfg.base = t
      · rw [ht, hframes] at hin; cases hin
      · rw [← hother _ ht] at hin; exact hin
    · by_cases ht : cfg.io = t
      · have hin' : .handleClose ∈ th.frames t := ht ▸ hin
        have hup := (hl'.placed cfg.io .handleClose (List.mem_append_left _ hin)).2
        exact h.set_of_learned hb hup (hc (advance_begins_handleClose hadv (h.queued t) hin'))
      · exact h.closing (hother _ ht ▸ hin)
  · obtain ⟨hself, hother⟩ := frames_pop hp
    refine ⟨fun hcr => ?_, fun hin => ?_, fun t' hin => h.queued t' (functors_pop hp t' ▸ hin)⟩
    · refine (h.unset hcr).imp_right fun hin => ?_
      by_cases ht : cfg.base = t
      · rw [ht, hself, List.mem_cons] at hin
        rcases hin with rfl | hin
        · rcases hst with hst | hst <;> cases hst
        · exact ht ▸ hin
      · rw [← hother _ ht] at hin; exact hin
    · refine h.closing ?_
      by_cases ht : cfg.io = t
      · rw [ht, hself]
        exact List.mem_cons_of_mem _ (ht ▸ hin)
      · exact hother _ ht ▸ hin
  · refine ⟨fun hcr => ?_, fun hin => ?_, fun t' hin => ?_⟩
    · rcases hcreated with hsame | hin
      · rw [hset]
        refine (h.unset (hsame ▸ hcr)).imp_right fun hin => ?_
        rw [hg.frames]
        exact List.mem_append_right _ hin
      · exact .inr hin
    · rw [hset]
      rw [hg.frames, List.mem_append] at hin
      rcases hin with hin | hin
      · split at hin
        · exact (hfront _ hin).elim
        · cases hin
      · exact h.closing hin
    · rw [hg.functors, List.mem_append] at hin
      rcases hin with hin | hin
      · exact h.queued t' hin
      · cases hback t' _ hin

theorem setUp_of_reach (h : (tcpServer cfg).Reach (ClosesAfterSetUp cfg) s) : s.SetUp cfg :=
  h.invariant (I := SetUp cfg)
    (fun s h0 => by obtain ⟨self, sockfd, rfl⟩ := h0; exact setUp_start self sockfd)
    (fun _ _ _ hr hI hc hs => setUp_step (lifecycle_of_reachable hr.reachable)
      (born_of_reachable hr.reachable) hI hc hs)

/-! ## The result -/

/-- A closed connection is out of `connections_`, or on its way out. -/
theorem Lifecycle.removed (hl : s.Lifecycle cfg) (hclosed : s.history.closeCalls ≠ 0) :
    s.inConnections = false ∨ .removeConnection ∈ s.agenda cfg.io ∨
      .removeConnectionInLoop ∈ s.agenda cfg.base := by
  have hmem : ∀ {x t}, s.waiting x t ≠ 0 → x ∈ s.agenda t := by
    intro x t hne
    by_contra hno
    exact hne (waiting_eq_zero hno)
  have hc := hl.closes
  have hle := Bool.toNat_le s.created
  cases hin : s.inConnections with
  | false => exact .inl rfl
  | true =>
    rw [hin, Bool.toNat_true] at hc
    by_cases hzero : s.waiting .removeConnection cfg.io = 0
    · exact .inr (.inr (hmem (by omega)))
    · exact .inr (.inl (hmem hzero))

/-- **`closeCallback_` is set when it is called**, in every run whose I/O loop does not learn of the close
    while `newConnection` is before its last line. -/
theorem close_callback_set (h : (tcpServer cfg).Reach (ClosesAfterSetUp cfg) s) : s.CloseCallbackSet cfg := by
  have hl := lifecycle_of_reachable h.reachable
  have hset : ∀ t th, s.threads.pop t = some (.handleClose, th) → s.conn.closeCallback = true := by
    intro t th hp
    have hio : t = cfg.io := (hl.placed_pop hp).1.1
    refine (setUp_of_reach h).closing ?_
    rw [← hio, (frames_pop hp).1]
    exact List.mem_cons_self
  refine ⟨hset, fun a hs => ?_, hl.removed⟩
  have hpath : (Fault.connection .emptyCloseCallback).OfClosePath := trivial
  obtain ⟨t, w, r, stmt, th, rfl, hp, hrun⟩ := step_fault hpath hs
  rcases run_fault hpath hrun with ⟨hclosing, -⟩ | ⟨-, rfl, hunset⟩
  · exact hclosing
  · have hunset' : s.conn.closeCallback = false := hunset
    rw [hset t th hp] at hunset'
    cases hunset'

/-- The peer closes after `newConnection` has returned; the connection leaves `connections_`. -/
theorem close_callback_set_sample : ∃ s : TcpServer, s.history.closeCalls = 1 ∧ s.inConnections = false ∧
    s.CloseCallbackSet ⟨0, 1⟩ := by
  obtain ⟨s, hs, hp⟩ := System.Reach.of_execWhile (S := tcpServer ⟨0, 1⟩) (C := ClosesAfterSetUp ⟨0, 1⟩)
    (l := connect false ++ polls 1 [.channel (.connection {.POLLIN, .POLLHUP})] ++
      [Label.exec 1 none (some []), .exec 1 none none, .exec 1 none none] ++ swaps 0 ++ [Label.exec 0 none none])
    (p := fun s => decide (s.history.closeCalls = 1 ∧ s.inConnections = false))
    (.init ⟨4096, 9, rfl⟩) (by decide +kernel)
  rw [decide_eq_true_eq] at hp
  exact ⟨s, hp.1, hp.2, close_callback_set hs⟩

/-- **The peer closes at once.** The base loop is still in `newConnection` when the I/O loop establishes
    the connection, polls it and reads the end of the stream. -/
theorem close_callback_empty : ¬ ∀ cfg s, (tcpServer cfg).Reachable s → s.CloseCallbackSet cfg := by
  intro hall
  obtain ⟨s, hs, hp⟩ := System.Reach.of_exec (S := tcpServer ⟨0, 1⟩)
    (l := [Label.loop 0 .enter] ++ polls 0 [.channel .acceptor] ++ [Label.newConnection false, .exec 0 none none] ++
      [Label.loop 1 .enter] ++ polls 1 [.wakeupChannel] ++ swaps 1 ++ [Label.exec 1 none none, .ret 1] ++ unwinds 1 ++
      polls 1 [.channel (.connection {.POLLIN, .POLLHUP})] ++ [Label.exec 1 none (some [])])
    (p := fun s => faultOf (s.step ⟨0, 1⟩ (.exec 1 none none)) == some (.connection .emptyCloseCallback))
    (.init ⟨4096, 9, rfl⟩) (by decide +kernel)
  rw [beq_iff_eq, faultOf_eq_some] at hp
  exact (hall ⟨0, 1⟩ s hs).notEmpty _ hp

end TcpServer

end Irono
