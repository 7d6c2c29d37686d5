import Irono.Net.TcpServer

/-!
# `Net.Correctness.Lifecycle` — the hops of a connection's life, counted

Closing takes three hops: `closeCallback_` in the I/O loop, `removeConnectionInLoop` in the base loop,
`connectDestroyed` in the I/O loop again. Each hop is a statement on somebody's agenda, and the counts of
these statements and of what they have done add up: `destroys` and `closes` are the two sums. They hold in
every run; the results on connections start from them.
-/

namespace Irono

open Transition Threads

namespace TcpServer

/-- All that thread `t` has still to do. -/
abbrev agenda (s : TcpServer) (t : ThreadId) : List Stmt := s.threads.agenda Handler.stmts t

/-- How often `stmt` is on the agenda of thread `t`. -/
def waiting (s : TcpServer) (stmt : Stmt) (t : ThreadId) : Nat :=
  s.threads.load Handler.stmts (fun x => if x = stmt then 1 else 0) t

/-- Where a statement can be, and what is known when it is there. -/
def Stmt.Placed (cfg : LoopThreads) (t : ThreadId) (up : Prop) : Stmt → Prop
  | .handleClose => t = cfg.io ∧ up
  | .handleRead _ => t = cfg.io ∧ up
  | .handleWrite => t = cfg.io ∧ up
  | .removeConnection => t = cfg.io
  | .send message => message.sender = t ∧ up
  | .sendInLoop message => message.sender ≠ cfg.io ∧ up
  | .setDisconnecting => up
  | _ => True

/-- **The invariant.** -/
structure Lifecycle (cfg : LoopThreads) (s : TcpServer) : Prop where
  batched : s.threads.Batched
  placed : ∀ t, ∀ stmt ∈ s.agenda t, stmt.Placed cfg t (s.history.callbacks ≠ [])
  up : s.conn.state = .kConnecting ↔ s.history.callbacks = []
  intact : s.conn.Intact
  idle : s.history.callbacks = [] → s.conn.channel.index ≠ EPoller.kAdded
  /-- a connection is in `connections_`, or its `connectDestroyed` is on the way, or has run -/
  destroys : s.waiting .connectDestroyed cfg.io + s.history.destroyCalls + s.inConnections.toNat =
    s.created.toNat
  /-- every `closeCallback_` is on its way to the base loop, or has taken the connection out -/
  closes : s.waiting .removeConnection cfg.io + s.waiting .removeConnectionInLoop cfg.base +
    s.created.toNat = s.history.closeCalls + s.inConnections.toNat

variable {cfg : LoopThreads} {s s' : TcpServer}

theorem lifecycle_start (self : Addr) (sockfd : Int) : (start self sockfd).Lifecycle cfg := by
  refine ⟨batched_start, ?_, ?_, TcpConnection.intact_new self sockfd, ?_, ?_, ?_⟩ <;>
    simp [start, agenda, waiting, load, TcpConnection.new, Channel.new, EPoller.kAdded]

theorem Stmt.Placed.mono {t : ThreadId} {up up' : Prop} (h : up → up') {stmt : Stmt}
    (hst : stmt.Placed cfg t up) : stmt.Placed cfg t up' := by
  cases stmt <;> simp_all [Stmt.Placed]

/-! ## The statements of tasks -/

/-- The callbacks of the connection's channel. -/
theorem callbackStmt_cases {revents : Events} {stmt : Stmt}
    (h : stmt ∈ (Handler.connection revents).stmts) :
    stmt = .handleClose ∨ stmt = .handleError ∨ stmt = .handleRead revents ∨ stmt = .handleWrite := by
  obtain ⟨cb, -, rfl⟩ := List.mem_map.mp h
  cases cb <;> simp [callbackStmt]

/-- A statement that is one of the hops. -/
def Stmt.Hop (stmt : Stmt) : Prop :=
  stmt = .connectDestroyed ∨ stmt = .removeConnection ∨ stmt = .removeConnectionInLoop

/-- A connection that is reported is registered, hence up. -/
theorem Lifecycle.up_of_reportable (h : s.Lifecycle cfg) {t : ThreadId} {revents : Events}
    (hr : s.Reportable cfg t (.channel (.connection revents))) :
    t = cfg.io ∧ s.history.callbacks ≠ [] ∧ s.conn.channel.index = EPoller.kAdded ∧
      s.conn.watched = some s.conn.channel.events := by
  obtain ⟨ht, events, hw, -⟩ := hr
  have hwatched := h.intact.watched
  rw [Option.mem_def] at hw
  split at hwatched
  · rename_i hidx
    exact ⟨ht, fun hnil => h.idle hnil hidx, hidx, hwatched⟩
  · rw [hwatched] at hw; cases hw

/-- A handler's statements are where they belong, and none of them is a hop. -/
theorem handler_stmts (h : s.Lifecycle cfg) {hd : Handler} {t : ThreadId}
    (hr : s.Reportable cfg t (.channel hd)) {stmt : Stmt} (hst : stmt ∈ hd.stmts) :
    stmt.Placed cfg t (s.history.callbacks ≠ []) ∧ ¬ stmt.Hop := by
  cases hd with
  | acceptor => rw [List.mem_singleton.mp hst]; simp [Stmt.Placed, Stmt.Hop]
  | user => rw [List.mem_singleton.mp hst]; simp [Stmt.Placed, Stmt.Hop]
  | connection revents =>
    obtain ⟨hio, hup, -⟩ := h.up_of_reportable hr
    rcases callbackStmt_cases hst with rfl | rfl | rfl | rfl <;> simp [Stmt.Placed, Stmt.Hop, hio, hup]

/-- The statements of what one `poll` reports. -/
theorem polled_stmts {active : List (Active Handler)} {stmt : Stmt}
    (hst : stmt ∈ (EventLoop.handlers active).flatMap (stmts Handler.stmts)) :
    ∃ h, .channel h ∈ active ∧ stmt ∈ h.stmts := by
  obtain ⟨task, htask, hst⟩ := List.mem_flatMap.mp hst
  obtain ⟨a, ha, hsome⟩ := List.mem_filterMap.mp htask
  cases a with
  | wakeupChannel => cases hsome
  | channel h =>
    simp only [Option.some.injEq] at hsome
    subst hsome
    exact ⟨h, ha, hst⟩

theorem waiting_eq_zero {l : List Stmt} {stmt : Stmt} (h : stmt ∉ l) :
    (l.map fun x => if x = stmt then 1 else 0).sum = 0 := by
  rw [List.sum_eq_zero_iff]
  intro n hn
  obtain ⟨x, hx, rfl⟩ := List.mem_map.mp hn
  have hne : x ≠ stmt := by rintro rfl; exact h hx
  exact if_neg hne

/-- What is waited for is on the agenda. -/
theorem mem_of_waiting {t : ThreadId} {stmt : Stmt} (h : 0 < s.waiting stmt t) : stmt ∈ s.agenda t := by
  by_contra hnot
  rw [waiting, load, waiting_eq_zero hnot] at h
  exact absurd h (Nat.lt_irrefl 0)

/-! ## Moving statements about

A state differs from another in its threads only; none of the statements moved is a hop. -/

variable {th : Threads Handler Stmt} {t owner : ThreadId} {stmt : Stmt}

/-- Statements that come to the front of one agenda. -/
theorem Lifecycle.prepend (h : s.Lifecycle cfg) (hb : th.Batched) {l : List Stmt}
    (hl : ∀ stmt ∈ l, stmt.Placed cfg t (s.history.callbacks ≠ []) ∧ ¬ stmt.Hop)
    (hag : ∀ t', th.agenda Handler.stmts t' = (if t' = t then l else []) ++ s.agenda t') :
    { s with threads := th }.Lifecycle cfg := by
  have hload : ∀ st : Stmt, st.Hop → ∀ t',
      ({ s with threads := th } : TcpServer).waiting st t' = s.waiting st t' := by
    intro st hhop t'
    have hzero : (l.map fun x => if x = st then 1 else 0).sum = 0 :=
      waiting_eq_zero fun hin => (hl st hin).2 hhop
    simp only [waiting, load, hag, List.map_append, List.sum_append]
    split <;> simp [hzero]
  refine ⟨hb, fun t' x hx => ?_, h.up, h.intact, h.idle, ?_, ?_⟩
  · rw [agenda, hag, List.mem_append] at hx
    rcases hx with hx | hx
    · split at hx
      · rename_i ht; exact ht ▸ (hl x hx).1
      · cases hx
    · exact h.placed t' x hx
  · rw [hload _ (.inl rfl)]; exact h.destroys
  · rw [hload _ (.inr (.inl rfl)), hload _ (.inr (.inr rfl))]; exact h.closes

/-- Statements begin that are in their place and no hops. -/
theorem Lifecycle.push (h : s.Lifecycle cfg) {l : List Stmt}
    (hl : ∀ stmt ∈ l, stmt.Placed cfg t (s.history.callbacks ≠ []) ∧ ¬ stmt.Hop) :
    { s with threads := s.threads.push t l }.Lifecycle cfg :=
  h.prepend (batched_push h.batched l) hl (agenda_push l)

/-- A statement is queued that is in its place and no hop. -/
theorem Lifecycle.queueInLoop (h : s.Lifecycle cfg)
    (hst : stmt.Placed cfg owner (s.history.callbacks ≠ []) ∧ ¬ stmt.Hop) :
    { s with threads := s.threads.queueInLoop t owner stmt }.Lifecycle cfg := by
  have hne : ∀ st : Stmt, st.Hop → ¬ stmt = st := fun st hhop heq => hst.2 (heq ▸ hhop)
  refine ⟨batched_queueInLoop h.batched stmt, fun t' x hx => ?_, h.up, h.intact, h.idle, ?_, ?_⟩
  · rw [agenda, agenda_queueInLoop, List.mem_append] at hx
    rcases hx with hx | hx
    · exact h.placed t' x hx
    · split at hx
      · rename_i ht; rw [List.mem_singleton.mp hx, ht]; exact hst.1
      · cases hx
  · simp only [waiting, load_queueInLoop, hne _ (.inl rfl), if_false, ite_self, add_zero]
    exact h.destroys
  · simp only [waiting, load_queueInLoop, hne _ (.inr (.inl rfl)), hne _ (.inr (.inr rfl)), if_false,
      ite_self, add_zero]
    exact h.closes

theorem Lifecycle.runInLoop (h : s.Lifecycle cfg)
    (hst : ∀ t, stmt.Placed cfg t (s.history.callbacks ≠ [])) (hhop : ¬ stmt.Hop) :
    { s with threads := s.threads.runInLoop t owner stmt }.Lifecycle cfg := by
  unfold Threads.runInLoop
  split
  · exact h.push (fun x hx => by rw [List.mem_singleton.mp hx]; exact ⟨hst _, hhop⟩)
  · exact h.queueInLoop ⟨hst _, hhop⟩

/-- The statement at hand is in its place, and so are those that are left. -/
theorem Lifecycle.placed_pop (h : s.Lifecycle cfg) (hp : s.threads.pop t = some (stmt, th)) :
    stmt.Placed cfg t (s.history.callbacks ≠ []) ∧
      ∀ t', ∀ x ∈ th.agenda Handler.stmts t', x.Placed cfg t' (s.history.callbacks ≠ []) := by
  refine ⟨h.placed t stmt ?_, fun t' x hx => h.placed t' x ?_⟩
  · rw [agenda, agenda_pop hp]; simp
  · rw [agenda, agenda_pop hp]; exact List.mem_append_right _ hx

/-- A statement that is no hop is done. -/
theorem Lifecycle.pop (h : s.Lifecycle cfg) (hp : s.threads.pop t = some (stmt, th))
    (hhop : ¬ stmt.Hop) : { s with threads := th }.Lifecycle cfg := by
  have hne : ∀ st : Stmt, st.Hop → ¬ stmt = st := fun st h' heq => hhop (heq ▸ h')
  have hd := h.destroys
  have hc := h.closes
  simp only [waiting, load_pop hp, hne _ (.inl rfl), hne _ (.inr (.inl rfl)), hne _ (.inr (.inr rfl)),
    if_false, ite_self, zero_add] at hd hc
  exact ⟨batched_pop h.batched hp, (h.placed_pop hp).2, h.up, h.intact, h.idle, hd, hc⟩

/-! ## The members with a choice in them -/

/-- What `sendInLoop` does. -/
theorem sendInLoop_eq {message : Message} {w : Option Nat} (hs : s.sendInLoop cfg t message w = .ok s') :
    t = cfg.io ∧ ∃ conn wc, s.conn.sendInLoop message.bytes w = .ok (conn, wc) ∧ s' = { s with
      conn := conn
      threads := if wc then s.threads.queueInLoop t cfg.io .user else s.threads
      history := { s.history with ran := s.history.ran ++ [message] } } := by
  simp only [sendInLoop, bind_eq_ok, require_eq_ok, Result.mapFault_eq_ok, Prod.exists, pure_eq_ok,
    Except.ok.injEq] at hs
  obtain ⟨-, ht, conn, wc, hconn, rfl⟩ := hs
  exact ⟨ht, conn, wc, hconn, rfl⟩

/-- What `handleRead` does: the message callback, the close or the error comes next. -/
theorem run_handleRead {revents : Events} {w : Option Nat} {r : Option (List Byte)}
    (hs : s.run cfg t w r (.handleRead revents) = .ok s') :
    ∃ conn next callbacks, s.conn.readInput r = .ok conn ∧
      s' = { s with
        conn := conn, threads := s.threads.push t [next]
        history := { s.history with callbacks := s.history.callbacks ++ callbacks } } ∧
      (next = .user ∧ callbacks = [.message] ∨ next = .handleClose ∧ callbacks = [] ∧ r = some [] ∨
        next = .handleError ∧ callbacks = []) := by
  simp only [run, bind_eq_ok, Result.mapFault_eq_ok] at hs
  obtain ⟨conn, hconn, hs⟩ := hs
  cases r with
  | none =>
    simp only [pure_eq_ok, Except.ok.injEq] at hs
    exact ⟨conn, .handleError, [], hconn, by rw [← hs, List.append_nil], .inr (.inr ⟨rfl, rfl⟩)⟩
  | some bytes =>
    cases bytes with
    | nil =>
      simp only [pure_eq_ok, Except.ok.injEq] at hs
      exact ⟨conn, .handleClose, [], hconn, by rw [← hs, List.append_nil], .inr (.inl ⟨rfl, rfl, rfl⟩)⟩
    | cons b bs =>
      simp only [pure_eq_ok, Except.ok.injEq] at hs
      exact ⟨conn, .user, [.message], hconn, hs.symm, .inl ⟨rfl, rfl⟩⟩

/-- What `handleWrite` does: when the buffer is drained the rest of it comes next. -/
theorem run_handleWrite {w : Option Nat} {r : Option (List Byte)}
    (hs : s.run cfg t w r .handleWrite = .ok s') :
    ∃ conn drained, s.conn.handleWrite w = .ok (conn, drained) ∧ s' = { s with
      conn := conn
      threads := if drained then
          (if conn.writeCompleteCallback then s.threads.queueInLoop t cfg.io .user else s.threads).push t [.drained]
        else s.threads } := by
  simp only [run, bind_eq_ok, Result.mapFault_eq_ok, Prod.exists] at hs
  obtain ⟨-, -, conn, drained, hconn, hs⟩ := hs
  refine ⟨conn, drained, hconn, ?_⟩
  cases drained <;> simpa using hs.symm

/-! ## One step -/

/-- Users cannot act before they were given the connection, so a message means it is up. -/
theorem lifecycle_sendInLoop (h : s.Lifecycle cfg) (hup : s.history.callbacks ≠ []) {message : Message} {w : Option Nat}
    (hs : s.sendInLoop cfg t message w = .ok s') : s'.Lifecycle cfg := by
  obtain ⟨-, conn, wc, hconn, rfl⟩ := sendInLoop_eq hs
  obtain ⟨hintact, hstate⟩ := TcpConnection.sendInLoop_intact h.intact hconn
  have h' : { s with
      conn := conn, history := { s.history with ran := s.history.ran ++ [message] } }.Lifecycle cfg :=
    ⟨h.batched, h.placed, by rw [hstate]; exact h.up, hintact, fun hnil => absurd hnil hup,
      h.destroys, h.closes⟩
  cases wc
  · exact h'
  · exact h'.queueInLoop ⟨by simp [Stmt.Placed], by simp [Stmt.Hop]⟩

/-- `shutdownInLoop` leaves the state and the channel alone. -/
theorem lifecycle_shutdownInLoop (h : s.Lifecycle cfg) (hs : s.shutdownInLoop cfg t = .ok s') :
    s'.Lifecycle cfg := by
  simp only [shutdownInLoop, bind_eq_ok, require_eq_ok, pure_eq_ok, Except.ok.injEq] at hs
  obtain ⟨-, -, rfl⟩ := hs
  obtain ⟨hintact, hstate⟩ := TcpConnection.shutdownInLoop_intact h.intact
  have hch := s.conn.shutdownInLoop_channel
  exact ⟨h.batched, h.placed, by rw [hstate]; exact h.up, hintact, by rw [hch]; exact h.idle,
    h.destroys, h.closes⟩

/-- The hops: each takes its statement off the agenda and does what it stands for. -/
theorem lifecycle_hop (h : s.Lifecycle cfg) {w : Option Nat} {r : Option (List Byte)}
    (hp : s.threads.pop t = some (stmt, th)) (hhop : stmt.Hop)
    (hs : { s with threads := th }.run cfg t w r stmt = .ok s') : s'.Lifecycle cfg := by
  obtain ⟨hst, hpl⟩ := h.placed_pop hp
  have hb := batched_pop h.batched hp
  have hd := h.destroys
  have hc := h.closes
  simp only [waiting, load_pop hp] at hd hc
  rcases hhop with rfl | rfl | rfl
  · -- `connectDestroyed`
    simp only [run, bind_eq_ok, require_eq_ok, Result.mapFault_eq_ok, pure_eq_ok, Except.ok.injEq] at hs
    obtain ⟨-, rfl, conn, hconn, rfl⟩ := hs
    obtain ⟨hintact, hstate, hstate'⟩ := TcpConnection.connectDestroyed_intact h.intact hconn
    simp only [if_true, reduceCtorEq, if_false, ite_self] at hd hc
    have hcb : s.history.callbacks ≠ [] := fun hnil => hstate (h.up.mpr hnil)
    have h' : { s with
        conn := conn, threads := th
        history := { s.history with
          callbacks := s.history.callbacks ++ [UserCallback.connection conn.connected]
          destroyCalls := s.history.destroyCalls + 1 } }.Lifecycle cfg := by
      refine ⟨hb, fun t' x hx => (hpl t' x hx).mono (by simp), by simp [hstate'], hintact, by simp, ?_, ?_⟩
      · simp only [waiting]; omega
      · simp only [waiting]; omega
    exact h'.push (by simp [Stmt.Placed, Stmt.Hop])
  · -- `removeConnection`
    have ht : t = cfg.io := hst
    simp only [run, pure_eq_ok, Except.ok.injEq] at hs
    subst hs ht
    simp only [if_true, reduceCtorEq, if_false, ite_self] at hd hc
    unfold Threads.runInLoop
    split
    · rename_i hbase
      refine ⟨batched_push hb _, fun t' x hx => ?_, h.up, h.intact, h.idle, ?_, ?_⟩
      · rw [agenda, agenda_push, List.mem_append] at hx
        rcases hx with hx | hx
        · split at hx
          · rw [List.mem_singleton.mp hx]; simp [Stmt.Placed]
          · cases hx
        · exact hpl t' x hx
      · simp only [waiting, load_push] at hd ⊢; simp; omega
      · simp only [waiting, load_push, hbase] at hc ⊢; simp at hc ⊢; omega
    · refine ⟨batched_queueInLoop hb _, fun t' x hx => ?_, h.up, h.intact, h.idle, ?_, ?_⟩
      · rw [agenda, agenda_queueInLoop, List.mem_append] at hx
        rcases hx with hx | hx
        · exact hpl t' x hx
        · split at hx
          · rw [List.mem_singleton.mp hx]; simp [Stmt.Placed]
          · cases hx
      · simp only [waiting, load_queueInLoop] at hd ⊢; simp; omega
      · simp only [waiting, load_queueInLoop] at hc ⊢; simp; omega
  · -- `removeConnectionInLoop`
    simp only [run, bind_eq_ok, require_eq_ok, pure_eq_ok, Except.ok.injEq] at hs
    obtain ⟨-, rfl, -, hin, rfl⟩ := hs
    simp only [reduceCtorEq, if_false, ite_self, if_true, hin, Bool.toNat_true] at hd hc
    refine ⟨batched_queueInLoop hb _, fun t' x hx => ?_, h.up, h.intact, h.idle, ?_, ?_⟩
    · rw [agenda, agenda_queueInLoop, List.mem_append] at hx
      rcases hx with hx | hx
      · exact hpl t' x hx
      · split at hx
        · rw [List.mem_singleton.mp hx]; simp [Stmt.Placed]
        · cases hx
    · simp only [waiting, load_queueInLoop]; simp; omega
    · simp only [waiting, load_queueInLoop]; simp; omega

/-- `connectEstablished`: the first callback. -/
theorem lifecycle_connectEstablished (h : s.Lifecycle cfg) {w : Option Nat} {r : Option (List Byte)}
    (hs : s.run cfg t w r .connectEstablished = .ok s') : s'.Lifecycle cfg := by
  simp only [run, bind_eq_ok, require_eq_ok, Result.mapFault_eq_ok, pure_eq_ok, Except.ok.injEq] at hs
  obtain ⟨-, -, conn, hconn, rfl⟩ := hs
  obtain ⟨hintact, -, hstate⟩ := TcpConnection.connectEstablished_intact h.intact hconn
  have h' : { s with
      conn := conn
      history := { s.history with
        callbacks := s.history.callbacks ++ [UserCallback.connection conn.connected] } }.Lifecycle cfg :=
    ⟨h.batched, fun t' x hx => (h.placed t' x hx).mono (by simp), by simp [hstate], hintact,
      by simp, h.destroys, h.closes⟩
  exact h'.push (by simp [Stmt.Placed, Stmt.Hop])

/-- The end of `connectDestroyed`: the channel is off the poller. -/
theorem lifecycle_removeChannel (h : s.Lifecycle cfg) {w : Option Nat} {r : Option (List Byte)}
    (hs : s.run cfg t w r .removeChannel = .ok s') : s'.Lifecycle cfg := by
  simp only [run, bind_eq_ok, require_eq_ok, Result.mapFault_eq_ok, pure_eq_ok, Except.ok.injEq] at hs
  obtain ⟨-, -, conn, hconn, rfl⟩ := hs
  obtain ⟨hintact, hstate⟩ := TcpConnection.removeChannel_intact h.intact hconn
  have hidx : conn.channel.index = EPoller.kNew := by
    rw [(TcpConnection.removeChannel_cases hconn).2.1]
  exact ⟨h.batched, h.placed, by rw [hstate]; exact h.up, hintact, fun _ => by rw [hidx]; decide,
    h.destroys, h.closes⟩

/-- `handleClose` begins the one way to `connectDestroyed`. -/
theorem lifecycle_handleClose (h : s.Lifecycle cfg) (hcb : s.history.callbacks ≠ []) {w : Option Nat}
    {r : Option (List Byte)} (hs : s.run cfg t w r .handleClose = .ok s') : s'.Lifecycle cfg := by
  simp only [run, bind_eq_ok, require_eq_ok, Result.mapFault_eq_ok, pure_eq_ok, Except.ok.injEq] at hs
  obtain ⟨-, rfl, conn, hconn, rfl⟩ := hs
  obtain ⟨hintact, -, hstate⟩ := TcpConnection.handleClose_intact h.intact hconn
  have hd := h.destroys
  have hc := h.closes
  simp only [waiting] at hd hc
  refine ⟨batched_push h.batched _, fun t' x hx => ?_, by rw [hstate]; exact h.up, hintact,
    fun hnil => absurd hnil hcb, ?_, ?_⟩
  · rw [agenda, agenda_push, List.mem_append] at hx
    rcases hx with hx | hx
    · split at hx
      · rename_i ht; rw [List.mem_singleton.mp hx]; exact ht
      · cases hx
    · exact h.placed t' x hx
  · simp only [waiting, load_push]; simp; omega
  · simp only [waiting, load_push]; simp; omega

/-- `handleRead` of a connection that is up. -/
theorem lifecycle_handleRead (h : s.Lifecycle cfg) {revents : Events} (ht : t = cfg.io)
    (hcb : s.history.callbacks ≠ []) {w : Option Nat} {r : Option (List Byte)}
    (hs : s.run cfg t w r (.handleRead revents) = .ok s') : s'.Lifecycle cfg := by
  obtain ⟨conn, next, callbacks, hconn, rfl, hnext⟩ := run_handleRead hs
  obtain ⟨hintact, hstate⟩ := TcpConnection.readInput_intact h.intact hconn
  have hconn' : conn.state ≠ .kConnecting := fun heq => hcb (h.up.mp (hstate.symm.trans heq))
  have h' : { s with
      conn := conn
      history := { s.history with callbacks := s.history.callbacks ++ callbacks } }.Lifecycle cfg :=
    ⟨h.batched, fun t' x hx => (h.placed t' x hx).mono (by simp_all), by simp [hconn', hcb], hintact,
      by simp [hcb], h.destroys, h.closes⟩
  refine h'.push fun x hx => ?_
  rw [List.mem_singleton.mp hx]
  rcases hnext with ⟨rfl, -⟩ | ⟨rfl, -⟩ | ⟨rfl, -⟩ <;> simp [Stmt.Placed, Stmt.Hop, ht, hcb]

/-- `handleWrite` of a connection that is up. -/
theorem lifecycle_handleWrite (h : s.Lifecycle cfg) (hcb : s.history.callbacks ≠ []) {w : Option Nat}
    {r : Option (List Byte)} (hs : s.run cfg t w r .handleWrite = .ok s') : s'.Lifecycle cfg := by
  obtain ⟨conn, drained, hconn, rfl⟩ := run_handleWrite hs
  obtain ⟨hintact, hstate⟩ := TcpConnection.handleWrite_intact h.intact hconn
  have h' : { s with conn := conn }.Lifecycle cfg :=
    ⟨h.batched, h.placed, by rw [hstate]; exact h.up, hintact, fun hnil => absurd hnil hcb,
      h.destroys, h.closes⟩
  cases drained with
  | false => exact h'
  | true =>
    cases conn.writeCompleteCallback
    · exact h'.push (by simp [Stmt.Placed, Stmt.Hop])
    · have huser : Stmt.user.Placed cfg cfg.io (s.history.callbacks ≠ []) ∧ ¬ Stmt.user.Hop := by
        simp [Stmt.Placed, Stmt.Hop]
      exact Lifecycle.push (h'.queueInLoop huser) (by simp [Stmt.Placed, Stmt.Hop])

/-- `send` in the I/O thread is `sendInLoop`, and in another queues it. -/
theorem lifecycle_send (h : s.Lifecycle cfg) (hcb : s.history.callbacks ≠ []) {message : Message} {w : Option Nat}
    {r : Option (List Byte)} (ht : message.sender = t) (hs : s.run cfg t w r (.send message) = .ok s') :
    s'.Lifecycle cfg := by
  simp only [run, bind_eq_ok, pure_eq_ok, Except.ok.injEq] at hs
  obtain ⟨s₁, hs₁, rfl⟩ := hs
  have h₁ : s₁.Lifecycle cfg := by
    split at hs₁
    · exact lifecycle_sendInLoop h hcb hs₁
    · rename_i hne
      simp only [Except.ok.injEq] at hs₁
      subst hs₁
      exact h.queueInLoop ⟨⟨by rw [ht]; exact hne, hcb⟩, by simp [Stmt.Hop]⟩
  exact ⟨h₁.batched, h₁.placed, h₁.up, h₁.intact, h₁.idle, h₁.destroys, h₁.closes⟩

/-- Every other statement. -/
theorem lifecycle_run (h : s.Lifecycle cfg) {w : Option Nat} {r : Option (List Byte)}
    (hp : s.threads.pop t = some (stmt, th))
    (hs : { s with threads := th }.run cfg t w r stmt = .ok s') : s'.Lifecycle cfg := by
  by_cases hhop : stmt.Hop
  · exact lifecycle_hop h hp hhop hs
  have hst := (h.placed_pop hp).1
  have h₀ := h.pop hp hhop
  simp only [Stmt.Hop, not_or] at hhop
  cases stmt with
  | user => simp [run] at hs
  | acceptLoop => simp [run] at hs
  | connectDestroyed => exact absurd rfl hhop.1
  | removeConnection => exact absurd rfl hhop.2.1
  | removeConnectionInLoop => exact absurd rfl hhop.2.2
  | runConnectEstablished =>
    simp only [run, pure_eq_ok, Except.ok.injEq] at hs
    subst hs
    exact h₀.runInLoop (fun _ => by simp [Stmt.Placed]) (by simp [Stmt.Hop])
  | setCloseCallback =>
    simp only [run, pure_eq_ok, Except.ok.injEq] at hs
    subst hs
    exact ⟨h₀.batched, h₀.placed, h₀.up, h₀.intact.frame h₀.intact.valid rfl rfl, h₀.idle, h₀.destroys,
      h₀.closes⟩
  | connectEstablished => exact lifecycle_connectEstablished h₀ hs
  | removeChannel => exact lifecycle_removeChannel h₀ hs
  | handleClose => exact lifecycle_handleClose h₀ hst.2 hs
  | handleError =>
    simp only [run, pure_eq_ok, Except.ok.injEq] at hs
    exact hs ▸ h₀
  | handleRead revents => exact lifecycle_handleRead h₀ hst.1 hst.2 hs
  | handleWrite => exact lifecycle_handleWrite h₀ hst.2 hs
  | drained =>
    simp only [run] at hs
    split at hs
    · exact lifecycle_shutdownInLoop h₀ hs
    · simp only [pure_eq_ok, Except.ok.injEq] at hs
      exact hs ▸ h₀
  | send message => exact lifecycle_send h₀ hst.2 hst.1 hs
  | sendInLoop message => exact lifecycle_sendInLoop h₀ hst.2 hs
  | setDisconnecting =>
    simp only [run, pure_eq_ok, Except.ok.injEq] at hs
    subst hs
    have hcb : s.history.callbacks ≠ [] := hst
    have h' : { s with
        conn := { s.conn with state := .kDisconnecting }, threads := th }.Lifecycle cfg :=
      ⟨h₀.batched, h₀.placed, by simp [hcb], h₀.intact.frame h₀.intact.valid rfl rfl, h₀.idle,
        h₀.destroys, h₀.closes⟩
    exact h'.push (by simp [Stmt.Placed, Stmt.Hop])
  | runShutdownInLoop =>
    simp only [run] at hs
    split at hs
    · exact lifecycle_shutdownInLoop h₀ hs
    · simp only [pure_eq_ok, Except.ok.injEq] at hs
      subst hs
      exact h₀.queueInLoop (by simp [Stmt.Placed, Stmt.Hop])
  | shutdownInLoop => exact lifecycle_shutdownInLoop h₀ hs

/-- The loop's own code: what is reported is reported for a channel that has been made. -/
theorem lifecycle_loop (h : s.Lifecycle cfg) {mv : EventLoop.Move Handler} (hpoll : s.Pollable cfg t mv)
    (hadv : s.threads.advance Handler.stmts t mv = .ok th) : { s with threads := th }.Lifecycle cfg := by
  obtain ⟨hb, -, -, ⟨active, rfl, -, -, hag⟩ | ⟨-, hag⟩⟩ := agenda_advance h.batched hadv
  · refine h.prepend hb (fun x hx => ?_) hag
    obtain ⟨hd, hin, hx⟩ := polled_stmts hx
    exact handler_stmts h (hpoll.1 _ hin) hx
  · exact h.prepend (t := t) (l := []) hb (by simp) (by simpa using hag)

/-- **One step.** -/
theorem lifecycle_step {a : Label} (h : s.Lifecycle cfg) (hs : s.step cfg a = .ok s') :
    s'.Lifecycle cfg := by
  cases a with
  | loop t mv =>
    simp only [step, bind_eq_ok, enabled_eq_ok, Result.mapFault_eq_ok, pure_eq_ok, Except.ok.injEq] at hs
    obtain ⟨-, ⟨-, hpoll⟩, th, hadv, rfl⟩ := hs
    exact lifecycle_loop h hpoll hadv
  | exec t w r =>
    simp only [step] at hs
    split at hs
    · rename_i stmt th hp
      exact lifecycle_run h hp hs
    · cases hs
  | ret t =>
    simp only [step] at hs
    split at hs
    · rename_i th hp
      simp only [pure_eq_ok, Except.ok.injEq] at hs
      exact hs ▸ h.pop hp (by simp [Stmt.Hop])
    · rename_i th hp
      simp only [pure_eq_ok, Except.ok.injEq] at hs
      exact hs ▸ h.pop hp (by simp [Stmt.Hop])
    · cases hs
  | newConnection wc =>
    simp only [step, bind_eq_ok, enabled_eq_ok, pure_eq_ok, Except.ok.injEq] at hs
    obtain ⟨-, ⟨-, hcreated⟩, rfl⟩ := hs
    have hd := h.destroys
    have hc := h.closes
    rw [hcreated, Bool.toNat_false] at hd hc
    have h' : { s with
        conn := { s.conn with writeCompleteCallback := wc }, created := true
        inConnections := true }.Lifecycle cfg := by
      refine ⟨h.batched, h.placed, h.up, h.intact.frame h.intact.valid rfl rfl, h.idle, ?_, ?_⟩
      · simp only [waiting, Bool.toNat_true] at hd ⊢; omega
      · simp only [waiting, Bool.toNat_true] at hd hc ⊢; omega
    exact h'.push (by simp [Stmt.Placed, Stmt.Hop])
  | send t bytes =>
    simp only [step, bind_eq_ok, enabled_eq_ok] at hs
    obtain ⟨-, ⟨-, hup⟩, hs⟩ := hs
    split at hs
    · simp only [pure_eq_ok, Except.ok.injEq] at hs
      subst hs
      have h' := h.push (t := t) (l := [.send ⟨t, s.history.nextSerial, bytes⟩])
        (by simp [Stmt.Placed, Stmt.Hop, hup])
      exact ⟨h'.batched, h'.placed, h'.up, h'.intact, h'.idle, h'.destroys, h'.closes⟩
    · simp only [pure_eq_ok, Except.ok.injEq] at hs
      exact hs ▸ h
  | shutdown t =>
    simp only [step, bind_eq_ok, enabled_eq_ok] at hs
    obtain ⟨-, ⟨-, hup⟩, hs⟩ := hs
    split at hs
    · simp only [pure_eq_ok, Except.ok.injEq] at hs
      subst hs
      have h' := h.push (t := t) (l := [.setDisconnecting]) (by simp [Stmt.Placed, Stmt.Hop, hup])
      exact ⟨h'.batched, h'.placed, h'.up, h'.intact, h'.idle, h'.destroys, h'.closes⟩
    · simp only [pure_eq_ok, Except.ok.injEq] at hs
      subst hs
      exact ⟨h.batched, h.placed, h.up, h.intact, h.idle, h.destroys, h.closes⟩
  | retrieve len =>
    simp only [step, bind_eq_ok, Result.mapFault_eq_ok, pure_eq_ok, Except.ok.injEq] at hs
    obtain ⟨-, -, b, -, rfl⟩ := hs
    exact ⟨h.batched, h.placed, h.up, h.intact.frame h.intact.valid rfl rfl, h.idle, h.destroys, h.closes⟩
  | queueInLoop t owner =>
    simp only [step, bind_eq_ok, pure_eq_ok, Except.ok.injEq] at hs
    obtain ⟨-, -, rfl⟩ := hs
    exact h.queueInLoop (by simp [Stmt.Placed, Stmt.Hop])
  | quit t owner =>
    simp only [step, bind_eq_ok, pure_eq_ok, Except.ok.injEq] at hs
    obtain ⟨-, -, rfl⟩ := hs
    exact h.prepend (t := t) (l := []) (batched_quit h.batched) (by simp)
      (fun t' => by rw [agenda_quit]; simp)

/-- **The invariant of every run.** -/
theorem lifecycle_of_reachable (h : (tcpServer cfg).Reachable s) : s.Lifecycle cfg :=
  h.invariant (I := Lifecycle cfg)
    (fun s h0 => by obtain ⟨self, sockfd, rfl⟩ := h0; exact lifecycle_start self sockfd)
    (fun _ _ _ _ hI _ hs => lifecycle_step hI hs)

/-- A pending `connectDestroyed` means that the connection was closed. -/
theorem Lifecycle.closed_of_destroying (hl : s.Lifecycle cfg) (hin : .connectDestroyed ∈ s.agenda cfg.io) :
    s.history.closeCalls ≠ 0 ∧ s.history.destroyCalls = 0 := by
  have hone : 0 < s.waiting .connectDestroyed cfg.io := by
    refine Nat.pos_of_ne_zero fun hzero => ?_
    rw [waiting, load, List.sum_eq_zero_iff] at hzero
    exact absurd (hzero _ (List.mem_map_of_mem hin)) (by simp)
  have hd := hl.destroys
  have hc := hl.closes
  have hle := Bool.toNat_le s.created
  omega

end TcpServer

end Irono
