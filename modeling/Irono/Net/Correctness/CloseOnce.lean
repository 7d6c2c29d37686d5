import Irono.Net.Correctness.Callbacks

/-!
# `Net.Correctness.CloseOnce` — how often a connection is closed

`handleClose` disables the channel and leaves `state_` as it was. The close path is taken once as long as
nothing makes it run again before `connectDestroyed`: a `sendInLoop` that cannot write everything brings
the write interest back, and with it the hang-up reports; and a mask with `POLLHUP` and no `POLLIN` closes
first and may then read the end of the stream, which closes again. `ClosesCleanly` rules out the two;
`closed_twice` is a run with the first.
-/

namespace Irono

open Transition Threads

namespace TcpServer

/-- The direct write of `sendInLoop` takes the whole message, or there is nothing to write. -/
def WritesAll (s : TcpServer) (message : Message) (w : Option Nat) : Prop :=
  message.bytes = [] ∨ s.conn.writesDirectly = true ∧ w = some message.bytes.length

instance (s : TcpServer) (message : Message) (w : Option Nat) : Decidable (s.WritesAll message w) :=
  inferInstanceAs (Decidable (_ ∨ _ ∧ _))

/-- `handleEvent` closes for this mask before it reads. -/
def ClosesFirst (revents : Events) : Prop := .POLLHUP ∈ revents ∧ .POLLIN ∉ revents

instance (revents : Events) : Decidable (ClosesFirst revents) := inferInstanceAs (Decidable (_ ∧ _))

/-- A statement does not bring a closed connection back, and does not close in a read after the close of
    the same event. -/
def Stmt.ClosesCleanly (cfg : LoopThreads) (s : TcpServer) (t : ThreadId) (w : Option Nat)
    (r : Option (List Byte)) : Stmt → Prop
  | .handleRead revents => r = some [] → ¬ ClosesFirst revents
  | .send message => t = cfg.io → s.history.closeCalls ≠ 0 → s.WritesAll message w
  | .sendInLoop message => s.history.closeCalls ≠ 0 → s.WritesAll message w
  | _ => True

instance (cfg : LoopThreads) (s : TcpServer) (t : ThreadId) (w : Option Nat) (r : Option (List Byte)) :
    (stmt : Stmt) → Decidable (stmt.ClosesCleanly cfg s t w r)
  | .handleRead revents => inferInstanceAs (Decidable (r = some [] → ¬ ClosesFirst revents))
  | .send message => inferInstanceAs (Decidable (_ → _ → s.WritesAll message w))
  | .sendInLoop message => inferInstanceAs (Decidable (_ → s.WritesAll message w))
  | .user => isTrue trivial
  | .acceptLoop => isTrue trivial
  | .runConnectEstablished => isTrue trivial
  | .setCloseCallback => isTrue trivial
  | .connectEstablished => isTrue trivial
  | .connectDestroyed => isTrue trivial
  | .removeChannel => isTrue trivial
  | .handleClose => isTrue trivial
  | .handleError => isTrue trivial
  | .handleWrite => isTrue trivial
  | .drained => isTrue trivial
  | .removeConnection => isTrue trivial
  | .removeConnectionInLoop => isTrue trivial
  | .setDisconnecting => isTrue trivial
  | .runShutdownInLoop => isTrue trivial
  | .shutdownInLoop => isTrue trivial

/-- The condition on a step. -/
def ClosesCleanly (cfg : LoopThreads) (s : TcpServer) : Label → Prop
  | .exec t w r => ∀ stmt ∈ (s.threads.frames t).head?, stmt.ClosesCleanly cfg s t w r
  | _ => True

instance (cfg : LoopThreads) (s : TcpServer) : (a : Label) → Decidable (s.ClosesCleanly cfg a)
  | .exec t w r => inferInstanceAs (Decidable (∀ stmt ∈ (s.threads.frames t).head?, stmt.ClosesCleanly cfg s t w r))
  | .loop .. => isTrue trivial
  | .ret _ => isTrue trivial
  | .newConnection _ => isTrue trivial
  | .send .. => isTrue trivial
  | .shutdown _ => isTrue trivial
  | .retrieve _ => isTrue trivial
  | .queueInLoop .. => isTrue trivial
  | .quit .. => isTrue trivial

variable {cfg : LoopThreads} {s s' : TcpServer} {t : ThreadId} {th : Threads Handler Stmt} {stmt : Stmt}

/-! ## Before `newConnection` -/

/-- A connection that was not made has no callbacks and none on the way. -/
def Born (s : TcpServer) : Prop :=
  s.created = false → s.history.callbacks = [] ∧
    ∀ t, .connectEstablished ∉ s.agenda t ∧ .runConnectEstablished ∉ s.agenda t

/-- A statement makes no callback of a connection that was not made. -/
theorem born_run (hl : s.Lifecycle cfg) (h : s.Born) {w : Option Nat} {r : Option (List Byte)}
    (hp : s.threads.pop t = some (stmt, th)) (hs : { s with threads := th }.run cfg t w r stmt = .ok s') :
    s'.Born := by
  intro hcreated
  obtain ⟨front, back, hg, hfront, hback⟩ := run_growsBy hs
  have hsame : s'.created = s.created := (run_sameCalls hs).created
  obtain ⟨hnil, hag⟩ := h (hsame ▸ hcreated)
  have hin : ∀ t' x, x ∈ (if t' = t then [stmt] else []) ++ th.agenda Handler.stmts t' → x ∈ s.agenda t' := by
    intro t' x hx
    rw [agenda, agenda_pop hp]; exact hx
  have hstmt : stmt ∈ s.agenda t := hin t stmt (by simp)
  have hne : stmt ≠ .connectEstablished ∧ stmt ≠ .runConnectEstablished :=
    ⟨fun heq => (hag t).1 (heq ▸ hstmt), fun heq => (hag t).2 (heq ▸ hstmt)⟩
  refine ⟨?_, fun t' => ⟨fun hx => ?_, fun hx => ?_⟩⟩
  · -- no callback without the first
    have hst := (hl.placed_pop hp).1
    have hdown : stmt ≠ .connectDestroyed := by
      rintro rfl
      simp only [run, bind_eq_ok, Result.mapFault_eq_ok] at hs
      obtain ⟨-, -, conn, hconn, -⟩ := hs
      obtain ⟨hstate, -⟩ := TcpConnection.connectDestroyed_cases hconn
      have hk : s.conn.state = .kConnecting := hl.up.mpr hnil
      simp [hk] at hstate
    have hread : ∀ revents, stmt ≠ .handleRead revents := by
      rintro revents rfl
      exact hst.2 hnil
    rw [(run_silent (s := { s with threads := th }) hl.intact.valid hs hne.1 hdown hread).callbacks]
    exact hnil
  · rw [hg.agendas, List.mem_append, List.mem_append] at hx
    rcases hx with (hx | hx) | hx
    · split at hx
      · have := hfront _ hx
        cases stmt <;> simp [Stmt.Begins] at this hne
      · cases hx
    · exact (hag t').1 (hin t' _ (List.mem_append_right _ hx))
    · have := hback t' _ hx
      cases stmt <;> simp [Stmt.Queues] at this hne
  · rw [hg.agendas, List.mem_append, List.mem_append] at hx
    rcases hx with (hx | hx) | hx
    · split at hx
      · have := hfront _ hx
        cases stmt <;> simp [Stmt.Begins] at this
      · cases hx
    · exact (hag t').2 (hin t' _ (List.mem_append_right _ hx))
    · have := hback t' _ hx
      cases stmt <;> simp [Stmt.Queues] at this

/-- **One step.** -/
theorem born_step {a : Label} (hl : s.Lifecycle cfg) (h : s.Born) (hs : s.step cfg a = .ok s') : s'.Born := by
  rcases step_cases hs with ⟨t, w, r, stmt, th, rfl, hp, hrun⟩ | ⟨t, mv, th, rfl, hpoll, hadv, rfl⟩ |
    ⟨t, stmt, th, rfl, hst, hp, rfl⟩ | ⟨hout, hmono, t, front, back, hg, -, hfront, hback, -⟩
  · exact born_run hl h hp hrun
  · obtain ⟨-, -, -, hcase⟩ := agenda_advance hl.batched hadv
    intro hcr
    refine ⟨(h hcr).1, fun t' => ?_⟩
    have hno := (h hcr).2 t'
    rcases hcase with ⟨active, rfl, -, -, hag⟩ | ⟨-, hag⟩
    · simp only [agenda, hag, List.mem_append, not_or]
      refine ⟨⟨fun hin => ?_, hno.1⟩, ⟨fun hin => ?_, hno.2⟩⟩ <;>
      · split at hin
        · obtain ⟨hd, -, hst⟩ := polled_stmts hin
          cases hd with
          | acceptor => simp [Handler.stmts] at hst
          | user => simp [Handler.stmts] at hst
          | connection revents => rcases callbackStmt_cases hst with h | h | h | h <;> cases h
        · cases hin
    · simpa only [agenda, hag] using hno
  · intro hcr
    refine ⟨(h hcr).1, fun t' => ?_⟩
    have hno := (h hcr).2 t'
    simp only [agenda, agenda_pop hp, List.mem_append, not_or] at hno
    exact ⟨hno.1.2, hno.2.2⟩
  · intro hcr
    have hcr' : s.created = false := by
      by_contra hne
      rw [hmono (by simpa using hne)] at hcr
      cases hcr
    obtain ⟨hnil, hag⟩ := h hcr'
    refine ⟨by rw [hout.callbacks]; exact hnil, fun t' => ?_⟩
    have hno := hag t'
    rw [hg.agendas]
    simp only [List.mem_append, not_or]
    refine ⟨⟨⟨fun hin => ?_, hno.1⟩, fun hin => by cases hback t' _ hin⟩,
      ⟨⟨fun hin => ?_, hno.2⟩, fun hin => by cases hback t' _ hin⟩⟩
    · split at hin
      · exact (hfront _ hin).elim
      · cases hin
    · split at hin
      · have hcr'' : s'.created = true := hfront _ hin
        rw [hcr] at hcr''
        cases hcr''
      · cases hin

theorem born_of_reachable (h : (tcpServer cfg).Reachable s) : s.Born :=
  h.invariant (I := Born)
    (fun s h0 => by
      obtain ⟨self, sockfd, rfl⟩ := h0
      intro _
      refine ⟨rfl, fun t => ?_⟩
      simp [start, agenda])
    (fun _ _ _ hr hI _ hs => born_step (lifecycle_of_reachable hr.reachable) hI hs)

/-! ## Counting what closes -/

/-- How often the statement can lead to `closeCallback_`. -/
def Stmt.closes : Stmt → Nat
  | .handleClose => 1
  | .handleRead revents => if ClosesFirst revents then 0 else 1
  | _ => 0

/-- The closes that are on the agenda of the I/O loop. -/
def closing (cfg : LoopThreads) (s : TcpServer) : Nat :=
  s.threads.load Handler.stmts Stmt.closes cfg.io

/-- The channel between `connectEstablished` and `removeChannel`. -/
structure Registered (cfg : LoopThreads) (s : TcpServer) : Prop where
  /-- until the close, the connection is registered for reading -/
  opened : s.history.callbacks ≠ [] → s.history.closeCalls = 0 →
    s.conn.channel.index = EPoller.kAdded ∧ .POLLIN ∈ s.conn.channel.events
  /-- from then on it is not registered, but for a moment inside `connectDestroyed` -/
  shut : s.history.closeCalls ≠ 0 → s.conn.channel.events = ∅ ∧
    (s.conn.channel.index ≠ EPoller.kAdded ∨ .removeChannel ∈ s.threads.frames cfg.io)

/-- **The invariant.** -/
structure OneClose (cfg : LoopThreads) (s : TcpServer) : Prop where
  once : s.closing cfg + s.history.closeCalls ≤ 1
  functors : ∀ x ∈ s.threads.functors cfg.io, x.closes = 0
  born : s.Born
  up : s.history.closeCalls ≠ 0 → s.history.callbacks ≠ []
  gone : s.conn.state = .kDisconnected → s.history.destroyCalls ≠ 0
  registered : s.Registered cfg

/-- The connection is not made, and nothing on the agenda closes it. -/
theorem oneClose_start (self : Addr) (sockfd : Int) : (start self sockfd).OneClose cfg := by
  refine ⟨?_, ?_, fun _ => ⟨rfl, fun t => ?_⟩, ?_, ?_, ?_, ?_⟩
  · simp [start, closing, load]
  · simp [start, Threads.functors, Threads.start, EventLoop.new]
  · simp [start, agenda]
  all_goals simp [start, TcpConnection.new]

theorem closes_sum_zero {l : List Stmt} (h : ∀ x ∈ l, x.closes = 0) : (l.map Stmt.closes).sum = 0 := by
  rw [List.sum_eq_zero_iff]
  intro n hn
  obtain ⟨x, hx, rfl⟩ := List.mem_map.mp hn
  exact h x hx

theorem Stmt.Queues.closes_eq_zero {x : Stmt} (h : stmt.Queues x) : x.closes = 0 := by
  cases x with
  | handleClose => cases stmt <;> simp [Stmt.Queues] at h
  | handleRead revents => exact absurd h Stmt.Queues.ne_handleRead
  | _ => rfl

/-- Only a read goes on with something that closes. -/
theorem Stmt.Begins.closes_eq_zero {x : Stmt} (h : stmt.Begins x)
    (hread : ∀ revents, stmt ≠ .handleRead revents) : x.closes = 0 := by
  cases x with
  | handleClose => cases stmt <;> simp [Stmt.Begins] at h hread
  | handleRead revents => exact absurd h Stmt.Begins.ne_handleRead
  | _ => rfl

/-- The callbacks of one event lead to one close at most. -/
theorem closes_connection (revents : Events) :
    ((Handler.connection revents).stmts.map Stmt.closes).sum ≤ 1 := by
  have hother : (callbackStmt revents .close).closes = 1 ∧ (callbackStmt revents .error).closes = 0 ∧
    (callbackStmt revents .write).closes = 0 := ⟨rfl, rfl, rfl⟩
  simp only [Handler.stmts, Channel.callbacks, List.map_append, List.sum_append]
  by_cases h : ClosesFirst revents
  · have hread : (callbackStmt revents .read).closes = 0 := if_pos h
    split_ifs <;> simp [hread, hother]
  · have hread : (callbackStmt revents .read).closes = 1 := if_neg h
    rw [if_neg (show ¬ (.POLLHUP ∈ revents ∧ .POLLIN ∉ revents) from h)]
    split_ifs <;> simp [hread, hother]

/-- What `poll` reports leads to as many closes as it reports the connection. -/
theorem closes_polled (active : List (Active Handler)) :
    (((EventLoop.handlers active).flatMap (stmts Handler.stmts)).map Stmt.closes).sum ≤
      active.countP isConnection := by
  induction active with
  | nil => simp [EventLoop.handlers]
  | cons a rest ih =>
    cases a with
    | wakeupChannel => simpa [EventLoop.handlers, isConnection] using ih
    | channel hd =>
      have hcons : EventLoop.handlers (F := Stmt) (.channel hd :: rest) =
          .handler hd :: EventLoop.handlers rest := rfl
      rw [hcons, List.flatMap_cons, List.map_append, List.sum_append, List.countP_cons]
      cases hd with
      | acceptor => simpa [stmts, Handler.stmts, Stmt.closes, isConnection] using ih
      | user => simpa [stmts, Handler.stmts, Stmt.closes, isConnection] using ih
      | connection revents =>
        have hone := closes_connection revents
        simp only [stmts, isConnection, if_true]
        omega

/-! ## The channel -/

/-- After the close the kernel takes every byte, so the channel stays as it is. -/
theorem sendInLoop_closed {message : Message} {w : Option Nat} {c' : TcpConnection} {wc : Bool}
    (hv : s.conn.outputBuffer.Valid) (hall : s.WritesAll message w)
    (hs : s.conn.sendInLoop message.bytes w = .ok (c', wc)) : c'.channel = s.conn.channel := by
  obtain ⟨-, -, -, ⟨-, -, hch, -⟩ | ⟨hlt, -⟩⟩ := TcpConnection.sendInLoop_cases hv hs
  · exact hch
  · exfalso
    rcases hall with hnil | ⟨hd, rfl⟩
    · simp [hnil] at hlt
    · simp [TcpConnection.nwrote, hd] at hlt

/-- What the I/O loop has begun, it keeps until it comes to it. -/
theorem Registered.pop (h : s.Registered cfg) (hp : s.threads.pop t = some (stmt, th))
    (hne : stmt ≠ .removeChannel) : { s with threads := th }.Registered cfg := by
  refine ⟨h.opened, fun hc => ⟨(h.shut hc).1, (h.shut hc).2.imp_right fun hin => ?_⟩⟩
  obtain ⟨hself, hother⟩ := frames_pop hp
  by_cases ht : cfg.io = t
  · rw [ht, hself, List.mem_cons] at hin
    rcases hin with heq | hin
    · exact absurd heq.symm hne
    · rw [ht]; exact hin
  · rw [← hother _ ht] at hin
    exact hin

/-- What leaves the channel and the number of closes as they are keeps this. -/
theorem Registered.of_channel (h : s.Registered cfg) {front : List Stmt} {back : ThreadId → List Stmt}
    (hg : Grows t s s' front back) (hcb : s'.history.callbacks ≠ [] → s.history.callbacks ≠ [])
    (hcl : s'.history.closeCalls = s.history.closeCalls) (hch : s'.conn.channel = s.conn.channel) :
    s'.Registered cfg := by
  obtain ⟨hopened, hshut⟩ := h
  rw [← hch, ← hcl] at hopened hshut
  refine ⟨fun hup => hopened (hcb hup), fun hc => ⟨(hshut hc).1, (hshut hc).2.imp_right fun hin => ?_⟩⟩
  rw [hg.frames]
  exact List.mem_append_right _ hin

/-- `sendInLoop` does not bring a closed connection back, under the condition. -/
theorem registered_sendInLoop (h : s.Registered cfg) (hv : s.conn.outputBuffer.Valid) {message : Message}
    {w : Option Nat} (hall : s.history.closeCalls ≠ 0 → s.WritesAll message w)
    (hs : s.sendInLoop cfg t message w = .ok s') : s'.Registered cfg := by
  have hgrows : GrowsBy (.sendInLoop message) t s s' := sendInLoop_growsBy hs rfl
  obtain ⟨front, back, hg, -⟩ := hgrows
  obtain ⟨-, conn, wc, hconn, rfl⟩ := sendInLoop_eq hs
  by_cases hc : s.history.closeCalls = 0
  · obtain ⟨-, -, -, ⟨-, -, hch, -⟩ | ⟨-, -, ⟨-, hch, -⟩ | ⟨-, hch, hu⟩⟩⟩ :=
      TcpConnection.sendInLoop_cases hv hconn
    · exact h.of_channel hg id rfl hch
    · exact h.of_channel hg id rfl hch
    · -- the write interest comes on top of the read interest
      refine ⟨fun hup _ => ?_, fun hc' => absurd hc hc'⟩
      obtain ⟨-, hin⟩ := h.opened hup hc
      have hev : conn.channel.events = s.conn.channel.events ∪ Channel.kWriteEvent := by rw [hch]; rfl
      have hin' : .POLLIN ∈ conn.channel.events := by rw [hev]; exact Finset.mem_union_left _ hin
      rcases hu with ⟨-, hempty, -⟩ | ⟨-, hidx, -⟩
      · have hev' : conn.channel.events = ∅ := by rw [hev]; exact hempty
        rw [hev'] at hin'
        exact absurd hin' (Finset.notMem_empty _)
      · exact ⟨hidx, hin'⟩
  · exact h.of_channel hg id rfl (sendInLoop_closed hv (hall hc) hconn)

/-- Nor does any statement under the condition. -/
theorem registered_run (hl : s.Lifecycle cfg) (h : s.OneClose cfg) {w : Option Nat} {r : Option (List Byte)}
    (hc : stmt.ClosesCleanly cfg s t w r) (hp : s.threads.pop t = some (stmt, th))
    (hs : { s with threads := th }.run cfg t w r stmt = .ok s') : s'.Registered cfg := by
  obtain ⟨front, back, hg, hfront, hback⟩ := run_growsBy hs
  obtain ⟨hclose, -, -⟩ := run_counts (s := { s with threads := th }) hl.intact.valid hs
  have hst := (hl.placed_pop hp).1
  by_cases hq : stmt.Quiet
  · obtain ⟨hout, hcb, -⟩ := run_quiet hq hs
    refine (h.registered.pop hp (by rintro rfl; exact hq)).of_channel hg (fun hup => ?_) hout.closeCalls hout.channel
    rcases hcb with hcb | ⟨⟨revents, rfl⟩, -⟩
    · rwa [hcb] at hup
    · exact hst.2
  -- what is left writes to the channel or closes
  cases stmt with
  | connectEstablished =>
    simp only [run, bind_eq_ok, Result.mapFault_eq_ok, pure_eq_ok, Except.ok.injEq] at hs
    obtain ⟨-, -, conn, hconn, rfl⟩ := hs
    obtain ⟨hstate, -, hch, hu⟩ := TcpConnection.connectEstablished_cases hconn
    have hzero : s.history.closeCalls = 0 := by
      by_contra hne
      exact h.up hne (hl.up.mp hstate)
    have hin : .POLLIN ∈ conn.channel.events := by
      rw [hch]; simp [Channel.enableReading, Channel.kReadEvent]
    refine ⟨fun _ _ => ⟨?_, hin⟩, fun hne => absurd hzero hne⟩
    rcases hu with ⟨-, hempty, -⟩ | ⟨-, hidx, -⟩
    · have hev : conn.channel.events = ∅ := by rw [hch]; exact hempty
      rw [hev] at hin
      exact absurd hin (Finset.notMem_empty _)
    · exact hidx
  | connectDestroyed =>
    simp only [run, bind_eq_ok, require_eq_ok, Result.mapFault_eq_ok, pure_eq_ok, Except.ok.injEq] at hs
    obtain ⟨-, rfl, conn, hconn, rfl⟩ := hs
    obtain ⟨-, -, hch, -⟩ := TcpConnection.connectDestroyed_cases hconn
    -- it was queued by the close
    obtain ⟨hne, -⟩ := hl.closed_of_destroying (by rw [agenda, agenda_pop hp]; simp)
    refine ⟨fun _ hzero => absurd hzero hne, fun _ => ⟨by rw [hch]; rfl, .inr ?_⟩⟩
    simp [Threads.push]
  | removeChannel =>
    simp only [run, bind_eq_ok, Result.mapFault_eq_ok, pure_eq_ok, Except.ok.injEq] at hs
    obtain ⟨-, -, conn, hconn, rfl⟩ := hs
    obtain ⟨-, hch, hempty, -⟩ := TcpConnection.removeChannel_cases hconn
    have hempty : s.conn.channel.events = ∅ := hempty
    refine ⟨fun hup hzero => ?_, fun _ => ⟨by rw [hch]; exact hempty,
      .inl (by rw [hch]; exact (show EPoller.kNew ≠ EPoller.kAdded by decide))⟩⟩
    have hin := (h.registered.opened hup hzero).2
    rw [hempty] at hin
    exact absurd hin (Finset.notMem_empty _)
  | handleClose =>
    simp only [run, bind_eq_ok, Result.mapFault_eq_ok, pure_eq_ok, Except.ok.injEq] at hs
    obtain ⟨-, -, conn, hconn, rfl⟩ := hs
    obtain ⟨-, -, hch, hu⟩ := TcpConnection.handleClose_cases hconn
    -- this is the only close, so nothing has been closed before
    have hone := h.once
    rw [closing, load_pop hp, if_pos hst.1.symm] at hone
    have hone' : 1 + load Handler.stmts Stmt.closes th cfg.io + s.history.closeCalls ≤ 1 := hone
    obtain ⟨hidx, -⟩ := h.registered.opened hst.2 (by omega)
    refine ⟨fun _ hzero => by simp at hzero, fun _ => ⟨by rw [hch]; rfl, .inl ?_⟩⟩
    rcases hu with ⟨-, -, hidx', -⟩ | ⟨hne, -, -⟩
    · simp only [hidx']; decide
    · exact absurd rfl (hne hidx)
  | handleWrite =>
    have h₀ := h.registered.pop hp (by simp)
    obtain ⟨conn, drained, hconn, rfl⟩ := run_handleWrite hs
    obtain ⟨-, -, -, ⟨-, rfl⟩ | ⟨-, -, -, hch, -⟩ | ⟨-, hw, -, hch, hu⟩⟩ :=
      TcpConnection.handleWrite_cases (c := s.conn) hl.intact.valid hconn
    · exact h₀.of_channel hg id rfl rfl
    · exact h₀.of_channel hg id rfl hch
    · -- the buffer was drained, so the connection is not closed; the read interest stays
      have hzero : s.history.closeCalls = 0 := by
        by_contra hne
        rw [Channel.isWriting_iff, (h.registered.shut hne).1] at hw
        exact absurd hw (Finset.notMem_empty _)
      refine ⟨fun hup _ => ?_, fun hne => absurd hzero hne⟩
      obtain ⟨-, hin⟩ := h.registered.opened hup hzero
      have hin' : .POLLIN ∈ conn.channel.events := by
        rw [hch]; simpa [Channel.disableWriting, Channel.kWriteEvent] using hin
      rcases hu with ⟨-, hempty, -⟩ | ⟨-, hidx, -⟩
      · have hev : conn.channel.events = ∅ := by rw [hch]; exact hempty
        rw [hev] at hin'
        exact absurd hin' (Finset.notMem_empty _)
      · exact ⟨hidx, hin'⟩
  | send message =>
    have h₀ := h.registered.pop hp (by simp)
    simp only [run, bind_eq_ok, pure_eq_ok, Except.ok.injEq] at hs
    obtain ⟨s₁, hs₁, rfl⟩ := hs
    split at hs₁
    · rename_i ht
      have h₁ := registered_sendInLoop h₀ hl.intact.valid (fun hne => hc ht hne) hs₁
      exact ⟨h₁.opened, h₁.shut⟩
    · simp only [Except.ok.injEq] at hs₁
      subst hs₁
      exact h₀.of_channel hg id rfl rfl
  | sendInLoop message =>
    exact registered_sendInLoop (h.registered.pop hp (by simp)) hl.intact.valid (fun hne => hc hne) hs
  | _ => exact absurd trivial hq

/-! ## Statements -/

/-- It makes no more closes than it takes off the agenda. -/
theorem closing_run (hl : s.Lifecycle cfg) {w : Option Nat} {r : Option (List Byte)}
    (hc : stmt.ClosesCleanly cfg s t w r) (hp : s.threads.pop t = some (stmt, th))
    (hs : { s with threads := th }.run cfg t w r stmt = .ok s') :
    s'.closing cfg + s'.history.closeCalls ≤ s.closing cfg + s.history.closeCalls := by
  obtain ⟨front, back, hg, hfront, hback⟩ := run_growsBy hs
  obtain ⟨hclose, -, -⟩ := run_counts (s := { s with threads := th }) hl.intact.valid hs
  have hclose : s'.history.closeCalls = s.history.closeCalls + (if stmt = .handleClose then 1 else 0) := hclose
  have hst := (hl.placed_pop hp).1
  have hbefore : s.closing cfg = (if cfg.io = t then stmt.closes else 0) + load Handler.stmts Stmt.closes th cfg.io :=
    load_pop hp cfg.io
  have hafter : s'.closing cfg =
      (if cfg.io = t then (front.map Stmt.closes).sum else 0) + load Handler.stmts Stmt.closes th cfg.io := by
    have hzero := closes_sum_zero (fun x hx => (hback cfg.io x hx).closes_eq_zero)
    have hag := hg.agendas cfg.io
    simp only [agenda] at hag
    simp only [closing, load, hag, List.map_append, List.sum_append, hzero]
    split <;> simp
  by_cases hread : ∃ revents, stmt = .handleRead revents
  · obtain ⟨revents, rfl⟩ := hread
    -- a read that closes stands for one close itself
    have hfr : (front.map Stmt.closes).sum ≤ (Stmt.handleRead revents).closes := by
      obtain ⟨conn, next, callbacks, -, rfl, hnext⟩ := run_handleRead hs
      rw [hg.front_of_push rfl]
      rcases hnext with ⟨rfl, -⟩ | ⟨rfl, -, rfl⟩ | ⟨rfl, -⟩
      · simp [Stmt.closes]
      · simp [Stmt.closes, if_neg (hc rfl)]
      · simp [Stmt.closes]
    rw [if_neg (by simp)] at hclose
    rw [if_pos hst.1.symm] at hbefore hafter
    omega
  · have hfr : (front.map Stmt.closes).sum = 0 :=
      closes_sum_zero fun x hx => (hfront x hx).closes_eq_zero (by simpa using hread)
    rw [hfr, ite_self] at hafter
    by_cases hcl : stmt = .handleClose
    · subst hcl
      rw [if_pos hst.1.symm] at hbefore
      simp only [if_true] at hclose
      have hone : Stmt.handleClose.closes = 1 := rfl
      omega
    · rw [if_neg hcl] at hclose
      omega

/-- **A statement** under the condition. -/
theorem oneClose_run (hl : s.Lifecycle cfg) (h : s.OneClose cfg) {w : Option Nat} {r : Option (List Byte)}
    (hc : stmt.ClosesCleanly cfg s t w r) (hp : s.threads.pop t = some (stmt, th))
    (hs : { s with threads := th }.run cfg t w r stmt = .ok s') : s'.OneClose cfg := by
  obtain ⟨front, back, hg, -, hback⟩ := run_growsBy hs
  obtain ⟨hclose, hdestroy, hstate⟩ := run_counts (s := { s with threads := th }) hl.intact.valid hs
  have hst := (hl.placed_pop hp).1
  refine ⟨(closing_run hl hc hp hs).trans h.once, fun x hx => ?_, born_run hl h.born hp hs, fun hne => ?_,
    fun hd => ?_, registered_run hl h hc hp hs⟩
  · rw [hg.functors, List.mem_append] at hx
    rcases hx with hx | hx
    · exact h.functors x (functors_pop hp cfg.io ▸ hx)
    · exact (hback cfg.io x hx).closes_eq_zero
  · -- a close needs a connection that is up
    have hup : s.history.callbacks ≠ [] := by
      by_cases hcl : stmt = .handleClose
      · subst hcl; exact hst.2
      · rw [hclose, if_neg hcl] at hne
        exact h.up hne
    exact run_callbacks (s := { s with threads := th }) hl.intact.valid hs hup
  · rw [hdestroy]
    rcases hstate with hstate | ⟨-, hstate⟩ | ⟨-, hstate⟩ | ⟨rfl, -⟩
    · have hpos := h.gone (hstate ▸ hd)
      simp only
      omega
    · rw [hstate] at hd; cases hd
    · rw [hstate] at hd; cases hd
    · simp

/-! ## Steps -/

/-- What is reported while nothing else is to be done: one event of a connection that is not closed. -/
theorem closing_polled (hl : s.Lifecycle cfg) (h : s.OneClose cfg) {active : List (Active Handler)}
    (hpoll : s.Pollable cfg t (.poll active)) (hframes : s.threads.frames t = [])
    (hag : s.threads.agenda Handler.stmts t = (s.threads.loops t).pendingFunctors)
    (hag' : ∀ t', th.agenda Handler.stmts t' =
      (if t' = t then (EventLoop.handlers active).flatMap (stmts Handler.stmts) else []) ++ s.agenda t') :
    ({ s with threads := th } : TcpServer).closing cfg + s.history.closeCalls ≤ 1 := by
  have hone := h.once
  simp only [closing, load, hag', List.map_append, List.sum_append]
  split
  · rename_i ht
    subst ht
    have hzero : ((s.agenda cfg.io).map Stmt.closes).sum = 0 := by
      rw [agenda, hag]
      exact closes_sum_zero fun x hx => h.functors x (List.mem_append_right _ hx)
    have hle := closes_polled active
    by_cases hc : s.history.closeCalls = 0
    · have := hpoll.2
      omega
    · -- a closed connection is not reported
      have hcount : active.countP isConnection = 0 := by
        rw [List.countP_eq_zero]
        intro a ha hconn
        cases a with
        | wakeupChannel => cases hconn
        | channel hd =>
          cases hd with
          | acceptor => cases hconn
          | user => cases hconn
          | connection revents =>
            obtain ⟨-, -, hidx, -⟩ := hl.up_of_reportable (hpoll.1 _ ha)
            rcases (h.registered.shut hc).2 with hidx' | hin
            · exact hidx' hidx
            · rw [hframes] at hin; cases hin
      simp only [closing] at hone
      omega
  · simpa [closing, load] using hone

/-- **One step** under the condition. -/
theorem oneClose_step {a : Label} (hl : s.Lifecycle cfg) (h : s.OneClose cfg) (hc : s.ClosesCleanly cfg a)
    (hs : s.step cfg a = .ok s') : s'.OneClose cfg := by
  have hborn := born_step hl h.born hs
  rcases step_cases hs with ⟨t, w, r, stmt, th, rfl, hp, hrun⟩ | ⟨t, mv, th, rfl, hpoll, hadv, rfl⟩ |
    ⟨t, stmt, th, rfl, hst, hp, rfl⟩ | ⟨hout, -, t, front, back, hg, -, hfront, hback, -⟩
  · have hhead : stmt ∈ (s.threads.frames t).head? := by rw [(frames_pop hp).1]; rfl
    exact oneClose_run hl h (hc stmt hhead) hp hrun
  · obtain ⟨-, hframes, hother, hcase⟩ := agenda_advance hl.batched hadv
    have hfun : ∀ x ∈ th.functors cfg.io, x.closes = 0 :=
      fun x hx => h.functors x (functors_advance hl.batched hadv hx)
    -- `removeChannel` is not on the frames of a loop that moves on
    have hreg : ({ s with threads := th } : TcpServer).Registered cfg := by
      refine ⟨h.registered.opened, fun hne => ⟨(h.registered.shut hne).1,
        (h.registered.shut hne).2.imp_right fun hin => ?_⟩⟩
      by_cases ht : cfg.io = t
      · rw [ht, hframes] at hin; cases hin
      · rw [← hother _ ht] at hin; exact hin
    refine ⟨?_, hfun, hborn, h.up, h.gone, hreg⟩
    rcases hcase with ⟨active, rfl, -, hag, hag'⟩ | ⟨-, hag'⟩
    · exact closing_polled hl h hpoll hframes hag hag'
    · simpa only [closing, load, hag'] using h.once
  · have hne : stmt ≠ .removeChannel := by rcases hst with rfl | rfl <;> simp
    have hzero : stmt.closes = 0 := by rcases hst with rfl | rfl <;> rfl
    refine ⟨?_, fun x hx => h.functors x (functors_pop hp cfg.io ▸ hx), hborn, h.up, h.gone,
      h.registered.pop hp hne⟩
    have hone := h.once
    simpa only [closing, load_pop hp, hzero, ite_self, zero_add] using hone
  · refine ⟨?_, fun x hx => ?_, hborn, ?_, ?_,
      h.registered.of_channel hg (by rw [hout.callbacks]; exact id) hout.closeCalls hout.channel⟩
    · have hf : ((if cfg.io = t then front else []).map Stmt.closes).sum = 0 := by
        refine closes_sum_zero fun x hx => ?_
        split at hx
        · have := hfront x hx
          cases x <;> first | rfl | exact this.elim
        · cases hx
      have hb : ((back cfg.io).map Stmt.closes).sum = 0 :=
        closes_sum_zero fun x hx => by rw [hback cfg.io x hx]; rfl
      have hag := hg.agendas cfg.io
      simp only [agenda] at hag
      simp only [closing, load, hag, List.map_append, List.sum_append, hf, hb, hout.closeCalls, zero_add, add_zero]
      exact h.once
    · rw [hg.functors, List.mem_append] at hx
      rcases hx with hx | hx
      · exact h.functors x hx
      · rw [hback cfg.io x hx]; rfl
    · rw [hout.closeCalls, hout.callbacks]; exact h.up
    · rw [hout.state, hout.destroyCalls]; exact h.gone

theorem oneClose_of_reach (h : (tcpServer cfg).Reach (ClosesCleanly cfg) s) : s.OneClose cfg :=
  h.invariant (I := OneClose cfg)
    (fun s h0 => by obtain ⟨self, sockfd, rfl⟩ := h0; exact oneClose_start self sockfd)
    (fun _ _ _ hr hI hc hs => oneClose_step (lifecycle_of_reachable hr.reachable) hI hc hs)

/-! ## The asserts -/

/-- The asserts of the close path. -/
def Fault.OfClosing : Fault → Prop
  | .eraseConnection => True
  | .connection .handleClose => True
  | .connection .connectDestroyed => True
  | _ => False

/-- What can go wrong on the close path: an assert, or the call of an empty `closeCallback_`. -/
def Fault.OfClosePath : Fault → Prop
  | .eraseConnection => True
  | .connection .handleClose => True
  | .connection .connectDestroyed => True
  | .connection .emptyCloseCallback => True
  | _ => False

theorem Fault.OfClosing.closePath {f : Fault} (h : f.OfClosing) :
    f.OfClosePath ∧ f ≠ .connection .emptyCloseCallback := by
  refine ⟨?_, by rintro rfl; exact h⟩
  unfold Fault.OfClosing at h
  split at h <;> trivial

theorem update_fault {c : TcpConnection} {channel : Channel} {f : TcpConnection.Fault}
    (h : c.update channel = .error (.fault f)) : ∃ e, f = .poller e := by
  simp only [TcpConnection.update, bind_eq_error, Result.mapFault_eq_fault, pure_eq_ok, reduceCtorEq,
    and_false, exists_false, or_false] at h
  obtain ⟨e, -, rfl⟩ := h
  exact ⟨e, rfl⟩

/-- What can fail in `sendInLoop` is not on the close path. -/
theorem sendInLoop_fault {message : Message} {w : Option Nat} {f : Fault}
    (h : s.sendInLoop cfg t message w = .error (.fault f)) : ¬ f.OfClosePath := by
  simp only [sendInLoop, bind_eq_error, require_eq_error, Stop.fault.injEq, Result.mapFault_eq_fault,
    pure_eq_ok, reduceCtorEq, and_false, exists_false, or_false] at h
  rcases h with ⟨-, rfl⟩ | ⟨-, -, e, h, rfl⟩
  · exact id
  simp only [TcpConnection.sendInLoop, bind_eq_error, enabled_eq_error, reduceCtorEq, and_false, false_or] at h
  obtain ⟨-, -, h⟩ := h
  split at h
  · simp only [bind_eq_error, Result.mapFault_eq_fault, pure_eq_ok, reduceCtorEq, and_false,
      exists_false, or_false] at h
    rcases h with ⟨e', -, rfl⟩ | ⟨b, -, h⟩
    · exact id
    · split at h
      · cases h
      · obtain ⟨e', rfl⟩ := update_fault h
        exact id
  · cases h

/-- Nor is what can fail in `shutdownInLoop`. -/
theorem shutdownInLoop_fault {f : Fault} (h : s.shutdownInLoop cfg t = .error (.fault f)) :
    ¬ f.OfClosePath := by
  simp only [shutdownInLoop, bind_eq_error, require_eq_error, Stop.fault.injEq, pure_eq_ok, reduceCtorEq,
    and_false, exists_false, or_false] at h
  rw [h.2]
  exact id

/-- The faults of `connectEstablished` are others. -/
theorem connectEstablished_fault {w : Option Nat} {r : Option (List Byte)} {f : Fault}
    (hs : s.run cfg t w r .connectEstablished = .error (.fault f)) : ¬ f.OfClosePath := by
  intro hf
  simp only [run, bind_eq_error, require_eq_error, Stop.fault.injEq, Result.mapFault_eq_fault,
    pure_eq_ok, reduceCtorEq, and_false, exists_false, or_false] at hs
  rcases hs with ⟨-, rfl⟩ | ⟨-, -, e, hs, rfl⟩
  · exact hf.elim
  · simp only [TcpConnection.connectEstablished, bind_eq_error, require_eq_error, Stop.fault.injEq] at hs
    rcases hs with ⟨-, rfl⟩ | ⟨-, -, hs⟩
    · exact hf.elim
    · obtain ⟨e', rfl⟩ := update_fault hs
      exact hf.elim

/-- So are those of `handleRead`, before it closes, -/
theorem handleRead_fault {revents : Events} {w : Option Nat} {r : Option (List Byte)} {f : Fault}
    (hs : s.run cfg t w r (.handleRead revents) = .error (.fault f)) : ¬ f.OfClosePath := by
  intro hf
  simp only [run, bind_eq_error, Result.mapFault_eq_fault] at hs
  rcases hs with ⟨e, hs, rfl⟩ | ⟨conn, -, hs⟩
  · simp only [TcpConnection.readInput, bind_eq_error, enabled_eq_error, Result.mapFault_eq_fault,
      pure_eq_ok, reduceCtorEq, and_false, exists_false, or_false, false_or] at hs
    obtain ⟨-, -, e', -, rfl⟩ := hs
    exact hf.elim
  · cases r with
    | none => cases hs
    | some bytes => cases bytes <;> cases hs

/-- and those of `handleWrite`. -/
theorem handleWrite_fault {w : Option Nat} {r : Option (List Byte)} {f : Fault}
    (hs : s.run cfg t w r .handleWrite = .error (.fault f)) : ¬ f.OfClosePath := by
  intro hf
  simp only [run, bind_eq_error, require_eq_error, Stop.fault.injEq, Result.mapFault_eq_fault] at hs
  rcases hs with ⟨-, rfl⟩ | ⟨-, -, ⟨e, hs, rfl⟩ | ⟨a, -, hs⟩⟩
  · exact hf.elim
  · unfold TcpConnection.handleWrite at hs
    split at hs
    · simp only [bind_eq_error, enabled_eq_error, Result.mapFault_eq_fault, reduceCtorEq, and_false,
        false_or] at hs
      rcases hs with ⟨-, -, ⟨e', -, rfl⟩ | ⟨b, -, hs⟩⟩
      · exact hf.elim
      · split at hs
        · simp only [bind_eq_error, pure_eq_ok, reduceCtorEq, and_false, exists_false, or_false] at hs
          obtain ⟨e', rfl⟩ := update_fault hs
          exact hf.elim
        · cases hs
    · cases hs
  · split at hs <;> cases hs

/-- The asserts of the close path are where they are. -/
theorem run_fault {w : Option Nat} {r : Option (List Byte)} {f : Fault} (hf : f.OfClosePath)
    (hs : s.run cfg t w r stmt = .error (.fault f)) :
    (f.OfClosing ∧ (stmt = .removeConnectionInLoop ∧ t = cfg.base ∧ s.inConnections = false ∨
      (stmt = .handleClose ∨ stmt = .connectDestroyed) ∧ t = cfg.io ∧
        ¬ (s.conn.state = .kConnected ∨ s.conn.state = .kDisconnecting))) ∨
    (f = .connection .emptyCloseCallback ∧ stmt = .handleClose ∧ s.conn.closeCallback = false) := by
  cases stmt with
  | removeConnectionInLoop =>
    simp only [run, bind_eq_error, require_eq_error, require_eq_ok, Stop.fault.injEq, pure_eq_ok, reduceCtorEq,
      and_false, exists_false, or_false] at hs
    rcases hs with ⟨-, rfl⟩ | ⟨-, hbase, hin, rfl⟩
    · exact hf.elim
    · exact .inl ⟨trivial, .inl ⟨rfl, hbase, by simpa using hin⟩⟩
  | handleClose =>
    simp only [run, bind_eq_error, require_eq_error, require_eq_ok, Stop.fault.injEq, Result.mapFault_eq_fault,
      pure_eq_ok, reduceCtorEq, and_false, exists_false, or_false] at hs
    rcases hs with ⟨-, rfl⟩ | ⟨-, hio, e, hs, rfl⟩
    · exact hf.elim
    · simp only [TcpConnection.handleClose, bind_eq_error, require_eq_error, Stop.fault.injEq, pure_eq_ok,
        reduceCtorEq, and_false, exists_false, or_false] at hs
      rcases hs with ⟨hstate, rfl⟩ | ⟨-, -, hs | ⟨-, -, hset, rfl⟩⟩
      · exact .inl ⟨trivial, .inr ⟨.inl rfl, hio, hstate⟩⟩
      · obtain ⟨e', rfl⟩ := update_fault hs
        exact hf.elim
      · exact .inr ⟨rfl, rfl, by simpa using hset⟩
  | connectDestroyed =>
    simp only [run, bind_eq_error, require_eq_error, require_eq_ok, Stop.fault.injEq, Result.mapFault_eq_fault,
      pure_eq_ok, reduceCtorEq, and_false, exists_false, or_false] at hs
    rcases hs with ⟨-, rfl⟩ | ⟨-, hio, e, hs, rfl⟩
    · exact hf.elim
    · simp only [TcpConnection.connectDestroyed, bind_eq_error, require_eq_error, Stop.fault.injEq] at hs
      rcases hs with ⟨hstate, rfl⟩ | ⟨-, -, hs⟩
      · exact .inl ⟨trivial, .inr ⟨.inr rfl, hio, hstate⟩⟩
      · obtain ⟨e', rfl⟩ := update_fault hs
        exact hf.elim
  -- these assert nothing
  | user => simp [run] at hs
  | acceptLoop => simp [run] at hs
  | runConnectEstablished => simp [run] at hs
  | setCloseCallback => simp [run] at hs
  | handleError => simp [run] at hs
  | removeConnection => simp [run] at hs
  | setDisconnecting => simp [run] at hs
  | connectEstablished => exact absurd hf (connectEstablished_fault hs)
  | removeChannel =>
    simp only [run, TcpConnection.removeChannel, bind_eq_error, require_eq_error, Stop.fault.injEq,
      Result.mapFault_eq_fault, pure_eq_ok, reduceCtorEq, and_false, exists_false, or_false] at hs
    rcases hs with ⟨-, rfl⟩ | ⟨-, -, e, ⟨e', -, rfl⟩, rfl⟩ <;> exact hf.elim
  | handleRead revents => exact absurd hf (handleRead_fault hs)
  | handleWrite => exact absurd hf (handleWrite_fault hs)
  | drained =>
    simp only [run] at hs
    split at hs
    · exact absurd hf (shutdownInLoop_fault hs)
    · cases hs
  | runShutdownInLoop =>
    simp only [run] at hs
    split at hs
    · exact absurd hf (shutdownInLoop_fault hs)
    · cases hs
  | shutdownInLoop => exact absurd hf (shutdownInLoop_fault hs)
  | send message =>
    simp only [run, bind_eq_error, pure_eq_ok, reduceCtorEq, and_false, exists_false, or_false] at hs
    split at hs
    · exact absurd hf (sendInLoop_fault hs)
    · cases hs
  | sendInLoop message => exact absurd hf (sendInLoop_fault hs)

/-- Only a statement can run into them. -/
theorem step_fault {a : Label} {f : Fault} (hf : f.OfClosePath) (hs : s.step cfg a = .error (.fault f)) :
    ∃ t w r stmt th, a = .exec t w r ∧ s.threads.pop t = some (stmt, th) ∧
      { s with threads := th }.run cfg t w r stmt = .error (.fault f) := by
  cases a with
  | exec t w r =>
    simp only [step] at hs
    split at hs
    · rename_i stmt th hp
      exact ⟨t, w, r, stmt, th, rfl, hp, hs⟩
    · cases hs
  | loop t mv =>
    simp only [step, bind_eq_error, enabled_eq_error, Result.mapFault_eq_fault, pure_eq_ok, reduceCtorEq,
      and_false, exists_false, or_false, false_or] at hs
    obtain ⟨-, -, e, -, rfl⟩ := hs
    exact hf.elim
  | ret t =>
    simp only [step] at hs
    split at hs <;> cases hs
  | newConnection wc => simp [step, bind_eq_error, enabled_eq_error] at hs
  | send t bytes =>
    simp only [step, bind_eq_error, enabled_eq_error, reduceCtorEq, and_false, false_or] at hs
    obtain ⟨-, -, hs⟩ := hs
    split at hs <;> cases hs
  | shutdown t =>
    simp only [step, bind_eq_error, enabled_eq_error, reduceCtorEq, and_false, false_or] at hs
    obtain ⟨-, -, hs⟩ := hs
    split at hs <;> cases hs
  | retrieve len =>
    simp only [step, bind_eq_error, enabled_eq_error, Result.mapFault_eq_fault, pure_eq_ok, reduceCtorEq,
      and_false, exists_false, or_false, false_or] at hs
    obtain ⟨-, -, e, -, rfl⟩ := hs
    exact hf.elim
  | queueInLoop t owner => simp [step, bind_eq_error, enabled_eq_error] at hs
  | quit t owner => simp [step, bind_eq_error, enabled_eq_error] at hs

/-! ## The result -/

/-- The close path is taken at most once, and its asserts hold. -/
structure ClosedOnce (cfg : LoopThreads) (s : TcpServer) : Prop where
  closeCalls : s.history.closeCalls ≤ 1
  destroyCalls : s.history.destroyCalls ≤ 1
  asserts : ∀ a f, s.step cfg a = .error (.fault f) → ¬ f.OfClosing

/-- **The close path is taken once.** -/
theorem closed_once (h : (tcpServer cfg).Reach (ClosesCleanly cfg) s) : s.ClosedOnce cfg := by
  have hl := lifecycle_of_reachable h.reachable
  have ho := oneClose_of_reach h
  have hone := ho.once
  have hd := hl.destroys
  have hle := Bool.toNat_le s.created
  refine ⟨by omega, by omega, fun a f hs hf => ?_⟩
  obtain ⟨hpath, hother⟩ := hf.closePath
  obtain ⟨t, w, r, stmt, th, rfl, hp, hrun⟩ := step_fault hpath hs
  have hin : stmt ∈ s.agenda t := by rw [agenda, agenda_pop hp]; simp
  -- whoever comes to one of the asserts finds the connection up and not destroyed
  have hup : s.conn.state ≠ .kConnecting → s.history.destroyCalls = 0 →
      s.conn.state = .kConnected ∨ s.conn.state = .kDisconnecting := by
    intro hconnecting hzero
    cases hstate : s.conn.state with
    | kConnecting => exact absurd hstate hconnecting
    | kConnected => exact .inl rfl
    | kDisconnecting => exact .inr rfl
    | kDisconnected => exact absurd hzero (ho.gone hstate)
  rcases run_fault hpath hrun with ⟨-, ⟨rfl, rfl, hno⟩ | ⟨rfl | rfl, rfl, hstate⟩⟩ | ⟨hempty, -⟩
  · -- the close that brought us here is the only one, and it has not taken the connection out
    have hwait : 0 < s.waiting .removeConnectionInLoop cfg.base := by
      rw [waiting, load_pop hp]; simp
    have hc := hl.closes
    have hno : s.inConnections = false := hno
    rw [hno, Bool.toNat_false] at hc
    have hcreated : s.created = false := by
      cases hcr : s.created with
      | false => rfl
      | true => rw [hcr, Bool.toNat_true] at hc; omega
    exact ho.up (by omega) (ho.born hcreated).1
  · -- `handleClose`: this is the first close
    refine hstate (hup (fun hk => (hl.placed _ _ hin).2 (hl.up.mp hk)) ?_)
    have hpos : s.closing cfg = 1 + load Handler.stmts Stmt.closes th cfg.io := by
      rw [closing, load_pop hp, if_pos rfl]; rfl
    have hc := hl.closes
    have hin' := Bool.toNat_le s.inConnections
    omega
  · obtain ⟨hne, hzero⟩ := hl.closed_of_destroying hin
    exact hstate (hup (fun hk => ho.up hne (hl.up.mp hk)) hzero)
  · exact hother hempty

/-- A thread's message is still queued when the peer closes; the kernel takes it, and the connection is
    destroyed. -/
theorem closed_once_sample : ∃ s : TcpServer, s.history.closeCalls = 1 ∧ s.history.destroyCalls = 1 ∧
    s.conn.socket.accepted = [104] ∧ s.ClosedOnce ⟨0, 1⟩ := by
  obtain ⟨s, hs, hp⟩ := System.Reach.of_execWhile (S := tcpServer ⟨0, 1⟩) (C := ClosesCleanly ⟨0, 1⟩)
    (l := connect false ++ [Label.send 2 [104], .exec 2 none none] ++
      polls 1 [.channel (.connection {.POLLIN, .POLLHUP})] ++
      [Label.exec 1 none (some []), .exec 1 none none, .exec 1 none none] ++
      swaps 1 ++ [Label.exec 1 (some 1) none] ++ unwinds 1 ++ swaps 0 ++ [Label.exec 0 none none] ++
      polls 1 [.wakeupChannel] ++ swaps 1 ++ [Label.exec 1 none none, .ret 1, .exec 1 none none])
    (p := fun s => decide (s.history.closeCalls = 1 ∧ s.history.destroyCalls = 1 ∧
      s.conn.socket.accepted = [104]))
    (.init ⟨4096, 9, rfl⟩) (by decide +kernel)
  rw [decide_eq_true_eq] at hp
  exact ⟨s, hp.1, hp.2.1, hp.2.2, closed_once hs⟩

/-- **A late send revives the channel.** The same, but the kernel refuses the message: the write interest
    comes back, `poll` reports the hang-up, `handleClose` runs again, and the second
    `removeConnectionInLoop` finds nothing to erase. -/
theorem closed_twice : ¬ ∀ cfg s, (tcpServer cfg).Reachable s → s.ClosedOnce cfg := by
  intro hall
  obtain ⟨s, hs, hp⟩ := System.Reach.of_exec (S := tcpServer ⟨0, 1⟩)
    (l := connect false ++ [Label.send 2 [104], .exec 2 none none] ++
      polls 1 [.channel (.connection {.POLLIN, .POLLHUP})] ++
      [Label.exec 1 none (some []), .exec 1 none none, .exec 1 none none] ++
      swaps 1 ++ [Label.exec 1 none none] ++ unwinds 1 ++
      polls 1 [.channel (.connection {.POLLHUP})] ++ [Label.exec 1 none none, .exec 1 none none] ++
      swaps 0 ++ [Label.exec 0 none none, .loop 0 .next])
    (p := fun s => faultOf (s.step ⟨0, 1⟩ (.exec 0 none none)) == some .eraseConnection)
    (.init ⟨4096, 9, rfl⟩) (by decide +kernel)
  rw [beq_iff_eq, faultOf_eq_some] at hp
  exact (hall ⟨0, 1⟩ s hs).asserts _ _ hp trivial

/-- The other case: one event closes and then reads the end of the stream. -/
example : ((tcpServer ⟨0, 1⟩).exec (start 4096 9) (connect false ++
      polls 1 [.channel (.connection {.POLLHUP, .POLLPRI})] ++
      [Label.exec 1 none none, .exec 1 none none, .exec 1 none (some []), .exec 1 none none])).toOption.map
    (fun s => s.history.closeCalls) = some 2 := by decide +kernel

end TcpServer

end Irono
