import Irono.Net.Correctness.Callbacks

/-!
# `Net.Correctness.SendOrder` — every byte of every message, in order

What the kernel has taken and what waits in `outputBuffer_` are together the messages whose `sendInLoop`
has run. The direct write of `sendInLoop` is safe because write interest and a non-empty buffer go
together (`Output`). A message is on its way in one of three places: its `send` is under way, its
`sendInLoop` is on the agenda of the I/O loop, or it has run; per thread the three are in the order of the
calls (`Sends`).
-/

namespace Irono

open Transition Threads

namespace TcpServer

/-- What has been sent and what waits to be. -/
structure Output (s : TcpServer) : Prop where
  bytes : s.conn.socket.accepted ++ s.conn.outputBuffer.content =
    (s.history.ran.map Message.bytes).flatten
  /-- from `connectEstablished` until `handleClose` -/
  writing : s.history.callbacks ≠ [] → s.history.closeCalls = 0 →
    (s.conn.channel.isWriting = true ↔ s.conn.outputBuffer.content ≠ [])
  idle : s.history.callbacks = [] → s.conn.outputBuffer.content = [] ∧ s.conn.channel.events = ∅

variable {cfg : LoopThreads} {s s' : TcpServer} {t : ThreadId} {th : Threads Handler Stmt} {stmt : Stmt}

theorem output_start (self : Addr) (sockfd : Int) : (start self sockfd).Output := by
  refine ⟨?_, ?_, ?_⟩ <;> simp [start, TcpConnection.new, Buffer.content_new, Channel.new, Channel.kNoneEvent]

theorem Output.frame (h : s.Output) (hout : SameOutput s s')
    (hcb : s'.history.callbacks = [] ↔ s.history.callbacks = []) : s'.Output := by
  refine ⟨?_, ?_, ?_⟩
  · rw [hout.accepted, hout.outputBuffer, hout.ran]; exact h.bytes
  · rw [hout.channel, hout.outputBuffer, hout.closeCalls, ne_eq, hcb]; exact h.writing
  · rw [hout.channel, hout.outputBuffer, hcb]; exact h.idle

/-- `sendInLoop` appends the whole message to what is out and what is in the buffer. -/
theorem output_sendInLoop (h : s.Output) (hv : s.conn.outputBuffer.Valid) (hup : s.history.callbacks ≠ [])
    {message : Message} {w : Option Nat} (hs : s.sendInLoop cfg t message w = .ok s') : s'.Output := by
  obtain ⟨-, conn, wc, hconn, rfl⟩ := sendInLoop_eq hs
  obtain ⟨-, -, hsum, hcase⟩ := TcpConnection.sendInLoop_cases hv hconn
  refine ⟨?_, fun _ hopen => ?_, fun hnil => absurd hnil hup⟩
  · simp only [List.map_append, List.flatten_append, List.map_cons, List.map_nil, List.flatten_cons,
      List.flatten_nil, List.append_nil, ← h.bytes]
    exact hsum
  · have hiff := h.writing hup hopen
    rcases hcase with ⟨-, hout, hch, -⟩ | ⟨-, hne, ⟨hw, hch, -⟩ | ⟨-, hch, -⟩⟩
    · simp only [hout, hch]; exact hiff
    · simp only [hch]; exact ⟨fun _ => hne, fun _ => hw⟩
    · have hw : conn.channel.isWriting = true := by
        rw [Channel.isWriting_iff, hch]
        simp [Channel.enableWriting, Channel.kWriteEvent]
      exact ⟨fun _ => hne, fun _ => hw⟩

/-- **A statement** puts bytes out in the order of the messages. -/
theorem output_run (hl : s.Lifecycle cfg) (h : s.Output) {w : Option Nat} {r : Option (List Byte)}
    (hp : s.threads.pop t = some (stmt, th)) (hs : { s with threads := th }.run cfg t w r stmt = .ok s') :
    s'.Output := by
  have hst := (hl.placed_pop hp).1
  have h₀ : { s with threads := th }.Output := ⟨h.bytes, h.writing, h.idle⟩
  by_cases hq : stmt.Quiet
  · obtain ⟨hout, hcb, -⟩ := run_quiet hq hs
    refine h₀.frame hout ?_
    rcases hcb with hcb | ⟨⟨revents, rfl⟩, hcb⟩
    · rw [hcb]
    · rw [hcb]; simpa using hst.2
  cases stmt with
  | connectEstablished =>
    simp only [run, bind_eq_ok, Result.mapFault_eq_ok, pure_eq_ok, Except.ok.injEq] at hs
    obtain ⟨-, -, conn, hconn, rfl⟩ := hs
    obtain ⟨hstate, hframe, hch, -⟩ := TcpConnection.connectEstablished_cases hconn
    obtain ⟨hcontent, hevents⟩ := h.idle (hl.up.mp hstate)
    have hout : conn.outputBuffer = s.conn.outputBuffer := by rw [hframe]
    have hsock : conn.socket = s.conn.socket := by rw [hframe]
    -- read interest only, and nothing to write
    have hev : conn.channel.events = Channel.kReadEvent := by
      rw [hch]
      simp only [Channel.enableReading]
      rw [show ({ s with threads := th } : TcpServer).conn.channel.events = ∅ from hevents, Finset.empty_union]
    refine ⟨?_, fun _ _ => ?_, fun hnil => by simp at hnil⟩
    · simp only [hout, hsock]; exact h.bytes
    · simp only [hout, hcontent, Channel.isWriting_iff, hev]
      simp [Channel.kReadEvent]
  | connectDestroyed =>
    simp only [run, bind_eq_ok, require_eq_ok, Result.mapFault_eq_ok, pure_eq_ok, Except.ok.injEq] at hs
    obtain ⟨-, rfl, conn, hconn, rfl⟩ := hs
    obtain ⟨-, hframe, -, -⟩ := TcpConnection.connectDestroyed_cases hconn
    obtain ⟨hne, -⟩ := hl.closed_of_destroying (by rw [agenda, agenda_pop hp]; simp)
    have hout : conn.outputBuffer = s.conn.outputBuffer := by rw [hframe]
    have hsock : conn.socket = s.conn.socket := by rw [hframe]
    refine ⟨?_, fun _ hzero => absurd hzero hne, fun hnil => by simp at hnil⟩
    simp only [hout, hsock]; exact h.bytes
  | removeChannel =>
    simp only [run, bind_eq_ok, Result.mapFault_eq_ok, pure_eq_ok, Except.ok.injEq] at hs
    obtain ⟨-, -, conn, hconn, rfl⟩ := hs
    obtain ⟨hframe, hch, -, -⟩ := TcpConnection.removeChannel_cases hconn
    have hout : conn.outputBuffer = s.conn.outputBuffer := by rw [hframe]
    have hsock : conn.socket = s.conn.socket := by rw [hframe]
    have hev : conn.channel.events = s.conn.channel.events := by rw [hch]
    refine ⟨?_, ?_, ?_⟩
    · simp only [hout, hsock]; exact h.bytes
    · simp only [hout, Channel.isWriting_iff, hev]; simpa only [Channel.isWriting_iff] using h.writing
    · simp only [hout, hev]; exact h.idle
  | handleClose =>
    simp only [run, bind_eq_ok, Result.mapFault_eq_ok, pure_eq_ok, Except.ok.injEq] at hs
    obtain ⟨-, -, conn, hconn, rfl⟩ := hs
    obtain ⟨-, hframe, -, -⟩ := TcpConnection.handleClose_cases hconn
    have hout : conn.outputBuffer = s.conn.outputBuffer := by rw [hframe]
    have hsock : conn.socket = s.conn.socket := by rw [hframe]
    refine ⟨?_, fun _ hzero => by simp at hzero, fun hnil => absurd hnil hst.2⟩
    simp only [hout, hsock]; exact h.bytes
  | handleWrite =>
    obtain ⟨conn, drained, hconn, rfl⟩ := run_handleWrite hs
    obtain ⟨-, -, hsum, hcase⟩ := TcpConnection.handleWrite_cases (c := s.conn) hl.intact.valid hconn
    have hout : ({ s with conn := conn } : TcpServer).Output := by
      refine ⟨hsum.trans h.bytes, fun hup hopen => ?_, fun hnil => absurd hnil hst.2⟩
      rcases hcase with ⟨-, rfl⟩ | ⟨-, hw, hne, hch, -⟩ | ⟨-, -, hnil, hch, -⟩
      · exact h.writing hup hopen
      · simp only [hch]; exact ⟨fun _ => hne, fun _ => hw⟩
      · -- drained: the write interest is gone with the last byte
        have hw : ¬ conn.channel.isWriting = true := by
          rw [Channel.isWriting_iff, hch]
          simp [Channel.disableWriting, Channel.kWriteEvent]
        exact ⟨fun hw' => absurd hw' hw, fun hne => absurd hnil hne⟩
    exact ⟨hout.bytes, hout.writing, hout.idle⟩
  | send message =>
    simp only [run, bind_eq_ok, pure_eq_ok, Except.ok.injEq] at hs
    obtain ⟨s₁, hs₁, rfl⟩ := hs
    have h₁ : s₁.Output := by
      split at hs₁
      · exact output_sendInLoop h₀ hl.intact.valid hst.2 hs₁
      · simp only [Except.ok.injEq] at hs₁
        subst hs₁
        exact ⟨h.bytes, h.writing, h.idle⟩
    exact ⟨h₁.bytes, h₁.writing, h₁.idle⟩
  | sendInLoop message => exact output_sendInLoop h₀ hl.intact.valid hst.2 hs
  | _ => exact absurd trivial hq

/-- **One step.** -/
theorem output_step {a : Label} (hl : s.Lifecycle cfg) (h : s.Output) (hs : s.step cfg a = .ok s') :
    s'.Output := by
  rcases step_cases hs with ⟨t, w, r, stmt, th, rfl, hp, hrun⟩ | ⟨t, mv, th, rfl, -, -, rfl⟩ |
    ⟨t, stmt, th, rfl, -, -, rfl⟩ | ⟨hout, -⟩
  · exact output_run hl h hp hrun
  · exact ⟨h.bytes, h.writing, h.idle⟩
  · exact ⟨h.bytes, h.writing, h.idle⟩
  · exact h.frame hout.toSameOutput (by rw [hout.callbacks])

theorem output_of_reachable (h : (tcpServer cfg).Reachable s) : s.Output :=
  h.invariant (I := Output)
    (fun s h0 => by obtain ⟨self, sockfd, rfl⟩ := h0; exact output_start self sockfd)
    (fun _ _ _ hr hI _ hs => output_step (lifecycle_of_reachable hr) hI hs)

/-- Until the close, a channel that is not writing has nothing to write. -/
theorem Output.content_nil (h : s.Output) (hopen : s.history.closeCalls = 0)
    (hw : s.conn.channel.isWriting = false) : s.conn.outputBuffer.content = [] := by
  by_cases hcb : s.history.callbacks = []
  · exact (h.idle hcb).1
  · by_contra hne
    rw [(h.writing hcb hopen).mpr hne] at hw
    cases hw

/-! ## The messages on their way -/

/-- The message of a `send` under way. -/
def Stmt.sending : Stmt → Option Message
  | .send message => some message
  | _ => none

/-- The message of a `sendInLoop` to be run. -/
def Stmt.waiting : Stmt → Option Message
  | .sendInLoop message => some message
  | _ => none

/-- The messages of the `send`s thread `t` is in. -/
def calling (s : TcpServer) (t : ThreadId) : List Message := (s.agenda t).filterMap Stmt.sending

/-- The messages that wait in the I/O loop. -/
def queued (cfg : LoopThreads) (s : TcpServer) : List Message := (s.agenda cfg.io).filterMap Stmt.waiting

/-- The messages of thread `t` in a list. -/
def ofThread (t : ThreadId) (l : List Message) : List Message := l.filter fun m => m.sender = t

/-- **The invariant.** -/
structure Sends (cfg : LoopThreads) (s : TcpServer) : Prop where
  /-- a thread's messages, in the order of its calls -/
  order : ∀ t, ofThread t s.history.sends =
    ofThread t s.history.ran ++ ofThread t (s.queued cfg) ++ s.calling t
  /-- a thread is in one `send` at most, and does nothing else until it returns -/
  one : ∀ t, s.calling t = [] ∨ ∃ m, s.calling t = [m] ∧ (s.threads.frames t).head? = some (.send m)
  serials : ∀ m ∈ s.history.sends, m.serial < s.history.nextSerial
  distinct : s.history.sends.Pairwise fun m m' => m.serial < m'.serial

@[simp] theorem ofThread_append (l l' : List Message) : ofThread t (l ++ l') = ofThread t l ++ ofThread t l' :=
  List.filter_append ..

@[simp] theorem ofThread_nil : ofThread t [] = [] := rfl

theorem ofThread_singleton (m : Message) : ofThread t [m] = if m.sender = t then [m] else [] := by
  by_cases h : m.sender = t <;> simp [ofThread, h]

theorem sends_start (self : Addr) (sockfd : Int) : (start self sockfd).Sends cfg := by
  refine ⟨fun t => ?_, fun t => .inl ?_, ?_, ?_⟩ <;> simp [start, ofThread, queued, calling, agenda]

theorem Stmt.Begins.not_message {x : Stmt} (h : stmt.Begins x) : x.sending = none ∧ x.waiting = none := by
  cases x with
  | send m => cases stmt <;> simp [Stmt.Begins] at h
  | sendInLoop m => cases stmt <;> simp [Stmt.Begins] at h
  | _ => exact ⟨rfl, rfl⟩

theorem Stmt.Queues.not_sending {x : Stmt} (h : stmt.Queues x) : x.sending = none := by
  cases x with
  | send m => cases stmt <;> simp [Stmt.Queues] at h
  | _ => rfl

/-- Only `send` queues a message. -/
theorem Stmt.Queues.not_waiting {x : Stmt} (h : stmt.Queues x) (hne : stmt.sending = none) :
    x.waiting = none := by
  cases x with
  | sendInLoop m => cases stmt <;> simp [Stmt.Queues, Stmt.sending] at h hne
  | _ => rfl

theorem handler_not_message {hd : Handler} (h : stmt ∈ hd.stmts) : stmt.sending = none ∧ stmt.waiting = none := by
  cases hd with
  | acceptor => rw [List.mem_singleton.mp h]; exact ⟨rfl, rfl⟩
  | user => rw [List.mem_singleton.mp h]; exact ⟨rfl, rfl⟩
  | connection revents => rcases callbackStmt_cases h with rfl | rfl | rfl | rfl <;> exact ⟨rfl, rfl⟩

theorem filterMap_eq_nil {f : Stmt → Option Message} {l : List Stmt} (h : ∀ x ∈ l, f x = none) :
    l.filterMap f = [] := List.filterMap_eq_nil_iff.mpr h

/-- When thread `t` comes to the end of its statement it is in no `send` any more. -/
theorem Sends.calling_pop (h : s.Sends cfg) (hp : s.threads.pop t = some (stmt, th)) :
    (th.agenda Handler.stmts t).filterMap Stmt.sending = [] ∧ s.calling t = stmt.sending.toList := by
  have hag : s.calling t = stmt.sending.toList ++ (th.agenda Handler.stmts t).filterMap Stmt.sending := by
    rw [calling, agenda, agenda_pop hp, if_pos rfl, List.filterMap_append]
    cases hm : stmt.sending <;> simp [hm]
  rcases h.one t with hnil | ⟨m, hm, hhead⟩
  · rw [hnil, eq_comm, List.append_eq_nil_iff] at hag
    exact ⟨hag.2, hnil.trans hag.1.symm⟩
  · have hstmt : stmt = .send m := by
      rw [(frames_pop hp).1] at hhead
      simpa using hhead
    subst hstmt
    have hnil : (th.agenda Handler.stmts t).filterMap Stmt.sending = [] := by
      rw [hm] at hag
      simpa [Stmt.sending] using hag.symm
    exact ⟨hnil, by rw [hag, hnil, List.append_nil]⟩

/-- A change of the agendas that moves no message. -/
theorem Sends.frame (h : s.Sends cfg) (hcall : ∀ t, s'.calling t = s.calling t)
    (hqueue : s'.queued cfg = s.queued cfg)
    (hframes : ∀ t, s.calling t ≠ [] → s'.threads.frames t = s.threads.frames t)
    (hran : s'.history.ran = s.history.ran) (hsends : s'.history.sends = s.history.sends)
    (hserial : s'.history.nextSerial = s.history.nextSerial) : s'.Sends cfg := by
  refine ⟨fun t => ?_, fun t => ?_, ?_, ?_⟩
  · rw [hsends, hran, hqueue, hcall]; exact h.order t
  · rw [hcall]
    refine (h.one t).imp_right ?_
    rintro ⟨m, hm, hhead⟩
    exact ⟨m, hm, by rw [hframes t (by simp [hm])]; exact hhead⟩
  · rw [hsends, hserial]; exact h.serials
  · rw [hsends]; exact h.distinct

/-! ## Statements -/

/-- Only a `sendInLoop` sends, and only a `send` returns a message. -/
theorem run_ran (hsend : stmt.sending = none) (hwait : stmt.waiting = none) {w : Option Nat}
    {r : Option (List Byte)} (hs : s.run cfg t w r stmt = .ok s') :
    s'.history.ran = s.history.ran ∧ s'.history.returned = s.history.returned := by
  by_cases hq : stmt.Quiet
  · obtain ⟨hout, -⟩ := run_quiet hq hs
    exact ⟨hout.ran, hout.returned⟩
  cases stmt with
  | send message => cases hsend
  | sendInLoop message => cases hwait
  | handleWrite =>
    obtain ⟨conn, drained, -, rfl⟩ := run_handleWrite hs
    exact ⟨rfl, rfl⟩
  | _ =>
    first
      | exact absurd trivial hq
      | (simp only [run, bind_eq_ok, pure_eq_ok, Except.ok.injEq] at hs
         obtain ⟨-, -, conn, -, rfl⟩ := hs
         exact ⟨rfl, rfl⟩)

/-- The messages on their way after a statement of thread `t`. -/
structure Moved (cfg : LoopThreads) (t : ThreadId) (s s' : TcpServer) (stmt : Stmt) (left back : List Message) :
    Prop where
  calling : ∀ t', s'.calling t' = if t' = t then [] else s.calling t'
  called : s.calling t = stmt.sending.toList
  one : ∀ t', s'.calling t' = [] ∨ ∃ m, s'.calling t' = [m] ∧ (s'.threads.frames t').head? = some (.send m)
  before : s.queued cfg = (if cfg.io = t then stmt.waiting.toList else []) ++ left
  after : s'.queued cfg = left ++ back

/-- The messages move so with a statement that brings none to the front. -/
theorem Sends.moved (h : s.Sends cfg) (hp : s.threads.pop t = some (stmt, th)) {front : List Stmt}
    {back : ThreadId → List Stmt} (hg : Grows t { s with threads := th } s' front back)
    (hfront : ∀ x ∈ front, x.sending = none ∧ x.waiting = none)
    (hback : ∀ t', ∀ x ∈ back t', x.sending = none) :
    Moved cfg t s s' stmt ((th.agenda Handler.stmts cfg.io).filterMap Stmt.waiting)
      ((back cfg.io).filterMap Stmt.waiting) := by
  obtain ⟨hnil, hcalled⟩ := h.calling_pop hp
  have hother : ∀ t', t' ≠ t → th.agenda Handler.stmts t' = s.agenda t' := by
    intro t' ht
    rw [agenda, agenda_pop hp, if_neg ht, List.nil_append]
  have hcalling : ∀ t', s'.calling t' = if t' = t then [] else s.calling t' := by
    intro t'
    rw [TcpServer.calling, hg.agendas, List.filterMap_append, List.filterMap_append, filterMap_eq_nil (hback t')]
    split
    · rename_i ht
      subst ht
      rw [filterMap_eq_nil (fun x hx => (hfront x hx).1)]
      simpa using hnil
    · rename_i ht
      rw [show ({ s with threads := th } : TcpServer).agenda t' = s.agenda t' from hother t' ht]
      simp [TcpServer.calling]
  refine ⟨hcalling, hcalled, fun t' => ?_, ?_, ?_⟩
  · by_cases ht : t' = t
    · exact .inl (by rw [hcalling, if_pos ht])
    · rw [hcalling, if_neg ht]
      refine (h.one t').imp_right ?_
      rintro ⟨m, hm, hhead⟩
      refine ⟨m, hm, ?_⟩
      rw [hg.frames, if_neg ht, List.nil_append]
      exact (congrArg List.head? ((frames_pop hp).2 t' ht)).trans hhead
  · rw [queued, agenda, agenda_pop hp, List.filterMap_append]
    congr 1
    split
    · cases hm : stmt.waiting <;> simp [hm]
    · rfl
  · have hf : (if cfg.io = t then front else []).filterMap Stmt.waiting = [] := by
      split
      · exact filterMap_eq_nil fun x hx => (hfront x hx).2
      · rfl
    rw [queued, hg.agendas, List.filterMap_append, List.filterMap_append, hf, List.nil_append]

/-- **Messages on the move keep their order**: what thread `t` was at has run, or is in line behind those
    that are left. -/
theorem Moved.sends {left back ran : List Message} (hm : Moved cfg t s s' stmt left back) (h : s.Sends cfg)
    (hsame : SameCalls { s with threads := th } s') (hran : s'.history.ran = s.history.ran ++ ran)
    (horder : ∀ t', ofThread t' ((if cfg.io = t then stmt.waiting.toList else []) ++ left) ++
        (if t' = t then stmt.sending.toList else []) = ofThread t' ran ++ ofThread t' (left ++ back)) :
    s'.Sends cfg := by
  refine ⟨fun t' => ?_, hm.one, ?_, ?_⟩
  · have hord := horder t'
    rw [← hm.before, ← hm.after] at hord
    rw [hsame.sends, h.order t', hran, ofThread_append, hm.calling]
    split
    · rename_i ht
      subst ht
      rw [if_pos rfl] at hord
      rw [hm.called, List.append_nil, List.append_assoc, hord, List.append_assoc]
    · rename_i ht
      rw [if_neg ht, List.append_nil] at hord
      rw [hord, ← List.append_assoc]
  · rw [hsame.sends, hsame.nextSerial]
    exact h.serials
  · rw [hsame.sends]
    exact h.distinct

/-- No message of the loop thread waits. -/
theorem Lifecycle.ofThread_queued (h : s.Lifecycle cfg) : ofThread cfg.io (s.queued cfg) = [] := by
  refine List.filter_eq_nil_iff.mpr fun m hm => ?_
  obtain ⟨x, hx, hxm⟩ := List.mem_filterMap.mp hm
  cases x with
  | sendInLoop m' =>
    obtain rfl := Option.some.inj hxm
    have hne := (h.placed _ _ hx).1
    simpa using hne
  | _ => cases hxm

/-- A `send` runs its message in the loop thread, and queues it in another. -/
theorem sends_send (hl : s.Lifecycle cfg) (h : s.Sends cfg) {message : Message} {w : Option Nat}
    {r : Option (List Byte)} (hp : s.threads.pop t = some (.send message, th))
    (hs : { s with threads := th }.run cfg t w r (.send message) = .ok s') : s'.Sends cfg := by
  have hsender : message.sender = t := (hl.placed_pop hp).1.1
  simp only [run, bind_eq_ok, pure_eq_ok, Except.ok.injEq] at hs
  obtain ⟨s₁, hs₁, rfl⟩ := hs
  have h₁ : s₁.Sends cfg := by
    split at hs₁
    · -- none of its messages waits
      rename_i ht
      subst ht
      have hgrows : GrowsBy (.sendInLoop message) cfg.io { s with threads := th } s₁ :=
        sendInLoop_growsBy hs₁ rfl
      obtain ⟨front, back, hg, hfront, hback⟩ := hgrows
      have hm := h.moved hp hg (fun x hx => (hfront x hx).not_message) (fun t' x hx => (hback t' x hx).not_sending)
      have hno := hl.ofThread_queued
      simp only [hm.before, Stmt.waiting, Option.toList_none, ite_self, List.nil_append] at hno
      have hback' : (back cfg.io).filterMap Stmt.waiting = [] :=
        filterMap_eq_nil fun x hx => (hback cfg.io x hx).not_waiting rfl
      obtain ⟨-, conn, wc, -, heq⟩ := sendInLoop_eq hs₁
      have hran : s₁.history.ran = s.history.ran ++ [message] := by rw [heq]
      refine hm.sends h (sendInLoop_sameCalls hs₁) hran fun t' => ?_
      rw [hback', List.append_nil, ofThread_singleton, hsender]
      by_cases ht' : t' = cfg.io
      · simp [Stmt.waiting, Stmt.sending, ht', hno]
      · simp [Stmt.waiting, ht', Ne.symm ht']
    · simp only [Except.ok.injEq] at hs₁
      subst hs₁
      have hg : Grows t { s with threads := th }
          { s with threads := th.queueInLoop t cfg.io (.sendInLoop message) } [] _ := .queueInLoop rfl
      have hm := h.moved hp hg (by simp) (fun t' x hx => by
        split at hx
        · rw [List.mem_singleton.mp hx]; rfl
        · cases hx)
      have hsame : SameCalls { s with threads := th }
          { s with threads := th.queueInLoop t cfg.io (.sendInLoop message) } := ⟨rfl, rfl, rfl, rfl⟩
      refine hm.sends h hsame (List.append_nil _).symm fun t' => ?_
      by_cases ht' : t' = t
      · subst ht'; simp [Stmt.waiting, Stmt.sending, ofThread_singleton, hsender]
      · simp [Stmt.waiting, ofThread_singleton, hsender, ht', Ne.symm ht']
  exact ⟨h₁.order, h₁.one, h₁.serials, h₁.distinct⟩

/-- The first message in line runs. -/
theorem sends_sendInLoop (h : s.Sends cfg) {message : Message} {w : Option Nat}
    (hp : s.threads.pop t = some (.sendInLoop message, th))
    (hs : { s with threads := th }.sendInLoop cfg t message w = .ok s') : s'.Sends cfg := by
  have hgrows : GrowsBy (.sendInLoop message) t { s with threads := th } s' := sendInLoop_growsBy hs rfl
  obtain ⟨front, back, hg, hfront, hback⟩ := hgrows
  have hm := h.moved hp hg (fun x hx => (hfront x hx).not_message) (fun t' x hx => (hback t' x hx).not_sending)
  have hback' : (back cfg.io).filterMap Stmt.waiting = [] :=
    filterMap_eq_nil fun x hx => (hback cfg.io x hx).not_waiting rfl
  have hsame := sendInLoop_sameCalls hs
  obtain ⟨rfl, conn, wc, -, heq⟩ := sendInLoop_eq hs
  have hran : s'.history.ran = s.history.ran ++ [message] := by rw [heq]
  refine hm.sends h hsame hran fun t' => ?_
  rw [hback', List.append_nil, if_pos rfl, ofThread_append]
  simp [Stmt.waiting, Stmt.sending]

/-- **A statement** keeps the order of each thread. -/
theorem sends_run (hl : s.Lifecycle cfg) (h : s.Sends cfg) {w : Option Nat} {r : Option (List Byte)}
    (hp : s.threads.pop t = some (stmt, th)) (hs : { s with threads := th }.run cfg t w r stmt = .ok s') :
    s'.Sends cfg := by
  by_cases hmsg : stmt.sending = none ∧ stmt.waiting = none
  · obtain ⟨front, back, hg, hfront, hback⟩ := run_growsBy hs
    have hm := h.moved hp hg (fun x hx => (hfront x hx).not_message) (fun t' x hx => (hback t' x hx).not_sending)
    have hran : s'.history.ran = s.history.ran ++ [] := (run_ran hmsg.1 hmsg.2 hs).1.trans (List.append_nil _).symm
    refine hm.sends h (run_sameCalls hs) hran fun t' => ?_
    rw [filterMap_eq_nil fun x hx => (hback cfg.io x hx).not_waiting hmsg.1, hmsg.1, hmsg.2]
    simp
  cases stmt with
  | send message => exact sends_send hl h hp hs
  | sendInLoop message => exact sends_sendInLoop h hp hs
  | _ => exact absurd ⟨rfl, rfl⟩ hmsg

/-! ## Steps -/

/-- The loop's own code moves no message: what it takes from the queue it takes in line. -/
theorem sends_loop (hl : s.Lifecycle cfg) (h : s.Sends cfg) {mv : EventLoop.Move Handler}
    (hadv : s.threads.advance Handler.stmts t mv = .ok th) : { s with threads := th }.Sends cfg := by
  obtain ⟨-, hframes, hother, hcase⟩ := agenda_advance hl.batched hadv
  -- a loop that moves on is in no `send`
  have hfr : ∀ t', s.calling t' ≠ [] → th.frames t' = s.threads.frames t' := by
    intro t' hne
    refine hother t' ?_
    rintro rfl
    rcases h.one t' with hnil | ⟨m, -, hhead⟩
    · exact hne hnil
    · rw [hframes] at hhead; cases hhead
  rcases hcase with ⟨active, rfl, -, -, hag⟩ | ⟨-, hag⟩
  · have hno : ∀ x ∈ (EventLoop.handlers active).flatMap (stmts Handler.stmts),
        x.sending = none ∧ x.waiting = none := by
      intro x hx
      obtain ⟨hd, -, hx⟩ := polled_stmts hx
      exact handler_not_message hx
    refine h.frame (fun t' => ?_) ?_ hfr rfl rfl rfl
    · rw [calling, agenda, hag, List.filterMap_append]
      split
      · rw [filterMap_eq_nil fun x hx => (hno x hx).1]; rfl
      · rfl
    · rw [queued, agenda, hag, List.filterMap_append]
      split
      · rw [filterMap_eq_nil fun x hx => (hno x hx).2]; rfl
      · rfl
  · refine h.frame (fun t' => ?_) ?_ hfr rfl rfl rfl
    · rw [calling, agenda, hag]; rfl
    · rw [queued, agenda, hag]; rfl

/-- A statement that holds no message ends. -/
theorem sends_pop (h : s.Sends cfg) (hp : s.threads.pop t = some (stmt, th))
    (hno : stmt.sending = none ∧ stmt.waiting = none) : { s with threads := th }.Sends cfg := by
  have hgone : ∀ t', (if t' = t then [stmt] else []).filterMap Stmt.sending = [] ∧
      (if t' = t then [stmt] else []).filterMap Stmt.waiting = [] := by
    intro t'
    split
    · simp [hno]
    · exact ⟨rfl, rfl⟩
  refine h.frame (fun t' => ?_) ?_ (fun t' hne => ?_) rfl rfl rfl
  · rw [calling, calling, agenda, agenda, agenda_pop hp t', List.filterMap_append, (hgone t').1, List.nil_append]
  · rw [queued, queued, agenda, agenda, agenda_pop hp cfg.io, List.filterMap_append, (hgone cfg.io).2,
      List.nil_append]
  · refine (frames_pop hp).2 t' ?_
    rintro rfl
    rw [(h.calling_pop hp).2, hno.1] at hne
    exact hne rfl

/-- **One step.** -/
theorem sends_step {a : Label} (hl : s.Lifecycle cfg) (h : s.Sends cfg) (hs : s.step cfg a = .ok s') :
    s'.Sends cfg := by
  rcases step_cases hs with ⟨t, w, r, stmt, th, rfl, hp, hrun⟩ | ⟨t, mv, th, rfl, hpoll, hadv, rfl⟩ |
    ⟨t, stmt, th, rfl, hst, hp, rfl⟩ | ⟨hout, -, t, front, back, hg, hhead, hfront, hback, hcalled⟩
  · exact sends_run hl h hp hrun
  · exact sends_loop hl h hadv
  · exact sends_pop h hp (by rcases hst with rfl | rfl <;> exact ⟨rfl, rfl⟩)
  · have hb : ∀ t', (back t').filterMap Stmt.sending = [] ∧ (back t').filterMap Stmt.waiting = [] := by
      intro t'
      exact ⟨filterMap_eq_nil fun x hx => by rw [hback t' x hx]; rfl,
        filterMap_eq_nil fun x hx => by rw [hback t' x hx]; rfl⟩
    have hqueue : s'.queued cfg = s.queued cfg := by
      have hf : (if cfg.io = t then front else []).filterMap Stmt.waiting = [] := by
        refine filterMap_eq_nil fun x hx => ?_
        split at hx
        · have := hfront x hx
          cases x <;> first | rfl | exact this.elim
        · cases hx
      rw [queued, hg.agendas, List.filterMap_append, List.filterMap_append, hf, (hb cfg.io).2, List.append_nil]
      rfl
    have hcall : ∀ t', s'.calling t' = (if t' = t then front else []).filterMap Stmt.sending ++ s.calling t' := by
      intro t'
      rw [calling, hg.agendas, List.filterMap_append, List.filterMap_append, (hb t').1, List.append_nil]
      rfl
    have hidle : front ≠ [] → s.calling t = [] := by
      intro hne
      rcases h.one t with hnil | ⟨m, -, hm⟩
      · exact hnil
      · rcases hhead.resolve_left hne _ hm with hm | hm <;> cases hm
    rcases hcalled with ⟨hno, hserial, hsends, -⟩ | ⟨m, rfl, hsender, hmserial, hserial, hsends, -⟩
    · refine h.frame (fun t' => ?_) hqueue (fun t' hne => ?_) hout.ran hsends hserial
      · have hf : (if t' = t then front else []).filterMap Stmt.sending = [] := by
          refine filterMap_eq_nil fun x hx => ?_
          split at hx
          · cases x with
            | send m => exact absurd hx (hno m)
            | _ => rfl
          · cases hx
        rw [hcall, hf, List.nil_append]
      · rw [hg.frames]
        split
        · rename_i ht
          subst ht
          rw [show front = [] by by_contra hf; exact hne (hidle hf)]; rfl
        · rfl
    · -- a `send` begins
      have hnil : s.calling t = [] := hidle (by simp)
      refine ⟨fun t' => ?_, fun t' => ?_, fun m' hm' => ?_, ?_⟩
      · rw [hsends, hout.ran, hqueue, hcall, ofThread_append, h.order, ofThread_singleton, hsender]
        by_cases ht : t' = t
        · subst ht; simp [hnil, Stmt.sending]
        · simp [ht, Ne.symm ht]
      · rw [hcall]
        by_cases ht : t' = t
        · subst ht
          exact .inr ⟨m, by simp [hnil, Stmt.sending], by rw [hg.frames, if_pos rfl]; rfl⟩
        · rw [if_neg ht, hg.frames, if_neg ht]
          exact h.one t'
      · rw [hsends, List.mem_append, List.mem_singleton] at hm'
        rw [hserial]
        rcases hm' with hm' | rfl
        · exact (h.serials m' hm').trans (Nat.lt_succ_self _)
        · rw [hmserial]; exact Nat.lt_succ_self _
      · rw [hsends, List.pairwise_append]
        refine ⟨h.distinct, List.pairwise_singleton _ _, fun m' hm' m'' hm'' => ?_⟩
        rw [List.mem_singleton.mp hm'', hmserial]
        exact h.serials m' hm'

theorem sends_of_reachable (h : (tcpServer cfg).Reachable s) : s.Sends cfg :=
  h.invariant (I := Sends cfg)
    (fun s h0 => by obtain ⟨self, sockfd, rfl⟩ := h0; exact sends_start self sockfd)
    (fun _ _ _ hr hI _ hs => sends_step (lifecycle_of_reachable hr) hI hs)

/-! ## The result -/

/-- No message is sent twice. -/
theorem Sends.ran_nodup (h : s.Sends cfg) : s.history.ran.Nodup := by
  have hsends : s.history.sends.Nodup := h.distinct.imp fun hlt heq => absurd (heq ▸ hlt) (Nat.lt_irrefl _)
  rw [List.nodup_iff_count_le_one]
  intro m
  have hle : (ofThread m.sender s.history.ran).count m ≤ (ofThread m.sender s.history.sends).count m := by
    rw [h.order, List.append_assoc, List.count_append]
    exact Nat.le_add_right _ _
  have hcount : ∀ l, (ofThread m.sender l).count m = l.count m := fun l => List.count_filter (by simp)
  rw [hcount, hcount] at hle
  exact hle.trans (List.nodup_iff_count_le_one.mp hsends m)

/-- The bytes that were sent and those that wait are the messages that have run, each once; a thread's
    messages run in the order of its calls, and none is lost on the way; and the channel has write
    interest exactly when bytes wait. -/
structure InOrder (cfg : LoopThreads) (s : TcpServer) : Prop where
  bytes : s.conn.socket.accepted ++ s.conn.outputBuffer.content =
    (s.history.ran.map Message.bytes).flatten
  nodup : s.history.ran.Nodup
  perThread : ∀ t, ofThread t s.history.sends =
    ofThread t s.history.ran ++ ofThread t (s.queued cfg) ++ s.calling t
  writing : s.history.callbacks ≠ [] → s.history.closeCalls = 0 →
    (s.conn.channel.isWriting = true ↔ s.conn.outputBuffer.content ≠ [])

/-- **Every byte of every message, in order.** -/
theorem sent_in_order (h : (tcpServer cfg).Reachable s) : s.InOrder cfg :=
  have ho := output_of_reachable h
  have hs := sends_of_reachable h
  ⟨ho.bytes, hs.ran_nodup, hs.order, ho.writing⟩

/-- Two threads send; the first message is taken in part, the second waits behind its rest. -/
theorem sent_in_order_sample : ∃ s : TcpServer, s.conn.socket.accepted = [1, 2] ∧
    s.conn.outputBuffer.content = [3, 4] ∧ s.conn.channel.isWriting = true ∧ s.InOrder ⟨0, 1⟩ := by
  obtain ⟨s, hs, hp⟩ := System.Reach.of_exec (S := tcpServer ⟨0, 1⟩)
    (l := connect false ++ [Label.send 2 [1, 2, 3], .send 3 [4], .exec 2 none none, .exec 3 none none] ++
      polls 1 [.wakeupChannel] ++ swaps 1 ++ [Label.exec 1 (some 2) none, .loop 1 .next, .exec 1 none none])
    (p := fun s => decide (s.conn.socket.accepted = [1, 2] ∧ s.conn.outputBuffer.content = [3, 4] ∧
      s.conn.channel.isWriting = true))
    (.init ⟨4096, 9, rfl⟩) (by decide +kernel)
  rw [decide_eq_true_eq] at hp
  exact ⟨s, hp.1, hp.2.1, hp.2.2, sent_in_order hs⟩

end TcpServer

end Irono
