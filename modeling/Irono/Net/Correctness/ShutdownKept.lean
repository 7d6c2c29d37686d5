import Irono.Net.Correctness.HalfClose

/-!
# `Net.Correctness.ShutdownKept` — a postponed half close is not lost

`shutdownInLoop` does nothing while the channel is writing, and leaves the half close to the `handleWrite`
that drains the buffer; that one does it only if it finds `kDisconnecting`. The two tests are made at
different times, and other threads set `state_` and queue `sendInLoop`s between them. Whichever comes last
finds the other's work done: as long as the peer has not closed, a connection in `kDisconnecting` has a
`shutdownInLoop` still to come, or bytes in `outputBuffer_` and write interest, or is half-closed, or its
I/O thread is in `handleWrite` right before the half close (`half_close_kept`). That last moment is real:
other threads see `state_` in it (`between_halves`).

* `CallsShutdownWrite`: the next statement of a thread calls `shutdownWrite` (`writeShut_step`);
* `Kept`: the invariant, with `kept_run` for a statement and `kept_step` for a step.
-/

namespace Irono

open Transition Threads

namespace TcpServer

/-- The statement of thread `t` does `shutdownInLoop`. -/
def Stmt.ShutsDown (cfg : LoopThreads) (s : TcpServer) (t : ThreadId) : Stmt → Prop
  | .runShutdownInLoop => t = cfg.io
  | .shutdownInLoop => t = cfg.io
  | .drained => t = cfg.io ∧ s.conn.state = .kDisconnecting
  | _ => False

/-- The next statement of thread `t` calls `shutdownWrite`. -/
def CallsShutdownWrite (cfg : LoopThreads) (s : TcpServer) (t : ThreadId) : Prop :=
  (∃ stmt ∈ (s.threads.frames t).head?, stmt.ShutsDown cfg s t) ∧ s.conn.channel.isWriting = false

/-- A `shutdown` past its `setState` whose `shutdownInLoop` has not been executed. -/
def ShutdownComing (cfg : LoopThreads) (s : TcpServer) : Prop :=
  (∃ t, .runShutdownInLoop ∈ s.agenda t) ∨ .shutdownInLoop ∈ s.agenda cfg.io

variable {cfg : LoopThreads} {s s' : TcpServer} {t : ThreadId} {th : Threads Handler Stmt} {stmt : Stmt}

/-- What a statement does about the half close is not a matter of what the threads are at. -/
theorem shutsDown_threads (th : Threads Handler Stmt) :
    stmt.ShutsDown cfg { s with threads := th } t ↔ stmt.ShutsDown cfg s t := by
  cases stmt <;> exact Iff.rfl

/-! ## What `shutdownWrite` is called for -/

/-- `shutdownInLoop` shuts the socket unless the channel is writing. -/
theorem shutdownInLoop_eq (hs : s.shutdownInLoop cfg t = .ok s') : t = cfg.io ∧
    s'.conn.socket.writeShut = (s.conn.socket.writeShut || !s.conn.channel.isWriting) := by
  simp only [shutdownInLoop, bind_eq_ok, require_eq_ok, pure_eq_ok, Except.ok.injEq] at hs
  obtain ⟨-, ht, rfl⟩ := hs
  refine ⟨ht, ?_⟩
  unfold TcpConnection.shutdownInLoop
  split
  · rename_i hw; simp [hw]
  · rename_i hw; simp [hw]

/-- `sendInLoop` shuts nothing and does not empty the buffer. -/
theorem sendInLoop_writeShut (hv : s.conn.outputBuffer.Valid) {message : Message} {w : Option Nat}
    (hs : s.sendInLoop cfg t message w = .ok s') :
    s'.conn.socket.writeShut = s.conn.socket.writeShut ∧
      (s.conn.outputBuffer.content ≠ [] → s'.conn.outputBuffer.content ≠ []) := by
  obtain ⟨-, conn, wc, hconn, rfl⟩ := sendInLoop_eq hs
  obtain ⟨hframe, -, -, hcase⟩ := TcpConnection.sendInLoop_cases hv hconn
  refine ⟨by rw [hframe], fun hne => ?_⟩
  rcases hcase with ⟨-, hout, -⟩ | ⟨-, hne', -⟩
  · rw [hout]; exact hne
  · exact hne'

/-- What a statement does to the socket and to bytes that wait. -/
structure HalfCloses (cfg : LoopThreads) (t : ThreadId) (stmt : Stmt) (s s' : TcpServer) : Prop where
  writeShut : s'.conn.socket.writeShut = true ↔ s.conn.socket.writeShut = true ∨
    stmt.ShutsDown cfg s t ∧ s.conn.channel.isWriting = false
  /-- only `handleWrite` empties the buffer, and comes to its second half then -/
  kept : s.conn.outputBuffer.content ≠ [] → s'.conn.outputBuffer.content ≠ [] ∨
    stmt = .handleWrite ∧ (s'.threads.frames t).head? = some .drained

theorem HalfCloses.of_quiet (hno : ¬ stmt.ShutsDown cfg s t)
    (hshut : s'.conn.socket.writeShut = s.conn.socket.writeShut)
    (hkept : s.conn.outputBuffer.content ≠ [] → s'.conn.outputBuffer.content ≠ []) :
    HalfCloses cfg t stmt s s' :=
  ⟨by rw [hshut, iff_self_or]; exact fun h => absurd h.1 hno, fun hne => .inl (hkept hne)⟩

theorem HalfCloses.of_shutdownInLoop (hs : s.shutdownInLoop cfg t = .ok s')
    (hyes : t = cfg.io → stmt.ShutsDown cfg s t) : HalfCloses cfg t stmt s s' := by
  obtain ⟨ht, hshut⟩ := shutdownInLoop_eq hs
  refine ⟨?_, fun hne => .inl ?_⟩
  · rw [hshut, Bool.or_eq_true, Bool.not_eq_true']
    exact or_congr_right (and_iff_right (hyes ht)).symm
  · rw [(shutdownInLoop_sameOutput hs).1.outputBuffer]; exact hne

/-- **A statement and the half close.** It calls `shutdownWrite` if it does `shutdownInLoop` on a channel
    that is not writing. -/
theorem run_halfCloses (hv : s.conn.outputBuffer.Valid) {w : Option Nat} {r : Option (List Byte)}
    (hs : s.run cfg t w r stmt = .ok s') : HalfCloses cfg t stmt s s' := by
  cases stmt with
  | user => simp [run] at hs
  | acceptLoop => simp [run] at hs
  | shutdownInLoop => exact .of_shutdownInLoop hs id
  | runShutdownInLoop =>
    simp only [run] at hs
    split at hs
    · exact .of_shutdownInLoop hs id
    · rename_i ht
      simp only [pure_eq_ok, Except.ok.injEq] at hs
      subst hs
      exact .of_quiet ht rfl id
  | drained =>
    simp only [run] at hs
    split at hs
    · rename_i hstate
      exact .of_shutdownInLoop hs fun ht => ⟨ht, hstate⟩
    · rename_i hstate
      simp only [pure_eq_ok, Except.ok.injEq] at hs
      subst hs
      exact .of_quiet (fun h => hstate h.2) rfl id
  | handleWrite =>
    obtain ⟨conn, drained, hconn, rfl⟩ := run_handleWrite hs
    obtain ⟨hframe, -, -, hcase⟩ := TcpConnection.handleWrite_cases hv hconn
    refine ⟨by rw [hframe, iff_self_or]; exact fun h => h.1.elim, fun hne => ?_⟩
    rcases hcase with ⟨-, rfl⟩ | ⟨-, -, hne', -⟩ | ⟨rfl, -⟩
    · exact .inl hne
    · exact .inl hne'
    · exact .inr ⟨rfl, by simp [Threads.push]⟩
  | handleRead revents =>
    obtain ⟨conn, next, callbacks, hconn, rfl, -⟩ := run_handleRead hs
    have hframe := TcpConnection.readInput_cases hconn
    exact .of_quiet id (by rw [hframe]) (by rw [hframe]; exact id)
  | send message =>
    simp only [run, bind_eq_ok, pure_eq_ok, Except.ok.injEq] at hs
    obtain ⟨s₁, hs₁, rfl⟩ := hs
    split at hs₁
    · obtain ⟨hshut, hkept⟩ := sendInLoop_writeShut hv hs₁
      exact .of_quiet id hshut hkept
    · simp only [Except.ok.injEq] at hs₁
      subst hs₁
      exact .of_quiet id rfl id
  | sendInLoop message =>
    obtain ⟨hshut, hkept⟩ := sendInLoop_writeShut hv hs
    exact .of_quiet id hshut hkept
  | connectEstablished =>
    simp only [run, bind_eq_ok, Result.mapFault_eq_ok, pure_eq_ok, Except.ok.injEq] at hs
    obtain ⟨-, -, conn, hconn, rfl⟩ := hs
    obtain ⟨-, hframe, -⟩ := TcpConnection.connectEstablished_cases hconn
    exact .of_quiet id (by rw [hframe]) (by rw [hframe]; exact id)
  | connectDestroyed =>
    simp only [run, bind_eq_ok, Result.mapFault_eq_ok, pure_eq_ok, Except.ok.injEq] at hs
    obtain ⟨-, -, conn, hconn, rfl⟩ := hs
    obtain ⟨-, hframe, -⟩ := TcpConnection.connectDestroyed_cases hconn
    exact .of_quiet id (by rw [hframe]) (by rw [hframe]; exact id)
  | removeChannel =>
    simp only [run, bind_eq_ok, Result.mapFault_eq_ok, pure_eq_ok, Except.ok.injEq] at hs
    obtain ⟨-, -, conn, hconn, rfl⟩ := hs
    obtain ⟨hframe, -⟩ := TcpConnection.removeChannel_cases hconn
    exact .of_quiet id (by rw [hframe]) (by rw [hframe]; exact id)
  | handleClose =>
    simp only [run, bind_eq_ok, Result.mapFault_eq_ok, pure_eq_ok, Except.ok.injEq] at hs
    obtain ⟨-, -, conn, hconn, rfl⟩ := hs
    obtain ⟨-, hframe, -⟩ := TcpConnection.handleClose_cases hconn
    exact .of_quiet id (by rw [hframe]) (by rw [hframe]; exact id)
  | removeConnectionInLoop =>
    simp only [run, bind_eq_ok, pure_eq_ok, Except.ok.injEq] at hs
    obtain ⟨-, -, -, -, rfl⟩ := hs
    exact .of_quiet id rfl id
  | _ =>
    simp only [run, pure_eq_ok, Except.ok.injEq] at hs
    subst hs
    exact .of_quiet id rfl id

/-- The other steps leave the socket alone. -/
theorem step_socket {a : Label} (hno : ∀ t w r, a ≠ .exec t w r) (hs : s.step cfg a = .ok s') :
    s'.conn.socket = s.conn.socket := by
  cases a with
  | exec t w r => exact absurd rfl (hno t w r)
  | loop t mv =>
    simp only [step, bind_eq_ok, pure_eq_ok, Except.ok.injEq] at hs
    obtain ⟨-, -, th, -, rfl⟩ := hs
    rfl
  | ret t =>
    simp only [step] at hs
    split at hs
    · simp only [pure_eq_ok, Except.ok.injEq] at hs; rw [← hs]
    · simp only [pure_eq_ok, Except.ok.injEq] at hs; rw [← hs]
    · cases hs
  | retrieve len =>
    simp only [step, bind_eq_ok, pure_eq_ok, Except.ok.injEq] at hs
    obtain ⟨-, -, b, -, rfl⟩ := hs
    rfl
  | send t bytes =>
    simp only [step, bind_eq_ok] at hs
    obtain ⟨-, -, hs⟩ := hs
    split at hs <;> simp only [pure_eq_ok, Except.ok.injEq] at hs <;> rw [← hs]
  | shutdown t =>
    simp only [step, bind_eq_ok] at hs
    obtain ⟨-, -, hs⟩ := hs
    split at hs <;> simp only [pure_eq_ok, Except.ok.injEq] at hs <;> rw [← hs]
  | _ =>
    simp only [step, bind_eq_ok, pure_eq_ok, Except.ok.injEq] at hs
    obtain ⟨-, -, rfl⟩ := hs
    rfl

/-- **Who shuts the socket.** The steps that `CallsShutdownWrite` names, and no others. -/
theorem writeShut_step {a : Label} (hl : s.Lifecycle cfg) (hs : s.step cfg a = .ok s') :
    s'.conn.socket.writeShut = true ↔ s.conn.socket.writeShut = true ∨
      ∃ t w r, a = .exec t w r ∧ s.CallsShutdownWrite cfg t := by
  by_cases hexec : ∀ t w r, a ≠ .exec t w r
  · rw [step_socket hexec hs, iff_self_or]
    rintro ⟨t, w, r, rfl, -⟩
    exact absurd rfl (hexec t w r)
  · simp only [not_forall, not_not] at hexec
    obtain ⟨t, w, r, rfl⟩ := hexec
    simp only [step] at hs
    split at hs
    · rename_i stmt th hp
      have hhead : (s.threads.frames t).head? = some stmt := by rw [(frames_pop hp).1]; rfl
      rw [(run_halfCloses (s := { s with threads := th }) hl.intact.valid hs).writeShut]
      refine or_congr_right ⟨fun h => ⟨t, w, r, rfl, ⟨stmt, hhead, ?_⟩, h.2⟩, ?_⟩
      · exact (shutsDown_threads th).mp h.1
      · rintro ⟨t', w', r', heq, ⟨stmt', hhead', hshuts⟩, hw⟩
        cases heq
        rw [hhead, Option.mem_some_iff] at hhead'
        subst hhead'
        exact ⟨(shutsDown_threads th).mpr hshuts, hw⟩
    · cases hs

/-! ## `handleWrite` goes on at once -/

/-- If thread `t` has drained the buffer in `handleWrite`, it is at the end of it. -/
def DrainsAtOnce (s : TcpServer) (t : ThreadId) : Prop :=
  .drained ∉ s.agenda t ∨ (s.threads.frames t).head? = some .drained ∧ .drained ∉ (s.agenda t).tail

theorem Stmt.Begins.drained {x : Stmt} (h : stmt.Begins x) (hx : x = .drained) : stmt = .handleWrite := by
  subst hx
  cases stmt <;> simp [Stmt.Begins] at h ⊢

theorem Stmt.Queues.ne_drained {x : Stmt} (h : stmt.Queues x) : x ≠ .drained := by
  rintro rfl
  cases stmt <;> simp [Stmt.Queues] at h

theorem handler_ne_drained {hd : Handler} (h : stmt ∈ hd.stmts) : stmt ≠ .drained := by
  cases hd with
  | acceptor => rw [List.mem_singleton.mp h]; simp
  | user => rw [List.mem_singleton.mp h]; simp
  | connection revents => rcases callbackStmt_cases h with rfl | rfl | rfl | rfl <;> simp

/-- What is left when a thread begins its next statement. -/
theorem DrainsAtOnce.rest (h : s.DrainsAtOnce t) (hp : s.threads.pop t = some (stmt, th)) :
    .drained ∉ th.agenda Handler.stmts t := by
  have hag : s.agenda t = stmt :: th.agenda Handler.stmts t := by rw [agenda, agenda_pop hp, if_pos rfl]; rfl
  rcases h with hno | ⟨-, hno⟩
  · rw [hag, List.mem_cons, not_or] at hno
    exact hno.2
  · rwa [hag, List.tail_cons] at hno

/-- More behind the agenda does not matter. -/
theorem DrainsAtOnce.append (h : s.DrainsAtOnce t) (back : List Stmt)
    (hframes : s'.threads.frames t = s.threads.frames t) (hag : s'.agenda t = s.agenda t ++ back)
    (hback : .drained ∉ back) : s'.DrainsAtOnce t := by
  unfold DrainsAtOnce
  rw [hframes, hag]
  refine h.imp (fun hno hin => ?_) fun hyes => ⟨hyes.1, fun hin => ?_⟩
  · exact (List.mem_append.mp hin).elim hno hback
  · have hne : s.agenda t ≠ [] := by
      intro hnil
      rw [(List.append_eq_nil_iff.mp hnil).1] at hyes
      cases hyes.1
    rw [List.tail_append_of_ne_nil hne] at hin
    exact (List.mem_append.mp hin).elim hyes.2 hback

/-- **A statement**: only `handleWrite` puts `drained` on the agenda, at its front. -/
theorem drainsAtOnce_run (h : ∀ t, s.DrainsAtOnce t) {w : Option Nat} {r : Option (List Byte)}
    (hp : s.threads.pop t = some (stmt, th)) (hs : { s with threads := th }.run cfg t w r stmt = .ok s')
    (t' : ThreadId) : s'.DrainsAtOnce t' := by
  obtain ⟨front, back, hg, hfront, hback⟩ := run_growsBy hs
  have hrest := (h t).rest hp
  have hb : .drained ∉ back t' := fun hin => (hback t' _ hin).ne_drained rfl
  by_cases ht : t' = t
  · subst ht
    by_cases hw : stmt = .handleWrite
    · subst hw
      obtain ⟨conn, drained, -, rfl⟩ := run_handleWrite hs
      cases drained with
      | false => exact .inl hrest
      | true =>
        refine .inr ⟨by simp [Threads.push], ?_⟩
        cases conn.writeCompleteCallback with
        | false => simpa [agenda, agenda_push] using hrest
        | true => simpa [agenda, agenda_push, agenda_queueInLoop] using hrest
    · refine .inl ?_
      rw [hg.agendas, if_pos rfl, List.mem_append, List.mem_append, not_or, not_or]
      exact ⟨⟨fun hin => hw ((hfront _ hin).drained rfl), hrest⟩, hb⟩
  · refine (h t').append (back t') ?_ ?_ hb
    · rw [hg.frames, if_neg ht, List.nil_append]
      exact (frames_pop hp).2 t' ht
    · rw [hg.agendas, agenda, agenda, agenda_pop hp t', if_neg ht, if_neg ht]

/-- **One step.** -/
theorem drainsAtOnce_step {a : Label} (hl : s.Lifecycle cfg) (h : ∀ t, s.DrainsAtOnce t)
    (hs : s.step cfg a = .ok s') (t' : ThreadId) : s'.DrainsAtOnce t' := by
  rcases step_cases hs with ⟨t, w, r, stmt, th, rfl, hp, hrun⟩ | ⟨t, mv, th, rfl, -, hadv, rfl⟩ |
    ⟨t, stmt, th, rfl, -, hp, rfl⟩ | ⟨-, -, t, front, back, hg, hhead, hfront, hback, -⟩
  · exact drainsAtOnce_run h hp hrun t'
  · obtain ⟨-, hframes, hother, hcase⟩ := agenda_advance hl.batched hadv
    by_cases ht : t' = t
    · subst ht
      -- a loop that moves on has come to the end of every member
      have hno : .drained ∉ s.agenda t' := by
        refine (h t').resolve_right fun hyes => ?_
        rw [hframes] at hyes
        cases hyes.1
      refine .inl fun hin => hno ?_
      rcases hcase with ⟨active, rfl, -, -, hag⟩ | ⟨-, hag⟩
      · rw [agenda, hag, if_pos rfl, List.mem_append] at hin
        refine hin.resolve_left fun hin => ?_
        obtain ⟨hd, -, hst⟩ := polled_stmts hin
        exact handler_ne_drained hst rfl
      · rwa [agenda, hag] at hin
    · refine (h t').append [] (hother t' ht) ?_ List.not_mem_nil
      rcases hcase with ⟨active, rfl, -, -, hag⟩ | ⟨-, hag⟩
      · rw [agenda, hag, if_neg ht, List.nil_append, List.append_nil]
      · rw [agenda, hag, List.append_nil]
  · by_cases ht : t' = t
    · subst ht
      exact .inl ((h t').rest hp)
    · refine (h t').append [] ((frames_pop hp).2 t' ht) ?_ List.not_mem_nil
      rw [agenda, agenda, agenda_pop hp t', if_neg ht, List.nil_append, List.append_nil]
  · have hb : .drained ∉ back t' := fun hin => by cases hback t' _ hin
    by_cases hnil : (if t' = t then front else []) = []
    · refine (h t').append (back t') ?_ ?_ hb
      · rw [hg.frames, hnil, List.nil_append]
      · rw [hg.agendas, hnil, List.nil_append]
    · obtain ⟨rfl, hne⟩ : t' = t ∧ front ≠ [] := by simpa using hnil
      -- nobody begins anything in the middle of `handleWrite`
      have hno : .drained ∉ s.agenda t' := by
        refine (h t').resolve_right fun hyes => ?_
        rcases hhead.resolve_left hne _ hyes.1 with hx | hx <;> cases hx
      refine .inl ?_
      rw [hg.agendas, if_pos rfl, List.mem_append, List.mem_append, not_or, not_or]
      exact ⟨⟨fun hin => hfront _ hin, hno⟩, hb⟩

theorem drainsAtOnce_of_reachable (h : (tcpServer cfg).Reachable s) : ∀ t, s.DrainsAtOnce t :=
  h.invariant (I := fun s => ∀ t, s.DrainsAtOnce t)
    (fun s h0 t => by obtain ⟨self, sockfd, rfl⟩ := h0; simp [DrainsAtOnce, start, agenda])
    (fun _ _ _ hr hI _ hs => drainsAtOnce_step (lifecycle_of_reachable hr) hI hs)

/-! ## The half close is not lost -/

/-- **The invariant.** -/
def Kept (cfg : LoopThreads) (s : TcpServer) : Prop :=
  s.conn.state = .kDisconnecting → s.history.closeCalls = 0 →
    s.ShutdownComing cfg ∨ s.conn.outputBuffer.content ≠ [] ∨ s.conn.socket.writeShut = true ∨
      .drained ∈ s.agenda cfg.io

/-- A statement that `Kept` waits for. -/
def Stmt.Awaited (stmt : Stmt) : Prop :=
  stmt = .runShutdownInLoop ∨ stmt = .shutdownInLoop ∨ stmt = .drained

/-- A statement that gives none of these up keeps the half close. -/
theorem Kept.mono (h : s.Kept cfg) (hstate : s'.conn.state = s.conn.state)
    (hclose : s'.history.closeCalls = s.history.closeCalls)
    (hout : s'.conn.outputBuffer = s.conn.outputBuffer)
    (hshut : s.conn.socket.writeShut = true → s'.conn.socket.writeShut = true)
    (hag : ∀ t x, x.Awaited → x ∈ s.agenda t → x ∈ s'.agenda t) : s'.Kept cfg := by
  intro hd hopen
  rw [hstate] at hd
  rw [hclose] at hopen
  rw [hout]
  rcases h hd hopen with (⟨t, hin⟩ | hin) | hne | hs | hin
  · exact .inl (.inl ⟨t, hag t _ (.inl rfl) hin⟩)
  · exact .inl (.inr (hag _ _ (.inr (.inl rfl)) hin))
  · exact .inr (.inl hne)
  · exact .inr (.inr (.inl (hshut hs)))
  · exact .inr (.inr (.inr (hag _ _ (.inr (.inr rfl)) hin)))

/-- **`shutdownInLoop` runs.** It half-closes, or bytes wait. -/
theorem shut_or_waits (ho : s.Output) (hv : s.conn.outputBuffer.Valid) (hup : s.history.callbacks ≠ [])
    (hopen : s.history.closeCalls = 0) (hshuts : stmt.ShutsDown cfg s t) {w : Option Nat}
    {r : Option (List Byte)} (hs : s.run cfg t w r stmt = .ok s') :
    s'.conn.outputBuffer.content ≠ [] ∨ s'.conn.socket.writeShut = true := by
  have hh := run_halfCloses hv hs
  by_cases hw : s.conn.channel.isWriting = true
  · refine .inl ((hh.kept ((ho.writing hup hopen).mp hw)).resolve_right ?_)
    rintro ⟨rfl, -⟩
    exact hshuts
  · exact .inr (hh.writeShut.mpr (.inr ⟨hshuts, by simpa using hw⟩))

/-- **A statement**: where one of them is given up, another takes its place. -/
theorem kept_run (hl : s.Lifecycle cfg) (ho : s.Output) (h : s.Kept cfg) {w : Option Nat}
    {r : Option (List Byte)} (hp : s.threads.pop t = some (stmt, th))
    (hs : { s with threads := th }.run cfg t w r stmt = .ok s') : s'.Kept cfg := by
  intro hd hopen
  obtain ⟨front, back, hg, hfront, hback⟩ := run_growsBy hs
  have hv : ({ s with threads := th } : TcpServer).conn.outputBuffer.Valid := hl.intact.valid
  obtain ⟨hclose, -, hstate⟩ := run_counts hv hs
  have hopen' : s.history.closeCalls = 0 := Nat.eq_zero_of_add_eq_zero_right (hclose.symm.trans hopen)
  have hh := run_halfCloses hv hs
  -- what was on an agenda is there still, or is the statement that runs
  have hag : ∀ t' x, x ∈ s.agenda t' → t' = t ∧ x = stmt ∨ x ∈ s'.agenda t' := by
    intro t' x hx
    rw [agenda, agenda_pop hp, List.mem_append] at hx
    rcases hx with hx | hx
    · split at hx
      · exact .inl ⟨‹_›, List.mem_singleton.mp hx⟩
      · cases hx
    · refine .inr ?_
      rw [hg.agendas]
      exact List.mem_append_left _ (List.mem_append_right _ hx)
  rcases hstate with hstate | ⟨-, hstate⟩ | ⟨rfl, -⟩ | ⟨-, hstate⟩
  · rw [hstate] at hd
    have hd' : s.conn.state = .kDisconnecting := hd
    have hup : s.history.callbacks ≠ [] := fun hnil => by
      have hk := hl.up.mpr hnil
      rw [hd'] at hk
      cases hk
    have hruns : stmt.ShutsDown cfg s t → s'.ShutdownComing cfg ∨ s'.conn.outputBuffer.content ≠ [] ∨
        s'.conn.socket.writeShut = true ∨ .drained ∈ s'.agenda cfg.io := by
      intro hshuts
      rcases shut_or_waits (s := { s with threads := th }) ⟨ho.bytes, ho.writing, ho.idle⟩ hv hup hopen'
        ((shutsDown_threads th).mpr hshuts) hs with hne | hshut
      · exact .inr (.inl hne)
      · exact .inr (.inr (.inl hshut))
    rcases h hd' hopen' with (⟨t', hin⟩ | hin) | hne | hshut | hin
    · rcases hag t' _ hin with ⟨rfl, rfl⟩ | hin
      · by_cases ht : t' = cfg.io
        · exact hruns ht
        · -- another thread queues it
          simp only [run, if_neg ht, pure_eq_ok, Except.ok.injEq] at hs
          subst hs
          refine .inl (.inr ?_)
          rw [agenda, agenda_queueInLoop, if_pos rfl]
          exact List.mem_append_right _ (List.mem_singleton_self _)
      · exact .inl (.inl ⟨t', hin⟩)
    · rcases hag _ _ hin with ⟨ht, rfl⟩ | hin
      · exact hruns ht.symm
      · exact .inl (.inr hin)
    · rcases hh.kept hne with hne | ⟨rfl, hhead⟩
      · exact .inr (.inl hne)
      · have ht : t = cfg.io := (hl.placed_pop hp).1.1
        subst ht
        exact .inr (.inr (.inr (List.mem_append_left _ (List.mem_of_mem_head? hhead))))
    · exact .inr (.inr (.inl (hh.writeShut.mpr (.inl hshut))))
    · rcases hag _ _ hin with ⟨ht, rfl⟩ | hin
      · exact hruns ⟨ht.symm, hd'⟩
      · exact .inr (.inr (.inr hin))
  · rw [hstate] at hd; cases hd
  · -- `shutdown` goes on to its `runInLoop`
    simp only [run, pure_eq_ok, Except.ok.injEq] at hs
    subst hs
    refine .inl (.inl ⟨t, ?_⟩)
    rw [agenda, agenda_push, if_pos rfl]
    exact List.mem_append_left _ (List.mem_singleton_self _)
  · rw [hstate] at hd; cases hd

/-- **One step.** -/
theorem kept_step {a : Label} (hr : (tcpServer cfg).Reachable s) (h : s.Kept cfg)
    (hs : s.step cfg a = .ok s') : s'.Kept cfg := by
  have hl := lifecycle_of_reachable hr
  have hshut : s.conn.socket.writeShut = true → s'.conn.socket.writeShut = true :=
    fun h => (writeShut_step hl hs).mpr (.inl h)
  rcases step_cases hs with ⟨t, w, r, stmt, th, rfl, hp, hrun⟩ | ⟨t, mv, th, rfl, -, hadv, rfl⟩ |
    ⟨t, stmt, th, rfl, hst, hp, rfl⟩ | ⟨hout, -, t, front, back, hg, -⟩
  · exact kept_run hl (output_of_reachable hr) h hp hrun
  · refine h.mono rfl rfl rfl hshut fun t' x _ hx => ?_
    obtain ⟨-, -, -, ⟨active, -, -, -, hag⟩ | ⟨-, hag⟩⟩ := agenda_advance hl.batched hadv
    · rw [agenda, hag]; exact List.mem_append_right _ hx
    · rw [agenda, hag]; exact hx
  · refine h.mono rfl rfl rfl hshut fun t' x haw hx => ?_
    rw [agenda, agenda_pop hp, List.mem_append] at hx
    refine hx.resolve_left fun hx => ?_
    split at hx
    · rw [List.mem_singleton.mp hx] at haw
      rcases hst with rfl | rfl <;> rcases haw with haw | haw | haw <;> cases haw
    · cases hx
  · refine h.mono hout.state hout.closeCalls hout.outputBuffer hshut fun t' x _ hx => ?_
    rw [hg.agendas]
    exact List.mem_append_left _ (List.mem_append_right _ hx)

theorem kept_of_reachable (h : (tcpServer cfg).Reachable s) : s.Kept cfg :=
  h.invariant (I := Kept cfg)
    (fun s h0 => by
      obtain ⟨self, sockfd, rfl⟩ := h0
      intro hd
      cases hd)
    (fun _ _ _ hr hI _ hs => kept_step hr hI hs)

/-! ## The result -/

/-- The half close of a connection in `kDisconnecting`, until `handleClose`: it is on its way, or waits for
    the buffer, or has been done, or is what `handleWrite` does next; and it is done over no bytes. -/
structure HalfCloseKept (cfg : LoopThreads) (s : TcpServer) : Prop where
  kept : s.conn.state = .kDisconnecting → s.history.closeCalls = 0 →
    s.ShutdownComing cfg ∨ (s.conn.outputBuffer.content ≠ [] ∧ s.conn.channel.isWriting = true) ∨
      s.conn.socket.writeShut = true ∨
      ((s.threads.frames cfg.io).head? = some .drained ∧ s.CallsShutdownWrite cfg cfg.io)
  flushed : ∀ t, s.CallsShutdownWrite cfg t → s.history.closeCalls = 0 → s.conn.outputBuffer.content = []

/-- **No half close is lost.** -/
theorem half_close_kept (h : (tcpServer cfg).Reachable s) : s.HalfCloseKept cfg := by
  have ho := output_of_reachable h
  refine ⟨fun hd hopen => ?_, fun t hcall hopen => ho.content_nil hopen hcall.2⟩
  have hup : s.history.callbacks ≠ [] := fun hnil => by
    have hk := (lifecycle_of_reachable h).up.mpr hnil
    rw [hd] at hk
    cases hk
  by_cases hw : s.conn.channel.isWriting = true
  · exact .inr (.inl ⟨(ho.writing hup hopen).mp hw, hw⟩)
  · have hw' : s.conn.channel.isWriting = false := by simpa using hw
    rcases kept_of_reachable h hd hopen with hcoming | hne | hshut | hin
    · exact .inl hcoming
    · exact absurd (ho.content_nil hopen hw') hne
    · exact .inr (.inr (.inl hshut))
    · obtain ⟨hhead, -⟩ := (drainsAtOnce_of_reachable h cfg.io).resolve_left fun hno => hno hin
      exact .inr (.inr (.inr ⟨hhead, ⟨_, hhead, rfl, hd⟩, hw'⟩))

/-- `shutdownInLoop` has found the channel writing; the half close waits for the last byte. -/
theorem half_close_kept_sample : ∃ s : TcpServer, s.conn.state = .kDisconnecting ∧
    s.history.closeCalls = 0 ∧ s.conn.outputBuffer.content = [3] ∧ s.conn.socket.writeShut = false ∧
    s.HalfCloseKept ⟨0, 1⟩ := by
  obtain ⟨s, hs, hp⟩ := System.Reach.of_exec (S := tcpServer ⟨0, 1⟩)
    (l := connect false ++ [Label.send 2 [1, 2, 3], .exec 2 none none, .shutdown 2, .exec 2 none none,
        .exec 2 none none] ++
      polls 1 [.wakeupChannel] ++ swaps 1 ++ [Label.exec 1 (some 2) none, .loop 1 .next, .exec 1 none none])
    (p := fun s => decide (s.conn.state = .kDisconnecting ∧ s.history.closeCalls = 0 ∧
      s.conn.outputBuffer.content = [3] ∧ s.conn.socket.writeShut = false))
    (.init ⟨4096, 9, rfl⟩) (by decide +kernel)
  rw [decide_eq_true_eq] at hp
  exact ⟨s, hp.1, hp.2.1, hp.2.2.1, hp.2.2.2, half_close_kept hs⟩

/-- The run of `half_close_kept_sample`, up to the middle of the `handleWrite` that drains the buffer. -/
def drainingRun : List Label :=
  connect false ++ [Label.send 2 [1, 2, 3], .exec 2 none none, .shutdown 2, .exec 2 none none, .exec 2 none none] ++
    polls 1 [.wakeupChannel] ++ swaps 1 ++ [Label.exec 1 (some 2) none, .loop 1 .next, .exec 1 none none] ++
    unwinds 1 ++ polls 1 [.channel (.connection {.POLLOUT})] ++ [Label.exec 1 (some 1) none]

set_option maxRecDepth 20000 in
theorem drainingRun_ends (t : ThreadId) : ((tcpServer ⟨0, 1⟩).exec (start 4096 9) drainingRun).toOption.map
    (fun s => decide (s.conn.state = .kDisconnecting ∧ s.history.closeCalls = 0 ∧
      s.conn.outputBuffer.content = [] ∧ s.conn.socket.writeShut = false ∧
      .shutdownInLoop ∉ s.agenda 1 ∧ .runShutdownInLoop ∉ s.agenda t)) = some true := by
  rcases t with _ | _ | _ | t
  · decide +kernel
  · decide +kernel
  · decide +kernel
  · rfl

/-- **Between the two halves of `handleWrite`** none of the first three holds: the `shutdownInLoop` has run
    and done nothing, the buffer is empty, and the half close is not done yet. -/
theorem between_halves : ¬ ∀ cfg s, (tcpServer cfg).Reachable s → s.conn.state = .kDisconnecting →
    s.history.closeCalls = 0 → s.ShutdownComing cfg ∨
      (s.conn.outputBuffer.content ≠ [] ∧ s.conn.channel.isWriting = true) ∨
      s.conn.socket.writeShut = true := by
  intro hall
  cases hexec : (tcpServer ⟨0, 1⟩).exec (start 4096 9) drainingRun with
  | error e =>
    have hends := drainingRun_ends 0
    rw [hexec] at hends
    cases hends
  | ok s =>
    have hends : ∀ t, s.conn.state = .kDisconnecting ∧ s.history.closeCalls = 0 ∧
        s.conn.outputBuffer.content = [] ∧ s.conn.socket.writeShut = false ∧
        .shutdownInLoop ∉ s.agenda 1 ∧ .runShutdownInLoop ∉ s.agenda t := by
      intro t
      have hends := drainingRun_ends t
      rw [hexec] at hends
      simpa only [Except.toOption, Option.map_some, Option.some.injEq, decide_eq_true_eq] using hends
    obtain ⟨hd, hopen, hnil, hshut, hin, -⟩ := hends 0
    have hr : (tcpServer ⟨0, 1⟩).Reachable s := System.Reach.exec (.init ⟨4096, 9, rfl⟩) hexec
    rcases hall ⟨0, 1⟩ s hr hd hopen with (⟨t, hrun⟩ | hcoming) | ⟨hne, -⟩ | hshut'
    · exact (hends t).2.2.2.2.2 hrun
    · exact hin hcoming
    · exact hne hnil
    · rw [hshut] at hshut'; cases hshut'

end TcpServer

end Irono
