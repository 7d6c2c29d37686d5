import Irono.Net.Correctness.SendOrder

/-!
# `Net.Correctness.HalfClose` — what was sent before `shutdown` goes out before `shutdownWrite`

A `shutdownInLoop` that comes out of the functor queue comes after every `sendInLoop` queued before it,
and finds the channel writing as long as bytes wait. But it also runs inline: in a `shutdown` called by the
loop thread itself, and in a `handleWrite` that has drained the buffer. There it overtakes what other
threads have queued, and `shutdownWrite` cuts their messages off (`cut_off`). `ShutsInOrder` rules the
overtaking out.
-/

namespace Irono

open Transition Threads

namespace TcpServer

/-- The messages with something in them whose `send` had returned when `shutdown` was first called. -/
def owed (s : TcpServer) : List Message :=
  (s.history.beforeShutdown.getD []).filter fun m => m.bytes ≠ []

/-- If `shutdownInLoop` would half-close now, no such message is still queued. -/
def ClearToShut (cfg : LoopThreads) (s : TcpServer) : Prop :=
  s.conn.channel.isWriting = false → s.history.closeCalls = 0 → ∀ m ∈ s.owed, m ∉ s.queued cfg

instance (cfg : LoopThreads) (s : TcpServer) : Decidable (s.ClearToShut cfg) :=
  inferInstanceAs (Decidable (_ → _ → ∀ m ∈ s.owed, m ∉ s.queued cfg))

/-- The condition on a statement of thread `t`, where it runs `shutdownInLoop` inline. -/
def Stmt.ShutsInOrder (cfg : LoopThreads) (s : TcpServer) (t : ThreadId) : Stmt → Prop
  | .runShutdownInLoop => t = cfg.io → s.ClearToShut cfg
  | .drained => s.conn.state = .kDisconnecting → s.ClearToShut cfg
  | _ => True

instance (cfg : LoopThreads) (s : TcpServer) (t : ThreadId) : (stmt : Stmt) →
    Decidable (stmt.ShutsInOrder cfg s t)
  | .runShutdownInLoop => inferInstanceAs (Decidable (_ → s.ClearToShut cfg))
  | .drained => inferInstanceAs (Decidable (_ → s.ClearToShut cfg))
  | .user => isTrue trivial
  | .acceptLoop => isTrue trivial
  | .runConnectEstablished => isTrue trivial
  | .setCloseCallback => isTrue trivial
  | .connectEstablished => isTrue trivial
  | .connectDestroyed => isTrue trivial
  | .removeChannel => isTrue trivial
  | .handleClose => isTrue trivial
  | .handleError => isTrue trivial
  | .handleRead _ => isTrue trivial
  | .handleWrite => isTrue trivial
  | .removeConnection => isTrue trivial
  | .removeConnectionInLoop => isTrue trivial
  | .send _ => isTrue trivial
  | .sendInLoop _ => isTrue trivial
  | .setDisconnecting => isTrue trivial
  | .shutdownInLoop => isTrue trivial

/-- The condition on a step. -/
def ShutsInOrder (cfg : LoopThreads) (s : TcpServer) : Label → Prop
  | .exec t _ _ => ∀ stmt ∈ (s.threads.frames t).head?, stmt.ShutsInOrder cfg s t
  | _ => True

instance (cfg : LoopThreads) (s : TcpServer) : (a : Label) → Decidable (s.ShutsInOrder cfg a)
  | .exec t _ _ => inferInstanceAs (Decidable (∀ stmt ∈ (s.threads.frames t).head?, stmt.ShutsInOrder cfg s t))
  | .loop .. => isTrue trivial
  | .ret _ => isTrue trivial
  | .newConnection _ => isTrue trivial
  | .send .. => isTrue trivial
  | .shutdown _ => isTrue trivial
  | .retrieve _ => isTrue trivial
  | .queueInLoop .. => isTrue trivial
  | .quit .. => isTrue trivial

/-! ## What has been sent -/

/-- **Returned messages.** They have run or are queued. -/
structure Returned (s : TcpServer) : Prop where
  returned : ∀ m ∈ s.history.returned, m ∈ s.history.sends ∧ ∀ t, m ∉ s.calling t
  noted : ∀ m ∈ s.history.beforeShutdown.getD [], m ∈ s.history.returned

variable {cfg : LoopThreads} {s s' : TcpServer} {t : ThreadId} {th : Threads Handler Stmt} {stmt : Stmt}

theorem returned_start (self : Addr) (sockfd : Int) : (start self sockfd).Returned := by
  refine ⟨?_, ?_⟩ <;> simp [start]

/-- A message whose `send` has returned has run, or is queued in the I/O loop. -/
theorem Returned.ran_or_queued (h : s.Returned) (hs : s.Sends cfg) {m : Message} (hm : m ∈ s.history.returned) :
    m ∈ s.history.ran ∨ m ∈ s.queued cfg := by
  obtain ⟨hsent, hcall⟩ := h.returned m hm
  have hin : m ∈ ofThread m.sender s.history.sends := List.mem_filter.mpr ⟨hsent, by simp⟩
  rw [hs.order, List.mem_append, List.mem_append] at hin
  rcases hin with (hin | hin) | hin
  · exact .inl (List.mem_filter.mp hin).1
  · exact .inr (List.mem_filter.mp hin).1
  · exact absurd hin (hcall _)

theorem Returned.owed (h : s.Returned) {m : Message} (hm : m ∈ s.owed) : m ∈ s.history.returned :=
  h.noted m (List.mem_filter.mp hm).1

/-- A message being sent has not returned. -/
theorem Returned.not_calling (h : s.Returned) {m : Message} (hm : m ∈ s.calling t) : m ∉ s.history.returned :=
  fun hin => (h.returned m hin).2 t hm

/-- A `send` of the message that is being sent. -/
theorem mem_calling {m : Message} (hin : .send m ∈ s.agenda t) : m ∈ s.calling t :=
  List.mem_filterMap.mpr ⟨_, hin, rfl⟩

theorem Sends.mem_sends (h : s.Sends cfg) {m : Message} (hm : m ∈ s.calling t) : m ∈ s.history.sends := by
  have hin : m ∈ ofThread t s.history.sends := by
    rw [h.order]; exact List.mem_append_right _ hm
  exact (List.mem_filter.mp hin).1

/-- A statement keeps the returned messages, or returns from the `send` of its own. -/
theorem returned_run (hl : s.Lifecycle cfg) (hsd : s.Sends cfg) (h : s.Returned) {w : Option Nat}
    {r : Option (List Byte)} (hp : s.threads.pop t = some (stmt, th))
    (hs : { s with threads := th }.run cfg t w r stmt = .ok s') : s'.Returned := by
  obtain ⟨front, back, hg, hfront, hback⟩ := run_growsBy hs
  have hcall := (hsd.moved hp hg (fun x hx => (hfront x hx).not_message)
    (fun t' x hx => (hback t' x hx).not_sending)).calling
  have hsame := run_sameCalls hs
  have hin : stmt ∈ s.agenda t := by rw [agenda, agenda_pop hp]; simp
  have hret : s'.history.returned = s.history.returned ++ stmt.sending.toList := by
    cases stmt with
    | send message =>
      simp only [run, bind_eq_ok, pure_eq_ok, Except.ok.injEq] at hs
      obtain ⟨s₁, hs₁, rfl⟩ := hs
      split at hs₁
      · obtain ⟨-, conn, wc, -, rfl⟩ := sendInLoop_eq hs₁
        rfl
      · simp only [Except.ok.injEq] at hs₁
        rw [← hs₁]
        rfl
    | sendInLoop message =>
      obtain ⟨-, conn, wc, -, rfl⟩ := sendInLoop_eq hs
      simp [Stmt.sending]
    | _ => exact (run_ran rfl rfl hs).2.trans (List.append_nil _).symm
  refine ⟨fun m hm => ?_, fun m hm => ?_⟩
  · rw [hret, List.mem_append] at hm
    rw [hsame.sends]
    rcases hm with hm | hm
    · refine ⟨(h.returned m hm).1, fun t' => ?_⟩
      rw [hcall]
      split
      · simp
      · exact (h.returned m hm).2 t'
    · -- the `send` that returns
      cases stmt with
      | send message =>
        rw [Stmt.sending, Option.toList_some, List.mem_singleton] at hm
        subst hm
        refine ⟨hsd.mem_sends (mem_calling hin), fun t' => ?_⟩
        rw [hcall]
        split
        · simp
        · rename_i ht
          intro hm
          obtain ⟨x, hx, hxm⟩ := List.mem_filterMap.mp hm
          cases x with
          | send m' =>
            simp only [Stmt.sending, Option.some.injEq] at hxm
            subst hxm
            exact ht ((hl.placed _ _ hx).1.symm.trans (hl.placed _ _ hin).1)
          | _ => cases hxm
      | _ => cases hm
  · rw [hsame.beforeShutdown] at hm
    rw [hret]
    exact List.mem_append_left _ (h.noted m hm)

/-- **One step.** -/
theorem returned_step {a : Label} (hl : s.Lifecycle cfg) (hsd : s.Sends cfg) (h : s.Returned)
    (hs : s.step cfg a = .ok s') : s'.Returned := by
  rcases step_cases hs with ⟨t, w, r, stmt, th, rfl, hp, hrun⟩ | ⟨t, mv, th, rfl, -, hadv, rfl⟩ |
    ⟨t, stmt, th, rfl, hst, hp, rfl⟩ | ⟨hout, -, t, front, back, hg, -, hfront, hback, hcalled⟩
  · exact returned_run hl hsd h hp hrun
  · refine ⟨fun m hm => ⟨(h.returned m hm).1, fun t' hin => ?_⟩, h.noted⟩
    obtain ⟨x, hx, hxm⟩ := List.mem_filterMap.mp hin
    obtain ⟨-, -, -, ⟨active, rfl, -, -, hag⟩ | ⟨-, hag⟩⟩ := agenda_advance hl.batched hadv
    · rw [agenda, hag, List.mem_append] at hx
      rcases hx with hx | hx
      · split at hx
        · obtain ⟨hd, -, hx⟩ := polled_stmts hx
          rw [(handler_not_message hx).1] at hxm; cases hxm
        · cases hx
      · exact (h.returned m hm).2 t' (List.mem_filterMap.mpr ⟨x, hx, hxm⟩)
    · rw [agenda, hag] at hx
      exact (h.returned m hm).2 t' (List.mem_filterMap.mpr ⟨x, hx, hxm⟩)
  · refine ⟨fun m hm => ⟨(h.returned m hm).1, fun t' hin => ?_⟩, h.noted⟩
    obtain ⟨x, hx, hxm⟩ := List.mem_filterMap.mp hin
    refine (h.returned m hm).2 t' (List.mem_filterMap.mpr ⟨x, ?_, hxm⟩)
    rw [agenda, agenda_pop hp]
    exact List.mem_append_right _ hx
  · have hcall : ∀ t' m, m ∈ s'.calling t' → .send m ∈ front ∨ m ∈ s.calling t' := by
      intro t' m hin
      obtain ⟨x, hx, hxm⟩ := List.mem_filterMap.mp hin
      cases x with
      | send m' =>
        simp only [Stmt.sending, Option.some.injEq] at hxm
        subst hxm
        rw [hg.agendas, List.mem_append, List.mem_append] at hx
        rcases hx with (hx | hx) | hx
        · split at hx
          · exact .inl hx
          · cases hx
        · exact .inr (mem_calling hx)
        · cases hback t' _ hx
      | _ => cases hxm
    rcases hcalled with ⟨hno, -, hsends, hbefore⟩ | ⟨m₀, rfl, -, hserial, -, hsends, hbefore⟩
    · refine ⟨fun m hm => ?_, fun m hm => ?_⟩
      · rw [hout.returned] at hm
        rw [hsends]
        refine ⟨(h.returned m hm).1, fun t' hin => ?_⟩
        rcases hcall t' m hin with hin | hin
        · exact hno m hin
        · exact (h.returned m hm).2 t' hin
      · rw [hout.returned]
        rcases hbefore with hbefore | ⟨-, hbefore⟩
        · rw [hbefore] at hm; exact h.noted m hm
        · rw [hbefore] at hm; exact hm
    · refine ⟨fun m hm => ?_, fun m hm => ?_⟩
      · rw [hout.returned] at hm
        rw [hsends]
        refine ⟨List.mem_append_left _ (h.returned m hm).1, fun t' hin => ?_⟩
        rcases hcall t' m hin with hin | hin
        · -- the new message has a new number
          have hlt := hsd.serials m (h.returned m hm).1
          have heq : m = m₀ := by simpa using hin
          rw [heq, hserial] at hlt
          exact Nat.lt_irrefl _ hlt
        · exact (h.returned m hm).2 t' hin
      · rw [hbefore] at hm
        rw [hout.returned]; exact h.noted m hm

theorem returned_of_reachable (h : (tcpServer cfg).Reachable s) : s.Returned :=
  h.invariant (I := Returned)
    (fun s h0 => by obtain ⟨self, sockfd, rfl⟩ := h0; exact returned_start self sockfd)
    (fun _ _ _ hr hI _ hs => returned_step (lifecycle_of_reachable hr) (sends_of_reachable hr) hI hs)

/-! ## The half close -/

/-- A piece of a `shutdown` on its way. -/
def Stmt.OfShutdown : Stmt → Prop
  | .setDisconnecting => True
  | .runShutdownInLoop => True
  | .shutdownInLoop => True
  | _ => False

/-- The order in which the two statements must not come. -/
def SendAfterShut (owed : List Message) (x y : Stmt) : Prop :=
  x = .shutdownInLoop ∧ ∃ m ∈ owed, y = .sendInLoop m

/-- A half close that has happened: every byte of what had run was out, and what was owed had run. -/
def ShutdownMark.Flushed (mark : ShutdownMark) (owed : List Message) : Prop :=
  mark.accepted = (mark.ran.map Message.bytes).flatten ∧ ∀ m ∈ owed, m ∈ mark.ran

/-- **The invariant.** -/
structure HalfClose (cfg : LoopThreads) (s : TcpServer) : Prop where
  fresh : s.history.beforeShutdown = none → (∀ t, ∀ x ∈ s.agenda t, ¬ x.OfShutdown) ∧
    s.conn.state ≠ .kDisconnecting ∧ s.history.atShutdownWrite = none
  ordered : (s.agenda cfg.io).Pairwise fun x y => ¬ SendAfterShut s.owed x y
  mark : ∀ mark ∈ s.history.atShutdownWrite, mark.closed = false → mark.Flushed s.owed

theorem halfClose_start (self : Addr) (sockfd : Int) : (start self sockfd).HalfClose cfg := by
  refine ⟨fun _ => ⟨fun t => ?_, ?_, rfl⟩, ?_, ?_⟩ <;> simp [start, agenda, TcpConnection.new]

/-- `shutdownInLoop` half-closes with all out that has run, or leaves the mark as it is. -/
theorem shutdownInLoop_mark (hs : s.shutdownInLoop cfg t = .ok s') : t = cfg.io ∧
    (s'.history.atShutdownWrite = s.history.atShutdownWrite ∨ s.conn.channel.isWriting = false ∧
      s'.history.atShutdownWrite = s.history.atShutdownWrite.or
        (some ⟨s.history.ran, s.conn.socket.accepted, decide (0 < s.history.closeCalls)⟩)) := by
  simp only [shutdownInLoop, bind_eq_ok, require_eq_ok, pure_eq_ok, Except.ok.injEq] at hs
  obtain ⟨-, ht, rfl⟩ := hs
  refine ⟨ht, ?_⟩
  by_cases hw : s.conn.channel.isWriting = true
  · exact .inl (if_pos hw)
  · exact .inr ⟨by simpa using hw, if_neg hw⟩

/-- Only `shutdownInLoop` half-closes, and it runs in three places. -/
theorem run_mark {w : Option Nat} {r : Option (List Byte)} (hs : s.run cfg t w r stmt = .ok s') :
    s'.history.atShutdownWrite = s.history.atShutdownWrite ∨
    ((stmt = .shutdownInLoop ∨ stmt = .runShutdownInLoop ∨
        stmt = .drained ∧ s.conn.state = .kDisconnecting) ∧
      t = cfg.io ∧ s.conn.channel.isWriting = false ∧
      s'.history.atShutdownWrite = s.history.atShutdownWrite.or
        (some ⟨s.history.ran, s.conn.socket.accepted, decide (0 < s.history.closeCalls)⟩)) := by
  cases stmt with
  | user => simp [run] at hs
  | acceptLoop => simp [run] at hs
  | shutdownInLoop =>
    obtain ⟨ht, hm | ⟨hw, hm⟩⟩ := shutdownInLoop_mark hs
    · exact .inl hm
    · exact .inr ⟨.inl rfl, ht, hw, hm⟩
  | runShutdownInLoop =>
    simp only [run] at hs
    split at hs
    · obtain ⟨ht, hm | ⟨hw, hm⟩⟩ := shutdownInLoop_mark hs
      · exact .inl hm
      · exact .inr ⟨.inr (.inl rfl), ht, hw, hm⟩
    · simp only [pure_eq_ok, Except.ok.injEq] at hs
      exact .inl (by rw [← hs])
  | drained =>
    simp only [run] at hs
    split at hs
    · rename_i hstate
      obtain ⟨ht, hm | ⟨hw, hm⟩⟩ := shutdownInLoop_mark hs
      · exact .inl hm
      · exact .inr ⟨.inr (.inr ⟨rfl, hstate⟩), ht, hw, hm⟩
    · simp only [pure_eq_ok, Except.ok.injEq] at hs
      exact .inl (by rw [← hs])
  | handleRead revents =>
    obtain ⟨conn, next, callbacks, -, rfl, -⟩ := run_handleRead hs
    exact .inl rfl
  | handleWrite =>
    obtain ⟨conn, drained, -, rfl⟩ := run_handleWrite hs
    exact .inl rfl
  | send message =>
    simp only [run, bind_eq_ok, pure_eq_ok, Except.ok.injEq] at hs
    obtain ⟨s₁, hs₁, rfl⟩ := hs
    split at hs₁
    · obtain ⟨-, conn, wc, -, rfl⟩ := sendInLoop_eq hs₁
      exact .inl rfl
    · simp only [Except.ok.injEq] at hs₁
      exact .inl (by rw [← hs₁])
  | sendInLoop message =>
    obtain ⟨-, conn, wc, -, rfl⟩ := sendInLoop_eq hs
    exact .inl rfl
  | _ =>
    simp only [run, bind_eq_ok, pure_eq_ok, Except.ok.injEq] at hs
    first
      | exact .inl (by rw [← hs])
      | (obtain ⟨-, -, conn, -, rfl⟩ := hs; exact .inl rfl)

theorem Stmt.Begins.ne_shutdownInLoop {x : Stmt} (h : stmt.Begins x) : x ≠ .shutdownInLoop := by
  rintro rfl
  cases stmt <;> simp [Stmt.Begins] at h

/-- Only a shutdown goes on with, or queues, a piece of one. -/
theorem Stmt.Begins.not_ofShutdown {x : Stmt} (h : stmt.Begins x) (hno : ¬ stmt.OfShutdown) : ¬ x.OfShutdown := by
  intro hx
  cases x with
  | setDisconnecting => cases stmt <;> simp [Stmt.Begins] at h
  | runShutdownInLoop =>
    cases stmt <;> simp [Stmt.Begins] at h
    exact hno trivial
  | shutdownInLoop => exact h.ne_shutdownInLoop rfl
  | _ => exact hx

theorem Stmt.Queues.not_ofShutdown {x : Stmt} (h : stmt.Queues x) (hno : ¬ stmt.OfShutdown) : ¬ x.OfShutdown := by
  intro hx
  cases x with
  | setDisconnecting => cases stmt <;> simp [Stmt.Queues] at h
  | runShutdownInLoop => cases stmt <;> simp [Stmt.Queues] at h
  | shutdownInLoop =>
    cases stmt <;> simp [Stmt.Queues] at h
    exact hno trivial
  | _ => exact hx

theorem handler_not_ofShutdown {hd : Handler} (h : stmt ∈ hd.stmts) : ¬ stmt.OfShutdown := by
  cases hd with
  | acceptor => rw [List.mem_singleton.mp h]; exact id
  | user => rw [List.mem_singleton.mp h]; exact id
  | connection revents => rcases callbackStmt_cases h with rfl | rfl | rfl | rfl <;> exact id

/-- **The moment of `shutdownWrite`.** The bytes of what has run are out, and nothing owed is queued. -/
theorem flushed_now (ho : s.Output) (hsd : s.Sends cfg) (hr : s.Returned)
    (hw : s.conn.channel.isWriting = false) (hclosed : s.history.closeCalls = 0)
    (hclear : ∀ m ∈ s.owed, m ∉ s.queued cfg) {closed : Bool} :
    ShutdownMark.Flushed ⟨s.history.ran, s.conn.socket.accepted, closed⟩ s.owed := by
  have hnil : s.conn.outputBuffer.content = [] := ho.content_nil hclosed hw
  refine ⟨?_, fun m hm => ?_⟩
  · have hbytes := ho.bytes
    rwa [hnil, List.append_nil] at hbytes
  · exact (hr.ran_or_queued hsd (hr.owed hm)).resolve_right (hclear m hm)

/-- **A statement** under the condition. -/
theorem halfClose_run (hl : s.Lifecycle cfg) (ho : s.Output) (hsd : s.Sends cfg) (hr : s.Returned)
    (h : s.HalfClose cfg) {w : Option Nat} {r : Option (List Byte)} (hc : stmt.ShutsInOrder cfg s t)
    (hp : s.threads.pop t = some (stmt, th)) (hs : { s with threads := th }.run cfg t w r stmt = .ok s') :
    s'.HalfClose cfg := by
  obtain ⟨front, back, hg, hfront, hback⟩ := run_growsBy hs
  have hsame := run_sameCalls hs
  have hbefore : s'.history.beforeShutdown = s.history.beforeShutdown := hsame.beforeShutdown
  have howed : s'.owed = s.owed := by rw [owed, owed, hbefore]
  have hin : stmt ∈ s.agenda t := by rw [agenda, agenda_pop hp]; simp
  have hord : (th.agenda Handler.stmts cfg.io).Pairwise fun x y => ¬ SendAfterShut s.owed x y := by
    have hord := h.ordered
    rw [agenda, agenda_pop hp] at hord
    exact (List.pairwise_append.mp hord).2.1
  -- before the first `shutdown`; the order of what is queued; the half close itself
  refine ⟨fun hnone => ?_, ?_, fun mark hmark hopen => ?_⟩
  · rw [hbefore] at hnone
    obtain ⟨hno, hstate, hmark⟩ := h.fresh hnone
    have hstmt := hno t stmt hin
    refine ⟨fun t' x hx => ?_, fun hd => ?_, ?_⟩
    · rw [hg.agendas, List.mem_append, List.mem_append] at hx
      rcases hx with (hx | hx) | hx
      · split at hx
        · exact (hfront x hx).not_ofShutdown hstmt
        · cases hx
      · exact hno t' x (by rw [agenda, agenda_pop hp]; exact List.mem_append_right _ hx)
      · exact (hback t' x hx).not_ofShutdown hstmt
    · rcases (run_counts (s := { s with threads := th }) hl.intact.valid hs).2.2 with
        hst | ⟨-, hst⟩ | ⟨rfl, -⟩ | ⟨-, hst⟩
      · exact hstate (hst ▸ hd)
      · rw [hst] at hd; cases hd
      · exact hstmt trivial
      · rw [hst] at hd; cases hd
    · rcases run_mark hs with hm | ⟨rfl | rfl | ⟨-, hst⟩, -⟩
      · exact hm.trans hmark
      · exact absurd trivial hstmt
      · exact absurd trivial hstmt
      · exact absurd hst hstate
  · rw [howed, hg.agendas]
    refine pairwise_agenda hord ?_ ?_
    · rintro x hx y ⟨rfl, -⟩
      split at hx
      · exact (hfront _ hx).ne_shutdownInLoop rfl
      · cases hx
    · -- a message that is queued now has not returned before
      rintro y hy x ⟨-, m, hm, rfl⟩
      have hq := hback cfg.io _ hy
      cases stmt with
      | send message =>
        have heq : m = message := by simpa [Stmt.Queues] using hq
        exact hr.not_calling (mem_calling (heq ▸ hin)) (hr.owed hm)
      | _ => simp [Stmt.Queues] at hq
  · rw [howed]
    rcases run_mark hs with hm | ⟨hplace, rfl, hw, hm⟩
    · rw [hm] at hmark
      exact h.mark mark hmark hopen
    · rw [hm, Option.mem_def, Option.or_eq_some_iff] at hmark
      rcases hmark with hmark | ⟨-, hmark⟩
      · exact h.mark mark hmark hopen
      · simp only [Option.some.injEq] at hmark
        subst hmark
        have hclosed : s.history.closeCalls = 0 := by simpa using hopen
        refine flushed_now ho hsd hr hw hclosed ?_
        rcases hplace with rfl | rfl | ⟨rfl, hstate⟩
        · -- out of the functor queue: what is queued is behind it
          have hord := h.ordered
          rw [agenda, agenda_pop hp, if_pos rfl, List.singleton_append, List.pairwise_cons] at hord
          intro m hm hq
          rw [queued, agenda, agenda_pop hp, if_pos rfl, List.singleton_append] at hq
          obtain ⟨x, hx, hxm⟩ := List.mem_filterMap.mp hq
          cases x with
          | sendInLoop m' =>
            simp only [Stmt.waiting, Option.some.injEq] at hxm
            subst hxm
            rcases List.mem_cons.mp hx with hx | hx
            · cases hx
            · exact hord.1 _ hx ⟨rfl, m', hm, rfl⟩
          | _ => cases hxm
        · exact hc rfl hw hclosed
        · exact hc hstate hw hclosed

/-- **One step** under the condition. -/
theorem halfClose_step {a : Label} (hr : (tcpServer cfg).Reachable s) (h : s.HalfClose cfg)
    (hc : s.ShutsInOrder cfg a) (hs : s.step cfg a = .ok s') : s'.HalfClose cfg := by
  have hl := lifecycle_of_reachable hr
  -- a statement, a piece of the loop, the end of a call, or a call of the user
  rcases step_cases hs with ⟨t, w, r, stmt, th, rfl, hp, hrun⟩ | ⟨t, mv, th, rfl, -, hadv, rfl⟩ |
    ⟨t, stmt, th, rfl, -, hp, rfl⟩ | ⟨hout, -, t, front, back, hg, -, hfront, hback, hcalled⟩
  · have hhead : stmt ∈ (s.threads.frames t).head? := by rw [(frames_pop hp).1]; rfl
    exact halfClose_run hl (output_of_reachable hr) (sends_of_reachable hr) (returned_of_reachable hr) h
      (hc stmt hhead) hp hrun
  · obtain ⟨-, -, -, ⟨active, rfl, -, -, hag⟩ | ⟨-, hag⟩⟩ := agenda_advance hl.batched hadv
    · have hno : ∀ t', ∀ x ∈ (if t' = t then (EventLoop.handlers active).flatMap (stmts Handler.stmts) else []),
          ¬ x.OfShutdown := by
        intro t' x hx
        split at hx
        · obtain ⟨hd, -, hx⟩ := polled_stmts hx
          exact handler_not_ofShutdown hx
        · cases hx
      refine ⟨fun hnone => ?_, ?_, h.mark⟩
      · obtain ⟨hag', hrest⟩ := h.fresh hnone
        refine ⟨fun t' x hx => ?_, hrest⟩
        rw [agenda, hag, List.mem_append] at hx
        exact hx.elim (hno t' x) (hag' t' x)
      · rw [agenda, hag, ← List.append_nil (_ ++ _)]
        refine pairwise_agenda h.ordered ?_ (by simp)
        rintro x hx y ⟨rfl, -⟩
        exact hno _ _ hx trivial
    · refine ⟨fun hnone => ?_, ?_, h.mark⟩
      · obtain ⟨hag', hrest⟩ := h.fresh hnone
        exact ⟨fun t' x hx => hag' t' x (by rwa [agenda, hag] at hx), hrest⟩
      · rw [agenda, hag]; exact h.ordered
  · refine ⟨fun hnone => ?_, ?_, h.mark⟩
    · obtain ⟨hag', hrest⟩ := h.fresh hnone
      refine ⟨fun t' x hx => hag' t' x ?_, hrest⟩
      rw [agenda, agenda_pop hp]
      exact List.mem_append_right _ hx
    · have hord := h.ordered
      rw [agenda, agenda_pop hp] at hord
      exact (List.pairwise_append.mp hord).2.1
  -- a call may begin with `setDisconnecting`; no `shutdownInLoop` comes in yet
  · have hnoShut : ∀ t', .shutdownInLoop ∉ (if t' = t then front else []) := by
      intro t' hx
      split at hx
      · exact (hfront _ hx).elim
      · cases hx
    have hb : ∀ t', ∀ x ∈ back t', ¬ x.OfShutdown := by
      intro t' x hx
      rw [hback t' x hx]; exact id
    have hfresh : s'.history.beforeShutdown = none → s.history.beforeShutdown = none →
        (∀ t, ∀ x ∈ s'.agenda t, ¬ x.OfShutdown) ∧ s'.conn.state ≠ .kDisconnecting ∧
          s'.history.atShutdownWrite = none := by
      intro hnone' hnone
      obtain ⟨hag, hstate, hmark⟩ := h.fresh hnone
      refine ⟨fun t' x hx => ?_, by rw [hout.state]; exact hstate, hout.atShutdownWrite.trans hmark⟩
      rw [hg.agendas, List.mem_append, List.mem_append] at hx
      rcases hx with (hx | hx) | hx
      · split at hx
        · have hx := hfront x hx
          cases x with
          | setDisconnecting => exact absurd hnone' hx
          | _ => first | exact id | exact hx.elim
        · cases hx
      · exact hag t' x hx
      · exact hb t' x hx
    have hkeep : s'.history.beforeShutdown = s.history.beforeShutdown → s'.HalfClose cfg := by
      intro hsame
      have howed : s'.owed = s.owed := by rw [owed, owed, hsame]
      refine ⟨fun hnone => hfresh hnone (hsame ▸ hnone), ?_, ?_⟩
      · rw [howed, hg.agendas]
        refine pairwise_agenda h.ordered ?_ ?_
        · rintro x hx y ⟨rfl, -⟩
          exact hnoShut _ hx
        · rintro y hy x ⟨-, m, -, rfl⟩
          cases hback _ _ hy
      · rw [howed, hout.atShutdownWrite]; exact h.mark
    rcases hcalled with ⟨-, -, -, hsame | ⟨hnone, hsome⟩⟩ | ⟨m, -, -, -, -, -, hsame⟩
    · exact hkeep hsame
    · -- the first `shutdown`: nothing of one is on its way yet
      obtain ⟨hag, -, hmark⟩ := h.fresh hnone
      refine ⟨fun hnone' => absurd (hsome.symm.trans hnone') (by simp), ?_, fun mark hm => ?_⟩
      · refine List.pairwise_of_forall_mem_list fun x hx y _ => ?_
        rintro ⟨rfl, -⟩
        rw [hg.agendas, List.mem_append, List.mem_append] at hx
        rcases hx with (hx | hx) | hx
        · exact hnoShut _ hx
        · exact hag _ _ hx trivial
        · exact hb _ _ hx trivial
      · rw [hout.atShutdownWrite, hmark] at hm
        cases hm
    · exact hkeep hsame

/-! ## The result -/

/-- When `shutdownWrite` was called on a connection not closed by the peer, the kernel had every byte of
    every message whose `send` had returned before `shutdown`. -/
def SentBeforeShutdown (s : TcpServer) : Prop :=
  ∀ mark ∈ s.history.atShutdownWrite, mark.closed = false → ∀ m ∈ s.owed, ∃ l₁ l₂,
    mark.ran = l₁ ++ m :: l₂ ∧ ((l₁ ++ [m]).map Message.bytes).flatten <+: mark.accepted

/-- **What was sent goes out before the half close**, in every run whose inline `shutdownInLoop`s overtake
    nothing. -/
theorem sent_before_shutdown (h : (tcpServer cfg).Reach (ShutsInOrder cfg) s) : s.SentBeforeShutdown := by
  have hh : s.HalfClose cfg := h.invariant (I := HalfClose cfg)
    (fun s h0 => by obtain ⟨self, sockfd, rfl⟩ := h0; exact halfClose_start self sockfd)
    (fun _ _ _ hr hI hc hs => halfClose_step hr.reachable hI hc hs)
  intro mark hmark hopen m hm
  obtain ⟨hbytes, hran⟩ := hh.mark mark hmark hopen
  obtain ⟨l₁, l₂, heq⟩ := List.append_of_mem (hran m hm)
  refine ⟨l₁, l₂, heq, (l₂.map Message.bytes).flatten, ?_⟩
  rw [hbytes, heq, ← List.flatten_append, ← List.map_append, List.append_assoc, List.singleton_append]

/-- A thread sends and shuts down; the kernel takes the message in two parts, and the half close waits for
    the second. -/
theorem sent_before_shutdown_sample : ∃ s : TcpServer, s.conn.socket = ⟨[1, 2, 3], true⟩ ∧
    s.owed = [⟨2, 0, [1, 2, 3]⟩] ∧ s.SentBeforeShutdown := by
  obtain ⟨s, hs, hp⟩ := System.Reach.of_execWhile (S := tcpServer ⟨0, 1⟩) (C := ShutsInOrder ⟨0, 1⟩)
    (l := connect false ++ [Label.send 2 [1, 2, 3], .exec 2 none none, .shutdown 2, .exec 2 none none,
        .exec 2 none none] ++
      polls 1 [.wakeupChannel] ++ swaps 1 ++ [Label.exec 1 (some 2) none, .loop 1 .next, .exec 1 none none] ++
      unwinds 1 ++ polls 1 [.channel (.connection {.POLLOUT})] ++
      [Label.exec 1 (some 1) none, .exec 1 none none])
    (p := fun s => decide (s.conn.socket = ⟨[1, 2, 3], true⟩ ∧ s.owed = [⟨2, 0, [1, 2, 3]⟩]))
    (.init ⟨4096, 9, rfl⟩) (by decide +kernel)
  rw [decide_eq_true_eq] at hp
  exact ⟨s, hp.1, hp.2, sent_before_shutdown hs⟩

/-- **An inline half close.** Another thread's message is queued when the loop thread calls `shutdown` in a
    callback: the socket is shut before the message is written. -/
theorem cut_off : ¬ ∀ cfg s, (tcpServer cfg).Reachable s → s.SentBeforeShutdown := by
  intro hall
  obtain ⟨s, hs, hp⟩ := System.Reach.of_exec (S := tcpServer ⟨0, 1⟩)
    (l := connect false ++ polls 1 [.channel (.connection {.POLLIN})] ++
      [Label.exec 1 none (some [7]), .send 2 [104], .exec 2 none none, .shutdown 1, .exec 1 none none,
        .exec 1 none none])
    (p := fun s => s.history.atShutdownWrite == some ⟨[], [], false⟩ && s.owed == [⟨2, 0, [104]⟩])
    (.init ⟨4096, 9, rfl⟩) (by decide +kernel)
  simp only [Bool.and_eq_true, beq_iff_eq] at hp
  obtain ⟨l₁, l₂, hran, -⟩ := hall ⟨0, 1⟩ s hs _ hp.1 rfl _ (by rw [hp.2]; exact List.mem_singleton_self _)
  simp at hran

/-- The other case: the second message and the `shutdown` are queued while `handleWrite` drains the first. -/
example : ((tcpServer ⟨0, 1⟩).exec (start 4096 9) (connect false ++
      [Label.send 2 [1, 2], .exec 2 none none] ++ polls 1 [.wakeupChannel] ++ swaps 1 ++
      [Label.exec 1 (some 1) none] ++ unwinds 1 ++ polls 1 [.channel (.connection {.POLLOUT})] ++
      [Label.send 2 [3], .exec 2 none none, .shutdown 2, .exec 2 none none, .exec 2 none none,
        .exec 1 (some 1) none, .exec 1 none none])).toOption.map
    (fun s => s.conn.socket) = some ⟨[1, 2], true⟩ := by decide +kernel

end TcpServer

end Irono
