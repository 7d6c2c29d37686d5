import Irono.Net.Correctness.Statements

/-!
# `Net.Correctness.Callbacks` — the user sees up, messages, down

`connectEstablished` registers the connection for reading, `connectDestroyed` takes every interest away,
and a late `sendInLoop` can bring back write interest only: so no read is reported after the down
callback, and a read reported before it is dispatched before the functor that makes it. A failed assert
ends the run; the runs that go on are the ones here.
-/

namespace Irono

open Transition Threads

namespace TcpServer

/-- The flags `handleEvent` reads for. -/
def readFlags : Events := {.POLLIN, .POLLPRI, .POLLRDHUP}

/-- One reported channel with no read flag that is not registered. -/
def ReadsRegistered (s : TcpServer) : Active Handler → Prop
  | .channel (.connection revents) => ∀ events ∈ s.conn.watched, revents ∩ readFlags ⊆ events
  | _ => True

instance (s : TcpServer) : (a : Active Handler) → Decidable (s.ReadsRegistered a)
  | .channel (.connection _) => inferInstanceAs (Decidable (∀ events ∈ s.conn.watched, _ ∩ readFlags ⊆ events))
  | .channel .acceptor => isTrue trivial
  | .channel .user => isTrue trivial
  | .wakeupChannel => isTrue trivial

/-- What is assumed of the kernel: `EPOLLIN`, `EPOLLPRI` and `EPOLLRDHUP` only if registered. -/
def KernelReports (s : TcpServer) : Label → Prop
  | .loop _ (.poll active) => ∀ a ∈ active, s.ReadsRegistered a
  | _ => True

instance (s : TcpServer) : (a : Label) → Decidable (s.KernelReports a)
  | .loop _ (.poll active) => inferInstanceAs (Decidable (∀ a ∈ active, s.ReadsRegistered a))
  | .loop _ .enter => isTrue trivial
  | .loop _ .next => isTrue trivial
  | .exec .. => isTrue trivial
  | .ret _ => isTrue trivial
  | .newConnection _ => isTrue trivial
  | .send .. => isTrue trivial
  | .shutdown _ => isTrue trivial
  | .retrieve _ => isTrue trivial
  | .queueInLoop .. => isTrue trivial
  | .quit .. => isTrue trivial

/-- The mask makes `handleEvent` read. -/
def Reads (events : Events) : Prop := (events ∩ readFlags).Nonempty

/-- The order in which the two statements must not come. -/
def ReadAfterDown (x y : Stmt) : Prop := x = .connectDestroyed ∧ ∃ revents, y = .handleRead revents

/-- **The invariant.** -/
structure Delivery (cfg : LoopThreads) (s : TcpServer) : Prop where
  shape : s.history.callbacks = [] ∧ s.history.destroyCalls = 0 ∨
    ∃ k, s.history.callbacks = .connection true :: List.replicate k .message ++
      (if s.history.destroyCalls = 0 then [] else [.connection false])
  registered : Reads s.conn.channel.events → s.history.destroyCalls = 0
  reported : ∀ revents, .handleRead revents ∈ s.agenda cfg.io → s.history.destroyCalls = 0
  ordered : (s.agenda cfg.io).Pairwise fun x y => ¬ ReadAfterDown x y

variable {cfg : LoopThreads} {s s' : TcpServer} {t : ThreadId} {th : Threads Handler Stmt} {stmt : Stmt}

theorem delivery_start (self : Addr) (sockfd : Int) : (start self sockfd).Delivery cfg := by
  refine ⟨.inl ⟨rfl, rfl⟩, fun _ => rfl, fun _ _ => rfl, ?_⟩
  simp [start, agenda]

theorem Delivery.destroyed_none (h : s.Delivery cfg) (hnil : s.history.callbacks = []) :
    s.history.destroyCalls = 0 := by
  rcases h.shape with ⟨-, hd⟩ | ⟨k, hk⟩
  · exact hd
  · rw [hnil] at hk; simp at hk

/-! ## The agenda -/

/-- No statement goes on with the down callback, and none queues a read. -/
theorem Stmt.Begins.ne_connectDestroyed {x : Stmt} (h : stmt.Begins x) : x ≠ .connectDestroyed := by
  rintro rfl
  cases stmt <;> simp [Stmt.Begins] at h

theorem Stmt.Begins.ne_handleRead {revents : Events} : ¬ stmt.Begins (.handleRead revents) := by
  cases stmt <;> simp [Stmt.Begins]

theorem Stmt.Queues.ne_handleRead {revents : Events} : ¬ stmt.Queues (.handleRead revents) := by
  cases stmt <;> simp [Stmt.Queues]

/-- Putting in front what is no down callback, and behind what is no read. -/
theorem ordered_append {front rest back : List Stmt}
    (hrest : rest.Pairwise fun x y => ¬ ReadAfterDown x y) (hfront : .connectDestroyed ∉ front)
    (hback : ∀ revents, .handleRead revents ∉ back) :
    (front ++ rest ++ back).Pairwise fun x y => ¬ ReadAfterDown x y := by
  refine pairwise_agenda hrest ?_ ?_
  · rintro x hx y ⟨rfl, -⟩
    exact hfront hx
  · rintro y hy x ⟨-, revents, rfl⟩
    exact hback revents hy

/-- The agenda of the I/O loop after a change that brings no down callback in front, no read behind, and
    reads in front only while nothing is down. -/
theorem Delivery.agenda (h : s.Delivery cfg) (s' : TcpServer) (gone front back : List Stmt) {rest : List Stmt}
    (hag : s.agenda cfg.io = gone ++ rest) (hag' : s'.agenda cfg.io = front ++ rest ++ back)
    (hd : s'.history.destroyCalls = s.history.destroyCalls) (hfront : .connectDestroyed ∉ front)
    (hback : ∀ revents, .handleRead revents ∉ back)
    (hread : ∀ revents, .handleRead revents ∈ front → s.history.destroyCalls = 0) :
    (∀ revents, .handleRead revents ∈ s'.agenda cfg.io → s'.history.destroyCalls = 0) ∧
      (s'.agenda cfg.io).Pairwise fun x y => ¬ ReadAfterDown x y := by
  have hrest : rest.Pairwise fun x y => ¬ ReadAfterDown x y := by
    have hord := h.ordered
    rw [hag] at hord
    exact (List.pairwise_append.mp hord).2.1
  rw [hag', hd]
  refine ⟨fun revents hin => ?_, ordered_append hrest hfront hback⟩
  rw [List.mem_append, List.mem_append] at hin
  rcases hin with (hin | hin) | hin
  · exact hread revents hin
  · exact h.reported revents (by rw [hag]; exact List.mem_append_right _ hin)
  · exact absurd hin (hback revents)

/-! ## Statements -/

/-- No callback, no down, and no new read interest. -/
structure Silent (s s' : TcpServer) : Prop where
  callbacks : s'.history.callbacks = s.history.callbacks
  destroyCalls : s'.history.destroyCalls = s.history.destroyCalls
  reads : Reads s'.conn.channel.events → Reads s.conn.channel.events

theorem reads_union_write {events : Events} : Reads (events ∪ Channel.kWriteEvent) ↔ Reads events := by
  have h : (events ∪ Channel.kWriteEvent) ∩ readFlags = events ∩ readFlags := by
    rw [Finset.union_inter_distrib_right, show Channel.kWriteEvent ∩ readFlags = ∅ by decide, Finset.union_empty]
  rw [Reads, h, Reads]

theorem reads_mono {events events' : Events} (h : events' ⊆ events) (hr : Reads events') : Reads events :=
  hr.mono (Finset.inter_subset_inter_right h)

theorem sendInLoop_silent (hv : s.conn.outputBuffer.Valid) {message : Message} {w : Option Nat}
    (hs : s.sendInLoop cfg t message w = .ok s') : Silent s s' := by
  obtain ⟨-, conn, wc, hconn, rfl⟩ := sendInLoop_eq hs
  refine ⟨rfl, rfl, fun hr => ?_⟩
  obtain ⟨-, -, -, ⟨-, -, hch, -⟩ | ⟨-, -, ⟨-, hch, -⟩ | ⟨-, hch, -⟩⟩⟩ :=
    TcpConnection.sendInLoop_cases hv hconn
  · exact hch ▸ hr
  · exact hch ▸ hr
  · have hev : conn.channel.events = s.conn.channel.events ∪ Channel.kWriteEvent := by rw [hch]; rfl
    simp only [hev] at hr
    exact reads_union_write.mp hr

/-- A statement that makes no callback is silent. -/
theorem run_silent (hv : s.conn.outputBuffer.Valid) {w : Option Nat} {r : Option (List Byte)}
    (hs : s.run cfg t w r stmt = .ok s') (hup : stmt ≠ .connectEstablished)
    (hdown : stmt ≠ .connectDestroyed) (hread : ∀ revents, stmt ≠ .handleRead revents) : Silent s s' := by
  by_cases hq : stmt.Quiet
  · obtain ⟨hout, hcb | ⟨⟨revents, heq⟩, -⟩, -⟩ := run_quiet hq hs
    · exact ⟨hcb, hout.destroyCalls, fun hr => hout.channel ▸ hr⟩
    · exact absurd heq (hread revents)
  cases stmt with
  | connectEstablished => exact absurd rfl hup
  | connectDestroyed => exact absurd rfl hdown
  | removeChannel =>
    simp only [run, bind_eq_ok, Result.mapFault_eq_ok, pure_eq_ok, Except.ok.injEq] at hs
    obtain ⟨-, -, conn, hconn, rfl⟩ := hs
    obtain ⟨-, hch, -⟩ := TcpConnection.removeChannel_cases hconn
    have hev : conn.channel.events = s.conn.channel.events := by rw [hch]
    exact ⟨rfl, rfl, reads_mono (by simp [hev])⟩
  | handleClose =>
    simp only [run, bind_eq_ok, Result.mapFault_eq_ok, pure_eq_ok, Except.ok.injEq] at hs
    obtain ⟨-, -, conn, hconn, rfl⟩ := hs
    obtain ⟨-, -, hch, -⟩ := TcpConnection.handleClose_cases hconn
    have hev : conn.channel.events = ∅ := by rw [hch]; rfl
    exact ⟨rfl, rfl, reads_mono (by simp [hev])⟩
  | handleWrite =>
    obtain ⟨conn, drained, hconn, rfl⟩ := run_handleWrite hs
    have hev : conn.channel.events ⊆ s.conn.channel.events := by
      obtain ⟨-, -, -, ⟨-, rfl⟩ | ⟨-, -, -, hch, -⟩ | ⟨-, -, -, hch, -⟩⟩ :=
        TcpConnection.handleWrite_cases hv hconn
      · exact Finset.Subset.refl _
      · rw [hch]
      · rw [hch]; exact Finset.sdiff_subset
    exact ⟨rfl, rfl, reads_mono hev⟩
  | send message =>
    simp only [run, bind_eq_ok, pure_eq_ok, Except.ok.injEq] at hs
    obtain ⟨s₁, hs₁, rfl⟩ := hs
    split at hs₁
    · have h := sendInLoop_silent hv hs₁
      exact ⟨h.callbacks, h.destroyCalls, h.reads⟩
    · simp only [Except.ok.injEq] at hs₁
      subst hs₁
      exact ⟨rfl, rfl, id⟩
  | sendInLoop message => exact sendInLoop_silent hv hs
  | _ => exact absurd trivial hq

/-- Callbacks are only added. -/
theorem run_callbacks (hv : s.conn.outputBuffer.Valid) {w : Option Nat} {r : Option (List Byte)}
    (hs : s.run cfg t w r stmt = .ok s') (hne : s.history.callbacks ≠ []) : s'.history.callbacks ≠ [] := by
  by_cases hup : stmt = .connectEstablished
  · subst hup
    simp only [run, bind_eq_ok, pure_eq_ok, Except.ok.injEq] at hs
    obtain ⟨-, -, conn, -, rfl⟩ := hs
    simp
  by_cases hdown : stmt = .connectDestroyed
  · subst hdown
    simp only [run, bind_eq_ok, pure_eq_ok, Except.ok.injEq] at hs
    obtain ⟨-, -, conn, -, rfl⟩ := hs
    simp
  by_cases hread : ∃ revents, stmt = .handleRead revents
  · obtain ⟨revents, rfl⟩ := hread
    have hq : (Stmt.handleRead revents).Quiet := trivial
    obtain ⟨-, hcb | ⟨-, hcb⟩, -⟩ := run_quiet hq hs
    · rwa [hcb]
    · rw [hcb]; simp
  · rwa [(run_silent hv hs hup hdown (by simpa using hread)).callbacks]

theorem delivery_run (hl : s.Lifecycle cfg) (h : s.Delivery cfg) {w : Option Nat} {r : Option (List Byte)}
    (hp : s.threads.pop t = some (stmt, th))
    (hs : { s with threads := th }.run cfg t w r stmt = .ok s') : s'.Delivery cfg := by
  obtain ⟨front, back, hg, hfront, hback⟩ := run_growsBy hs
  have hag : s.threads.agenda Handler.stmts cfg.io = _ := agenda_pop hp cfg.io
  have hag' := hg.agendas cfg.io
  have hf : .connectDestroyed ∉ (if cfg.io = t then front else []) := by
    split
    · exact fun hin => (hfront _ hin).ne_connectDestroyed rfl
    · simp
  have hfr : ∀ revents, .handleRead revents ∉ (if cfg.io = t then front else []) := by
    intro revents
    split
    · exact fun hin => Stmt.Begins.ne_handleRead (hfront _ hin)
    · simp
  have hb : ∀ revents, .handleRead revents ∉ back cfg.io :=
    fun revents hin => Stmt.Queues.ne_handleRead (hback cfg.io _ hin)
  have hst := (hl.placed_pop hp).1
  by_cases hdown : stmt = .connectDestroyed
  · -- the down callback: nothing is read any more, and no read is left on the agenda
    subst hdown
    simp only [run, bind_eq_ok, require_eq_ok, Result.mapFault_eq_ok, pure_eq_ok, Except.ok.injEq] at hs
    obtain ⟨-, rfl, conn, hconn, rfl⟩ := hs
    obtain ⟨hstate, hframe, hch, -⟩ := TcpConnection.connectDestroyed_cases hconn
    have hord := h.ordered
    rw [TcpServer.agenda, hag, if_pos rfl, List.singleton_append, List.pairwise_cons] at hord
    have hzero : s.history.destroyCalls = 0 := by
      have hd := hl.destroys
      have hone : 0 < s.waiting .connectDestroyed cfg.io := by
        rw [waiting, load_pop hp]; simp
      have hle := Bool.toNat_le s.created
      omega
    have hcb : s.history.callbacks ≠ [] := by
      intro hnil
      rw [hl.up.mpr hnil] at hstate
      simp at hstate
    have hconnected : conn.connected = false := by rw [hframe]; rfl
    have hnone : ¬ Reads conn.channel.events := by rw [hch]; simp [Channel.disableAll, Channel.kNoneEvent, Reads]
    refine ⟨?_, fun hr => absurd hr hnone, fun revents hin => ?_, ?_⟩
    · obtain ⟨hnil, -⟩ | ⟨k, hk⟩ := h.shape
      · exact absurd hnil hcb
      · refine .inr ⟨k, ?_⟩
        simp [hk, hzero, hconnected]
    · rw [hag', List.mem_append, List.mem_append] at hin
      rcases hin with (hin | hin) | hin
      · exact absurd hin (hfr revents)
      · exact absurd ⟨rfl, revents, rfl⟩ (hord.1 _ hin)
      · exact absurd hin (hb revents)
    · rw [hag']; exact ordered_append hord.2 hf hb
  by_cases hup : stmt = .connectEstablished
  · -- the up callback
    subst hup
    simp only [run, bind_eq_ok, Result.mapFault_eq_ok, pure_eq_ok, Except.ok.injEq] at hs
    obtain ⟨-, -, conn, hconn, rfl⟩ := hs
    obtain ⟨hstate, hframe, -, -⟩ := TcpConnection.connectEstablished_cases hconn
    have hnil : s.history.callbacks = [] := hl.up.mp hstate
    have hconnected : conn.connected = true := by rw [hframe]; rfl
    obtain ⟨hreads, hord⟩ := h.agenda _ _ _ _ hag hag' rfl hf hb (fun revents hin => absurd hin (hfr revents))
    refine ⟨.inr ⟨0, ?_⟩, fun _ => h.destroyed_none hnil, hreads, hord⟩
    simp [hnil, hconnected, h.destroyed_none hnil]
  by_cases hread : ∃ revents, stmt = .handleRead revents
  · obtain ⟨revents, rfl⟩ := hread
    have hzero : s.history.destroyCalls = 0 :=
      h.reported revents (by rw [TcpServer.agenda, hag, if_pos hst.1.symm]; simp)
    have hq : (Stmt.handleRead revents).Quiet := trivial
    obtain ⟨hout, hcb, -⟩ := run_quiet hq hs
    obtain ⟨hreads, hord⟩ := h.agenda _ _ _ _ hag hag' hout.destroyCalls hf hb
        (fun revents hin => absurd hin (hfr revents))
    refine ⟨?_, fun _ => hout.destroyCalls.trans hzero, hreads, hord⟩
    rw [hout.destroyCalls]
    rcases hcb with hcb | ⟨-, hcb⟩
    · rw [hcb]; exact h.shape
    · -- a message, with the connection up
      obtain ⟨hnil, -⟩ | ⟨k, hk⟩ := h.shape
      · exact absurd hnil hst.2
      · refine .inr ⟨k + 1, ?_⟩
        simp only [hcb, hk, hzero, if_true, List.append_nil, List.cons_append, List.replicate_succ']
  · have hsilent := run_silent (s := { s with threads := th }) hl.intact.valid hs hup hdown (by simpa using hread)
    obtain ⟨hreads, hord⟩ := h.agenda _ _ _ _ hag hag' hsilent.destroyCalls hf hb
        (fun revents hin => absurd hin (hfr revents))
    refine ⟨?_, fun hr => hsilent.destroyCalls.trans (h.registered (hsilent.reads hr)), hreads, hord⟩
    rw [hsilent.callbacks, hsilent.destroyCalls]
    exact h.shape

/-- A read that `poll` reports was registered. -/
theorem reads_of_polled (hl : s.Lifecycle cfg) {active : List (Active Handler)}
    (hpoll : ∀ a ∈ active, s.Reportable cfg t a) (hk : ∀ a ∈ active, s.ReadsRegistered a)
    {revents : Events}
    (hin : .handleRead revents ∈ (EventLoop.handlers active).flatMap (stmts Handler.stmts)) :
    Reads s.conn.channel.events := by
  obtain ⟨hd, hactive, hst⟩ := polled_stmts hin
  cases hd with
  | acceptor => simp [Handler.stmts] at hst
  | user => simp [Handler.stmts] at hst
  | connection revents' =>
    obtain ⟨cb, hcb, heq⟩ := List.mem_map.mp hst
    obtain ⟨-, -, -, hw⟩ := hl.up_of_reportable (hpoll _ hactive)
    have hsub : revents' ∩ readFlags ⊆ s.conn.channel.events := hk _ hactive _ hw
    -- `handleEvent` reads for this mask
    have hr : Reads revents' := by
      cases cb with
      | close => simp [callbackStmt] at heq
      | error => simp [callbackStmt] at heq
      | write => simp [callbackStmt] at heq
      | read =>
        simp only [Channel.callbacks, List.mem_append] at hcb
        rcases hcb with ((hcb | hcb) | hcb) | hcb <;> split at hcb <;> simp only [List.mem_singleton,
          List.not_mem_nil, reduceCtorEq] at hcb
        rename_i hflag
        rcases hflag with hflag | hflag | hflag <;> exact ⟨_, Finset.mem_inter.mpr ⟨hflag, by decide⟩⟩
    obtain ⟨f, hf⟩ := hr
    exact ⟨f, Finset.mem_inter.mpr ⟨hsub hf, (Finset.mem_inter.mp hf).2⟩⟩

/-- **One step.** -/
theorem delivery_step {a : Label} (hl : s.Lifecycle cfg) (h : s.Delivery cfg) (hk : s.KernelReports a)
    (hs : s.step cfg a = .ok s') : s'.Delivery cfg := by
  rcases step_cases hs with ⟨t, w, r, stmt, th, rfl, hp, hrun⟩ | ⟨t, mv, th, rfl, hpoll, hadv, rfl⟩ |
    ⟨t, stmt, th, rfl, hst, hp, rfl⟩ | ⟨hout, -, t, front, back, hg, -, hfront, hback, -⟩
  · exact delivery_run hl h hp hrun
  · obtain ⟨-, -, -, ⟨active, rfl, -, -, hag⟩ | ⟨-, hag⟩⟩ := agenda_advance hl.batched hadv
    · have hdown : .connectDestroyed ∉
          (if cfg.io = t then (EventLoop.handlers active).flatMap (stmts Handler.stmts) else []) := by
        split
        · intro hin
          obtain ⟨hd, hactive, hst⟩ := polled_stmts hin
          exact (handler_stmts hl (hpoll.1 _ hactive) hst).2 (.inl rfl)
        · simp
      have hread : ∀ revents, .handleRead revents ∈
          (if cfg.io = t then (EventLoop.handlers active).flatMap (stmts Handler.stmts) else []) →
          s.history.destroyCalls = 0 := by
        intro revents hin
        split at hin
        · exact h.registered (reads_of_polled hl hpoll.1 hk hin)
        · cases hin
      obtain ⟨hreads, hord⟩ := h.agenda { s with threads := th } [] _ [] rfl
        (by rw [List.append_nil]; exact hag cfg.io) rfl hdown (by simp) hread
      exact ⟨h.shape, h.registered, hreads, hord⟩
    · obtain ⟨hreads, hord⟩ := h.agenda { s with threads := th } [] [] [] rfl
        (by rw [List.append_nil]; exact hag cfg.io) rfl (by simp) (by simp) (by simp)
      exact ⟨h.shape, h.registered, hreads, hord⟩
  · obtain ⟨hreads, hord⟩ := h.agenda { s with threads := th } _ [] [] (agenda_pop hp cfg.io)
      (by simp) rfl (by simp) (by simp) (by simp)
    exact ⟨h.shape, h.registered, hreads, hord⟩
  · have hf : ∀ x ∈ (if cfg.io = t then front else []), x.Outer s' := by
      split
      · exact hfront
      · simp
    obtain ⟨hreads, hord⟩ := h.agenda s' [] _ _ rfl (hg.agendas cfg.io) hout.destroyCalls
      (fun hin => hf _ hin) (fun revents hin => by cases hback cfg.io _ hin)
      (fun revents hin => (hf _ hin).elim)
    refine ⟨?_, fun hr => ?_, hreads, hord⟩
    · rw [hout.callbacks, hout.destroyCalls]; exact h.shape
    · rw [hout.channel] at hr
      exact hout.destroyCalls.trans (h.registered hr)

/-! ## The result -/

/-- **The user sees up, messages, down.** -/
theorem callbacks_prefix (h : (tcpServer cfg).Reach KernelReports s) :
    ∃ k, s.history.callbacks <+:
      .connection true :: List.replicate k .message ++ [.connection false] := by
  have hd : s.Delivery cfg := h.invariant (I := Delivery cfg)
    (fun s h0 => by obtain ⟨self, sockfd, rfl⟩ := h0; exact delivery_start self sockfd)
    (fun _ _ _ hr hI hk hs => delivery_step (lifecycle_of_reachable hr.reachable) hI hk hs)
  rcases hd.shape with ⟨hnil, -⟩ | ⟨k, hk⟩
  · exact ⟨0, by rw [hnil]; exact List.nil_prefix⟩
  · refine ⟨k, ?_⟩
    rw [hk]
    split
    · rw [List.append_nil]; exact List.prefix_append _ _
    · exact List.prefix_rfl

/-- Two messages, then the peer closes. -/
theorem callbacks_prefix_sample :
    ∃ s : TcpServer, s.history.callbacks =
        [.connection true, .message, .message, .connection false] ∧
      ∃ k, s.history.callbacks <+: .connection true :: List.replicate k .message ++ [.connection false] := by
  obtain ⟨s, hs, hp⟩ := System.Reach.of_execWhile (S := tcpServer ⟨0, 1⟩) (C := KernelReports)
    (l := connect false ++
      polls 1 [.channel (.connection {.POLLIN})] ++ [Label.exec 1 none (some [104, 105]), .ret 1] ++
      idles 1 ++
      polls 1 [.channel (.connection {.POLLIN})] ++ [Label.exec 1 none (some [106]), .ret 1] ++
      idles 1 ++
      polls 1 [.channel (.connection {.POLLIN, .POLLHUP})] ++
      [Label.exec 1 none (some []), .exec 1 none none, .exec 1 none none] ++
      swaps 0 ++ [Label.exec 0 none none] ++ swaps 1 ++ [Label.exec 1 none none, .ret 1, .exec 1 none none])
    (p := fun s => s.history.callbacks ==
      [.connection true, .message, .message, .connection false])
    (.init ⟨4096, 9, rfl⟩) (by decide +kernel)
  rw [beq_iff_eq] at hp
  exact ⟨s, hp, callbacks_prefix hs⟩

end TcpServer

end Irono
