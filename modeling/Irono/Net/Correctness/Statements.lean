import Irono.Net.Correctness.Lifecycle

/-!
# `Net.Correctness.Statements` — what a statement can begin, queue and change

`Begins` and `Queues` are the call graph: what a statement goes on with in its own thread, and what it puts
into a loop's functor queue. `run_agenda` says that nothing else happens to the agendas, and `run_quiet`
that most statements leave the connection's output and registration alone. The invariants of the results
on connections look at the few statements that are left.
-/

namespace Irono

open Transition Threads

namespace TcpServer

/-- The statement `x` can follow `stmt` in its thread. -/
def Stmt.Begins : Stmt → Stmt → Prop
  | .runConnectEstablished, x => x = .connectEstablished
  | .connectEstablished, x => x = .user
  | .connectDestroyed, x => x = .user ∨ x = .removeChannel
  | .handleClose, x => x = .removeConnection
  | .handleRead _, x => x = .user ∨ x = .handleClose ∨ x = .handleError
  | .handleWrite, x => x = .drained
  | .removeConnection, x => x = .removeConnectionInLoop
  | .setDisconnecting, x => x = .runShutdownInLoop
  | _, _ => False

/-- The statement `x` can be queued by `stmt`. -/
def Stmt.Queues : Stmt → Stmt → Prop
  | .runConnectEstablished, x => x = .connectEstablished
  | .handleWrite, x => x = .user
  | .removeConnection, x => x = .removeConnectionInLoop
  | .removeConnectionInLoop, x => x = .connectDestroyed
  | .send message, x => x = .user ∨ x = .sendInLoop message
  | .sendInLoop _, x => x = .user
  | .runShutdownInLoop, x => x = .shutdownInLoop
  | _, _ => False

/-- A piece of thread `t`: it goes on with `front` itself, and queues `back` with the loops. -/
structure Grows (t : ThreadId) (s s' : TcpServer) (front : List Stmt) (back : ThreadId → List Stmt) :
    Prop where
  frames : ∀ t', s'.threads.frames t' = (if t' = t then front else []) ++ s.threads.frames t'
  functors : ∀ t', s'.threads.functors t' = s.threads.functors t' ++ back t'
  agendas : ∀ t', s'.agenda t' = (if t' = t then front else []) ++ s.agenda t' ++ back t'

variable {cfg : LoopThreads} {s s' : TcpServer} {t owner : ThreadId} {th : Threads Handler Stmt} {stmt : Stmt}

theorem Grows.same (h : s'.threads = s.threads) : Grows t s s' [] (fun _ => []) :=
  ⟨fun t' => by simp [h], fun t' => by simp [h], fun t' => by simp [agenda, h]⟩

theorem Grows.push {l : List Stmt} (h : s'.threads = s.threads.push t l) :
    Grows t s s' l (fun _ => []) := by
  refine ⟨fun t' => ?_, fun t' => ?_, fun t' => ?_⟩
  · rw [h]
    by_cases ht : t' = t
    · subst ht; simp [Threads.push]
    · simp [Threads.push, ht]
  · rw [h, List.append_nil]; rfl
  · rw [agenda, h, agenda_push, List.append_nil]

/-- What a statement has begun is what it pushed. -/
theorem Grows.front_of_push {l front : List Stmt} {back : ThreadId → List Stmt} (hg : Grows t s s' front back)
    (h : s'.threads = s.threads.push t l) : front = l := by
  have hfr := hg.frames t
  rw [h, if_pos rfl] at hfr
  exact List.append_cancel_right (hfr.symm.trans (by simp [Threads.push]))

theorem Grows.queueInLoop (h : s'.threads = s.threads.queueInLoop t owner stmt) :
    Grows t s s' [] (fun t' => if t' = owner then [stmt] else []) := by
  refine ⟨fun t' => ?_, fun t' => ?_, fun t' => ?_⟩
  · rw [h]; simp [Threads.queueInLoop]
  · rw [h, functors_queueInLoop]
  · rw [agenda, h, agenda_queueInLoop]; simp

/-- One piece after another of the same thread. -/
theorem Grows.trans {s₁ : TcpServer} {front front' : List Stmt} {back back' : ThreadId → List Stmt}
    (h : Grows t s s₁ front back) (h' : Grows t s₁ s' front' back') :
    Grows t s s' (front' ++ front) (fun t' => back t' ++ back' t') := by
  refine ⟨fun t' => ?_, fun t' => ?_, fun t' => ?_⟩
  · rw [h'.frames, h.frames]; split <;> simp
  · rw [h'.functors, h.functors, List.append_assoc]
  · rw [h'.agendas, h.agendas]; split <;> simp

/-- What a piece goes on with and queues is what `stmt` begins and queues. -/
def GrowsBy (stmt : Stmt) (t : ThreadId) (s s' : TcpServer) : Prop :=
  ∃ front back, Grows t s s' front back ∧ (∀ x ∈ front, stmt.Begins x) ∧
    ∀ t', ∀ x ∈ back t', stmt.Queues x

theorem GrowsBy.same (h : s'.threads = s.threads) : GrowsBy stmt t s s' :=
  ⟨_, _, .same h, by simp, by simp⟩

/-- A statement that goes on with others in its own thread. -/
theorem GrowsBy.push {l : List Stmt} (h : s'.threads = s.threads.push t l)
    (hl : ∀ x ∈ l, stmt.Begins x) : GrowsBy stmt t s s' :=
  ⟨_, _, .push h, hl, by simp⟩

/-- A statement that hands one over to a loop. -/
theorem GrowsBy.queueInLoop {x : Stmt} (h : s'.threads = s.threads.queueInLoop t owner x)
    (hx : stmt.Queues x) : GrowsBy stmt t s s' := by
  refine ⟨_, _, .queueInLoop h, by simp, fun t' y hy => ?_⟩
  split at hy
  · rw [List.mem_singleton.mp hy]; exact hx
  · cases hy

/-- A statement that calls `runInLoop` does one or the other. -/
theorem GrowsBy.runInLoop {x : Stmt} (h : s'.threads = s.threads.runInLoop t owner x)
    (hb : stmt.Begins x) (hq : stmt.Queues x) : GrowsBy stmt t s s' := by
  unfold Threads.runInLoop at h
  split at h
  · exact .push h (fun y hy => by rw [List.mem_singleton.mp hy]; exact hb)
  · exact .queueInLoop h hq

/-- A statement that does both, one after the other. -/
theorem GrowsBy.trans {s₁ : TcpServer} (h : GrowsBy stmt t s s₁) (h' : GrowsBy stmt t s₁ s') :
    GrowsBy stmt t s s' := by
  obtain ⟨front, back, hg, hf, hb⟩ := h
  obtain ⟨front', back', hg', hf', hb'⟩ := h'
  refine ⟨_, _, hg.trans hg', fun x hx => ?_, fun t' x hx => ?_⟩
  · exact (List.mem_append.mp hx).elim (hf' x) (hf x)
  · exact (List.mem_append.mp hx).elim (hb t' x) (hb' t' x)

/-- `sendInLoop` queues the write complete callback at most. -/
theorem sendInLoop_growsBy {message : Message} {w : Option Nat}
    (hs : s.sendInLoop cfg t message w = .ok s') (hq : stmt.Queues .user) : GrowsBy stmt t s s' := by
  obtain ⟨-, conn, wc, -, rfl⟩ := sendInLoop_eq hs
  cases wc
  · exact .same rfl
  · exact .queueInLoop rfl hq

/-- `shutdownInLoop` begins and queues nothing. -/
theorem shutdownInLoop_threads (hs : s.shutdownInLoop cfg t = .ok s') : s'.threads = s.threads := by
  simp only [shutdownInLoop, bind_eq_ok, pure_eq_ok, Except.ok.injEq] at hs
  obtain ⟨-, -, rfl⟩ := hs
  rfl

/-- **The call graph.** -/
theorem run_growsBy {w : Option Nat} {r : Option (List Byte)} (hs : s.run cfg t w r stmt = .ok s') :
    GrowsBy stmt t s s' := by
  cases stmt with
  | user => simp [run] at hs
  | acceptLoop => simp [run] at hs
  | runConnectEstablished =>
    simp only [run, pure_eq_ok, Except.ok.injEq] at hs
    exact .runInLoop (by rw [← hs]) rfl rfl
  | setCloseCallback =>
    simp only [run, pure_eq_ok, Except.ok.injEq] at hs
    exact .same (by rw [← hs])
  | connectEstablished =>
    simp only [run, bind_eq_ok, pure_eq_ok, Except.ok.injEq] at hs
    obtain ⟨-, -, conn, -, rfl⟩ := hs
    exact .push rfl (by simp [Stmt.Begins])
  | connectDestroyed =>
    simp only [run, bind_eq_ok, pure_eq_ok, Except.ok.injEq] at hs
    obtain ⟨-, -, conn, -, rfl⟩ := hs
    exact .push rfl (by simp [Stmt.Begins])
  | removeChannel =>
    simp only [run, bind_eq_ok, pure_eq_ok, Except.ok.injEq] at hs
    obtain ⟨-, -, conn, -, rfl⟩ := hs
    exact .same rfl
  | handleClose =>
    simp only [run, bind_eq_ok, pure_eq_ok, Except.ok.injEq] at hs
    obtain ⟨-, -, conn, -, rfl⟩ := hs
    exact .push rfl (by simp [Stmt.Begins])
  | handleError =>
    simp only [run, pure_eq_ok, Except.ok.injEq] at hs
    exact .same (by rw [← hs])
  | handleRead revents =>
    obtain ⟨conn, next, callbacks, -, rfl, hnext⟩ := run_handleRead hs
    refine .push rfl fun x hx => ?_
    rw [List.mem_singleton.mp hx]
    rcases hnext with ⟨rfl, -⟩ | ⟨rfl, -⟩ | ⟨rfl, -⟩ <;> simp [Stmt.Begins]
  | handleWrite =>
    obtain ⟨conn, drained, -, rfl⟩ := run_handleWrite hs
    cases drained with
    | false => exact .same rfl
    | true =>
      cases conn.writeCompleteCallback with
      | false => exact .push rfl (by simp [Stmt.Begins])
      | true =>
        have hq : GrowsBy .handleWrite t s { s with threads := s.threads.queueInLoop t cfg.io .user } :=
          .queueInLoop rfl rfl
        exact hq.trans (.push rfl (by simp [Stmt.Begins]))
  | drained =>
    simp only [run] at hs
    split at hs
    · exact .same (shutdownInLoop_threads hs)
    · simp only [pure_eq_ok, Except.ok.injEq] at hs
      exact .same (by rw [← hs])
  | removeConnection =>
    simp only [run, pure_eq_ok, Except.ok.injEq] at hs
    exact .runInLoop (by rw [← hs]) rfl rfl
  | removeConnectionInLoop =>
    simp only [run, bind_eq_ok, pure_eq_ok, Except.ok.injEq] at hs
    obtain ⟨-, -, -, -, rfl⟩ := hs
    exact .queueInLoop rfl rfl
  | send message =>
    simp only [run, bind_eq_ok, pure_eq_ok, Except.ok.injEq] at hs
    obtain ⟨s₁, hs₁, rfl⟩ := hs
    have h₁ : GrowsBy (.send message) t s s₁ := by
      split at hs₁
      · exact sendInLoop_growsBy hs₁ (.inl rfl)
      · simp only [Except.ok.injEq] at hs₁
        subst hs₁
        exact .queueInLoop rfl (.inr rfl)
    exact h₁.trans (.same rfl)
  | sendInLoop message => exact sendInLoop_growsBy hs rfl
  | setDisconnecting =>
    simp only [run, pure_eq_ok, Except.ok.injEq] at hs
    exact .push (by rw [← hs]) (by simp [Stmt.Begins])
  | runShutdownInLoop =>
    simp only [run] at hs
    split at hs
    · exact .same (shutdownInLoop_threads hs)
    · simp only [pure_eq_ok, Except.ok.injEq] at hs
      exact .queueInLoop (by rw [← hs]) rfl
  | shutdownInLoop => exact .same (shutdownInLoop_threads hs)

/-! ## What a statement leaves as it was -/

/-- The output side of the connection and what the history says about it. -/
structure SameOutput (s s' : TcpServer) : Prop where
  channel : s'.conn.channel = s.conn.channel
  poller : s'.conn.poller = s.conn.poller
  outputBuffer : s'.conn.outputBuffer = s.conn.outputBuffer
  accepted : s'.conn.socket.accepted = s.conn.socket.accepted
  closeCalls : s'.history.closeCalls = s.history.closeCalls
  destroyCalls : s'.history.destroyCalls = s.history.destroyCalls
  ran : s'.history.ran = s.history.ran
  returned : s'.history.returned = s.history.returned

/-- What only the calls of users, and `newConnection`, change. -/
structure SameCalls (s s' : TcpServer) : Prop where
  created : s'.created = s.created
  nextSerial : s'.history.nextSerial = s.history.nextSerial
  sends : s'.history.sends = s.history.sends
  beforeShutdown : s'.history.beforeShutdown = s.history.beforeShutdown

theorem SameOutput.refl (s : TcpServer) : SameOutput s s := by constructor <;> rfl

theorem SameCalls.refl (s : TcpServer) : SameCalls s s := by constructor <;> rfl

/-- What `sendInLoop` does is no call of a user. -/
theorem sendInLoop_sameCalls {message : Message} {w : Option Nat}
    (hs : s.sendInLoop cfg t message w = .ok s') : SameCalls s s' := by
  obtain ⟨-, conn, wc, -, rfl⟩ := sendInLoop_eq hs
  constructor <;> rfl

/-- What `shutdownInLoop` does is no call of a user. -/
theorem shutdownInLoop_sameCalls (hs : s.shutdownInLoop cfg t = .ok s') : SameCalls s s' := by
  simp only [shutdownInLoop, bind_eq_ok, pure_eq_ok, Except.ok.injEq] at hs
  obtain ⟨-, -, rfl⟩ := hs
  constructor <;> rfl

/-- No statement is a call of a user. -/
theorem run_sameCalls {w : Option Nat} {r : Option (List Byte)} (hs : s.run cfg t w r stmt = .ok s') :
    SameCalls s s' := by
  cases stmt with
  | user => simp [run] at hs
  | acceptLoop => simp [run] at hs
  | handleRead revents =>
    obtain ⟨conn, next, callbacks, -, rfl, -⟩ := run_handleRead hs
    constructor <;> rfl
  | handleWrite =>
    obtain ⟨conn, drained, -, rfl⟩ := run_handleWrite hs
    constructor <;> rfl
  | drained =>
    simp only [run] at hs
    split at hs
    · exact shutdownInLoop_sameCalls hs
    · simp only [pure_eq_ok, Except.ok.injEq] at hs
      exact hs ▸ .refl _
  | runShutdownInLoop =>
    simp only [run] at hs
    split at hs
    · exact shutdownInLoop_sameCalls hs
    · simp only [pure_eq_ok, Except.ok.injEq] at hs
      subst hs; constructor <;> rfl
  | shutdownInLoop => exact shutdownInLoop_sameCalls hs
  | sendInLoop message => exact sendInLoop_sameCalls hs
  | send message =>
    simp only [run, bind_eq_ok, pure_eq_ok, Except.ok.injEq] at hs
    obtain ⟨s₁, hs₁, rfl⟩ := hs
    split at hs₁
    · obtain ⟨h₁, h₂, h₃, h₄⟩ := sendInLoop_sameCalls hs₁
      exact ⟨h₁, h₂, h₃, h₄⟩
    · simp only [Except.ok.injEq] at hs₁
      subst hs₁; constructor <;> rfl
  | _ =>
    simp only [run, bind_eq_ok, pure_eq_ok, Except.ok.injEq] at hs
    first
      | (subst hs; constructor <;> rfl)
      | (obtain ⟨-, -, _, -, rfl⟩ := hs; constructor <;> rfl)

/-- `shutdownInLoop` writes no byte, makes no callback and leaves the state as it is. -/
theorem shutdownInLoop_sameOutput (hs : s.shutdownInLoop cfg t = .ok s') :
    SameOutput s s' ∧ s'.history.callbacks = s.history.callbacks ∧ s'.conn.state = s.conn.state := by
  simp only [shutdownInLoop, bind_eq_ok, pure_eq_ok, Except.ok.injEq] at hs
  obtain ⟨-, -, rfl⟩ := hs
  unfold TcpConnection.shutdownInLoop
  split <;> exact ⟨by constructor <;> rfl, rfl, rfl⟩

/-- The statement touches neither the channel nor the output buffer. -/
def Stmt.Quiet : Stmt → Prop
  | .connectEstablished => False
  | .connectDestroyed => False
  | .removeChannel => False
  | .handleClose => False
  | .handleWrite => False
  | .send _ => False
  | .sendInLoop _ => False
  | _ => True

/-- **Quiet statements.** Besides, only a read calls the user back, and only `shutdown` moves `state_`. -/
theorem run_quiet {w : Option Nat} {r : Option (List Byte)} (hq : stmt.Quiet)
    (hs : s.run cfg t w r stmt = .ok s') : SameOutput s s' ∧
      (s'.history.callbacks = s.history.callbacks ∨
        (∃ revents, stmt = .handleRead revents) ∧
          s'.history.callbacks = s.history.callbacks ++ [.message]) ∧
      (s'.conn.state = s.conn.state ∨ stmt = .setDisconnecting ∧ s'.conn.state = .kDisconnecting) := by
  cases stmt with
  | connectEstablished => cases hq
  | connectDestroyed => cases hq
  | removeChannel => cases hq
  | handleClose => cases hq
  | handleWrite => cases hq
  | send message => cases hq
  | sendInLoop message => cases hq
  | user => simp [run] at hs
  | acceptLoop => simp [run] at hs
  | handleRead revents =>
    obtain ⟨conn, next, callbacks, hconn, rfl, hnext⟩ := run_handleRead hs
    rw [TcpConnection.readInput_cases hconn]
    refine ⟨by constructor <;> rfl, ?_, .inl rfl⟩
    rcases hnext with ⟨-, rfl⟩ | ⟨-, rfl, -⟩ | ⟨-, rfl⟩
    · exact .inr ⟨⟨revents, rfl⟩, rfl⟩
    · exact .inl (List.append_nil _)
    · exact .inl (List.append_nil _)
  | drained =>
    simp only [run] at hs
    split at hs
    · obtain ⟨h, hcb, hstate⟩ := shutdownInLoop_sameOutput hs
      exact ⟨h, .inl hcb, .inl hstate⟩
    · simp only [pure_eq_ok, Except.ok.injEq] at hs
      exact hs ▸ ⟨.refl _, .inl rfl, .inl rfl⟩
  | runShutdownInLoop =>
    simp only [run] at hs
    split at hs
    · obtain ⟨h, hcb, hstate⟩ := shutdownInLoop_sameOutput hs
      exact ⟨h, .inl hcb, .inl hstate⟩
    · simp only [pure_eq_ok, Except.ok.injEq] at hs
      exact hs ▸ ⟨by constructor <;> rfl, .inl rfl, .inl rfl⟩
  | shutdownInLoop =>
    obtain ⟨h, hcb, hstate⟩ := shutdownInLoop_sameOutput hs
    exact ⟨h, .inl hcb, .inl hstate⟩
  | removeConnectionInLoop =>
    simp only [run, bind_eq_ok, pure_eq_ok, Except.ok.injEq] at hs
    obtain ⟨-, -, -, -, rfl⟩ := hs
    exact ⟨by constructor <;> rfl, .inl rfl, .inl rfl⟩
  | setDisconnecting =>
    simp only [run, pure_eq_ok, Except.ok.injEq] at hs
    exact hs ▸ ⟨by constructor <;> rfl, .inl rfl, .inr ⟨rfl, rfl⟩⟩
  | runConnectEstablished =>
    simp only [run, pure_eq_ok, Except.ok.injEq] at hs
    exact hs ▸ ⟨by constructor <;> rfl, .inl rfl, .inl rfl⟩
  | setCloseCallback =>
    simp only [run, pure_eq_ok, Except.ok.injEq] at hs
    exact hs ▸ ⟨by constructor <;> rfl, .inl rfl, .inl rfl⟩
  | handleError =>
    simp only [run, pure_eq_ok, Except.ok.injEq] at hs
    exact hs ▸ ⟨.refl _, .inl rfl, .inl rfl⟩
  | removeConnection =>
    simp only [run, pure_eq_ok, Except.ok.injEq] at hs
    exact hs ▸ ⟨by constructor <;> rfl, .inl rfl, .inl rfl⟩

/-- The two counts, and the moves of `state_`: each is one statement's business. -/
theorem run_counts (hv : s.conn.outputBuffer.Valid) {w : Option Nat} {r : Option (List Byte)}
    (hs : s.run cfg t w r stmt = .ok s') :
    s'.history.closeCalls = s.history.closeCalls + (if stmt = .handleClose then 1 else 0) ∧
    s'.history.destroyCalls = s.history.destroyCalls + (if stmt = .connectDestroyed then 1 else 0) ∧
    (s'.conn.state = s.conn.state ∨ stmt = .connectEstablished ∧ s'.conn.state = .kConnected ∨
      stmt = .setDisconnecting ∧ s'.conn.state = .kDisconnecting ∨
      stmt = .connectDestroyed ∧ s'.conn.state = .kDisconnected) := by
  by_cases hq : stmt.Quiet
  · obtain ⟨hout, -, hstate⟩ := run_quiet hq hs
    have hc : stmt ≠ .handleClose := by rintro rfl; exact hq
    have hd : stmt ≠ .connectDestroyed := by rintro rfl; exact hq
    exact ⟨by rw [hout.closeCalls, if_neg hc]; rfl, by rw [hout.destroyCalls, if_neg hd]; rfl,
      hstate.imp_right fun hstate => .inr (.inl hstate)⟩
  have hsend : ∀ {message s₁}, s.sendInLoop cfg t message w = .ok s₁ →
      s₁.history.closeCalls = s.history.closeCalls ∧ s₁.history.destroyCalls = s.history.destroyCalls ∧
        s₁.conn.state = s.conn.state := by
    intro message s₁ h₁
    obtain ⟨-, conn, wc, hconn, rfl⟩ := sendInLoop_eq h₁
    exact ⟨rfl, rfl, by rw [(TcpConnection.sendInLoop_cases hv hconn).1]⟩
  cases stmt with
  | connectEstablished =>
    simp only [run, bind_eq_ok, Result.mapFault_eq_ok, pure_eq_ok, Except.ok.injEq] at hs
    obtain ⟨-, -, conn, hconn, rfl⟩ := hs
    obtain ⟨-, hframe, -, -⟩ := TcpConnection.connectEstablished_cases hconn
    exact ⟨rfl, rfl, .inr (.inl ⟨rfl, by rw [hframe]⟩)⟩
  | connectDestroyed =>
    simp only [run, bind_eq_ok, Result.mapFault_eq_ok, pure_eq_ok, Except.ok.injEq] at hs
    obtain ⟨-, -, conn, hconn, rfl⟩ := hs
    obtain ⟨-, hframe, -, -⟩ := TcpConnection.connectDestroyed_cases hconn
    exact ⟨rfl, rfl, .inr (.inr (.inr ⟨rfl, by rw [hframe]⟩))⟩
  | removeChannel =>
    simp only [run, bind_eq_ok, Result.mapFault_eq_ok, pure_eq_ok, Except.ok.injEq] at hs
    obtain ⟨-, -, conn, hconn, rfl⟩ := hs
    obtain ⟨hframe, -, -, -⟩ := TcpConnection.removeChannel_cases hconn
    exact ⟨rfl, rfl, .inl (by rw [hframe])⟩
  | handleClose =>
    simp only [run, bind_eq_ok, Result.mapFault_eq_ok, pure_eq_ok, Except.ok.injEq] at hs
    obtain ⟨-, -, conn, hconn, rfl⟩ := hs
    obtain ⟨-, hframe, -, -⟩ := TcpConnection.handleClose_cases hconn
    exact ⟨rfl, rfl, .inl (by rw [hframe])⟩
  | handleWrite =>
    obtain ⟨conn, drained, hconn, rfl⟩ := run_handleWrite hs
    exact ⟨rfl, rfl, .inl (by rw [(TcpConnection.handleWrite_cases hv hconn).1])⟩
  | send message =>
    simp only [run, bind_eq_ok, pure_eq_ok, Except.ok.injEq] at hs
    obtain ⟨s₁, hs₁, rfl⟩ := hs
    split at hs₁
    · obtain ⟨hc, hd, hstate⟩ := hsend hs₁
      exact ⟨hc, hd, .inl hstate⟩
    · simp only [Except.ok.injEq] at hs₁
      subst hs₁
      exact ⟨rfl, rfl, .inl rfl⟩
  | sendInLoop message =>
    obtain ⟨hc, hd, hstate⟩ := hsend hs
    exact ⟨hc, hd, .inl hstate⟩
  | _ => exact absurd trivial hq

/-! ## Every other step

The loops' own code, the return of user code, and what is called from outside. -/

/-- What every other step leaves as it was. -/
structure Outside (s s' : TcpServer) : Prop extends SameOutput s s' where
  callbacks : s'.history.callbacks = s.history.callbacks
  state : s'.conn.state = s.conn.state
  atShutdownWrite : s'.history.atShutdownWrite = s.history.atShutdownWrite

/-- What a call from outside makes a thread begin. -/
def Stmt.Outer (s' : TcpServer) : Stmt → Prop
  | .runConnectEstablished => s'.created = true
  | .setCloseCallback => True
  | .send _ => True
  | .setDisconnecting => s'.history.beforeShutdown ≠ none
  | _ => False

/-- What a call from outside changes in the history: `send` appends its message, and the first `shutdown`
    notes what has been sent. -/
def Called (t : ThreadId) (s s' : TcpServer) (front : List Stmt) : Prop :=
  ((∀ m, .send m ∉ front) ∧ s'.history.nextSerial = s.history.nextSerial ∧ s'.history.sends = s.history.sends ∧
    (s'.history.beforeShutdown = s.history.beforeShutdown ∨
      s.history.beforeShutdown = none ∧ s'.history.beforeShutdown = some s.history.returned)) ∨
  ∃ m, front = [.send m] ∧ m.sender = t ∧ m.serial = s.history.nextSerial ∧
    s'.history.nextSerial = s.history.nextSerial + 1 ∧ s'.history.sends = s.history.sends ++ [m] ∧
    s'.history.beforeShutdown = s.history.beforeShutdown

/-- A thread is in user code or in the accept loop when it begins something new. -/
def Stmt.Outermost (stmt : Stmt) : Prop := stmt = .user ∨ stmt = .acceptLoop

/-- User code runs outside the connection's own code. -/
theorem head_of_userCode (h : s.userCode cfg t = true) : ∀ x ∈ (s.threads.frames t).head?, x.Outermost := by
  unfold userCode at h
  split at h
  · rename_i hf; rw [hf]; simp [Stmt.Outermost]
  · rename_i hf; rw [hf]; simp
  · cases h

/-- **A step** is a statement, a piece of a loop's own code, the end of user code, or a call from outside;
    nobody calls anything in the middle of a member. -/
theorem step_cases {a : Label} (hs : s.step cfg a = .ok s') :
    (∃ t w r stmt th, a = .exec t w r ∧ s.threads.pop t = some (stmt, th) ∧
      { s with threads := th }.run cfg t w r stmt = .ok s') ∨
    (∃ t mv th, a = .loop t mv ∧ s.Pollable cfg t mv ∧ s.threads.advance Handler.stmts t mv = .ok th ∧
      s' = { s with threads := th }) ∨
    (∃ t stmt th, a = .ret t ∧ (stmt = .user ∨ stmt = .acceptLoop) ∧ s.threads.pop t = some (stmt, th) ∧
      s' = { s with threads := th }) ∨
    (Outside s s' ∧ (s.created = true → s'.created = true) ∧
      ∃ t front back, Grows t s s' front back ∧
        (front = [] ∨ ∀ x ∈ (s.threads.frames t).head?, x.Outermost) ∧
        (∀ x ∈ front, x.Outer s') ∧ (∀ t', ∀ x ∈ back t', x = .user) ∧ Called t s s' front) := by
  cases a with
  | loop t mv =>
    simp only [step, bind_eq_ok, enabled_eq_ok, Result.mapFault_eq_ok, pure_eq_ok, Except.ok.injEq] at hs
    obtain ⟨-, ⟨-, hpoll⟩, th, hadv, rfl⟩ := hs
    exact .inr (.inl ⟨t, mv, th, rfl, hpoll, hadv, rfl⟩)
  | exec t w r =>
    simp only [step] at hs
    split at hs
    · rename_i stmt th hp
      exact .inl ⟨t, w, r, stmt, th, rfl, hp, hs⟩
    · cases hs
  | ret t =>
    simp only [step] at hs
    split at hs
    · rename_i th hp
      simp only [pure_eq_ok, Except.ok.injEq] at hs
      exact .inr (.inr (.inl ⟨t, _, th, rfl, .inl rfl, hp, hs.symm⟩))
    · rename_i th hp
      simp only [pure_eq_ok, Except.ok.injEq] at hs
      exact .inr (.inr (.inl ⟨t, _, th, rfl, .inr rfl, hp, hs.symm⟩))
    · cases hs
  | newConnection wc =>
    simp only [step, bind_eq_ok, enabled_eq_ok, pure_eq_ok, Except.ok.injEq] at hs
    obtain ⟨-, ⟨hhead, -⟩, rfl⟩ := hs
    refine .inr (.inr (.inr ⟨by constructor <;> first | rfl | constructor <;> rfl, fun _ => rfl,
      cfg.base, _, _, .push rfl, .inr ?_, ?_, by simp, .inl ⟨by simp, rfl, rfl, .inl rfl⟩⟩))
    · rw [hhead]; simp [Stmt.Outermost]
    · simp [Stmt.Outer]
  | send t bytes =>
    simp only [step, bind_eq_ok, enabled_eq_ok] at hs
    obtain ⟨-, ⟨hu, -⟩, hs⟩ := hs
    split at hs <;> simp only [pure_eq_ok, Except.ok.injEq] at hs <;> subst hs
    · exact .inr (.inr (.inr ⟨by constructor <;> first | rfl | constructor <;> rfl, id,
        t, _, _, .push rfl, .inr (head_of_userCode hu), by simp [Stmt.Outer], by simp,
        .inr ⟨_, rfl, rfl, rfl, rfl, rfl, rfl⟩⟩))
    · exact .inr (.inr (.inr ⟨by constructor <;> first | rfl | constructor <;> rfl, id,
        t, _, _, .same rfl, .inl rfl, by simp, by simp, .inl ⟨by simp, rfl, rfl, .inl rfl⟩⟩))
  | shutdown t =>
    simp only [step, bind_eq_ok, enabled_eq_ok] at hs
    obtain ⟨-, ⟨hu, -⟩, hs⟩ := hs
    have hfirst : s.history.beforeShutdown.or (some s.history.returned) = s.history.beforeShutdown ∨
        s.history.beforeShutdown = none ∧
          s.history.beforeShutdown.or (some s.history.returned) = some s.history.returned := by
      cases s.history.beforeShutdown <;> simp
    split at hs <;> simp only [pure_eq_ok, Except.ok.injEq] at hs <;> subst hs
    · exact .inr (.inr (.inr ⟨by constructor <;> first | rfl | constructor <;> rfl, id,
        t, _, _, .push rfl, .inr (head_of_userCode hu), by simp [Stmt.Outer], by simp,
        .inl ⟨by simp, rfl, rfl, hfirst⟩⟩))
    · exact .inr (.inr (.inr ⟨by constructor <;> first | rfl | constructor <;> rfl, id,
        t, _, _, .same rfl, .inl rfl, by simp, by simp, .inl ⟨by simp, rfl, rfl, hfirst⟩⟩))
  | retrieve len =>
    simp only [step, bind_eq_ok, pure_eq_ok, Except.ok.injEq] at hs
    obtain ⟨-, -, b, -, rfl⟩ := hs
    exact .inr (.inr (.inr ⟨by constructor <;> first | rfl | constructor <;> rfl, id,
      cfg.io, _, _, .same rfl, .inl rfl, by simp, by simp, .inl ⟨by simp, rfl, rfl, .inl rfl⟩⟩))
  | queueInLoop t owner =>
    simp only [step, bind_eq_ok, pure_eq_ok, Except.ok.injEq] at hs
    obtain ⟨-, -, rfl⟩ := hs
    refine .inr (.inr (.inr ⟨by constructor <;> first | rfl | constructor <;> rfl, id,
      t, _, _, .queueInLoop rfl, .inl rfl, by simp, fun t' x hx => ?_, .inl ⟨by simp, rfl, rfl, .inl rfl⟩⟩))
    split at hx
    · exact List.mem_singleton.mp hx
    · cases hx
  | quit t owner =>
    simp only [step, bind_eq_ok, pure_eq_ok, Except.ok.injEq] at hs
    obtain ⟨-, -, rfl⟩ := hs
    refine .inr (.inr (.inr ⟨by constructor <;> first | rfl | constructor <;> rfl, id,
      t, [], fun _ => [], ⟨fun t' => ?_, fun t' => ?_, fun t' => ?_⟩, .inl rfl, by simp, by simp,
      .inl ⟨by simp, rfl, rfl, .inl rfl⟩⟩))
    · simp [Threads.quit]
    · simp [functors_quit]
    · simp [agenda, agenda_quit]

/-! ## A run to start from -/

/-- A loop takes what `poll` reports, up to the first handler. -/
def polls (t : ThreadId) (active : List (Active Handler)) : List Label :=
  [.loop t .next, .loop t (.poll active), .loop t .next]

/-- A loop ends its dispatch and begins the first functor. -/
def swaps (t : ThreadId) : List Label := [.loop t .next, .loop t .next]

/-- A loop ends `doPendingFunctors`. -/
def unwinds (t : ThreadId) : List Label := [.loop t .next, .loop t .next]

/-- A loop ends its dispatch and has no functors. -/
def idles (t : ThreadId) : List Label := [.loop t .next, .loop t .next, .loop t .next]

/-- The base loop 0 accepts a connection, and its I/O loop 1 makes it known to the user. -/
def connect (writeCompleteCallback : Bool) : List Label :=
  [Label.loop 0 .enter] ++ polls 0 [.channel .acceptor] ++
  [Label.newConnection writeCompleteCallback, .exec 0 none none, .exec 0 none none, .ret 0] ++
  [Label.loop 1 .enter] ++ polls 1 [.wakeupChannel] ++ swaps 1 ++ [Label.exec 1 none none, .ret 1] ++ unwinds 1

end TcpServer

end Irono
