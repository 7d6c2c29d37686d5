import Irono.Net.Correctness.ConnectorSockets

/-!
# `Net.Correctness.ConnectorAsserts` — one attempt at a time

The asserts of the connector take for granted that one attempt is under way at most. `start()` does not see
to it: it queues a `startInLoop` whatever the state, and a `stop()` before it leaves `state_`, `channel_`
and a retry timer that is just being set as they are. `start_while_connecting` is a run with a failed
assert.

`asserts_hold`: the asserts hold in the runs in which each `start()` begins afresh (`BeginsAfresh`). There
the ways to a next attempt, counted by `waiting`, are one at most, and none outside `kDisconnected`.

What a statement of the loop thread can do to the connector is said once, by `Outcome`.
-/

namespace Irono

open Transition

namespace TcpClient

variable (tid : ThreadId)

/-! ## What a statement does -/

/-- All that the loop thread has still to do. -/
def agenda (s : TcpClient) : List Stmt := s.threads.agenda Handler.stmts tid

/-- A statement has begun `pushed` and queued `queued`. -/
structure Runs (th th' : Threads Handler Stmt) (pushed queued : List Stmt) : Prop where
  frames : th'.frames tid = pushed ++ th.frames tid
  pc : (th'.loops tid).pc = (th.loops tid).pc
  pending : (th'.loops tid).pendingFunctors = (th.loops tid).pendingFunctors ++ queued
  agenda : th'.agenda Handler.stmts tid = pushed ++ th.agenda Handler.stmts tid ++ queued

/-- What a statement can do to the connector, the connection and the timers. -/
inductive Outcome (s s' : TcpClient) : Stmt → List Stmt → List Stmt → Prop
  /-- `startInLoop`, called or by a timer, makes no attempt or one that ends at once -/
  | noAttempt {stmt : Stmt} {pushed : List Stmt} (hstmt : stmt = .startInLoop ∨ ∃ id, stmt = .timer id)
      (hpushed : pushed = [] ∨ pushed = [.finishRetry])
      (hstate : s.connector.state = .kDisconnected ∧ s'.connector.state = .kDisconnected)
      (hrest : s'.connection = s.connection ∧ s'.timers = s.timers ∧ s'.nextTimer = s.nextTimer) :
      Outcome s s' stmt pushed []
  | attempt {stmt : Stmt} (hstmt : stmt = .startInLoop ∨ ∃ id, stmt = .timer id)
      (hstate : s.connector.state = .kDisconnected ∧ s'.connector.state = .kConnecting)
      (hrest : s'.connection = s.connection ∧ s'.timers = s.timers ∧ s'.nextTimer = s.nextTimer) :
      Outcome s s' stmt [] []
  /-- the channel's event ends the attempt -/
  | ended {stmt x : Stmt} (hstmt : stmt = .handleError ∨ stmt = .handleWrite)
      (hx : x = .finishRetry ∧ s'.connector.state = .kDisconnected ∨
        stmt = .handleWrite ∧ (∃ sockfd, x = .finishWrite sockfd) ∧ s'.connector.state = .kConnected)
      (hstate : s.connector.state = .kConnecting)
      (hrest : s'.connection = s.connection ∧ s'.timers = s.timers ∧ s'.nextTimer = s.nextTimer) :
      Outcome s s' stmt [x] [.resetChannel]
  /-- `handleWrite` after `handleError` in the same event -/
  | noWrite : s.connector.state = .kDisconnected → s' = s → Outcome s s' .handleWrite [] []
  | finishWrite {sockfd : Int} {pushed : List Stmt}
      (h : pushed = [.user] ∧ s'.connection = true ∨ pushed = [] ∧ s'.connection = s.connection)
      (hrest : s'.connector = s.connector ∧ s'.timers = s.timers ∧ s'.nextTimer = s.nextTimer) :
      Outcome s s' (.finishWrite sockfd) pushed []
  | finishRetry {pushed : List Stmt} (h : pushed = [.setTimer] ∨ pushed = [])
      (hrest : s'.connector = s.connector ∧ s'.connection = s.connection ∧ s'.timers = s.timers ∧
        s'.nextTimer = s.nextTimer) :
      Outcome s s' .finishRetry pushed []
  | setTimer (h : s'.timers = s.timers ++ [s.nextTimer] ∧ s'.nextTimer = s.nextTimer + 1)
      (hrest : s'.connector.state = s.connector.state ∧ s'.connection = s.connection) :
      Outcome s s' .setTimer [] []
  | handleRead (expired : List (Option Nat)) (h : (expired.filterMap id ++ s'.timers).Perm s.timers)
      (hrest : s'.connector = s.connector ∧ s'.connection = s.connection ∧ s'.nextTimer = s.nextTimer) :
      Outcome s s' .handleRead (expired.map expiredStmt) []
  | cancelInLoop {timerId : Option Nat} (h : s'.timers.Sublist s.timers)
      (hrest : s'.connector = s.connector ∧ s'.connection = s.connection ∧ s'.nextTimer = s.nextTimer) :
      Outcome s s' (.cancelInLoop timerId) [] []
  | resetChannel (hrest : s'.connector.state = s.connector.state ∧ s'.connection = s.connection ∧
        s'.timers = s.timers ∧ s'.nextTimer = s.nextTimer) :
      Outcome s s' .resetChannel [] []
  /-- the connection closes, and the connector starts again or not -/
  | closed {pushed : List Stmt}
      (h : pushed = [.startInLoop] ∧ s'.connector.state = .kDisconnected ∨
        pushed = [] ∧ s'.connector.state = s.connector.state)
      (hconnection : s.connection = true ∧ s'.connection = false)
      (hrest : s'.timers = s.timers ∧ s'.nextTimer = s.nextTimer) :
      Outcome s s' .connectionEvent pushed [.user]
  | message (hrest : s'.connector = s.connector ∧ s'.connection = s.connection ∧ s'.timers = s.timers ∧
        s'.nextTimer = s.nextTimer) :
      Outcome s s' .connectionEvent [.user] []

variable {tid} {s s' : TcpClient} {a : Answers} {th th' : Threads Handler Stmt} {stmt : Stmt}
  {pushed queued : List Stmt}

theorem Runs.nil : Runs tid th th [] [] := ⟨rfl, rfl, by simp, by simp⟩

theorem Runs.push (h : Runs tid th th' [] queued) (stmts : List Stmt) :
    Runs tid th (th'.push tid stmts) stmts queued := by
  refine ⟨?_, h.pc, h.pending, ?_⟩
  · simp [Threads.push, h.frames]
  · rw [Threads.agenda_push, if_pos rfl, h.agenda]
    simp

theorem Runs.queue (h : Runs tid th th' [] []) (t : ThreadId) (x : Stmt) :
    Runs tid th (th'.queueInLoop t tid x) [] [x] := by
  refine ⟨h.frames, ?_, ?_, ?_⟩
  · simp [Threads.queueInLoop, h.pc]
  · simp [Threads.queueInLoop, h.pending]
  · rw [Threads.agenda_queueInLoop, if_pos rfl, h.agenda]
    simp

theorem Runs.quit (t : ThreadId) : Runs tid th (th.quit t tid) [] [] := by
  refine ⟨rfl, ?_, ?_, by rw [Threads.agenda_quit]; simp⟩
  · simp only [Threads.quit, Function.update_self]
    split <;> rfl
  · simp only [Threads.quit, Function.update_self, List.append_nil]
    split <;> rfl

/-- `connect` begins an attempt, or makes one that ends at once. -/
theorem connect_outcome (hstmt : stmt = .startInLoop ∨ ∃ id, stmt = .timer id)
    (hstate : s.connector.state = .kDisconnected) (h : s.connect tid a = .ok s') :
    s'.calls = s.calls ∧ s'.history = s.history ∧
      ∃ pushed, Runs tid s.threads s'.threads pushed [] ∧ Outcome s s' stmt pushed [] := by
  simp only [connect, bind_eq_ok, enabled_eq_ok] at h
  obtain ⟨-, -, h⟩ := h
  cases haction : a.connectErrno.action with
  | retry =>
    rw [haction] at h
    obtain rfl := Except.ok.inj h
    exact ⟨rfl, rfl, _, Runs.nil.push _, .noAttempt hstmt (.inr rfl) ⟨hstate, rfl⟩ ⟨rfl, rfl, rfl⟩⟩
  | close =>
    rw [haction] at h
    obtain rfl := Except.ok.inj h
    exact ⟨rfl, rfl, _, Runs.nil, .noAttempt hstmt (.inl rfl) ⟨hstate, hstate⟩ ⟨rfl, rfl, rfl⟩⟩
  | connecting =>
    rw [haction] at h
    simp only [bind_eq_ok, Result.mapFault_eq_ok, Prod.exists, pure_eq_ok, Except.ok.injEq] at h
    obtain ⟨connector, poller, hcon, rfl⟩ := h
    obtain ⟨channel, -, rfl, -⟩ := Connector.connecting_cases hcon
    exact ⟨rfl, rfl, _, Runs.nil, .attempt hstmt ⟨hstate, rfl⟩ ⟨rfl, rfl, rfl⟩⟩

/-- `startInLoop` runs in `kDisconnected`, and does nothing after a `stop`. -/
theorem startInLoop_outcome (hstmt : stmt = .startInLoop ∨ ∃ id, stmt = .timer id)
    (h : s.startInLoop tid a = .ok s') :
    s'.calls = s.calls ∧ s'.history = s.history ∧
      ∃ pushed, Runs tid s.threads s'.threads pushed [] ∧ Outcome s s' stmt pushed [] := by
  obtain ⟨hstate, ⟨-, rfl⟩ | ⟨-, hc⟩⟩ := startInLoop_cases h
  · exact ⟨rfl, rfl, _, Runs.nil, .noAttempt hstmt (.inl rfl) ⟨hstate, hstate⟩ ⟨rfl, rfl, rfl⟩⟩
  · exact connect_outcome hstmt hstate hc

/-- What the end of an attempt leaves as it was. -/
theorem removeAndResetChannel_runs {sockfd : Int} (h : s.removeAndResetChannel tid = .ok (s', sockfd)) :
    s'.calls = s.calls ∧ s'.history = s.history ∧ Runs tid s.threads s'.threads [] [.resetChannel] ∧
      s'.connection = s.connection ∧ s'.timers = s.timers ∧ s'.nextTimer = s.nextTimer := by
  simp only [removeAndResetChannel, bind_eq_ok, Prod.exists, pure_eq_ok, Except.ok.injEq,
    Prod.mk.injEq] at h
  obtain ⟨connector, poller, fd, -, rfl, rfl⟩ := h
  exact ⟨rfl, rfl, Runs.nil.queue tid _, rfl, rfl, rfl⟩

/-- **What a statement of the loop thread does.** Every later argument about `run` starts here. -/
theorem run_outcome (h : s.run tid a stmt = .ok s') :
    s'.calls = s.calls ∧ s'.history = s.history ∧
      ∃ pushed queued, Runs tid s.threads s'.threads pushed queued ∧ Outcome s s' stmt pushed queued := by
  cases stmt with
  | user => cases h
  | startInLoop =>
    obtain ⟨hcalls, hhist, pushed, hruns, hout⟩ := startInLoop_outcome (.inl rfl) h
    exact ⟨hcalls, hhist, pushed, [], hruns, hout⟩
  | timer id =>
    obtain ⟨hcalls, hhist, pushed, hruns, hout⟩ := startInLoop_outcome (.inr ⟨id, rfl⟩) h
    exact ⟨hcalls, hhist, pushed, [], hruns, hout⟩
  | handleRead =>
    simp only [run, bind_eq_ok, enabled_eq_ok, pure_eq_ok, Except.ok.injEq] at h
    obtain ⟨-, hsub, rfl⟩ := h
    refine ⟨rfl, rfl, _, _, Runs.nil.push _, .handleRead a.expired ?_ ⟨rfl, rfl, rfl⟩⟩
    exact List.subperm_append_diff_self_of_count_le (fun x _ => hsub.count_le x)
  | cancelInLoop timerId =>
    obtain rfl := Except.ok.inj h
    cases timerId with
    | none => exact ⟨rfl, rfl, _, _, Runs.nil, .cancelInLoop (List.Sublist.refl _) ⟨rfl, rfl, rfl⟩⟩
    | some id => exact ⟨rfl, rfl, _, _, Runs.nil, .cancelInLoop List.erase_sublist ⟨rfl, rfl, rfl⟩⟩
  | resetChannel =>
    obtain rfl := Except.ok.inj h
    exact ⟨rfl, rfl, _, _, Runs.nil, .resetChannel ⟨rfl, rfl, rfl, rfl⟩⟩
  | handleError =>
    simp only [run, handleError, bind_eq_ok, require_eq_ok, Prod.exists, pure_eq_ok, Except.ok.injEq] at h
    obtain ⟨-, hstate, s₁, sockfd, hr, rfl⟩ := h
    obtain ⟨hcalls, hhist, hruns, hrest⟩ := removeAndResetChannel_runs hr
    exact ⟨hcalls, hhist, _, _, hruns.push _, .ended (.inl rfl) (.inl ⟨rfl, rfl⟩) hstate hrest⟩
  | handleWrite =>
    rcases handleWrite_cases h with ⟨hstate, rfl⟩ | ⟨hstate, s₁, sockfd, hr, hend⟩
    · exact ⟨rfl, rfl, _, _, Runs.nil, .noWrite hstate rfl⟩
    · obtain ⟨hcalls, hhist, hruns, hrest⟩ := removeAndResetChannel_runs hr
      rcases hend with rfl | rfl
      · exact ⟨hcalls, hhist, _, _, hruns.push _, .ended (.inr rfl) (.inl ⟨rfl, rfl⟩) hstate hrest⟩
      · exact ⟨hcalls, hhist, _, _, hruns.push _, .ended (.inr rfl)
          (.inr ⟨rfl, ⟨sockfd, rfl⟩, rfl⟩) hstate hrest⟩
  | finishWrite sockfd =>
    simp only [run] at h
    split at h
    · obtain rfl := Except.ok.inj h
      exact ⟨rfl, rfl, _, _, Runs.nil.push _, .finishWrite (.inl ⟨rfl, rfl⟩) ⟨rfl, rfl, rfl⟩⟩
    · obtain rfl := Except.ok.inj h
      exact ⟨rfl, rfl, _, _, Runs.nil, .finishWrite (.inr ⟨rfl, rfl⟩) ⟨rfl, rfl, rfl⟩⟩
  | finishRetry =>
    simp only [run] at h
    split at h
    · obtain rfl := Except.ok.inj h
      exact ⟨rfl, rfl, _, _, Runs.nil.push _, .finishRetry (.inl rfl) ⟨rfl, rfl, rfl, rfl⟩⟩
    · obtain rfl := Except.ok.inj h
      exact ⟨rfl, rfl, _, _, Runs.nil, .finishRetry (.inr rfl) ⟨rfl, rfl, rfl, rfl⟩⟩
  | setTimer =>
    obtain rfl := Except.ok.inj h
    exact ⟨rfl, rfl, _, _, Runs.nil, .setTimer ⟨rfl, rfl⟩ ⟨rfl, rfl⟩⟩
  | connectionEvent =>
    simp only [run] at h
    split at h
    · simp only [bind_eq_ok, require_eq_ok] at h
      obtain ⟨-, hup, h⟩ := h
      split at h
      · obtain rfl := Except.ok.inj h
        exact ⟨rfl, rfl, _, _, (Runs.nil.queue tid _).push _,
          .closed (.inl ⟨rfl, rfl⟩) ⟨hup, rfl⟩ ⟨rfl, rfl⟩⟩
      · obtain rfl := Except.ok.inj h
        exact ⟨rfl, rfl, _, _, Runs.nil.queue tid _, .closed (.inr ⟨rfl, rfl⟩) ⟨hup, rfl⟩ ⟨rfl, rfl⟩⟩
    · obtain rfl := Except.ok.inj h
      exact ⟨rfl, rfl, _, _, Runs.nil.push _, .message ⟨rfl, rfl, rfl, rfl⟩⟩

/-! ## The events of the channel and of the connection -/

/-- The callbacks of the connector's channel. -/
def isEvent : Stmt → Bool
  | .handleError => true
  | .handleWrite => true
  | _ => false

/-- The statements that no event consists of and that free no channel. -/
def Plain (x : Stmt) : Prop := isEvent x = false ∧ x ≠ .connectionEvent ∧ x ≠ .resetChannel

variable (tid) in
/-- What is reported is as it was when it was reported, until it is handled. -/
structure Dispatch (s : TcpClient) : Prop where
  /-- the callbacks of one event at most -/
  events : ((s.agenda tid).filter isEvent).Sublist [.handleError, .handleWrite]
  error : .handleError ∈ s.agenda tid → s.connector.state = .kConnecting
  write : .handleWrite ∈ s.agenda tid → s.connector.state ≠ .kConnected
  handling : (∃ x ∈ s.threads.frames tid, isEvent x = true) →
    ∃ active, (s.threads.loops tid).pc = .dispatch active
  /-- `resetChannel` does not stay pending over a `poll` -/
  pending : .resetChannel ∈ (s.threads.loops tid).pendingFunctors →
    ∃ active, (s.threads.loops tid).pc = .dispatch active
  connections : (s.agenda tid).count .connectionEvent ≤ 1
  connection : .connectionEvent ∈ s.agenda tid → s.connection = true ∧ .resetChannel ∉ s.agenda tid

/-- While there is a connection the connector is `kConnected`. -/
theorem Sound.up (h : s.Sound tid) (hup : s.connection = true) : s.connector.state = .kConnected := by
  by_contra hne
  rw [(h.not_connected hne).2] at hup
  cases hup

theorem filter_of_plain {l : List Stmt} (h : ∀ x ∈ l, isEvent x = false) : l.filter isEvent = [] :=
  List.filter_eq_nil_iff.mpr fun x hx => by simp [h x hx]

/-- The callbacks that come after one of them. -/
theorem events_cons {x : Stmt} {l : List Stmt} (h : (x :: l).Sublist [.handleError, .handleWrite]) :
    .handleError ∉ l ∧ (x = .handleWrite → .handleWrite ∉ l) := by
  constructor
  · intro hmem
    have htail : l.Sublist [.handleWrite] := h.tail
    exact absurd (htail.subset hmem) (by decide)
  · rintro rfl hmem
    have hnodup : (Stmt.handleWrite :: l).Nodup := h.nodup (by decide)
    exact (List.nodup_cons.mp hnodup).1 hmem

/-- The statement at hand is the first on the agenda. -/
theorem agenda_pop (hp : s.threads.pop tid = some (stmt, th)) :
    s.agenda tid = stmt :: { s with threads := th }.agenda tid := by
  rw [agenda, Threads.agenda_pop hp, if_pos rfl]
  rfl

/-! ### What `poll` reports -/

/-- A statement that `poll` brings is of a handler that was reported. -/
theorem mem_handlers {active : List (Active Handler)} {x : Stmt}
    (hx : x ∈ (EventLoop.handlers active).flatMap (Threads.stmts Handler.stmts)) :
    ∃ hd, .channel hd ∈ active ∧ x ∈ hd.stmts := by
  obtain ⟨task, htask, hx⟩ := List.mem_flatMap.mp hx
  obtain ⟨act, hact, heq⟩ := List.mem_filterMap.mp htask
  cases act with
  | wakeupChannel => cases heq
  | channel hd =>
    obtain rfl := Option.some.inj heq
    exact ⟨hd, hact, hx⟩

/-- The statements of a handler are callbacks of the connector, the event of the connection, or plain. -/
theorem mem_stmts {hd : Handler} {x : Stmt} (hx : x ∈ hd.stmts) :
    x ≠ .resetChannel ∧ (isEvent x = true → ∃ revents, hd = .connector revents) ∧
      (x = .connectionEvent → hd = .connection) := by
  cases hd with
  | connector revents =>
    obtain ⟨cb, -, hcb⟩ := List.mem_filterMap.mp hx
    refine ⟨?_, fun _ => ⟨revents, rfl⟩, ?_⟩
    · rintro rfl
      cases cb <;> cases hcb
    · rintro rfl
      cases cb <;> cases hcb
  | timerfd =>
    obtain rfl := List.mem_singleton.mp hx
    exact ⟨by simp, fun h => (by cases h), fun h => (by cases h)⟩
  | connection =>
    obtain rfl := List.mem_singleton.mp hx
    exact ⟨by simp, fun h => (by cases h), fun _ => rfl⟩
  | user =>
    obtain rfl := List.mem_singleton.mp hx
    exact ⟨by simp, fun h => (by cases h), fun h => (by cases h)⟩

/-- The callbacks of one event come in this order. -/
theorem callbacks_events (revents : Events) :
    ((Channel.callbacks revents).filterMap callbackStmt).Sublist [.handleError, .handleWrite] := by
  unfold Channel.callbacks
  split <;> split <;> split <;> split <;> decide

theorem stmts_handlers_cons (a : Active Handler) (rest : List (Active Handler)) :
    (EventLoop.handlers (a :: rest)).flatMap (Threads.stmts Handler.stmts) =
      (match a with
        | .wakeupChannel => []
        | .channel hd => hd.stmts) ++
      (EventLoop.handlers rest).flatMap (Threads.stmts Handler.stmts) := by
  cases a <;> rfl

/-- One channel reported once makes one event. -/
theorem handlers_events : ∀ {active : List (Active Handler)}, active.countP isConnector ≤ 1 →
    (((EventLoop.handlers active).flatMap (Threads.stmts Handler.stmts)).filter isEvent).Sublist
      [.handleError, .handleWrite]
  | [], _ => by simp [EventLoop.handlers]
  | a :: rest, h => by
    rw [stmts_handlers_cons, List.filter_append]
    by_cases hc : isConnector a = true
    · -- the others make none
      have hrest : ((EventLoop.handlers rest).flatMap (Threads.stmts Handler.stmts)).filter isEvent = [] := by
        refine List.filter_eq_nil_iff.mpr fun x hx htrue => ?_
        obtain ⟨hd, hmem, hx⟩ := mem_handlers hx
        obtain ⟨revents, rfl⟩ := (mem_stmts hx).2.1 htrue
        rw [List.countP_cons_of_pos hc] at h
        have hpos : 0 < rest.countP isConnector := List.countP_pos_iff.mpr ⟨_, hmem, rfl⟩
        omega
      rw [hrest, List.append_nil]
      cases a with
      | wakeupChannel => cases hc
      | channel hd =>
        cases hd with
        | connector revents => exact List.filter_sublist.trans (callbacks_events revents)
        | timerfd => cases hc
        | connection => cases hc
        | user => cases hc
    · rw [List.countP_cons_of_neg hc] at h
      have ih := handlers_events h
      cases a with
      | wakeupChannel => exact ih
      | channel hd =>
        cases hd with
        | connector revents => exact absurd rfl hc
        | timerfd => exact ih
        | connection => exact ih
        | user => exact ih

/-- One event of the connection for each report. -/
theorem handlers_connections : ∀ active : List (Active Handler),
    ((EventLoop.handlers active).flatMap (Threads.stmts Handler.stmts)).count .connectionEvent =
      active.count (.channel .connection)
  | [] => rfl
  | a :: rest => by
    rw [stmts_handlers_cons, List.count_append, handlers_connections rest, List.count_cons]
    cases a with
    | wakeupChannel => simp
    | channel hd =>
      cases hd with
      | connector revents =>
        have hzero : (Handler.connector revents).stmts.count .connectionEvent = 0 :=
          List.count_eq_zero.mpr fun hx => by cases (mem_stmts hx).2.2 rfl
        simp [hzero]
      | timerfd => simp [Handler.stmts]
      | connection => simp [Handler.stmts, Nat.add_comm]
      | user => simp [Handler.stmts]

/-- The connector's channel is watched only while it is connecting. -/
theorem reportable_connecting (hsound : s.Sound tid) {revents : Events}
    (h : s.Reportable (.channel (.connector revents))) : s.connector.state = .kConnecting := by
  obtain ⟨c, hc, ⟨events, ptr⟩, he, hptr, -⟩ := h
  obtain rfl : ptr = c.self := hptr
  obtain ⟨c', hc', -, hindex, -⟩ := (hsound.registered.watched _ _ _).mp he
  rw [show s.connector.channel = some c from hc, only_self] at hc'
  obtain rfl := Option.some.inj hc'
  by_contra hne
  rw [hsound.detached hne c hc] at hindex
  exact absurd hindex Registered.kNew_ne_kAdded

/-- **What a call does**: in the loop thread all of it, in another its first half. -/
theorem call_cases {t : ThreadId} {c : Call} (h : s.step tid (.call t c) = .ok s') :
    (t = tid ∧ s' = { s with
      connector := { s.connector with connect := decide (c = .start) }
      threads := s.threads.push tid [c.functor s]
      history := s.history.call s.nextTimer c }) ∨
    (t ≠ tid ∧ s' = { s with
      connector := { s.connector with connect := decide (c = .start) }
      calls := s.calls ++ [(t, c)]
      history := s.history.call s.nextTimer c }) := by
  simp only [step, bind_eq_ok, enabled_eq_ok, pure_eq_ok, Except.ok.injEq] at h
  obtain ⟨-, -, rfl⟩ := h
  by_cases ht : t = tid
  · exact .inl ⟨ht, by rw [if_pos ht, if_pos ht]⟩
  · exact .inr ⟨ht, by rw [if_neg ht, if_neg ht]⟩

/-! ### Every step keeps it -/

namespace Dispatch

/-- The statement that is at hand is off the agenda. -/
theorem pop (h : s.Dispatch tid) (hp : s.threads.pop tid = some (stmt, th)) :
    { s with threads := th }.Dispatch tid := by
  have hag := agenda_pop hp
  have hmem : ∀ x ∈ { s with threads := th }.agenda tid, x ∈ s.agenda tid := by
    intro x hx
    rw [hag]
    exact List.mem_cons_of_mem _ hx
  have hloops : th.loops = s.threads.loops := Threads.loops_pop hp
  refine ⟨?_, fun hx => h.error (hmem _ hx), fun hx => h.write (hmem _ hx), ?_, ?_, ?_, ?_⟩
  · refine List.Sublist.trans ?_ h.events
    rw [hag]
    exact (List.sublist_cons_self _ _).filter _
  · rintro ⟨x, hx, hevent⟩
    show ∃ active, (th.loops tid).pc = .dispatch active
    rw [hloops]
    refine h.handling ⟨x, ?_, hevent⟩
    rw [(Threads.frames_pop hp).1]
    exact List.mem_cons_of_mem _ hx
  · show .resetChannel ∈ (th.loops tid).pendingFunctors → ∃ active, (th.loops tid).pc = .dispatch active
    rw [hloops]
    exact h.pending
  · refine (List.Sublist.count_le _ ?_).trans h.connections
    rw [hag]
    exact List.sublist_cons_self _ _
  · intro hx
    obtain ⟨hup, hreset⟩ := h.connection (hmem _ hx)
    exact ⟨hup, fun hr => hreset (hmem _ hr)⟩

/-- Statements are added in front and behind: no event among them, and `resetChannel` only behind, from an
    event of the connector's channel. -/
theorem update (h : s.Dispatch tid) (hr : Runs tid s.threads s'.threads pushed queued)
    (hpushed : ∀ x ∈ pushed, Plain x) (hqueued : ∀ x ∈ queued, isEvent x = false ∧ x ≠ .connectionEvent)
    (hreset : .resetChannel ∈ queued →
      (∃ active, (s.threads.loops tid).pc = .dispatch active) ∧ .connectionEvent ∉ s.agenda tid)
    (herror : .handleError ∈ s.agenda tid → s'.connector.state = .kConnecting)
    (hwrite : .handleWrite ∈ s.agenda tid → s'.connector.state ≠ .kConnected)
    (hup : .connectionEvent ∈ s.agenda tid → s'.connection = true) : s'.Dispatch tid := by
  have hag : s'.agenda tid = pushed ++ s.agenda tid ++ queued := hr.agenda
  have hmem : ∀ x ∈ s'.agenda tid, ¬ Plain x → x ∈ s.agenda tid ∨ x ∈ queued := by
    intro x hx hnot
    rw [hag, List.mem_append, List.mem_append] at hx
    rcases hx with (hx | hx) | hx
    · exact absurd (hpushed x hx) hnot
    · exact .inl hx
    · exact .inr hx
  have hevent : ∀ x ∈ s'.agenda tid, isEvent x = true → x ∈ s.agenda tid := by
    intro x hx htrue
    refine (hmem x hx fun hp => by rw [hp.1] at htrue; cases htrue).resolve_right fun hq => ?_
    rw [(hqueued x hq).1] at htrue
    cases htrue
  refine ⟨?_, fun hx => herror (hevent _ hx rfl), fun hx => hwrite (hevent _ hx rfl), ?_, ?_, ?_, ?_⟩
  · rw [hag, List.filter_append, List.filter_append, filter_of_plain fun x hx => (hpushed x hx).1,
      filter_of_plain fun x hx => (hqueued x hx).1]
    simpa using h.events
  · rintro ⟨x, hx, htrue⟩
    rw [hr.pc]
    rw [hr.frames, List.mem_append] at hx
    rcases hx with hx | hx
    · rw [(hpushed x hx).1] at htrue
      cases htrue
    · exact h.handling ⟨x, hx, htrue⟩
  · intro hx
    rw [hr.pc]
    rw [hr.pending, List.mem_append] at hx
    rcases hx with hx | hx
    · exact h.pending hx
    · exact (hreset hx).1
  · have hfront : pushed.count .connectionEvent = 0 :=
      List.count_eq_zero.mpr fun hx => (hpushed _ hx).2.1 rfl
    have hback : queued.count .connectionEvent = 0 :=
      List.count_eq_zero.mpr fun hx => (hqueued _ hx).2 rfl
    rw [hag, List.count_append, List.count_append, hfront, hback]
    simpa using h.connections
  · intro hx
    have hold := (hmem _ hx (fun hp => hp.2.1 rfl)).resolve_right fun hq => (hqueued _ hq).2 rfl
    refine ⟨hup hold, fun hr' => ?_⟩
    rcases hmem _ hr' (fun hp => hp.2.2 rfl) with hr' | hr'
    · exact (h.connection hold).2 hr'
    · exact (hreset hr').2 hold

/-- Plain statements are added, and the connector and the connection are as they were. -/
theorem plain (h : s.Dispatch tid) (hr : Runs tid s.threads s'.threads pushed queued)
    (hpushed : ∀ x ∈ pushed, Plain x) (hqueued : ∀ x ∈ queued, Plain x)
    (hstate : s'.connector.state = s.connector.state) (hconnection : s'.connection = s.connection) :
    s'.Dispatch tid := by
  refine h.update hr hpushed (fun x hx => ⟨(hqueued x hx).1, (hqueued x hx).2.1⟩)
    (fun hx => absurd rfl (hqueued _ hx).2.2) ?_ ?_ ?_
  · intro hx
    rw [hstate]
    exact h.error hx
  · intro hx
    rw [hstate]
    exact h.write hx
  · intro hx
    rw [hconnection]
    exact (h.connection hx).1

theorem plain_singleton {x : Stmt} (hx : Plain x) : ∀ y ∈ [x], Plain y := fun _ hy => List.mem_singleton.mp hy ▸ hx

/-- **An attempt ends**: the event at hand is the last that needs it, and `resetChannel` is queued while the loop
    still handles what was reported. -/
theorem ended (h : s.Dispatch tid) (hsound : s.Sound tid) (hp : s.threads.pop tid = some (stmt, th)) {x : Stmt}
    (hruns : Runs tid th s'.threads [x] [.resetChannel]) (hstmt : stmt = .handleError ∨ stmt = .handleWrite)
    (hx : x = .finishRetry ∧ s'.connector.state = .kDisconnected ∨
      stmt = .handleWrite ∧ (∃ sockfd, x = .finishWrite sockfd) ∧ s'.connector.state = .kConnected)
    (hstate : s.connector.state = .kConnecting) : s'.Dispatch tid := by
  have hag := agenda_pop hp
  have hevent : isEvent stmt = true := by rcases hstmt with rfl | rfl <;> rfl
  have hcons := h.events
  rw [hag, List.filter_cons_of_pos hevent] at hcons
  obtain ⟨herror, hwrite⟩ := events_cons hcons
  have hmem : ∀ y, y ∉ ({ s with threads := th }.agenda tid).filter isEvent → isEvent y = true →
      y ∉ { s with threads := th }.agenda tid := fun y hnot htrue hy =>
    hnot (List.mem_filter.mpr ⟨hy, htrue⟩)
  have hno : .connectionEvent ∉ { s with threads := th }.agenda tid := by
    intro hmem
    have hstate' := hsound.up (h.connection (by rw [hag]; exact List.mem_cons_of_mem _ hmem)).1
    rw [hstate] at hstate'
    cases hstate'
  have hloops : (th.loops tid).pc = (s.threads.loops tid).pc := (Threads.loops_pop hp) ▸ rfl
  refine (h.pop hp).update hruns (plain_singleton ?_) ?_ (fun _ => ⟨?_, hno⟩) ?_ ?_ (fun hmem => absurd hmem hno)
  · rcases hx with ⟨rfl, -⟩ | ⟨-, ⟨sockfd, rfl⟩, -⟩
    · exact ⟨rfl, by simp, by simp⟩
    · exact ⟨rfl, by simp, by simp⟩
  · intro y hy
    obtain rfl := List.mem_singleton.mp hy
    exact ⟨rfl, by simp⟩
  · show ∃ active, (th.loops tid).pc = .dispatch active
    rw [hloops]
    refine h.handling ⟨stmt, ?_, hevent⟩
    rw [(Threads.frames_pop hp).1]
    exact List.mem_cons_self
  · intro hmem'
    exact absurd hmem' (hmem _ herror rfl)
  · intro hmem'
    rcases hx with ⟨-, hstate'⟩ | ⟨rfl, -, -⟩
    · rw [hstate']
      decide
    · exact absurd hmem' (hmem _ (hwrite rfl) rfl)

/-- **The connection closes**: its event is the only one, and none is reported for the connector. -/
theorem closed (h : s.Dispatch tid) (hsound : s.Sound tid) (hp : s.threads.pop tid = some (.connectionEvent, th))
    (hruns : Runs tid th s'.threads pushed [.user]) (hpushed : pushed = [.startInLoop] ∨ pushed = [])
    (hup : s.connection = true) : s'.Dispatch tid := by
  have h₁ := h.pop hp
  have hstate := hsound.up hup
  have hcount := h.connections
  rw [agenda_pop hp, List.count_cons_self] at hcount
  have hno : .connectionEvent ∉ { s with threads := th }.agenda tid :=
    List.count_eq_zero.mp (by omega)
  have herror : .handleError ∉ { s with threads := th }.agenda tid := by
    intro hx
    have hc := h₁.error hx
    rw [show ({ s with threads := th } : TcpClient).connector.state = .kConnected from hstate] at hc
    cases hc
  have hwrite : .handleWrite ∉ { s with threads := th }.agenda tid := fun hx => h₁.write hx hstate
  refine h₁.update hruns ?_ ?_ (fun hx => absurd hx (by simp)) (fun hx => absurd hx herror)
    (fun hx => absurd hx hwrite) (fun hx => absurd hx hno)
  · rcases hpushed with rfl | rfl
    · exact plain_singleton ⟨rfl, by simp, by simp⟩
    · exact fun y hy => absurd hy List.not_mem_nil
  · intro y hy
    obtain rfl := List.mem_singleton.mp hy
    exact ⟨rfl, by simp⟩

/-- **One statement.** -/
theorem exec (h : s.Dispatch tid) (hsound : s.Sound tid) (hp : s.threads.pop tid = some (stmt, th))
    (hs : { s with threads := th }.run tid a stmt = .ok s') : s'.Dispatch tid := by
  obtain ⟨-, -, pushed, queued, hruns, hout⟩ := run_outcome hs
  have h₁ := h.pop hp
  have hnone : ∀ y ∈ ([] : List Stmt), Plain y := fun y hy => absurd hy List.not_mem_nil
  cases hout with
  | noAttempt hstmt hpushed hstate hrest =>
    refine h₁.plain hruns ?_ hnone (hstate.2.trans hstate.1.symm) hrest.1
    rcases hpushed with rfl | rfl
    · exact hnone
    · exact plain_singleton ⟨rfl, by simp, by simp⟩
  | attempt hstmt hstate hrest =>
    -- no event is reported in `kDisconnected` but a `handleWrite` that does nothing
    refine h₁.update hruns hnone (fun x hx => absurd hx List.not_mem_nil)
      (fun hx => absurd hx List.not_mem_nil) (fun _ => hstate.2) (fun _ => by rw [hstate.2]; decide) ?_
    intro hx
    rw [hrest.1]
    exact (h₁.connection hx).1
  | ended hstmt hx hstate hrest => exact h.ended hsound hp hruns hstmt hx hstate
  | noWrite hstate heq =>
    subst heq
    exact h₁
  | finishWrite hconn hrest =>
    refine h₁.update hruns ?_ (fun x hx => absurd hx List.not_mem_nil)
      (fun hx => absurd hx List.not_mem_nil) ?_ ?_ ?_
    · rcases hconn with ⟨rfl, -⟩ | ⟨rfl, -⟩
      · exact plain_singleton ⟨rfl, by simp, by simp⟩
      · exact hnone
    · intro hx
      rw [hrest.1]
      exact h₁.error hx
    · intro hx
      rw [hrest.1]
      exact h₁.write hx
    · intro hx
      rcases hconn with ⟨-, hup⟩ | ⟨-, hsame⟩
      · exact hup
      · rw [hsame]
        exact (h₁.connection hx).1
  | finishRetry hpushed hrest =>
    refine h₁.plain hruns ?_ hnone (congrArg _ hrest.1) hrest.2.1
    rcases hpushed with rfl | rfl
    · exact plain_singleton ⟨rfl, by simp, by simp⟩
    · exact hnone
  | setTimer _ hrest => exact h₁.plain hruns hnone hnone hrest.1 hrest.2
  | handleRead expired _ hrest =>
    refine h₁.plain hruns ?_ hnone (congrArg _ hrest.1) hrest.2.1
    intro x hx
    obtain ⟨e, -, rfl⟩ := List.mem_map.mp hx
    cases e <;> exact ⟨rfl, by simp [expiredStmt], by simp [expiredStmt]⟩
  | cancelInLoop _ hrest => exact h₁.plain hruns hnone hnone (congrArg _ hrest.1) hrest.2.1
  | resetChannel hrest => exact h₁.plain hruns hnone hnone hrest.1 hrest.2.1
  | closed hpushed hconnection hrest =>
    exact h.closed hsound hp hruns (hpushed.imp (fun hand => hand.1) (fun hand => hand.1)) hconnection.1
  | message hrest =>
    exact h₁.plain hruns (plain_singleton ⟨rfl, by simp, by simp⟩) hnone (congrArg _ hrest.1) hrest.2.1

/-- **The loop's own code.** -/
theorem advance (h : s.Dispatch tid) (hsound : s.Sound tid) {mv : EventLoop.Move Handler}
    (hpoll : s.Pollable mv) (hadv : s.threads.advance Handler.stmts tid mv = .ok th) :
    { s with threads := th }.Dispatch tid := by
  have hframes : (∃ x ∈ th.frames tid, isEvent x = true) → ∃ active, (th.loops tid).pc = .dispatch active := by
    rintro ⟨x, hx, htrue⟩
    rcases Threads.frames_advance hadv with hnil | ⟨hd, rest, -, hpc, -⟩ | ⟨f, rest, -, hf, -, hone⟩
    · rw [hnil] at hx
      exact absurd hx List.not_mem_nil
    · exact ⟨rest, hpc⟩
    · -- no functor is an event
      rw [hone, List.mem_singleton] at hx
      subst hx
      have hq := hsound.queueable x (List.mem_append_left _ (by rw [hf]; exact List.mem_cons_self))
      cases x <;> first | exact absurd hq id | cases htrue
  have hpending : .resetChannel ∈ (th.loops tid).pendingFunctors →
      ∃ active, (th.loops tid).pc = .dispatch active := by
    intro hx
    obtain ⟨hold, hpc⟩ := Threads.pending_advance hadv hx
    exact hpc (h.pending hold)
  obtain ⟨-, -, -, hcase⟩ := Threads.agenda_advance hsound.batched hadv
  rcases hcase with ⟨active, rfl, -, hbefore, hag⟩ | ⟨-, hag⟩
  · obtain ⟨hreportable, hconnectors, hconnections⟩ := hpoll
    have hold : ∀ x ∈ s.agenda tid, Queueable x := by
      intro x hx
      rw [agenda, hbefore] at hx
      exact hsound.queueable x (List.mem_append_right _ hx)
    have hreset : .resetChannel ∉ s.agenda tid := by
      intro hx
      rw [agenda, hbefore] at hx
      obtain ⟨act, hpc⟩ := h.pending hx
      rw [Threads.polling_of_advance hadv] at hpc
      cases hpc
    have hag' : { s with threads := th }.agenda tid =
        (EventLoop.handlers active).flatMap (Threads.stmts Handler.stmts) ++ s.agenda tid := by
      rw [agenda, hag, if_pos rfl]
      rfl
    -- an event on the agenda is one that was reported
    have hmem : ∀ x ∈ { s with threads := th }.agenda tid, ¬ Queueable x →
        ∃ hd, .channel hd ∈ active ∧ x ∈ hd.stmts := by
      intro x hx hnot
      rw [hag', List.mem_append] at hx
      exact mem_handlers (hx.resolve_right fun hx => hnot (hold x hx))
    have hconnecting : ∀ x ∈ { s with threads := th }.agenda tid, isEvent x = true → ¬ Queueable x →
        s.connector.state = .kConnecting := by
      intro x hx htrue hnot
      obtain ⟨hd, hact, hx⟩ := hmem x hx hnot
      obtain ⟨revents, rfl⟩ := (mem_stmts hx).2.1 htrue
      exact reportable_connecting hsound (hreportable _ hact)
    refine ⟨?_, fun hx => hconnecting _ hx rfl id, ?_, hframes, hpending, ?_, ?_⟩
    · rw [hag', List.filter_append, List.filter_eq_nil_iff (l := s.agenda tid) |>.mpr, List.append_nil]
      · exact handlers_events hconnectors
      · intro x hx htrue
        have hq := hold x hx
        cases x <;> first | exact absurd hq id | cases htrue
    · intro hx
      show s.connector.state ≠ .kConnected
      rw [hconnecting _ hx rfl id]
      decide
    · rw [hag', List.count_append, handlers_connections,
        List.count_eq_zero.mpr fun hx => absurd (hold _ hx) id]
      exact hconnections
    · intro hx
      obtain ⟨hd, hact, hx⟩ := hmem _ hx id
      obtain rfl := (mem_stmts hx).2.2 rfl
      refine ⟨hreportable _ hact, fun hr => ?_⟩
      rw [hag', List.mem_append] at hr
      rcases hr with hr | hr
      · obtain ⟨hd, -, hr⟩ := mem_handlers hr
        exact (mem_stmts hr).1 rfl
      · exact hreset hr
  · have hag' : { s with threads := th }.agenda tid = s.agenda tid := hag tid
    refine ⟨?_, ?_, ?_, hframes, hpending, ?_, ?_⟩
    · rw [hag']; exact h.events
    · rw [hag']; exact h.error
    · rw [hag']; exact h.write
    · rw [hag']; exact h.connections
    · rw [hag']; exact h.connection

/-- What a call queues is plain. -/
theorem plain_functor (c : Call) : ∀ x ∈ [c.functor s], Plain x := by
  intro x hx
  obtain rfl := List.mem_singleton.mp hx
  cases c <;> exact ⟨rfl, by simp [Call.functor], by simp [Call.functor]⟩

/-- **One step.** -/
theorem step (h : s.Dispatch tid) (hsound : s.Sound tid) {l : Label} (hs : s.step tid l = .ok s') :
    s'.Dispatch tid := by
  have hnone : ∀ y ∈ ([] : List Stmt), Plain y := fun y hy => absurd hy List.not_mem_nil
  cases l with
  | loop mv =>
    simp only [TcpClient.step, bind_eq_ok, enabled_eq_ok, Result.mapFault_eq_ok, pure_eq_ok,
      Except.ok.injEq] at hs
    obtain ⟨-, hpoll, th, hadv, rfl⟩ := hs
    exact h.advance hsound hpoll hadv
  | exec a =>
    simp only [TcpClient.step] at hs
    cases hp : s.threads.pop tid with
    | none => rw [hp] at hs; cases hs
    | some e =>
      rw [hp] at hs
      exact h.exec hsound hp hs
  | ret =>
    simp only [TcpClient.step] at hs
    split at hs
    · rename_i th hp
      obtain rfl := Except.ok.inj hs
      exact h.pop hp
    · cases hs
  | call t c =>
    rcases call_cases hs with ⟨-, rfl⟩ | ⟨-, rfl⟩
    · exact h.plain (Runs.nil.push _) (plain_functor (s := s) c) hnone rfl rfl
    · exact h.plain Runs.nil hnone hnone rfl rfl
  | finishCall t c =>
    simp only [TcpClient.step, bind_eq_ok, enabled_eq_ok, pure_eq_ok, Except.ok.injEq] at hs
    obtain ⟨-, -, rfl⟩ := hs
    exact h.plain (Runs.nil.queue t _) hnone (plain_functor (s := s) c) rfl rfl
  | queueInLoop t =>
    simp only [TcpClient.step, bind_eq_ok, enabled_eq_ok, pure_eq_ok, Except.ok.injEq] at hs
    obtain ⟨-, -, rfl⟩ := hs
    refine h.plain (Runs.nil.queue t .user) hnone ?_ rfl rfl
    intro x hx
    obtain rfl := List.mem_singleton.mp hx
    exact ⟨rfl, by simp, by simp⟩
  | quit t =>
    simp only [TcpClient.step, bind_eq_ok, enabled_eq_ok, pure_eq_ok, Except.ok.injEq] at hs
    obtain ⟨-, -, rfl⟩ := hs
    exact h.plain (Runs.quit t) hnone hnone rfl rfl
  | release sockfd =>
    simp only [TcpClient.step, bind_eq_ok, enabled_eq_ok, pure_eq_ok, Except.ok.injEq] at hs
    obtain ⟨-, -, rfl⟩ := hs
    exact h.plain Runs.nil hnone hnone rfl rfl

theorem start : TcpClient.start.Dispatch tid := by
  have hnil : TcpClient.start.agenda tid = [] := rfl
  refine ⟨by simp [hnil], by simp [hnil], by simp [hnil], ?_, ?_, by simp [hnil], by simp [hnil]⟩
  · rintro ⟨x, hx, -⟩
    exact absurd hx List.not_mem_nil
  · intro hx
    exact absurd hx List.not_mem_nil

end Dispatch

/-- **What is reported is as it was when it was reported**, in every run. -/
theorem dispatch_of_reachable (h : (tcpClient tid).Reachable s) : s.Dispatch tid :=
  h.invariant (I := fun s => s.Dispatch tid) (fun _ h0 => h0 ▸ Dispatch.start)
    (fun _ _ _ hr hI _ hs => hI.step (sound_of_reachable hr) hs)

/-! ## The ways to a next attempt -/

/-- The statements that lead to a `startInLoop`; a timer counts from the number `first` on. -/
def waits (first : Nat) : Stmt → Nat
  | .startInLoop => 1
  | .finishRetry => 1
  | .setTimer => 1
  | .timer id => if first ≤ id then 1 else 0
  | _ => 0

variable (tid) in
/-- How many ways there are to a next attempt, by a `start()`, a retry or a timer set since the last
    `start()`. -/
def waiting (s : TcpClient) : Nat :=
  s.threads.load Handler.stmts (waits s.history.timersAtStart) tid + s.calls.countP (·.2 = .start) +
    s.timers.countP (s.history.timersAtStart ≤ ·)

/-- `startInLoop` does not come before `resetChannel`. -/
def Apart (x y : Stmt) : Prop := x = .startInLoop → y ≠ .resetChannel

variable (tid) in
/-- One attempt at a time. -/
structure Single (s : TcpClient) : Prop where
  one : s.waiting tid ≤ if s.connector.state = .kDisconnected then 1 else 0
  order : (s.agenda tid).Pairwise Apart
  first : s.history.timersAtStart ≤ s.nextTimer
  numbers : ∀ id, id ∈ s.timers ∨ .timer id ∈ s.agenda tid → id < s.nextTimer

/-! ## When each `start` begins afresh -/

/-- The calls follow one another, by turns and `start` first. -/
def Alternates (s : TcpClient) : Label → Prop
  | .call _ c => s.calls = [] ∧ (c = .start ↔ s.history.lastCall ≠ some .start)
  | _ => True

instance (s : TcpClient) : (l : Label) → Decidable (s.Alternates l)
  | .call _ _ => inferInstanceAs (Decidable (_ ∧ _))
  | .loop _ => isTrue trivial
  | .exec _ => isTrue trivial
  | .ret => isTrue trivial
  | .finishCall _ _ => isTrue trivial
  | .queueInLoop _ => isTrue trivial
  | .quit _ => isTrue trivial
  | .release _ => isTrue trivial

variable (tid) in
/-- The retry timer whose turn it is. -/
def timerAtHand (s : TcpClient) : Option Nat :=
  match (s.threads.frames tid).head? with
  | some (.timer id) => some id
  | _ => none

variable (tid) in
/-- A `start` comes in `kDisconnected`, with no `startInLoop` on its way and no `retry` under way, and in the
    loop thread not before the `resetChannel` of the attempt before. A retry timer runs only if it was set
    since the last `start`, and one that makes an attempt not before that `resetChannel`. -/
def BeginsAfresh (s : TcpClient) : Label → Prop
  | .call t .start => s.connector.state = .kDisconnected ∧ .startInLoop ∉ s.agenda tid ∧
      .finishRetry ∉ s.agenda tid ∧ .setTimer ∉ s.agenda tid ∧ (t = tid → .resetChannel ∉ s.agenda tid)
  | .exec _ => ∀ id ∈ s.timerAtHand tid, s.history.timersAtStart ≤ id ∧
      (s.connector.connect = true → .resetChannel ∉ s.agenda tid)
  | _ => True

instance (s : TcpClient) : (l : Label) → Decidable (s.BeginsAfresh tid l)
  | .call _ .start => inferInstanceAs (Decidable (_ ∧ _))
  | .exec _ => inferInstanceAs (Decidable (∀ id ∈ s.timerAtHand tid, _))
  | .call _ .stop => isTrue trivial
  | .loop _ => isTrue trivial
  | .ret => isTrue trivial
  | .finishCall _ _ => isTrue trivial
  | .queueInLoop _ => isTrue trivial
  | .quit _ => isTrue trivial
  | .release _ => isTrue trivial

/-- **A start while connecting**: `stop` leaves the attempt as it is, and the next `start` finds it. -/
theorem start_while_connecting : ∃ s, (tcpClient 0).Reach Alternates s ∧ ∃ l, s.Alternates l ∧
    s.step 0 l = .error (.fault (.connector .startInLoop)) := by
  obtain ⟨s, hs, hp⟩ := System.Reach.of_execWhile (S := tcpClient 0) (C := Alternates) (s := start)
    (l := [.call 0 .start, .exec Answers.quiet, .call 0 .stop, .exec Answers.quiet, .call 0 .start])
    (p := fun s => decide (s.Alternates (.exec Answers.quiet) ∧
      faultOf (s.step 0 (.exec Answers.quiet)) = some (.connector .startInLoop)))
    (.init rfl) (by decide +kernel)
  rw [decide_eq_true_eq] at hp
  exact ⟨s, hs, _, hp.1, faultOf_eq_some.mp hp.2⟩

namespace Single

/-- The ways there are, with the statement that is at hand apart. -/
theorem waiting_pop (hp : s.threads.pop tid = some (stmt, th)) :
    s.waiting tid = waits s.history.timersAtStart stmt + { s with threads := th }.waiting tid := by
  unfold waiting
  rw [Threads.load_pop hp, if_pos rfl]
  simp only [Nat.add_assoc]

/-- The load after statements were added in front and behind. -/
theorem load_runs {first : Nat} (hr : Runs tid th th' pushed queued) :
    th'.load Handler.stmts (waits first) tid = (pushed.map (waits first)).sum +
      th.load Handler.stmts (waits first) tid + (queued.map (waits first)).sum := by
  unfold Threads.load
  rw [hr.agenda]
  simp only [List.map_append, List.sum_append]

/-- The timers that expire count as they did in the queue. -/
theorem sum_expired (first : Nat) (l : List (Option Nat)) :
    ((l.map expiredStmt).map (waits first)).sum = (l.filterMap id).countP (first ≤ ·) := by
  induction l with
  | nil => rfl
  | cons e l ih =>
    cases e with
    | none => simpa [expiredStmt, waits] using ih
    | some n =>
      have hcons : (some n :: l).filterMap id = n :: l.filterMap id := rfl
      have hn : waits first (expiredStmt (some n)) = if first ≤ n then 1 else 0 := rfl
      rw [List.map_cons, List.map_cons, List.sum_cons, ih, hcons, List.countP_cons, hn]
      simp only [decide_eq_true_eq]
      omega

/-- When nothing waits, no statement on the agenda leads to an attempt. -/
theorem waits_eq_zero (h : s.waiting tid = 0) {x : Stmt} (hx : x ∈ s.agenda tid) :
    waits s.history.timersAtStart x = 0 := by
  unfold waiting Threads.load at h
  have hsum : ((s.agenda tid).map (waits s.history.timersAtStart)).sum = 0 := by
    unfold agenda
    omega
  exact List.sum_eq_zero_iff.mp hsum _ (List.mem_map.mpr ⟨x, hx, rfl⟩)

/-- What waits after statements were added in front and behind. -/
theorem waiting_runs (hcalls : s'.calls = s.calls) (hhist : s'.history = s.history)
    (hruns : Runs tid th s'.threads pushed queued) :
    s'.waiting tid = (pushed.map (waits s.history.timersAtStart)).sum +
      th.load Handler.stmts (waits s.history.timersAtStart) tid +
      (queued.map (waits s.history.timersAtStart)).sum + s.calls.countP (·.2 = .start) +
      s'.timers.countP (s.history.timersAtStart ≤ ·) := by
  unfold waiting
  rw [hhist, hcalls, load_runs hruns]

/-- A statement that runs `startInLoop` was itself the one way. -/
theorem waits_of_start (hfresh : ∀ id ∈ s.timerAtHand tid, s.history.timersAtStart ≤ id)
    (hp : s.threads.pop tid = some (stmt, th)) (hstmt : stmt = .startInLoop ∨ ∃ id, stmt = .timer id) :
    waits s.history.timersAtStart stmt = 1 := by
  rcases hstmt with rfl | ⟨id, rfl⟩
  · rfl
  · have hid : s.timerAtHand tid = some id := by rw [timerAtHand, (Threads.frames_pop hp).1]; rfl
    exact if_pos (hfresh id hid)

/-- **One statement**, in a run that meets the condition. -/
theorem exec_waiting (h : s.Single tid) (hsound : s.Sound tid)
    (hfresh : ∀ id ∈ s.timerAtHand tid, s.history.timersAtStart ≤ id)
    (hp : s.threads.pop tid = some (stmt, th))
    (hcalls : s'.calls = s.calls) (hhist : s'.history = s.history) (hruns : Runs tid th s'.threads pushed queued)
    (hout : Outcome { s with threads := th } s' stmt pushed queued) :
    s'.waiting tid ≤ if s'.connector.state = .kDisconnected then 1 else 0 := by
  have hle := h.one
  rw [waiting_pop hp] at hle
  have hw' := waiting_runs hcalls hhist hruns
  have hw : { s with threads := th }.waiting tid = th.load Handler.stmts (waits s.history.timersAtStart) tid +
      s.calls.countP (·.2 = .start) + s.timers.countP (s.history.timersAtStart ≤ ·) := rfl
  -- the statement is no longer counted; what it pushes, queues and arms is
  cases hout with
  | noAttempt hstmt hpushed hstate hrest =>
    have hst := waits_of_start hfresh hp hstmt
    obtain ⟨hs, hs'⟩ := hstate
    rw [show s.connector.state = .kDisconnected from hs, if_pos rfl] at hle
    rw [hs', if_pos rfl, hw', hrest.2.1]
    have hsum : (pushed.map (waits s.history.timersAtStart)).sum ≤ 1 := by
      rcases hpushed with rfl | rfl <;> simp [waits]
    simp only [List.map_nil, List.sum_nil]
    omega
  | attempt hstmt hstate hrest =>
    have hst := waits_of_start hfresh hp hstmt
    obtain ⟨hs, hs'⟩ := hstate
    rw [show s.connector.state = .kDisconnected from hs, if_pos rfl] at hle
    rw [hw', hrest.2.1]
    simp only [List.map_nil, List.sum_nil]
    omega
  | ended hstmt hx hstate hrest =>
    rw [show s.connector.state = .kConnecting from hstate, if_neg (by decide)] at hle
    rw [hw', hrest.2.1]
    rcases hx with ⟨rfl, hs'⟩ | ⟨-, ⟨sockfd, rfl⟩, hs'⟩
    · rw [hs', if_pos rfl]
      simp only [List.map_cons, List.map_nil, List.sum_cons, List.sum_nil, waits]
      omega
    · simp only [List.map_cons, List.map_nil, List.sum_cons, List.sum_nil, waits]
      omega
  | noWrite hstate heq =>
    subst heq
    exact (Nat.le_add_left _ _).trans hle
  | finishWrite hconn hrest =>
    rw [show s'.connector = s.connector from hrest.1, hw', hrest.2.1]
    have hsum : (pushed.map (waits s.history.timersAtStart)).sum = 0 := by
      rcases hconn with ⟨rfl, -⟩ | ⟨rfl, -⟩ <;> rfl
    simp only [List.map_nil, List.sum_nil]
    omega
  | finishRetry hpushed hrest =>
    rw [show s'.connector = s.connector from hrest.1, hw', hrest.2.2.1]
    have hsum : (pushed.map (waits s.history.timersAtStart)).sum ≤ 1 := by
      rcases hpushed with rfl | rfl <;> simp [waits]
    simp only [List.map_nil, List.sum_nil]
    simp only [waits] at hle
    omega
  | setTimer hset hrest =>
    rw [show s'.connector.state = s.connector.state from hrest.1, hw', hset.1, List.countP_append]
    have hnew : [s.nextTimer].countP (s.history.timersAtStart ≤ ·) ≤ 1 := List.countP_le_length
    simp only [List.map_nil, List.sum_nil]
    simp only [waits] at hle
    omega
  | handleRead expired hperm hrest =>
    have hcount : (expired.filterMap id ++ s'.timers).countP (s.history.timersAtStart ≤ ·) =
        s.timers.countP (s.history.timersAtStart ≤ ·) := hperm.countP_eq _
    rw [List.countP_append] at hcount
    rw [show s'.connector = s.connector from hrest.1, hw', sum_expired]
    simp only [List.map_nil, List.sum_nil]
    omega
  | cancelInLoop hsub hrest =>
    have hcount : s'.timers.countP (s.history.timersAtStart ≤ ·) ≤
        s.timers.countP (s.history.timersAtStart ≤ ·) := hsub.countP_le
    rw [show s'.connector = s.connector from hrest.1, hw']
    simp only [List.map_nil, List.sum_nil]
    omega
  | resetChannel hrest =>
    rw [show s'.connector.state = s.connector.state from hrest.1, hw', hrest.2.2.1]
    simp only [List.map_nil, List.sum_nil]
    omega
  | closed hpushed hconnection hrest =>
    rw [hsound.up hconnection.1, if_neg (by decide)] at hle
    rw [hw', hrest.1]
    rcases hpushed with ⟨rfl, hs'⟩ | ⟨rfl, -⟩
    · rw [hs', if_pos rfl]
      simp only [List.map_cons, List.map_nil, List.sum_cons, List.sum_nil, waits]
      omega
    · simp only [List.map_cons, List.map_nil, List.sum_cons, List.sum_nil, waits]
      omega
  | message hrest =>
    rw [show s'.connector = s.connector from hrest.1, hw', hrest.2.2.1]
    simp only [List.map_cons, List.map_nil, List.sum_cons, List.sum_nil, waits]
    omega

/-- What comes in front does not start, what comes behind does not reset. -/
theorem order_runs (h : s.Single tid) (hp : s.threads.pop tid = some (stmt, th))
    (hruns : Runs tid th s'.threads pushed queued) (hpushed : ∀ x ∈ pushed, x ≠ .startInLoop)
    (hqueued : ∀ x ∈ queued, x ≠ .resetChannel) : (s'.agenda tid).Pairwise Apart := by
  have horder := h.order
  rw [agenda_pop hp, List.pairwise_cons] at horder
  rw [agenda, hruns.agenda]
  exact Threads.pairwise_agenda horder.2 (fun x hx y heq => absurd heq (hpushed x hx)) (fun y hy x _ => hqueued y hy)

/-- While an attempt is on nothing starts another, so that `resetChannel` may come behind. -/
theorem order_ended (h : s.Single tid) (hp : s.threads.pop tid = some (stmt, th)) {x : Stmt}
    (hruns : Runs tid th s'.threads [x] [.resetChannel]) (hx : x ≠ .startInLoop)
    (hstate : s.connector.state = .kConnecting) : (s'.agenda tid).Pairwise Apart := by
  have horder := h.order
  have hag := agenda_pop hp
  rw [hag, List.pairwise_cons] at horder
  have hzero : s.waiting tid = 0 := by
    have hle := h.one
    rw [hstate, if_neg (by decide)] at hle
    omega
  have hno : ∀ y ∈ [x] ++ { s with threads := th }.agenda tid, y ≠ .startInLoop := by
    rintro y hy rfl
    rcases List.mem_append.mp hy with hy | hy
    · exact hx (List.mem_singleton.mp hy).symm
    · have hwait : waits s.history.timersAtStart .startInLoop = 0 :=
        waits_eq_zero hzero (by rw [hag]; exact List.mem_cons_of_mem _ hy)
      exact Nat.one_ne_zero hwait
  rw [agenda, hruns.agenda, List.pairwise_append, List.pairwise_append]
  refine ⟨⟨List.pairwise_singleton _ _, horder.2, ?_⟩, List.pairwise_singleton _ _, ?_⟩
  · intro y hy _ _ heq
    exact absurd heq (hno y (List.mem_append_left _ hy))
  · intro y hy _ _ heq
    exact absurd heq (hno y hy)

/-- The event of the connection was reported after the channel of the attempt was reset, so that it may start
    the next. -/
theorem order_closed (h : s.Single tid) (hdispatch : s.Dispatch tid)
    (hp : s.threads.pop tid = some (.connectionEvent, th)) (hruns : Runs tid th s'.threads [.startInLoop] [.user]) :
    (s'.agenda tid).Pairwise Apart := by
  have horder := h.order
  have hag := agenda_pop hp
  have hreset : .resetChannel ∉ s.agenda tid := (hdispatch.connection (by rw [hag]; exact List.mem_cons_self)).2
  rw [hag, List.pairwise_cons] at horder
  rw [agenda, hruns.agenda, List.append_assoc, List.singleton_append, List.pairwise_cons]
  constructor
  · rintro y hy - rfl
    rcases List.mem_append.mp hy with hy | hy
    · exact hreset (by rw [hag]; exact List.mem_cons_of_mem _ hy)
    · exact absurd hy (by simp)
  · rw [List.pairwise_append]
    refine ⟨horder.2, List.pairwise_singleton _ _, ?_⟩
    rintro x - y hy - rfl
    exact absurd hy (by simp)

/-- **One statement** keeps the order. -/
theorem exec_order (h : s.Single tid) (hdispatch : s.Dispatch tid) (hp : s.threads.pop tid = some (stmt, th))
    (hruns : Runs tid th s'.threads pushed queued) (hout : Outcome { s with threads := th } s' stmt pushed queued) :
    (s'.agenda tid).Pairwise Apart := by
  cases hout with
  | noAttempt hstmt hpushed hstate hrest =>
    exact h.order_runs hp hruns (by rcases hpushed with rfl | rfl <;> simp) (by simp)
  | attempt => exact h.order_runs hp hruns (by simp) (by simp)
  | ended hstmt hx hstate hrest =>
    refine h.order_ended hp hruns ?_ hstate
    rcases hx with ⟨rfl, -⟩ | ⟨-, ⟨sockfd, rfl⟩, -⟩ <;> simp
  | noWrite => exact h.order_runs hp hruns (by simp) (by simp)
  | finishWrite hconn hrest =>
    exact h.order_runs hp hruns (by rcases hconn with ⟨rfl, -⟩ | ⟨rfl, -⟩ <;> simp) (by simp)
  | finishRetry hpushed hrest =>
    exact h.order_runs hp hruns (by rcases hpushed with rfl | rfl <;> simp) (by simp)
  | setTimer => exact h.order_runs hp hruns (by simp) (by simp)
  | handleRead expired hperm hrest =>
    refine h.order_runs hp hruns (fun x hx => ?_) (by simp)
    obtain ⟨e, -, rfl⟩ := List.mem_map.mp hx
    cases e <;> simp [expiredStmt]
  | cancelInLoop => exact h.order_runs hp hruns (by simp) (by simp)
  | resetChannel => exact h.order_runs hp hruns (by simp) (by simp)
  | closed hpushed hconnection hrest =>
    rcases hpushed with ⟨rfl, -⟩ | ⟨rfl, -⟩
    · exact h.order_closed hdispatch hp hruns
    · exact h.order_runs hp hruns (by simp) (by simp)
  | message => exact h.order_runs hp hruns (by simp) (by simp)

/-- The timers are those there were, and those that were taken from the queue. -/
theorem numbers_runs (h : s.Single tid) (hp : s.threads.pop tid = some (stmt, th))
    (hruns : Runs tid th s'.threads pushed queued) (hnext : s.nextTimer ≤ s'.nextTimer)
    (htimers : ∀ id ∈ s'.timers, id ∈ s.timers ∨ id < s'.nextTimer)
    (hpushed : ∀ id, .timer id ∈ pushed → id ∈ s.timers) (hqueued : ∀ id, .timer id ∉ queued) :
    ∀ id, id ∈ s'.timers ∨ .timer id ∈ s'.agenda tid → id < s'.nextTimer := by
  intro id hid
  rw [agenda, hruns.agenda, List.mem_append, List.mem_append] at hid
  rcases hid with hid | (hid | hid) | hid
  · rcases htimers id hid with hid | hlt
    · exact (h.numbers id (.inl hid)).trans_le hnext
    · exact hlt
  · exact (h.numbers id (.inl (hpushed id hid))).trans_le hnext
  · refine (h.numbers id (.inr ?_)).trans_le hnext
    rw [agenda_pop hp]
    exact List.mem_cons_of_mem _ hid
  · exact absurd hid (hqueued id)

/-- **One statement** keeps the numbers of the timers below the next one. -/
theorem exec_numbers (h : s.Single tid) (hp : s.threads.pop tid = some (stmt, th))
    (hruns : Runs tid th s'.threads pushed queued) (hout : Outcome { s with threads := th } s' stmt pushed queued) :
    s.nextTimer ≤ s'.nextTimer ∧ ∀ id, id ∈ s'.timers ∨ .timer id ∈ s'.agenda tid → id < s'.nextTimer := by
  have hsame : ∀ {s₁ : TcpClient}, s₁.timers = s.timers →
      ∀ id ∈ s₁.timers, id ∈ s.timers ∨ id < s₁.nextTimer :=
    fun heq id hid => .inl (heq ▸ hid)
  cases hout with
  | noAttempt hstmt hpushed hstate hrest =>
    obtain ⟨-, htimers, hnext⟩ := hrest
    exact ⟨hnext.ge, h.numbers_runs hp hruns hnext.ge (hsame htimers)
      (by rcases hpushed with rfl | rfl <;> simp) (by simp)⟩
  | attempt hstmt hstate hrest =>
    obtain ⟨-, htimers, hnext⟩ := hrest
    exact ⟨hnext.ge, h.numbers_runs hp hruns hnext.ge (hsame htimers) (by simp) (by simp)⟩
  | ended hstmt hx hstate hrest =>
    obtain ⟨-, htimers, hnext⟩ := hrest
    refine ⟨hnext.ge, h.numbers_runs hp hruns hnext.ge (hsame htimers) ?_ (by simp)⟩
    rcases hx with ⟨rfl, -⟩ | ⟨-, ⟨sockfd, rfl⟩, -⟩ <;> simp
  | noWrite hstate heq =>
    subst heq
    exact ⟨le_rfl, h.numbers_runs hp hruns le_rfl (fun id hid => .inl hid) (by simp) (by simp)⟩
  | finishWrite hconn hrest =>
    obtain ⟨-, htimers, hnext⟩ := hrest
    exact ⟨hnext.ge, h.numbers_runs hp hruns hnext.ge (hsame htimers)
      (by rcases hconn with ⟨rfl, -⟩ | ⟨rfl, -⟩ <;> simp) (by simp)⟩
  | finishRetry hpushed hrest =>
    obtain ⟨-, -, htimers, hnext⟩ := hrest
    exact ⟨hnext.ge, h.numbers_runs hp hruns hnext.ge (hsame htimers)
      (by rcases hpushed with rfl | rfl <;> simp) (by simp)⟩
  -- the only new number
  | setTimer hset hrest =>
    obtain ⟨htimers, hnext⟩ := hset
    have hle : s.nextTimer ≤ s'.nextTimer := by rw [hnext]; exact Nat.le_succ _
    refine ⟨hle, h.numbers_runs hp hruns hle (fun id hid => ?_) (by simp) (by simp)⟩
    rw [htimers, List.mem_append, List.mem_singleton] at hid
    refine hid.imp_right fun heq => ?_
    rw [heq, hnext]
    exact Nat.lt_succ_self _
  | handleRead expired hperm hrest =>
    obtain ⟨-, -, hnext⟩ := hrest
    refine ⟨hnext.ge, h.numbers_runs hp hruns hnext.ge
      (fun id hid => .inl (hperm.subset (List.mem_append_right _ hid))) (fun n hn => ?_) (by simp)⟩
    -- an expired timer was among the timers
    obtain ⟨e, he, heq⟩ := List.mem_map.mp hn
    cases e with
    | none => cases heq
    | some m =>
      obtain rfl := Stmt.timer.inj heq
      exact hperm.subset (List.mem_append_left _ (List.mem_filterMap.mpr ⟨some m, he, rfl⟩))
  | cancelInLoop hsub hrest =>
    obtain ⟨-, -, hnext⟩ := hrest
    exact ⟨hnext.ge, h.numbers_runs hp hruns hnext.ge (fun id hid => .inl (hsub.subset hid)) (by simp) (by simp)⟩
  | resetChannel hrest =>
    obtain ⟨-, -, htimers, hnext⟩ := hrest
    exact ⟨hnext.ge, h.numbers_runs hp hruns hnext.ge (hsame htimers) (by simp) (by simp)⟩
  | closed hpushed hconnection hrest =>
    obtain ⟨htimers, hnext⟩ := hrest
    exact ⟨hnext.ge, h.numbers_runs hp hruns hnext.ge (hsame htimers)
      (by rcases hpushed with ⟨rfl, -⟩ | ⟨rfl, -⟩ <;> simp) (by simp)⟩
  | message hrest =>
    obtain ⟨-, -, htimers, hnext⟩ := hrest
    exact ⟨hnext.ge, h.numbers_runs hp hruns hnext.ge (hsame htimers) (by simp) (by simp)⟩

/-- **One statement**, put together. -/
theorem exec (h : s.Single tid) (hdispatch : s.Dispatch tid) (hsound : s.Sound tid)
    (hfresh : ∀ id ∈ s.timerAtHand tid, s.history.timersAtStart ≤ id)
    (hp : s.threads.pop tid = some (stmt, th)) (hs : { s with threads := th }.run tid a stmt = .ok s') :
    s'.Single tid := by
  obtain ⟨hcalls, hhist, pushed, queued, hruns, hout⟩ := run_outcome hs
  obtain ⟨hnext, hnumbers⟩ := h.exec_numbers hp hruns hout
  refine ⟨exec_waiting h hsound hfresh hp hcalls hhist hruns hout, h.exec_order hdispatch hp hruns hout, ?_, hnumbers⟩
  rw [hhist]
  exact h.first.trans hnext

/-- A step that adds statements that wait for nothing and reset nothing. -/
theorem idle (h : s.Single tid) (hr : Runs tid s.threads s'.threads pushed queued)
    (hplain : ∀ x ∈ pushed ++ queued, x = .user ∨ ∃ timerId, x = .cancelInLoop timerId)
    (hstate : s'.connector.state = s.connector.state)
    (hstarts : s'.calls.countP (·.2 = .start) = s.calls.countP (·.2 = .start))
    (htimers : s'.timers = s.timers ∧ s'.nextTimer = s.nextTimer)
    (hfirst : s'.history.timersAtStart = s.history.timersAtStart) : s'.Single tid := by
  have hzero : ∀ l : List Stmt, (∀ x ∈ l, x = .user ∨ ∃ timerId, x = .cancelInLoop timerId) →
      (l.map (waits s.history.timersAtStart)).sum = 0 := by
    intro l hl
    refine List.sum_eq_zero_iff.mpr fun n hn => ?_
    obtain ⟨x, hx, rfl⟩ := List.mem_map.mp hn
    rcases hl x hx with rfl | ⟨timerId, rfl⟩ <;> rfl
  have hpushed : ∀ x ∈ pushed, x = .user ∨ ∃ timerId, x = .cancelInLoop timerId := fun x hx =>
    hplain x (List.mem_append_left _ hx)
  have hqueued : ∀ x ∈ queued, x = .user ∨ ∃ timerId, x = .cancelInLoop timerId := fun x hx =>
    hplain x (List.mem_append_right _ hx)
  have hag : s'.agenda tid = pushed ++ s.agenda tid ++ queued := hr.agenda
  refine ⟨?_, ?_, by rw [hfirst, htimers.2]; exact h.first, ?_⟩
  · have hle := h.one
    unfold waiting at hle ⊢
    rw [hfirst, load_runs hr, hzero _ hpushed, hzero _ hqueued, hstate, hstarts, htimers.1]
    omega
  · rw [hag]
    refine Threads.pairwise_agenda h.order ?_ ?_
    · rintro x hx y rfl
      rcases hpushed _ hx with hx | ⟨timerId, hx⟩ <;> cases hx
    · rintro y hy x - rfl
      rcases hqueued _ hy with hy | ⟨timerId, hy⟩ <;> cases hy
  · intro id hid
    rw [htimers.2]
    rw [htimers.1, hag, List.mem_append, List.mem_append] at hid
    rcases hid with hid | (hid | hid) | hid
    · exact h.numbers id (.inl hid)
    · rcases hpushed _ hid with hid | ⟨timerId, hid⟩ <;> cases hid
    · exact h.numbers id (.inr hid)
    · rcases hqueued _ hid with hid | ⟨timerId, hid⟩ <;> cases hid

/-- **The loop's own code.** -/
theorem advance (h : s.Single tid) (hsound : s.Sound tid) {mv : EventLoop.Move Handler}
    (hadv : s.threads.advance Handler.stmts tid mv = .ok th) : { s with threads := th }.Single tid := by
  obtain ⟨-, -, -, hcase⟩ := Threads.agenda_advance hsound.batched hadv
  -- what is reported waits for nothing
  have hfront : ∃ front : List Stmt, { s with threads := th }.agenda tid = front ++ s.agenda tid ∧
      ∀ x ∈ front, ∃ hd : Handler, x ∈ hd.stmts := by
    rcases hcase with ⟨active, rfl, -, -, hag⟩ | ⟨-, hag⟩
    · refine ⟨(EventLoop.handlers active).flatMap (Threads.stmts Handler.stmts), ?_, ?_⟩
      · rw [agenda, hag, if_pos rfl]
        rfl
      · intro x hx
        obtain ⟨hd, -, hx⟩ := mem_handlers hx
        exact ⟨hd, hx⟩
    · exact ⟨[], hag tid, fun x hx => absurd hx List.not_mem_nil⟩
  obtain ⟨front, hag, hfront⟩ := hfront
  have hshape : ∀ x ∈ front, x ≠ .startInLoop ∧ (∀ id, x ≠ .timer id) ∧
      waits s.history.timersAtStart x = 0 := by
    intro x hx
    obtain ⟨hd, hx⟩ := hfront x hx
    cases hd with
    | connector revents =>
      obtain ⟨cb, -, hcb⟩ := List.mem_filterMap.mp hx
      cases cb <;> cases hcb <;> simp [waits]
    | timerfd => obtain rfl := List.mem_singleton.mp hx; simp [waits]
    | connection => obtain rfl := List.mem_singleton.mp hx; simp [waits]
    | user => obtain rfl := List.mem_singleton.mp hx; simp [waits]
  have hsum : (front.map (waits s.history.timersAtStart)).sum = 0 := by
    refine List.sum_eq_zero_iff.mpr fun n hn => ?_
    obtain ⟨x, hx, rfl⟩ := List.mem_map.mp hn
    exact (hshape x hx).2.2
  refine ⟨?_, ?_, h.first, ?_⟩
  · have hle := h.one
    have hload : th.load Handler.stmts (waits s.history.timersAtStart) tid =
        s.threads.load Handler.stmts (waits s.history.timersAtStart) tid := by
      unfold Threads.load
      rw [show th.agenda Handler.stmts tid = front ++ s.agenda tid from hag, List.map_append,
        List.sum_append, hsum, Nat.zero_add]
      rfl
    unfold waiting at hle ⊢
    rw [hload]
    exact hle
  · rw [hag, ← List.append_nil (front ++ s.agenda tid)]
    exact Threads.pairwise_agenda h.order (fun x hx y heq => absurd heq (hshape x hx).1)
      (fun y hy => absurd hy List.not_mem_nil)
  · intro id hid
    rw [hag, List.mem_append] at hid
    rcases hid with hid | hid | hid
    · exact h.numbers id (.inl hid)
    · exact absurd rfl ((hshape _ hid).2.1 id)
    · exact h.numbers id (.inr hid)

/-- **A call**: a `start` that begins afresh is the only way to an attempt. -/
theorem call (h : s.Single tid) {t : ThreadId} {c : Call} (halternates : s.Alternates (.call t c))
    (hfresh : s.BeginsAfresh tid (.call t c)) (hs : s.step tid (.call t c) = .ok s') : s'.Single tid := by
  obtain ⟨hcalls, -⟩ := halternates
  cases c with
  | stop =>
    rcases call_cases hs with ⟨-, rfl⟩ | ⟨-, rfl⟩
    · exact h.idle (Runs.nil.push [Call.stop.functor s]) (fun x hx => .inr ⟨_, List.mem_singleton.mp hx⟩)
        rfl rfl ⟨rfl, rfl⟩ rfl
    · refine h.idle Runs.nil (fun x hx => absurd hx List.not_mem_nil) rfl ?_ ⟨rfl, rfl⟩ rfl
      rw [List.countP_append]
      rfl
  | start =>
    obtain ⟨hstate, hstart, hretry, htimer, hreset⟩ := hfresh
    -- the timers there are do not count any more, and nothing else waits
    have hload : s.threads.load Handler.stmts (waits s.nextTimer) tid = 0 := by
      refine List.sum_eq_zero_iff.mpr fun n hn => ?_
      obtain ⟨x, hx, rfl⟩ := List.mem_map.mp hn
      cases x with
      | startInLoop => exact absurd hx hstart
      | finishRetry => exact absurd hx hretry
      | setTimer => exact absurd hx htimer
      | timer id => exact if_neg (Nat.not_le.mpr (h.numbers id (.inr hx)))
      | _ => rfl
    have htimers : s.timers.countP (s.nextTimer ≤ ·) = 0 := by
      refine List.countP_eq_zero.mpr fun id hid => ?_
      have hlt := h.numbers id (.inl hid)
      simpa using hlt
    rcases call_cases hs with ⟨rfl, rfl⟩ | ⟨-, rfl⟩
    · have hag : (s.threads.push t [.startInLoop]).agenda Handler.stmts t = .startInLoop :: s.agenda t := by
        rw [Threads.agenda_push, if_pos rfl]
        rfl
      refine ⟨?_, ?_, Nat.le_refl _, ?_⟩
      · show (s.threads.push t [.startInLoop]).load Handler.stmts (waits s.nextTimer) t +
          s.calls.countP (·.2 = .start) + s.timers.countP (s.nextTimer ≤ ·) ≤
          if s.connector.state = .kDisconnected then 1 else 0
        rw [Threads.load_push, if_pos rfl, hload, hcalls, htimers, if_pos hstate]
        exact Nat.le_refl 1
      · show ((s.threads.push t [.startInLoop]).agenda Handler.stmts t).Pairwise Apart
        rw [hag, List.pairwise_cons]
        refine ⟨?_, h.order⟩
        rintro y hy - rfl
        exact hreset rfl hy
      · intro id hid
        refine h.numbers id (hid.imp_right fun hmem => ?_)
        have hmem' : .timer id ∈ (s.threads.push t [.startInLoop]).agenda Handler.stmts t := hmem
        rw [hag, List.mem_cons] at hmem'
        exact hmem'.resolve_left (by simp)
    · refine ⟨?_, h.order, Nat.le_refl _, h.numbers⟩
      show s.threads.load Handler.stmts (waits s.nextTimer) tid +
        (s.calls ++ [(t, Call.start)]).countP (·.2 = .start) + s.timers.countP (s.nextTimer ≤ ·) ≤
        if s.connector.state = .kDisconnected then 1 else 0
      rw [hload, hcalls, htimers, if_pos hstate]
      exact Nat.le_refl 1

/-- **The rest of a call** that another thread has begun. -/
theorem finishCall (h : s.Single tid) {t : ThreadId} {c : Call} (hs : s.step tid (.finishCall t c) = .ok s') :
    s'.Single tid := by
  simp only [step, bind_eq_ok, enabled_eq_ok, pure_eq_ok, Except.ok.injEq] at hs
  obtain ⟨-, hmem, rfl⟩ := hs
  have hcount : (s.calls.erase (t, c)).countP (·.2 = .start) + (if c = .start then 1 else 0) =
      s.calls.countP (·.2 = .start) := by
    rw [List.countP_erase]
    cases c with
    | start =>
      have hpos : 0 < s.calls.countP (·.2 = .start) := List.countP_pos_iff.mpr ⟨_, hmem, rfl⟩
      simp only [hmem, decide_true, and_self, if_true]
      omega
    | stop => simp
  cases c with
  | stop =>
    refine h.idle (Runs.nil.queue t (Call.stop.functor s)) ?_ rfl ?_ ⟨rfl, rfl⟩ rfl
    · intro x hx
      exact .inr ⟨_, List.mem_singleton.mp hx⟩
    · exact hcount
  | start =>
    have hruns : Runs tid s.threads (s.threads.queueInLoop t tid .startInLoop) [] [.startInLoop] :=
      Runs.nil.queue t _
    refine ⟨?_, ?_, h.first, ?_⟩
    · have hle := h.one
      rw [if_pos rfl] at hcount
      show (s.threads.queueInLoop t tid .startInLoop).load Handler.stmts (waits s.history.timersAtStart) tid +
        (s.calls.erase (t, .start)).countP (·.2 = .start) + s.timers.countP (s.history.timersAtStart ≤ ·) ≤
        if s.connector.state = .kDisconnected then 1 else 0
      unfold waiting at hle
      rw [load_runs hruns]
      simp only [List.map_nil, List.map_cons, List.sum_nil, List.sum_cons, waits]
      omega
    · show ((s.threads.queueInLoop t tid .startInLoop).agenda Handler.stmts tid).Pairwise Apart
      rw [hruns.agenda]
      refine Threads.pairwise_agenda h.order (fun x hx => absurd hx List.not_mem_nil) ?_
      rintro y hy x - rfl
      exact absurd hy (by simp)
    · intro id hid
      refine h.numbers id (hid.imp_right fun hmem => ?_)
      have hmem' : .timer id ∈ (s.threads.queueInLoop t tid .startInLoop).agenda Handler.stmts tid := hmem
      rw [hruns.agenda, List.nil_append, List.mem_append] at hmem'
      exact hmem'.resolve_right (by simp)

theorem start : TcpClient.start.Single tid := by
  refine ⟨Nat.zero_le _, List.Pairwise.nil, Nat.le_refl _, ?_⟩
  rintro id (hid | hid) <;> exact absurd hid List.not_mem_nil

/-- **One step** of a run that meets the condition. -/
theorem step (h : s.Single tid) (hdispatch : s.Dispatch tid) (hsound : s.Sound tid) {l : Label}
    (hl : s.Alternates l ∧ s.BeginsAfresh tid l) (hs : s.step tid l = .ok s') : s'.Single tid := by
  have hnone : ∀ x ∈ ([] : List Stmt), x = .user ∨ ∃ timerId, x = .cancelInLoop timerId := fun x hx =>
    absurd hx List.not_mem_nil
  cases l with
  | loop mv =>
    simp only [TcpClient.step, bind_eq_ok, Result.mapFault_eq_ok, pure_eq_ok, Except.ok.injEq] at hs
    obtain ⟨-, -, th, hadv, rfl⟩ := hs
    exact h.advance hsound hadv
  | exec a =>
    simp only [TcpClient.step] at hs
    cases hp : s.threads.pop tid with
    | none => rw [hp] at hs; cases hs
    | some e =>
      rw [hp] at hs
      exact h.exec hdispatch hsound (fun id hid => (hl.2 id hid).1) hp hs
  | ret =>
    simp only [TcpClient.step] at hs
    split at hs
    · rename_i th hp
      obtain rfl := Except.ok.inj hs
      have hle := h.one
      rw [waiting_pop hp] at hle
      have hag := agenda_pop hp
      have horder := h.order
      rw [hag, List.pairwise_cons] at horder
      refine ⟨(Nat.le_add_left _ _).trans hle, horder.2, h.first, ?_⟩
      intro id hid
      refine h.numbers id (hid.imp_right fun hmem => ?_)
      rw [hag]
      exact List.mem_cons_of_mem _ hmem
    · cases hs
  | call t c => exact h.call hl.1 hl.2 hs
  | finishCall t c => exact h.finishCall hs
  | queueInLoop t =>
    simp only [TcpClient.step, bind_eq_ok, pure_eq_ok, Except.ok.injEq] at hs
    obtain ⟨-, -, rfl⟩ := hs
    exact h.idle (Runs.nil.queue t .user) (fun x hx => .inl (List.mem_singleton.mp hx)) rfl rfl ⟨rfl, rfl⟩ rfl
  | quit t =>
    simp only [TcpClient.step, bind_eq_ok, pure_eq_ok, Except.ok.injEq] at hs
    obtain ⟨-, -, rfl⟩ := hs
    exact h.idle (Runs.quit t) hnone rfl rfl ⟨rfl, rfl⟩ rfl
  | release sockfd =>
    simp only [TcpClient.step, bind_eq_ok, pure_eq_ok, Except.ok.injEq] at hs
    obtain ⟨-, -, rfl⟩ := hs
    exact h.idle Runs.nil hnone rfl rfl ⟨rfl, rfl⟩ rfl

end Single

variable (tid) in
/-- The runs in which each `start` begins afresh. -/
abbrev Fresh (s : TcpClient) : Prop := (tcpClient tid).Reach (fun s l => s.Alternates l ∧ s.BeginsAfresh tid l) s

/-- **One attempt at a time**, in every run in which each `start` begins afresh. -/
theorem single_of_fresh (h : s.Fresh tid) : s.Single tid :=
  h.invariant (I := fun s => s.Single tid) (fun _ h0 => h0 ▸ Single.start)
    (fun _ _ _ hr hI hl hs => hI.step (dispatch_of_reachable hr.reachable) (sound_of_reachable hr.reachable) hl hs)

/-! ## The asserts -/

/-- `connecting` does not fail on a connector without a channel. -/
theorem connecting_ok {c : Connector} {p : EPoller} (hreg : Registered p (only c.channel))
    (hnone : c.channel = none) (self : Addr) (sockfd : Int) : ∃ r, c.connecting p self sockfd = .ok r := by
  rw [hnone] at hreg
  have hreg₁ := hreg.update_new (a := self) (v := some (Channel.new self sockfd)) (by simp [only]) (by
    intro d hd
    obtain rfl := Option.some.inj hd
    exact ⟨rfl, rfl, by simp [only]⟩)
  obtain ⟨-, p', c', hup, -⟩ :=
    hreg₁.updateChannel (Function.update_self _ _ _) (∅ ∪ Channel.kWriteEvent)
  refine ⟨({ c with state := .kConnecting, channel := some c' }, p'), ?_⟩
  simp only [Connector.connecting, require_of hnone, ok_bind]
  rw [show p.updateChannel (Channel.new self sockfd).enableWriting = .ok (p', c') from hup]
  rfl

/-- The channel of an attempt can be taken off the poller's records. -/
theorem Sound.removeAndResetChannel_ok (h : s.Sound tid) (hstate : s.connector.state = .kConnecting) :
    ∃ r, s.connector.removeAndResetChannel s.poller = .ok r := by
  obtain ⟨c, hc, hindex, -⟩ := h.connecting hstate
  have hreg := h.registered
  rw [hc] at hreg
  obtain ⟨-, p₁, c₁, hup, hc₁, hreg₁⟩ := hreg.updateChannel (only_self c) ∅
  have hevents : c₁.events = ∅ := by rw [hc₁]
  -- `disableAll` leaves it `kDeleted`
  have hne : c₁.index ≠ EPoller.kNew := by
    obtain ⟨-, ⟨-, -, hidx, -⟩ | ⟨himp, -, -⟩⟩ := EPoller.updateChannel_cases hup
    · rw [hidx]
      decide
    · exact absurd rfl (himp hindex)
  obtain ⟨-, p₂, hrem, -⟩ := hreg₁.removeChannel (Function.update_self _ _ _) hne hevents
  refine ⟨({ s.connector with channel := some { c₁ with index := EPoller.kNew } }, p₂, c₁.fd), ?_⟩
  unfold Connector.removeAndResetChannel
  rw [hc]
  simp only
  rw [show s.poller.updateChannel c.disableAll = .ok (p₁, c₁) from hup]
  simp only [Result.mapFault, ok_bind]
  rw [hrem]
  rfl

/-- `startInLoop` in `kDisconnected`, with no channel if it makes an attempt. -/
theorem startInLoop_noFault (hsound : s.Sound tid) (hstate : s.connector.state = .kDisconnected)
    (hnone : s.connector.connect = true → s.connector.channel = none) (f : Connector.Fault) :
    s.startInLoop tid a ≠ .error (.fault (.connector f)) := by
  intro hf
  unfold startInLoop at hf
  rw [require_of hstate] at hf
  simp only [ok_bind] at hf
  split at hf
  · rename_i hconnect
    simp only [connect, bind_eq_error, enabled_eq_error, enabled_eq_ok] at hf
    rcases hf with ⟨-, hf⟩ | ⟨-, -, hf⟩
    · cases hf
    · cases haction : a.connectErrno.action with
      | retry => rw [haction] at hf; cases hf
      | close => rw [haction] at hf; cases hf
      | connecting =>
        obtain ⟨r, hr⟩ := connecting_ok hsound.registered (hnone hconnect) a.channel a.sockfd
        rw [haction] at hf
        simp only [hr, Result.mapFault, ok_bind] at hf
        cases hf
  · cases hf

/-- With no `resetChannel` to come the channel is free. -/
theorem Sound.channel_none (h : s.Sound tid) (hstate : s.connector.state = .kDisconnected)
    (hreset : .resetChannel ∉ s.agenda tid) : s.connector.channel = none := by
  have hzero : s.resets tid = 0 := by
    refine List.sum_eq_zero_iff.mpr fun n hn => ?_
    obtain ⟨x, hx, rfl⟩ := List.mem_map.mp hn
    unfold isReset
    rw [if_neg]
    rintro rfl
    exact hreset hx
  have hresets := h.resets
  rw [hzero] at hresets
  by_contra hsome
  rw [if_pos ⟨Option.isSome_iff_ne_none.mpr hsome, by rw [hstate]; decide⟩] at hresets
  cases hresets

/-- A way to an attempt is there only in `kDisconnected`. -/
theorem Single.disconnected_of_waits (h : s.Single tid) (hp : s.threads.pop tid = some (stmt, th))
    (hone : waits s.history.timersAtStart stmt = 1) : s.connector.state = .kDisconnected := by
  have hle := h.one
  rw [Single.waiting_pop hp, hone] at hle
  by_contra hne
  rw [if_neg hne] at hle
  omega

/-- `handleWrite` finds an attempt, or that the error callback of the same event came first. -/
theorem handleWrite_noFault (hsound : s.Sound tid) (hstate : s.connector.state ≠ .kConnected) (f : Connector.Fault) :
    s.handleWrite tid a ≠ .error (.fault (.connector f)) := by
  intro hf
  unfold handleWrite at hf
  split at hf
  · rename_i hconnecting
    obtain ⟨r, hr⟩ := hsound.removeAndResetChannel_ok hconnecting
    simp only [removeAndResetChannel, hr, Result.mapFault, ok_bind, pure_eq_ok] at hf
    split at hf <;> cases hf
  · rename_i hne
    have hdisconnected : s.connector.state = .kDisconnected := by
      cases hs : s.connector.state with
      | kDisconnected => rfl
      | kConnecting => exact absurd hs hne
      | kConnected => exact absurd hs hstate
    rw [require_of hdisconnected] at hf
    cases hf

/-- **One statement** fails no assert, in a run that meets the condition. -/
theorem exec_noFault (hsound : s.Sound tid) (hdispatch : s.Dispatch tid) (hsingle : s.Single tid)
    (hfresh : s.BeginsAfresh tid (.exec a)) (hp : s.threads.pop tid = some (stmt, th)) (f : Connector.Fault) :
    { s with threads := th }.run tid a stmt ≠ .error (.fault (.connector f)) := by
  have hag := agenda_pop hp
  have hmem : stmt ∈ s.agenda tid := by rw [hag]; exact List.mem_cons_self
  have hsound' : Silent stmt → { s with threads := th }.Sound tid := fun hsilent =>
    hsound.quiet (quiet_pop hsound.batched hsound.queueable hsilent hp) rfl rfl rfl rfl rfl
  cases stmt with
  | user => intro hf; cases hf
  | startInLoop =>
    have hstate := hsingle.disconnected_of_waits hp rfl
    refine startInLoop_noFault (hsound' ⟨rfl, rfl⟩) hstate (fun _ => hsound.channel_none hstate ?_) f
    have horder := hsingle.order
    rw [hag, List.pairwise_cons] at horder
    rw [hag, List.mem_cons, not_or]
    exact ⟨by simp, fun hx => horder.1 _ hx rfl rfl⟩
  | timer id =>
    have hid : s.timerAtHand tid = some id := by rw [timerAtHand, (Threads.frames_pop hp).1]; rfl
    obtain ⟨hle, hreset⟩ := hfresh id hid
    have hstate := hsingle.disconnected_of_waits hp (if_pos hle)
    exact startInLoop_noFault (hsound' ⟨rfl, rfl⟩) hstate
      (fun hconnect => hsound.channel_none hstate (hreset hconnect)) f
  | handleRead =>
    intro hf
    simp only [run, bind_eq_error, enabled_eq_error, pure_eq_ok, reduceCtorEq, and_false, exists_false,
      or_false] at hf
  | cancelInLoop timerId => intro hf; cases hf
  | resetChannel => intro hf; cases hf
  | handleError =>
    intro hf
    have hstate := hdispatch.error hmem
    obtain ⟨r, hr⟩ := (hsound' ⟨rfl, rfl⟩).removeAndResetChannel_ok hstate
    simp only [run, handleError, require_of hstate, ok_bind, removeAndResetChannel, hr, Result.mapFault,
      pure_eq_ok] at hf
    cases hf
  | handleWrite =>
    exact handleWrite_noFault (hsound' ⟨rfl, rfl⟩) (hdispatch.write hmem) f
  | finishWrite sockfd =>
    intro hf
    simp only [run] at hf
    split at hf <;> cases hf
  | finishRetry =>
    intro hf
    simp only [run] at hf
    split at hf <;> cases hf
  | setTimer => intro hf; cases hf
  | connectionEvent =>
    intro hf
    simp only [run] at hf
    split at hf
    · simp only [bind_eq_error, require_eq_error, require_eq_ok] at hf
      rcases hf with ⟨-, hf⟩ | ⟨-, -, hf⟩
      · cases hf
      · split at hf <;> cases hf
    · cases hf

/-- **The asserts of the connector hold**, in every run in which each `start` begins afresh. -/
theorem asserts_hold (h : s.Fresh tid) {l : Label} (hl : s.Alternates l ∧ s.BeginsAfresh tid l)
    (f : Connector.Fault) : s.step tid l ≠ .error (.fault (.connector f)) := by
  intro hf
  have hsound := sound_of_reachable h.reachable
  have hdispatch := dispatch_of_reachable h.reachable
  cases l with
  | loop mv =>
    simp only [step, bind_eq_error, enabled_eq_error] at hf
    rcases hf with ⟨-, hf⟩ | ⟨-, -, hf | ⟨th, -, hf⟩⟩
    · cases hf
    · obtain ⟨e, -, he⟩ := Result.mapFault_eq_fault.mp hf
      cases he
    · cases hf
  | exec a =>
    simp only [step] at hf
    cases hp : s.threads.pop tid with
    | none => rw [hp] at hf; cases hf
    | some e =>
      rw [hp] at hf
      exact exec_noFault hsound hdispatch (single_of_fresh h) hl.2 hp f hf
  | ret =>
    simp only [step] at hf
    split at hf <;> cases hf
  | call t c => simp [step, bind_eq_error, enabled_eq_error] at hf
  | finishCall t c => simp [step, bind_eq_error, enabled_eq_error] at hf
  | queueInLoop t => simp [step, bind_eq_error, enabled_eq_error] at hf
  | quit t => simp [step, bind_eq_error, enabled_eq_error] at hf
  | release sockfd => simp [step, bind_eq_error, enabled_eq_error] at hf

/-- A refused attempt, its timer cancelled by a `stop`, and a `start` after it. -/
theorem asserts_hold_sample : ∃ s : TcpClient, s.nextTimer = 1 ∧ s.connector.state = .kConnecting ∧
    ∀ l, s.Alternates l ∧ s.BeginsAfresh 0 l → ∀ f, s.step 0 l ≠ .error (.fault (.connector f)) := by
  obtain ⟨s, hs, hp⟩ := System.Reach.of_execWhile (S := tcpClient 0)
    (C := fun s l => s.Alternates l ∧ s.BeginsAfresh 0 l) (s := start)
    (l := [Label.loop .enter, .call 1 .start, .finishCall 1 .start] ++ turn [.wakeupChannel] ++
      [Label.loop .next, .loop .next, .loop .next, .exec { Answers.quiet with connectErrno := .ECONNREFUSED },
        .exec Answers.quiet, .exec Answers.quiet, .loop .next, .loop .next] ++
      [Label.call 1 .stop, .finishCall 1 .stop] ++ turn [.wakeupChannel] ++ [Label.loop .next] ++ functors 1 ++
      [Label.call 2 .start, .finishCall 2 .start] ++ turn [.wakeupChannel] ++ [Label.loop .next] ++ functors 1)
    (p := fun s => decide (s.nextTimer = 1 ∧ s.connector.state = .kConnecting))
    (.init rfl) (by decide +kernel)
  rw [decide_eq_true_eq] at hp
  exact ⟨s, hp.1, hp.2, fun l hl f => asserts_hold hs hl f⟩

end TcpClient

end Irono
