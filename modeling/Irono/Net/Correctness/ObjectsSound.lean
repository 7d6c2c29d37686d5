import Irono.Net.Correctness.ChannelOwners
import Irono.Net.LoopObjects

/-!
# `Net.Correctness.ObjectsSound` — who sees to it that a channel leaves the poller

A connection leaves the poller by `connectDestroyed`, which somebody must have queued before the last
`TcpConnectionPtr` goes; a connector by `removeAndResetChannel`, and its channel by `resetChannel`, which
is queued with a raw `this`. Neither `~TcpServer` nor `~TcpClient` sees to it, so that it goes well only
if the user deletes the objects, and drops pointers, when nothing of the kind is outstanding (`Kept`).

`Sound` is the invariant of such runs. A registered connection is closing, or its server or client has a
pointer to it, or its client is gone and a user has one; and the connector of a client that is gone has no
channel and does not get one. One lemma follows for each kind of change to the state; the members and the
steps are put together from them in `Net.Correctness.DeadChannels`.
-/

namespace Irono

open Transition Threads

namespace LoopObjects

variable (tid : ThreadId)

/-! ## The condition -/

/-- All that the loop thread has still to do. -/
abbrev agenda (s : LoopObjects) : List Stmt := s.threads.agenda Handler.stmts tid

/-- The connection is being closed: `handleClose` is at the call of `closeCallback_`, or `connectDestroyed` is
    queued, or has begun. -/
def Closing (s : LoopObjects) (i : Id) : Prop :=
  .removeConnection i ∈ s.agenda tid ∨ .connectDestroyed i ∈ s.agenda tid ∨ .removeChannel i ∈ s.agenda tid

/-- The client that made the connection has been deleted. -/
def orphan (s : LoopObjects) (i : Id) : Bool :=
  match (s.connections i).creator with
  | .server _ => false
  | .client k => !(s.clients k).alive

/-- No attempt is on, and `resetChannel` of the last one has run. -/
def Idle (s : LoopObjects) (k : Id) : Prop :=
  (s.connectors k).state ≠ .kConnecting ∧ .resetChannel k ∉ s.agenda tid

instance (s : LoopObjects) (i : Id) : Decidable (s.Closing tid i) := inferInstanceAs (Decidable (_ ∨ _))
instance (s : LoopObjects) (k : Id) : Decidable (s.Idle tid k) := inferInstanceAs (Decidable (_ ∧ _))

/-- **The condition**, on what the user deletes and drops. A server is deleted only if it never listened, and a
    client only while its connector is idle and, if it has a connection, while that is being closed or a user has a
    pointer to it. The last of these goes only when the connection is being closed, or is down. -/
def Kept (s : LoopObjects) : Label → Prop
  | .deleteServer sid => (s.servers sid).listenning = false
  | .deleteClient k => s.Idle tid k ∧ ∀ i ∈ (s.clients k).connection, s.Closing tid i ∨ i ∈ s.users
  | .drop i => s.orphan i = true → i ∉ s.users.erase i →
      s.Closing tid i ∨ (s.connections i).conn.state = .kDisconnected
  | _ => True

instance (s : LoopObjects) : (l : Label) → Decidable (s.Kept tid l)
  | .deleteServer _ => inferInstanceAs (Decidable (_ = _))
  | .deleteClient k => inferInstanceAs (Decidable (_ ∧ ∀ i ∈ (s.clients k).connection, _))
  | .drop _ => inferInstanceAs (Decidable (_ → _ → _))
  | .loop _ | .exec _ | .ret | .newConnection _ | .newServer _ _ | .startServer _ | .newClient | .enableRetry _
  | .connect _ | .disconnect _ | .stop _ | .send _ _ _ | .shutdown _ | .retrieve _ _ | .copy _
  | .queueInLoop _ | .quit _ | .destroyConnection _ | .destroyConnector _ => isTrue trivial

/-! ## The invariant -/

def Owner.id : Owner → Id
  | .connection i => i
  | .connector k => k
  | .server sid => sid

/-- Who sees to it that the connection leaves the poller: the loop itself when it is closing, and before that
    `closeCallback_`, for which its server or client has a pointer, or a user when the client is gone. -/
def Owned (s : LoopObjects) (i : Id) : Prop :=
  s.Closing tid i ∨
    (s.connections i).conn.state ≠ .kDisconnected ∧ (s.held i = true ∨ s.orphan i = true ∧ i ∈ s.users)

/-- How often `resetChannel` of connector `k` is to come. -/
def resets (s : LoopObjects) (k : Id) : Nat :=
  s.threads.load Handler.stmts (fun x => if x = .resetChannel k then 1 else 0) tid

/-- What the loop thread has begun, and the rest of the batch. -/
def busy (s : LoopObjects) : List Stmt := s.threads.frames tid ++ (s.threads.loops tid).functors

/-- A statement is about objects that have been made. -/
def Stmt.Made (n : Id) : Stmt → Prop
  | .removeChannel i => i < n
  | .resetChannel k => k < n
  | .acceptLoop sid => sid < n
  | _ => True

structure Sound (s : LoopObjects) : Prop where
  batched : s.threads.Batched
  registered : RegisteredBy s.poller s.chan
  /-- what lives has been made -/
  made : ∀ o, s.alive o = true → o.id < s.nextId
  clientMade : ∀ k, (s.clients k).alive = true → k < s.nextId
  known : ∀ x ∈ s.agenda tid, x.Made s.nextId
  /-- the batch keeps its connections until they have been removed -/
  batch : ∀ i, .connectDestroyed i ∈ s.busy tid ∨ .removeChannel i ∈ s.busy tid → .connectDestroyed i ∈ s.batch
  removing : ∀ i, .removeChannel i ∈ s.agenda tid → (s.connections i).conn.state = .kDisconnected
  /-- these two are called, not queued -/
  tail : ∀ i, .removeConnection i ∉ s.threads.functors tid ∧ .removeChannel i ∉ s.threads.functors tid
  /-- a connection that is not registered does not become so -/
  down : ∀ i, (s.connections i).alive = true → (s.connections i).conn.channel.index = EPoller.kNew →
    (s.connections i).conn.state = .kDisconnected ∧ (s.connections i).conn.channel.events = ∅
  owned : ∀ i, (s.connections i).alive = true → (s.connections i).conn.channel.index ≠ EPoller.kNew →
    s.Owned tid i
  creator : ∀ i k, (s.connections i).alive = true → (s.connections i).creator = .client k → k < s.nextId
  /-- the members that other objects call do nothing to a dead connection -/
  dead : ∀ i, (s.connections i).alive = false → (s.connections i).conn.state ≠ .kConnected
  /-- a connector has a channel for its attempt, or for the `resetChannel` that is to come -/
  balance : ∀ k, s.resets tid k + (decide ((s.connectors k).state = .kConnecting)).toNat =
    (s.connectors k).channel.isSome.toNat
  connected : ∀ k i, (s.clients k).connection = some i →
    (s.connectors k).state = .kConnected ∧ k < s.nextId
  /-- the connector of a client that is gone: `startInLoop` does not get it a channel again -/
  retired : ∀ k, (s.clients k).alive = false → (s.connectors k).channel = none ∧
    ((s.connectors k).connect = false ∨ (s.connectors k).state = .kConnected)
  accepts : ∀ sid, .acceptLoop sid ∈ s.agenda tid → (s.servers sid).listenning = true
  listens : ∀ sid, (s.servers sid).connections ≠ [] → (s.servers sid).listenning = true ∧ sid < s.nextId
  deaf : ∀ sid, (s.servers sid).listenning = false → (s.servers sid).acceptChannel.index = EPoller.kNew

variable {tid} {s s' : LoopObjects}

theorem sound_start : start.Sound tid := by
  have hchan : start.chan = fun _ => none := by
    funext o
    cases o <;> rfl
  have hnil : ∀ x, x ∉ start.agenda tid := fun x => List.not_mem_nil
  have hidle : ∀ x, x ∉ start.busy tid := fun x => List.not_mem_nil
  constructor
  case batched => exact batched_start
  case registered => exact hchan ▸ RegisteredBy.empty
  case made => intro o ho; cases o <;> cases ho
  case clientMade => intro k hk; cases hk
  case known => intro x hx; exact absurd hx (hnil x)
  case batch => rintro i (hx | hx) <;> exact absurd hx (hidle _)
  case removing => intro i hi; exact absurd hi (hnil _)
  case tail => intro i; exact ⟨List.not_mem_nil, List.not_mem_nil⟩
  case down => intro i hi; cases hi
  case owned => intro i hi; cases hi
  case creator => intro i k hi; cases hi
  case dead => intro i _ hst; cases hst
  case balance => intro k; rfl
  case connected => intro k i hi; cases hi
  case retired => intro k _; exact ⟨rfl, .inl rfl⟩
  case accepts => intro sid hx; exact absurd hx (hnil _)
  case listens => intro sid hne; exact absurd rfl hne
  case deaf => intro sid _; rfl

/-! ## Moving statements about -/

variable {th : Threads Handler Stmt} {stmt : Stmt} {i k sid : Id}

/-- A statement no clause speaks of. -/
def Stmt.Plain : Stmt → Prop
  | .removeConnection _ => False
  | .connectDestroyed _ => False
  | .removeChannel _ => False
  | .resetChannel _ => False
  | .acceptLoop _ => False
  | _ => True

theorem Stmt.Plain.made (h : stmt.Plain) (n : Id) : stmt.Made n := by
  cases stmt <;> first | exact h.elim | trivial

theorem count_eq_zero {l : List Stmt} (hl : .resetChannel k ∉ l) :
    (l.map fun x => if x = .resetChannel k then 1 else 0).sum = 0 := by
  rw [List.sum_eq_zero_iff]
  intro n hn
  obtain ⟨x, hx, rfl⟩ := List.mem_map.mp hn
  have hne : x ≠ .resetChannel k := by
    rintro rfl
    exact hl hx
  exact if_neg hne

/-- The statement at hand is the first thing that is to be done. -/
theorem agenda_of_pop (hp : s.threads.pop tid = some (stmt, th)) :
    s.agenda tid = stmt :: th.agenda Handler.stmts tid := by
  rw [agenda, agenda_pop hp, if_pos rfl]
  rfl

theorem mem_of_resets (h : 0 < s.resets tid k) : .resetChannel k ∈ s.agenda tid := by
  by_contra hnot
  rw [resets, load, count_eq_zero hnot] at h
  exact absurd h (Nat.lt_irrefl 0)

/-- The statement at hand is done. What it was there for has happened: the connection has left the
    poller, or another statement is to see to it. -/
theorem Sound.pop (h : s.Sound tid) (hp : s.threads.pop tid = some (stmt, th))
    (hreset : ∀ k, stmt ≠ .resetChannel k)
    (hclose : ∀ i, stmt = .removeConnection i ∨ stmt = .connectDestroyed i ∨ stmt = .removeChannel i →
      (s.connections i).conn.channel.index = EPoller.kNew ∨ { s with threads := th }.Closing tid i) :
    { s with threads := th }.Sound tid := by
  obtain ⟨hhead, -⟩ := frames_pop hp
  have hag := agenda_of_pop hp
  have hmem : ∀ x ∈ th.agenda Handler.stmts tid, x ∈ s.agenda tid := fun x hx => by
    rw [hag]
    exact List.mem_cons_of_mem _ hx
  have hbusy : ∀ x ∈ { s with threads := th }.busy tid, x ∈ s.busy tid := by
    intro x hx
    unfold busy at hx ⊢
    rw [hhead, List.cons_append]
    rw [loops_pop hp] at hx
    exact List.mem_cons_of_mem _ hx
  -- a closing connection stays one, but for the one that the statement was there for
  have hclosing : ∀ i, s.Closing tid i → (s.connections i).conn.channel.index = EPoller.kNew ∨
      { s with threads := th }.Closing tid i := by
    intro i hi
    unfold Closing at hi
    rw [hag, List.mem_cons, List.mem_cons, List.mem_cons] at hi
    rcases hi with (heq | hi) | (heq | hi) | (heq | hi)
    · exact hclose i (.inl heq.symm)
    · exact .inr (.inl hi)
    · exact hclose i (.inr (.inl heq.symm))
    · exact .inr (.inr (.inl hi))
    · exact hclose i (.inr (.inr heq.symm))
    · exact .inr (.inr (.inr hi))
  refine { h with
    batched := batched_pop h.batched hp
    known := fun x hx => h.known x (hmem x hx)
    batch := fun i hi => h.batch i (hi.imp (hbusy _) (hbusy _))
    removing := fun i hi => h.removing i (hmem _ hi)
    tail := fun i => functors_pop hp tid ▸ h.tail i
    owned := fun i hi hne => ?_
    balance := fun k => ?_
    accepts := fun sid hx => h.accepts sid (hmem _ hx) }
  · rcases h.owned i hi hne with hc | hopen
    · exact .inl ((hclosing i hc).resolve_left hne)
    · exact .inr hopen
  -- the number of `resetChannel`s to come is the same
  · have hload := @load_pop _ _ Handler.stmts _ _ tid (fun x => if x = .resetChannel k then 1 else 0) _ hp tid
    rw [if_pos rfl, if_neg (hreset k), Nat.zero_add] at hload
    have hb := h.balance k
    rw [resets, hload] at hb
    exact hb

/-- Statements join the agenda, at either end: a call of `closeCallback_` may begin, `connectDestroyed` may be
    queued, and the others are plain. -/
theorem Sound.more (h : s.Sound tid) (hb : th.Batched) {front back : List Stmt}
    (hag : th.agenda Handler.stmts tid = front ++ s.agenda tid ++ back)
    (hfront : ∀ x ∈ front, x.Plain ∨ ∃ i, x = .removeConnection i)
    (hback : ∀ x ∈ back, x.Plain ∨ ∃ i, x = .connectDestroyed i)
    (hbusy : ∀ x ∈ th.frames tid ++ (th.loops tid).functors, x ∈ s.busy tid ∨ x ∈ front)
    (hfun : ∀ x ∈ th.functors tid, x ∈ s.threads.functors tid ∨ x ∈ back) :
    { s with threads := th }.Sound tid := by
  have hold : ∀ x ∈ s.agenda tid, x ∈ th.agenda Handler.stmts tid := fun x hx => by
    rw [hag]
    exact List.mem_append_left _ (List.mem_append_right _ hx)
  have hnew : ∀ x ∈ front ++ back, x.Plain ∨
      (∃ i, x = .removeConnection i) ∨ ∃ i, x = .connectDestroyed i := by
    intro x hx
    rcases List.mem_append.mp hx with hx | hx
    · exact (hfront x hx).imp_right .inl
    · exact (hback x hx).imp_right .inr
  -- what is not plain, and none of the two, was there before
  have hmem : ∀ x ∈ th.agenda Handler.stmts tid, ¬ x.Plain → (∀ i, x ≠ .removeConnection i) →
      (∀ i, x ≠ .connectDestroyed i) → x ∈ s.agenda tid := by
    intro x hx hplain hcall hqueued
    rw [hag, List.append_assoc, List.mem_append, List.mem_append] at hx
    rcases or_left_comm.mp hx with hx | hx
    · exact hx
    · rcases hnew x (List.mem_append.mpr hx) with hp | ⟨i, hi⟩ | ⟨i, hi⟩
      · exact absurd hp hplain
      · exact absurd hi (hcall i)
      · exact absurd hi (hqueued i)
  have hwas : ∀ x ∈ th.frames tid ++ (th.loops tid).functors, ¬ x.Plain → (∀ i, x ≠ .removeConnection i) →
      x ∈ s.busy tid := by
    intro x hx hplain hcall
    refine (hbusy x hx).resolve_right fun hx => ?_
    rcases hfront x hx with hp | ⟨i, hi⟩
    · exact hplain hp
    · exact hcall i hi
  refine { h with
    batched := hb
    known := fun x hx => ?_
    batch := fun i hi => h.batch i (hi.imp (fun hx => hwas _ hx id (by simp)) (fun hx => hwas _ hx id (by simp)))
    removing := fun i hi => h.removing i (hmem _ hi id (by simp) (by simp))
    tail := fun i => ⟨fun hi => ?_, fun hi => ?_⟩
    owned := fun i hi hne => (h.owned i hi hne).imp_left fun hc => hc.imp (hold _) (Or.imp (hold _) (hold _))
    balance := fun k => ?_
    accepts := fun sid hx => h.accepts sid (hmem _ hx id (by simp) (by simp)) }
  · rw [agenda, hag, List.append_assoc, List.mem_append, List.mem_append] at hx
    rcases or_left_comm.mp hx with hx | hx
    · exact h.known x hx
    · rcases hnew x (List.mem_append.mpr hx) with hp | ⟨i, rfl⟩ | ⟨i, rfl⟩
      · exact hp.made _
      · trivial
      · trivial
  · rcases hfun _ hi with hi | hi
    · exact (h.tail i).1 hi
    · rcases hback _ hi with hp | ⟨j, hj⟩
      · exact hp
      · cases hj
  · rcases hfun _ hi with hi | hi
    · exact (h.tail i).2 hi
    · rcases hback _ hi with hp | ⟨j, hj⟩
      · exact hp
      · cases hj
  · have hzero := count_eq_zero (l := front ++ back) (k := k) fun hx => by
      rcases hnew _ hx with hp | ⟨i, hi⟩ | ⟨i, hi⟩
      · exact hp
      · cases hi
      · cases hi
    have hsame : { s with threads := th }.resets tid k = s.resets tid k := by
      rw [List.map_append, List.sum_append] at hzero
      have hag' : th.agenda Handler.stmts tid = front ++ s.threads.agenda Handler.stmts tid ++ back := hag
      simp only [resets, load, hag', List.map_append, List.sum_append]
      omega
    rw [hsame]
    exact h.balance k

/-- A member calls others; what begins is plain, or a call of `closeCallback_`. -/
theorem Sound.push (h : s.Sound tid) {l : List Stmt} (hl : ∀ x ∈ l, x.Plain ∨ ∃ i, x = .removeConnection i) :
    (s.push tid l).Sound tid := by
  have hag : (s.threads.push tid l).agenda Handler.stmts tid = l ++ s.agenda tid ++ [] := by
    rw [agenda_push, if_pos rfl, List.append_nil]
  refine h.more (batched_push h.batched l) hag hl (by simp) (fun x hx => ?_) fun x hx => .inl hx
  simp only [Threads.push, Function.update_self, List.append_assoc, List.mem_append] at hx
  rcases hx with hx | hx
  · exact .inr hx
  · exact .inl (List.mem_append.mpr hx)

theorem Sound.push_one (h : s.Sound tid) {x : Stmt} (hx : x.Plain ∨ ∃ i, x = .removeConnection i) :
    (s.push tid [x]).Sound tid :=
  h.push fun y hy => by
    rw [List.mem_singleton.mp hy]
    exact hx

/-- Any thread queues a functor that is plain, or `connectDestroyed`. -/
theorem Sound.queue (h : s.Sound tid) (t : ThreadId) {x : Stmt} (hx : x.Plain ∨ ∃ i, x = .connectDestroyed i) :
    { s with threads := s.threads.queueInLoop t tid x }.Sound tid := by
  have hag : (s.threads.queueInLoop t tid x).agenda Handler.stmts tid = [] ++ s.agenda tid ++ [x] := by
    rw [agenda_queueInLoop, if_pos rfl, List.nil_append]
  refine h.more (batched_queueInLoop h.batched x) hag (by simp) (fun y hy => ?_) (fun y hy => .inl ?_) (fun y hy => ?_)
  · rw [List.mem_singleton] at hy
    exact hy ▸ hx
  · simpa [Threads.queueInLoop, busy] using hy
  · rw [functors_queueInLoop, if_pos rfl] at hy
    exact List.mem_append.mp hy

theorem Sound.quit (h : s.Sound tid) (t : ThreadId) : { s with threads := s.threads.quit t tid }.Sound tid := by
  have hag : (s.threads.quit t tid).agenda Handler.stmts tid = [] ++ s.agenda tid ++ [] := by
    rw [agenda_quit, List.nil_append, List.append_nil]
  refine h.more (batched_quit h.batched) hag (by simp) (by simp) (fun y hy => .inl ?_) (fun y hy => .inl ?_)
  · simp only [Threads.quit, Function.update_self] at hy
    split at hy <;> exact hy
  · rwa [functors_quit] at hy

/-- A handler's statements are plain, but for the accept loop of a server that listens. -/
theorem Sound.handler_stmts (h : s.Sound tid) {hd : Handler} (hr : s.Reportable (.channel hd)) {x : Stmt}
    (hx : x ∈ hd.stmts) : x.Plain ∨
    ∃ sid, x = .acceptLoop sid ∧ sid < s.nextId ∧ (s.servers sid).listenning = true := by
  cases hd with
  | acceptor sid =>
    rw [List.mem_singleton.mp hx]
    refine .inr ⟨sid, rfl, ?_⟩
    obtain ⟨c, hc, e, he, hself, -⟩ := hr (.server sid) rfl
    have halive : (s.servers sid).alive = true := by
      by_contra hdead
      simp [chan, hdead] at hc
    have hchan : s.chan (.server sid) = some (s.servers sid).acceptChannel := by simp [chan, halive]
    obtain rfl : (s.servers sid).acceptChannel = c := Option.some.inj (hchan.symm.trans hc)
    refine ⟨h.made (.server sid) halive, ?_⟩
    by_contra hdeaf
    have hnew := h.deaf sid (by simpa using hdeaf)
    exact absurd he (by rw [Option.mem_def, h.registered.epoll_fd_eq_none hchan hnew]; simp)
  | connection i revents =>
    obtain ⟨cb, -, rfl⟩ := List.mem_map.mp hx
    cases cb <;> exact .inl trivial
  | connector k revents =>
    obtain ⟨cb, -, hcb⟩ := List.mem_filterMap.mp hx
    cases cb <;> simp only [connectorStmt, reduceCtorEq, Option.some.injEq] at hcb <;> subst hcb <;> exact .inl trivial
  | timerfd => rw [List.mem_singleton.mp hx]; exact .inl trivial
  | user => rw [List.mem_singleton.mp hx]; exact .inl trivial

/-- A handler does not begin with what `handleClose` and `connectDestroyed` go on to. -/
theorem handler_ne {hd : Handler} (h : stmt ∈ hd.stmts) (i : Id) :
    stmt ≠ .removeConnection i ∧ stmt ≠ .connectDestroyed i ∧ stmt ≠ .removeChannel i := by
  cases hd with
  | connection j revents =>
    obtain ⟨cb, -, rfl⟩ := List.mem_map.mp h
    cases cb <;> simp [connectionStmt]
  | connector k revents =>
    obtain ⟨cb, -, hcb⟩ := List.mem_filterMap.mp h
    cases cb <;> simp only [connectorStmt, reduceCtorEq, Option.some.injEq] at hcb <;> subst hcb <;> simp
  | _ => rw [List.mem_singleton.mp h]; simp

/-- `poll` puts handlers in front of the agenda, and nothing else of the loop's own code changes it. -/
theorem Sound.agenda_loop (h : s.Sound tid) {mv : EventLoop.Move Handler} (hpoll : s.Pollable mv)
    (hadv : s.threads.advance Handler.stmts tid mv = .ok th) :
    ∃ front, th.agenda Handler.stmts tid = front ++ s.agenda tid ∧ ∀ x ∈ front,
      x.Plain ∨ ∃ sid, x = .acceptLoop sid ∧ sid < s.nextId ∧ (s.servers sid).listenning = true := by
  obtain ⟨-, -, -, hag⟩ := agenda_advance h.batched hadv
  rcases hag with ⟨active, rfl, -, -, hag⟩ | ⟨-, hag⟩
  · refine ⟨_, by rw [hag tid, if_pos rfl], fun x hx => ?_⟩
    obtain ⟨task, htask, hx⟩ := List.mem_flatMap.mp hx
    obtain ⟨a, ha, hsome⟩ := List.mem_filterMap.mp htask
    cases a with
    | wakeupChannel => cases hsome
    | channel hd =>
      simp only [Option.some.injEq] at hsome
      subst hsome
      exact h.handler_stmts (hpoll.1 _ ha) hx
  · exact ⟨[], hag tid, by simp⟩

/-- The batch keeps what the loop has begun, or takes what was pending. -/
theorem Sound.batch_loop (h : s.Sound tid) {mv : EventLoop.Move Handler}
    (hadv : s.threads.advance Handler.stmts tid mv = .ok th)
    (hi : .connectDestroyed i ∈ { s with threads := th }.busy tid ∨
      .removeChannel i ∈ { s with threads := th }.busy tid) :
    .connectDestroyed i ∈ s.batchAfter tid mv := by
  obtain ⟨-, hbatch⟩ := batch_advance h.batched hadv
  have hno : .removeChannel i ∉ (s.threads.loops tid).functors ++ (s.threads.loops tid).pendingFunctors := (h.tail i).2
  rcases hbatch with ⟨rfl, hpc, -, hnil, hfun, -⟩ | ⟨-, -, hnil, hfun, -⟩ | ⟨hpc, hpc', -, hsub, -⟩
  · -- the swap: what was pending is the batch
    simp only [busy, hnil, hfun, List.nil_append] at hi
    rw [batchAfter, hpc]
    exact hi.resolve_right fun hx => hno (List.mem_append_right _ hx)
  · simp only [busy, hnil, hfun, List.append_nil, List.not_mem_nil, or_self] at hi
  · have hsame : s.batchAfter tid mv = s.batch := by
      unfold batchAfter
      split
      · split
        · rename_i hp; exact absurd hp hpc
        · rename_i hp; exact absurd hp hpc'
        · rfl
      · rfl
    rw [hsame]
    refine h.batch i (hi.imp ?_ ?_) <;> intro hx <;> rcases hsub _ hx with hx | ⟨hd, hx⟩
    · exact List.mem_append_right _ hx
    · exact absurd rfl (handler_ne hx i).2.1
    · exact List.mem_append_right _ hx
    · exact absurd rfl (handler_ne hx i).2.2

/-- A piece of the loop's own code. -/
theorem Sound.loop (h : s.Sound tid) {mv : EventLoop.Move Handler} (hpoll : s.Pollable mv)
    (hadv : s.threads.advance Handler.stmts tid mv = .ok th) :
    { s with threads := th, batch := s.batchAfter tid mv }.Sound tid := by
  obtain ⟨hb, -, -, -⟩ := agenda_advance h.batched hadv
  obtain ⟨front, hag, hfront⟩ := h.agenda_loop hpoll hadv
  -- a poll or a swap takes nothing off the agenda
  have hold : ∀ x ∈ s.agenda tid, x ∈ th.agenda Handler.stmts tid := fun x hx => by
    rw [hag]
    exact List.mem_append_right _ hx
  -- what it puts there is plain, or the accept loop of a live server
  have hmem : ∀ x ∈ th.agenda Handler.stmts tid, ¬ x.Plain → (∀ sid, x ≠ .acceptLoop sid) →
      x ∈ s.agenda tid := by
    intro x hx hplain hne
    rw [hag] at hx
    refine (List.mem_append.mp hx).resolve_left fun hx => ?_
    rcases hfront x hx with hp | ⟨sid, hsid, -⟩
    · exact hplain hp
    · exact hne sid hsid
  refine { h with
    batched := hb
    known := fun x hx => ?_
    batch := fun i hi => h.batch_loop hadv hi
    removing := fun i hi => h.removing i (hmem _ hi id (by simp))
    tail := fun i => ⟨fun hi => (h.tail i).1 (functors_advance h.batched hadv hi),
      fun hi => (h.tail i).2 (functors_advance h.batched hadv hi)⟩
    owned := fun i hi hne => (h.owned i hi hne).imp_left fun hc => hc.imp (hold _) (Or.imp (hold _) (hold _))
    balance := fun k => ?_
    accepts := fun sid hx => ?_ }
  · rw [agenda, hag] at hx
    rcases List.mem_append.mp hx with hx | hx
    · rcases hfront x hx with hp | ⟨sid, rfl, hlt, -⟩
      · exact hp.made _
      · exact hlt
    · exact h.known x hx
  · have hzero := count_eq_zero (l := front) (k := k) fun hx => by
      rcases hfront _ hx with hp | ⟨sid, hsid, -⟩
      · exact hp
      · cases hsid
    have hag' : th.agenda Handler.stmts tid = front ++ s.threads.agenda Handler.stmts tid := hag
    have hsame : { s with threads := th, batch := s.batchAfter tid mv }.resets tid k = s.resets tid k := by
      simp only [resets, load, hag', List.map_append, List.sum_append]
      omega
    rw [hsame]
    exact h.balance k
  · rw [agenda, hag] at hx
    rcases List.mem_append.mp hx with hx | hx
    · rcases hfront _ hx with hp | ⟨sid', heq, -, hlisten⟩
      · exact hp.elim
      · obtain rfl : sid = sid' := by simpa using heq
        exact hlisten
    · exact h.accepts sid hx

/-! ## Connections -/

theorem chan_of_alive (h : (s.connections i).alive = true) :
    s.chan (.connection i) = some (s.connections i).conn.channel := by
  simp [chan, h]

/-- Another connection `i`, and another poller. -/
def withConnection (s : LoopObjects) (i : Id) (c : Connection) (p : EPoller) : LoopObjects :=
  { s with poller := p, connections := Function.update s.connections i c }

theorem withConnection_cases (s : LoopObjects) (i : Id) (c : Connection) (p : EPoller) (j : Id) :
    j = i ∧ (s.withConnection i c p).connections j = c ∨
      j ≠ i ∧ (s.withConnection i c p).connections j = s.connections j := by
  by_cases hj : j = i
  · subst hj
    exact .inl ⟨rfl, Function.update_self ..⟩
  · exact .inr ⟨hj, Function.update_of_ne hj ..⟩

theorem chan_withConnection (s : LoopObjects) (i : Id) (c : Connection) (p : EPoller) :
    (s.withConnection i c p).chan =
      Function.update s.chan (.connection i) (if c.alive then some c.conn.channel else none) := by
  funext o
  cases o with
  | connection j =>
    by_cases hj : j = i
    · subst hj; simp [chan, withConnection]
    · simp [chan, withConnection, hj]
  | connector k => rfl
  | server sid => rfl

/-- **A connection changes**, and the poller's record of its channel. -/
theorem Sound.connection (h : s.Sound tid) {c : Connection} {p : EPoller} (hmade : c.alive = true → i < s.nextId)
    (hreg : RegisteredBy p (Function.update s.chan (.connection i) (if c.alive then some c.conn.channel else none)))
    (hremoving : .removeChannel i ∈ s.agenda tid → c.conn.state = .kDisconnected)
    (hdown : c.alive = true → c.conn.channel.index = EPoller.kNew →
      c.conn.state = .kDisconnected ∧ c.conn.channel.events = ∅)
    (howned : c.alive = true → c.conn.channel.index ≠ EPoller.kNew → (s.withConnection i c p).Owned tid i)
    (hcreator : ∀ k, c.alive = true → c.creator = .client k → k < s.nextId)
    (hdead : c.alive = false → c.conn.state ≠ .kConnected) : (s.withConnection i c p).Sound tid := by
  constructor
  case batched => exact h.batched
  case registered =>
    rw [chan_withConnection]
    exact hreg
  case made =>
    intro o ho
    cases o with
    | connection j =>
      have hj : ((s.withConnection i c p).connections j).alive = true := ho
      rcases s.withConnection_cases i c p j with ⟨rfl, heq⟩ | ⟨-, heq⟩ <;> rw [heq] at hj
      · exact hmade hj
      · exact h.made (.connection j) hj
    | connector k => exact h.made (.connector k) ho
    | server sid => exact h.made (.server sid) ho
  case clientMade => exact h.clientMade
  case known => exact h.known
  case batch => exact h.batch
  case removing =>
    intro j hj
    rcases s.withConnection_cases i c p j with ⟨rfl, heq⟩ | ⟨-, heq⟩ <;> rw [heq]
    · exact hremoving hj
    · exact h.removing j hj
  case tail => exact h.tail
  case down =>
    intro j
    rcases s.withConnection_cases i c p j with ⟨rfl, heq⟩ | ⟨-, heq⟩ <;> rw [heq]
    · exact hdown
    · exact h.down j
  case owned =>
    intro j hj hne
    rcases s.withConnection_cases i c p j with ⟨rfl, heq⟩ | ⟨-, heq⟩ <;> rw [heq] at hj hne
    · exact howned hj hne
    -- its pointers are as before
    · have hold := h.owned j hj hne
      unfold Owned held orphan at hold ⊢
      rw [heq]
      exact hold
  case creator =>
    intro j
    rcases s.withConnection_cases i c p j with ⟨rfl, heq⟩ | ⟨-, heq⟩ <;> rw [heq]
    · exact hcreator
    · exact h.creator j
  case dead =>
    intro j
    rcases s.withConnection_cases i c p j with ⟨rfl, heq⟩ | ⟨-, heq⟩ <;> rw [heq]
    · exact hdead
    · exact h.dead j
  case balance => exact h.balance
  case connected => exact h.connected
  case retired => exact h.retired
  case accepts => exact h.accepts
  case listens => exact h.listens
  case deaf => exact h.deaf

/-- A connection with the same creator is owned as before, unless it goes down. -/
theorem Sound.owned_withConnection (h : s.Sound tid) {c : Connection} {p : EPoller}
    (hcreator : c.creator = (s.connections i).creator) (halive : (s.connections i).alive = true)
    (hne : (s.connections i).conn.channel.index ≠ EPoller.kNew)
    (hdown : c.conn.state = .kDisconnected → (s.connections i).conn.state = .kDisconnected ∨ s.Closing tid i) :
    (s.withConnection i c p).Owned tid i := by
  have hself : (s.withConnection i c p).connections i = c := Function.update_self ..
  rcases h.owned i halive hne with hc | ⟨hst, hkeep⟩
  · exact .inl hc
  by_cases hd : c.conn.state = .kDisconnected
  · exact .inl ((hdown hd).resolve_left hst)
  · refine .inr ?_
    unfold held orphan at hkeep ⊢
    rw [hself, hcreator]
    exact ⟨hd, hkeep⟩

/-- The record of a channel that nobody touched. -/
theorem update_chan_connection {channel : Channel} (hch : channel = (s.connections i).conn.channel) :
    Function.update s.chan (.connection i) (if (s.connections i).alive then some channel else none) = s.chan := by
  subst hch
  exact Function.update_eq_self (Owner.connection i) s.chan

/-- A member that leaves the channel alone, and does not bring the connection up or down. -/
theorem Sound.setConn_same (h : s.Sound tid) {conn : TcpConnection} (hp : conn.poller = s.poller)
    (hch : conn.channel = (s.connections i).conn.channel)
    (hstate : conn.state = .kDisconnected ↔ (s.connections i).conn.state = .kDisconnected)
    (hup : conn.state = .kConnected → (s.connections i).conn.state = .kConnected) : (s.setConn i conn).Sound tid := by
  refine h.connection (c := { s.connections i with conn := conn }) (h.made (.connection i)) ?_
    (fun hr => hstate.mpr (h.removing i hr)) (fun halive hnew => ?_) (fun halive hne => ?_) (fun k => h.creator i k)
    (fun hdead hst => ?_)
  · show RegisteredBy conn.poller
      (Function.update s.chan _ (if (s.connections i).alive then some conn.channel else none))
    rw [update_chan_connection hch, hp]
    exact h.registered
  · obtain ⟨hdown, hnone⟩ := h.down i halive (hch ▸ hnew)
    exact ⟨hstate.mpr hdown, hch ▸ hnone⟩
  · exact h.owned_withConnection rfl halive (hch ▸ hne) fun hd => .inl (hstate.mp hd)
  · exact h.dead i hdead (hup hst)

/-- A member of a registered connection that changes its mask. It goes down only when it is being closed. -/
theorem Sound.setConn_update (h : s.Sound tid) (halive : (s.connections i).alive = true)
    (hidx : (s.connections i).conn.channel.index ≠ EPoller.kNew) {conn : TcpConnection} {events : Events}
    (hu : s.poller.updateChannel { (s.connections i).conn.channel with events := events } =
      .ok (conn.poller, conn.channel))
    (hstate : (s.connections i).conn.state = .kDisconnected → conn.state = .kDisconnected)
    (hdown : conn.state = .kDisconnected → (s.connections i).conn.state = .kDisconnected ∨ s.Closing tid i) :
    (s.setConn i conn).Sound tid := by
  obtain ⟨-, hidx', hreg⟩ := h.registered.update (chan_of_alive halive) hu
  refine h.connection (c := { s.connections i with conn := conn }) (fun _ => h.made (.connection i) halive) ?_
    (fun hr => hstate (h.removing i hr)) (fun _ hnew => absurd hnew hidx')
    (fun _ _ => h.owned_withConnection rfl halive hidx hdown) (fun k => h.creator i k) (fun hdead => ?_)
  · rw [if_pos halive]
    exact hreg
  · rw [halive] at hdead
    cases hdead

/-- A connection leaves the poller. -/
theorem Sound.setConn_remove (h : s.Sound tid) (halive : (s.connections i).alive = true)
    (hdown : (s.connections i).conn.state = .kDisconnected) (conn : TcpConnection)
    (hr : s.poller.removeChannel (s.connections i).conn.channel = .ok (conn.poller, conn.channel))
    (hstate : conn.state = (s.connections i).conn.state) :
    (s.setConn i conn).Sound tid ∧ conn.channel.index = EPoller.kNew := by
  obtain ⟨hch, hnone, hreg⟩ := h.registered.remove (chan_of_alive halive) hr
  have hnew : conn.channel.index = EPoller.kNew := by rw [hch]
  have hdown' : conn.state = .kDisconnected := hstate.trans hdown
  refine ⟨h.connection (c := { s.connections i with conn := conn }) (fun _ => h.made (.connection i) halive) ?_
    (fun _ => hdown') (fun _ _ => ?_) (fun _ hne => absurd hnew hne) (fun k => h.creator i k) (fun _ hst => ?_), hnew⟩
  · rw [if_pos halive]
    exact hreg
  · refine ⟨hdown', ?_⟩
    show conn.channel.events = ∅
    rw [hch]
    exact hnone
  · have hst' : conn.state = .kConnected := hst
    rw [hdown'] at hst'
    cases hst'

theorem Sound.setCloseCallback (h : s.Sound tid) (i : Id) (cb : CloseCallback) : (s.setCloseCallback i cb).Sound tid := by
  refine h.connection (c := { s.connections i with
      conn := { (s.connections i).conn with closeCallback := true }, closeCallback := cb }) (p := s.poller)
    (h.made (.connection i)) ?_ (h.removing i) (h.down i)
    (fun halive hne => h.owned_withConnection rfl halive hne .inl) (fun k => h.creator i k) (h.dead i)
  show RegisteredBy s.poller
    (Function.update s.chan _ (if (s.connections i).alive then some (s.connections i).conn.channel else none))
  rw [update_chan_connection rfl]
  exact h.registered

/-! ## Servers, clients and users -/

theorem held_server (hcr : (s.connections i).creator = .server sid) :
    s.held i = true ↔ i ∈ (s.servers sid).connections := by
  unfold held
  rw [hcr]
  simp

theorem held_client (hcr : (s.connections i).creator = .client k) :
    s.held i = true ↔ (s.clients k).connection = some i := by
  unfold held
  rw [hcr]
  simp

theorem orphan_server (hcr : (s.connections i).creator = .server sid) : s.orphan i = false := by
  unfold orphan
  rw [hcr]

theorem orphan_client (hcr : (s.connections i).creator = .client k) :
    s.orphan i = true ↔ (s.clients k).alive = false := by
  unfold orphan
  rw [hcr]
  simp

/-- Another server `sid`, and another poller. -/
def withServer (s : LoopObjects) (sid : Id) (server : Server) (p : EPoller) : LoopObjects :=
  { s with poller := p, servers := Function.update s.servers sid server }

theorem withServer_cases (s : LoopObjects) (sid : Id) (server : Server) (p : EPoller) (sid' : Id) :
    sid' = sid ∧ (s.withServer sid server p).servers sid' = server ∨
      sid' ≠ sid ∧ (s.withServer sid server p).servers sid' = s.servers sid' := by
  by_cases hj : sid' = sid
  · subst hj
    exact .inl ⟨rfl, Function.update_self ..⟩
  · exact .inr ⟨hj, Function.update_of_ne hj ..⟩

theorem chan_withServer (s : LoopObjects) (sid : Id) (server : Server) (p : EPoller) :
    (s.withServer sid server p).chan =
      Function.update s.chan (.server sid) (if server.alive then some server.acceptChannel else none) := by
  funext o
  cases o with
  | connection j => rfl
  | connector k => rfl
  | server sid' =>
    by_cases hj : sid' = sid
    · subst hj; simp [chan, withServer]
    · simp [chan, withServer, hj]

/-- **A server changes.** A connection it lets go of is being closed. -/
theorem Sound.server (h : s.Sound tid) (sid : Id) (server : Server) (p : EPoller)
    (hmade : server.alive = true → sid < s.nextId)
    (hreg : RegisteredBy p
      (Function.update s.chan (.server sid) (if server.alive then some server.acceptChannel else none)))
    (hown : ∀ i ∈ (s.servers sid).connections, i ∈ server.connections ∨ s.Closing tid i)
    (hlisten : server.connections ≠ [] → server.listenning = true ∧ sid < s.nextId)
    (haccept : .acceptLoop sid ∈ s.agenda tid → server.listenning = true)
    (hdeaf : server.listenning = false → server.acceptChannel.index = EPoller.kNew) :
    (s.withServer sid server p).Sound tid := by
  constructor
  case batched => exact h.batched
  case registered =>
    rw [chan_withServer]
    exact hreg
  case made =>
    intro o ho
    cases o with
    | connection j => exact h.made (.connection j) ho
    | connector k => exact h.made (.connector k) ho
    | server sid' =>
      have hj : ((s.withServer sid server p).servers sid').alive = true := ho
      rcases s.withServer_cases sid server p sid' with ⟨rfl, heq⟩ | ⟨-, heq⟩ <;> rw [heq] at hj
      · exact hmade hj
      · exact h.made (.server sid') hj
  case clientMade => exact h.clientMade
  case known => exact h.known
  case batch => exact h.batch
  case removing => exact h.removing
  case tail => exact h.tail
  case down => exact h.down
  case owned =>
    intro i hi hne
    rcases h.owned i hi hne with hc | ⟨hst, hheld | horphan⟩
    · exact .inl hc
    · cases hcr : (s.connections i).creator with
      | client k =>
        exact .inr ⟨hst, .inl ((held_client (s := s.withServer sid server p) hcr).mpr ((held_client hcr).mp hheld))⟩
      -- the connections of another server keep it, and those of this one are kept or closing
      | server sid' =>
        have hin := (held_server hcr).mp hheld
        have hnew : i ∈ ((s.withServer sid server p).servers sid').connections ∨ s.Closing tid i := by
          rcases s.withServer_cases sid server p sid' with ⟨rfl, heq⟩ | ⟨-, heq⟩ <;> rw [heq]
          · exact hown i hin
          · exact .inl hin
        rcases hnew with hin' | hc
        · exact .inr ⟨hst, .inl ((held_server (s := s.withServer sid server p) hcr).mpr hin')⟩
        · exact .inl hc
    · exact .inr ⟨hst, .inr horphan⟩
  case creator => exact h.creator
  case dead => exact h.dead
  case balance => exact h.balance
  case connected => exact h.connected
  case retired => exact h.retired
  case accepts =>
    intro sid' hx
    rcases s.withServer_cases sid server p sid' with ⟨rfl, heq⟩ | ⟨-, heq⟩ <;> rw [heq]
    · exact haccept hx
    · exact h.accepts sid' hx
  case listens =>
    intro sid' hne
    rcases s.withServer_cases sid server p sid' with ⟨rfl, heq⟩ | ⟨-, heq⟩ <;> rw [heq] at hne ⊢
    · exact hlisten hne
    · exact h.listens sid' hne
  case deaf =>
    intro sid' hd
    rcases s.withServer_cases sid server p sid' with ⟨rfl, heq⟩ | ⟨-, heq⟩ <;> rw [heq] at hd ⊢
    · exact hdeaf hd
    · exact h.deaf sid' hd

theorem setClient_cases (s : LoopObjects) (k : Id) (client : Client) (k' : Id) :
    k' = k ∧ (s.setClient k client).clients k' = client ∨
      k' ≠ k ∧ (s.setClient k client).clients k' = s.clients k' := by
  by_cases hj : k' = k
  · subst hj
    exact .inl ⟨rfl, Function.update_self ..⟩
  · exact .inr ⟨hj, Function.update_of_ne hj ..⟩

/-- **A client changes.** A connection it lets go of is being closed, or a user has a pointer to it and the client
    dies; and when it dies its connector has no channel, and is stopped or has done its work. -/
theorem Sound.setClient (h : s.Sound tid) {client : Client} (hmade : k < s.nextId)
    (hborn : ∀ i, (s.connections i).alive = true → (s.connections i).creator = .client k →
      (s.clients k).alive = false → client.alive = false)
    (hown : ∀ i, (s.clients k).connection = some i →
      client.connection = some i ∨ s.Closing tid i ∨ client.alive = false ∧ i ∈ s.users)
    (hconn : ∀ i, client.connection = some i → (s.connectors k).state = .kConnected)
    (hretired : client.alive = false → (s.connectors k).channel = none ∧
      ((s.connectors k).connect = false ∨ (s.connectors k).state = .kConnected)) :
    (s.setClient k client).Sound tid := by
  refine { h with
    clientMade := fun k' hk' => ?_
    owned := fun i hi hne => ?_
    connected := fun k' i hi => ?_
    retired := fun k' hd => ?_ }
  · rcases s.setClient_cases k client k' with ⟨rfl, heq⟩ | ⟨-, heq⟩ <;> rw [heq] at hk'
    · exact hmade
    · exact h.clientMade k' hk'
  · rcases h.owned i hi hne with hc | ⟨hst, hkeep⟩
    · exact .inl hc
    cases hcr : (s.connections i).creator with
    | server sid =>
      have hheld : s.held i = true := hkeep.resolve_right fun ho => by
        rw [orphan_server hcr] at ho
        cases ho.1
      exact .inr ⟨hst, .inl ((held_server (s := s.setClient k client) hcr).mpr ((held_server hcr).mp hheld))⟩
    | client k' =>
      have hnew : s.Closing tid i ∨ ((s.setClient k client).clients k').connection = some i ∨
          ((s.setClient k client).clients k').alive = false ∧ i ∈ s.users := by
        rcases s.setClient_cases k client k' with ⟨rfl, heq⟩ | ⟨-, heq⟩ <;> rw [heq]
        · rcases hkeep with hheld | ⟨horphan, hu⟩
          · exact or_left_comm.mp (hown i ((held_client hcr).mp hheld))
          · exact .inr (.inr ⟨hborn i hi hcr ((orphan_client hcr).mp horphan), hu⟩)
        · exact .inr (hkeep.imp (held_client hcr).mp (And.imp_left (orphan_client hcr).mp))
      refine hnew.imp_right fun hkeep => ⟨hst, hkeep.imp ?_ (And.imp_left ?_)⟩
      · exact (held_client (s := s.setClient k client) hcr).mpr
      · exact (orphan_client (s := s.setClient k client) hcr).mpr
  · rcases s.setClient_cases k client k' with ⟨rfl, heq⟩ | ⟨-, heq⟩ <;> rw [heq] at hi
    · exact ⟨hconn i hi, hmade⟩
    · exact h.connected k' i hi
  · rcases s.setClient_cases k client k' with ⟨rfl, heq⟩ | ⟨-, heq⟩ <;> rw [heq] at hd
    · exact hretired hd
    · exact h.retired k' hd

/-- The users' pointers change; one that goes for good was not needed. -/
theorem Sound.users (h : s.Sound tid) {users : List Id}
    (hgone : ∀ i ∈ s.users, i ∉ users → s.orphan i = true →
      s.Closing tid i ∨ (s.connections i).conn.state = .kDisconnected) : { s with users := users }.Sound tid := by
  refine { h with owned := fun i hi hne => ?_ }
  rcases h.owned i hi hne with hc | ⟨hst, hheld | ⟨horphan, hu⟩⟩
  · exact .inl hc
  · exact .inr ⟨hst, .inl hheld⟩
  · by_cases hin : i ∈ users
    · exact .inr ⟨hst, .inr ⟨horphan, hin⟩⟩
    · exact .inl ((hgone i hu hin horphan).resolve_right hst)

theorem Sound.timers (h : s.Sound tid) (timers : List Timer) (nextTimer : Nat) :
    { s with timers := timers, nextTimer := nextTimer }.Sound tid := { h with }

/-! ## Connectors -/

/-- The threads differ only in how often `x` is to come. -/
structure SameBut (tid : ThreadId) (th th' : Threads Handler Stmt) (x : Stmt) : Prop where
  batched : th.Batched → th'.Batched
  agenda : ∀ y, y ≠ x → (y ∈ th'.agenda Handler.stmts tid ↔ y ∈ th.agenda Handler.stmts tid)
  busy : ∀ y ∈ th'.frames tid ++ (th'.loops tid).functors, y ∈ th.frames tid ++ (th.loops tid).functors
  functors : ∀ y ∈ th'.functors tid, y ≠ x → y ∈ th.functors tid
  load : ∀ y, y ≠ x → th'.load Handler.stmts (fun z => if z = y then 1 else 0) tid =
    th.load Handler.stmts (fun z => if z = y then 1 else 0) tid

namespace SameBut

variable {x : Stmt}

theorem refl (th : Threads Handler Stmt) (x : Stmt) : SameBut tid th th x :=
  ⟨id, fun _ _ => Iff.rfl, fun _ hy => hy, fun _ hy _ => hy, fun _ _ => rfl⟩

theorem queue (th : Threads Handler Stmt) (x : Stmt) : SameBut tid th (th.queueInLoop tid tid x) x := by
  refine ⟨fun hb => batched_queueInLoop hb x, fun y hne => ?_, fun y hy => ?_, fun y hy hne => ?_, fun y hne => ?_⟩
  · rw [agenda_queueInLoop, if_pos rfl, List.mem_append, List.mem_singleton]
    exact ⟨fun hy => hy.resolve_right hne, .inl⟩
  · simpa [Threads.queueInLoop] using hy
  · rw [functors_queueInLoop, if_pos rfl, List.mem_append, List.mem_singleton] at hy
    exact hy.resolve_right hne
  · rw [load_queueInLoop, if_pos rfl, if_neg (Ne.symm hne), Nat.add_zero]

theorem pop {th : Threads Handler Stmt} (hp : s.threads.pop tid = some (x, th)) : SameBut tid s.threads th x := by
  obtain ⟨hhead, -⟩ := frames_pop hp
  refine ⟨fun hb => batched_pop hb hp, fun y hne => ?_, fun y hy => ?_, fun y hy _ => functors_pop hp tid ▸ hy,
    fun y hne => ?_⟩
  · rw [agenda_pop hp, if_pos rfl, List.mem_append, List.mem_singleton]
    exact ⟨.inr, fun hy => hy.resolve_left hne⟩
  · rw [hhead, List.cons_append]
    rw [loops_pop hp] at hy
    exact List.mem_cons_of_mem _ hy
  · rw [load_pop hp, if_pos rfl, if_neg (Ne.symm hne), Nat.zero_add]

end SameBut

/-- Another connector `k`, another poller, and other threads. -/
def withConnector (s : LoopObjects) (k : Id) (c : Connector) (p : EPoller) (th : Threads Handler Stmt) : LoopObjects :=
  { s with poller := p, connectors := Function.update s.connectors k c, threads := th }

theorem withConnector_cases (s : LoopObjects) (k : Id) (c : Connector) (p : EPoller) (th : Threads Handler Stmt)
    (k' : Id) : k' = k ∧ (s.withConnector k c p th).connectors k' = c ∨
      k' ≠ k ∧ (s.withConnector k c p th).connectors k' = s.connectors k' := by
  by_cases hj : k' = k
  · subst hj
    exact .inl ⟨rfl, Function.update_self ..⟩
  · exact .inr ⟨hj, Function.update_of_ne hj ..⟩

theorem chan_withConnector (s : LoopObjects) (k : Id) (c : Connector) (p : EPoller) (th : Threads Handler Stmt) :
    (s.withConnector k c p th).chan = Function.update s.chan (.connector k)
      (if s.connectorAlive k ∧ c.state = .kConnecting then c.channel else none) := by
  funext o
  cases o with
  | connection j => rfl
  | connector k' =>
    by_cases hj : k' = k
    · subst hj; simp [chan, withConnector]
    · simp [chan, withConnector, hj]
  | server sid => rfl

/-- **A connector changes**, and whether its `resetChannel` is to come. -/
theorem Sound.connector (h : s.Sound tid) {c : Connector} {p : EPoller} (hth : SameBut tid s.threads th (.resetChannel k))
    (hmade : .resetChannel k ∈ th.agenda Handler.stmts tid → k < s.nextId)
    (hreg : RegisteredBy p (Function.update s.chan (.connector k)
      (if s.connectorAlive k ∧ c.state = .kConnecting then c.channel else none)))
    (hbalance : (s.withConnector k c p th).resets tid k + (decide (c.state = .kConnecting)).toNat =
      c.channel.isSome.toNat)
    (hconn : ∀ i, (s.clients k).connection = some i → c.state = .kConnected)
    (hretired : (s.clients k).alive = false → c.channel = none ∧ (c.connect = false ∨ c.state = .kConnected)) :
    (s.withConnector k c p th).Sound tid := by
  have hmem : ∀ x, x ≠ .resetChannel k → x ∈ th.agenda Handler.stmts tid → x ∈ s.agenda tid :=
    fun x hne hx => (hth.agenda x hne).mp hx
  refine { h with
    batched := hth.batched h.batched
    registered := by rw [chan_withConnector]; exact hreg
    made := fun o ho => h.made o (by cases o <;> exact ho)
    known := fun x hx => ?_
    batch := fun i hi => h.batch i (hi.imp (hth.busy _) (hth.busy _))
    removing := fun i hi => h.removing i (hmem _ (by simp) hi)
    tail := fun i => (h.tail i).imp (mt fun hi => hth.functors _ hi (by simp)) (mt fun hi => hth.functors _ hi (by simp))
    owned := fun i hi hne => (h.owned i hi hne).imp_left ?_
    balance := fun k' => ?_
    connected := fun k' i hi => ?_
    retired := fun k' hd => ?_
    accepts := fun sid hx => h.accepts sid (hmem _ (by simp) hx) }
  · by_cases heq : x = .resetChannel k
    · subst heq
      exact hmade hx
    · exact h.known x (hmem x heq hx)
  · have hkeep : ∀ x, x ≠ .resetChannel k → x ∈ s.agenda tid → x ∈ th.agenda Handler.stmts tid :=
      fun x hne hx => (hth.agenda x hne).mpr hx
    exact Or.imp (hkeep _ (by simp)) (Or.imp (hkeep _ (by simp)) (hkeep _ (by simp)))
  · rcases s.withConnector_cases k c p th k' with ⟨rfl, heq⟩ | ⟨hne, heq⟩ <;> rw [heq]
    · exact hbalance
    · have hload : (s.withConnector k c p th).resets tid k' = s.resets tid k' := hth.load _ (by simpa using hne)
      rw [hload]
      exact h.balance k'
  · obtain ⟨hst, hlt⟩ := h.connected k' i hi
    rcases s.withConnector_cases k c p th k' with ⟨rfl, heq⟩ | ⟨-, heq⟩ <;> rw [heq]
    · exact ⟨hconn i hi, hlt⟩
    · exact ⟨hst, hlt⟩
  · rcases s.withConnector_cases k c p th k' with ⟨rfl, heq⟩ | ⟨-, heq⟩ <;> rw [heq]
    · exact hretired hd
    · exact h.retired k' hd

/-- A connector that is connecting has its channel, and no `resetChannel` is to come. -/
theorem Sound.of_connecting (h : s.Sound tid) (hst : (s.connectors k).state = .kConnecting) :
    s.resets tid k = 0 ∧ (s.connectors k).channel.isSome = true := by
  have hb := h.balance k
  rw [hst] at hb
  cases hch : (s.connectors k).channel with
  | none => simp [hch] at hb
  | some channel =>
    simp [hch] at hb
    exact ⟨hb, rfl⟩

theorem Sound.not_connected (h : s.Sound tid) (hst : (s.connectors k).state ≠ .kConnected) {i : Id} :
    (s.clients k).connection ≠ some i := fun hi => hst (h.connected k i hi).1

/-- A connector that is idle has no channel. -/
theorem Sound.of_idle (h : s.Sound tid) (hidle : s.Idle tid k) : (s.connectors k).channel = none := by
  have hzero : s.resets tid k = 0 := by
    by_contra hne
    exact hidle.2 (mem_of_resets (Nat.pos_of_ne_zero hne))
  have hb := h.balance k
  rw [hzero, decide_eq_false hidle.1] at hb
  cases hch : (s.connectors k).channel with
  | none => rfl
  | some channel => simp [hch] at hb

/-- A connector with a channel has a client. -/
theorem Sound.client_of_channel (h : s.Sound tid) (hch : (s.connectors k).channel.isSome = true) :
    (s.clients k).alive = true := by
  by_contra hdead
  rw [(h.retired k (by simpa using hdead)).1] at hch
  cases hch

/-- A connector that may begin an attempt has a client. -/
theorem Sound.client_of_connect (h : s.Sound tid) (hst : (s.connectors k).state = .kDisconnected)
    (hcon : (s.connectors k).connect = true) : (s.clients k).alive = true := by
  by_contra hdead
  rcases (h.retired k (by simpa using hdead)).2 with hno | hup
  · rw [hcon] at hno
    cases hno
  · rw [hst] at hup
    cases hup

/-- The flags and the timer of a connector, and its state between two attempts. -/
theorem Sound.setConnector (h : s.Sound tid) {c : Connector} (hch : c.channel = (s.connectors k).channel)
    (hst : c.state = .kConnecting ↔ (s.connectors k).state = .kConnecting)
    (hconn : ∀ i, (s.clients k).connection = some i → c.state = .kConnected)
    (hretired : (s.clients k).alive = false → c.connect = false ∨ c.state = .kConnected) :
    (s.setConnector k c).Sound tid := by
  refine h.connector (p := s.poller) (SameBut.refl s.threads _) (h.known _) ?_ ?_ hconn fun hdead =>
    ⟨?_, hretired hdead⟩
  · have hsame : (if s.connectorAlive k = true ∧ c.state = .kConnecting then c.channel else none) =
        s.chan (.connector k) := by
      rw [hch]
      exact if_congr (and_congr_right fun _ => hst) rfl rfl
    rw [hsame, Function.update_eq_self]
    exact h.registered
  · rw [hch, decide_eq_decide.mpr hst]
    exact h.balance k
  · rw [hch]
    exact (h.retired k hdead).1

/-- **An attempt begins**: the connector gets a channel and enters it. -/
theorem Sound.connecting (h : s.Sound tid) (halive : s.connectorAlive k = true)
    (hclient : (s.clients k).alive = true) (hst : (s.connectors k).state = .kDisconnected) {self : Addr}
    {sockfd : Int} (hfresh : ∀ o d, s.chan o = some d → d.fd ≠ sockfd ∧ d.self ≠ self)
    {c : Connector} {p : EPoller}
    (hc : (s.connectors k).connecting s.poller self sockfd = .ok (c, p)) :
    { s.setConnector k c with poller := p }.Sound tid := by
  obtain ⟨channel, hnone, rfl, hu⟩ := Connector.connecting_cases hc
  have hgone : s.chan (.connector k) = none := by simp [chan, hst]
  have hnew := h.registered.create (c := Channel.new self sockfd) hgone rfl hfresh
  obtain ⟨-, -, hreg⟩ := hnew.update (Function.update_self ..) hu
  refine h.connector (SameBut.refl s.threads _) (h.known _) ?_ ?_ (fun i hi => ?_) (fun hdead => ?_)
  · rw [if_pos ⟨halive, rfl⟩]
    rwa [Function.update_idem] at hreg
  · have hb := h.balance k
    rw [hnone, hst] at hb
    have hzero : s.resets tid k = 0 := by simpa using hb
    show s.resets tid k + 1 = 1
    rw [hzero]
  · exact absurd hi (h.not_connected (by rw [hst]; decide))
  · rw [hclient] at hdead
    cases hdead

theorem removeAndResetChannel_cases {sockfd : Int} (hr : s.removeAndResetChannel tid k = .ok (s', sockfd)) :
    ∃ c p, (s.connectors k).removeAndResetChannel s.poller = .ok (c, p, sockfd) ∧
      s' = s.withConnector k c p (s.threads.queueInLoop tid tid (.resetChannel k)) := by
  simp only [removeAndResetChannel, bind_eq_ok, Result.mapFault_eq_ok, Prod.exists, pure_eq_ok, Except.ok.injEq,
    Prod.mk.injEq] at hr
  obtain ⟨c, p, fd, hc, rfl, rfl⟩ := hr
  exact ⟨c, p, hc, rfl⟩

/-- **An attempt ends**: the channel leaves the poller, and with another state it is nobody's. In between,
    with the old state, the channel counts twice. -/
theorem Sound.dismiss (h : s.Sound tid) (halive : s.connectorAlive k = true)
    (hst : (s.connectors k).state = .kConnecting) {sockfd : Int}
    (hr : s.removeAndResetChannel tid k = .ok (s', sockfd)) (state : Connector.States) (hne : state ≠ .kConnecting) :
    (s'.setConnector k { s'.connectors k with state := state }).Sound tid ∧ s'.poller.epoll sockfd = none ∧
      ∀ o d, (s'.setConnector k { s'.connectors k with state := state }).chan o = some d → d.fd ≠ sockfd := by
  obtain ⟨c, p, hc, rfl⟩ := removeAndResetChannel_cases hr
  obtain ⟨channel, channel₁, channel', p₁, hch, rfl, hup, hrem, rfl⟩ := Connector.removeAndResetChannel_cases hc
  have hown : s.chan (.connector k) = some channel := by simp [chan, halive, hst, hch]
  -- `disableAll`, then `remove`
  obtain ⟨-, -, hreg₁⟩ := h.registered.update hown hup
  obtain ⟨hch', -, hreg₂⟩ := hreg₁.remove (Function.update_self ..) hrem
  have hnew : channel'.index = EPoller.kNew := by rw [hch']
  rw [Function.update_idem] at hreg₂
  have hself : Function.update s.chan (.connector k) (some channel') (.connector k) = some channel' :=
    Function.update_self ..
  have hreg₃ := hreg₂.forget (o := .connector k) fun d hd => by
    rw [hself, Option.some.injEq] at hd
    exact hd ▸ hnew
  rw [Function.update_idem] at hreg₃
  -- no other `resetChannel` was on its way during the attempt
  obtain ⟨hzero, -⟩ := h.of_connecting hst
  have hfinal : ∀ c' : Connector, (s.withConnector k c' p
      (s.threads.queueInLoop tid tid (.resetChannel k))).setConnector k { c' with state := state } =
        s.withConnector k { c' with state := state } p (s.threads.queueInLoop tid tid (.resetChannel k)) := by
    intro c'
    unfold withConnector LoopObjects.setConnector
    simp only [Function.update_idem]
  have hget : ∀ c' : Connector, (s.withConnector k c' p
      (s.threads.queueInLoop tid tid (.resetChannel k))).connectors k = c' := fun c' => Function.update_self ..
  -- the two writes to the connector are one
  rw [hget, hfinal]
  have hnone : ∀ ch : Option Channel, (if s.connectorAlive k = true ∧ state = .kConnecting then ch else none) = none :=
    fun ch => if_neg fun hand => hne hand.2
  have hclient : (s.clients k).alive = true := h.client_of_channel (by rw [hch]; rfl)
  refine ⟨?_, hreg₂.epoll_fd_eq_none hself hnew, fun o d hd => ?_⟩
  · refine h.connector (SameBut.queue s.threads _) (fun _ => h.made (.connector k) halive) ?_ ?_ (fun i hi => ?_)
      (fun hdead => ?_)
    · rw [hnone]
      exact hreg₃
    · show (s.threads.queueInLoop tid tid (.resetChannel k)).load Handler.stmts _ tid + _ = 1
      rw [load_queueInLoop, if_pos rfl, if_pos rfl, decide_eq_false hne]
      show s.resets tid k + 1 + 0 = 1
      rw [hzero]
    · exact absurd hi (h.not_connected (by rw [hst]; decide))
    · rw [hclient] at hdead
      cases hdead
  · rw [chan_withConnector, hnone] at hd
    have hne' : o ≠ .connector k := by
      rintro rfl
      rw [Function.update_self] at hd
      cases hd
    rw [Function.update_of_ne hne'] at hd
    exact (hreg₂.fd_ne hself hne' (by rw [Function.update_of_ne hne']; exact hd)).1

/-- `resetChannel` runs. -/
theorem Sound.reset (h : s.Sound tid) (hp : s.threads.pop tid = some (.resetChannel k, th)) :
    ({ s with threads := th }.setConnector k (s.connectors k).resetChannel).Sound tid := by
  have hload := @load_pop _ _ Handler.stmts _ _ tid (fun x => if x = .resetChannel k then 1 else 0) _ hp tid
  rw [if_pos rfl, if_pos rfl] at hload
  -- the channel is there for this statement alone
  have hb := h.balance k
  rw [resets, hload] at hb
  have hle : (s.connectors k).channel.isSome.toNat ≤ 1 := Bool.toNat_le _
  have hst : decide ((s.connectors k).state = .kConnecting) = false := by
    cases hd : decide ((s.connectors k).state = .kConnecting) with
    | false => rfl
    | true => rw [hd, Bool.toNat_true] at hb; omega
  have hmem : .resetChannel k ∈ th.agenda Handler.stmts tid → k < s.nextId := fun hx => by
    refine h.known (.resetChannel k) ?_
    rw [agenda, agenda_pop hp]
    exact List.mem_append_right _ hx
  have hnone : (if s.connectorAlive k = true ∧ (s.connectors k).resetChannel.state = .kConnecting then
      (s.connectors k).resetChannel.channel else none) = s.chan (.connector k) := by
    have hne : ¬ (s.connectorAlive k = true ∧ (s.connectors k).state = .kConnecting) := fun hand =>
      of_decide_eq_false hst hand.2
    exact (if_neg hne).trans (if_neg hne).symm
  refine h.connector (p := s.poller) (SameBut.pop hp) hmem ?_ ?_ (fun i hi => (h.connected k i hi).1)
    (fun hdead => ⟨rfl, (h.retired k hdead).2⟩)
  · rw [hnone, Function.update_eq_self]
    exact h.registered
  · show th.load Handler.stmts _ tid + (decide ((s.connectors k).state = .kConnecting)).toNat = 0
    rw [hst] at hb ⊢
    rw [Bool.toNat_false] at hb ⊢
    omega

end LoopObjects

end Irono
