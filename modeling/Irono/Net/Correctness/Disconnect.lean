import Irono.Net.Correctness.DeadChannels

/-!
# `Net.Correctness.Disconnect` — what `disconnect()` and `stop()` put an end to

`TcpClient::connect_` is read where a connection that has closed may be followed by a new attempt, and
`Connector::connect_` where an attempt begins, is repeated, or has succeeded. `stop()` clears both.
`disconnect()` clears the client's and shuts an existing connection down; it does not reach the connector, and
an attempt that is on, or waits for its retry timer, goes on.

`disconnect_settles`: after either of them at most one more connection is made until `connect()` is called,
that of the attempt at hand, and none after `stop()` or if there was no attempt. There is none while the client
has a connection (`Linked`), before the first `connect()` (`Dormant`), and after `stop()`.
`disconnect_ignored` is an attempt that succeeds after `disconnect()`.

What a step can do to one client is said once, by `Effect`.
-/

namespace Irono

open Transition Threads

namespace LoopObjects

variable (tid : ThreadId)

/-! ## Attempts and connections -/

/-- `startInLoop` of connector `k`, called or by a timer. -/
def Stmt.Starts (k : Id) (x : Stmt) : Prop := x = .startInLoop k ∨ ∃ timerId, x = .timer k timerId

/-- `startInLoop` of connector `k` is to come, now or by a retry timer. -/
def StartsLater (s : LoopObjects) (k : Id) : Prop :=
  (∃ x ∈ s.agenda tid, x.Starts k) ∨ ∃ timerId, .retry k timerId ∈ s.timers

/-- An attempt of connector `k` is on, or is to come. -/
def Attempting (s : LoopObjects) (k : Id) : Prop :=
  (s.connectors k).connect = true ∧
    ((s.connectors k).state = .kConnecting ∨ (s.connectors k).state = .kDisconnected ∧ s.StartsLater tid k)

/-- The client of a connection, if it has one. -/
def Creator.client? : Creator → Option Id
  | .server _ => none
  | .client k => some k

/-- The connections that client `k` has made. -/
def connectionsOf (s : LoopObjects) (k : Id) : List Id :=
  (List.range s.nextId).filter fun i => (s.connections i).creator = .client k

/-- Numbers are given to what is made. -/
structure Numbered (s : LoopObjects) : Prop where
  batched : s.threads.Batched
  client : ∀ k, (s.clients k).alive = true → k < s.nextId
  unmade : ∀ k, s.nextId ≤ k → (s.clients k).connection = none
  connection : ∀ i, s.nextId ≤ i → ∀ k, (s.connections i).creator ≠ .client k

/-- No object is made, and a client's `connect_` and `connection_` are not set. -/
structure NoneMade (s s' : LoopObjects) : Prop where
  batched : s.threads.Batched → s'.threads.Batched
  nextId : s'.nextId = s.nextId
  creator : ∀ i, (s'.connections i).creator = (s.connections i).creator
  alive : ∀ k, (s'.clients k).alive = true → (s.clients k).alive = true
  connect : ∀ k, (s'.clients k).connect = true → (s.clients k).connect = true
  connection : ∀ k, (s'.clients k).connection ≠ none → (s.clients k).connection ≠ none

/-- One object is made, a connection of `client` or nobody's. -/
structure OneMade (client : Option Id) (s s' : LoopObjects) : Prop where
  batched : s.threads.Batched → s'.threads.Batched
  nextId : s'.nextId = s.nextId + 1
  creator : ∀ i, i ≠ s.nextId → (s'.connections i).creator = (s.connections i).creator
  made : ∀ k, (s'.connections s.nextId).creator = .client k ↔ client = some k
  alive : ∀ k, k ≠ s.nextId → (s'.clients k).alive = true → (s.clients k).alive = true
  connect : ∀ k, k ≠ s.nextId → (s'.clients k).connect = true → (s.clients k).connect = true
  connection : ∀ k, client ≠ some k → (s'.clients k).connection ≠ none → (s.clients k).connection ≠ none

/-- Connector `k` stays as it is, but that its `connect_` may be cleared. -/
structure Beside (k : Id) (s s' : LoopObjects) : Prop where
  state : (s'.connectors k).state = (s.connectors k).state
  connect : (s'.connectors k).connect = true → (s.connectors k).connect = true
  starts : s'.StartsLater tid k → s.StartsLater tid k

/-- No object is made, and only connector `but` changes. -/
structure Spares (but : Option Id) (s s' : LoopObjects) : Prop where
  made : NoneMade s s'
  beside : ∀ k, but ≠ some k → Beside tid k s s'

/-- **What a step does** to client `k` and its connector. -/
inductive Effect (l : Label) (k : Id) (s s' : LoopObjects) : Prop
  /-- the client is made -/
  | new (h : k = s.nextId) (hconnect : (s'.connectors k).connect = true → (s.connectors k).connect = true)
  /-- `TcpClient::connect` -/
  | called (h : l = .connect k) (hstate : (s'.connectors k).state = (s.connectors k).state)
  /-- `removeConnection` starts the connector again -/
  | restarted (h : (s.clients k).connect = true) (hheld : (s.clients k).connection ≠ none)
      (hgone : (s'.clients k).connection = none)
  | beside (h : Beside tid k s s') (hmade : s'.connectionsOf k = s.connectionsOf k)
  /-- `startInLoop` makes an attempt, which may have failed at once -/
  | attempt (hconnect : (s.connectors k).connect = true)
      (hstate : (s.connectors k).state = .kDisconnected ∧ s.StartsLater tid k)
      (hmade : s'.connectionsOf k = s.connectionsOf k)
  /-- the attempt ends without a connection -/
  | failed (hstate : (s.connectors k).state = .kConnecting)
      (hconnect : (s'.connectors k).connect = true → (s.connectors k).connect = true)
      (hmade : s'.connectionsOf k = s.connectionsOf k)
  /-- the attempt completes into `newConnection` -/
  | up (hattempt : (s.connectors k).state = .kConnecting ∧ (s.connectors k).connect = true)
      (hstate : (s'.connectors k).state = .kConnected)
      (hmade : s'.connectionsOf k = s.connectionsOf k ++ [s.nextId])

/-- What a step does. -/
structure Outcome (l : Label) (s s' : LoopObjects) : Prop where
  numbered : s'.Numbered
  next : s.nextId ≤ s'.nextId
  connect : ∀ k, (s'.clients k).connect = true → (s.clients k).connect = true ∨ k = s.nextId ∨ l = .connect k
  connection : ∀ k, (s'.clients k).connection ≠ none → (s.clients k).connection ≠ none ∨
    (s.connectors k).connect = true ∧ (s'.connectors k).state = .kConnected
  effect : ∀ k, Effect tid l k s s'

variable {tid} {s s' s₁ s₂ : LoopObjects} {th : Threads Handler Stmt} {stmt : Stmt} {i k sid : Id} {l : Label}
  {a : Answers}

/-! ## What is made -/

theorem NoneMade.refl (s : LoopObjects) : NoneMade s s :=
  ⟨id, rfl, fun _ => rfl, fun _ => id, fun _ => id, fun _ => id⟩

theorem NoneMade.trans (h : NoneMade s s₁) (h' : NoneMade s₁ s₂) : NoneMade s s₂ :=
  ⟨fun hb => h'.batched (h.batched hb), h'.nextId.trans h.nextId, fun i => (h'.creator i).trans (h.creator i),
    fun k hk => h.alive k (h'.alive k hk), fun k hk => h.connect k (h'.connect k hk),
    fun k hk => h.connection k (h'.connection k hk)⟩

/-- A change that leaves the numbers, the connections and the clients alone. -/
theorem NoneMade.same (hbatched : s.threads.Batched → s'.threads.Batched) (hnext : s'.nextId = s.nextId)
    (hconnections : s'.connections = s.connections) (hclients : s'.clients = s.clients) : NoneMade s s' := by
  refine ⟨hbatched, hnext, fun i => ?_, fun k => ?_, fun k => ?_, fun k => ?_⟩
  · rw [hconnections]
  · rw [hclients]
    exact id
  · rw [hclients]
    exact id
  · rw [hclients]
    exact id

theorem NoneMade.numbered (h : NoneMade s s') (hn : s.Numbered) : s'.Numbered := by
  refine ⟨h.batched hn.batched, ?_, ?_, ?_⟩
  · intro k hk
    rw [h.nextId]
    exact hn.client k (h.alive k hk)
  · intro k hk
    rw [h.nextId] at hk
    by_contra hne
    exact h.connection k hne (hn.unmade k hk)
  · intro i hi k
    rw [h.nextId] at hi
    rw [h.creator i]
    exact hn.connection i hi k

/-- A step that makes none leaves each client its connections. -/
theorem NoneMade.connectionsOf (h : NoneMade s s') (k : Id) : s'.connectionsOf k = s.connectionsOf k := by
  unfold LoopObjects.connectionsOf
  rw [h.nextId]
  refine List.filter_congr fun i _ => ?_
  rw [h.creator i]

/-- The new connection has a number of its own. -/
theorem OneMade.numbered {c : Option Id} (h : OneMade c s s') (hn : s.Numbered)
    (hc : ∀ k, c = some k → k < s.nextId) : s'.Numbered := by
  refine ⟨h.batched hn.batched, ?_, ?_, ?_⟩
  · intro k hk
    rw [h.nextId]
    by_cases heq : k = s.nextId
    · exact heq ▸ Nat.lt_succ_self _
    · exact Nat.lt_succ_of_lt (hn.client k (h.alive k heq hk))
  · intro k hk
    rw [h.nextId] at hk
    by_contra hne
    refine h.connection k (fun heq => ?_) hne (hn.unmade k (Nat.le_of_succ_le hk))
    exact absurd (hc k heq) (Nat.not_lt.mpr (Nat.le_of_succ_le hk))
  · intro i hi k
    rw [h.nextId] at hi
    rw [h.creator i (Nat.ne_of_gt hi)]
    exact hn.connection i (Nat.le_of_succ_le hi) k

theorem NoneMade.trans_one {c : Option Id} (h : NoneMade s s₁) (h' : OneMade c s₁ s₂) : OneMade c s s₂ := by
  refine ⟨fun hb => h'.batched (h.batched hb), ?_, fun i hi => ?_, fun k => ?_, fun k hk hk' => ?_,
    fun k hk hk' => ?_, fun k hk hk' => h.connection k (h'.connection k hk hk')⟩
  · rw [h'.nextId, h.nextId]
  · rw [← h.nextId] at hi
    exact (h'.creator i hi).trans (h.creator i)
  · rw [← h.nextId]
    exact h'.made k
  · rw [← h.nextId] at hk
    exact h.alive k (h'.alive k hk hk')
  · rw [← h.nextId] at hk
    exact h.connect k (h'.connect k hk hk')

theorem OneMade.trans_none {c : Option Id} (h : OneMade c s s₁) (h' : NoneMade s₁ s₂) : OneMade c s s₂ := by
  refine ⟨fun hb => h'.batched (h.batched hb), h'.nextId.trans h.nextId, fun i hi => ?_, fun k => ?_,
    fun k hk hk' => h.alive k hk (h'.alive k hk'), fun k hk hk' => h.connect k hk (h'.connect k hk'),
    fun k hk hk' => h.connection k hk (h'.connection k hk')⟩
  · exact (h'.creator i).trans (h.creator i hi)
  · rw [h'.creator]
    exact h.made k

/-- The client whose connection is made sets its `connection_`. -/
theorem OneMade.setConnection (h : OneMade (some k) s s') (connection : Option Id) :
    OneMade (some k) s (s'.setClient k { s'.clients k with connection := connection }) := by
  have hclient : ∀ k', k' = k ∨ (s'.setClient k { s'.clients k with connection := connection }).clients k' =
      s'.clients k' := fun k' => or_iff_not_imp_left.mpr fun hk => Function.update_of_ne hk ..
  have hself : (s'.setClient k { s'.clients k with connection := connection }).clients k =
      { s'.clients k with connection := connection } := Function.update_self ..
  refine ⟨h.batched, h.nextId, h.creator, h.made, fun k' hk => ?_, fun k' hk => ?_, fun k' hk => ?_⟩
  · rcases hclient k' with rfl | hsame
    · rw [hself]
      exact h.alive k' hk
    · rw [hsame]
      exact h.alive k' hk
  · rcases hclient k' with rfl | hsame
    · rw [hself]
      exact h.connect k' hk
    · rw [hsame]
      exact h.connect k' hk
  · rcases hclient k' with rfl | hsame
    · exact absurd rfl hk
    · rw [hsame]
      exact h.connection k' hk

/-- A step that makes one gives it to its creator. -/
theorem OneMade.connectionsOf {c : Option Id} (h : OneMade c s s') (k : Id) :
    s'.connectionsOf k = s.connectionsOf k ++ (if c = some k then [s.nextId] else []) := by
  -- below the new number nothing has changed
  have hold : (List.range s.nextId).filter (fun i => (s'.connections i).creator = .client k) =
      s.connectionsOf k := by
    refine List.filter_congr fun i hi => ?_
    rw [h.creator i (Nat.ne_of_lt (List.mem_range.mp hi))]
  unfold LoopObjects.connectionsOf at hold ⊢
  rw [h.nextId, List.range_succ, List.filter_append, hold]
  congr 1
  -- and the new connection counts for its client
  by_cases hc : c = some k
  · rw [if_pos hc]
    exact List.filter_cons_of_pos (by simpa using (h.made k).mpr hc)
  · rw [if_neg hc]
    exact List.filter_cons_of_neg (by simpa using fun hk => hc ((h.made k).mp hk))

/-! ## What leaves a connector alone -/

theorem Beside.refl (k : Id) (s : LoopObjects) : Beside tid k s s := ⟨rfl, id, id⟩

theorem Beside.trans (h : Beside tid k s s₁) (h' : Beside tid k s₁ s₂) : Beside tid k s s₂ :=
  ⟨h'.state.trans h.state, fun hc => h.connect (h'.connect hc), fun hs => h.starts (h'.starts hs)⟩

/-- No new `startInLoop`, and no new retry timer. -/
theorem Beside.of (hstate : (s'.connectors k).state = (s.connectors k).state)
    (hconnect : (s'.connectors k).connect = true → (s.connectors k).connect = true)
    (hagenda : ∀ x ∈ s'.agenda tid, x.Starts k → s.StartsLater tid k)
    (htimers : ∀ timerId, .retry k timerId ∈ s'.timers → .retry k timerId ∈ s.timers) : Beside tid k s s' := by
  refine ⟨hstate, hconnect, ?_⟩
  -- what is to start is on the agenda, or waits for its timer
  rintro (⟨x, hx, hstarts⟩ | ⟨timerId, ht⟩)
  · exact hagenda x hx hstarts
  · exact .inr ⟨timerId, htimers timerId ht⟩

/-- A change that is not to connector `k`, the threads or the timers. -/
theorem Beside.frame (hcon : s'.connectors k = s.connectors k) (hth : s'.threads = s.threads)
    (htimers : s'.timers = s.timers) : Beside tid k s s' := by
  refine Beside.of (by rw [hcon]) (by rw [hcon]; exact id) (fun x hx hs => .inl ⟨x, ?_, hs⟩)
    fun timerId ht => htimers ▸ ht
  unfold agenda at hx ⊢
  rwa [hth] at hx

theorem Beside.push (h : Beside tid k s s') {l : List Stmt} (hl : ∀ x ∈ l, ¬ x.Starts k) :
    Beside tid k s (s'.push tid l) := by
  refine h.trans (Beside.of rfl id (fun x hx hs => ?_) fun _ => id)
  rw [agenda, LoopObjects.push, agenda_push, if_pos rfl] at hx
  rcases List.mem_append.mp hx with hx | hx
  · exact absurd hs (hl x hx)
  · exact .inl ⟨x, hx, hs⟩

theorem Beside.queue (h : Beside tid k s s') (t : ThreadId) {x : Stmt} (hx : ¬ x.Starts k) :
    Beside tid k s { s' with threads := s'.threads.queueInLoop t tid x } := by
  refine h.trans (Beside.of rfl id (fun y hy hs => ?_) fun _ => id)
  rw [agenda, agenda_queueInLoop, if_pos rfl] at hy
  rcases List.mem_append.mp hy with hy | hy
  · exact .inl ⟨y, hy, hs⟩
  · exact absurd (List.mem_singleton.mp hy ▸ hs) hx

theorem Beside.quit (s : LoopObjects) (t : ThreadId) :
    Beside tid k s { s with threads := s.threads.quit t tid } := by
  refine Beside.of rfl id (fun x hx hs => .inl ⟨x, ?_, hs⟩) fun _ => id
  rwa [agenda, agenda_quit] at hx

/-- The statement at hand is done. -/
theorem Beside.pop (hp : s.threads.pop tid = some (stmt, th)) : Beside tid k s { s with threads := th } := by
  refine Beside.of rfl id (fun x hx hs => .inl ⟨x, ?_, hs⟩) fun _ => id
  rw [agenda_of_pop hp]
  exact List.mem_cons_of_mem _ hx

/-- The statement at hand is still to come. -/
theorem startsLater_of_pop (hp : s.threads.pop tid = some (stmt, th)) (hs : stmt.Starts k) :
    s.StartsLater tid k := by
  refine .inl ⟨stmt, ?_, hs⟩
  rw [agenda_of_pop hp]
  exact List.mem_cons_self

/-- No handler begins with a start of a connector. -/
theorem not_starts_of_handler {hd : Handler} (h : stmt ∈ hd.stmts) (k : Id) : ¬ stmt.Starts k := by
  rintro (rfl | ⟨timerId, rfl⟩)
  all_goals
    cases hd with
    | connection i revents =>
      obtain ⟨cb, -, hcb⟩ := List.mem_map.mp h
      cases cb <;> cases hcb
    | connector k revents =>
      obtain ⟨cb, -, hcb⟩ := List.mem_filterMap.mp h
      cases cb <;> cases hcb
    | _ => cases List.mem_singleton.mp h

/-- The loop's own code begins handlers, and functors that were on the agenda. -/
theorem Beside.advance {mv : EventLoop.Move Handler} (hb : s.threads.Batched)
    (hadv : s.threads.advance Handler.stmts tid mv = .ok th) :
    Beside tid k s { s with threads := th, batch := s.batchAfter tid mv } := by
  refine Beside.of rfl id (fun x hx hs => .inl ⟨x, ?_, hs⟩) fun _ => id
  obtain ⟨-, -, -, hag⟩ := agenda_advance hb hadv
  rcases hag with ⟨active, -, -, -, hag⟩ | ⟨-, hag⟩
  · -- `poll` puts the reported handlers in front
    have hx' : x ∈ th.agenda Handler.stmts tid := hx
    rw [hag tid, if_pos rfl] at hx'
    refine (List.mem_append.mp hx').resolve_left fun hin => ?_
    obtain ⟨task, htask, hin⟩ := List.mem_flatMap.mp hin
    obtain ⟨e, -, hsome⟩ := List.mem_filterMap.mp htask
    cases e with
    | wakeupChannel => cases hsome
    | channel hd =>
      obtain rfl := Option.some.inj hsome
      exact not_starts_of_handler hin k hs
  · have hx' : x ∈ th.agenda Handler.stmts tid := hx
    rwa [hag tid] at hx'

/-! ## What a statement does -/

section Spares

variable {but : Option Id}

theorem creator_update {c : Connection} (hc : c.creator = (s.connections i).creator) (j : Id) :
    (Function.update s.connections i c j).creator = (s.connections j).creator := by
  by_cases hj : j = i
  · subst hj
    rw [Function.update_self, hc]
  · rw [Function.update_of_ne hj]

theorem Spares.refl (s : LoopObjects) : Spares tid but s s := ⟨.refl s, fun k _ => .refl k s⟩

theorem Spares.trans (h : Spares tid but s s₁) (h' : Spares tid but s₁ s₂) : Spares tid but s s₂ :=
  ⟨h.made.trans h'.made, fun k hk => (h.beside k hk).trans (h'.beside k hk)⟩

/-- A change that is not to a connector, the threads or the timers. -/
theorem Spares.frame (hmade : NoneMade s s') (hcon : s'.connectors = s.connectors) (hth : s'.threads = s.threads)
    (htimers : s'.timers = s.timers) : Spares tid but s s' :=
  ⟨hmade, fun k _ => .frame (congrFun hcon k) hth htimers⟩

theorem Spares.push (h : Spares tid but s s') {l : List Stmt}
    (hl : ∀ x ∈ l, ∀ k, but ≠ some k → ¬ x.Starts k) : Spares tid but s (s'.push tid l) :=
  ⟨h.made.trans (.same (fun hb => batched_push hb l) rfl rfl rfl),
    fun k hk => (h.beside k hk).push fun x hx => hl x hx k hk⟩

theorem Spares.queue (h : Spares tid but s s') (t : ThreadId) {x : Stmt} (hx : ∀ k, ¬ x.Starts k) :
    Spares tid but s { s' with threads := s'.threads.queueInLoop t tid x } :=
  ⟨h.made.trans (.same (fun hb => batched_queueInLoop hb x) rfl rfl rfl),
    fun k hk => (h.beside k hk).queue t (hx k)⟩

theorem Spares.pop (hp : s.threads.pop tid = some (stmt, th)) : Spares tid but s { s with threads := th } :=
  ⟨.same (fun hb => batched_pop hb hp) rfl rfl rfl, fun _ _ => .pop hp⟩

theorem Spares.setConn (s : LoopObjects) (i : Id) (conn : TcpConnection) : Spares tid but s (s.setConn i conn) :=
  .frame ⟨id, rfl, creator_update rfl, fun _ => id, fun _ => id, fun _ => id⟩ rfl rfl rfl

theorem Spares.setCloseCallback (s : LoopObjects) (i : Id) (cb : CloseCallback) :
    Spares tid but s (s.setCloseCallback i cb) :=
  .frame ⟨id, rfl, creator_update rfl, fun _ => id, fun _ => id, fun _ => id⟩ rfl rfl rfl

/-- A client that is neither made nor called: its `connect_` and `connection_` are at most cleared. -/
theorem Spares.setClient (s : LoopObjects) (k : Id) {client : Client}
    (halive : client.alive = true → (s.clients k).alive = true)
    (hconnect : client.connect = true → (s.clients k).connect = true)
    (hconnection : client.connection ≠ none → (s.clients k).connection ≠ none) :
    Spares tid but s (s.setClient k client) := by
  refine .frame ⟨id, rfl, fun _ => rfl, fun k' => ?_, fun k' => ?_, fun k' => ?_⟩ rfl rfl rfl
  all_goals
    by_cases hk : k' = k
    · subst hk
      rw [setClient_clients]
      assumption
    · have hsame : (s.setClient k client).clients k' = s.clients k' := Function.update_of_ne hk ..
      rw [hsame]
      exact id

theorem Spares.setServer (s : LoopObjects) (sid : Id) (server : Server) : Spares tid but s (s.setServer sid server) :=
  .frame (.same id rfl rfl rfl) rfl rfl rfl

/-- A change of a connector spares the others. -/
theorem Spares.setConnector (s : LoopObjects) (k : Id) (c : Connector) :
    Spares tid (some k) s (s.setConnector k c) := by
  refine ⟨.same id rfl rfl rfl, fun k' hk => .frame ?_ rfl rfl⟩
  exact Function.update_of_ne (fun heq : k' = k => hk (congrArg some heq.symm)) ..

/-- A connector whose `connect_` is at most cleared. -/
theorem Spares.keepConnector (s : LoopObjects) (k : Id) {c : Connector}
    (hstate : c.state = (s.connectors k).state) (hconnect : c.connect = true → (s.connectors k).connect = true) :
    Spares tid but s (s.setConnector k c) := by
  have hothers : Spares tid (some k) s (s.setConnector k c) := .setConnector s k c
  refine ⟨hothers.made, fun k' _ => ?_⟩
  by_cases hk : k' = k
  · subst hk
    refine .of ?_ ?_ (fun x hx hs => .inl ⟨x, hx, hs⟩) fun _ => id
    · rwa [setConnector_connectors]
    · rwa [setConnector_connectors]
  · exact hothers.beside k' fun heq => hk (Option.some.inj heq).symm

theorem Spares.close (s : LoopObjects) (sockfd : Int) : Spares tid but s (s.close sockfd) :=
  .frame (.same id rfl rfl rfl) rfl rfl rfl

/-- Timers go, or one of no `startInLoop` comes. -/
theorem Spares.timers (s : LoopObjects) {timers : List Timer}
    (h : ∀ k timerId, .retry k timerId ∈ timers → .retry k timerId ∈ s.timers) :
    Spares tid but s { s with timers := timers } :=
  ⟨.same id rfl rfl rfl, fun k _ =>
    .of rfl id (fun x hx hs => .inl ⟨x, hx, hs⟩) fun timerId => h k timerId⟩

theorem Spares.cancel (s : LoopObjects) (k : Id) (timerId : Option Nat) : Spares tid but s (s.cancel k timerId) := by
  cases timerId with
  | none => exact .refl s
  | some timerId => exact .timers s fun _ _ => List.mem_of_mem_erase

theorem Spares.stopConnector (s : LoopObjects) (k : Id) : Spares tid but s (s.stopConnector k) :=
  (Spares.keepConnector s k (c := { s.connectors k with connect := false }) rfl (fun h => by cases h)).trans
    (.cancel _ k _)

/-- `runAfter` with a `startInLoop`. -/
theorem Spares.runAfter (s : LoopObjects) (k timerId nextTimer : Nat) :
    Spares tid (some k) s { s with timers := s.timers ++ [.retry k timerId], nextTimer := nextTimer } := by
  refine ⟨.same id rfl rfl rfl, fun k' hk' => ?_⟩
  refine .of rfl id (fun x hx hs => .inl ⟨x, hx, hs⟩) fun timerId' ht => ?_
  refine (List.mem_append.mp ht).resolve_right fun hin => ?_
  rw [List.mem_singleton, Timer.retry.injEq] at hin
  exact hk' (congrArg some hin.1.symm)

/-- `retry` spares the other clients, and keeps the flag. -/
theorem Spares.retry (tid : ThreadId) (s : LoopObjects) (k : Id) (sockfd : Int) :
    Spares tid (some k) s (s.retry k sockfd) ∧
    ((s.retry k sockfd).connectors k).connect = (s.connectors k).connect := by
  have h₀ : Spares tid (some k) s ((s.close sockfd).setConnector k { s.connectors k with state := .kDisconnected }) :=
    (Spares.close s sockfd).trans (.setConnector _ k _)
  have hsame : (((s.close sockfd).setConnector k { s.connectors k with state := .kDisconnected }).connectors
      k).connect = (s.connectors k).connect := by
    rw [setConnector_connectors]
  unfold LoopObjects.retry
  generalize (s.close sockfd).setConnector k { s.connectors k with state := .kDisconnected } = s₁ at h₀ hsame
  dsimp only
  split
  · have h₁ : Spares tid (some k) s₁ (s₁.setConnector k ((s₁.connectors k).setTimer s₁.nextTimer)) :=
      .setConnector s₁ k _
    refine ⟨h₀.trans (h₁.trans (.runAfter _ k s₁.nextTimer (s₁.nextTimer + 1))), ?_⟩
    show ((s₁.setConnector k ((s₁.connectors k).setTimer s₁.nextTimer)).connectors k).connect = _
    rw [setConnector_connectors]
    exact hsame
  · exact ⟨h₀, hsame⟩

end Spares

/-- `startInLoop` finds the connector disconnected, and does nothing unless `connect_`. -/
theorem startInLoop_spares (tid : ThreadId) (hs : s.startInLoop k a = .ok s') : Spares tid (some k) s s' ∧
    (s.connectors k).state = .kDisconnected ∧ (s' = s ∨ (s.connectors k).connect = true) := by
  simp only [startInLoop, bind_eq_ok, require_eq_ok] at hs
  obtain ⟨-, hstate, hs⟩ := hs
  split at hs
  · rename_i hconnect
    refine ⟨?_, hstate, .inr hconnect⟩
    simp only [connect, bind_eq_ok] at hs
    obtain ⟨-, -, hs⟩ := hs
    -- the attempt is on, or has failed for now, or for good
    split at hs
    · simp only [bind_eq_ok, Prod.exists, pure_eq_ok, Except.ok.injEq] at hs
      obtain ⟨c, p, -, rfl⟩ := hs
      exact (Spares.setConnector s k c).trans (.frame (.same id rfl rfl rfl) rfl rfl rfl)
    · simp only [pure_eq_ok, Except.ok.injEq] at hs
      subst hs
      exact (Spares.retry tid s k a.sockfd).1
    · simp only [pure_eq_ok, Except.ok.injEq] at hs
      subst hs
      exact .close s a.sockfd
  · simp only [pure_eq_ok, Except.ok.injEq] at hs
    subst hs
    exact ⟨.refl s, hstate, .inl rfl⟩

/-- The end of an attempt spares the other clients. -/
theorem removeAndResetChannel_spares {sockfd : Int} (hr : s.removeAndResetChannel tid k = .ok (s', sockfd)) :
    Spares tid (some k) s s' ∧ (s'.connectors k).connect = (s.connectors k).connect := by
  obtain ⟨c, p, hc, rfl⟩ := removeAndResetChannel_cases hr
  obtain ⟨-, -, channel, -, -, rfl, -⟩ := Connector.removeAndResetChannel_cases hc
  have h₀ : Spares tid (some k) s (s.setConnector k { s.connectors k with channel := some channel }) :=
    .setConnector s k _
  have h₁ : Spares tid (some k) s
      { s.setConnector k { s.connectors k with channel := some channel } with poller := p } :=
    h₀.trans (.frame (.same id rfl rfl rfl) rfl rfl rfl)
  refine ⟨h₁.queue tid (x := .resetChannel k) fun k' => by simp [Stmt.Starts], ?_⟩
  show (Function.update s.connectors k { s.connectors k with channel := some channel } k).connect = _
  rw [Function.update_self]

/-- `handleError` spares the other clients, and keeps the flag. -/
theorem connectorHandleError_spares (hs : s.connectorHandleError tid k = .ok s') : Spares tid (some k) s s' ∧
    (s.connectors k).state = .kConnecting ∧ (s'.connectors k).connect = (s.connectors k).connect := by
  simp only [connectorHandleError, bind_eq_ok, require_eq_ok, Prod.exists, pure_eq_ok, Except.ok.injEq] at hs
  obtain ⟨-, hstate, s₁, sockfd, hr, rfl⟩ := hs
  obtain ⟨h₁, hconnect⟩ := removeAndResetChannel_spares hr
  obtain ⟨h₂, hconnect'⟩ := Spares.retry tid s₁ k sockfd
  exact ⟨h₁.trans h₂, hstate, hconnect'.trans hconnect⟩

/-- `newConnection` makes one connection, and starts no attempt. -/
theorem newConnection_made {sockfd : Int} {creator : Creator} {cb : CloseCallback} {next : List Stmt}
    (hnext : ∀ x ∈ next, ∀ k, ¬ x.Starts k) (hs : s.newConnection tid a sockfd creator cb next = .ok s') :
    OneMade creator.client? s s' ∧ (∀ k, Beside tid k s s') ∧ s'.connectors = s.connectors ∧
      s'.clients = s.clients := by
  obtain ⟨conn, events, -, -, -, rfl⟩ := newConnection_cases hs
  refine ⟨⟨fun hb => batched_push hb _, rfl, fun i hi => ?_, fun k => ?_, fun _ _ => id, fun _ _ => id,
    fun _ _ => id⟩, fun k => ?_, rfl, rfl⟩
  · show (Function.update s.connections s.nextId ⟨conn, creator, cb, true⟩ i).creator = _
    rw [Function.update_of_ne hi]
  · show (Function.update s.connections s.nextId ⟨conn, creator, cb, true⟩ s.nextId).creator = _ ↔ _
    rw [Function.update_self]
    cases creator with
    | server sid => simp [Creator.client?]
    | client k' => simp [Creator.client?]
  · apply Beside.push
    · exact .frame rfl rfl rfl
    · intro x hx
      rcases List.mem_cons.mp hx with rfl | hx
      · simp [Stmt.Starts]
      · exact hnext x hx k

/-- The end of an attempt whose socket is writable. -/
theorem connectorHandleWrite_cases (hs : s.connectorHandleWrite tid k a = .ok s') :
    s' = s ∨
    ((s.connectors k).state = .kConnecting ∧ Spares tid (some k) s s' ∧
      (s'.connectors k).connect = (s.connectors k).connect) ∨
    ((s.connectors k).state = .kConnecting ∧ (s.connectors k).connect = true ∧ (s.clients k).alive = true ∧
      OneMade (some k) s s' ∧ (∀ k', k' ≠ k → Beside tid k' s s') ∧ (s'.connectors k).state = .kConnected) := by
  unfold connectorHandleWrite at hs
  split at hs
  · rename_i hstate
    simp only [bind_eq_ok, Prod.exists] at hs
    obtain ⟨s₁, sockfd, hr, hs⟩ := hs
    obtain ⟨h₁, hconnect₁⟩ := removeAndResetChannel_spares hr
    split at hs
    · -- an error of the socket, or a connection to itself
      simp only [pure_eq_ok, Except.ok.injEq] at hs
      subst hs
      obtain ⟨h₂, hconnect₂⟩ := Spares.retry tid s₁ k sockfd
      exact .inr (.inl ⟨hstate, h₁.trans h₂, hconnect₂.trans hconnect₁⟩)
    · have h₂ := h₁.trans (.setConnector s₁ k { s₁.connectors k with state := .kConnected })
      have hstate₂ := congrArg Connector.state
        (setConnector_connectors s₁ k { s₁.connectors k with state := .kConnected })
      have hconnect₂ := (congrArg Connector.connect
        (setConnector_connectors s₁ k { s₁.connectors k with state := .kConnected })).trans hconnect₁
      generalize s₁.setConnector k { s₁.connectors k with state := .kConnected } = s₂
        at h₂ hstate₂ hconnect₂ hs
      split at hs
      · rename_i hconnect
        simp only [bind_eq_ok, require_eq_ok, pure_eq_ok, Except.ok.injEq] at hs
        obtain ⟨-, halive, s₃, hnew, rfl⟩ := hs
        obtain ⟨hone, hbeside, hcon, hclients⟩ := newConnection_made (by simp) hnew
        have hone' : OneMade (some k) s₂ s₃ := hone
        refine .inr (.inr ⟨hstate, hconnect₂ ▸ hconnect, h₂.made.alive k halive, ?_, fun k' hk' => ?_, ?_⟩)
        · have hset := hone'.setConnection (some s₂.nextId)
          rw [hclients] at hset ⊢
          exact h₂.made.trans_one hset
        · exact ((h₂.beside k' fun heq => hk' (Option.some.inj heq).symm).trans (hbeside k')).trans
            (.frame rfl rfl rfl)
        · exact (congrArg Connector.state (congrFun hcon k)).trans hstate₂
      · -- `stop()` has been called in between, and the socket is closed
        simp only [pure_eq_ok, Except.ok.injEq] at hs
        subst hs
        exact .inr (.inl ⟨hstate, h₂.trans (.close s₂ sockfd), hconnect₂⟩)
  · -- `handleError` of the same event came first
    simp only [bind_eq_ok, pure_eq_ok, Except.ok.injEq] at hs
    obtain ⟨-, -, rfl⟩ := hs
    exact .inl rfl

/-! ## What a step does -/

/-- A step that changes connector `k` at most. -/
theorem Outcome.of_spares (hn : s.Numbered) (h : Spares tid (some k) s s') (heff : Effect tid l k s s') :
    Outcome tid l s s' := by
  refine ⟨h.made.numbered hn, h.made.nextId.ge, fun k' hk' => .inl (h.made.connect k' hk'),
    fun k' hk' => .inl (h.made.connection k' hk'), fun k' => ?_⟩
  by_cases hk : k' = k
  · exact hk ▸ heff
  · exact .beside (h.beside k' fun heq => hk (Option.some.inj heq).symm) (h.made.connectionsOf k')

/-- A step that changes no connector. -/
theorem Outcome.of_none (hn : s.Numbered) (h : Spares tid none s s') : Outcome tid l s s' :=
  ⟨h.made.numbered hn, h.made.nextId.ge, fun k hk => .inl (h.made.connect k hk),
    fun k hk => .inl (h.made.connection k hk), fun k => .beside (h.beside k (by simp)) (h.made.connectionsOf k)⟩

/-- A step that makes an object. -/
theorem Outcome.of_one (hn : s.Numbered) {client : Option Id} (h : OneMade client s s')
    (hbeside : ∀ k, k ≠ s.nextId → client ≠ some k → Beside tid k s s')
    (hnew : (s'.connectors s.nextId).connect = true → (s.connectors s.nextId).connect = true)
    (hup : ∀ k, client = some k → k < s.nextId ∧ ((s.connectors k).state = .kConnecting ∧
      (s.connectors k).connect = true) ∧ (s'.connectors k).state = .kConnected) : Outcome tid l s s' := by
  refine ⟨h.numbered hn fun k hk => (hup k hk).1, by rw [h.nextId]; exact Nat.le_succ _, fun k hk => ?_,
    fun k hk => ?_, fun k => ?_⟩
  · by_cases heq : k = s.nextId
    · exact .inr (.inl heq)
    · exact .inl (h.connect k heq hk)
  · by_cases hc : client = some k
    · obtain ⟨-, ⟨-, hconnect⟩, hstate⟩ := hup k hc
      exact .inr ⟨hconnect, hstate⟩
    · exact .inl (h.connection k hc hk)
  · have hmade := h.connectionsOf k
    by_cases heq : k = s.nextId
    · subst heq
      exact .new rfl hnew
    · by_cases hk : client = some k
      · rw [if_pos hk] at hmade
        exact .up (hup k hk).2.1 (hup k hk).2.2 hmade
      · rw [if_neg hk, List.append_nil] at hmade
        exact .beside (hbeside k heq hk) hmade

/-- `startInLoop` of connector `k` is the statement at hand. -/
theorem outcome_startInLoop (hn : s.Numbered) (hp : s.threads.pop tid = some (stmt, th)) (hstarts : stmt.Starts k)
    (hs : { s with threads := th }.startInLoop k a = .ok s') : Outcome tid l s s' := by
  obtain ⟨h₁, hstate, hsame⟩ := startInLoop_spares tid hs
  have h : Spares tid (some k) s s' := (Spares.pop hp).trans h₁
  refine .of_spares hn h ?_
  rcases hsame with rfl | hconnect
  · exact .beside (.pop hp) (h.made.connectionsOf k)
  · exact .attempt hconnect ⟨hstate, startsLater_of_pop hp hstarts⟩ (h.made.connectionsOf k)

/-- `closeCallback_` starts no attempt, or one of a client whose `connect_` is set. -/
theorem removeConnection_spares {cb : CloseCallback} (hs : s.removeConnection tid i cb = .ok s') :
    Spares tid none s s' ∨ ∃ k, Spares tid (some k) s s' ∧ (s.clients k).connect = true ∧
      (s.clients k).connection ≠ none ∧ (s'.clients k).connection = none := by
  have hq : ∀ but, Spares tid but s (s.queueInLoop tid (.connectDestroyed i)) :=
    fun but => (Spares.refl s).queue tid (by simp [Stmt.Starts])
  cases cb with
  | empty => cases hs
  | server sid =>
    simp only [removeConnection, bind_eq_ok, pure_eq_ok, Except.ok.injEq] at hs
    obtain ⟨-, -, -, -, rfl⟩ := hs
    have h₁ : Spares tid none s (s.setServer sid
      { s.servers sid with connections := (s.servers sid).connections.erase i }) := .setServer s sid _
    exact .inl (h₁.queue tid (by simp [Stmt.Starts]))
  | client k =>
    simp only [removeConnection, bind_eq_ok] at hs
    obtain ⟨-, -, _, hheld, hs⟩ := hs
    have hheld : (s.clients k).connection = some i := require_eq_ok.mp hheld
    have h₁ : ∀ but, Spares tid but s
        ((s.queueInLoop tid (.connectDestroyed i)).setClient k { s.clients k with connection := none }) :=
      fun but => (hq but).trans (.setClient _ k id id (fun hne => absurd rfl hne))
    split at hs
    · rename_i hretry
      simp only [pure_eq_ok, Except.ok.injEq] at hs
      subst hs
      -- `restart`, which calls `startInLoop` of this connector
      refine .inr ⟨k, ?_, (Bool.and_eq_true_iff.mp hretry).2, by rw [hheld]; simp, ?_⟩
      swap
      · exact congrArg Client.connection (setClient_clients ..)
      refine ((h₁ _).trans (.setConnector _ k _)).push fun x hx k' hk' => ?_
      rw [List.mem_singleton.mp hx]
      rintro (heq | ⟨timerId, heq⟩)
      · exact hk' (congrArg some (Stmt.startInLoop.inj heq))
      · cases heq
    · simp only [pure_eq_ok, Except.ok.injEq] at hs
      subst hs
      exact .inl (h₁ none)
  | other =>
    simp only [removeConnection, pure_eq_ok, Except.ok.injEq] at hs
    exact .inl (hs ▸ hq none)

/-- `TimerQueue::handleRead` turns retry timers into statements. -/
theorem handleTimers_spares (s : LoopObjects) {expired : List (Option Timer)}
    (hexpired : (expired.filterMap id).Subperm s.timers) :
    Spares tid none s ({ s with timers := s.timers.diff (expired.filterMap id) }.push tid
      (expired.flatMap expiredStmts ++ [Stmt.resetTimers (expired.filterMap id)])) := by
  refine ⟨.same (fun hb => batched_push hb _) rfl rfl rfl, fun k _ => ?_⟩
  refine .of rfl id (fun x hx hs => ?_) fun timerId => (List.diff_subset _ _ ·)
  rw [agenda, LoopObjects.push, agenda_push, if_pos rfl] at hx
  rcases List.mem_append.mp hx with hx | hx
  · -- a `startInLoop` that has expired was set
    rcases List.mem_append.mp hx with hx | hx
    · obtain ⟨timer, htimer, hx⟩ := List.mem_flatMap.mp hx
      rcases timer with _ | ⟨k', timerId⟩ | k'
      · rw [List.mem_singleton.mp hx] at hs
        simp [Stmt.Starts] at hs
      · rw [List.mem_singleton.mp hx] at hs
        obtain rfl : k' = k := by simpa [Stmt.Starts] using hs
        exact .inr ⟨timerId, hexpired.subset (List.mem_filterMap.mpr ⟨_, htimer, rfl⟩)⟩
      · cases hx
    · rw [List.mem_singleton.mp hx] at hs
      simp [Stmt.Starts] at hs
  · exact .inl ⟨x, hx, hs⟩

/-- **What one statement brings about.** -/
theorem outcome_exec (hn : s.Numbered) (hp : s.threads.pop tid = some (stmt, th))
    (hs : { s with threads := th }.run tid a stmt = .ok s') : Outcome tid l s s' := by
  have h₀ : ∀ but, Spares tid but s { s with threads := th } := fun but => .pop hp
  simp only [run, bind_eq_ok] at hs
  obtain ⟨-, -, hs⟩ := hs
  cases stmt with
  | user => cases hs
  | callback i => cases hs
  | acceptLoop sid => cases hs
  | setCloseCallback i sid =>
    simp only [pure_eq_ok, Except.ok.injEq] at hs
    subst hs
    exact .of_none hn ((h₀ _).trans (.setCloseCallback _ i _))
  | connectDestroyed i =>
    simp only [bind_eq_ok, pure_eq_ok, Except.ok.injEq] at hs
    obtain ⟨conn, -, rfl⟩ := hs
    exact .of_none hn (((h₀ _).trans (.setConn _ i conn)).push (by simp [Stmt.Starts]))
  | removeChannel i =>
    simp only [bind_eq_ok, pure_eq_ok, Except.ok.injEq] at hs
    obtain ⟨conn, -, rfl⟩ := hs
    exact .of_none hn ((h₀ _).trans (.setConn _ i conn))
  | handleClose i =>
    simp only [bind_eq_ok, pure_eq_ok, Except.ok.injEq] at hs
    obtain ⟨conn, -, rfl⟩ := hs
    exact .of_none hn (((h₀ _).trans (.setConn _ i conn)).push (by simp [Stmt.Starts]))
  | handleError i =>
    simp only [pure_eq_ok, Except.ok.injEq] at hs
    exact hs ▸ .of_none hn (h₀ _)
  | handleRead i =>
    simp only [bind_eq_ok] at hs
    obtain ⟨conn, -, hs⟩ := hs
    have h₁ : Spares tid none s ({ s with threads := th }.setConn i conn) := (h₀ _).trans (.setConn _ i conn)
    split at hs <;> simp only [pure_eq_ok, Except.ok.injEq] at hs <;> subst hs <;>
      exact .of_none hn (h₁.push (by simp [Stmt.Starts]))
  | handleWrite i =>
    simp only [bind_eq_ok, Prod.exists] at hs
    obtain ⟨conn, drained, -, hs⟩ := hs
    have h₁ : Spares tid none s ({ s with threads := th }.setConn i conn) := (h₀ _).trans (.setConn _ i conn)
    split at hs <;> simp only [pure_eq_ok, Except.ok.injEq] at hs <;> subst hs
    · refine .of_none hn (Spares.push ?_ (by simp [Stmt.Starts]))
      split
      · exact h₁.queue tid (by simp [Stmt.Starts])
      · exact h₁
    · exact .of_none hn h₁
  | drained i =>
    dsimp only at hs
    split at hs <;> simp only [pure_eq_ok, Except.ok.injEq] at hs <;> subst hs
    · exact .of_none hn ((h₀ _).trans (.setConn _ i _))
    · exact .of_none hn (h₀ _)
  -- with `retry_` the connector of a closed connection is restarted here
  | removeConnection i =>
    rcases removeConnection_spares hs with h₁ | ⟨k, h₁, hconnect, hheld, hgone⟩
    · exact .of_none hn ((h₀ _).trans h₁)
    · exact .of_spares hn ((h₀ _).trans h₁) (.restarted hconnect hheld hgone)
  | startInLoop k => exact outcome_startInLoop hn hp (.inl rfl) hs
  | timer k timerId => exact outcome_startInLoop hn hp (.inr ⟨timerId, rfl⟩) hs
  | resetChannel k =>
    simp only [pure_eq_ok, Except.ok.injEq] at hs
    subst hs
    exact .of_none hn ((h₀ _).trans (.keepConnector _ k rfl id))
  | connectorHandleError k =>
    obtain ⟨h₁, hstate, hconnect⟩ := connectorHandleError_spares hs
    have h := (h₀ _).trans h₁
    refine .of_spares hn h (.failed hstate (fun hc => ?_) (h.made.connectionsOf k))
    rwa [hconnect] at hc
  | connectorHandleWrite k =>
    -- an event of no attempt, an attempt that failed, or the connection
    rcases connectorHandleWrite_cases hs with
      rfl | ⟨hstate, h₁, hconnect⟩ | ⟨hstate, hconnect, halive, h₁, hbeside, hup⟩
    · exact .of_none hn (h₀ _)
    · have h := (h₀ _).trans h₁
      refine .of_spares hn h (.failed hstate (fun hc => ?_) (h.made.connectionsOf k))
      rwa [hconnect] at hc
    · have hk : k < s.nextId := hn.client k halive
      have hbeside' : ∀ k', k' ≠ k → Beside tid k' s s' := fun k' hk' =>
        ((h₀ none).beside k' (by simp)).trans (hbeside k' hk')
      refine .of_one hn ((h₀ none).made.trans_one h₁) (fun k' _ hk' => ?_) ?_ fun k' hk' => ?_
      · exact hbeside' k' fun heq => hk' (congrArg some heq.symm)
      · exact (hbeside' _ (Nat.ne_of_gt hk)).connect
      · obtain rfl := Option.some.inj hk'
        exact ⟨hk, ⟨hstate, hconnect⟩, hup⟩
  | handleTimers =>
    simp only [bind_eq_ok, enabled_eq_ok, pure_eq_ok, Except.ok.injEq] at hs
    obtain ⟨-, hexpired, rfl⟩ := hs
    exact .of_none hn ((h₀ _).trans (handleTimers_spares _ hexpired))
  | resetTimers expired =>
    simp only [pure_eq_ok, Except.ok.injEq] at hs
    exact hs ▸ .of_none hn (h₀ _)

theorem Spares.shutdown (s : LoopObjects) (i : Id) : Spares tid none s (s.shutdown i) := by
  unfold LoopObjects.shutdown
  split
  · exact .setConn s i _
  · exact .refl s

/-- `send` makes no connection and starts no attempt. -/
theorem send_spares {bytes : List Byte} {w : Option Nat} (hs : s.send tid i bytes w = .ok s') :
    Spares tid none s s' := by
  unfold LoopObjects.send at hs
  split at hs
  · simp only [bind_eq_ok, Prod.exists, pure_eq_ok, Except.ok.injEq] at hs
    obtain ⟨conn, writeComplete, -, rfl⟩ := hs
    split
    · exact (Spares.setConn s i conn).queue tid (by simp [Stmt.Starts])
    · exact .setConn s i conn
  · simp only [pure_eq_ok, Except.ok.injEq] at hs
    exact hs ▸ .refl s

/-- An object that is not a connection is made. -/
theorem OneMade.other (hn : s.Numbered) (hnext : s'.nextId = s.nextId + 1) (hth : s'.threads = s.threads)
    (hconnections : s'.connections = s.connections)
    (hclients : ∀ k, k ≠ s.nextId → s'.clients k = s.clients k)
    (hnew : (s'.clients s.nextId).connection = none) : OneMade none s s' := by
  refine ⟨fun hb => hth ▸ hb, hnext, fun i _ => by rw [hconnections], fun k => ?_, fun k hk => ?_, fun k hk => ?_,
    fun k _ hk => ?_⟩
  · rw [hconnections]
    exact iff_of_false (hn.connection _ (Nat.le_refl _) k) (by simp)
  · rw [hclients k hk]
    exact id
  · rw [hclients k hk]
    exact id
  · by_cases heq : k = s.nextId
    · exact absurd (heq ▸ hnew) hk
    · rwa [hclients k heq] at hk

theorem outcome_newServer (hn : s.Numbered) {sockfd : Int} {self : Addr} (hs : s.newServer sockfd self = .ok s') :
    Outcome tid l s s' := by
  simp only [newServer, bind_eq_ok, pure_eq_ok, Except.ok.injEq] at hs
  obtain ⟨-, -, rfl⟩ := hs
  have hnew : (s.clients s.nextId).connection = none := hn.unmade _ (Nat.le_refl _)
  exact .of_one hn (.other hn rfl rfl rfl (fun _ _ => rfl) hnew) (fun k _ _ => .frame rfl rfl rfl) id (by simp)

theorem outcome_newClient (hn : s.Numbered) : Outcome tid l s s.newClient :=
  .of_one hn (.other hn rfl rfl rfl (fun _ hk => Function.update_of_ne hk ..)
      (by simp [newClient, setClient, setConnector]))
    (fun _ hk _ => .frame (Function.update_of_ne hk ..) rfl rfl)
    (by simp [newClient, setConnector, Connector.new]) (by simp)

/-- A client that goes makes no connection. -/
theorem Spares.deleteClient (s : LoopObjects) (k : Id) : Spares tid none s (s.deleteClient k) := by
  unfold LoopObjects.deleteClient
  split
  · rename_i i _
    exact (Spares.setCloseCallback s i .other).trans
      (.setClient _ k (fun h => by cases h) id fun hne => absurd rfl hne)
  · have h₁ : Spares tid none s (s.stopConnector k) := .stopConnector s k
    have h₂ : Spares tid none s ((s.stopConnector k).setClient k
        { s.clients k with alive := false, connection := none }) := by
      refine h₁.trans (.setClient _ k (fun h => by cases h) (fun h => ?_) fun hne => absurd rfl hne)
      have hsame : (s.stopConnector k).clients = s.clients := by
        unfold LoopObjects.stopConnector
        cases (s.connectors k).timerId <;> rfl
      rwa [hsame]
    refine h₂.trans (.timers _ fun k' timerId ht => ?_)
    rcases List.mem_append.mp ht with ht | ht
    · exact ht
    · cases List.mem_singleton.mp ht

/-- `TcpClient::connect` sets the two flags and starts the connector. -/
theorem outcome_connect (hn : s.Numbered) (halive : (s.clients k).alive = true) :
    Outcome tid (.connect k) s (((s.setClient k { s.clients k with connect := true }).setConnector k
      { s.connectors k with connect := true }).push tid [.startInLoop k]) := by
  generalize hc : { s.clients k with connect := true } = client
  have hother : ∀ k', k' ≠ k → (s.setClient k client).clients k' = s.clients k' :=
    fun k' hk' => Function.update_of_ne hk' ..
  have hconnection : ∀ k', ((s.setClient k client).clients k').connection = (s.clients k').connection := by
    intro k'
    by_cases heq : k' = k
    · subst heq
      rw [setClient_clients, ← hc]
    · rw [hother k' heq]
  refine ⟨⟨hn.batched, fun k' hk' => ?_, fun k' hk' => (hconnection k').trans (hn.unmade k' hk'), hn.connection⟩,
    Nat.le_refl _, fun k' hk' => ?_, fun k' hk' => .inl ((hconnection k').symm.trans_ne hk'), fun k' => ?_⟩
  · by_cases heq : k' = k
    · exact heq ▸ hn.client k halive
    · have hk'' : ((s.setClient k client).clients k').alive = true := hk'
      rw [hother k' heq] at hk''
      exact hn.client k' hk''
  · by_cases heq : k' = k
    · exact .inr (.inr (heq ▸ rfl))
    · have hk'' : ((s.setClient k client).clients k').connect = true := hk'
      rw [hother k' heq] at hk''
      exact .inl hk''
  · by_cases heq : k' = k
    · subst heq
      refine .called rfl ?_
      show (((s.setClient k' client).setConnector k' { s.connectors k' with connect := true }).connectors k').state = _
      rw [setConnector_connectors]
    · refine .beside ?_ rfl
      apply Beside.push
      · exact .frame (Function.update_of_ne heq ..) rfl rfl
      · intro x hx
        rw [List.mem_singleton.mp hx]
        rintro (hx | ⟨timerId, hx⟩)
        · exact heq (Stmt.startInLoop.inj hx).symm
        · cases hx

/-- `disconnect()` clears the client's flag, and does nothing to the connector. -/
theorem disconnect_spares (hs : s.act tid (.disconnect k) = .ok s') : Spares tid none s s' ∧
    (s.clients k).alive = true ∧ (s'.clients k).connect = false := by
  simp only [act, bind_eq_ok, enabled_eq_ok] at hs
  obtain ⟨-, ⟨-, halive⟩, hs⟩ := hs
  have h₁ : Spares tid none s (s.setClient k { s.clients k with connect := false }) :=
    .setClient s k id (fun h => by cases h) id
  have hflag : ((s.setClient k { s.clients k with connect := false }).clients k).connect = false := by
    rw [setClient_clients]
  split at hs <;> simp only [pure_eq_ok, Except.ok.injEq] at hs <;> subst hs
  · refine ⟨h₁.trans (.shutdown _ _), halive, ?_⟩
    unfold LoopObjects.shutdown
    split <;> exact hflag
  · exact ⟨h₁, halive, hflag⟩

/-- `stop()` clears both flags. -/
theorem stop_spares (hs : s.act tid (.stop k) = .ok s') : Spares tid none s s' ∧ (s.clients k).alive = true ∧
    (s'.clients k).connect = false ∧ (s'.connectors k).connect = false := by
  simp only [act, bind_eq_ok, enabled_eq_ok, pure_eq_ok, Except.ok.injEq] at hs
  obtain ⟨-, ⟨-, halive⟩, rfl⟩ := hs
  have h₁ : Spares tid none s (s.setClient k { s.clients k with connect := false }) :=
    .setClient s k id (fun h => by cases h) id
  have hflag : ((s.setClient k { s.clients k with connect := false }).clients k).connect = false := by
    rw [setClient_clients]
  refine ⟨h₁.trans (.stopConnector _ k), halive, ?_⟩
  generalize s.setClient k { s.clients k with connect := false } = s₁ at hflag
  have hcon : ((s₁.setConnector k { s₁.connectors k with connect := false }).connectors k).connect = false := by
    rw [setConnector_connectors]
  unfold LoopObjects.stopConnector
  cases (s₁.connectors k).timerId with
  | none => exact ⟨hflag, hcon⟩
  | some timerId => exact ⟨hflag, hcon⟩

/-- The end of a callback. -/
theorem outcome_ret (hn : s.Numbered) (hs : s.act tid .ret = .ok s') : Outcome tid .ret s s' := by
  simp only [act] at hs
  split at hs
  · rename_i th hp
    simp only [pure_eq_ok, Except.ok.injEq] at hs
    exact hs ▸ .of_none hn (.pop hp)
  · rename_i i th hp
    simp only [pure_eq_ok, Except.ok.injEq] at hs
    exact hs ▸ .of_none hn (.pop hp)
  · rename_i sid th hp
    simp only [pure_eq_ok, Except.ok.injEq] at hs
    exact hs ▸ .of_none hn (.pop hp)
  · cases hs

/-- A server's new connection is no attempt of a client. -/
theorem outcome_newConnection {a : Answers} (hn : s.Numbered) (hs : s.act tid (.newConnection a) = .ok s') :
    Outcome tid (.newConnection a) s s' := by
  simp only [act] at hs
  split at hs
  · rename_i sid rest hframes
    simp only [bind_eq_ok, pure_eq_ok, Except.ok.injEq] at hs
    obtain ⟨-, -, -, -, s₁, hnew, rfl⟩ := hs
    obtain ⟨hone, hbeside, -, -⟩ := newConnection_made (by simp [Stmt.Starts]) hnew
    have h₁ : Spares tid none s₁ (s₁.setServer sid
      { s₁.servers sid with connections := (s₁.servers sid).connections ++ [s.nextId] }) := .setServer s₁ sid _
    refine .of_one hn (hone.trans_none h₁.made) (fun k _ _ => (hbeside k).trans (h₁.beside k (by simp)))
      (hbeside _).connect ?_
    simp [Creator.client?]
  · cases hs

/-- `TcpServer::start()`. -/
theorem outcome_startServer {sid : Id} (hn : s.Numbered) (hs : s.act tid (.startServer sid) = .ok s') :
    Outcome tid (.startServer sid) s s' := by
  simp only [act, bind_eq_ok] at hs
  obtain ⟨-, -, hs⟩ := hs
  unfold startServer at hs
  split at hs
  · simp only [pure_eq_ok, Except.ok.injEq] at hs
    exact hs ▸ .of_none hn (.refl s)
  · simp only [bind_eq_ok, Prod.exists, pure_eq_ok, Except.ok.injEq] at hs
    obtain ⟨p, channel, -, rfl⟩ := hs
    exact .of_none hn (.frame (.same id rfl rfl rfl) rfl rfl rfl)

/-- **What one step brings about** when no destructor is due. -/
theorem outcome_act (hn : s.Numbered) (hs : s.act tid l = .ok s') : Outcome tid l s s' := by
  cases l with
  | loop mv =>
    simp only [act, bind_eq_ok, Result.mapFault_eq_ok, pure_eq_ok, Except.ok.injEq] at hs
    obtain ⟨-, -, th, hadv, rfl⟩ := hs
    have hmade : NoneMade s { s with threads := th, batch := s.batchAfter tid mv } :=
      .same (fun hb => (agenda_advance hb hadv).1) rfl rfl rfl
    exact .of_none hn ⟨hmade, fun k _ => .advance hn.batched hadv⟩
  | exec a =>
    simp only [act] at hs
    split at hs
    · rename_i stmt th hp
      exact outcome_exec hn hp hs
    · cases hs
  | ret => exact outcome_ret hn hs
  | newConnection a => exact outcome_newConnection hn hs
  | newServer sockfd self =>
    simp only [act, bind_eq_ok] at hs
    obtain ⟨-, -, hs⟩ := hs
    exact outcome_newServer hn hs
  | startServer sid => exact outcome_startServer hn hs
  | deleteServer sid =>
    simp only [act, bind_eq_ok, pure_eq_ok, Except.ok.injEq] at hs
    obtain ⟨-, -, rfl⟩ := hs
    exact .of_none hn ((Spares.setServer s sid _).trans (.close _ _))
  | newClient =>
    simp only [act, bind_eq_ok, pure_eq_ok, Except.ok.injEq] at hs
    obtain ⟨-, -, rfl⟩ := hs
    exact outcome_newClient hn
  | enableRetry k =>
    simp only [act, bind_eq_ok, pure_eq_ok, Except.ok.injEq] at hs
    obtain ⟨-, -, rfl⟩ := hs
    exact .of_none hn (.setClient s k id id id)
  | connect k =>
    simp only [act, bind_eq_ok, enabled_eq_ok, pure_eq_ok, Except.ok.injEq] at hs
    obtain ⟨-, ⟨-, halive⟩, rfl⟩ := hs
    exact outcome_connect hn halive
  | disconnect k => exact .of_none hn (disconnect_spares hs).1
  | stop k => exact .of_none hn (stop_spares hs).1
  | deleteClient k =>
    simp only [act, bind_eq_ok, pure_eq_ok, Except.ok.injEq] at hs
    obtain ⟨-, -, rfl⟩ := hs
    exact .of_none hn (.deleteClient s k)
  | send i bytes w =>
    simp only [act, bind_eq_ok] at hs
    obtain ⟨-, -, hs⟩ := hs
    exact .of_none hn (send_spares hs)
  | shutdown i =>
    simp only [act, bind_eq_ok, pure_eq_ok, Except.ok.injEq] at hs
    obtain ⟨-, -, rfl⟩ := hs
    exact .of_none hn (.shutdown s i)
  | retrieve i len =>
    simp only [act, bind_eq_ok, pure_eq_ok, Except.ok.injEq] at hs
    obtain ⟨-, -, b, -, rfl⟩ := hs
    exact .of_none hn (.setConn s i _)
  | copy i =>
    simp only [act, bind_eq_ok, pure_eq_ok, Except.ok.injEq] at hs
    obtain ⟨-, -, rfl⟩ := hs
    exact .of_none hn (.frame (.same id rfl rfl rfl) rfl rfl rfl)
  | drop i =>
    simp only [act, bind_eq_ok, pure_eq_ok, Except.ok.injEq] at hs
    obtain ⟨-, -, rfl⟩ := hs
    exact .of_none hn (.frame (.same id rfl rfl rfl) rfl rfl rfl)
  | queueInLoop t =>
    simp only [act, bind_eq_ok, pure_eq_ok, Except.ok.injEq] at hs
    obtain ⟨-, -, rfl⟩ := hs
    exact .of_none hn ((Spares.refl s).queue t (by simp [Stmt.Starts]))
  | quit t =>
    simp only [act, bind_eq_ok, pure_eq_ok, Except.ok.injEq] at hs
    obtain ⟨-, -, rfl⟩ := hs
    exact .of_none hn ⟨.same (fun hb => batched_quit hb) rfl rfl rfl, fun k _ => .quit s t⟩
  | destroyConnection i => cases hs
  | destroyConnector k => cases hs

/-- **What one step brings about.** -/
theorem outcome_step (hn : s.Numbered) (hs : s.step tid l = .ok s') : Outcome tid l s s' := by
  cases l with
  | destroyConnection i =>
    simp only [step, bind_eq_ok, pure_eq_ok, Except.ok.injEq] at hs
    obtain ⟨-, -, rfl⟩ := hs
    have h₁ : Spares tid none s { s with
        connections := Function.update s.connections i { s.connections i with alive := false } } :=
      .frame ⟨id, rfl, creator_update rfl, fun _ => id, fun _ => id, fun _ => id⟩ rfl rfl rfl
    exact .of_none hn (h₁.trans (.close _ _))
  | destroyConnector k =>
    simp only [step, bind_eq_ok] at hs
    obtain ⟨-, -, hs⟩ := hs
    simp only [destroyConnector, bind_eq_ok, pure_eq_ok, Except.ok.injEq] at hs
    obtain ⟨-, -, rfl⟩ := hs
    have h₁ : Spares tid none s (s.cancel k (s.connectors k).timerId) := .cancel s k _
    exact .of_none hn (h₁.trans (.frame (.same id rfl rfl rfl) rfl rfl rfl))
  | _ =>
    simp only [step, bind_eq_ok] at hs
    obtain ⟨-, -, hs⟩ := hs
    exact outcome_act hn hs

/-- The numbers are given once, in every run. -/
theorem numbered_of_reachable (h : (loopObjects tid).Reachable s) : s.Numbered :=
  h.invariant (I := Numbered)
    (fun s h0 => by
      rw [h0]
      refine ⟨batched_start, fun k hk => ?_, fun _ _ => rfl, fun i _ k hc => ?_⟩
      · cases hk
      · cases hc)
    fun _ _ _ _ hn _ hs => (outcome_step hn hs).numbered

/-! ## When there is no attempt -/

/-- The connector of a client that has a connection has done its work. -/
def Linked (k : Id) (s : LoopObjects) : Prop := (s.clients k).connection ≠ none → (s.connectors k).state = .kConnected

/-- There is no connection, and `startInLoop` would do nothing. -/
structure Dormant (k : Id) (s : LoopObjects) : Prop where
  connection : (s.clients k).connection = none
  connect : (s.connectors k).connect = false

/-- A connector stays `kConnected` as long as its client has the connection. -/
theorem Linked.step (h : Linked k s) (hn : s.Numbered) (ho : Outcome tid l s s') : Linked k s' := by
  intro hheld'
  rcases ho.connection k hheld' with hheld | ⟨-, hstate⟩
  · have hbefore := h hheld
    cases ho.effect k with
    | new heq _ => exact absurd (hn.unmade k heq.ge) hheld
    | called _ hstate => rw [hstate, hbefore]
    | restarted _ _ hgone => exact absurd hgone hheld'
    | beside hb _ => rw [hb.state, hbefore]
    | attempt _ hstate _ => cases hbefore.symm.trans hstate.1
    | failed hstate _ _ => cases hbefore.symm.trans hstate
    | up _ hstate _ => exact hstate
  · exact hstate

theorem linked_of_reachable (h : (loopObjects tid).Reachable s) (k : Id) : Linked k s :=
  h.invariant (I := Linked k) (fun s h0 => by rw [h0]; exact fun hne => absurd rfl hne)
    fun _ _ _ hr hI _ hs => hI.step (numbered_of_reachable hr) (outcome_step (numbered_of_reachable hr) hs)

/-- Only `connect()` sets the flag of a connector that has made no connection. -/
theorem Dormant.step (h : Dormant k s) (ho : Outcome tid l s s') (hl : l ≠ .connect k) : Dormant k s' := by
  have hdown : ¬ (s.connectors k).connect = true := Bool.eq_false_iff.mp h.connect
  refine ⟨?_, Bool.eq_false_iff.mpr fun hconnect => ?_⟩
  · by_contra hheld
    rcases ho.connection k hheld with hheld | ⟨hconnect, -⟩
    · exact hheld h.connection
    · exact hdown hconnect
  · cases ho.effect k with
    | new _ hnew => exact hdown (hnew hconnect)
    | called heq _ => exact hl heq
    | restarted _ hheld _ => exact hheld h.connection
    | beside hb _ => exact hdown (hb.connect hconnect)
    | attempt hset _ _ => exact hdown hset
    | failed _ hset _ => exact hdown (hset hconnect)
    | up hset _ _ => exact hdown hset.2

/-! ## The result -/

/-- No attempt of client `k` is on or to come, and nothing but `connect()` brings a new one. -/
structure AtRest (tid : ThreadId) (k : Id) (s : LoopObjects) : Prop where
  made : k < s.nextId
  connect : (s.clients k).connect = false
  attempting : ¬ s.Attempting tid k

/-- The attempt that was on is on still, or has made a connection. -/
structure LastAttempt (k : Id) (before : List Id) (s : LoopObjects) : Prop where
  made : k < s.nextId
  connect : (s.clients k).connect = false
  connections : s.connectionsOf k = before ∨
    (s.connectors k).state = .kConnected ∧ ∃ i, s.connectionsOf k = before ++ [i]

/-- A flag that is down stays so until `connect()`. -/
theorem Outcome.connect_eq_false (h : Outcome tid l s s') (hk : k < s.nextId) (hl : l ≠ .connect k)
    (hconnect : (s.clients k).connect = false) : (s'.clients k).connect = false := by
  rw [Bool.eq_false_iff]
  intro hc
  rcases h.connect k hc with hc | hc | hc
  · rw [hconnect] at hc
    cases hc
  · exact absurd hc (Nat.ne_of_lt hk)
  · exact hl hc

/-- Steps beside connector `k` bring no attempt. -/
theorem Beside.attempting (h : Beside tid k s s') (hon : s'.Attempting tid k) : s.Attempting tid k := by
  obtain ⟨hc, hon⟩ := hon
  rw [h.state] at hon
  exact ⟨h.connect hc, hon.imp_right fun hlater => ⟨hlater.1, h.starts hlater.2⟩⟩

/-- A client at rest stays so until `connect()`. -/
theorem AtRest.step (h : AtRest tid k s) (ho : Outcome tid l s s') (hl : l ≠ .connect k) :
    AtRest tid k s' ∧ s'.connectionsOf k = s.connectionsOf k := by
  have hmade : k < s'.nextId := Nat.lt_of_lt_of_le h.made ho.next
  have hflag := ho.connect_eq_false h.made hl h.connect
  cases ho.effect k with
  | new heq _ => exact absurd heq (Nat.ne_of_lt h.made)
  | called heq _ => exact absurd heq hl
  | restarted hc _ _ =>
    rw [h.connect] at hc
    cases hc
  | beside hb hsame => exact ⟨⟨hmade, hflag, fun hon => h.attempting (hb.attempting hon)⟩, hsame⟩
  | attempt hc hstate _ => exact absurd ⟨hc, .inr hstate⟩ h.attempting
  | failed hstate hc hsame =>
    -- an attempt that may go on was ruled out, so this one was stopped
    exact ⟨⟨hmade, hflag, fun hon => h.attempting ⟨hc hon.1, .inl hstate⟩⟩, hsame⟩
  | up hon _ _ => exact absurd ⟨hon.2, .inl hon.1⟩ h.attempting

/-- The attempt that was on makes one connection at most, and no other begins until `connect()`. -/
theorem LastAttempt.step {before : List Id} (h : LastAttempt k before s) (ho : Outcome tid l s s')
    (hl : l ≠ .connect k) : LastAttempt k before s' := by
  refine ⟨Nat.lt_of_lt_of_le h.made ho.next, ho.connect_eq_false h.made hl h.connect, ?_⟩
  -- an attempt begins and ends outside `kConnected`
  have hon : (s.connectors k).state ≠ .kConnected → s.connectionsOf k = before := fun hne =>
    h.connections.resolve_right fun hc => hne hc.1
  cases ho.effect k with
  | new heq _ => exact absurd heq (Nat.ne_of_lt h.made)
  | called heq _ => exact absurd heq hl
  | restarted hc _ _ =>
    rw [h.connect] at hc
    cases hc
  | beside hb hsame =>
    rw [hsame, hb.state]
    exact h.connections
  | attempt _ hstate hsame => exact .inl (hsame.trans (hon (by rw [hstate.1]; decide)))
  | failed hstate _ hsame => exact .inl (hsame.trans (hon (by rw [hstate]; decide)))
  | up hattempt hstate hmade =>
    -- the one connection: `kConnected` is left only by `restart`
    rw [hon (by rw [hattempt.1]; decide)] at hmade
    exact .inr ⟨hstate, s.nextId, hmade⟩

/-- What every step but `connect()` carries on holds in the whole run. -/
theorem holds_until_connect (tid : ThreadId) {I : LoopObjects → Prop} (hn : s.Numbered) (h0 : I s)
    (hstep : ∀ s l s', Outcome tid l s s' → l ≠ .connect k → I s → I s') {as : List Label}
    (hno : .connect k ∉ as) (h : (loopObjects tid).exec s as = .ok s') : I s' := by
  have hrun := System.exec_invariant (S := loopObjects tid) (I := fun as t => .connect k ∉ as → t.Numbered ∧ I t)
    (fun _ => ⟨hn, h0⟩)
    (fun as l t t' _ ih hs hno' => by
      rw [List.mem_append, not_or] at hno'
      obtain ⟨hnt, ht⟩ := ih hno'.1
      have ho := outcome_step hnt hs
      exact ⟨ho.numbered, hstep t l t' ho (fun heq => hno'.2 (List.mem_singleton.mpr heq.symm)) ht⟩) h
  exact (hrun hno).2

/-- `connect()` of client `k` is not called in this run, or `stop()` is called after it. -/
def Unstarted (k : Id) (as : List Label) : Prop :=
  .connect k ∉ as ∨ ∃ before after, as = before ++ .stop k :: after ∧ .connect k ∉ after

/-- After `stop()` there is no attempt. -/
theorem atRest_of_stop (hn : s.Numbered) (hs : s.step tid (.stop k) = .ok s₁) : AtRest tid k s₁ := by
  simp only [step, bind_eq_ok] at hs
  obtain ⟨-, -, hs⟩ := hs
  obtain ⟨hspares, halive, hflag, hcon⟩ := stop_spares hs
  refine ⟨hspares.made.nextId ▸ hn.client k halive, hflag, fun hon => ?_⟩
  exact Bool.false_ne_true (hcon.symm.trans hon.1)

/-- Without `connect()` there is no attempt. -/
theorem not_attempting_of_unstarted {as : List Label} (h : (loopObjects tid).exec start as = .ok s)
    (hu : Unstarted k as) : ¬ s.Attempting tid k := by
  have hstart : (loopObjects tid).Reachable start := .init rfl
  rcases hu with hno | ⟨before, after, rfl, hno⟩
  · have hdormant : Dormant k s := holds_until_connect tid (numbered_of_reachable hstart) ⟨rfl, rfl⟩
      (fun _ _ _ ho hne ih => ih.step ho hne) hno h
    rintro ⟨hconnect, -⟩
    exact Bool.false_ne_true (hdormant.connect.symm.trans hconnect)
  · rw [System.exec_append, bind_eq_ok] at h
    obtain ⟨t, hbefore, h⟩ := h
    obtain ⟨t₁, hstop, hafter⟩ := bind_eq_ok.mp h
    have hn := numbered_of_reachable (hstart.exec hbefore)
    have hn₁ := numbered_of_reachable ((hstart.exec hbefore).step trivial hstop)
    have hrest : AtRest tid k s := holds_until_connect tid hn₁ (atRest_of_stop hn hstop)
      (fun _ _ _ ho hne ih => (ih.step ho hne).1) hno hafter
    exact hrest.attempting

/-- While the client has a connection there is no attempt. -/
theorem not_attempting_of_connection (hr : (loopObjects tid).Reachable s) (hheld : (s.clients k).connection ≠ none) :
    ¬ s.Attempting tid k := by
  rintro ⟨-, hon⟩
  rw [linked_of_reachable hr k hheld] at hon
  rcases hon with hon | ⟨hon, -⟩ <;> cases hon

/-- **`disconnect()` and `stop()` end the attempts**: until `connect()` is called again at most one more
    connection is made; and none after `stop()`, or if the client has a connection, was never started or is
    stopped, or if for another reason no attempt is on or to come. -/
theorem disconnect_settles {as₀ : List Label} (h₀ : (loopObjects tid).exec start as₀ = .ok s)
    (hl : l = .disconnect k ∨ l = .stop k) (hs : s.step tid l = .ok s₁) {as : List Label} (hno : .connect k ∉ as)
    (h : (loopObjects tid).exec s₁ as = .ok s') :
    (s'.connectionsOf k = s.connectionsOf k ∨ ∃ i, s'.connectionsOf k = s.connectionsOf k ++ [i]) ∧
      (l = .stop k ∨ (s.clients k).connection ≠ none ∨ Unstarted k as₀ ∨ ¬ s.Attempting tid k →
        s'.connectionsOf k = s.connectionsOf k) := by
  have hr : (loopObjects tid).Reachable s := System.Reach.exec (.init rfl) h₀
  have hn := numbered_of_reachable hr
  -- the step itself makes nothing, and leaves no attempt that was not there
  obtain ⟨hspares, halive, hflag, hrest⟩ : Spares tid none s s₁ ∧ (s.clients k).alive = true ∧
      (s₁.clients k).connect = false ∧ (l = .stop k ∨ ¬ s.Attempting tid k → ¬ s₁.Attempting tid k) := by
    rcases hl with rfl | rfl
    · simp only [step, bind_eq_ok] at hs
      obtain ⟨-, -, hs⟩ := hs
      obtain ⟨hspares, halive, hflag⟩ := disconnect_spares hs
      refine ⟨hspares, halive, hflag, fun hcase hon => ?_⟩
      exact hcase.elim (fun heq => by cases heq) fun hnot => hnot ((hspares.beside k (by simp)).attempting hon)
    · have hstopped := atRest_of_stop hn hs
      simp only [step, bind_eq_ok] at hs
      obtain ⟨-, -, hs⟩ := hs
      obtain ⟨hspares, halive, hflag, -⟩ := stop_spares hs
      exact ⟨hspares, halive, hflag, fun _ => hstopped.attempting⟩
  have hk : k < s₁.nextId := hspares.made.nextId ▸ hn.client k halive
  have hsame := hspares.made.connectionsOf k
  have hn₁ := hspares.made.numbered hn
  constructor
  · have hlast : LastAttempt k (s.connectionsOf k) s' :=
      holds_until_connect tid hn₁ ⟨hk, hflag, .inl hsame⟩ (fun _ _ _ ho hne ih => ih.step ho hne) hno h
    exact hlast.connections.imp_right And.right
  · intro hcase
    have hnone : l = .stop k ∨ ¬ s.Attempting tid k := by
      rcases hcase with hstop | hheld | hu | hnot
      · exact .inl hstop
      · exact .inr (not_attempting_of_connection hr hheld)
      · exact .inr (not_attempting_of_unstarted h₀ hu)
      · exact .inr hnot
    have hsettled : AtRest tid k s' ∧ s'.connectionsOf k = s.connectionsOf k :=
      holds_until_connect tid (I := fun t => AtRest tid k t ∧ t.connectionsOf k = s.connectionsOf k) hn₁
        ⟨⟨hk, hflag, hrest hnone⟩, hsame⟩
        (fun _ _ _ ho hne ih => ⟨(ih.1.step ho hne).1, (ih.1.step ho hne).2.trans ih.2⟩) hno h
    exact hsettled.2

/-- The client is connected, with retry enabled, when its `connectionCallback_` disconnects. -/
theorem disconnect_settles_connected : ∃ s s₁ : LoopObjects, (s.clients 0).retry = true ∧
    s.step 0 (.disconnect 0) = .ok s₁ ∧ ∀ (as : List Label) (s' : LoopObjects), .connect 0 ∉ as →
      (loopObjects 0).exec s₁ as = .ok s' → s'.connectionsOf 0 = [1] := by
  obtain ⟨s, h₀, hp⟩ := System.exec_of_toOption (S := loopObjects 0) (s := start)
    (l := [.newClient, .enableRetry 0, .connect 0, .exec (answers 7 300 []), .loop .enter, .loop .next,
      .loop (.poll [.channel (.connector 0 {.POLLOUT})]), .loop .next, .exec (answers 0 200 [])])
    (p := fun s => decide ((s.clients 0).retry = true ∧ (s.step 0 (.disconnect 0)).toOption.isSome = true ∧
      s.connectionsOf 0 = [1] ∧ (s.clients 0).connection = some 1)) (by decide +kernel)
  rw [decide_eq_true_eq] at hp
  obtain ⟨hretry, hok, hone, hheld⟩ := hp
  cases hs : s.step 0 (.disconnect 0) with
  | error e =>
    rw [hs] at hok
    cases hok
  | ok s₁ =>
    refine ⟨s, s₁, hretry, hs, fun as s' hno h => ?_⟩
    rw [(disconnect_settles h₀ (.inl rfl) hs hno h).2 (.inr (.inl (by rw [hheld]; simp))), hone]

/-- **An attempt goes on after `disconnect()`**, and the user's `connectionCallback_` is called. -/
theorem disconnect_ignored : ¬ ∀ (tid : ThreadId) (s s₁ s' : LoopObjects) (k : Id) (as : List Label),
    (loopObjects tid).Reachable s → s.step tid (.disconnect k) = .ok s₁ → .connect k ∉ as →
      (loopObjects tid).exec s₁ as = .ok s' → s'.connectionsOf k = s.connectionsOf k := by
  intro hall
  obtain ⟨s, hr, hp⟩ := System.Reach.of_exec (S := loopObjects 0)
    (l := [.newClient, .connect 0, .exec (answers 7 300 [])])
    (p := fun s => decide (s.connectionsOf 0 = [] ∧
      ((loopObjects 0).exec s [.disconnect 0, .loop .enter, .loop .next,
        .loop (.poll [.channel (.connector 0 {.POLLOUT})]), .loop .next, .exec (answers 0 200 [])]).toOption.map
          (fun s' => (s'.connectionsOf 0, s'.threads.frames 0)) = some ([1], [.callback 1])))
    (.init rfl) (by decide +kernel)
  rw [decide_eq_true_eq] at hp
  obtain ⟨hnone, hrun⟩ := hp
  cases hs : s.step 0 (.disconnect 0) with
  | error e =>
    simp only [System.exec, loopObjects, hs] at hrun
    cases hrun
  | ok s₁ =>
    have hrest : ((loopObjects 0).exec s₁ [.loop .enter, .loop .next,
        .loop (.poll [.channel (.connector 0 {.POLLOUT})]), .loop .next, .exec (answers 0 200 [])]).toOption.map
          (fun s' => (s'.connectionsOf 0, s'.threads.frames 0)) = some ([1], [.callback 1]) := by
      rw [System.exec] at hrun
      have hs' : (loopObjects 0).step s (.disconnect 0) = .ok s₁ := hs
      rwa [hs'] at hrun
    cases he : (loopObjects 0).exec s₁ [.loop .enter, .loop .next,
        .loop (.poll [.channel (.connector 0 {.POLLOUT})]), .loop .next, .exec (answers 0 200 [])] with
    | error e =>
      rw [he] at hrest
      cases hrest
    | ok s' =>
      rw [he] at hrest
      have hsome : s'.connectionsOf 0 = [1] := congrArg Prod.fst (Option.some.inj hrest)
      have hsame := hall 0 s s₁ s' 0 _ hr hs (by simp) he
      rw [hsome, hnone] at hsame
      cases hsame

end LoopObjects

end Irono
