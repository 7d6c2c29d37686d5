import Irono.Net.Correctness.ObjectsSound

/-!
# `Net.Correctness.DeadChannels` — when a channel dies that the poller still knows

`Sound` goes through every member and every step, as long as the steps meet `Kept` (`sound_step`). With it,
a connection that nobody points to any more has left the poller, a connector that nobody holds has no
channel, and every pointer in the poller is to a channel of a live object (`channels_alive`).

The code does nothing to see to the condition. `server_deleted` deletes a server that has a connection:
both the acceptor's channel and the connection's die while they are registered.
-/

namespace Irono

open Transition Threads

namespace LoopObjects

variable {tid : ThreadId} {s s' : LoopObjects} {th : Threads Handler Stmt} {stmt : Stmt} {i k sid : Id}
  {sockfd : Int} {self : Addr}

/-! ## Descriptors and addresses that are free -/

/-- What has been made is among the owners. -/
theorem mem_owners {o : Owner} (h : o.id < s.nextId) : o ∈ s.owners := by
  refine List.mem_flatMap.mpr ⟨o.id, List.mem_range.mpr h, ?_⟩
  cases o <;> simp [Owner.id]

/-- A channel belongs to a live object. -/
theorem alive_of_chan {o : Owner} {c : Channel} (hc : s.chan o = some c) : s.alive o = true := by
  cases o with
  | connection i =>
    by_contra hdead
    simp only [alive] at hdead
    simp [chan, hdead] at hc
  | connector k =>
    by_contra hdead
    simp only [alive] at hdead
    simp [chan, hdead] at hc
  | server sid =>
    by_contra hdead
    simp only [alive] at hdead
    simp [chan, hdead] at hc

/-- What has not been made has no channel. -/
theorem Sound.chan_none (h : s.Sound tid) {o : Owner} (ho : s.nextId ≤ o.id) : s.chan o = none := by
  cases hc : s.chan o with
  | none => rfl
  | some c => exact absurd (h.made o (alive_of_chan hc)) (Nat.not_lt.mpr ho)

/-- A fresh descriptor is nobody's. -/
theorem Sound.fd_ne (h : s.Sound tid) (hsock : s.FreshSocket sockfd) {o : Owner} {d : Channel}
    (hd : s.chan o = some d) : d.fd ≠ sockfd :=
  hsock o (mem_owners (h.made o (alive_of_chan hd))) d hd

/-- A fresh address is nobody's. -/
theorem Sound.self_ne (h : s.Sound tid) (hself : s.FreshChannel self) {o : Owner} {d : Channel}
    (hd : s.chan o = some d) : d.self ≠ self :=
  hself.1 o (mem_owners (h.made o (alive_of_chan hd))) d hd

/-- Closing a descriptor that the kernel does not watch changes nothing. -/
theorem close_eq_self (hnone : s.poller.epoll sockfd = none) : s.close sockfd = s := by
  have hsame : Function.update s.poller.epoll sockfd none = s.poller.epoll := by
    rw [← hnone]
    exact Function.update_eq_self sockfd s.poller.epoll
  unfold LoopObjects.close
  rw [hsame]

/-- The kernel does not watch a fresh descriptor. -/
theorem Sound.close_of_fresh (h : s.Sound tid) (hsock : s.FreshSocket sockfd) : s.close sockfd = s := by
  refine close_eq_self ?_
  cases he : s.poller.epoll sockfd with
  | none => rfl
  | some e =>
    obtain ⟨o, c, ho, -, hfd⟩ := (h.registered.live (a := e.2)).2 e.1 he
    exact absurd hfd (h.fd_ne hsock ho)

/-! ## New objects -/

theorem Stmt.Made.mono {n m : Id} (hle : n ≤ m) (h : stmt.Made n) : stmt.Made m := by
  cases stmt with
  | removeChannel i => exact Nat.lt_of_lt_of_le h hle
  | resetChannel k => exact Nat.lt_of_lt_of_le h hle
  | acceptLoop sid => exact Nat.lt_of_lt_of_le h hle
  | _ => trivial

/-- The next number is taken. -/
theorem Sound.grow (h : s.Sound tid) : { s with nextId := s.nextId + 1 }.Sound tid :=
  { h with
    made := fun o ho => Nat.lt_succ_of_lt (h.made o (by cases o <;> exact ho))
    clientMade := fun k hk => Nat.lt_succ_of_lt (h.clientMade k hk)
    known := fun x hx => (h.known x hx).mono (Nat.le_succ _)
    creator := fun i k hi hcr => Nat.lt_succ_of_lt (h.creator i k hi hcr)
    connected := fun k i hi => ⟨(h.connected k i hi).1, Nat.lt_succ_of_lt (h.connected k i hi).2⟩
    listens := fun sid hne => ⟨(h.listens sid hne).1, Nat.lt_succ_of_lt (h.listens sid hne).2⟩ }

/-- `TcpConnection::update` is that of the poller. -/
theorem update_eq {c c' : TcpConnection} {channel : Channel} (hu : c.update channel = .ok c') :
    c.poller.updateChannel channel = .ok (c'.poller, c'.channel) ∧
      c' = { c with poller := c'.poller, channel := c'.channel } := by
  simp only [TcpConnection.update, bind_eq_ok, Result.mapFault_eq_ok, Prod.exists, pure_eq_ok, Except.ok.injEq] at hu
  obtain ⟨p, ch, hp, rfl⟩ := hu
  exact ⟨hp, rfl⟩

/-- The server or client has a pointer to connection `i`. -/
def Creator.PointsTo (s : LoopObjects) (i : Id) : Creator → Prop
  | .server sid => i ∈ (s.servers sid).connections
  | .client k => (s.clients k).connection = some i

/-- The creator's pointer holds the connection. -/
theorem Creator.PointsTo.held {creator : Creator} (h : creator.PointsTo s i)
    (hcr : (s.connections i).creator = creator) : s.held i = true := by
  cases creator with
  | server sid => exact (held_server hcr).mpr h
  | client k => exact (held_client hcr).mpr h

/-- **A connection is made**, and its server or client has a pointer to it. -/
theorem Sound.newborn (h : s.Sound tid)
    (hfresh : ∀ o d, s.chan o = some d → d.fd ≠ sockfd ∧ d.self ≠ self) {events : Events} {conn : TcpConnection}
    (hu : s.poller.updateChannel { Channel.new self sockfd with events := events } = .ok (conn.poller, conn.channel))
    {creator : Creator} {b : CloseCallback}
    (hup : conn.state ≠ .kDisconnected) (hheld : creator.PointsTo s s.nextId)
    (hcreator : ∀ k, creator = .client k → k < s.nextId) :
    { s with
      poller := conn.poller
      connections := Function.update s.connections s.nextId ⟨conn, creator, b, true⟩
      nextId := s.nextId + 1 }.Sound tid := by
  have hnone : s.chan (.connection s.nextId) = none := h.chan_none (Nat.le_refl _)
  have hreg := h.registered.create (c := Channel.new self sockfd) hnone rfl hfresh
  obtain ⟨-, hidx, hreg'⟩ := hreg.update (Function.update_self ..) hu
  rw [Function.update_idem] at hreg'
  refine h.grow.connection (i := s.nextId) (c := ⟨conn, creator, b, true⟩) (p := conn.poller)
    (fun _ => Nat.lt_succ_self _) hreg' (fun hr => ?_) (fun _ hnew => absurd hnew hidx) (fun _ _ => .inr ⟨?_, .inl ?_⟩)
    (fun k _ hcr => Nat.lt_succ_of_lt (hcreator k hcr)) (fun hdead => by cases hdead)
  · exact absurd (h.known _ hr) (Nat.lt_irrefl _)
  · show (Function.update s.connections s.nextId ⟨conn, creator, b, true⟩ s.nextId).conn.state ≠ _
    rw [Function.update_self]
    exact hup
  · refine Creator.PointsTo.held (show creator.PointsTo _ s.nextId from ?_) ?_
    · cases creator <;> exact hheld
    · show (Function.update s.connections s.nextId ⟨conn, creator, b, true⟩ s.nextId).creator = creator
      rw [Function.update_self]

/-- A connector is made. -/
theorem Sound.newConnector (h : s.Sound tid) (hk : k < s.nextId) (hst : (s.connectors k).state ≠ .kConnecting) :
    { s with connectorAlive := Function.update s.connectorAlive k true }.Sound tid := by
  have hchan : { s with connectorAlive := Function.update s.connectorAlive k true }.chan = s.chan := by
    funext o
    cases o with
    | connection i => rfl
    | server sid => rfl
    | connector k' =>
      by_cases hk' : k' = k
      · subst hk'; simp [chan, hst]
      · simp [chan, hk']
  refine { h with registered := ?_, made := fun o ho => ?_ }
  · rw [hchan]; exact h.registered
  · cases o with
    | connection i => exact h.made (.connection i) ho
    | server sid => exact h.made (.server sid) ho
    | connector k' =>
      by_cases heq : k' = k
      · subst heq; exact hk
      · refine h.made (.connector k') ?_
        simpa [alive, heq] using ho

/-- **What `newConnection` does.** -/
theorem newConnection_cases {a : Answers} {creator : Creator} {cb : CloseCallback} {next : List Stmt}
    (hs : s.newConnection tid a sockfd creator cb next = .ok s') :
    ∃ (conn : TcpConnection) (events : Events), s.FreshChannel a.channel ∧
      s.poller.updateChannel { Channel.new a.channel sockfd with events := events } =
        .ok (conn.poller, conn.channel) ∧ conn.state = .kConnected ∧
      s' = { s with
        poller := conn.poller
        connections := Function.update s.connections s.nextId ⟨conn, creator, cb, true⟩
        nextId := s.nextId + 1 }.push tid (.callback s.nextId :: next) := by
  simp only [newConnection, bind_eq_ok, enabled_eq_ok, Result.mapFault_eq_ok, pure_eq_ok, Except.ok.injEq] at hs
  obtain ⟨-, hself, conn, hconn, rfl⟩ := hs
  simp only [TcpConnection.connectEstablished, bind_eq_ok] at hconn
  obtain ⟨-, -, hup⟩ := hconn
  obtain ⟨hu, hframe⟩ := update_eq hup
  exact ⟨conn, _, hself, hu, by rw [hframe], rfl⟩

/-! ## The connector -/

@[simp] theorem setConnector_connectors (s : LoopObjects) (k : Id) (c : Connector) :
    (s.setConnector k c).connectors k = c := Function.update_self ..

@[simp] theorem setClient_clients (s : LoopObjects) (k : Id) (client : Client) :
    (s.setClient k client).clients k = client := Function.update_self ..

/-- `retry` keeps the invariant if the connector without its attempt has it. -/
theorem Sound.retry (hclient : (s.clients k).alive = true) (hnone : s.poller.epoll sockfd = none)
    (h : (s.setConnector k { s.connectors k with state := .kDisconnected }).Sound tid) :
    (s.retry k sockfd).Sound tid := by
  unfold LoopObjects.retry
  rw [close_eq_self hnone]
  generalize hs₁ : s.setConnector k { s.connectors k with state := .kDisconnected } = s₁ at h
  have hcl : s₁.clients = s.clients := by rw [← hs₁]; rfl
  have hst : (s₁.connectors k).state = .kDisconnected := by
    rw [← hs₁, setConnector_connectors]
  dsimp only
  split
  · have hset : (s₁.setConnector k ((s₁.connectors k).setTimer s₁.nextTimer)).Sound tid :=
      h.setConnector rfl Iff.rfl (fun i hi => absurd hi (h.not_connected (by rw [hst]; decide))) fun hdead => by
        rw [hcl, hclient] at hdead
        cases hdead
    exact hset.timers _ _
  · exact h

/-- The state of a connector that is not connecting, in its own place. -/
theorem setConnector_disconnected (hst : (s.connectors k).state = .kDisconnected) :
    s.setConnector k { s.connectors k with state := .kDisconnected } = s := by
  unfold LoopObjects.setConnector
  rw [← hst]
  exact congrArg (fun f => { s with connectors := f }) (Function.update_eq_self k s.connectors)

/-- **An attempt is made**, or ends at once; only the connector of a client that lives gets so far. -/
theorem sound_connect (h : s.Sound tid) (halive : s.connectorAlive k = true)
    (hclient : (s.clients k).alive = true) (hst : (s.connectors k).state = .kDisconnected) {a : Answers}
    (hs : s.connect k a = .ok s') : s'.Sound tid := by
  simp only [connect, bind_eq_ok, enabled_eq_ok] at hs
  obtain ⟨-, ⟨hsock, hself⟩, hs⟩ := hs
  split at hs
  · simp only [bind_eq_ok, Result.mapFault_eq_ok, Prod.exists, pure_eq_ok, Except.ok.injEq] at hs
    obtain ⟨c, p, hc, rfl⟩ := hs
    exact h.connecting halive hclient hst (fun o d hd => ⟨h.fd_ne hsock hd, h.self_ne hself hd⟩) hc
  · simp only [pure_eq_ok, Except.ok.injEq] at hs
    subst hs
    refine Sound.retry hclient ?_ ?_
    · have hclose := h.close_of_fresh hsock
      have hnone : (s.close a.sockfd).poller.epoll a.sockfd = none := Function.update_self ..
      rwa [hclose] at hnone
    · rw [setConnector_disconnected hst]
      exact h
  · simp only [pure_eq_ok, Except.ok.injEq] at hs
    subst hs
    rw [h.close_of_fresh hsock]
    exact h

/-- `startInLoop`, called or by a timer: the connector of a client that is gone does nothing. -/
theorem sound_startInLoop (h : s.Sound tid) (halive : s.connectorAlive k = true) {a : Answers}
    (hs : s.startInLoop k a = .ok s') : s'.Sound tid := by
  simp only [startInLoop, bind_eq_ok, require_eq_ok] at hs
  obtain ⟨-, hst, hs⟩ := hs
  split at hs
  · rename_i hcon
    exact sound_connect h halive (h.client_of_connect hst hcon) hst hs
  · simp only [pure_eq_ok, Except.ok.injEq] at hs
    exact hs ▸ h

/-- The client of a connector that ends an attempt. -/
theorem dismiss_client (h : s.Sound tid) (hst : (s.connectors k).state = .kConnecting)
    (hr : s.removeAndResetChannel tid k = .ok (s', sockfd)) : (s'.clients k).alive = true := by
  obtain ⟨c, p, -, rfl⟩ := removeAndResetChannel_cases hr
  exact h.client_of_channel (h.of_connecting hst).2

/-- The attempt fails. -/
theorem sound_connectorHandleError (h : s.Sound tid) (halive : s.connectorAlive k = true)
    (hs : s.connectorHandleError tid k = .ok s') : s'.Sound tid := by
  simp only [connectorHandleError, bind_eq_ok, require_eq_ok, Prod.exists, pure_eq_ok, Except.ok.injEq] at hs
  obtain ⟨-, hst, s₁, sockfd, hr, rfl⟩ := hs
  obtain ⟨h₁, hnone, -⟩ := h.dismiss halive hst hr .kDisconnected (by decide)
  exact h₁.retry (dismiss_client h hst hr) hnone

/-- A connected connector's client gets its connection. -/
theorem sound_clientConnection (h : s.Sound tid) (hclient : (s.clients k).alive = true)
    (hnone : (s.clients k).connection = none) (hst : (s.connectors k).state = .kConnected)
    (hsock : ∀ o d, s.chan o = some d → d.fd ≠ sockfd) {a : Answers} {s₁ : LoopObjects}
    (hnew : s.newConnection tid a sockfd (.client k) (.client k) [] = .ok s₁) :
    (s₁.setClient k { s₁.clients k with connection := some s.nextId }).Sound tid := by
  obtain ⟨conn, events, hself, hu, hup, rfl⟩ := newConnection_cases hnew
  -- the client's pointer first, so that the new connection has an owner
  have h₁ : (s.setClient k { s.clients k with connection := some s.nextId }).Sound tid :=
    h.setClient (h.clientMade k hclient) (fun _ _ _ hdead => hdead) (fun i hi => by rw [hnone] at hi; cases hi)
      (fun _ _ => hst) fun hdead => by
        rw [hclient] at hdead
        cases hdead
  have hpoints : (Creator.client k).PointsTo (s.setClient k { s.clients k with connection := some s.nextId })
      s.nextId := congrArg Client.connection (setClient_clients ..)
  have hfresh : ∀ o d, s.chan o = some d → d.fd ≠ sockfd ∧ d.self ≠ a.channel :=
    fun o d hd => ⟨hsock o d hd, h.self_ne hself hd⟩
  refine (h₁.newborn (b := .client k) hfresh hu (by rw [hup]; decide) hpoints fun k' hk' => ?_).push_one (.inl trivial)
  rw [← Creator.client.inj hk']
  exact h.clientMade k hclient

/-- The attempt is over: it has failed, the client gets a connection, or the socket is closed. -/
theorem sound_connectorHandleWrite (h : s.Sound tid) (halive : s.connectorAlive k = true) {a : Answers}
    (hs : s.connectorHandleWrite tid k a = .ok s') : s'.Sound tid := by
  unfold connectorHandleWrite at hs
  split at hs
  · rename_i hst
    simp only [bind_eq_ok, Prod.exists] at hs
    obtain ⟨s₁, sockfd, hr, hs⟩ := hs
    split at hs
    · simp only [pure_eq_ok, Except.ok.injEq] at hs
      subst hs
      obtain ⟨h₁, hnone, -⟩ := h.dismiss halive hst hr .kDisconnected (by decide)
      exact h₁.retry (dismiss_client h hst hr) hnone
    · obtain ⟨h₁, hnone, hsock⟩ := h.dismiss halive hst hr .kConnected (by decide)
      have hclients : s₁.clients = s.clients := by
        obtain ⟨c, p, -, rfl⟩ := removeAndResetChannel_cases hr
        rfl
      generalize hs₂ : s₁.setConnector k { s₁.connectors k with state := .kConnected } = s₂ at h₁ hsock hs
      have hclients₂ : s₂.clients = s.clients := by
        rw [← hs₂]
        exact hclients
      split at hs
      · simp only [bind_eq_ok, require_eq_ok, pure_eq_ok, Except.ok.injEq] at hs
        obtain ⟨-, hclient, s₃, hnew, rfl⟩ := hs
        refine sound_clientConnection h₁ hclient ?_ ?_ hsock hnew
        · rw [hclients₂]
          cases hcon : (s.clients k).connection with
          | none => rfl
          | some i => exact absurd hcon (h.not_connected (by rw [hst]; decide))
        · rw [← hs₂, setConnector_connectors]
      · simp only [pure_eq_ok, Except.ok.injEq] at hs
        subst hs
        have hnone₂ : s₂.poller.epoll sockfd = none := by
          rw [← hs₂]
          exact hnone
        rw [close_eq_self hnone₂]
        exact h₁
  · simp only [bind_eq_ok, pure_eq_ok, Except.ok.injEq] at hs
    obtain ⟨-, -, rfl⟩ := hs
    exact h

/-! ## The connections -/

/-- A member changes the channel by `updateChannel` at most, and not the state. -/
def Touches (c c' : TcpConnection) : Prop :=
  c'.state = c.state ∧ (c'.channel = c.channel ∧ c'.poller = c.poller ∨
    ∃ events, c.poller.updateChannel { c.channel with events := events } = .ok (c'.poller, c'.channel))

/-- A member that ends with `update`. -/
theorem touches_update {c c₁ c' : TcpConnection} {events : Events}
    (hu : c₁.update { c.channel with events := events } = .ok c') (hstate : c₁.state = c.state)
    (hpoller : c₁.poller = c.poller) : Touches c c' := by
  obtain ⟨hp, hframe⟩ := update_eq hu
  rw [hpoller] at hp
  exact ⟨by rw [hframe]; exact hstate, .inr ⟨events, hp⟩⟩

/-- `sendInLoop` changes the mask at most. -/
theorem touches_sendInLoop {c c' : TcpConnection} {message : List Byte} {w : Option Nat} {wc : Bool}
    (hs : c.sendInLoop message w = .ok (c', wc)) : Touches c c' := by
  simp only [TcpConnection.sendInLoop, bind_eq_ok, enabled_eq_ok] at hs
  obtain ⟨-, -, hs⟩ := hs
  split at hs
  · simp only [bind_eq_ok, pure_eq_ok, Except.ok.injEq, Prod.mk.injEq] at hs
    obtain ⟨b, -, c₁, hc, rfl, -⟩ := hs
    split at hc
    · simp only [Except.ok.injEq] at hc
      subst hc
      exact ⟨rfl, .inl ⟨rfl, rfl⟩⟩
    · exact touches_update hc rfl rfl
  · simp only [pure_eq_ok, Except.ok.injEq, Prod.mk.injEq] at hs
    obtain ⟨rfl, -⟩ := hs
    exact ⟨rfl, .inl ⟨rfl, rfl⟩⟩

/-- `handleWrite` does nothing, or finds that writing was enabled. -/
theorem touches_handleWrite {c c' : TcpConnection} {w : Option Nat} {drained : Bool}
    (hs : c.handleWrite w = .ok (c', drained)) : c' = c ∨ c.channel.isWriting = true ∧ Touches c c' := by
  unfold TcpConnection.handleWrite at hs
  split at hs
  · rename_i hw
    simp only [bind_eq_ok, enabled_eq_ok] at hs
    obtain ⟨-, -, b, -, hs⟩ := hs
    refine .inr ⟨hw.1, ?_⟩
    split at hs
    · simp only [bind_eq_ok, pure_eq_ok, Except.ok.injEq, Prod.mk.injEq] at hs
      obtain ⟨c₁, hu, rfl, -⟩ := hs
      exact touches_update hu rfl rfl
    · simp only [pure_eq_ok, Except.ok.injEq, Prod.mk.injEq] at hs
      obtain ⟨rfl, -⟩ := hs
      exact ⟨rfl, .inl ⟨rfl, rfl⟩⟩
  · simp only [pure_eq_ok, Except.ok.injEq, Prod.mk.injEq] at hs
    exact .inl hs.1.symm

/-- `handleClose` finds the connection up, and takes its mask off. -/
theorem touches_handleClose {c c' : TcpConnection} (hs : c.handleClose = .ok c') :
    c.state ≠ .kDisconnected ∧ Touches c c' := by
  simp only [TcpConnection.handleClose, bind_eq_ok, require_eq_ok, pure_eq_ok, Except.ok.injEq] at hs
  obtain ⟨-, hst, c₁, hu, -, -, rfl⟩ := hs
  refine ⟨?_, touches_update hu rfl rfl⟩
  rcases hst with hst | hst <;> rw [hst] <;> decide

/-- A connection that is not down is registered. -/
theorem Sound.index_ne (h : s.Sound tid) (halive : (s.connections i).alive = true)
    (hst : (s.connections i).conn.state ≠ .kDisconnected) : (s.connections i).conn.channel.index ≠ EPoller.kNew :=
  fun hnew => hst (h.down i halive hnew).1

/-- A member that changes the mask at most keeps the invariant. -/
theorem Sound.setConn_touches (h : s.Sound tid) (halive : (s.connections i).alive = true)
    (hidx : (s.connections i).conn.channel.index ≠ EPoller.kNew) {conn : TcpConnection}
    (ht : Touches (s.conn i) conn) : (s.setConn i conn).Sound tid := by
  obtain ⟨hstate, ⟨hch, hp⟩ | ⟨events, hu⟩⟩ := ht
  · exact h.setConn_same hp hch ⟨fun hd => hstate.symm.trans hd, fun hd => hstate.trans hd⟩
      fun hc => hstate.symm.trans hc
  · exact h.setConn_update halive hidx hu (fun hd => hstate.trans hd) fun hd => .inl (hstate.symm.trans hd)

theorem sound_handleClose (h : s.Sound tid) (halive : (s.connections i).alive = true) {conn : TcpConnection}
    (hs : (s.conn i).handleClose = .ok conn) : (s.setConn i conn).Sound tid := by
  obtain ⟨hst, ht⟩ := touches_handleClose hs
  exact h.setConn_touches halive (h.index_ne halive hst) ht

theorem sound_handleWrite (h : s.Sound tid) (halive : (s.connections i).alive = true) {conn : TcpConnection}
    {w : Option Nat} {drained : Bool} (hs : (s.conn i).handleWrite w = .ok (conn, drained)) :
    (s.setConn i conn).Sound tid := by
  rcases touches_handleWrite hs with rfl | ⟨hw, ht⟩
  · exact h.setConn_same rfl rfl Iff.rfl id
  · refine h.setConn_touches halive (fun hnew => ?_) ht
    -- a channel that is not registered has no mask
    have hnone : (s.conn i).channel.events = ∅ := (h.down i halive hnew).2
    rw [Channel.isWriting_iff, hnone] at hw
    exact absurd hw (Finset.notMem_empty _)

/-- `send` finds the connection up, or does nothing. -/
theorem sound_send (h : s.Sound tid) {bytes : List Byte} {w : Option Nat} (hs : s.send tid i bytes w = .ok s') :
    s'.Sound tid := by
  unfold LoopObjects.send at hs
  split at hs
  · rename_i hconn
    have hst : (s.connections i).conn.state = .kConnected := of_decide_eq_true hconn
    have halive : (s.connections i).alive = true := by
      by_contra hdead
      exact h.dead i (by simpa using hdead) hst
    simp only [bind_eq_ok, Result.mapFault_eq_ok, Prod.exists, pure_eq_ok, Except.ok.injEq] at hs
    obtain ⟨conn, wc, hsend, rfl⟩ := hs
    have h₁ := h.setConn_touches halive (h.index_ne halive (by rw [hst]; decide)) (touches_sendInLoop hsend)
    split
    · exact h₁.queue tid (.inl trivial)
    · exact h₁
  · simp only [pure_eq_ok, Except.ok.injEq] at hs
    exact hs ▸ h

theorem shutdownInLoop_frame (c : TcpConnection) :
    c.shutdownInLoop.poller = c.poller ∧ c.shutdownInLoop.state = c.state := by
  unfold TcpConnection.shutdownInLoop
  split <;> exact ⟨rfl, rfl⟩

theorem sound_shutdown (h : s.Sound tid) (i : Id) : (s.shutdown i).Sound tid := by
  unfold LoopObjects.shutdown
  split
  · rename_i hconn
    have hst : (s.connections i).conn.state = .kConnected := of_decide_eq_true hconn
    refine h.setConn_same (shutdownInLoop_frame _).1 (TcpConnection.shutdownInLoop_channel _)
      (iff_of_false (fun hd => ?_) fun hd => ?_) fun _ => hst
    · rw [(shutdownInLoop_frame _).2] at hd
      cases hd
    · rw [hst] at hd
      cases hd
  · exact h

/-- The record of a server's channel that nobody touched. -/
theorem update_chan_server (sid : Id) (server : Server) (halive : server.alive = (s.servers sid).alive)
    (hch : server.acceptChannel = (s.servers sid).acceptChannel) :
    Function.update s.chan (.server sid) (if server.alive then some server.acceptChannel else none) = s.chan := by
  rw [halive, hch]
  exact Function.update_eq_self (Owner.server sid) s.chan

/-- **`closeCallback_` runs**: it lets go of the connection, and queues `connectDestroyed`. -/
theorem sound_removeConnection (h : s.Sound tid) (hp : s.threads.pop tid = some (.removeConnection i, th))
    {cb : CloseCallback} (hs : { s with threads := th }.removeConnection tid i cb = .ok s') : s'.Sound tid := by
  -- the functor is queued first, so that the connection is being closed when the pointer goes
  have hclosing : { s with threads := th.queueInLoop tid tid (.connectDestroyed i) }.Closing tid i := by
    refine .inr (.inl ?_)
    rw [agenda, agenda_queueInLoop, if_pos rfl]
    exact List.mem_append_right _ (List.mem_singleton_self _)
  have hq : { s with threads := th.queueInLoop tid tid (.connectDestroyed i) }.Sound tid := by
    refine (h.queue tid (.inr ⟨i, rfl⟩)).pop (pop_queueInLoop hp _) (by simp) fun j hj => ?_
    obtain rfl : i = j := by simpa using hj
    exact .inr hclosing
  cases cb with
  | empty => cases hs
  | server sid =>
    simp only [removeConnection, bind_eq_ok, require_eq_ok, pure_eq_ok, Except.ok.injEq] at hs
    obtain ⟨-, halive, -, hin, rfl⟩ := hs
    -- `removeConnectionInLoop` asserts that the server had the connection
    refine hq.server sid _ s.poller (fun _ => h.made (.server sid) halive) ?_ (fun j hj => ?_)
      (fun _ => h.listens sid (List.ne_nil_of_mem hin)) (hq.accepts sid) (hq.deaf sid)
    · have hsame := update_chan_server (s := s) sid { s.servers sid with
        connections := (s.servers sid).connections.erase i } rfl rfl
      exact (congrArg (RegisteredBy s.poller) hsame).mpr h.registered
    · by_cases hji : j = i
      · subst hji
        exact .inr hclosing
      · exact .inl ((List.mem_erase_of_ne hji).mpr hj)
  | client k =>
    simp only [removeConnection, bind_eq_ok, require_eq_ok] at hs
    obtain ⟨-, halive, -, hcon, hs⟩ := hs
    obtain ⟨hst, hk⟩ := h.connected k i hcon
    have hlive : ∀ {p : Prop}, (s.clients k).alive = false → p := fun hdead => by
      rw [show (s.clients k).alive = true from halive] at hdead
      cases hdead
    have h₁ : ({ s with threads := th.queueInLoop tid tid (.connectDestroyed i) }.setClient k
        { s.clients k with connection := none }).Sound tid :=
      hq.setClient hk (fun _ _ _ hdead => hdead)
        (fun j hj => by
          obtain rfl : i = j := Option.some.inj (hcon.symm.trans hj)
          exact .inr (.inl hclosing))
        (fun j hj => by cases hj) fun hdead => hlive hdead
    -- with `retry_`, and no `disconnect()` since, the connector starts again
    split at hs
    · simp only [pure_eq_ok, Except.ok.injEq] at hs
      subst hs
      have h₂ := h₁.setConnector (k := k) (c := (s.connectors k).restart) rfl
        (iff_of_false (fun heq => by cases heq) fun heq => by
          have heq' : (s.connectors k).state = .kConnecting := heq
          rw [hst] at heq'
          cases heq')
        (fun j hj => by
          rw [setClient_clients] at hj
          cases hj)
        fun hdead => by
          rw [setClient_clients] at hdead
          exact hlive hdead
      exact h₂.push_one (.inl trivial)
    · simp only [pure_eq_ok, Except.ok.injEq] at hs
      subst hs
      exact h₁
  | other =>
    simp only [removeConnection, pure_eq_ok, Except.ok.injEq] at hs
    exact hs ▸ hq

/-- **`connectDestroyed` goes on to `removeChannel`**, which sees to the connection from then on. -/
theorem Sound.handsOver (h : s.Sound tid) (hp : s.threads.pop tid = some (.connectDestroyed i, th))
    (hst : (s.connections i).conn.state = .kDisconnected) (hi : i < s.nextId) :
    { s with threads := th.push tid [.callback i, .removeChannel i] }.Sound tid := by
  obtain ⟨hhead, -⟩ := frames_pop hp
  have hag := agenda_of_pop hp
  have hag' : (th.push tid [.callback i, .removeChannel i]).agenda Handler.stmts tid =
      .callback i :: .removeChannel i :: th.agenda Handler.stmts tid := by
    rw [agenda_push, if_pos rfl]
    rfl
  -- in the batch `removeChannel` takes the place of `connectDestroyed`
  have hbusy : { s with threads := th.push tid [.callback i, .removeChannel i] }.busy tid =
      .callback i :: .removeChannel i :: (th.frames tid ++ (th.loops tid).functors) := by
    simp [busy, Threads.push]
  have hbusy' : s.busy tid = .connectDestroyed i :: (th.frames tid ++ (th.loops tid).functors) := by
    rw [busy, hhead, loops_pop hp]
    rfl
  have hmem : ∀ x ∈ { s with threads := th.push tid [.callback i, .removeChannel i] }.agenda tid,
      x = .callback i ∨ x = .removeChannel i ∨ x ∈ s.agenda tid := by
    intro x hx
    rw [agenda, hag', List.mem_cons, List.mem_cons] at hx
    refine hx.imp_right (Or.imp_right fun hx => ?_)
    rw [hag]
    exact List.mem_cons_of_mem _ hx
  -- nothing but the statement itself leaves the agenda
  have hkeep : ∀ x ∈ s.agenda tid, x = .connectDestroyed i ∨
      x ∈ { s with threads := th.push tid [.callback i, .removeChannel i] }.agenda tid := by
    intro x hx
    rw [hag, List.mem_cons] at hx
    refine hx.imp_right fun hx => ?_
    rw [agenda, hag']
    exact List.mem_cons_of_mem _ (List.mem_cons_of_mem _ hx)
  refine { h with
    batched := batched_push (batched_pop h.batched hp) _
    known := fun x hx => ?_
    batch := fun j hj => h.batch j ?_
    removing := fun j hj => ?_
    tail := fun j => functors_pop hp tid ▸ h.tail j
    owned := fun j hj hne => (h.owned j hj hne).imp_left fun hc => ?_
    balance := fun k => ?_
    accepts := fun sid hx => ?_ }
  · rcases hmem x hx with rfl | rfl | hx
    · trivial
    · exact hi
    · exact h.known x hx
  · rw [hbusy] at hj
    rw [hbusy']
    rcases hj with hj | hj <;> simp only [List.mem_cons, reduceCtorEq, false_or] at hj ⊢
    · exact .inl (.inr hj)
    · rcases hj with hj | hj
      · exact .inl (.inl (by rw [Stmt.removeChannel.inj hj]))
      · exact .inr hj
  · rcases hmem _ hj with heq | heq | hj
    · cases heq
    · rw [Stmt.removeChannel.inj heq]
      exact hst
    · exact h.removing j hj
  · rcases hc with hc | hc | hc
    · exact .inl ((hkeep _ hc).resolve_left (by simp))
    · rcases hkeep _ hc with heq | hc
      · refine .inr (.inr ?_)
        rw [Stmt.connectDestroyed.inj heq, agenda, hag']
        exact List.mem_cons_of_mem _ List.mem_cons_self
      · exact .inr (.inl hc)
    · exact .inr (.inr ((hkeep _ hc).resolve_left (by simp)))
  -- none of the three is a `resetChannel`
  · have hb := h.balance k
    have hload := @load_pop _ _ Handler.stmts _ _ tid (fun x => if x = .resetChannel k then 1 else 0) _ hp tid
    rw [if_pos rfl, if_neg (by simp), Nat.zero_add] at hload
    have hsame : (th.push tid [.callback i, .removeChannel i]).load Handler.stmts
        (fun x => if x = .resetChannel k then 1 else 0) tid = s.resets tid k := by
      rw [resets, hload, load_push, if_pos rfl]
      simp
    show _ + (decide ((s.connectors k).state = .kConnecting)).toNat = _
    rw [resets, hsame]
    exact hb
  · rcases hmem _ hx with heq | heq | hx
    · cases heq
    · cases heq
    · exact h.accepts sid hx

/-- **`connectDestroyed`** takes the connection down; `removeChannel` is the statement that comes. -/
theorem sound_connectDestroyed (h : s.Sound tid) (hp : s.threads.pop tid = some (.connectDestroyed i, th))
    (halive : (s.connections i).alive = true) {conn : TcpConnection} (hs : (s.conn i).connectDestroyed = .ok conn) :
    (({ s with threads := th }.setConn i conn).push tid [.callback i, .removeChannel i]).Sound tid := by
  simp only [TcpConnection.connectDestroyed, bind_eq_ok, require_eq_ok] at hs
  obtain ⟨-, hst, hup⟩ := hs
  obtain ⟨hu, hframe⟩ := update_eq hup
  have hdown : conn.state = .kDisconnected := by rw [hframe]
  have hne : (s.connections i).conn.state ≠ .kDisconnected := by
    have hst' : (s.connections i).conn.state = .kConnected ∨ (s.connections i).conn.state = .kDisconnecting := hst
    rcases hst' with hst' | hst' <;> rw [hst'] <;> decide
  have hclosing : s.Closing tid i := by
    refine .inr (.inl ?_)
    rw [agenda_of_pop hp]
    exact List.mem_cons_self
  have h₁ := h.setConn_update halive (h.index_ne halive hne) hu (fun _ => hdown) fun _ => .inr hclosing
  refine h₁.handsOver hp ?_ (h.made (.connection i) halive)
  show (Function.update s.connections i { s.connections i with conn := conn } i).conn.state = _
  rw [Function.update_self]
  exact hdown

/-- **`removeChannel`** is what all this is for. -/
theorem sound_removeChannel (h : s.Sound tid) (hp : s.threads.pop tid = some (.removeChannel i, th))
    (halive : (s.connections i).alive = true) {conn : TcpConnection} (hs : (s.conn i).removeChannel = .ok conn) :
    ({ s with threads := th }.setConn i conn).Sound tid := by
  simp only [TcpConnection.removeChannel, bind_eq_ok, Result.mapFault_eq_ok, Prod.exists, pure_eq_ok,
    Except.ok.injEq] at hs
  obtain ⟨p, ch, hr, rfl⟩ := hs
  have hdown : (s.connections i).conn.state = .kDisconnected := by
    refine h.removing i ?_
    rw [agenda_of_pop hp]
    exact List.mem_cons_self
  obtain ⟨h₁, hnew⟩ := h.setConn_remove halive hdown { s.conn i with poller := p, channel := ch } hr rfl
  refine h₁.pop hp (by simp) fun j hj => .inl ?_
  obtain rfl : i = j := by simpa using hj
  show (Function.update s.connections i _ i).conn.channel.index = _
  rw [Function.update_self]
  exact hnew

/-! ## One statement -/

/-- A plain statement is done. -/
theorem Sound.done (h : s.Sound tid) (hp : s.threads.pop tid = some (stmt, th)) (hplain : stmt.Plain) :
    { s with threads := th }.Sound tid := by
  refine h.pop hp ?_ ?_
  · rintro k rfl
    exact hplain
  · rintro i (rfl | rfl | rfl) <;> exact hplain.elim

/-- `TimerQueue::handleRead` takes the expired timers and begins with them. -/
theorem sound_handleTimers (h : s.Sound tid) (expired : List (Option Timer)) :
    ({ s with timers := s.timers.diff (expired.filterMap id) }.push tid
      (expired.flatMap expiredStmts ++ [Stmt.resetTimers (expired.filterMap id)])).Sound tid := by
  have hplain : ∀ x ∈ expired.flatMap expiredStmts ++ [Stmt.resetTimers (expired.filterMap id)], x.Plain := by
    intro x hx
    rcases List.mem_append.mp hx with hx | hx
    · obtain ⟨timer, -, hx⟩ := List.mem_flatMap.mp hx
      rcases timer with _ | timer
      · rw [List.mem_singleton.mp hx]; trivial
      · cases timer with
        | retry k timerId => rw [List.mem_singleton.mp hx]; trivial
        | removeConnector k => cases hx
    · rw [List.mem_singleton.mp hx]; trivial
  exact (h.push fun x hx => .inl (hplain x hx)).timers _ s.nextTimer

/-- The code of an object that runs finds it alive. -/
theorem run_alive {a : Answers} (hs : s.run tid a stmt = .ok s') {o : Owner} (ho : stmt.this = some o) :
    s.alive o = true := by
  simp only [run, bind_eq_ok, require_eq_ok] at hs
  obtain ⟨-, halive, -⟩ := hs
  exact halive o ho

/-- **One statement**: each member keeps the invariant. -/
theorem sound_exec (h : s.Sound tid) (hp : s.threads.pop tid = some (stmt, th)) {a : Answers}
    (hs : { s with threads := th }.run tid a stmt = .ok s') : s'.Sound tid := by
  have halive : ∀ o, stmt.this = some o → s.alive o = true := fun o ho => run_alive hs ho
  simp only [run, bind_eq_ok] at hs
  obtain ⟨-, -, hs⟩ := hs
  cases stmt with
  -- these three are steps of the user, not of `exec`
  | user => cases hs
  | callback i => cases hs
  | acceptLoop sid => cases hs
  | setCloseCallback i sid =>
    simp only [pure_eq_ok, Except.ok.injEq] at hs
    subst hs
    exact (h.done hp trivial).setCloseCallback i (.server sid)
  | connectDestroyed i =>
    simp only [bind_eq_ok, Result.mapFault_eq_ok, pure_eq_ok, Except.ok.injEq] at hs
    obtain ⟨conn, hconn, rfl⟩ := hs
    exact sound_connectDestroyed h hp (halive _ rfl) hconn
  | removeChannel i =>
    simp only [bind_eq_ok, Result.mapFault_eq_ok, pure_eq_ok, Except.ok.injEq] at hs
    obtain ⟨conn, hconn, rfl⟩ := hs
    exact sound_removeChannel h hp (halive _ rfl) hconn
  | handleClose i =>
    simp only [bind_eq_ok, Result.mapFault_eq_ok, pure_eq_ok, Except.ok.injEq] at hs
    obtain ⟨conn, hconn, rfl⟩ := hs
    exact (sound_handleClose (h.done hp trivial) (halive (.connection i) rfl) hconn).push_one
      (.inr ⟨i, rfl⟩)
  | handleError i =>
    simp only [pure_eq_ok, Except.ok.injEq] at hs
    exact hs ▸ h.done hp trivial
  | handleRead i =>
    simp only [bind_eq_ok, Result.mapFault_eq_ok] at hs
    obtain ⟨conn, hconn, hs⟩ := hs
    have hframe := TcpConnection.readInput_cases hconn
    have h₁ : ({ s with threads := th }.setConn i conn).Sound tid :=
      (h.done hp trivial).setConn_same (by rw [hframe]; rfl) (by rw [hframe]; rfl)
        (by rw [hframe]; exact Iff.rfl) (fun hc => by rw [hframe] at hc; exact hc)
    split at hs <;> simp only [pure_eq_ok, Except.ok.injEq] at hs <;> subst hs <;>
      exact h₁.push_one (.inl trivial)
  | handleWrite i =>
    simp only [bind_eq_ok, Result.mapFault_eq_ok, Prod.exists] at hs
    obtain ⟨conn, drained, hconn, hs⟩ := hs
    have h₁ := sound_handleWrite (h.done hp trivial) (halive (.connection i) rfl) hconn
    split at hs <;> simp only [pure_eq_ok, Except.ok.injEq] at hs <;> subst hs
    · refine Sound.push_one ?_ (.inl trivial)
      split
      · exact h₁.queue tid (.inl trivial)
      · exact h₁
    · exact h₁
  | drained i =>
    have h₀ := h.done hp trivial
    dsimp only at hs
    split at hs <;> simp only [pure_eq_ok, Except.ok.injEq] at hs <;> subst hs
    · refine h₀.setConn_same (shutdownInLoop_frame _).1 (TcpConnection.shutdownInLoop_channel _)
        (by rw [(shutdownInLoop_frame _).2]; exact Iff.rfl) fun hc => ?_
      rw [(shutdownInLoop_frame _).2] at hc
      exact hc
    · exact h₀
  | removeConnection i => exact sound_removeConnection h hp hs
  | startInLoop k =>
    exact sound_startInLoop (h.done hp trivial) (halive _ rfl) hs
  -- the retry timer runs `startInLoop`
  | timer k timerId =>
    exact sound_startInLoop (h.done hp trivial) (halive _ rfl) hs
  | resetChannel k =>
    simp only [pure_eq_ok, Except.ok.injEq] at hs
    subst hs
    exact h.reset hp
  | connectorHandleError k => exact sound_connectorHandleError (h.done hp trivial) (halive _ rfl) hs
  | connectorHandleWrite k => exact sound_connectorHandleWrite (h.done hp trivial) (halive _ rfl) hs
  | handleTimers =>
    simp only [bind_eq_ok, enabled_eq_ok, pure_eq_ok, Except.ok.injEq] at hs
    obtain ⟨-, -, rfl⟩ := hs
    exact sound_handleTimers (h.done hp trivial) a.expired
  | resetTimers expired =>
    simp only [pure_eq_ok, Except.ok.injEq] at hs
    subst hs
    exact h.done hp trivial

/-! ## Constructors, destructors and what users call -/

/-- A server is made; its channel is not registered. -/
theorem sound_newServer (h : s.Sound tid) (hs : s.newServer sockfd self = .ok s') : s'.Sound tid := by
  simp only [newServer, bind_eq_ok, enabled_eq_ok, pure_eq_ok, Except.ok.injEq] at hs
  obtain ⟨-, ⟨hsock, hself⟩, rfl⟩ := hs
  have hnone : s.chan (.server s.nextId) = none := h.chan_none (Nat.le_refl _)
  have hreg := h.registered.create (c := Channel.new self sockfd) hnone rfl fun o d hd =>
    ⟨h.fd_ne hsock hd, h.self_ne hself hd⟩
  refine h.grow.server s.nextId ⟨Channel.new self sockfd, false, [], true⟩ s.poller
    (fun _ => Nat.lt_succ_self _) hreg (fun i hi => ?_) (fun hne => absurd rfl hne) (fun hx => ?_) fun _ => rfl
  · -- a server that was not made has no connections
    have hlt := (h.listens s.nextId (List.ne_nil_of_mem hi)).2
    exact absurd hlt (Nat.lt_irrefl _)
  · exact absurd (h.known _ hx) (Nat.lt_irrefl _)

/-- A server begins to listen. -/
theorem sound_startServer (h : s.Sound tid) (halive : (s.servers sid).alive = true)
    (hs : s.startServer sid = .ok s') : s'.Sound tid := by
  unfold startServer at hs
  split at hs
  · simp only [pure_eq_ok, Except.ok.injEq] at hs
    exact hs ▸ h
  · simp only [bind_eq_ok, Result.mapFault_eq_ok, Prod.exists, pure_eq_ok, Except.ok.injEq] at hs
    obtain ⟨p, ch, hu, rfl⟩ := hs
    have hchan : s.chan (.server sid) = some (s.servers sid).acceptChannel := by simp [chan, halive]
    obtain ⟨-, -, hreg⟩ := h.registered.update hchan hu
    refine h.server sid { s.servers sid with listenning := true, acceptChannel := ch } p
      (fun _ => h.made (.server sid) halive) ?_ (fun i hi => .inl hi) (fun hne => ⟨rfl, (h.listens sid hne).2⟩)
      (fun _ => rfl) fun hd => by cases hd
    show RegisteredBy p (Function.update s.chan _ (if (s.servers sid).alive = true then some ch else none))
    rw [if_pos halive]
    exact hreg

/-- A server that never listened is deleted: its channel was never entered, and it has no connections. -/
theorem sound_deleteServer (h : s.Sound tid) (halive : (s.servers sid).alive = true)
    (hdeaf : (s.servers sid).listenning = false) : (s.deleteServer sid).Sound tid := by
  have hchan : s.chan (.server sid) = some (s.servers sid).acceptChannel := by simp [chan, halive]
  have hnew := h.deaf sid hdeaf
  unfold deleteServer
  rw [close_eq_self (s := s.setServer sid { s.servers sid with alive := false, connections := [] })
    (h.registered.epoll_fd_eq_none hchan hnew)]
  refine h.server sid { s.servers sid with alive := false, connections := [] } s.poller
    (fun hlive => by cases hlive) (h.registered.forget fun c hc => ?_) (fun i hi => ?_)
    (fun hne => absurd rfl hne) (h.accepts sid) (h.deaf sid)
  · rw [hchan, Option.some.injEq] at hc
    exact hc ▸ hnew
  · have hlisten := (h.listens sid (List.ne_nil_of_mem hi)).1
    rw [hdeaf] at hlisten
    cases hlisten

/-- A client is made, with a connector that has no channel. -/
theorem sound_newClient (h : s.Sound tid) : s.newClient.Sound tid := by
  have hnone : ∀ i, (s.clients s.nextId).connection ≠ some i := fun i hi =>
    Nat.lt_irrefl _ (h.connected s.nextId i hi).2
  have h₁ : ({ s with nextId := s.nextId + 1 }.setClient s.nextId ⟨false, true, none, true⟩).Sound tid :=
    h.grow.setClient (Nat.lt_succ_self _) (fun i hi hcr => absurd (h.creator i _ hi hcr) (Nat.lt_irrefl _))
      (fun i hi => absurd hi (hnone i)) (fun i hi => by cases hi) fun hdead => by cases hdead
  have hno : .resetChannel s.nextId ∉ s.agenda tid := fun hx => Nat.lt_irrefl _ (h.known _ hx)
  have hresets : s.resets tid s.nextId = 0 := count_eq_zero hno
  have hchan : s.chan (.connector s.nextId) = none := h.chan_none (Nat.le_refl _)
  have h₂ := h₁.connector (k := s.nextId) (c := Connector.new) (p := s.poller) (SameBut.refl s.threads _)
    (fun _ => Nat.lt_succ_self _)
    (by
      have hsame : Function.update s.chan (.connector s.nextId) none = s.chan := by
        rw [← hchan]
        exact Function.update_eq_self _ s.chan
      have hif : ∀ (p : Prop) [Decidable p], (if p then Connector.new.channel else none) = none :=
        fun p _ => ite_self none
      rw [hif]
      exact (congrArg (RegisteredBy s.poller) hsame).mpr h.registered)
    (by
      show s.resets tid s.nextId + 0 = 0
      rw [hresets])
    (fun i hi => by
      rw [setClient_clients] at hi
      cases hi)
    fun hdead => by
      rw [setClient_clients] at hdead
      cases hdead
  refine h₂.newConnector (k := s.nextId) (Nat.lt_succ_self _) ?_
  · show (Function.update s.connectors s.nextId Connector.new s.nextId).state ≠ .kConnecting
    rw [Function.update_self]
    decide

/-- A client's flags. -/
theorem Sound.setFlags (h : s.Sound tid) (halive : (s.clients k).alive = true) {client : Client}
    (hcon : client.connection = (s.clients k).connection) (hlive : client.alive = (s.clients k).alive) :
    (s.setClient k client).Sound tid :=
  h.setClient (h.clientMade k halive) (fun _ _ _ hdead => hlive.trans hdead) (fun _ hi => .inl (hcon.trans hi))
    (fun i hi => (h.connected k i (hcon.symm.trans hi)).1) fun hdead => h.retired k (hlive.symm.trans hdead)

/-- `Connector::stop` takes the flag away and leaves the attempt as it is. -/
theorem sound_stopConnector (h : s.Sound tid) : (s.stopConnector k).Sound tid := by
  have h₁ : (s.setConnector k { s.connectors k with connect := false }).Sound tid :=
    h.setConnector rfl Iff.rfl (fun i hi => (h.connected k i hi).1) fun _ => .inl rfl
  unfold stopConnector
  cases (s.connectors k).timerId with
  | none => exact h₁
  | some timerId => exact h₁.timers _ s.nextTimer

/-- What `stop` leaves of the connector. -/
theorem stopConnector_frame (s : LoopObjects) (k : Id) : (s.stopConnector k).clients = s.clients ∧
    (s.stopConnector k).nextId = s.nextId ∧
      (s.stopConnector k).connectors k = { s.connectors k with connect := false } := by
  unfold stopConnector
  cases (s.connectors k).timerId <;> exact ⟨rfl, rfl, setConnector_connectors ..⟩

/-- **A client is deleted** whose connector is idle: the connector is done, or stopped for good. -/
theorem sound_deleteClient (h : s.Sound tid) (halive : (s.clients k).alive = true) (hidle : s.Idle tid k)
    (hleft : ∀ i ∈ (s.clients k).connection, s.Closing tid i ∨ i ∈ s.users) : (s.deleteClient k).Sound tid := by
  have hk := h.clientMade k halive
  have hnone := h.of_idle hidle
  unfold deleteClient
  cases hcon : (s.clients k).connection with
  | some i =>
    have h₁ := h.setCloseCallback i .other
    refine h₁.setClient hk (fun _ _ _ _ => rfl) (fun j hj => .inr ((hleft j hj).imp_right fun hu => ⟨rfl, hu⟩))
      (fun j hj => by cases hj) fun _ => ⟨hnone, .inr (h.connected k i hcon).1⟩
  | none =>
    obtain ⟨hclients, hnext, hconnector⟩ := stopConnector_frame s k
    have h₁ := (sound_stopConnector (k := k) h).timers ((s.stopConnector k).timers ++ [.removeConnector k])
      (s.stopConnector k).nextTimer
    refine h₁.setClient (hnext.symm ▸ hk : k < (s.stopConnector k).nextId) (fun _ _ _ _ => rfl) (fun i hi => ?_)
      (fun i hi => by cases hi) fun _ => ?_
    · have hi' : (s.clients k).connection = some i := by rw [← hclients]; exact hi
      rw [hcon] at hi'
      cases hi'
    · show ((s.stopConnector k).connectors k).channel = none ∧ _
      rw [hconnector]
      exact ⟨hnone, .inl rfl⟩

/-- A server that listens accepts a connection. -/
theorem sound_accept (h : s.Sound tid) (hloop : .acceptLoop sid ∈ s.agenda tid)
    (halive : (s.servers sid).alive = true) (hsock : s.FreshSocket sockfd) {a : Answers} {s₁ : LoopObjects}
    (hnew : s.newConnection tid a sockfd (.server sid) .empty [.setCloseCallback s.nextId sid] = .ok s₁) :
    (s₁.setServer sid { s₁.servers sid with connections := (s₁.servers sid).connections ++ [s.nextId] }).Sound
      tid := by
  obtain ⟨conn, events, hself, hu, hup, rfl⟩ := newConnection_cases hnew
  -- the server's pointer first, so that the new connection has an owner
  have hsame := update_chan_server (s := s) sid
    { s.servers sid with connections := (s.servers sid).connections ++ [s.nextId] } rfl rfl
  have h₁ : (s.setServer sid { s.servers sid with
      connections := (s.servers sid).connections ++ [s.nextId] }).Sound tid :=
    h.server sid _ s.poller (fun _ => h.made (.server sid) halive)
      ((congrArg (RegisteredBy s.poller) hsame).mpr h.registered)
      (fun i hi => .inl (List.mem_append_left _ hi))
      (fun _ => ⟨h.accepts sid hloop, h.made (.server sid) halive⟩) (h.accepts sid) (h.deaf sid)
  have hchan := chan_withServer s sid
    { s.servers sid with connections := (s.servers sid).connections ++ [s.nextId] } s.poller
  have hfresh : ∀ o d, (s.setServer sid { s.servers sid with
      connections := (s.servers sid).connections ++ [s.nextId] }).chan o = some d →
        d.fd ≠ sockfd ∧ d.self ≠ a.channel := by
    intro o d hd
    have hd' : s.chan o = some d := by rw [← hsame]; exact (congrFun hchan o).symm.trans hd
    exact ⟨h.fd_ne hsock hd', h.self_ne hself hd'⟩
  have hpoints : (Creator.server sid).PointsTo (s.setServer sid { s.servers sid with
      connections := (s.servers sid).connections ++ [s.nextId] }) s.nextId := by
    show s.nextId ∈ (Function.update s.servers sid _ sid).connections
    rw [Function.update_self]
    exact List.mem_append_right _ (List.mem_singleton_self _)
  refine (h₁.newborn (b := .empty) hfresh hu (by rw [hup]; decide) hpoints fun k hk => by cases hk).push fun x hx => ?_
  rcases List.mem_cons.mp hx with rfl | hx
  · exact .inl trivial
  · rw [List.mem_singleton.mp hx]
    exact .inl trivial

/-- What the loop thread has still to do: what it has begun, what is pending, and handlers. -/
theorem mem_agenda_cases (h : stmt ∈ s.agenda tid) : stmt ∈ s.busy tid ∨
    stmt ∈ (s.threads.loops tid).pendingFunctors ∨ ∃ hd : Handler, stmt ∈ hd.stmts := by
  rcases List.mem_append.mp h with h | h
  · exact .inl (List.mem_append_left _ h)
  · obtain ⟨task, htask, hx⟩ := List.mem_flatMap.mp h
    rcases List.mem_append.mp htask with htask | htask
    · obtain ⟨a, -, hsome⟩ := List.mem_filterMap.mp htask
      cases a with
      | wakeupChannel => cases hsome
      | channel hd =>
        obtain rfl := Option.some.inj hsome
        exact .inr (.inr ⟨hd, hx⟩)
    · obtain ⟨f, hf, rfl⟩ := List.mem_map.mp htask
      obtain rfl := List.mem_singleton.mp hx
      rcases List.mem_append.mp hf with hf | hf
      · exact .inl (List.mem_append_right _ hf)
      · exact .inr (.inl hf)

/-- **A connection that nobody points to has left the poller.** -/
theorem Sound.removed (h : s.Sound tid) (halive : (s.connections i).alive = true)
    (hfree : s.referenced tid i = false) : (s.connections i).conn.channel.index = EPoller.kNew := by
  by_contra hne
  unfold referenced at hfree
  rw [Bool.or_eq_false_iff, Bool.or_eq_false_iff, List.any_eq_false] at hfree
  obtain ⟨⟨hheld, huser⟩, hpointers⟩ := hfree
  have hno : ∀ x ∈ s.threads.frames tid ++ (s.threads.loops tid).pendingFunctors ++ s.batch, x.pointer ≠ some i :=
    fun x hx => by simpa using hpointers x hx
  have hbatch : ¬ (.connectDestroyed i ∈ s.busy tid ∨ .removeChannel i ∈ s.busy tid) := fun hbusy =>
    hno _ (List.mem_append_right _ (h.batch i hbusy)) rfl
  rcases h.owned i halive hne with (hc | hc | hc) | ⟨-, hh | ⟨-, hu⟩⟩
  · -- a call of `closeCallback_` has a pointer
    rcases mem_agenda_cases hc with hb | hb | ⟨hd, hb⟩
    · rcases List.mem_append.mp hb with hb | hb
      · exact hno _ (List.mem_append_left _ (List.mem_append_left _ hb)) rfl
      · exact (h.tail i).1 (List.mem_append_left _ hb)
    · exact (h.tail i).1 (List.mem_append_right _ hb)
    · exact (handler_ne hb i).1 rfl
  · rcases mem_agenda_cases hc with hb | hb | ⟨hd, hb⟩
    · exact hbatch (.inl hb)
    · exact hno _ (List.mem_append_left _ (List.mem_append_right _ hb)) rfl
    · exact (handler_ne hb i).2.1 rfl
  · rcases mem_agenda_cases hc with hb | hb | ⟨hd, hb⟩
    · exact hbatch (.inr hb)
    · exact (h.tail i).2 (List.mem_append_right _ hb)
    · exact (handler_ne hb i).2.2 rfl
  · rw [hheld] at hh
    cases hh
  · exact absurd hu (by simpa using huser)

/-- **A connector that nobody holds has no channel**: its client is gone. -/
theorem Sound.released (h : s.Sound tid) (hfree : s.connectorHeld tid k = false) :
    (s.connectors k).channel = none := by
  unfold connectorHeld at hfree
  rw [Bool.or_eq_false_iff, Bool.or_eq_false_iff] at hfree
  exact (h.retired k hfree.1.1).1

/-- **A connection dies**, and its channel with it, which the poller does not know. -/
theorem sound_destroyConnection (h : s.Sound tid) (halive : (s.connections i).alive = true)
    (hfree : s.referenced tid i = false) : (s.destroyConnection i).Sound tid := by
  have hnew := h.removed halive hfree
  have hchan := chan_of_alive halive
  unfold destroyConnection
  rw [close_eq_self (s := { s with
      connections := Function.update s.connections i { s.connections i with alive := false } })
    (h.registered.epoll_fd_eq_none hchan hnew)]
  refine h.connection (i := i) (c := { s.connections i with alive := false }) (p := s.poller)
    (fun hlive => by cases hlive) (h.registered.forget fun c hc => ?_) (h.removing i) (fun hlive => by cases hlive)
    (fun hlive => by cases hlive) (fun _ hlive => by cases hlive) fun _ hst => ?_
  · rw [hchan, Option.some.injEq] at hc
    exact hc ▸ hnew
  · have hst' : (s.connections i).conn.state = .kConnected := hst
    rw [(h.down i halive hnew).1] at hst'
    cases hst'

/-- **A connector dies** that has no channel. -/
theorem sound_destroyConnector (h : s.Sound tid) (hs : s.destroyConnector k = .ok s') : s'.Sound tid := by
  simp only [destroyConnector, bind_eq_ok, require_eq_ok, pure_eq_ok, Except.ok.injEq] at hs
  obtain ⟨-, hnone, rfl⟩ := hs
  have h₁ : (s.cancel k (s.connectors k).timerId).Sound tid := by
    unfold cancel
    cases (s.connectors k).timerId with
    | none => exact h
    | some timerId => exact h.timers _ s.nextTimer
  generalize s.cancel k (s.connectors k).timerId = s₁ at hnone h₁
  have hchan : { s₁ with connectorAlive := Function.update s₁.connectorAlive k false }.chan = s₁.chan := by
    funext o
    cases o with
    | connection i => rfl
    | server sid => rfl
    | connector k' =>
      by_cases hk' : k' = k
      · subst hk'; simp [chan, hnone]
      · simp [chan, hk']
  have hlive : ∀ k', Function.update s₁.connectorAlive k false k' = true → s₁.connectorAlive k' = true := by
    intro k' hk'
    by_cases heq : k' = k
    · subst heq; simp at hk'
    · rwa [Function.update_of_ne heq] at hk'
  refine { h₁ with registered := ?_, made := fun o ho => ?_ }
  · rw [hchan]; exact h₁.registered
  · cases o with
    | connection i => exact h₁.made (.connection i) ho
    | server sid => exact h₁.made (.server sid) ho
    | connector k' => exact h₁.made (.connector k') (hlive k' ho)

/-! ## The steps -/

/-- `Acceptor::handleRead` accepts a connection. -/
theorem sound_newConnection (h : s.Sound tid) {a : Answers} (hs : s.act tid (.newConnection a) = .ok s') :
    s'.Sound tid := by
  simp only [act] at hs
  split at hs
  · rename_i sid rest hframes
    simp only [bind_eq_ok, require_eq_ok, enabled_eq_ok, pure_eq_ok, Except.ok.injEq] at hs
    obtain ⟨-, halive, -, hsock, s₁, hnew, rfl⟩ := hs
    have hloop : .acceptLoop sid ∈ s.agenda tid := by
      refine List.mem_append_left _ ?_
      rw [hframes]
      exact List.mem_cons_self
    exact sound_accept h hloop halive hsock hnew
  · cases hs

/-- `TcpClient::connect` -/
theorem sound_startConnector (h : s.Sound tid) (halive : (s.clients k).alive = true) :
    (((s.setClient k { s.clients k with connect := true }).setConnector k
      { s.connectors k with connect := true }).push tid [.startInLoop k]).Sound tid := by
  have h₁ : (s.setClient k { s.clients k with connect := true }).Sound tid := h.setFlags halive rfl rfl
  have h₂ := h₁.setConnector (c := { s.connectors k with connect := true }) rfl Iff.rfl
    (fun i hi => (h₁.connected k i hi).1) fun hdead => by
      rw [setClient_clients, halive] at hdead
      cases hdead
  exact h₂.push_one (.inl trivial)

/-- A user drops a pointer. -/
theorem sound_drop (h : s.Sound tid) (hkept : s.Kept tid (.drop i)) :
    { s with users := s.users.erase i }.Sound tid := by
  refine h.users fun j hj hout horphan => ?_
  obtain rfl : j = i := by
    by_contra hne
    exact hout ((List.mem_erase_of_ne hne).mpr hj)
  exact hkept horphan hout

/-- **One step** when no destructor is due, as long as it meets the condition. -/
theorem sound_act (h : s.Sound tid) {l : Label} (hkept : s.Kept tid l)
    (hs : s.act tid l = .ok s') : s'.Sound tid := by
  cases l with
  | loop mv =>
    simp only [act, bind_eq_ok, enabled_eq_ok, Result.mapFault_eq_ok, pure_eq_ok, Except.ok.injEq] at hs
    obtain ⟨-, hpoll, th, hadv, rfl⟩ := hs
    exact h.loop hpoll hadv
  | exec a =>
    simp only [act] at hs
    split at hs
    · rename_i stmt th hp
      exact sound_exec h hp hs
    · cases hs
  | ret =>
    simp only [act] at hs
    split at hs
    · rename_i th hp
      simp only [pure_eq_ok, Except.ok.injEq] at hs
      exact hs ▸ h.done hp trivial
    · rename_i i th hp
      simp only [pure_eq_ok, Except.ok.injEq] at hs
      exact hs ▸ h.done hp trivial
    · rename_i sid th hp
      simp only [pure_eq_ok, Except.ok.injEq] at hs
      exact hs ▸ h.pop hp (by simp) (by simp)
    · cases hs
  | newConnection a => exact sound_newConnection h hs
  | newServer sockfd self =>
    simp only [act, bind_eq_ok] at hs
    obtain ⟨-, -, hs⟩ := hs
    exact sound_newServer h hs
  | startServer sid =>
    simp only [act, bind_eq_ok, enabled_eq_ok] at hs
    obtain ⟨-, ⟨-, halive⟩, hs⟩ := hs
    exact sound_startServer h halive hs
  | deleteServer sid =>
    simp only [act, bind_eq_ok, enabled_eq_ok, pure_eq_ok, Except.ok.injEq] at hs
    obtain ⟨-, ⟨-, halive⟩, rfl⟩ := hs
    exact sound_deleteServer h halive hkept
  | newClient =>
    simp only [act, bind_eq_ok, pure_eq_ok, Except.ok.injEq] at hs
    obtain ⟨-, -, rfl⟩ := hs
    exact sound_newClient h
  | enableRetry k =>
    simp only [act, bind_eq_ok, enabled_eq_ok, pure_eq_ok, Except.ok.injEq] at hs
    obtain ⟨-, ⟨-, halive⟩, rfl⟩ := hs
    exact h.setFlags halive rfl rfl
  | connect k =>
    simp only [act, bind_eq_ok, enabled_eq_ok, pure_eq_ok, Except.ok.injEq] at hs
    obtain ⟨-, ⟨-, halive⟩, rfl⟩ := hs
    exact sound_startConnector h halive
  | disconnect k =>
    simp only [act, bind_eq_ok, enabled_eq_ok] at hs
    obtain ⟨-, ⟨-, halive⟩, hs⟩ := hs
    have h₁ : (s.setClient k { s.clients k with connect := false }).Sound tid := h.setFlags halive rfl rfl
    split at hs
    · rename_i i hcon
      simp only [pure_eq_ok, Except.ok.injEq] at hs
      exact hs ▸ sound_shutdown h₁ i
    · simp only [pure_eq_ok, Except.ok.injEq] at hs
      exact hs ▸ h₁
  | stop k =>
    simp only [act, bind_eq_ok, enabled_eq_ok, pure_eq_ok, Except.ok.injEq] at hs
    obtain ⟨-, ⟨-, halive⟩, rfl⟩ := hs
    exact sound_stopConnector (h.setFlags halive rfl rfl)
  | deleteClient k =>
    simp only [act, bind_eq_ok, enabled_eq_ok, pure_eq_ok, Except.ok.injEq] at hs
    obtain ⟨-, ⟨-, halive⟩, rfl⟩ := hs
    exact sound_deleteClient h halive hkept.1 hkept.2
  | send i bytes w =>
    simp only [act, bind_eq_ok] at hs
    obtain ⟨-, -, hs⟩ := hs
    exact sound_send h hs
  | shutdown i =>
    simp only [act, bind_eq_ok, pure_eq_ok, Except.ok.injEq] at hs
    obtain ⟨-, -, rfl⟩ := hs
    exact sound_shutdown h i
  | retrieve i len =>
    simp only [act, bind_eq_ok, Result.mapFault_eq_ok, pure_eq_ok, Except.ok.injEq] at hs
    obtain ⟨-, -, b, -, rfl⟩ := hs
    exact h.setConn_same rfl rfl Iff.rfl id
  | copy i =>
    simp only [act, bind_eq_ok, pure_eq_ok, Except.ok.injEq] at hs
    obtain ⟨-, -, rfl⟩ := hs
    exact h.users fun j hj hout => absurd (List.mem_cons_of_mem i hj) hout
  | drop i =>
    simp only [act, bind_eq_ok, pure_eq_ok, Except.ok.injEq] at hs
    obtain ⟨-, -, rfl⟩ := hs
    exact sound_drop h hkept
  | queueInLoop t =>
    simp only [act, bind_eq_ok, pure_eq_ok, Except.ok.injEq] at hs
    obtain ⟨-, -, rfl⟩ := hs
    exact h.queue t (.inl trivial)
  | quit t =>
    simp only [act, bind_eq_ok, pure_eq_ok, Except.ok.injEq] at hs
    obtain ⟨-, -, rfl⟩ := hs
    exact h.quit t
  | destroyConnection i => cases hs
  | destroyConnector k => cases hs

/-- **One step.** -/
theorem sound_step (h : s.Sound tid) {l : Label} (hkept : s.Kept tid l) (hs : s.step tid l = .ok s') :
    s'.Sound tid := by
  cases l with
  | destroyConnection i =>
    simp only [step, bind_eq_ok, enabled_eq_ok, pure_eq_ok, Except.ok.injEq] at hs
    obtain ⟨-, ⟨halive, hfree⟩, rfl⟩ := hs
    exact sound_destroyConnection h halive hfree
  | destroyConnector k =>
    simp only [step, bind_eq_ok] at hs
    obtain ⟨-, -, hs⟩ := hs
    exact sound_destroyConnector h hs
  | _ =>
    simp only [step, bind_eq_ok, enabled_eq_ok] at hs
    obtain ⟨-, -, hs⟩ := hs
    exact sound_act h hkept hs

/-- **Every run** whose steps meet the condition. -/
theorem sound_of_reach (h : (loopObjects tid).Reach (Kept tid) s) : s.Sound tid :=
  h.invariant (I := Sound tid) (fun s h0 => by rw [h0]; exact sound_start)
    (fun _ _ _ _ hI hc hs => sound_step hI hc hs)

/-! ## The result -/

/-- The kernel's and the user's part of a run: a descriptor and an address for what is made next, and the
    timers that expire. -/
def answers (sockfd : Int) (channel : Addr) (expired : List (Option Timer)) : Answers :=
  ⟨sockfd, channel, .EINPROGRESS, false, false, expired, none, none, false⟩

/-- The assert: a client is deleted in its `connectionCallback_`, with `resetChannel` queued. -/
example : faultOf ((loopObjects 0).exec start
    [.newClient, .connect 0, .exec (answers 7 300 []), .loop .enter, .loop .next,
      .loop (.poll [.channel (.connector 0 {.POLLOUT})]), .loop .next, .exec (answers 0 200 []), .copy 1,
      .deleteClient 0, .destroyConnector 0]) = some .channelNotReset := by decide +kernel

/-- The assert again: a client is deleted while its attempt is on, which lasts longer than the timer. -/
example : faultOf ((loopObjects 0).exec start
    [.newClient, .connect 0, .exec (answers 7 300 []), .deleteClient 0, .loop .enter, .loop .next,
      .loop (.poll [.channel .timerfd]), .loop .next, .exec (answers 0 0 [some (.removeConnector 0)]),
      .exec (answers 0 0 []), .destroyConnector 0]) = some .channelNotReset := by decide +kernel

end LoopObjects

end Irono
