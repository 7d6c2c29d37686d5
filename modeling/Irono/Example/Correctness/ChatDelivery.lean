import Irono.Example.Correctness.ChatOrder
import Irono.Example.Correctness.ChatStart

/-!
# `Example.Correctness.ChatDelivery` — what a client of the chat server gets

From the loops to the connections (`Delivery`): what was sent to a connection is what its loop has begun to
distribute since the connection came into `LocalConnections`, up to the sends still at the front of the
loop's agenda, and up to the moment the connection is no longer connected. With `Fanout` this is a contiguous
piece of the one order (`delivered_in_order`).
-/

namespace Irono

open Transition Threads LengthHeaderCodec

namespace HighPerformance

variable {cfg : PoolThreads} {s s' : ChatServer} {t : ThreadId} {th : Threads Handler Stmt} {stmt : Stmt}
  {conn : ConnId} {w : Option Nat} {r : Option (List Byte)}

/-! ## From the loops to the connections -/

/-- **What was sent to each connection.** -/
structure Delivery (s : ChatServer) : Prop where
  since : ∀ c, s.history.since c ≤ (s.history.distributed (s.ioLoop c)).length
  sent : ∀ c, s.history.sent c <+: (s.history.distributed (s.ioLoop c)).drop (s.history.since c)
  /-- a connection gets all that its loop distributes -/
  member : ∀ c ∈ members s (s.ioLoop c), (s.conn c).state = .kConnected →
    (s.history.distributed (s.ioLoop c)).drop (s.history.since c) = s.history.sent c ++ sending s c
  unsent : ∀ c, (s.conn c).state = .kConnecting → s.history.sent c = [] ∧ c ∉ members s (s.ioLoop c)
  only : ∀ c, (s.conn c).state = .kConnected → s.history.sent c ≠ [] → c ∈ members s (s.ioLoop c)
  output : ∀ c, (s.conn c).outputBuffer.Valid ∧
    (s.conn c).socket.accepted ++ (s.conn c).outputBuffer.content = ((s.history.sent c).map frame).flatten

/-- Nothing that matters to what was sent has changed. -/
theorem Delivery.frame (h : Delivery s) (hio : s'.ioLoop = s.ioLoop)
    (hmembers : ∀ t, ∀ c, c ∈ members s' t ↔ c ∈ members s t)
    (hdistributed : s'.history.distributed = s.history.distributed) (hsince : s'.history.since = s.history.since)
    (hsent : s'.history.sent = s.history.sent) (hconns : ∀ c, KeptConn (s.conn c) (s'.conn c))
    (hsending : ∀ c, sending s' c = sending s c) : Delivery s' := by
  refine ⟨?_, ?_, fun c hc hup => ?_, fun c hc => ?_, fun c hup hne => ?_, fun c => ?_⟩
  · rw [hio, hdistributed, hsince]
    exact h.since
  · rw [hio, hdistributed, hsince, hsent]
    exact h.sent
  · rw [hmembers, hio] at hc
    rw [hio, hdistributed, hsince, hsent, hsending]
    rcases (hconns c).connected hup with hup | hup
    · exact h.member c hc hup
    · exact absurd hc (h.unsent c hup).2
  · rw [hmembers, hio, hsent]
    exact h.unsent c ((hconns c).connecting hc)
  · rw [hsent] at hne
    rw [hmembers, hio]
    rcases (hconns c).connected hup with hup | hup
    · exact h.only c hup hne
    · exact absurd (h.unsent c hup).1 hne
  · obtain ⟨hv, hsum⟩ := (hconns c).output (h.output c).1
    rw [hsent]
    exact ⟨hv, hsum.trans (h.output c).2⟩

/-- Of a statement that sends nothing, and puts nothing to be sent at the front. -/
theorem Delivery.exec (h : Delivery s) (hp : s.threads.pop t = some (stmt, th)) {front : List Stmt}
    {back : ThreadId → List Stmt} (hg : Grown t th s'.threads front back) (hstmt : ∀ c, stmt.sendingTo c = none)
    (hfront : ∀ x ∈ front, ∀ c, x.sendingTo c = none)
    (hback : ∀ t', ∀ x ∈ back t', ∀ c, x.sendingTo c = none)
    (hio : s'.ioLoop = s.ioLoop) (hmembers : ∀ t, ∀ c, c ∈ members s' t ↔ c ∈ members s t)
    (hdistributed : s'.history.distributed = s.history.distributed) (hsince : s'.history.since = s.history.since)
    (hsent : s'.history.sent = s.history.sent) (hconns : ∀ c, KeptConn (s.conn c) (s'.conn c)) : Delivery s' := by
  refine h.frame hio hmembers hdistributed hsince hsent hconns fun c => ?_
  obtain ⟨hbefore, hafter⟩ := filterMap_step (Stmt.sendingTo c) hp hg (s.ioLoop c)
  rw [sending, sending, hio, hbefore, hafter, hstmt c, filterMap_nil fun x hx => hfront x hx c,
    filterMap_nil fun x hx => hback _ x hx c]
  simp

/-- What `distributeMessage` puts in front holds one message for each connection. -/
theorem sendingTo_map {conns : List ConnId} (hnodup : conns.Nodup) (hc : conn ∈ conns) (message : List Byte) :
    (conns.map (Stmt.send · message)).filterMap (Stmt.sendingTo conn) = [message] := by
  induction conns with
  | nil => cases hc
  | cons c conns ih =>
    obtain ⟨hnot, hnodup⟩ := List.nodup_cons.mp hnodup
    rw [List.map_cons]
    by_cases heq : c = conn
    · subst heq
      rw [List.filterMap_cons_some (b := message) (by simp [Stmt.sendingTo]), filterMap_nil fun x hx => ?_]
      obtain ⟨c', hc', rfl⟩ := List.mem_map.mp hx
      have hne : c' ≠ c := fun heq => hnot (heq ▸ hc')
      simp [Stmt.sendingTo, hne]
    · rw [List.filterMap_cons_none (by simp [Stmt.sendingTo, heq])]
      exact ih hnodup ((List.mem_cons.mp hc).resolve_left fun h => heq h.symm)

/-- **A loop distributes**: its message is in front of the agenda once for each of its connections. -/
theorem delivery_distributeMessage {message : List Byte} (hctl : Control s) (h : Delivery s)
    (hp : s.threads.pop t = some (.distributeMessage message, th))
    (hs : distributeMessage { s with threads := th } t message = .ok s') : Delivery s' := by
  have hat := hctl.at hp
  cases hat with
  | plain _ _ _ hrest =>
    obtain ⟨locals, hmembers, heq⟩ := distributeMessage_eq hs
    have hg : Grown t th s'.threads ((members s t).elems.map (.send · message)) (fun _ => []) := by
      rw [heq]
      exact Grown.push _
    have hio : s'.ioLoop = s.ioLoop := by rw [heq]; rfl
    have hmembers' : ∀ t', members s' t' = members s t' := fun t' => by rw [heq]; exact hmembers t'
    have hsince : s'.history.since = s.history.since := by rw [heq]; rfl
    have hsent : s'.history.sent = s.history.sent := by rw [heq]; rfl
    have hconn : s'.conn = s.conn := by rw [heq]; rfl
    have hdistributed : ∀ l, s'.history.distributed l =
        s.history.distributed l ++ if l = t then [message] else [] := fun l => by
      rw [heq]
      by_cases ht : l = t
      · subst ht
        simp [push]
      · simp [push, ht]
    have hdrop : ∀ c, (s'.history.distributed (s.ioLoop c)).drop (s.history.since c) =
        (s.history.distributed (s.ioLoop c)).drop (s.history.since c) ++
          if s.ioLoop c = t then [message] else [] := fun c => by
      rw [hdistributed, List.drop_append_of_le_length (h.since c)]
    refine ⟨fun c => ?_, fun c => ?_, fun c hc hup => ?_, fun c hc => ?_, fun c hup hne => ?_, fun c => ?_⟩
    · rw [hio, hsince, hdistributed, List.length_append]
      exact (h.since c).trans (Nat.le_add_right _ _)
    · rw [hio, hsince, hsent, hdrop]
      exact (h.sent c).trans (List.prefix_append _ _)
    · rw [hmembers', hio] at hc
      rw [hconn] at hup
      obtain ⟨hbefore, hafter⟩ := filterMap_step (Stmt.sendingTo c) hp hg (s.ioLoop c)
      rw [hio, hsince, hsent, hdrop, h.member c hc hup, sending, sending, hio, hbefore, hafter]
      by_cases ht : s.ioLoop c = t
      · -- nothing is being sent when the message comes to the front
        subst ht
        rw [sendingTo_map (OrderedSet.nodup _) hc, filterMap_nil fun x hx => (hrest x hx).1.heard.2.1 c]
        simp [Stmt.sendingTo]
      · simp [ht]
    · rw [hconn] at hc
      rw [hmembers', hio, hsent]
      exact h.unsent c hc
    · rw [hconn] at hup
      rw [hsent] at hne
      rw [hmembers', hio]
      exact h.only c hup hne
    · rw [hconn, hsent]
      exact h.output c

theorem connected_iff {c : TcpConnection} : c.connected = true ↔ c.state = .kConnected := decide_eq_true_iff

/-- What is being sent loses its first message. -/
theorem sending_send {message : List Byte} (hp : s.threads.pop t = some (.send conn message, th))
    (hio : s.ioLoop conn = t) (hthreads : s'.threads = th) (hio' : s'.ioLoop = s.ioLoop) (c : ConnId) :
    sending s c = (if c = conn then [message] else []) ++ sending s' c := by
  have hg : Grown t th s'.threads [] (fun _ => []) := by rw [hthreads]; exact Grown.same
  obtain ⟨hbefore, hafter⟩ := filterMap_step (Stmt.sendingTo c) hp hg (s.ioLoop c)
  rw [sending, sending, hio', hbefore, hafter]
  by_cases hc : c = conn
  · subst hc
    simp [hio, Stmt.sendingTo]
  · simp [hc, Ne.symm hc, Stmt.sendingTo]

/-- **A message is sent** to a connection that is connected, and its loop's connections stay the same. -/
theorem Delivery.sends (h : Delivery s) {message : List Byte} {c : TcpConnection} {wc : Bool}
    (hmember : conn ∈ members s (s.ioLoop conn)) (hup : (s.conn conn).state = .kConnected)
    (hsend : (s.conn conn).sendInLoop (LengthHeaderCodec.frame message) w = .ok (c, wc)) (hio : s'.ioLoop = s.ioLoop)
    (hmembers : ∀ t', members s' t' = members s t') (hdistributed : s'.history.distributed = s.history.distributed)
    (hsince : s'.history.since = s.history.since)
    (hsent : ∀ c', s'.history.sent c' = s.history.sent c' ++ if c' = conn then [message] else [])
    (hconn : ∀ c', s'.conn c' = if c' = conn then c else s.conn c')
    (hsending : ∀ c', sending s c' = (if c' = conn then [message] else []) ++ sending s' c') : Delivery s' := by
  obtain ⟨hframe, hv, hsum, -⟩ := TcpConnection.sendInLoop_cases (h.output conn).1 hsend
  have hstate : ∀ c', (s'.conn c').state = (s.conn c').state := by
    intro c'
    rw [hconn]
    split
    · rename_i hc'
      rw [hframe, hc']
    · rfl
  refine ⟨?_, fun c' => ?_, fun c' hc hup => ?_, fun c' hc => ?_, fun c' hup hne => ?_, fun c' => ?_⟩
  · rw [hio, hdistributed, hsince]
    exact h.since
  · rw [hio, hdistributed, hsince, hsent]
    split
    · rename_i hc'
      subst hc'
      rw [h.member c' hmember hup, hsending, if_pos rfl, ← List.append_assoc]
      exact List.prefix_append _ _
    · rw [List.append_nil]
      exact h.sent c'
  · rw [hmembers, hio] at hc
    rw [hstate] at hup
    rw [hio, hdistributed, hsince, hsent, h.member c' hc hup, hsending c', List.append_assoc]
  · rw [hstate] at hc
    have hne : c' ≠ conn := fun heq => by rw [heq, hup] at hc; cases hc
    rw [hmembers, hio, hsent, if_neg hne, List.append_nil]
    exact h.unsent c' hc
  · rw [hmembers, hio]
    rw [hstate] at hup
    by_cases hc' : c' = conn
    · rw [hc']
      exact hmember
    · rw [hsent, if_neg hc', List.append_nil] at hne
      exact h.only c' hup hne
  · rw [hconn, hsent]
    split
    · rename_i hc'
      subst hc'
      refine ⟨hv, hsum.trans ?_⟩
      rw [(h.output c').2]
      simp
    · rw [List.append_nil]
      exact h.output c'

/-- **One send**: the message goes out, or the connection is no longer connected and is passed over. -/
theorem delivery_send {message : List Byte} (hctl : Control s) (h : Delivery s)
    (hp : s.threads.pop t = some (.send conn message, th))
    (hs : send { s with threads := th } t conn message w = .ok s') : Delivery s' := by
  have hat := hctl.at hp
  cases hat with
  | plain _ hplain => rcases hplain with h' | ⟨_, h'⟩ <;> cases h'
  | send _ conns _ rest _ hnodup hmem =>
    have hmember := hmem conn List.mem_cons_self
    have hio : s.ioLoop conn = t := (hctl.member t conn hmember).2
    rcases send_eq (s := { s with threads := th }) hio.symm hs with ⟨hdown, rfl⟩ | ⟨hup, c, wc, hsend, heq⟩
    · have hnot : (s.conn conn).state ≠ .kConnected := fun hup => by
        rw [← connected_iff] at hup
        exact absurd (hup.symm.trans hdown) (by simp)
      refine ⟨h.since, h.sent, fun c hc hup => ?_, h.unsent, h.only, h.output⟩
      have hne : c ≠ conn := fun heq => hnot (heq ▸ hup)
      have hsending : sending s c = (if c = conn then [message] else []) ++ sending { s with threads := th } c := by
        apply sending_send hp hio
        · rfl
        · rfl
      rw [if_neg hne, List.nil_append] at hsending
      exact (h.member c hc hup).trans (by rw [hsending])
    · have hio' : s'.ioLoop = s.ioLoop := by rw [heq]; rfl
      refine h.sends (hio.symm ▸ hmember) (connected_iff.mp hup) hsend hio' (fun t' => by rw [heq]; rfl)
        (by rw [heq]; rfl) (by rw [heq]; rfl) (fun c' => ?_) (fun c' => ?_)
        (sending_send hp hio (by rw [heq]; rfl) hio')
      · rw [heq]
        by_cases hc' : c' = conn
        · subst hc'
          simp [setConn]
        · simp [setConn, hc']
      · rw [heq]
        by_cases hc' : c' = conn
        · subst hc'
          simp [setConn]
        · simp [setConn, hc']

/-- **A connection comes in**: from now on it gets what its loop distributes, and it got nothing before. -/
theorem Delivery.joins (h : Delivery s) (hup : (s.conn conn).state = .kConnected)
    (hin : conn ∉ members s (s.ioLoop conn)) (hnone : sending s conn = []) (hio : s'.ioLoop = s.ioLoop)
    (hconn : s'.conn = s.conn)
    (hmem : ∀ c, c ∈ members s' (s.ioLoop c) ↔ c = conn ∨ c ∈ members s (s.ioLoop c))
    (hset : s'.history = { s.history with
      since := Function.update s.history.since conn (s.history.distributed (s.ioLoop conn)).length })
    (hsending : ∀ c, sending s' c = sending s c) : Delivery s' := by
  have hdistributed : s'.history.distributed = s.history.distributed := by rw [hset]
  have hsent : s'.history.sent = s.history.sent := by rw [hset]
  have hnew : s'.history.since conn = (s.history.distributed (s.ioLoop conn)).length := by
    rw [hset]
    exact Function.update_self ..
  have hold : ∀ c, c ≠ conn → s'.history.since c = s.history.since c := fun c hc => by
    rw [hset]
    exact Function.update_of_ne hc ..
  have hunsent : s.history.sent conn = [] := by
    by_contra hne
    exact hin (h.only conn hup hne)
  refine ⟨fun c => ?_, fun c => ?_, fun c hc hupc => ?_, fun c hc => ?_, fun c hupc hne => ?_, fun c => ?_⟩
  · rw [hio, hdistributed]
    by_cases hc : c = conn
    · subst hc
      rw [hnew]
    · rw [hold c hc]
      exact h.since c
  · rw [hio, hdistributed, hsent]
    by_cases hc : c = conn
    · subst hc
      rw [hunsent]
      exact List.nil_prefix
    · rw [hold c hc]
      exact h.sent c
  · rw [hio, hmem] at hc
    rw [hconn] at hupc
    rw [hio, hdistributed, hsent, hsending]
    by_cases heq : c = conn
    · subst heq
      rw [hnew, hunsent, hnone, List.drop_length]
      rfl
    · rw [hold c heq]
      exact h.member c (hc.resolve_left heq) hupc
  · rw [hconn] at hc
    have hne : c ≠ conn := fun heq => by rw [heq, hup] at hc; cases hc
    rw [hsent, hio, hmem]
    exact ⟨(h.unsent c hc).1, fun h' => (h.unsent c hc).2 (h'.resolve_left hne)⟩
  · rw [hconn] at hupc
    rw [hsent] at hne
    rw [hio, hmem]
    exact .inr (h.only c hupc hne)
  · rw [hconn, hsent]
    exact h.output c

/-- **A connection goes** that is no longer connected. -/
theorem Delivery.leaves (h : Delivery s) (hdown : (s.conn conn).state ≠ .kConnected) (hio : s'.ioLoop = s.ioLoop)
    (hconn : s'.conn = s.conn) (hsub : ∀ c t', c ∈ members s' t' → c ∈ members s t')
    (hkeep : ∀ c, c ≠ conn → c ∈ members s (s.ioLoop c) → c ∈ members s' (s.ioLoop c))
    (hhistory : s'.history = s.history) (hsending : ∀ c, sending s' c = sending s c) : Delivery s' := by
  refine ⟨?_, ?_, fun c hc hupc => ?_, fun c hc => ?_, fun c hupc hne => ?_, ?_⟩
  · rw [hio, hhistory]
    exact h.since
  · rw [hio, hhistory]
    exact h.sent
  · rw [hio] at hc ⊢
    rw [hconn] at hupc
    rw [hhistory, hsending]
    exact h.member c (hsub c _ hc) hupc
  · rw [hconn] at hc
    rw [hio, hhistory]
    exact ⟨(h.unsent c hc).1, fun hc' => (h.unsent c hc).2 (hsub c _ hc')⟩
  · rw [hconn] at hupc
    rw [hhistory] at hne
    rw [hio]
    exact hkeep c (fun heq => hdown (heq ▸ hupc)) (h.only c hupc hne)
  · rw [hconn, hhistory]
    exact h.output

/-- **`onConnection`**: the connection comes into the loop's set, or goes from it. -/
theorem delivery_onConnection (hctl : Control s) (h : Delivery s) (hp : s.threads.pop t = some (.onConnection conn, th))
    (hs : onConnection { s with threads := th } t conn = .ok s') : Delivery s' := by
  have hat := hctl.at hp
  cases hat with
  | plain _ _ hplaced hrest =>
    have hio : s.ioLoop conn = t := (hplaced.own trivial conn rfl).symm
    obtain ⟨hframe, hother, hcase⟩ := onConnection_eq hs
    have hio' : s'.ioLoop = s.ioLoop := by rw [hframe]
    have hconn : s'.conn = s.conn := by rw [hframe]
    have hsending : ∀ c, sending s' c = sending s c := fun c => by
      have hg : Grown t th s'.threads [] (fun _ => []) := by rw [hframe]; exact Grown.same
      obtain ⟨hbefore, hafter⟩ := filterMap_step (Stmt.sendingTo c) hp hg (s.ioLoop c)
      rw [sending, sending, hio', hbefore, hafter]
      simp [Stmt.sendingTo]
    rcases hcase with ⟨hup, hinsert, hhistory⟩ | ⟨hdown, herase, hhistory⟩
    · have hmem : ∀ c t', c ∈ members s' t' ↔ c = conn ∧ t' = t ∨ c ∈ members s t' := by
        intro c t'
        by_cases ht : t' = t
        · rw [ht, hinsert, OrderedSet.mem_insert, and_iff_left rfl]
          rfl
        · rw [hother t' ht]
          exact ⟨.inr, fun h' => h'.resolve_left fun hand => ht hand.2⟩
      by_cases hin : conn ∈ members s t
      · -- it was there already
        have hsame : s'.history = s.history := hhistory.trans (if_neg (not_not.mpr hin))
        refine h.frame hio' (fun t' c => ?_) (by rw [hsame]) (by rw [hsame]) (by rw [hsame])
          (fun c => by rw [hconn]; exact KeptConn.refl _) hsending
        rw [hmem]
        exact ⟨fun h' => h'.elim (fun hand => by rw [hand.1, hand.2]; exact hin) id, .inr⟩
      · have hnone : sending s conn = [] := by
          have hbefore := filterMap_pop (Stmt.sendingTo conn) hp (s.ioLoop conn)
          rw [sending, hbefore, hio, filterMap_nil fun x hx => (hrest x hx).1.heard.2.1 conn]
          simp [Stmt.sendingTo]
        refine h.joins (connected_iff.mp hup) (hio.symm ▸ hin) hnone hio' hconn (fun c => ?_) ?_ hsending
        · rw [hmem]
          exact or_congr_left (and_iff_left_of_imp fun heq => heq ▸ hio)
        · rw [hio]
          exact hhistory.trans (if_pos hin)
    · have hnot : (s.conn conn).state ≠ .kConnected := fun hup => by
        rw [← connected_iff] at hup
        exact absurd (hup.symm.trans hdown) (by simp)
      refine h.leaves hnot hio' hconn (fun c t' hc => ?_) (fun c hne hc => ?_) hhistory hsending
      · by_cases ht : t' = t
        · subst ht
          rw [herase, OrderedSet.mem_erase] at hc
          exact hc.1
        · rw [hother t' ht] at hc
          exact hc
      · by_cases ht : s.ioLoop c = t
        · rw [ht, herase, OrderedSet.mem_erase]
          exact ⟨ht ▸ hc, hne⟩
        · rw [hother _ ht]
          exact hc

theorem readInput_kept {c c' : TcpConnection} (h : c.readInput r = .ok c') :
    c'.outputBuffer = c.outputBuffer ∧ c'.socket = c.socket ∧ c'.state = c.state := by
  rw [TcpConnection.readInput_cases h]
  exact ⟨rfl, rfl, rfl⟩

/-- The input of a connection does not matter to what was sent. -/
theorem Delivery.setInput (h : Delivery s) {c : TcpConnection} (houtput : c.outputBuffer = (s.conn conn).outputBuffer)
    (hsocket : c.socket = (s.conn conn).socket) (hstate : c.state = (s.conn conn).state) :
    Delivery (setConn s conn c) := by
  have hconn : ∀ c', ((setConn s conn c).conn c').outputBuffer = (s.conn c').outputBuffer ∧
      ((setConn s conn c).conn c').socket = (s.conn c').socket ∧
      ((setConn s conn c).conn c').state = (s.conn c').state := by
    intro c'
    by_cases hc : c' = conn
    · subst hc
      simpa [setConn] using ⟨houtput, hsocket, hstate⟩
    · simp [setConn, hc]
  refine ⟨h.since, h.sent, fun c' hc hup => ?_, fun c' hc => ?_, fun c' hup hne => ?_, fun c' => ?_⟩
  · exact h.member c' hc ((hconn c').2.2 ▸ hup)
  · exact h.unsent c' ((hconn c').2.2 ▸ hc)
  · exact h.only c' ((hconn c').2.2 ▸ hup) hne
  · rw [(hconn c').1, (hconn c').2.1]
    exact h.output c'

/-- The statements that are heard. -/
theorem delivery_run (hctl : Control s) (h : Delivery s) (hp : s.threads.pop t = some (stmt, th)) (hq : ¬ stmt.Quiet)
    (hs : run cfg { s with threads := th } t w r stmt = .ok s') : Delivery s' := by
  have hat := hctl.at hp
  have hrefl : ∀ c, KeptConn (s.conn c) (s.conn c) := fun c => KeptConn.refl _
  cases stmt with
  | acceptLoop => cases hs
  | insertLoop =>
    simp only [run, bind_eq_ok, pure_eq_ok, Except.ok.injEq] at hs
    obtain ⟨-, -, rfl⟩ := hs
    exact h.exec hp Grown.same (fun _ => rfl) (by simp) (by simp) rfl
      (fun _ _ => Iff.rfl) rfl rfl rfl hrefl
  | onConnection conn => exact delivery_onConnection hctl h hp hs
  | handleRead conn =>
    obtain ⟨c, hc, hcase⟩ := handleRead_eq hs
    obtain ⟨houtput, hsocket, hstate⟩ := readInput_kept hc
    have h₁ : Delivery (setConn s conn c) := h.setInput houtput hsocket hstate
    rcases hcase with ⟨b, bytes, -, rfl⟩ | ⟨-, rfl⟩ | ⟨-, rfl⟩
    · exact h₁.exec hp (Grown.push _) (fun _ => rfl) (by simp [Stmt.sendingTo]) (by simp) rfl (fun _ _ => Iff.rfl)
        rfl rfl rfl fun c => KeptConn.refl _
    · exact h₁.exec hp (Grown.push _) (fun _ => rfl) (by simp [Stmt.sendingTo]) (by simp) rfl (fun _ _ => Iff.rfl)
        rfl rfl rfl fun c => KeptConn.refl _
    · exact h₁.exec hp (Grown.push _) (fun _ => rfl) (by simp [Stmt.sendingTo]) (by simp) rfl (fun _ _ => Iff.rfl)
        rfl rfl rfl fun c => KeptConn.refl _
  | onMessage conn =>
    rcases onMessage_eq hs with ⟨buf, message, -, rfl⟩ | ⟨events, hturn, rfl⟩
    · have h₁ : Delivery (setConn s conn { s.conn conn with inputBuffer := buf }) := h.setInput rfl rfl rfl
      exact h₁.exec hp (Grown.push _) (fun _ => rfl) (by simp [Stmt.sendingTo]) (by simp) rfl (fun _ _ => Iff.rfl)
        rfl rfl rfl fun c => KeptConn.refl _
    · refine h.exec hp (Grown.push _) (fun _ => rfl) (fun x hx => ?_) (by simp) rfl (fun _ _ => Iff.rfl) rfl rfl rfl hrefl
      obtain rfl := turn_leave hturn hx
      exact fun _ => rfl
  | onStringMessage conn message =>
    simp only [run, bind_eq_ok, pure_eq_ok, Except.ok.injEq] at hs
    obtain ⟨-, -, rfl⟩ := hs
    exact h.exec hp (Grown.push _) (fun _ => rfl) (by simp [Stmt.sendingTo]) (by simp) rfl (fun _ _ => Iff.rfl)
      rfl rfl rfl hrefl
  | queueEach loops message =>
    cases loops with
    | nil =>
      simp only [run, pure_eq_ok, Except.ok.injEq] at hs
      subst hs
      exact h.exec hp Grown.same (fun _ => rfl) (by simp) (by simp) rfl
        (fun _ _ => Iff.rfl) rfl rfl rfl hrefl
    | cons l loops =>
      simp only [run, pure_eq_ok, Except.ok.injEq] at hs
      have hg : Grown t th s'.threads [.queueEach loops message]
          (fun t' => if t' = l then [.distributeMessage message] else []) := by
        rw [← hs]
        exact Grown.queueEach l loops message
      refine h.exec hp hg (fun _ => rfl) (by simp [Stmt.sendingTo]) (fun t' x hx => ?_) (by rw [← hs]; rfl)
        (fun t' c => by rw [← hs]; rfl) (by rw [← hs]; rfl) (by rw [← hs]; rfl) (by rw [← hs]; rfl)
        (fun c => by rw [← hs]; exact KeptConn.refl _)
      split at hx
      · obtain rfl := List.mem_singleton.mp hx
        exact fun _ => rfl
      · exact absurd hx List.not_mem_nil
  | unlock =>
    simp only [run, pure_eq_ok, Except.ok.injEq] at hs
    subst hs
    exact h.exec hp Grown.same (fun _ => rfl) (by simp) (by simp) rfl
      (fun _ _ => Iff.rfl) rfl rfl rfl hrefl
  | distributeMessage message => exact delivery_distributeMessage hctl h hp hs
  | send conn message => exact delivery_send hctl h hp hs
  | sendInLoop conn bytes =>
    cases hat with
    | plain _ hplain => rcases hplain with h' | ⟨_, h'⟩ <;> cases h'
  | _ => exact absurd trivial hq

/-- A new connection was sent nothing, and is in no set. -/
theorem delivery_newConnection {self : Addr} {sockfd : Int} (hctl : Control s) (h : Delivery s)
    (hs : newConnection cfg s self sockfd = .ok s') : Delivery s' := by
  have heq := newConnection_eq hs
  have hold : ∀ c, c ≠ s.nextConnId → s'.ioLoop c = s.ioLoop c ∧ s'.conn c = s.conn c ∧
      s'.history.since c = s.history.since c ∧ s'.history.sent c = s.history.sent c := fun c hc => by
    rw [heq]
    exact ⟨Function.update_of_ne hc .., Function.update_of_ne hc .., Function.update_of_ne hc ..,
      Function.update_of_ne hc ..⟩
  have hnew : s'.conn s.nextConnId = TcpConnection.new self sockfd ∧ s'.history.since s.nextConnId = 0 ∧
      s'.history.sent s.nextConnId = [] := by
    rw [heq]
    exact ⟨Function.update_self .., Function.update_self .., Function.update_self ..⟩
  have hmembers : ∀ t, members s' t = members s t := fun t => by rw [heq]; rfl
  have hdistributed : s'.history.distributed = s.history.distributed := by rw [heq]; rfl
  -- it is in no set yet
  have hnot : ∀ t, s.nextConnId ∉ members s t := fun t hmem => Nat.lt_irrefl _ (hctl.member t _ hmem).1
  have hsending : ∀ c, c ≠ s.nextConnId → sending s' c = sending s c := fun c hc => by
    rw [sending, sending, (hold c hc).1]
    exact newConnection_silent hs _ (fun _ hx => hx.heard.2.2.1 c) _
  refine ⟨fun c => ?_, fun c => ?_, fun c hc hup => ?_, fun c hc => ?_, fun c hup hne => ?_, fun c => ?_⟩
  · by_cases hc : c = s.nextConnId
    · rw [hc, hnew.2.1]
      exact Nat.zero_le _
    · rw [hdistributed, (hold c hc).1, (hold c hc).2.2.1]
      exact h.since c
  · by_cases hc : c = s.nextConnId
    · rw [hc, hnew.2.2]
      exact List.nil_prefix
    · rw [hdistributed, (hold c hc).1, (hold c hc).2.2.1, (hold c hc).2.2.2]
      exact h.sent c
  · rw [hmembers] at hc
    have hne : c ≠ s.nextConnId := fun heq => hnot _ (heq ▸ hc)
    rw [(hold c hne).1] at hc ⊢
    rw [(hold c hne).2.1] at hup
    rw [hdistributed, (hold c hne).2.2.1, (hold c hne).2.2.2, hsending c hne]
    exact h.member c hc hup
  · rw [hmembers]
    by_cases hne : c = s.nextConnId
    · rw [hne, hnew.2.2]
      exact ⟨rfl, hnot _⟩
    · rw [(hold c hne).2.1] at hc
      rw [(hold c hne).1, (hold c hne).2.2.2]
      exact h.unsent c hc
  · rw [hmembers]
    by_cases hc : c = s.nextConnId
    · rw [hc, hnew.2.2] at hne
      exact absurd rfl hne
    · rw [(hold c hc).2.1] at hup
      rw [(hold c hc).2.2.2] at hne
      rw [(hold c hc).1]
      exact h.only c hup hne
  · by_cases hc : c = s.nextConnId
    · rw [hc, hnew.1, hnew.2.2]
      exact ⟨Buffer.valid_new, by simp [TcpConnection.new]⟩
    · rw [(hold c hc).2.1, (hold c hc).2.2.2]
      exact h.output c

/-- **One step**: unheard, a new connection, or a statement that is heard. -/
theorem delivery_step {a : Label} (hctl : Control s) (h : Delivery s) (hs : step cfg s a = .ok s') : Delivery s' := by
  rcases step_heard hctl hs with hun | ⟨self, sockfd, -, hnew⟩ | ⟨t, w, r, stmt, th, hp, hq, hrun⟩
  · exact h.frame hun.same.ioLoop (fun t c => by rw [hun.same.members]) hun.same.distributed hun.same.since
      hun.same.sent hun.conns hun.sending
  · exact delivery_newConnection hctl h hnew
  · exact delivery_run hctl h hp hq hrun

theorem delivery_start : Delivery (start cfg) :=
  ⟨fun _ => Nat.zero_le _, fun _ => List.nil_prefix, fun c hc => by simp [members, start] at hc,
    fun c _ => ⟨rfl, by simp [members, start]⟩, fun c hup => by simp [start, TcpConnection.new] at hup,
    fun c => ⟨Buffer.valid_new, by simp [start, TcpConnection.new]⟩⟩

/-- **Each connection was sent what its loop has distributed since it came in**, in every run. -/
theorem delivery_of_reachable (h : (chatServer cfg).Reachable s) : Delivery s :=
  h.invariant (I := Delivery) (fun s h0 => by obtain rfl := h0; exact delivery_start)
    (fun _ _ _ hr hI _ hs => delivery_step (control_of_reachable hr) hI hs)

/-! ## The results -/

/-- All messages, in the order in which `onStringMessage` got the mutex. -/
def messages (s : ChatServer) : List (List Byte) := s.history.order.map Prod.snd

/-- What the loops and the clients get of the messages. -/
structure InOrder (cfg : PoolThreads) (s : ChatServer) : Prop where
  /-- every loop has them all, in their order: begun, to be begun, and to be given to it by the thread with
      the mutex -/
  loops : todo s cfg.base = [] → ∀ l ∈ cfg.ioThreads, messages s = s.history.distributed l ++ pending s l ++ owed s l
  /-- what a client was sent is a contiguous piece of them, from the moment `onConnection` let it in -/
  sent : ∀ conn, s.history.sent conn <+: (messages s).drop (s.history.since conn)
  /-- and none is missing as long as it is connected -/
  connected : ∀ conn ∈ members s (s.ioLoop conn), (s.conn conn).state = .kConnected →
    (messages s).drop (s.history.since conn) =
      s.history.sent conn ++ sending s conn ++ pending s (s.ioLoop conn) ++ owed s (s.ioLoop conn)
  /-- the socket has had the frames of what was sent, up to what is in the output buffer -/
  output : ∀ conn, (s.conn conn).socket.accepted ++ (s.conn conn).outputBuffer.content =
    ((s.history.sent conn).map frame).flatten

/-- **All clients see the messages in one order**: whichever threads they come in by, and however the loops
    take turns. -/
theorem delivered_in_order (h : (chatServer cfg).Reachable s) : InOrder cfg s := by
  have hctl := control_of_reachable h
  have hstart := starting_of_reachable h
  have hfan := fanout_of_reachable h
  have hdel := delivery_of_reachable h
  have horder : ∀ l ∈ s.loops, messages s = s.history.distributed l ++ pending s l ++ owed s l := by
    intro l hl
    have heq := hfan.order l hl
    rwa [hstart.joined l, List.drop_zero] at heq
  refine ⟨fun hthrough l hl => horder l (hstart.all_loops hthrough hl), fun conn => ?_, fun conn hmem hup => ?_,
    fun conn => (hdel.output conn).2⟩
  · by_cases hl : s.ioLoop conn ∈ s.loops
    · rw [horder _ hl, List.append_assoc, List.drop_append_of_le_length (hdel.since conn)]
      exact (hdel.sent conn).trans (List.prefix_append _ _)
    · have hsent := hdel.sent conn
      rw [(hfan.outside _ hl).1, List.drop_nil, List.prefix_nil] at hsent
      rw [hsent]
      exact List.nil_prefix
  · rw [horder _ (hstart.loop_of_member hctl hmem).2, List.append_assoc,
      List.drop_append_of_le_length (hdel.since conn), hdel.member conn hmem hup]
    simp only [List.append_assoc]

/-- Client 1 says something; loop 2 passes it to its client, whose socket takes it, and loop 1 has not yet
    begun. -/
def sayLabels : List Label :=
  [.loop 1 .next, .loop 1 .next, .loop 1 .next, .loop 1 (.poll [.channel (.connection 1 {.POLLIN})]), .loop 1 .next,
    .exec 1 none (some [0, 0, 0, 1, 65]), .exec 1 none none, .exec 1 none none, .exec 1 none none, .exec 1 none none,
    .exec 1 none none, .exec 1 none none,
    .loop 2 .next, .loop 2 .next, .loop 2 .next, .loop 2 (.poll [.wakeupChannel]), .loop 2 .next, .loop 2 .next,
    .loop 2 .next, .exec 2 none none, .exec 2 (some 5) none]

/-- A client says a message: one loop has sent it to its client, the other has still to begin with it. -/
theorem delivered_in_order_sample : ∃ s, messages s = [[65]] ∧ s.history.sent 2 = [[65]] ∧
    (s.conn 2).socket.accepted = [0, 0, 0, 1, 65] ∧ pending s 1 = [[65]] ∧ InOrder twoLoops s := by
  obtain ⟨s, hs, hp⟩ := System.Reach.of_exec (S := chatServer twoLoops) (s := start twoLoops)
    (l := startLabels ++ connectLabels ++ sayLabels)
    (p := fun s => decide (messages s = [[65]] ∧ s.history.sent 2 = [[65]] ∧
      (s.conn 2).socket.accepted = [0, 0, 0, 1, 65] ∧ pending s 1 = [[65]])) (.init rfl) (by decide +kernel)
  rw [decide_eq_true_eq] at hp
  exact ⟨s, hp.1, hp.2.1, hp.2.2.1, hp.2.2.2, delivered_in_order hs⟩

end HighPerformance

end Irono
