import Irono.Example.Correctness.ChatDelivery

/-!
# `Example.Correctness.ChatInput` — what a client's stream brings into the order

The messages of a connection that are in the order, the one that waits for the mutex and those that the
codec has still to take from the buffer are together the messages of all that was read (`Incoming`).
-/

namespace Irono

open Transition Threads LengthHeaderCodec

namespace HighPerformance

variable {cfg : PoolThreads} {s s' : ChatServer} {t : ThreadId} {th : Threads Handler Stmt} {stmt : Stmt}
  {conn : ConnId} {w : Option Nat} {r : Option (List Byte)}

/-- What is in the order from `conn`. -/
def entered (s : ChatServer) (conn : ConnId) : List (List Byte) :=
  (s.history.order.filter fun p => p.1 = conn).map Prod.snd

/-- **The messages of each connection's stream.** -/
structure Incoming (s : ChatServer) : Prop where
  valid : ∀ c, (s.conn c).inputBuffer.Valid
  messages : ∀ c, (frames.parse (s.history.received c)).1 =
    entered s c ++ entering s c ++ (frames.parse (s.conn c).inputBuffer.content).1
  rest : ∀ c, (frames.parse (s.history.received c)).2 = (frames.parse (s.conn c).inputBuffer.content).2
  known : ∀ p ∈ s.history.order, p.1 < s.nextConnId
  /-- the codec leaves no message in the buffer -/
  idle : ∀ c, (frames.parse (s.conn c).inputBuffer.content).1 = [] ∨ .onMessage c ∈ agenda s (s.ioLoop c)

/-- Nothing that matters to the input has changed. -/
theorem Incoming.frame (h : Incoming s) (hio : s'.ioLoop = s.ioLoop) (hknown : s'.nextConnId = s.nextConnId)
    (horder : s'.history.order = s.history.order) (hreceived : s'.history.received = s.history.received)
    (hinput : ∀ c, (s'.conn c).inputBuffer = (s.conn c).inputBuffer) (hentering : ∀ c, entering s' c = entering s c)
    (hreading : ∀ c, .onMessage c ∈ agenda s (s.ioLoop c) → .onMessage c ∈ agenda s' (s.ioLoop c)) :
    Incoming s' := by
  refine ⟨fun c => ?_, fun c => ?_, fun c => ?_, ?_, fun c => ?_⟩
  · rw [hinput]
    exact h.valid c
  · rw [hreceived, hinput, hentering, entered, horder]
    exact h.messages c
  · rw [hreceived, hinput]
    exact h.rest c
  · rw [horder, hknown]
    exact h.known
  · rw [hinput, hio]
    exact (h.idle c).imp_right (hreading c)

/-- Of a statement that is neither the codec's nor a message at the mutex. -/
theorem Incoming.exec (h : Incoming s) (hp : s.threads.pop t = some (stmt, th)) {front : List Stmt}
    {back : ThreadId → List Stmt} (hg : Grown t th s'.threads front back) (hstmt : ∀ c, stmt.entering c = none)
    (hne : ∀ c, stmt ≠ .onMessage c) (hfront : ∀ x ∈ front, ∀ c, x.entering c = none)
    (hback : ∀ t', ∀ x ∈ back t', ∀ c, x.entering c = none)
    (hio : s'.ioLoop = s.ioLoop) (hknown : s'.nextConnId = s.nextConnId)
    (horder : s'.history.order = s.history.order) (hreceived : s'.history.received = s.history.received)
    (hinput : ∀ c, (s'.conn c).inputBuffer = (s.conn c).inputBuffer) : Incoming s' := by
  refine h.frame hio hknown horder hreceived hinput (fun c => ?_)
    fun c hc => mem_agenda_step hp hg hc fun heq => hne c heq.symm
  obtain ⟨hbefore, hafter⟩ := filterMap_step (Stmt.entering c) hp hg (s.ioLoop c)
  rw [entering, entering, hio, hbefore, hafter, hstmt c, filterMap_nil fun x hx => hfront x hx c,
    filterMap_nil fun x hx => hback _ x hx c]
  simp

/-- A turn of the codec takes one frame of the reference, or there is none. -/
theorem turn_again_eq {buf buf' : Buffer} {message : List Byte} (hv : buf.Valid)
    (h : turn buf = .ok (.again buf' message)) :
    buf'.Valid ∧ frames.parse buf.content =
    (message :: (frames.parse buf'.content).1, (frames.parse buf'.content).2) := by
  cases hframe : readFrame buf.content with
  | none =>
    rw [turn_of_none hv hframe] at h
    cases h
  | some p =>
    obtain ⟨m, rest⟩ := p
    obtain ⟨b, hturn, hvalid, hcontent⟩ := turn_of_frame hv hframe
    rw [hturn] at h
    obtain ⟨rfl, rfl⟩ := Turn.again.inj (Except.ok.inj h)
    exact ⟨hvalid, by rw [hcontent]; exact Framing.Decoder.parse_of_some hframe⟩

/-- When the codec leaves there is no whole message in the buffer. -/
theorem turn_leave_eq {buf : Buffer} {events : List Event} (hv : buf.Valid) (h : turn buf = .ok (.leave events)) :
    (frames.parse buf.content).1 = [] := by
  cases hframe : readFrame buf.content with
  | none => rw [Framing.Decoder.parse_of_none hframe]
  | some p =>
    obtain ⟨m, rest⟩ := p
    obtain ⟨b, hturn, -⟩ := turn_of_frame hv hframe
    rw [hturn] at h
    cases h

/-- **Bytes come in**, and the codec is to look at them. -/
theorem incoming_handleRead (hctl : Control s) (h : Incoming s) (hp : s.threads.pop t = some (.handleRead conn, th))
    (hs : handleRead { s with threads := th } t conn r = .ok s') : Incoming s' := by
  have hat := hctl.at hp
  cases hat with
  | plain _ _ hplaced _ =>
    have hio := hplaced.own trivial conn rfl
    obtain ⟨c, hc, hcase⟩ := handleRead_eq hs
    obtain ⟨hv, hcontent⟩ := TcpConnection.readInput_spec (c := s.conn conn) (h.valid conn) hc
    have hother : ∀ c', c' ≠ conn → ((setConn { s with threads := th } conn c).conn c') = s.conn c' :=
      fun c' hc' => Function.update_of_ne hc' ..
    have hset : ((setConn { s with threads := th } conn c).conn conn) = c := Function.update_self ..
    -- nothing came
    have hnone : ∀ (x : Stmt),
        (∀ c, x.entering c = none) → c.inputBuffer.content = (s.conn conn).inputBuffer.content →
        s' = push (setConn { s with threads := th } conn c) t [x] → Incoming s' := by
      intro x hx hsame heq
      have hg : Grown t th s'.threads [x] (fun _ => []) := by rw [heq]; exact Grown.push _
      have hconn : ∀ c', (s'.conn c').inputBuffer.content = (s.conn c').inputBuffer.content ∧
          (s'.conn c').inputBuffer.Valid := by
        intro c'
        rw [heq]
        by_cases hc' : c' = conn
        · subst hc'
          rw [push, hset]
          exact ⟨hsame, hv⟩
        · rw [push, hother c' hc']
          exact ⟨rfl, h.valid c'⟩
      have hentering : ∀ c', entering s' c' = entering s c' := fun c' => by
        obtain ⟨hbefore, hafter⟩ := filterMap_step (Stmt.entering c') hp hg (s.ioLoop c')
        rw [entering, entering, show s'.ioLoop = s.ioLoop by rw [heq]; rfl, hbefore, hafter,
          filterMap_nil (l := [x]) fun y hy => by rw [List.mem_singleton.mp hy]; exact hx c']
        simp [Stmt.entering]
      refine ⟨fun c' => (hconn c').2, fun c' => ?_, fun c' => ?_, ?_, fun c' => ?_⟩
      · rw [(hconn c').1, hentering, entered, heq]
        exact h.messages c'
      · rw [(hconn c').1, heq]
        exact h.rest c'
      · rw [heq]
        exact h.known
      · rw [(hconn c').1, show s'.ioLoop = s.ioLoop by rw [heq]; rfl]
        exact (h.idle c').imp_right fun hm => mem_agenda_step hp hg hm (by simp)
    rcases hcase with ⟨b, bytes, hr, heq⟩ | ⟨hr, heq⟩ | ⟨hr, heq⟩
    · have hg : Grown t th s'.threads [.onMessage conn] (fun _ => []) := by rw [heq]; exact Grown.push _
      have hioLoop : s'.ioLoop = s.ioLoop := by rw [heq]; rfl
      have hentering : ∀ c', entering s' c' = entering s c' := fun c' => by
        obtain ⟨hbefore, hafter⟩ := filterMap_step (Stmt.entering c') hp hg (s.ioLoop c')
        rw [entering, entering, hioLoop, hbefore, hafter, filterMap_nil (l := [_]) (by simp [Stmt.entering])]
        simp [Stmt.entering]
      have horder : ∀ c', entered s' c' = entered s c' := fun c' => by rw [heq]; rfl
      have hconn : s'.conn conn = c ∧ s'.history.received conn = s.history.received conn ++ b :: bytes := by
        rw [heq]
        exact ⟨hset, Function.update_self ..⟩
      have hold : ∀ c', c' ≠ conn → s'.conn c' = s.conn c' ∧ s'.history.received c' = s.history.received c' := by
        intro c' hc'
        rw [heq]
        exact ⟨hother c' hc', Function.update_of_ne hc' ..⟩
      rw [hr, Option.getD_some] at hcontent
      have hfed := Framing.Decoder.parse_append frames (s.history.received conn) (b :: bytes)
      have hbuf := Framing.Decoder.parse_append frames (s.conn conn).inputBuffer.content (b :: bytes)
      rw [← h.rest conn] at hbuf
      refine ⟨fun c' => ?_, fun c' => ?_, fun c' => ?_, ?_, fun c' => ?_⟩
      · by_cases hc' : c' = conn
        · rw [hc', hconn.1]
          exact hv
        · rw [(hold c' hc').1]
          exact h.valid c'
      · rw [horder, hentering]
        by_cases hc' : c' = conn
        · rw [hc', hconn.1, hconn.2, hcontent, hfed, hbuf, h.messages conn]
          simp
        · rw [(hold c' hc').1, (hold c' hc').2]
          exact h.messages c'
      · by_cases hc' : c' = conn
        · rw [hc', hconn.1, hconn.2, hcontent, hfed, hbuf]
        · rw [(hold c' hc').1, (hold c' hc').2]
          exact h.rest c'
      · rw [heq]
        exact h.known
      · rw [hioLoop]
        by_cases hc' : c' = conn
        · refine .inr ?_
          rw [hc', ← hio, agenda, hg.agendas, if_pos rfl]
          simp
        · rw [(hold c' hc').1]
          exact (h.idle c').imp_right fun hm => mem_agenda_step hp hg hm (by simp)
    · refine hnone (.handleClose conn) (fun _ => rfl) ?_ heq
      rw [hcontent, hr]
      exact List.append_nil _
    · refine hnone (.handleError conn) (fun _ => rfl) ?_ heq
      rw [hcontent, hr]
      exact List.append_nil _

/-- **One turn of the codec**: the first message of the buffer waits for the mutex, or there is none. -/
theorem incoming_onMessage (hctl : Control s) (h : Incoming s) (hp : s.threads.pop t = some (.onMessage conn, th))
    (hs : onMessage { s with threads := th } t conn = .ok s') : Incoming s' := by
  have hat := hctl.at hp
  cases hat with
  | plain _ _ hplaced hrest =>
    have hio := hplaced.own trivial conn rfl
    rcases onMessage_eq hs with ⟨buf, message, hturn, heq⟩ | ⟨events, hturn, heq⟩
    · obtain ⟨hv, hparse⟩ := turn_again_eq (h.valid conn) hturn
      have hg : Grown t th s'.threads [.onStringMessage conn message, .onMessage conn] (fun _ => []) := by
        rw [heq]
        exact Grown.push _
      have hioLoop : s'.ioLoop = s.ioLoop := by rw [heq]; rfl
      have hentering : ∀ c', entering s' c' = (if c' = conn then [message] else []) ++ entering s c' := fun c' => by
        obtain ⟨hbefore, hafter⟩ := filterMap_step (Stmt.entering c') hp hg (s.ioLoop c')
        rw [entering, entering, hioLoop, hbefore, hafter]
        by_cases hc' : c' = conn
        · subst hc'
          simp [hio, Stmt.entering]
        · simp [hc', Ne.symm hc', Stmt.entering]
      -- the thread was at no other message
      have hnone : entering s conn = [] := by
        have hbefore := filterMap_pop (Stmt.entering conn) hp (s.ioLoop conn)
        rw [entering, hbefore, ← hio, filterMap_nil fun x hx => (hrest x hx).1.heard.2.2 conn]
        simp [Stmt.entering]
      have hconn : (s'.conn conn).inputBuffer = buf := by
        rw [heq]
        simp [push, setConn]
      have hold : ∀ c', c' ≠ conn → s'.conn c' = s.conn c' := fun c' hc' => by
        rw [heq]
        exact Function.update_of_ne hc' ..
      have hhistory : s'.history = s.history := by rw [heq]; rfl
      refine ⟨fun c' => ?_, fun c' => ?_, fun c' => ?_, ?_, fun c' => ?_⟩
      · by_cases hc' : c' = conn
        · rw [hc', hconn]
          exact hv
        · rw [hold c' hc']
          exact h.valid c'
      · rw [hentering, entered, hhistory]
        by_cases hc' : c' = conn
        · rw [hc', hconn, if_pos rfl, h.messages conn, hparse, hnone]
          simp [entered]
        · rw [hold c' hc', if_neg hc']
          exact h.messages c'
      · rw [hhistory]
        by_cases hc' : c' = conn
        · rw [hc', hconn, h.rest conn, hparse]
        · rw [hold c' hc']
          exact h.rest c'
      · rw [heq]
        exact h.known
      · rw [hioLoop]
        by_cases hc' : c' = conn
        · refine .inr ?_
          rw [hc', ← hio, agenda, hg.agendas, if_pos rfl]
          simp
        · rw [hold c' hc']
          refine (h.idle c').imp_right fun hm => mem_agenda_step hp hg hm ?_
          intro heq'
          exact hc' (Stmt.onMessage.inj heq')
    · have hg : Grown t th s'.threads (events.flatMap (eventStmts conn)) (fun _ => []) := by
        rw [heq]
        exact Grown.push _
      have hioLoop : s'.ioLoop = s.ioLoop := by rw [heq]; rfl
      have hconn : s'.conn = s.conn := by rw [heq]; rfl
      have hhistory : s'.history = s.history := by rw [heq]; rfl
      have hentering : ∀ c', entering s' c' = entering s c' := fun c' => by
        obtain ⟨hbefore, hafter⟩ := filterMap_step (Stmt.entering c') hp hg (s.ioLoop c')
        rw [entering, entering, hioLoop, hbefore, hafter, filterMap_nil (l := events.flatMap _) fun x hx => by
          rw [turn_leave hturn hx]
          rfl]
        simp [Stmt.entering]
      refine ⟨fun c' => ?_, fun c' => ?_, fun c' => ?_, ?_, fun c' => ?_⟩
      · rw [hconn]
        exact h.valid c'
      · rw [hentering, entered, hhistory, hconn]
        exact h.messages c'
      · rw [hhistory, hconn]
        exact h.rest c'
      · rw [heq]
        exact h.known
      · rw [hioLoop, hconn]
        by_cases hc' : c' = conn
        · exact .inl (hc' ▸ turn_leave_eq (h.valid conn) hturn)
        · refine (h.idle c').imp_right fun hm => mem_agenda_step hp hg hm ?_
          intro heq'
          exact hc' (Stmt.onMessage.inj heq')

/-- **The message that waited is in the order.** -/
theorem incoming_onStringMessage {message : List Byte} (hctl : Control s) (h : Incoming s)
    (hp : s.threads.pop t = some (.onStringMessage conn message, th)) :
    Incoming (onStringMessage { s with threads := th } t conn message) := by
  have hat := hctl.at hp
  cases hat with
  | plain _ hplain => rcases hplain with h' | ⟨_, h'⟩ <;> cases h'
  | message _ _ _ hknown hio _ =>
    have hg : Grown t th (onStringMessage { s with threads := th } t conn message).threads
        [.queueEach s.loops.elems message, .unlock] (fun _ => []) := Grown.push _
    -- the message goes from the front of the agenda into the order
    have hentered : ∀ c, entered (onStringMessage { s with threads := th } t conn message) c =
        entered s c ++ if c = conn then [message] else [] := fun c => by
      show ((s.history.order ++ [(conn, message)]).filter fun p => p.1 = c).map Prod.snd = _
      rw [List.filter_append, List.map_append, entered]
      by_cases hc : c = conn
      · simp [hc]
      · simp [hc, Ne.symm hc]
    have hentering : ∀ c, entering s c = (if c = conn then [message] else []) ++
        entering (onStringMessage { s with threads := th } t conn message) c := fun c => by
      obtain ⟨hbefore, hafter⟩ := filterMap_step (Stmt.entering c) hp hg (s.ioLoop c)
      rw [entering, entering, hbefore]
      refine Eq.trans ?_ (congrArg _ hafter.symm)
      by_cases hc : c = conn
      · subst hc
        simp [hio, Stmt.entering]
      · simp [hc, Ne.symm hc, Stmt.entering]
    refine ⟨h.valid, fun c => ?_, h.rest, ?_, fun c => ?_⟩
    · rw [hentered]
      refine (h.messages c).trans ?_
      rw [hentering c]
      simp [onStringMessage, push]
    · intro p hp'
      rcases List.mem_append.mp hp' with hp' | hp'
      · exact h.known p hp'
      · rw [List.mem_singleton.mp hp']
        exact hknown
    · exact (h.idle c).imp_right fun hm => mem_agenda_step hp hg hm (by simp)

/-- The statements that are heard; those of `Fanout` and `Delivery` leave the input alone. -/
theorem incoming_run (hctl : Control s) (hd : Delivery s) (h : Incoming s)
    (hp : s.threads.pop t = some (stmt, th)) (hq : ¬ stmt.Quiet)
    (hs : run cfg { s with threads := th } t w r stmt = .ok s') : Incoming s' := by
  have hat := hctl.at hp
  cases stmt with
  | acceptLoop => cases hs
  | insertLoop =>
    simp only [run, bind_eq_ok, pure_eq_ok, Except.ok.injEq] at hs
    obtain ⟨-, -, rfl⟩ := hs
    exact h.exec hp Grown.same (fun _ => rfl) (by simp) (by simp) (by simp)
      rfl rfl rfl rfl fun _ => rfl
  | onConnection conn =>
    obtain ⟨hframe, -, hcase⟩ := onConnection_eq hs
    have hhistory : s'.history.order = s.history.order ∧ s'.history.received = s.history.received := by
      rcases hcase with ⟨-, -, hhistory⟩ | ⟨-, -, hhistory⟩
      · rw [hhistory]
        split <;> exact ⟨rfl, rfl⟩
      · rw [hhistory]
        exact ⟨rfl, rfl⟩
    exact h.exec hp (by rw [hframe]; exact Grown.same) (fun _ => rfl) (by simp)
      (by simp) (by simp) (by rw [hframe]) (by rw [hframe]) hhistory.1 hhistory.2 fun _ => by rw [hframe]
  | handleRead conn => exact incoming_handleRead hctl h hp hs
  | onMessage conn => exact incoming_onMessage hctl h hp hs
  | onStringMessage conn message =>
    simp only [run, bind_eq_ok, pure_eq_ok, Except.ok.injEq] at hs
    obtain ⟨-, -, rfl⟩ := hs
    exact incoming_onStringMessage hctl h hp
  | queueEach loops message =>
    cases loops with
    | nil =>
      simp only [run, pure_eq_ok, Except.ok.injEq] at hs
      subst hs
      exact h.exec hp Grown.same (fun _ => rfl) (by simp) (by simp) (by simp)
        rfl rfl rfl rfl fun _ => rfl
    | cons l loops =>
      simp only [run, pure_eq_ok, Except.ok.injEq] at hs
      have hg : Grown t th s'.threads [.queueEach loops message]
          (fun t' => if t' = l then [.distributeMessage message] else []) := by
        rw [← hs]
        exact Grown.queueEach l loops message
      refine h.exec hp hg (fun _ => rfl) (by simp) (by simp [Stmt.entering]) (fun t' x hx => ?_)
        (by rw [← hs]; rfl) (by rw [← hs]; rfl) (by rw [← hs]; rfl) (by rw [← hs]; rfl)
        fun _ => by rw [← hs]; rfl
      split at hx
      · obtain rfl := List.mem_singleton.mp hx
        exact fun _ => rfl
      · exact absurd hx List.not_mem_nil
  | unlock =>
    simp only [run, pure_eq_ok, Except.ok.injEq] at hs
    subst hs
    exact h.exec hp Grown.same (fun _ => rfl) (by simp) (by simp) (by simp)
      rfl rfl rfl rfl fun _ => rfl
  | distributeMessage message =>
    obtain ⟨locals, -, rfl⟩ := distributeMessage_eq hs
    refine h.exec hp (Grown.push _) (fun _ => rfl) (by simp) (fun x hx => ?_) (by simp) rfl rfl rfl rfl fun _ => rfl
    obtain ⟨c, -, rfl⟩ := List.mem_map.mp hx
    exact fun _ => rfl
  | send conn message =>
    cases hat with
    | plain _ hplain => rcases hplain with h' | ⟨_, h'⟩ <;> cases h'
    | send _ conns _ rest _ _ hmem =>
      -- only the output side of the connection changes
      have hio := (hctl.member t conn (hmem conn List.mem_cons_self)).2
      rcases send_eq (s := { s with threads := th }) hio.symm hs with ⟨-, rfl⟩ | ⟨-, c, wc, hsend, rfl⟩
      · exact h.exec hp Grown.same (fun _ => rfl) (by simp) (by simp) (by simp)
          rfl rfl rfl rfl fun _ => rfl
      · refine h.exec hp Grown.same (fun _ => rfl) (by simp) (by simp) (by simp)
          rfl rfl rfl rfl fun c' => ?_
        obtain ⟨hframe, -⟩ := TcpConnection.sendInLoop_cases (c := s.conn conn) (hd.output conn).1 hsend
        by_cases hc' : c' = conn
        · subst hc'
          simp only [setConn, Function.update_self]
          rw [hframe]
        · simp [setConn, hc']
  -- `send` is called in the loop of the connection, and queues nothing
  | sendInLoop conn bytes =>
    cases hat with
    | plain _ hplain => rcases hplain with h' | ⟨_, h'⟩ <;> cases h'
  | _ => exact absurd trivial hq

/-- A message waits for the mutex only of a connection there is. -/
theorem Control.entering_unknown (h : Control s) (t : ThreadId) (hconn : s.nextConnId ≤ conn) :
    (agenda s t).filterMap (Stmt.entering conn) = [] := by
  obtain ⟨front, rest, heq, hfront, hrest⟩ := h.shaped t
  rw [heq, List.filterMap_append, filterMap_nil fun x hx => (hrest x hx).1.heard.2.2 conn, List.append_nil]
  cases hfront with
  | sends conns message =>
    refine filterMap_nil fun x hx => ?_
    obtain ⟨c, -, rfl⟩ := List.mem_map.mp hx
    rfl
  | message c message _ hknown =>
    have hne : c ≠ conn := (hknown.trans_le hconn).ne
    simp [Stmt.entering, hne]
  | queueEach => rfl
  | unlock => rfl

/-- A new connection has read nothing. -/
theorem incoming_newConnection {self : Addr} {sockfd : Int} (hctl : Control s) (h : Incoming s)
    (hs : newConnection cfg s self sockfd = .ok s') : Incoming s' := by
  have heq := newConnection_eq hs
  have hold : ∀ c, c ≠ s.nextConnId → s'.ioLoop c = s.ioLoop c ∧ s'.conn c = s.conn c ∧
      s'.history.received c = s.history.received c := fun c hc => by
    rw [heq]
    exact ⟨Function.update_of_ne hc .., Function.update_of_ne hc .., Function.update_of_ne hc ..⟩
  have hnew : s'.conn s.nextConnId = TcpConnection.new self sockfd ∧ s'.history.received s.nextConnId = [] := by
    rw [heq]
    exact ⟨Function.update_self .., Function.update_self ..⟩
  have horder : s'.history.order = s.history.order := by rw [heq]; rfl
  have hg : Grown cfg.base s.threads s'.threads
      [.runConnectEstablished s.nextConnId, .setCloseCallback s.nextConnId] (fun _ => []) := by
    rw [heq]
    exact Grown.push _
  refine ⟨fun c => ?_, fun c => ?_, fun c => ?_, fun p hp => ?_, fun c => ?_⟩
  · by_cases hc : c = s.nextConnId
    · rw [hc, hnew.1]
      exact Buffer.valid_new
    · rw [(hold c hc).2.1]
      exact h.valid c
  · rw [entered, horder, entering, newConnection_silent hs _ (fun _ hx => hx.heard.2.2.2 c)]
    by_cases hc : c = s.nextConnId
    · have hnone : s.history.order.filter (fun p => p.1 = c) = [] := by
        rw [List.filter_eq_nil_iff]
        intro p hp
        rw [decide_eq_true_eq, hc]
        exact (h.known p hp).ne
      rw [hctl.entering_unknown _ (le_of_eq hc.symm), hnone, hc, hnew.1, hnew.2]
      simp [TcpConnection.new]
    · rw [(hold c hc).1, (hold c hc).2.1, (hold c hc).2.2]
      exact h.messages c
  · by_cases hc : c = s.nextConnId
    · rw [hc, hnew.1, hnew.2]
      simp [TcpConnection.new]
    · rw [(hold c hc).2.1, (hold c hc).2.2]
      exact h.rest c
  · rw [horder] at hp
    rw [heq]
    exact (h.known p hp).trans (Nat.lt_succ_self _)
  · by_cases hc : c = s.nextConnId
    · refine .inl ?_
      rw [hc, hnew.1, show (TcpConnection.new self sockfd).inputBuffer.content = [] from Buffer.content_new,
        Framing.Decoder.parse_of_none rfl]
    · rw [(hold c hc).1, (hold c hc).2.1]
      refine (h.idle c).imp_right fun hm => ?_
      rw [agenda, hg.agendas]
      exact List.mem_append_left _ (List.mem_append_right _ hm)

/-- **One step**: unheard, a new connection, or a statement that is heard. -/
theorem incoming_step {a : Label} (hctl : Control s) (hd : Delivery s) (h : Incoming s)
    (hs : step cfg s a = .ok s') : Incoming s' := by
  rcases step_heard hctl hs with hun | ⟨self, sockfd, -, hnew⟩ | ⟨t, w, r, stmt, th, hp, hq, hrun⟩
  · exact h.frame hun.same.ioLoop hun.same.nextConnId hun.same.order hun.same.received (fun c => (hun.conns c).input)
      hun.entering fun c => hun.reading _ c
  · exact incoming_newConnection hctl h hnew
  · exact incoming_run hctl hd h hp hq hrun

theorem incoming_start : Incoming (start cfg) := by
  have hnone : ∀ t c, (agenda (start cfg) t).filterMap (Stmt.entering c) = [] :=
    fun t c => filterMap_nil fun _ hx => (start_silent hx).1.heard.2.2.2 c
  have hempty : frames.parse [] = ([], []) := Framing.Decoder.parse_of_none rfl
  refine ⟨fun _ => Buffer.valid_new, fun c => ?_, fun c => ?_, fun p hp => absurd hp List.not_mem_nil,
    fun c => .inl ?_⟩
  · rw [entering, hnone]
    show (frames.parse []).1 = [] ++ [] ++ (frames.parse Buffer.new.content).1
    rw [Buffer.content_new, hempty]
    rfl
  · show (frames.parse []).2 = (frames.parse Buffer.new.content).2
    rw [Buffer.content_new]
  · show (frames.parse Buffer.new.content).1 = []
    rw [Buffer.content_new, hempty]

/-- **Nothing of a stream is lost or said twice**, in every run. -/
theorem incoming_of_reachable (h : (chatServer cfg).Reachable s) : Incoming s :=
  h.invariant (I := Incoming) (fun s h0 => by obtain rfl := h0; exact incoming_start)
    (fun _ _ _ hr hI _ hs => incoming_step (control_of_reachable hr) (delivery_of_reachable hr) hI hs)

/-! ## The result -/

/-- The codec is done with `conn`'s input, and nothing of it waits for the mutex. -/
def Idle (s : ChatServer) (conn : ConnId) : Prop :=
  .onMessage conn ∉ agenda s (s.ioLoop conn) ∧ ∀ message, .onStringMessage conn message ∉ agenda s (s.ioLoop conn)

/-- **What a client says reaches the order** once, in the order of its stream: the messages of all that was
    read from it, up to what waits for the mutex and what the codec has still to take from the buffer. -/
theorem broadcast_in_order (h : (chatServer cfg).Reachable s) (conn : ConnId) :
    (frames.parse (s.history.received conn)).1 =
        entered s conn ++ entering s conn ++ (frames.parse (s.conn conn).inputBuffer.content).1 ∧
      (Idle s conn → entered s conn = (frames.parse (s.history.received conn)).1) := by
  have hin := incoming_of_reachable h
  refine ⟨hin.messages conn, fun hidle => ?_⟩
  have hentering : entering s conn = [] := by
    refine filterMap_nil fun x hx => ?_
    cases x with
    | onStringMessage c message =>
      have hne : c ≠ conn := fun heq => hidle.2 message (heq ▸ hx)
      simp [Stmt.entering, hne]
    | _ => rfl
  rw [hin.messages conn, hentering, (hin.idle conn).resolve_right hidle.1]
  simp

/-- The state of `delivered_in_order_sample`, but for the second half of a message. -/
theorem broadcast_in_order_sample : ∃ s, s.history.received 1 = [0, 0, 0, 1, 65, 0, 0, 0, 2, 66] ∧
    entered s 1 = [[65]] ∧ (frames.parse (s.history.received 1)).1 = entered s 1 := by
  obtain ⟨s, hs, hp⟩ := System.Reach.of_exec (S := chatServer twoLoops) (s := start twoLoops)
    (l := startLabels ++ connectLabels ++ [.loop 1 .next, .loop 1 .next, .loop 1 .next,
      .loop 1 (.poll [.channel (.connection 1 {.POLLIN})]), .loop 1 .next,
      .exec 1 none (some [0, 0, 0, 1, 65, 0, 0, 0, 2, 66]), .exec 1 none none, .exec 1 none none, .exec 1 none none,
      .exec 1 none none, .exec 1 none none, .exec 1 none none, .exec 1 none none])
    (p := fun s => decide (s.history.received 1 = [0, 0, 0, 1, 65, 0, 0, 0, 2, 66] ∧ entered s 1 = [[65]] ∧
      (∀ x ∈ agenda s (s.ioLoop 1), x = .distributeMessage [65]))) (.init rfl) (by decide +kernel)
  rw [decide_eq_true_eq] at hp
  refine ⟨s, hp.1, hp.2.1, ((broadcast_in_order hs 1).2 ⟨fun hx => ?_, fun message hx => ?_⟩).symm⟩
  · cases hp.2.2 _ hx
  · cases hp.2.2 _ hx

end HighPerformance

end Irono
