import Irono.Example.ChatHighPerformance
import Irono.Example.Correctness.Framing

/-!
# `Example.Correctness.ChatStatements` — what one statement of the chat server can do

A statement puts statements in front of what its thread has to do and functors behind what the loops have
to do (`Grown`). Most leave the chat alone (`run_quiet`): the mutex, the sets and the messages are the
business of the other few, which have one lemma each.
-/

namespace Irono

open Transition Threads

namespace HighPerformance

/-- All that thread `t` has still to do. -/
def agenda (s : ChatServer) (t : ThreadId) : List Stmt := s.threads.agenda Handler.stmts t

/-- `LocalConnections` of thread `t`. -/
def members (s : ChatServer) (t : ThreadId) : OrderedSet ConnId := (s.locals t).value.getD OrderedSet.empty

/-! ## Kinds of statements -/

/-- The connection it is about. -/
def Stmt.conn : Stmt → Option ConnId
  | .runConnectEstablished conn => some conn
  | .setCloseCallback conn => some conn
  | .connectEstablished conn => some conn
  | .connectDestroyed conn => some conn
  | .removeChannel conn => some conn
  | .handleRead conn => some conn
  | .handleWrite conn => some conn
  | .handleClose conn => some conn
  | .handleError conn => some conn
  | .removeConnection conn => some conn
  | .removeConnectionInLoop conn => some conn
  | .onConnection conn => some conn
  | .onMessage conn => some conn
  | .shutdown conn => some conn
  | .shutdownInLoop conn => some conn
  | _ => none

/-- It is on no agenda but that of the connection's own loop. -/
def Stmt.Local : Stmt → Prop
  | .onConnection _ => True
  | .onMessage _ => True
  | .handleRead _ => True
  | _ => False

/-- It is about a connection there is, and on the agenda it belongs to. -/
structure Stmt.Placed (s : ChatServer) (t : ThreadId) (stmt : Stmt) : Prop where
  known : ∀ conn ∈ stmt.conn, conn < s.nextConnId
  own : stmt.Local → ∀ conn ∈ stmt.conn, t = s.ioLoop conn

/-- It carries no message. -/
def Stmt.Silent : Stmt → Prop
  | .onStringMessage _ _ => False
  | .queueEach _ _ => False
  | .unlock => False
  | .distributeMessage _ => False
  | .send _ _ => False
  | .sendInLoop _ _ => False
  | _ => True

/-- It belongs to `start()`. -/
def Stmt.isStart : Stmt → Bool
  | .startThread _ => true
  | .waitLoop _ => true
  | .threadFunc => true
  | .threadInit => true
  | .insertLoop => true
  | .setLoop => true
  | _ => false

/-- It leaves the chat alone. -/
def Stmt.Quiet : Stmt → Prop
  | .acceptLoop => False
  | .insertLoop => False
  | .onConnection _ => False
  | .onMessage _ => False
  | .handleRead _ => False
  | stmt => stmt.Silent

/-! ## What is on the agendas -/

/-- Thread `t` has put `front` in front of its agenda, and `back` behind the loops'. -/
structure Grown (t : ThreadId) (th th' : Threads Handler Stmt) (front : List Stmt)
    (back : ThreadId → List Stmt) : Prop where
  agendas : ∀ t', th'.agenda Handler.stmts t' =
    (if t' = t then front else []) ++ th.agenda Handler.stmts t' ++ back t'
  functors : ∀ t', th'.functors t' = th.functors t' ++ back t'
  batched : th.Batched → th'.Batched

variable {cfg : PoolThreads} {s s' : ChatServer} {t owner : ThreadId} {th th' : Threads Handler Stmt}
  {stmt : Stmt} {conn : ConnId} {w : Option Nat} {r : Option (List Byte)}

theorem Grown.same : Grown t th th [] (fun _ => []) :=
  ⟨fun t' => by simp, fun t' => by simp, id⟩

theorem Grown.of_eq {th' : Threads Handler Stmt} (h : th' = th) : Grown t th th' [] (fun _ => []) := h ▸ Grown.same

theorem Grown.push (stmts : List Stmt) : Grown t th (th.push t stmts) stmts (fun _ => []) :=
  ⟨fun t' => by rw [agenda_push, List.append_nil], fun t' => (List.append_nil _).symm,
    fun hb => batched_push hb stmts⟩

theorem Grown.queueInLoop (stmt : Stmt) :
    Grown t th (th.queueInLoop t owner stmt) [] (fun t' => if t' = owner then [stmt] else []) :=
  ⟨fun t' => by simp [agenda_queueInLoop], fun t' => functors_queueInLoop stmt t',
    fun hb => batched_queueInLoop hb stmt⟩

/-- A turn of the `for` of `onStringMessage`. -/
theorem Grown.queueEach (l : ThreadId) (loops : List ThreadId) (message : List Byte) :
    Grown t th ((th.queueInLoop t l (.distributeMessage message)).push t [.queueEach loops message])
      [.queueEach loops message] (fun t' => if t' = l then [.distributeMessage message] else []) := by
  have hq : Grown t th (th.queueInLoop t l (.distributeMessage message)) [] _ := Grown.queueInLoop _
  exact ⟨fun t' => by rw [agenda_push, hq.agendas]; simp, hq.functors, fun hb => batched_push (hq.batched hb) _⟩

/-- What `runInLoop` adds, in front or behind. -/
theorem Grown.runInLoop (stmt : Stmt) : ∃ front back, Grown t th (th.runInLoop t owner stmt) front back ∧
    (∀ x ∈ front, x = stmt) ∧ ∀ t', ∀ x ∈ back t', x = stmt := by
  unfold Threads.runInLoop
  split
  · exact ⟨_, _, Grown.push [stmt], by simp, by simp⟩
  · refine ⟨_, _, Grown.queueInLoop stmt, by simp, fun t' x hx => ?_⟩
    split at hx
    · simpa using hx
    · exact absurd hx List.not_mem_nil

/-! ## What a quiet statement does -/

/-- The chat is as it was. -/
structure SameChat (s s' : ChatServer) : Prop where
  nextConnId : s'.nextConnId = s.nextConnId
  next : s'.next = s.next
  ioLoop : s'.ioLoop = s.ioLoop
  mutex : s'.mutex = s.mutex
  loops : s'.loops = s.loops
  members : ∀ t, members s' t = members s t
  order : s'.history.order = s.history.order
  joined : s'.history.joined = s.history.joined
  distributed : s'.history.distributed = s.history.distributed
  since : s'.history.since = s.history.since
  sent : s'.history.sent = s.history.sent
  received : s'.history.received = s.history.received

/-- What a connection has been given and has to be read is as it was, and it has not been connected again. -/
structure KeptConn (c c' : TcpConnection) : Prop where
  input : c'.inputBuffer = c.inputBuffer
  output : c.outputBuffer.Valid → c'.outputBuffer.Valid ∧
    c'.socket.accepted ++ c'.outputBuffer.content = c.socket.accepted ++ c.outputBuffer.content
  connecting : c'.state = .kConnecting → c.state = .kConnecting
  connected : c'.state = .kConnected → c.state = .kConnected ∨ c.state = .kConnecting

theorem KeptConn.refl (c : TcpConnection) : KeptConn c c := ⟨rfl, fun hv => ⟨hv, rfl⟩, id, .inl⟩

/-- Only the state and what does not matter to the output have changed. -/
theorem KeptConn.of_frame {c c' : TcpConnection} (hinput : c'.inputBuffer = c.inputBuffer)
    (hsocket : c'.socket.accepted = c.socket.accepted)
    (houtput : c'.outputBuffer = c.outputBuffer) (hconnecting : c'.state = .kConnecting → c.state = .kConnecting)
    (hconnected : c'.state = .kConnected → c.state = .kConnected ∨ c.state = .kConnecting) : KeptConn c c' :=
  ⟨hinput, fun hv => by rw [hsocket, houtput]; exact ⟨hv, rfl⟩, hconnecting, hconnected⟩

theorem keptConn_shutdownInLoop (c : TcpConnection) : KeptConn c c.shutdownInLoop := by
  unfold TcpConnection.shutdownInLoop
  split
  · exact KeptConn.refl c
  · exact KeptConn.of_frame rfl rfl rfl id .inl

/-- `handleWrite` hands on what is in the buffer. -/
theorem keptConn_handleWrite {c c' : TcpConnection} {drained : Bool} (h : c.handleWrite w = .ok (c', drained)) :
    KeptConn c c' := by
  have hstate : c'.state = c.state ∧ c'.inputBuffer = c.inputBuffer := by
    unfold TcpConnection.handleWrite at h
    split at h
    · simp only [bind_eq_ok] at h
      obtain ⟨-, -, out, -, h⟩ := h
      split at h
      · simp only [bind_eq_ok, pure_eq_ok, Except.ok.injEq, Prod.mk.injEq] at h
        obtain ⟨c₁, hu, rfl, -⟩ := h
        rw [(TcpConnection.update_cases hu).1]
        exact ⟨rfl, rfl⟩
      · simp only [pure_eq_ok, Except.ok.injEq, Prod.mk.injEq] at h
        rw [← h.1]
        exact ⟨rfl, rfl⟩
    · simp only [pure_eq_ok, Except.ok.injEq, Prod.mk.injEq] at h
      rw [h.1]
      exact ⟨rfl, rfl⟩
  refine ⟨hstate.2, fun hv => ?_, fun h' => hstate.1 ▸ h', fun h' => .inl (hstate.1 ▸ h')⟩
  obtain ⟨-, hv', hsum, -⟩ := TcpConnection.handleWrite_cases hv h
  exact ⟨hv', hsum⟩

theorem KeptConn.trans {c c' c'' : TcpConnection} (h : KeptConn c c') (h' : KeptConn c' c'') : KeptConn c c'' := by
  refine ⟨h'.input.trans h.input, fun hv => ?_, fun hc => h.connecting (h'.connecting hc), fun hc => ?_⟩
  · obtain ⟨hv', hsum⟩ := h.output hv
    obtain ⟨hv'', hsum'⟩ := h'.output hv'
    exact ⟨hv'', hsum'.trans hsum⟩
  · rcases h'.connected hc with hc | hc
    · exact h.connected hc
    · exact .inr (h.connecting hc)

/-- What a quiet statement does to the rest. -/
structure Quietly (t : ThreadId) (s s' : ChatServer) (stmt : Stmt) : Prop where
  same : SameChat s s'
  started : stmt.isStart = false → s'.loopSet = s.loopSet ∧ s'.locals = s.locals
  conns : ∀ conn, KeptConn (s.conn conn) (s'.conn conn)
  grown : ∃ front back, Grown t s.threads s'.threads front back ∧
    (∀ x ∈ front, x.Silent ∧ (x.isStart = true → stmt.isStart = true) ∧ (stmt.Placed s t → x.Placed s t)) ∧
    ∀ t', ∀ x ∈ back t', x.Silent ∧ x.isStart = false ∧ (stmt.Placed s t → x.Placed s t')

/-- A member of one connection leaves the others alone. -/
theorem keptConn_update {c : TcpConnection} (h : KeptConn (s.conn conn) c) (conn' : ConnId) :
    KeptConn (s.conn conn') ((setConn s conn c).conn conn') := by
  by_cases hc : conn' = conn
  · subst hc
    simpa [setConn] using h
  · simpa [setConn, hc] using KeptConn.refl (s.conn conn')

/-- `instance` gives the thread's value, and keeps it. -/
theorem ThreadLocal.instance_eq {T : Type} {l l' : ThreadLocal T} {e value : T}
    (h : l.instance e = .ok (value, l')) : value = l.value.getD e ∧ l'.value = some value := by
  unfold ThreadLocal.instance at h
  split at h
  · rename_i v hv
    simp only [pure_eq_ok, Except.ok.injEq, Prod.mk.injEq] at h
    obtain ⟨rfl, rfl⟩ := h
    exact ⟨by rw [hv]; rfl, hv⟩
  · rename_i hv
    simp only [bind_eq_ok, pure_eq_ok, Except.ok.injEq, Prod.mk.injEq] at h
    obtain ⟨-, -, rfl, rfl⟩ := h
    exact ⟨by rw [hv]; rfl, rfl⟩

/-- `instance` makes an empty set, or leaves the one there is. -/
theorem members_instance {l : ThreadLocal (OrderedSet ConnId)} {value : OrderedSet ConnId}
    (h : (s.locals t).instance OrderedSet.empty = .ok (value, l)) :
    value = members s t ∧ ∀ t', ((Function.update s.locals t l) t').value.getD OrderedSet.empty = members s t' := by
  obtain ⟨hvalue, hl⟩ := ThreadLocal.instance_eq h
  refine ⟨hvalue, fun t' => ?_⟩
  by_cases ht : t' = t
  · subst ht
    rw [Function.update_self, hl, hvalue]
    rfl
  · rw [Function.update_of_ne ht]
    rfl

theorem Quietly.of_flags {started loopSet : ThreadId → Bool} (h : stmt.isStart = false → loopSet = s.loopSet) :
    Quietly t s { s with started := started, loopSet := loopSet } stmt :=
  ⟨⟨rfl, rfl, rfl, rfl, rfl, fun _ => rfl, rfl, rfl, rfl, rfl, rfl, rfl⟩, fun hs => ⟨h hs, rfl⟩,
    fun c => KeptConn.refl _, [], fun _ => [], Grown.same, by simp, by simp⟩

/-- A member of a connection that keeps it. -/
theorem Quietly.of_conn {c : TcpConnection} (h : KeptConn (s.conn conn) c) : Quietly t s (setConn s conn c) stmt :=
  ⟨⟨rfl, rfl, rfl, rfl, rfl, fun _ => rfl, rfl, rfl, rfl, rfl, rfl, rfl⟩, fun _ => ⟨rfl, rfl⟩, keptConn_update h,
    [], fun _ => [], Grown.same, by simp, by simp⟩

/-- A member of the connection, and what it puts in front. -/
theorem Quietly.of_push {c : TcpConnection} (h : KeptConn (s.conn conn) c) {front : List Stmt}
    (hfront : ∀ x ∈ front, x.Silent ∧ (x.isStart = true → stmt.isStart = true) ∧
      (stmt.Placed s t → x.Placed s t)) :
    Quietly t s (push (setConn s conn c) t front) stmt :=
  ⟨⟨rfl, rfl, rfl, rfl, rfl, fun _ => rfl, rfl, rfl, rfl, rfl, rfl, rfl⟩, fun _ => ⟨rfl, rfl⟩, keptConn_update h,
    front, fun _ => [], Grown.push front, hfront, by simp⟩

/-- A functor of the same connection is put in front or behind. -/
theorem Quietly.of_runInLoop {x : Stmt} (hsilent : x.Silent) (hstart : x.isStart = false) (hlocal : ¬ x.Local)
    (hconn : x.conn = stmt.conn) :
    Quietly t s { s with threads := s.threads.runInLoop t owner x } stmt := by
  obtain ⟨front, back, hgrown, hfront, hback⟩ : ∃ front back,
      Grown t s.threads (s.threads.runInLoop t owner x) front back ∧
      (∀ y ∈ front, y = x) ∧ ∀ t', ∀ y ∈ back t', y = x := Grown.runInLoop x
  have hplaced : ∀ t', stmt.Placed s t → x.Placed s t' := fun _ hp =>
    ⟨fun c hc => hp.known c (hconn ▸ hc), fun hl => absurd hl hlocal⟩
  refine ⟨⟨rfl, rfl, rfl, rfl, rfl, fun _ => rfl, rfl, rfl, rfl, rfl, rfl, rfl⟩, fun _ => ⟨rfl, rfl⟩,
    fun c => KeptConn.refl _, front, back, hgrown, fun y hy => ?_, fun t' y hy => ?_⟩
  · obtain rfl := hfront y hy
    exact ⟨hsilent, fun h => absurd (hstart.symm.trans h) (by simp), hplaced t⟩
  · obtain rfl := hback t' y hy
    exact ⟨hsilent, hstart, hplaced t'⟩

/-- A member of a connection that queues a silent functor. -/
theorem Quietly.of_queueInLoop {c : TcpConnection} (h : KeptConn (s.conn conn) c) {x : Stmt}
    (hsilent : x.Silent) (hstart : x.isStart = false) (hlocal : ¬ x.Local) (hconn : x.conn = stmt.conn) :
    Quietly t s { setConn s conn c with threads := s.threads.queueInLoop t owner x } stmt := by
  refine ⟨⟨rfl, rfl, rfl, rfl, rfl, fun _ => rfl, rfl, rfl, rfl, rfl, rfl, rfl⟩, fun _ => ⟨rfl, rfl⟩,
    keptConn_update h, _, _, Grown.queueInLoop x, by simp, fun t' y hy => ?_⟩
  split at hy
  · obtain rfl := List.mem_singleton.mp hy
    exact ⟨hsilent, hstart, fun hp => ⟨fun c hc => hp.known c (hconn ▸ hc), fun hl => absurd hl hlocal⟩⟩
  · exact absurd hy List.not_mem_nil

theorem Quietly.rest {connections : List ConnId} (h : Quietly t s s' stmt) :
    Quietly t s { s' with connections := connections } stmt :=
  ⟨⟨h.same.nextConnId, h.same.next, h.same.ioLoop, h.same.mutex, h.same.loops, h.same.members, h.same.order,
    h.same.joined, h.same.distributed, h.same.since, h.same.sent, h.same.received⟩, h.started, h.conns, h.grown⟩

/-- `shutdownInLoop` is quiet. -/
theorem shutdownInLoop_quietly (h : shutdownInLoop s t conn = .ok s') : Quietly t s s' stmt := by
  simp only [shutdownInLoop, bind_eq_ok, pure_eq_ok, Except.ok.injEq] at h
  obtain ⟨-, -, rfl⟩ := h
  exact Quietly.of_conn (keptConn_shutdownInLoop _)

/-- `handleWrite` is quiet; it queues the write complete callback at most. -/
theorem handleWrite_quietly (h : handleWrite s t conn w = .ok s') : Quietly t s s' stmt := by
  simp only [handleWrite, bind_eq_ok, Result.mapFault_eq_ok, Prod.exists] at h
  obtain ⟨-, -, c, drained, hc, h⟩ := h
  have hkept := keptConn_handleWrite hc
  split at h
  · simp only [shutdownInLoop, bind_eq_ok, pure_eq_ok, Except.ok.injEq] at h
    obtain ⟨-, -, rfl⟩ := h
    have hset : setConn (setConn s conn c) conn ((setConn s conn c).conn conn).shutdownInLoop =
        setConn s conn c.shutdownInLoop := by simp [setConn]
    rw [hset]
    exact Quietly.of_conn (hkept.trans (keptConn_shutdownInLoop c))
  · simp only [pure_eq_ok, Except.ok.injEq] at h
    subst h
    exact Quietly.of_conn hkept

/-- `threadInit` is quiet up to `insertLoop`. -/
theorem threadInit_quietly (h : threadInit s t = .ok s') : Quietly t s s' .threadInit := by
  simp only [threadInit, bind_eq_ok, require_eq_ok, Prod.exists, pure_eq_ok, Except.ok.injEq] at h
  obtain ⟨-, -, value, l, hl, -, -, rfl⟩ := h
  refine ⟨⟨rfl, rfl, rfl, rfl, rfl, (members_instance hl).2, rfl, rfl, rfl, rfl, rfl, rfl⟩,
    fun hs => absurd hs (by simp [Stmt.isStart]), fun c => KeptConn.refl _, _, _, Grown.push _, fun x hx => ?_, by simp⟩
  obtain rfl := List.mem_singleton.mp hx
  exact ⟨trivial, fun _ => rfl, fun _ => ⟨by simp [Stmt.conn], by simp [Stmt.Local]⟩⟩

/-- **A quiet statement leaves the chat alone.** -/
theorem run_quiet (hq : stmt.Quiet) (hs : run cfg s t w r stmt = .ok s') : Quietly t s s' stmt := by
  cases stmt with
  | startThread io =>
    simp only [run, pure_eq_ok, Except.ok.injEq] at hs
    subst hs
    exact Quietly.of_flags (by simp [Stmt.isStart])
  | waitLoop io =>
    simp only [run, bind_eq_ok, pure_eq_ok, Except.ok.injEq] at hs
    obtain ⟨-, -, rfl⟩ := hs
    exact Quietly.of_flags (by simp [Stmt.isStart])
  | threadFunc =>
    simp only [run, bind_eq_ok, pure_eq_ok, Except.ok.injEq] at hs
    obtain ⟨-, -, rfl⟩ := hs
    exact Quietly.of_flags (by simp [Stmt.isStart])
  | threadInit => exact threadInit_quietly hs
  | setLoop =>
    simp only [run, pure_eq_ok, Except.ok.injEq] at hs
    subst hs
    exact Quietly.of_flags (by simp [Stmt.isStart])
  | runConnectEstablished conn =>
    simp only [run, pure_eq_ok, Except.ok.injEq] at hs
    subst hs
    exact Quietly.of_runInLoop trivial rfl id rfl
  | setCloseCallback conn =>
    simp only [run, pure_eq_ok, Except.ok.injEq] at hs
    subst hs
    exact Quietly.of_conn (KeptConn.of_frame rfl rfl rfl id .inl)
  | connectEstablished conn =>
    simp only [run, bind_eq_ok, require_eq_ok, Result.mapFault_eq_ok, pure_eq_ok, Except.ok.injEq] at hs
    obtain ⟨-, ht, c, hc, rfl⟩ := hs
    obtain ⟨hstate, hframe, -, -⟩ := TcpConnection.connectEstablished_cases hc
    refine Quietly.of_push ?_ fun x hx => ?_
    · exact KeptConn.of_frame (by rw [hframe]) (by rw [hframe]) (by rw [hframe]) (by rw [hframe]; simp)
        (fun _ => .inr hstate)
    · obtain rfl := List.mem_singleton.mp hx
      exact ⟨trivial, by simp [Stmt.isStart], fun hp =>
        ⟨hp.known, fun _ c' hc' => by rw [ht, Option.mem_some.mp hc']⟩⟩
  | connectDestroyed conn =>
    simp only [run, bind_eq_ok, require_eq_ok, Result.mapFault_eq_ok, pure_eq_ok, Except.ok.injEq] at hs
    obtain ⟨-, ht, c, hc, rfl⟩ := hs
    obtain ⟨-, hframe, -, -⟩ := TcpConnection.connectDestroyed_cases hc
    refine Quietly.of_push ?_ fun x hx => ?_
    · exact KeptConn.of_frame (by rw [hframe]) (by rw [hframe]) (by rw [hframe]) (by rw [hframe]; simp)
        (by rw [hframe]; simp)
    · simp only [List.mem_cons, List.not_mem_nil, or_false] at hx
      rcases hx with rfl | rfl
      · exact ⟨trivial, by simp [Stmt.isStart], fun hp =>
          ⟨hp.known, fun _ c' hc' => by rw [ht, Option.mem_some.mp hc']⟩⟩
      · exact ⟨trivial, by simp [Stmt.isStart], fun hp => ⟨hp.known, fun hl => absurd hl id⟩⟩
  | removeChannel conn =>
    simp only [run, bind_eq_ok, Result.mapFault_eq_ok, pure_eq_ok, Except.ok.injEq] at hs
    obtain ⟨-, -, c, hc, rfl⟩ := hs
    obtain ⟨hframe, -⟩ := TcpConnection.removeChannel_cases hc
    exact Quietly.of_conn (KeptConn.of_frame (by rw [hframe]) (by rw [hframe]) (by rw [hframe]) (by rw [hframe]; exact id)
      (by rw [hframe]; exact .inl))
  | handleWrite conn => exact handleWrite_quietly hs
  | handleClose conn =>
    simp only [run, bind_eq_ok, Result.mapFault_eq_ok, pure_eq_ok, Except.ok.injEq] at hs
    obtain ⟨-, -, c, hc, rfl⟩ := hs
    obtain ⟨-, hframe, -, -⟩ := TcpConnection.handleClose_cases hc
    refine Quietly.of_push ?_ fun x hx => ?_
    · exact KeptConn.of_frame (by rw [hframe]) (by rw [hframe]) (by rw [hframe]) (by rw [hframe]; exact id)
        (by rw [hframe]; exact .inl)
    · obtain rfl := List.mem_singleton.mp hx
      exact ⟨trivial, by simp [Stmt.isStart], fun hp => ⟨hp.known, fun hl => absurd hl id⟩⟩
  | handleError conn =>
    simp only [run, pure_eq_ok, Except.ok.injEq] at hs
    subst hs
    exact Quietly.of_flags fun _ => rfl
  | removeConnection conn =>
    simp only [run, pure_eq_ok, Except.ok.injEq] at hs
    subst hs
    exact Quietly.of_runInLoop trivial rfl id rfl
  | removeConnectionInLoop conn =>
    simp only [run, bind_eq_ok, pure_eq_ok, Except.ok.injEq] at hs
    obtain ⟨-, -, -, -, rfl⟩ := hs
    have h : Quietly t s { setConn s conn (s.conn conn) with
        threads := s.threads.queueInLoop t (s.ioLoop conn) (.connectDestroyed conn) } (.removeConnectionInLoop conn) :=
      Quietly.of_queueInLoop (KeptConn.refl _) trivial rfl id rfl
    simpa [setConn] using h.rest
  | shutdown conn =>
    simp only [run] at hs
    split at hs
    · rename_i hup
      have hkept : KeptConn (s.conn conn) { s.conn conn with state := .kDisconnecting } :=
        KeptConn.of_frame rfl rfl rfl (by simp) (by simp)
      split at hs
      · simp only [shutdownInLoop, bind_eq_ok, pure_eq_ok, Except.ok.injEq] at hs
        obtain ⟨-, -, rfl⟩ := hs
        have hset : ∀ c : TcpConnection, setConn (setConn s conn c) conn ((setConn s conn c).conn conn).shutdownInLoop =
            setConn s conn c.shutdownInLoop := fun c => by simp [setConn]
        rw [hset]
        exact Quietly.of_conn (hkept.trans (keptConn_shutdownInLoop _))
      · simp only [pure_eq_ok, Except.ok.injEq] at hs
        subst hs
        exact Quietly.of_queueInLoop hkept trivial rfl id rfl
    · simp only [pure_eq_ok, Except.ok.injEq] at hs
      subst hs
      exact Quietly.of_flags fun _ => rfl
  | shutdownInLoop conn => exact shutdownInLoop_quietly hs
  | _ => exact absurd hq id

/-! ## What the other statements do -/

/-- What `onConnection` does to the set of its loop. -/
theorem onConnection_eq (h : onConnection s t conn = .ok s') :
    s' = { s with locals := s'.locals, history := s'.history } ∧
    (∀ t', t' ≠ t → members s' t' = members s t') ∧
    (((s.conn conn).connected = true ∧ members s' t = (members s t).insert conn ∧
        s'.history = if conn ∉ members s t then { s.history with
            since := Function.update s.history.since conn (s.history.distributed t).length }
          else s.history) ∨
      ((s.conn conn).connected = false ∧ members s' t = (members s t).erase conn ∧ s'.history = s.history)) := by
  simp only [onConnection, bind_eq_ok, Prod.exists, pure_eq_ok, Except.ok.injEq] at h
  obtain ⟨value, l, hl, rfl⟩ := h
  obtain rfl := (members_instance hl).1
  refine ⟨rfl, fun t' ht => ?_, ?_⟩
  · simp [members, ht]
  · cases hup : (s.conn conn).connected with
    | true => exact .inl ⟨rfl, by simp [members], by simp⟩
    | false => exact .inr ⟨rfl, by simp [members], by simp⟩

/-- The codec leaves its loop without a message. -/
theorem turn_leave {buf : Buffer} {events : List LengthHeaderCodec.Event}
    (h : LengthHeaderCodec.turn buf = .ok (.leave events)) {x : Stmt}
    (hx : x ∈ events.flatMap (eventStmts conn)) : x = .shutdown conn := by
  unfold LengthHeaderCodec.turn at h
  split at h
  · simp only at h
    split at h
    · simp only [pure_eq_ok, Except.ok.injEq, LengthHeaderCodec.Turn.leave.injEq] at h
      subst h
      simpa [eventStmts] using hx
    · split at h
      · simp only [bind_eq_ok, pure_eq_ok, Except.ok.injEq] at h
        obtain ⟨_, -, _, -, hturn⟩ := h
        cases hturn
      · simp only [pure_eq_ok, Except.ok.injEq, LengthHeaderCodec.Turn.leave.injEq] at h
        subst h
        simp at hx
  · simp only [pure_eq_ok, Except.ok.injEq, LengthHeaderCodec.Turn.leave.injEq] at h
    subst h
    simp at hx

/-- What `onMessage` does: one turn of the codec. -/
theorem onMessage_eq (h : onMessage s t conn = .ok s') :
    (∃ buf message, LengthHeaderCodec.turn (s.conn conn).inputBuffer = .ok (.again buf message) ∧
      s' = push (setConn s conn { s.conn conn with inputBuffer := buf }) t
        [.onStringMessage conn message, .onMessage conn]) ∨
    (∃ events, LengthHeaderCodec.turn (s.conn conn).inputBuffer = .ok (.leave events) ∧
      s' = push s t (events.flatMap (eventStmts conn))) := by
  simp only [onMessage, bind_eq_ok, Result.mapFault_eq_ok] at h
  obtain ⟨turn, hturn, h⟩ := h
  cases turn with
  | again buf message =>
    simp only [pure_eq_ok, Except.ok.injEq] at h
    exact .inl ⟨buf, message, hturn, h.symm⟩
  | leave events =>
    simp only [pure_eq_ok, Except.ok.injEq] at h
    exact .inr ⟨events, hturn, h.symm⟩

/-- What `distributeMessage` puts in front: one `send` for each connection of the loop. -/
theorem distributeMessage_eq {message : List Byte} (h : distributeMessage s t message = .ok s') :
    ∃ l, (∀ t', ((Function.update s.locals t l) t').value.getD OrderedSet.empty = members s t') ∧
      s' = push { s with
        locals := Function.update s.locals t l
        history := { s.history with
          distributed := Function.update s.history.distributed t (s.history.distributed t ++ [message]) } } t
        ((members s t).elems.map (.send · message)) := by
  simp only [distributeMessage, bind_eq_ok, Prod.exists, pure_eq_ok, Except.ok.injEq] at h
  obtain ⟨value, l, hl, rfl⟩ := h
  obtain ⟨rfl, hmembers⟩ := members_instance hl
  exact ⟨l, hmembers, rfl⟩

/-- A connection that is not connected is sent nothing, and another one the frame. -/
theorem send_eq {message : List Byte} (ht : t = s.ioLoop conn) (h : send s t conn message w = .ok s') :
    ((s.conn conn).connected = false ∧ s' = s) ∨
    ((s.conn conn).connected = true ∧ ∃ c writeComplete,
      (s.conn conn).sendInLoop (LengthHeaderCodec.frame message) w = .ok (c, writeComplete) ∧
      s' = setConn { s with history := { s.history with
        sent := Function.update s.history.sent conn (s.history.sent conn ++ [message]) } } conn c) := by
  simp only [send, bind_eq_ok, Result.mapFault_eq_ok] at h
  obtain ⟨out, hout, h⟩ := h
  cases hup : (s.conn conn).connected with
  | false =>
    rw [hup] at hout
    simp only [LengthHeaderCodec.send, bind_eq_ok, LengthHeaderCodec.connSend, Bool.false_eq_true, if_false,
      pure_eq_ok, Except.ok.injEq] at hout
    obtain ⟨_, -, _, -, rfl⟩ := hout
    simp only [pure_eq_ok, Except.ok.injEq] at h
    exact .inl ⟨rfl, h.symm⟩
  | true =>
    rw [hup, LengthHeaderCodec.send_spec, Except.ok.injEq] at hout
    subst hout
    simp only [if_pos ht, sendInLoop, bind_eq_ok, Result.mapFault_eq_ok, Prod.exists, pure_eq_ok,
      Except.ok.injEq] at h
    obtain ⟨-, -, c, writeComplete, hc, rfl⟩ := h
    exact .inr ⟨rfl, c, writeComplete, hc, rfl⟩

/-- What `handleRead` puts in front of the agenda: bytes are for the codec. -/
theorem handleRead_eq (h : handleRead s t conn r = .ok s') : ∃ c, (s.conn conn).readInput r = .ok c ∧
    ((∃ b bytes, r = some (b :: bytes) ∧ s' = push { setConn s conn c with history := { s.history with
        received := Function.update s.history.received conn (s.history.received conn ++ b :: bytes) } } t
          [.onMessage conn]) ∨
      ((r = some [] ∧ s' = push (setConn s conn c) t [.handleClose conn]) ∨
        (r = none ∧ s' = push (setConn s conn c) t [.handleError conn]))) := by
  simp only [handleRead, bind_eq_ok, Result.mapFault_eq_ok] at h
  obtain ⟨c, hc, h⟩ := h
  refine ⟨c, hc, ?_⟩
  split at h
  · simp only [pure_eq_ok, Except.ok.injEq] at h
    exact .inl ⟨_, _, rfl, h.symm⟩
  · simp only [pure_eq_ok, Except.ok.injEq] at h
    exact .inr (.inl ⟨rfl, h.symm⟩)
  · simp only [pure_eq_ok, Except.ok.injEq] at h
    exact .inr (.inr ⟨rfl, h.symm⟩)

end HighPerformance

end Irono
