import Irono.Example.PingPong

/-!
# `Example.Correctness.PingPong` — the block goes round

What an end has given to its connection is what it opened with and all that it has read (`Good`), and what it
has read is a beginning of what the other end's socket has taken (`Sound`). So each end sees the block again
and again, and while both connections are up the bytes on the way are the block, rotated: none is lost,
doubled or made up, however the reads and writes cut it (`block_goes_round`).
-/

namespace Irono

open Transition

/-- A list that begins like `m` followed by itself repeats `m`. -/
theorem getElem?_of_prefix_append {α : Type} {m l : List α} (hm : m ≠ []) (h : l <+: m ++ l) (i : Nat)
    (hi : i < l.length) :
    l[i]? = m[i % m.length]? := by
  have hpos : 0 < m.length := List.length_pos_iff.mpr hm
  have hsame : l[i]? = (m ++ l)[i]? := by
    obtain ⟨rest, heq⟩ := h
    rw [← heq, List.getElem?_append_left hi]
  induction i using Nat.strong_induction_on with
  | h i ih =>
    by_cases hlt : i < m.length
    · rw [hsame, List.getElem?_append_left hlt, Nat.mod_eq_of_lt hlt]
    · have hback : i - m.length < i := by omega
      have hin : i - m.length < l.length := by omega
      have hsame' : l[i - m.length]? = (m ++ l)[i - m.length]? := by
        obtain ⟨rest, heq⟩ := h
        rw [← heq, List.getElem?_append_left hin]
      rw [hsame, List.getElem?_append_right (by omega), ih _ hback hin hsame',
        ← Nat.mod_eq_sub_mod (Nat.le_of_not_lt hlt)]

namespace PingPong

variable {message opened : List Byte} {s s' : PingPong} {side : Side} {e e' : End} {w : Option Nat}

/-! ## One end -/

/-- All that was given to the connection. -/
def End.given (e : End) : List Byte := e.conn.socket.accepted ++ e.conn.outputBuffer.content

/-- **One end**, which opened with `opened`. -/
structure Good (opened : List Byte) (e : End) : Prop where
  intact : e.conn.Intact
  input : e.conn.inputBuffer.Valid ∧ e.conn.inputBuffer.content = []
  echo : e.given <+: opened ++ e.received
  exact : e.conn.state = .kConnected → e.given = opened ++ e.received
  quiet : e.conn.state = .kConnecting → e.given = [] ∧ e.received = [] ∧ e.conn.channel.index ≠ EPoller.kAdded
  active : e.conn.state = .kConnected → e.closing = false →
    e.conn.channel.index = EPoller.kAdded ∧ .POLLIN ∈ e.conn.channel.events ∧
      (e.conn.outputBuffer.content ≠ [] → .POLLOUT ∈ e.conn.channel.events)

/-- An end before `connectEstablished`. -/
theorem good_new {self : Addr} {sockfd : Int} : Good opened (End.new self sockfd) := by
  refine ⟨?_, ⟨Buffer.valid_new, Buffer.content_new⟩, ?_, fun h => ?_, fun _ => ⟨?_, rfl, ?_⟩, fun h => ?_⟩
  · exact (TcpConnection.intact_new self sockfd).frame Buffer.valid_new rfl rfl
  · simp [End.given, End.new, TcpConnection.new]
  · cases h
  · simp [End.given, End.new, TcpConnection.new]
  · simp [End.new, TcpConnection.new, Channel.new, EPoller.kAdded]
  · cases h

/-- An end that is up watches for input. -/
theorem Good.watches (h : Good opened e) (hup : e.conn.state = .kConnected) (hopen : e.closing = false) :
    e.Watches .POLLIN ∧ (e.conn.outputBuffer.content ≠ [] → e.Watches .POLLOUT) := by
  obtain ⟨hindex, hin, hout⟩ := h.active hup hopen
  have hwatched : e.conn.watched = some e.conn.channel.events := by rw [h.intact.watched, if_pos hindex]
  exact ⟨⟨_, hwatched, hin⟩, fun hne => ⟨_, hwatched, hout hne⟩⟩

/-- What is watched is not new. -/
theorem Good.not_connecting {event : PollFlag} (h : Good opened e) (hwatch : e.Watches event) :
    e.conn.state ≠ .kConnecting := by
  intro hnew
  obtain ⟨events, hwatched, -⟩ := hwatch
  rw [h.intact.watched, if_neg (h.quiet hnew).2.2] at hwatched
  cases hwatched

/-- **`send`** of what was read, or of the opening: `opened ++ e.received` has it already. -/
theorem good_send {bytes : List Byte} (hs : e.send bytes w = .ok e') (hintact : e.conn.Intact)
    (hinput : e.conn.inputBuffer.Valid ∧ e.conn.inputBuffer.content = []) (hnew : e.conn.state ≠ .kConnecting)
    (hecho : e.given <+: opened ++ e.received)
    (hexact : e.conn.state = .kConnected → e.given ++ bytes = opened ++ e.received)
    (hactive : e.conn.state = .kConnected → e.closing = false →
      e.conn.channel.index = EPoller.kAdded ∧ .POLLIN ∈ e.conn.channel.events ∧
        (e.conn.outputBuffer.content ≠ [] → .POLLOUT ∈ e.conn.channel.events)) :
    Good opened e' ∧ e'.received = e.received ∧ e.conn.socket.accepted <+: e'.conn.socket.accepted := by
  unfold End.send at hs
  split at hs
  · rename_i hup
    have hup' : e.conn.state = .kConnected := decide_eq_true_iff.mp hup
    simp only [bind_eq_ok, Prod.exists, pure_eq_ok, Except.ok.injEq] at hs
    obtain ⟨c, wc, hsend, rfl⟩ := hs
    obtain ⟨hframe, hv, hsum, hcase⟩ := TcpConnection.sendInLoop_cases hintact.valid hsend
    have hgiven : End.given { e with conn := c } = opened ++ e.received := hsum.trans (hexact hup')
    refine ⟨⟨(TcpConnection.sendInLoop_intact hintact hsend).1, ?_, ?_, fun _ => hgiven, fun h => ?_,
      fun _ hopen => ?_⟩, rfl, TcpConnection.sendInLoop_accepted hsend⟩
    · rw [hframe]
      exact hinput
    · rw [hgiven]
    · have hstate : c.state = e.conn.state := by rw [hframe]
      rw [hstate] at h
      exact absurd h hnew
    · obtain ⟨hindex, hin, hout⟩ := hactive hup' hopen
      rcases hcase with ⟨-, hbuf, hch, -⟩ | ⟨-, -, ⟨hw, hch, -⟩ | ⟨-, hch, hupd⟩⟩
      · rw [hbuf, hch]
        exact ⟨hindex, hin, hout⟩
      · rw [hch]
        exact ⟨hindex, hin, fun _ => Channel.isWriting_iff.mp hw⟩
      · have hevents : c.channel.events = e.conn.channel.events ∪ Channel.kWriteEvent := by rw [hch]; rfl
        have hindex' : c.channel.index = EPoller.kAdded := by
          rcases hupd with ⟨-, hnone, -⟩ | ⟨-, hadded, -⟩
          · have hmem : PollFlag.POLLIN ∈ e.conn.channel.enableWriting.events := Finset.mem_union_left _ hin
            rw [hnone] at hmem
            cases hmem
          · exact hadded
        rw [hevents]
        exact ⟨hindex', Finset.mem_union_left _ hin, fun _ => Finset.mem_union_right _ (by simp [Channel.kWriteEvent])⟩
  · rename_i hdown
    obtain rfl := Except.ok.inj hs
    have hdown' : e.conn.state ≠ .kConnected := fun hup => hdown (decide_eq_true_iff.mpr hup)
    exact ⟨⟨hintact, hinput, hecho, fun h => absurd h hdown', fun h => absurd h hnew, fun h => absurd h hdown'⟩, rfl,
      List.prefix_refl _⟩

/-- The client's `onConnection` sends the block. -/
theorem good_connectEstablished (h : Good opened e) (hs : e.connectEstablished opened w = .ok e') :
    Good opened e' ∧ e'.received = e.received ∧ e.conn.socket.accepted <+: e'.conn.socket.accepted := by
  simp only [End.connectEstablished, bind_eq_ok] at hs
  obtain ⟨c, hc, hs⟩ := hs
  obtain ⟨hnew, hframe, hch, hupd⟩ := TcpConnection.connectEstablished_cases hc
  obtain ⟨hgiven, hreceived, -⟩ := h.quiet hnew
  have hsocket : c.socket = e.conn.socket := by rw [hframe]
  have hout : c.outputBuffer = e.conn.outputBuffer := by rw [hframe]
  have hgiven' : End.given { e with conn := c } = [] := by rw [← hgiven, End.given, End.given, hsocket, hout]
  have hup : c.state = .kConnected := by rw [hframe]
  have hactive : c.channel.index = EPoller.kAdded ∧ .POLLIN ∈ c.channel.events ∧
      (c.outputBuffer.content ≠ [] → .POLLOUT ∈ c.channel.events) := by
    have hread : PollFlag.POLLIN ∈ e.conn.channel.enableReading.events :=
      Finset.mem_union_right _ (by simp [Channel.kReadEvent])
    have hevents : c.channel.events = e.conn.channel.enableReading.events := by rw [hch]
    have hempty : c.outputBuffer.content = [] := (List.append_eq_nil_iff.mp hgiven').2
    refine ⟨?_, hevents ▸ hread, fun hne => absurd hempty hne⟩
    rcases hupd with ⟨-, hnone, -⟩ | ⟨-, hadded, -⟩
    · rw [hnone] at hread
      cases hread
    · exact hadded
  have hgood : Good opened e' ∧ e'.received = e.received ∧ c.socket.accepted <+: e'.conn.socket.accepted := by
    refine good_send hs (TcpConnection.connectEstablished_intact h.intact hc).1 ?_ ?_ ?_ ?_ (fun _ _ => hactive)
    · rw [hframe]
      exact h.input
    · rw [hup]
      simp
    · rw [hgiven']
      exact List.nil_prefix
    · intro _
      rw [hgiven', hreceived]
      simp
  rwa [hsocket] at hgood

/-- What is read is sent back. -/
theorem good_handleRead {bytes : List Byte} (h : Good opened e) (hwatch : e.Watches .POLLIN)
    (hs : e.handleRead bytes w = .ok e') :
    Good opened e' ∧ e'.received = e.received ++ bytes ∧ e.conn.socket.accepted <+: e'.conn.socket.accepted := by
  simp only [End.handleRead, bind_eq_ok] at hs
  obtain ⟨c, hc, hs⟩ := hs
  have hframe := TcpConnection.readInput_cases hc
  obtain ⟨hv, hcontent⟩ := TcpConnection.readInput_spec h.input.1 hc
  have hmessage : c.inputBuffer.content = bytes := by rw [hcontent, h.input.2]; rfl
  have hstate : c.state = e.conn.state := by rw [hframe]
  have hsocket : c.socket = e.conn.socket := by rw [hframe]
  have hout : c.outputBuffer = e.conn.outputBuffer := by rw [hframe]
  have hch : c.channel = e.conn.channel := by rw [hframe]
  have hintact := (TcpConnection.readInput_intact h.intact hc).1
  -- `send` has what `retrieveAsString` gave
  obtain ⟨e₁, he₁⟩ : ∃ e₁ : End, e₁ = { e with
      conn := { c with inputBuffer := c.inputBuffer.retrieveAll }, received := e.received ++ bytes } := ⟨_, rfl⟩
  have hs₁ : e₁.send bytes w = .ok e' := by
    rw [he₁, ← hmessage]
    rw [← hmessage] at hs
    exact hs
  have hgiven : e₁.given = e.given := by
    rw [he₁, End.given, End.given]
    exact congrArg₂ _ (by rw [hsocket]) (by rw [hout])
  have hreceived : e₁.received = e.received ++ bytes := by rw [he₁]
  have hstate₁ : e₁.conn.state = e.conn.state := by rw [he₁]; exact hstate
  have hsame : e₁.conn.socket = e.conn.socket := by rw [he₁]; exact hsocket
  have hgood : Good opened e' ∧ e'.received = e₁.received ∧
      e₁.conn.socket.accepted <+: e'.conn.socket.accepted := by
    refine good_send hs₁ ?_ ?_ ?_ ?_ ?_ ?_
    · rw [he₁]
      exact hintact.frame hintact.valid rfl rfl
    · rw [he₁]
      exact Buffer.retrieveAll_spec hv
    · rw [hstate₁]
      exact h.not_connecting hwatch
    · rw [hgiven, hreceived, ← List.append_assoc]
      exact h.echo.trans (List.prefix_append _ _)
    · intro hup
      rw [hgiven, hreceived, h.exact (hstate₁ ▸ hup), List.append_assoc]
    · intro hup hopen
      have hopen' : e.closing = false := by rw [he₁] at hopen; exact hopen
      have hactive := h.active (hstate₁ ▸ hup) hopen'
      rw [he₁]
      show c.channel.index = _ ∧ _ ∈ c.channel.events ∧ (c.outputBuffer.content ≠ [] → _ ∈ c.channel.events)
      rw [hch, hout]
      exact hactive
  rwa [hreceived, hsame] at hgood

/-- Only the state, the flags and the registration have changed. -/
theorem Good.frame (h : Good opened e) (hintact : e'.conn.Intact) (hinput : e'.conn.inputBuffer = e.conn.inputBuffer)
    (hgiven : e'.given = e.given) (hreceived : e'.received = e.received) (hnew : e'.conn.state ≠ .kConnecting)
    (hstate : e'.conn.state = .kConnected → e.conn.state = .kConnected)
    (hactive : e'.conn.state = .kConnected → e'.closing = false →
      e'.conn.channel.index = EPoller.kAdded ∧ .POLLIN ∈ e'.conn.channel.events ∧
        (e'.conn.outputBuffer.content ≠ [] → .POLLOUT ∈ e'.conn.channel.events)) : Good opened e' := by
  refine ⟨hintact, hinput ▸ h.input, ?_, fun hup => ?_, fun h' => absurd h' hnew, hactive⟩
  · rw [hgiven, hreceived]
    exact h.echo
  · rw [hgiven, hreceived]
    exact h.exact (hstate hup)

/-- `shutdownInLoop` matters to the socket's flag only. -/
theorem Good.shutdownInLoop (h : Good opened e) {flag : Bool} :
    Good opened { e with conn := e.conn.shutdownInLoop, shuttingDown := flag } := by
  obtain ⟨hintact, hstate⟩ := TcpConnection.shutdownInLoop_intact h.intact
  have hbuffers : e.conn.shutdownInLoop.inputBuffer = e.conn.inputBuffer ∧
      e.conn.shutdownInLoop.outputBuffer = e.conn.outputBuffer ∧
      e.conn.shutdownInLoop.socket.accepted = e.conn.socket.accepted := by
    unfold TcpConnection.shutdownInLoop
    split <;> exact ⟨rfl, rfl, rfl⟩
  obtain ⟨hinput, hout, haccepted⟩ := hbuffers
  have hgiven : End.given { e with conn := e.conn.shutdownInLoop, shuttingDown := flag } = e.given := by
    rw [End.given, End.given, hout, haccepted]
  refine ⟨hintact, hinput ▸ h.input, hgiven ▸ h.echo, fun hup => ?_, fun hnew => ?_, fun hup hopen => ?_⟩
  · rw [hgiven]
    exact h.exact (hstate ▸ hup)
  · rw [hgiven, TcpConnection.shutdownInLoop_channel]
    exact h.quiet (hstate ▸ hnew)
  · rw [hout, TcpConnection.shutdownInLoop_channel]
    exact h.active (hstate ▸ hup) hopen

theorem shutdownInLoop_accepted (c : TcpConnection) : c.shutdownInLoop.socket.accepted = c.socket.accepted := by
  unfold TcpConnection.shutdownInLoop
  split <;> rfl

/-- The buffer is written on, in order. -/
theorem good_handleWrite (h : Good opened e) (hwatch : e.Watches .POLLOUT) (hs : e.handleWrite w = .ok e') :
    Good opened e' ∧ e'.received = e.received ∧ e.conn.socket.accepted <+: e'.conn.socket.accepted := by
  simp only [End.handleWrite, bind_eq_ok, Prod.exists, pure_eq_ok, Except.ok.injEq] at hs
  obtain ⟨c, drained, hwrite, rfl⟩ := hs
  obtain ⟨hframe, hv, hsum, hcase⟩ := TcpConnection.handleWrite_cases h.intact.valid hwrite
  have hstate : c.state = e.conn.state := by rw [hframe]
  have haccepted := TcpConnection.handleWrite_accepted hwrite
  -- the state before the drain is looked at
  have hgood : Good opened { e with conn := c } := by
    refine h.frame (TcpConnection.handleWrite_intact h.intact hwrite).1 (by rw [hframe]) hsum rfl ?_ ?_ ?_
    · rw [hstate]
      exact h.not_connecting hwatch
    · intro hup
      exact hstate ▸ hup
    · intro hup hopen
      obtain ⟨hindex, hin, hout⟩ := h.active (hstate ▸ hup) hopen
      rcases hcase with ⟨-, heq⟩ | ⟨-, hw, -, hch, -⟩ | ⟨-, -, hempty, hch, hupd⟩
      · rw [heq]
        exact ⟨hindex, hin, hout⟩
      · rw [hch]
        exact ⟨hindex, hin, fun _ => Channel.isWriting_iff.mp hw⟩
      · have hread : PollFlag.POLLIN ∈ e.conn.channel.disableWriting.events :=
          Finset.mem_sdiff.mpr ⟨hin, by simp [Channel.kWriteEvent]⟩
        have hevents : c.channel.events = e.conn.channel.disableWriting.events := by rw [hch]
        refine ⟨?_, hevents ▸ hread, fun hne => absurd hempty hne⟩
        rcases hupd with ⟨-, hnone, -⟩ | ⟨-, hadded, -⟩
        · rw [hnone] at hread
          cases hread
        · exact hadded
  split
  · exact ⟨hgood.shutdownInLoop, rfl, by rw [shutdownInLoop_accepted]; exact haccepted⟩
  · exact ⟨hgood, rfl, haccepted⟩

theorem good_handleClose (h : Good opened e) (hs : e.handleClose = .ok e') :
    Good opened e' ∧ e'.received = e.received ∧ e.conn.socket.accepted <+: e'.conn.socket.accepted := by
  simp only [End.handleClose, bind_eq_ok, pure_eq_ok, Except.ok.injEq] at hs
  obtain ⟨c, hclose, rfl⟩ := hs
  obtain ⟨hintact, hnew, hstate⟩ := TcpConnection.handleClose_intact h.intact hclose
  have hframe := (TcpConnection.handleClose_cases hclose).2.1
  have hsocket : c.socket = e.conn.socket := by rw [hframe]
  refine ⟨h.frame hintact (by rw [hframe]) ?_ rfl ?_ ?_ ?_, rfl, by rw [hsocket]⟩
  · rw [End.given, End.given, hframe]
  · rw [hstate]
    exact hnew
  · intro hup
    exact hstate ▸ hup
  · intro _ hopen
    cases hopen

theorem good_shutdown (h : Good opened e) :
    Good opened e.shutdown ∧ e.shutdown.received = e.received ∧
      e.conn.socket.accepted <+: e.shutdown.conn.socket.accepted := by
  unfold End.shutdown
  split
  · refine ⟨h.frame ?_ rfl rfl rfl (by simp) (fun hup => ?_) (fun hup => ?_), rfl, List.prefix_refl _⟩
    · exact h.intact.frame h.intact.valid rfl rfl
    · cases hup
    · cases hup
  · exact ⟨h, rfl, List.prefix_refl _⟩

theorem good_connectDestroyed (h : Good opened e) (hs : e.connectDestroyed = .ok e') :
    Good opened { e' with closing := false } ∧ e'.received = e.received ∧
      e.conn.socket.accepted <+: e'.conn.socket.accepted := by
  simp only [End.connectDestroyed, bind_eq_ok, pure_eq_ok, Except.ok.injEq] at hs
  obtain ⟨c₁, hdestroy, c, hremove, rfl⟩ := hs
  obtain ⟨hintact₁, -, hstate₁⟩ := TcpConnection.connectDestroyed_intact h.intact hdestroy
  obtain ⟨hintact, hstate⟩ := TcpConnection.removeChannel_intact hintact₁ hremove
  have hframe₁ := (TcpConnection.connectDestroyed_cases hdestroy).2.1
  have hframe := (TcpConnection.removeChannel_cases hremove).1
  have hsocket : c.socket = e.conn.socket := by rw [hframe, hframe₁]
  have hdown : c.state = .kDisconnected := by rw [hstate, hstate₁]
  refine ⟨h.frame hintact (by rw [hframe, hframe₁]) ?_ rfl ?_ ?_ ?_, rfl, by rw [hsocket]⟩
  · rw [End.given, End.given, hframe, hframe₁]
  · rw [hdown]
    simp
  · intro hup
    rw [hdown] at hup
    cases hup
  · intro hup
    rw [hdown] at hup
    cases hup

/-! ## Both ends -/

theorem peer_peer (side : Side) : side.peer.peer = side := by cases side <;> rfl

theorem peer_ne (side : Side) : side.peer ≠ side := by cases side <;> decide

theorem eq_or_eq_peer (side side' : Side) : side' = side ∨ side' = side.peer := by
  cases side <;> cases side' <;> decide

/-- **The invariant.** -/
structure Sound (message : List Byte) (s : PingPong) : Prop where
  good : ∀ side, Good (opening message side) (s.ends side)
  flow : ∀ side, (s.ends side).received <+: (s.ends side.peer).conn.socket.accepted
  counters : s.session.bytesRead = (s.ends .client).received.length ∧ s.session.bytesWritten = s.session.bytesRead ∧
    s.session.messagesRead ≤ s.session.bytesRead

/-- What was read and what has arrived are what the peer's socket took. -/
theorem Sound.received_append_arrived (h : Sound message s) (side : Side) :
    (s.ends side).received ++ s.arrived side = (s.ends side.peer).conn.socket.accepted := by
  obtain ⟨rest, heq⟩ := h.flow side
  rw [arrived, ← heq, List.drop_left]

/-- A step of one end, which has read `bytes`. -/
theorem Sound.set (h : Sound message s) {bytes : List Byte} (hgood : Good (opening message side) e')
    (hreceived : e'.received = (s.ends side).received ++ bytes) (hbytes : bytes <+: s.arrived side)
    (haccepted : (s.ends side).conn.socket.accepted <+: e'.conn.socket.accepted) :
    (∀ side', Good (opening message side') ((s.set side e').ends side')) ∧
      ∀ side', ((s.set side e').ends side').received <+: ((s.set side e').ends side'.peer).conn.socket.accepted := by
  have hself : (s.set side e').ends side = e' := Function.update_self ..
  have hpeer : (s.set side e').ends side.peer = s.ends side.peer := Function.update_of_ne (peer_ne side) _ _
  constructor
  · intro side'
    rcases eq_or_eq_peer side side' with rfl | rfl
    · rw [hself]
      exact hgood
    · rw [hpeer]
      exact h.good _
  · intro side'
    rcases eq_or_eq_peer side side' with rfl | rfl
    · rw [hself, hpeer, hreceived, ← h.received_append_arrived]
      exact (List.prefix_append_right_inj _).mpr hbytes
    · rw [peer_peer, hpeer, hself]
      have hflow := h.flow side.peer
      rw [peer_peer] at hflow
      exact hflow.trans haccepted

/-- Nothing was read. -/
theorem Sound.set_quiet (h : Sound message s) (hgood : Good (opening message side) e' ∧
      e'.received = (s.ends side).received ∧ (s.ends side).conn.socket.accepted <+: e'.conn.socket.accepted) :
    Sound message (s.set side e') := by
  obtain ⟨hgood, hreceived, haccepted⟩ := hgood
  obtain ⟨hall, hflow⟩ := h.set hgood (hreceived.trans (List.append_nil _).symm) List.nil_prefix haccepted
  refine ⟨hall, hflow, ?_⟩
  have hcount : ((s.set side e').ends .client).received = (s.ends .client).received := by
    cases side with
    | client => exact hreceived
    | server => rfl
  rw [hcount]
  exact h.counters

/-- The bytes that are read go from those on the way to those received. -/
theorem sound_handleRead {n : Nat} (h : Sound message s) (hwatch : (s.ends side).Watches .POLLIN) (hn : 0 < n)
    (hle : n ≤ (s.arrived side).length) (hs : (s.ends side).handleRead ((s.arrived side).take n) w = .ok e') :
    Sound message ((s.set side e').count side n) := by
  obtain ⟨hgood, hreceived, haccepted⟩ := good_handleRead (h.good side) hwatch hs
  obtain ⟨hall, hflow⟩ := h.set hgood hreceived (List.take_prefix _ _) haccepted
  obtain ⟨hbytes, hwritten, hmessages⟩ := h.counters
  cases side with
  | server => exact ⟨hall, hflow, h.counters⟩
  | client =>
    refine ⟨hall, hflow, ?_, ?_, ?_⟩
    · have hcount : ((s.set .client e').ends .client).received = e'.received := rfl
      show s.session.bytesRead + n = ((s.set .client e').ends .client).received.length
      rw [hcount, hreceived, List.length_append, List.length_take, Nat.min_eq_left hle, hbytes]
    · show s.session.bytesWritten + n = s.session.bytesRead + n
      rw [hwritten]
    · show s.session.messagesRead + 1 ≤ s.session.bytesRead + n
      omega

/-- **One step.** -/
theorem sound_step {a : Label} (h : Sound message s) (hs : step message s a = .ok s') : Sound message s' := by
  cases a with
  | connectEstablished side w =>
    simp only [step, bind_eq_ok, enabled_eq_ok, pure_eq_ok, Except.ok.injEq] at hs
    obtain ⟨-, -, e', he, rfl⟩ := hs
    exact h.set_quiet (good_connectEstablished (h.good side) he)
  | handleRead side n w =>
    simp only [step, bind_eq_ok, enabled_eq_ok, pure_eq_ok, Except.ok.injEq] at hs
    obtain ⟨-, ⟨hwatch, hn, hle⟩, e', he, rfl⟩ := hs
    exact sound_handleRead h hwatch hn hle he
  | handleClose side =>
    simp only [step, bind_eq_ok, enabled_eq_ok, pure_eq_ok, Except.ok.injEq] at hs
    obtain ⟨-, -, e', he, rfl⟩ := hs
    exact h.set_quiet (good_handleClose (h.good side) he)
  | handleError side =>
    simp only [step, bind_eq_ok, enabled_eq_ok, pure_eq_ok, Except.ok.injEq] at hs
    obtain ⟨-, -, rfl⟩ := hs
    exact h
  | handleWrite side w =>
    simp only [step, bind_eq_ok, enabled_eq_ok, pure_eq_ok, Except.ok.injEq] at hs
    obtain ⟨-, hwatch, e', he, rfl⟩ := hs
    exact h.set_quiet (good_handleWrite (h.good side) hwatch he)
  | stop =>
    simp only [step, pure_eq_ok, Except.ok.injEq] at hs
    subst hs
    exact h.set_quiet (good_shutdown (h.good .client))
  | shutdownInLoop =>
    simp only [step, bind_eq_ok, enabled_eq_ok, pure_eq_ok, Except.ok.injEq] at hs
    obtain ⟨-, -, rfl⟩ := hs
    exact h.set_quiet ⟨(h.good .client).shutdownInLoop, rfl, by rw [shutdownInLoop_accepted]⟩
  | connectDestroyed side =>
    simp only [step, bind_eq_ok, enabled_eq_ok, pure_eq_ok, Except.ok.injEq] at hs
    obtain ⟨-, -, e', he, rfl⟩ := hs
    exact h.set_quiet (good_connectDestroyed (h.good side) he)

theorem sound_of_reachable (h : (pingPong message).Reachable s) : Sound message s := by
  refine h.invariant (I := Sound message) (fun s h0 => ?_) (fun _ _ _ _ hI _ hs => sound_step hI hs)
  obtain ⟨⟨self, sockfd, hclient⟩, ⟨self', sockfd', hserver⟩, hsession⟩ := h0
  have hreceived : ∀ side, (s.ends side).received = [] := by
    intro side
    cases side with
    | client => rw [hclient]; rfl
    | server => rw [hserver]; rfl
  refine ⟨fun side => ?_, fun side => ?_, ?_⟩
  · cases side with
    | client => rw [hclient]; exact good_new
    | server => rw [hserver]; exact good_new
  · rw [hreceived]
    exact List.nil_prefix
  · rw [hsession, hreceived]
    exact ⟨rfl, rfl, le_refl _⟩

/-! ## The block -/

/-- The connection is up, and was not closed by the peer. -/
def End.Up (e : End) : Prop := e.conn.state = .kConnected ∧ e.closing = false

/-- What waits in the output buffer. -/
def waiting (s : PingPong) (side : Side) : List Byte := (s.ends side).conn.outputBuffer.content

/-- The way of the block. -/
structure GoesRound (message : List Byte) (s : PingPong) : Prop where
  /-- the server gives back a beginning of what it has read -/
  echo : (s.ends .server).given <+: (s.ends .server).received
  /-- each end sees the block again and again -/
  repeats : message ≠ [] → ∀ side i, i < (s.ends side).received.length →
    (s.ends side).received[i]? = message[i % message.length]?
  /-- while both connections are up, what is on the way is the block, rotated by what the client has read -/
  ring : (∀ side, (s.ends side).conn.state = .kConnected) → message ++ (s.ends .client).received =
    (s.ends .client).received ++ (s.arrived .client ++ s.waiting .server ++ s.arrived .server ++ s.waiting .client)
  /-- and some loop is told to move it on -/
  moves : message ≠ [] → (∀ side, (s.ends side).Up) →
    ∃ side, s.arrived side ≠ [] ∧ (s.ends side).Watches .POLLIN ∨
    s.waiting side ≠ [] ∧ (s.ends side).Watches .POLLOUT
  counters : s.session.bytesRead = (s.ends .client).received.length ∧ s.session.bytesWritten = s.session.bytesRead ∧
    s.session.messagesRead ≤ s.session.bytesRead

/-- An end reads a beginning of what the other has given. -/
theorem Sound.received_prefix_given (h : Sound message s) (side : Side) :
    (s.ends side).received <+: (s.ends side.peer).given := (h.flow side).trans (List.prefix_append _ _)

/-- The block goes round: what has been read, then what is under way. -/
theorem Sound.ring (h : Sound message s) (hup : ∀ side, (s.ends side).conn.state = .kConnected) :
    message ++ (s.ends .client).received =
      (s.ends .client).received ++ (s.arrived .client ++ s.waiting .server ++ s.arrived .server ++ s.waiting .client) := by
  have hclient : (s.ends .client).given = message ++ (s.ends .client).received := (h.good .client).exact (hup .client)
  have hserver : (s.ends .server).given = (s.ends .server).received := (h.good .server).exact (hup .server)
  have htoServer : (s.ends .server).received ++ s.arrived .server = (s.ends .client).conn.socket.accepted :=
    h.received_append_arrived .server
  have htoClient : (s.ends .client).received ++ s.arrived .client = (s.ends .server).conn.socket.accepted :=
    h.received_append_arrived .client
  calc message ++ (s.ends .client).received
      = (s.ends .client).conn.socket.accepted ++ s.waiting .client := hclient.symm
    _ = (s.ends .server).received ++ s.arrived .server ++ s.waiting .client := by rw [htoServer]
    _ = (s.ends .server).conn.socket.accepted ++ s.waiting .server ++ s.arrived .server ++ s.waiting .client := by
        rw [← hserver]
        rfl
    _ = _ := by
        rw [← htoClient]
        simp only [List.append_assoc]

/-- **The block goes round**, for any reads and writes of the two programs and any moment at which the session is
    stopped. -/
theorem block_goes_round (h : (pingPong message).Reachable s) : GoesRound message s := by
  have hsound := sound_of_reachable h
  have hecho : (s.ends .server).given <+: (s.ends .server).received := (hsound.good .server).echo
  have hopened : (s.ends .client).given <+: message ++ (s.ends .client).received := (hsound.good .client).echo
  -- the client has read a beginning of what the server has read, which is one of what the client has sent
  have hclient : (s.ends .client).received <+: (s.ends .server).received :=
    (hsound.received_prefix_given .client).trans hecho
  have hserver : (s.ends .server).received <+: message ++ (s.ends .client).received :=
    (hsound.received_prefix_given .server).trans hopened
  refine ⟨hecho, fun hne side i hi => ?_, hsound.ring, fun hne hup => ?_, hsound.counters⟩
  · refine getElem?_of_prefix_append hne ?_ i hi
    cases side with
    | client => exact hclient.trans hserver
    | server => exact hserver.trans ((List.prefix_append_right_inj _).mpr hclient)
  · by_contra hstill
    have hnothing : ∀ side, s.arrived side = [] ∧ s.waiting side = [] := by
      intro side
      obtain ⟨hin, hout⟩ := (hsound.good side).watches (hup side).1 (hup side).2
      constructor
      · by_contra harrived
        exact hstill ⟨side, .inl ⟨harrived, hin⟩⟩
      · by_contra hwaiting
        exact hstill ⟨side, .inr ⟨hwaiting, hout hwaiting⟩⟩
    have hring := hsound.ring fun side => (hup side).1
    rw [(hnothing .client).1, (hnothing .client).2, (hnothing .server).1, (hnothing .server).2] at hring
    have hlength := congrArg List.length hring
    simp only [List.length_append, List.length_nil] at hlength
    exact hne (List.length_eq_zero_iff.mp (by omega))

/-- The server has sent all of the block back, and the client has read and returned the first byte of it. -/
theorem block_goes_round_sample : ∃ s : PingPong, (s.ends .client).received = [1] ∧ s.arrived .client = [2, 3] ∧
    s.waiting .client = [1] ∧ GoesRound [1, 2, 3] s := by
  obtain ⟨s, hs, hp⟩ := System.Reach.of_exec (S := pingPong [1, 2, 3])
    (s := ⟨pair (End.new 16 9) (End.new 32 10), ⟨0, 0, 0⟩⟩)
    (l := [.connectEstablished .client (some 2), .connectEstablished .server none, .handleRead .server 1 (some 1),
      .handleWrite .client (some 1), .handleRead .server 2 (some 1), .handleRead .client 1 none,
      .handleWrite .server (some 1)])
    (p := fun s => decide ((s.ends .client).received = [1] ∧ s.arrived .client = [2, 3] ∧ s.waiting .client = [1]))
    (.init ⟨⟨16, 9, rfl⟩, ⟨32, 10, rfl⟩, rfl⟩) (by decide +kernel)
  rw [decide_eq_true_eq] at hp
  exact ⟨s, hp.1, hp.2.1, hp.2.2, block_goes_round hs⟩

end PingPong

end Irono
