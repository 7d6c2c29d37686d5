import Irono.Net.Buffer
import Irono.Net.EPoller

/-!
# `Net.TcpConnection` — one connection in its I/O loop (`TcpConnection.cc`)

The members that run in the I/O thread, cut where they call the user or where another thread can see
them. What `::write` and `readv` return is an argument: `some n` bytes taken, `some bytes` read, `none`
an error. A member gives back the connection and what it calls for next; the poller of `loop_` is a part
of the connection here, since only its own channel matters to it.

Each member has one `_cases` lemma: the fields it can change, and what the kernel then watches.
-/

namespace Irono

open Transition

/-- The kernel's side of the socket: the bytes `::write` took, and whether `shutdownWrite` was called. -/
structure Socket where
  accepted : List Byte
  writeShut : Bool
  deriving DecidableEq, Repr

namespace TcpConnection

inductive StateE where
  | kConnecting
  | kConnected
  | kDisconnecting
  | kDisconnected
  deriving DecidableEq, Repr

/-- The asserts, the call of an empty `closeCallback_`, and what the parts can fail with. -/
inductive Fault where
  | connectEstablished
  | connectDestroyed
  | handleClose
  | emptyCloseCallback
  | buffer (f : Buffer.Fault)
  | poller (f : EPoller.Fault)
  deriving DecidableEq, Repr

end TcpConnection

/-- `class TcpConnection`; the two callbacks are whether the `std::function` is set. -/
structure TcpConnection where
  state : TcpConnection.StateE
  socket : Socket
  channel : Channel
  /-- the poller of `loop_` -/
  poller : EPoller
  inputBuffer : Buffer
  outputBuffer : Buffer
  closeCallback : Bool
  writeCompleteCallback : Bool

namespace TcpConnection

/-- The constructor, for the descriptor `sockfd`. -/
def new (self : Addr) (sockfd : Int) : TcpConnection :=
  { state := .kConnecting, socket := ⟨[], false⟩, channel := Channel.new self sockfd
    poller := EPoller.new, inputBuffer := Buffer.new, outputBuffer := Buffer.new
    closeCallback := false, writeCompleteCallback := false }

def connected (c : TcpConnection) : Bool := c.state = .kConnected

/-! ## The members -/

/-- `Channel::update()` with the mask already set. -/
def update (c : TcpConnection) (channel : Channel) : Result Fault TcpConnection := do
  let (poller, channel) ← (c.poller.updateChannel channel).mapFault .poller
  return { c with poller := poller, channel := channel }

/-- The test before the direct `::write` of `sendInLoop`. -/
def writesDirectly (c : TcpConnection) : Bool :=
  !c.channel.isWriting && c.outputBuffer.readableBytes == 0

/-- `nwrote` when `sendInLoop` comes to its second half. -/
def nwrote (c : TcpConnection) (w : Option Nat) : Nat := if c.writesDirectly then w.getD 0 else 0

/-- `sendInLoop`; the flag is whether `writeCompleteCallback_` was queued. -/
def sendInLoop (c : TcpConnection) (message : List Byte) (w : Option Nat) :
    Result Fault (TcpConnection × Bool) := do
  enabled (c.nwrote w ≤ message.length)
  let writeComplete := c.writesDirectly && w == some message.length && c.writeCompleteCallback
  let sent := { c with
    socket := { c.socket with accepted := c.socket.accepted ++ message.take (c.nwrote w) } }
  if c.nwrote w < message.length then
    let outputBuffer ← (c.outputBuffer.append (message.drop (c.nwrote w))).mapFault .buffer
    let kept := { sent with outputBuffer := outputBuffer }
    let c' ← (if c.channel.isWriting then .ok kept else kept.update c.channel.enableWriting :
      Result Fault TcpConnection)
    return (c', writeComplete)
  else return (sent, writeComplete)

def shutdownInLoop (c : TcpConnection) : TcpConnection :=
  if c.channel.isWriting then c else { c with socket := { c.socket with writeShut := true } }

/-- `connectEstablished` up to the call of `connectionCallback_`. -/
def connectEstablished (c : TcpConnection) : Result Fault TcpConnection := do
  require (c.state = .kConnecting) .connectEstablished
  { c with state := .kConnected }.update c.channel.enableReading

/-- `connectDestroyed` up to the call of `connectionCallback_`. -/
def connectDestroyed (c : TcpConnection) : Result Fault TcpConnection := do
  require (c.state = .kConnected ∨ c.state = .kDisconnecting) .connectDestroyed
  { c with state := .kDisconnected }.update c.channel.disableAll

/-- The last line of `connectDestroyed`. -/
def removeChannel (c : TcpConnection) : Result Fault TcpConnection := do
  let (poller, channel) ← (c.poller.removeChannel c.channel).mapFault .poller
  return { c with poller := poller, channel := channel }

/-- The read of `handleRead`. -/
def readInput (c : TcpConnection) (r : Option (List Byte)) : Result Fault TcpConnection := do
  enabled (∀ bytes ∈ r, bytes.length ≤ c.inputBuffer.writableBytes + Buffer.kExtraBuf)
  let inputBuffer ← (c.inputBuffer.readFd r).mapFault .buffer
  return { c with inputBuffer := inputBuffer }

/-- `handleWrite` up to the test of `state_`; the flag is whether `outputBuffer_` was drained. -/
def handleWrite (c : TcpConnection) (w : Option Nat) : Result Fault (TcpConnection × Bool) :=
  if c.channel.isWriting ∧ 0 < w.getD 0 then do
    let n := w.getD 0
    enabled (n ≤ c.outputBuffer.readableBytes)
    let outputBuffer ← (c.outputBuffer.retrieve n).mapFault .buffer
    let sent := { c with
      socket := { c.socket with accepted := c.socket.accepted ++ c.outputBuffer.content.take n }
      outputBuffer := outputBuffer }
    if outputBuffer.readableBytes = 0 then
      let c' ← sent.update c.channel.disableWriting
      return (c', true)
    else return (sent, false)
  else return (c, false)

/-- `handleClose` up to the call of `closeCallback_`. -/
def handleClose (c : TcpConnection) : Result Fault TcpConnection := do
  require (c.state = .kConnected ∨ c.state = .kDisconnecting) .handleClose
  let c' ← c.update c.channel.disableAll
  require (c.closeCallback = true) .emptyCloseCallback
  return c'

/-! ## What they do -/

/-- The mask the kernel watches the descriptor with. -/
def watched (c : TcpConnection) : Option Events := (c.poller.epoll c.channel.fd).map Prod.fst

variable {c c' : TcpConnection} {w : Option Nat}

/-- After `update` the kernel watches the channel's mask, or nothing if a registered channel has none. -/
def Updated (c' : TcpConnection) (channel : Channel) : Prop :=
  (channel.index = EPoller.kAdded ∧ channel.events = ∅ ∧ c'.channel.index = EPoller.kDeleted ∧
    c'.watched = none) ∨
  ((channel.index = EPoller.kAdded → channel.events ≠ ∅) ∧ c'.channel.index = EPoller.kAdded ∧
    c'.watched = some channel.events)

theorem update_cases {channel : Channel} (h : c.update channel = .ok c') :
    c' = { c with poller := c'.poller, channel := c'.channel } ∧
      c'.channel = { channel with index := c'.channel.index } ∧ Updated c' channel := by
  simp only [update, bind_eq_ok, Result.mapFault_eq_ok, Prod.exists, pure_eq_ok, Except.ok.injEq] at h
  obtain ⟨p, ch, hu, rfl⟩ := h
  obtain ⟨hch, hcase⟩ := EPoller.updateChannel_cases hu
  refine ⟨rfl, hch, ?_⟩
  have hfd : ch.fd = channel.fd := by rw [hch]
  rcases hcase with ⟨hidx, hnone, hidx', hep⟩ | ⟨hne, hidx', hep⟩
  · exact .inl ⟨hidx, hnone, hidx', by simp [watched, hfd, hep]⟩
  · exact .inr ⟨hne, hidx', by simp [watched, hfd, hep]⟩

theorem nwrote_pos (h : 0 < c.nwrote w) : c.channel.isWriting = false ∧ c.outputBuffer.readableBytes = 0 := by
  unfold nwrote at h
  split at h
  · rename_i hd
    simpa [writesDirectly] using hd
  · exact absurd h (Nat.lt_irrefl 0)

/-- The bytes of the message go behind everything sent so far: those taken now only when nothing waits. -/
theorem accepted_append (hv : c.outputBuffer.Valid) (message kept : List Byte)
    (hkept : kept = c.outputBuffer.content ++ message.drop (c.nwrote w)) :
    c.socket.accepted ++ message.take (c.nwrote w) ++ kept =
      c.socket.accepted ++ c.outputBuffer.content ++ message := by
  subst hkept
  rcases Nat.eq_zero_or_pos (c.nwrote w) with hz | hpos
  · simp [hz]
  · rw [(Buffer.readableBytes_eq_zero hv).mp (nwrote_pos hpos).2]
    simp

/-- **What `sendInLoop` does** to the output: the message is appended to what was taken and what waits;
    if bytes are left over, the channel has write interest. -/
theorem sendInLoop_cases (hv : c.outputBuffer.Valid) {message : List Byte} {wc : Bool}
    (h : c.sendInLoop message w = .ok (c', wc)) :
    c' = { c with socket := { c.socket with accepted := c'.socket.accepted }, channel := c'.channel
                  poller := c'.poller, outputBuffer := c'.outputBuffer } ∧
    c'.outputBuffer.Valid ∧
    c'.socket.accepted ++ c'.outputBuffer.content =
      c.socket.accepted ++ c.outputBuffer.content ++ message ∧
    ((message.length ≤ c.nwrote w ∧ c'.outputBuffer = c.outputBuffer ∧ c'.channel = c.channel ∧
        c'.poller = c.poller) ∨
      (c.nwrote w < message.length ∧ c'.outputBuffer.content ≠ [] ∧
        (c.channel.isWriting = true ∧ c'.channel = c.channel ∧ c'.poller = c.poller ∨
          c.channel.isWriting = false ∧
            c'.channel = { c.channel.enableWriting with index := c'.channel.index } ∧
            Updated c' c.channel.enableWriting))) := by
  simp only [sendInLoop, bind_eq_ok, enabled_eq_ok] at h
  obtain ⟨_, hle, h⟩ := h
  split at h
  · rename_i hlt
    obtain ⟨b', hb, hvb, hcontent⟩ := Buffer.append_spec hv (message.drop (c.nwrote w))
    have hne : b'.content ≠ [] := by
      intro hnil
      rw [hcontent, List.append_eq_nil_iff, List.drop_eq_nil_iff] at hnil
      omega
    have hsum := accepted_append hv message _ hcontent
    simp only [hb, Result.mapFault, ok_bind] at h
    split at h
    · rename_i hw
      simp only [ok_bind, pure_eq_ok, Except.ok.injEq, Prod.mk.injEq] at h
      obtain ⟨rfl, -⟩ := h
      exact ⟨rfl, hvb, hsum, .inr ⟨hlt, hne, .inl ⟨hw, rfl, rfl⟩⟩⟩
    · rename_i hw
      simp only [bind_eq_ok, pure_eq_ok, Except.ok.injEq, Prod.mk.injEq] at h
      obtain ⟨c₁, hu, rfl, -⟩ := h
      obtain ⟨hframe, hch, hupd⟩ := update_cases hu
      have hsock : c₁.socket = { c.socket with accepted := c.socket.accepted ++ message.take (c.nwrote w) } := by
        rw [hframe]
      have hout : c₁.outputBuffer = b' := by rw [hframe]
      refine ⟨by rw [hframe], by rw [hout]; exact hvb, by rw [hsock, hout]; exact hsum,
        .inr ⟨hlt, by rw [hout]; exact hne, .inr ⟨by simpa using hw, hch, hupd⟩⟩⟩
  · rename_i hge
    simp only [pure_eq_ok, Except.ok.injEq, Prod.mk.injEq] at h
    obtain ⟨rfl, -⟩ := h
    have hdrop : message.drop (c.nwrote w) = [] := List.drop_eq_nil_iff.mpr (by omega)
    have hsum := accepted_append hv message c.outputBuffer.content
      (by rw [hdrop, List.append_nil])
    exact ⟨rfl, hv, hsum, .inl ⟨by omega, rfl, rfl, rfl⟩⟩

/-- **What `handleWrite` does**: nothing, or it hands a prefix of the waiting bytes to the kernel and
    drops the write interest with the last of them. -/
theorem handleWrite_cases (hv : c.outputBuffer.Valid) {drained : Bool}
    (h : c.handleWrite w = .ok (c', drained)) :
    c' = { c with socket := { c.socket with accepted := c'.socket.accepted }, channel := c'.channel
                  poller := c'.poller, outputBuffer := c'.outputBuffer } ∧
    c'.outputBuffer.Valid ∧
    c'.socket.accepted ++ c'.outputBuffer.content = c.socket.accepted ++ c.outputBuffer.content ∧
    ((drained = false ∧ c' = c) ∨
      (drained = false ∧ c.channel.isWriting = true ∧ c'.outputBuffer.content ≠ [] ∧
        c'.channel = c.channel ∧ c'.poller = c.poller) ∨
      (drained = true ∧ c.channel.isWriting = true ∧ c'.outputBuffer.content = [] ∧
        c'.channel = { c.channel.disableWriting with index := c'.channel.index } ∧
        Updated c' c.channel.disableWriting)) := by
  unfold handleWrite at h
  split at h
  · rename_i hw
    simp only [bind_eq_ok, enabled_eq_ok] at h
    obtain ⟨_, hle, h⟩ := h
    obtain ⟨b', hb, hvb, hcontent⟩ := Buffer.retrieve_spec hv hle
    have hsum : c.socket.accepted ++ c.outputBuffer.content.take (w.getD 0) ++ b'.content =
        c.socket.accepted ++ c.outputBuffer.content := by
      rw [hcontent, List.append_assoc, List.take_append_drop]
    simp only [hb, Result.mapFault, Except.ok.injEq, exists_eq_left'] at h
    split at h
    · rename_i hz
      simp only [bind_eq_ok, pure_eq_ok, Except.ok.injEq, Prod.mk.injEq] at h
      obtain ⟨c₁, hu, rfl, rfl⟩ := h
      obtain ⟨hframe, hch, hupd⟩ := update_cases hu
      have hsock : c₁.socket = { c.socket with
          accepted := c.socket.accepted ++ c.outputBuffer.content.take (w.getD 0) } := by rw [hframe]
      have hout : c₁.outputBuffer = b' := by rw [hframe]
      refine ⟨by rw [hframe], by rw [hout]; exact hvb, by rw [hsock, hout]; exact hsum,
        .inr (.inr ⟨rfl, hw.1, by rw [hout]; exact (Buffer.readableBytes_eq_zero hvb).mp hz, hch, hupd⟩)⟩
    · rename_i hz
      simp only [pure_eq_ok, Except.ok.injEq, Prod.mk.injEq] at h
      obtain ⟨rfl, rfl⟩ := h
      exact ⟨rfl, hvb, hsum, .inr (.inl ⟨rfl, hw.1,
        fun hnil => hz ((Buffer.readableBytes_eq_zero hvb).mpr hnil), rfl, rfl⟩)⟩
  · simp only [pure_eq_ok, Except.ok.injEq, Prod.mk.injEq] at h
    obtain ⟨rfl, rfl⟩ := h
    exact ⟨rfl, hv, rfl, .inl ⟨rfl, rfl⟩⟩

theorem connectEstablished_cases (h : c.connectEstablished = .ok c') :
    c.state = .kConnecting ∧
      c' = { c with state := .kConnected, poller := c'.poller, channel := c'.channel } ∧
      c'.channel = { c.channel.enableReading with index := c'.channel.index } ∧
      Updated c' c.channel.enableReading := by
  simp only [connectEstablished, bind_eq_ok, require_eq_ok] at h
  obtain ⟨_, hs, hu⟩ := h
  obtain ⟨hframe, hch, hupd⟩ := update_cases hu
  exact ⟨hs, hframe, hch, hupd⟩

theorem connectDestroyed_cases (h : c.connectDestroyed = .ok c') :
    (c.state = .kConnected ∨ c.state = .kDisconnecting) ∧
      c' = { c with state := .kDisconnected, poller := c'.poller, channel := c'.channel } ∧
      c'.channel = { c.channel.disableAll with index := c'.channel.index } ∧
      Updated c' c.channel.disableAll := by
  simp only [connectDestroyed, bind_eq_ok, require_eq_ok] at h
  obtain ⟨_, hs, hu⟩ := h
  obtain ⟨hframe, hch, hupd⟩ := update_cases hu
  exact ⟨hs, hframe, hch, hupd⟩

theorem handleClose_cases (h : c.handleClose = .ok c') :
    (c.state = .kConnected ∨ c.state = .kDisconnecting) ∧
      c' = { c with poller := c'.poller, channel := c'.channel } ∧
      c'.channel = { c.channel.disableAll with index := c'.channel.index } ∧
      Updated c' c.channel.disableAll := by
  simp only [handleClose, bind_eq_ok, require_eq_ok, pure_eq_ok, Except.ok.injEq] at h
  obtain ⟨_, hs, c₁, hu, _, -, rfl⟩ := h
  obtain ⟨hframe, hch, hupd⟩ := update_cases hu
  exact ⟨hs, hframe, hch, hupd⟩

theorem removeChannel_cases (h : c.removeChannel = .ok c') :
    c' = { c with poller := c'.poller, channel := c'.channel } ∧
      c'.channel = { c.channel with index := EPoller.kNew } ∧ c.channel.events = ∅ ∧
      (c.channel.index = EPoller.kAdded ∧ c'.watched = none ∨
        c.channel.index = EPoller.kDeleted ∧ c'.watched = c.watched) := by
  simp only [removeChannel, bind_eq_ok, Result.mapFault_eq_ok, Prod.exists, pure_eq_ok,
    Except.ok.injEq] at h
  obtain ⟨p, ch, hr, rfl⟩ := h
  obtain ⟨hch, hnone, hcase⟩ := EPoller.removeChannel_cases hr
  have hfd : ch.fd = c.channel.fd := by rw [hch]
  refine ⟨rfl, hch, hnone, hcase.imp ?_ ?_⟩
  · rintro ⟨hidx, hep⟩
    exact ⟨hidx, by simp [watched, hfd, hep]⟩
  · rintro ⟨hidx, hep⟩
    exact ⟨hidx, by simp [watched, hfd, hep]⟩

theorem readInput_cases {r : Option (List Byte)} (h : c.readInput r = .ok c') :
    c' = { c with inputBuffer := c'.inputBuffer } := by
  simp only [readInput, bind_eq_ok, Result.mapFault_eq_ok, pure_eq_ok, Except.ok.injEq] at h
  obtain ⟨_, -, b, -, rfl⟩ := h
  rfl

/-- What `handleRead` does to the input. -/
theorem readInput_spec {r : Option (List Byte)} (hv : c.inputBuffer.Valid) (h : c.readInput r = .ok c') :
    c'.inputBuffer.Valid ∧ c'.inputBuffer.content = c.inputBuffer.content ++ r.getD [] := by
  simp only [readInput, bind_eq_ok, Result.mapFault_eq_ok, pure_eq_ok, Except.ok.injEq] at h
  obtain ⟨-, -, b, hb, rfl⟩ := h
  cases r with
  | none =>
    rw [Buffer.readFd_error, Except.ok.injEq] at hb
    subst hb
    exact ⟨hv, (List.append_nil _).symm⟩
  | some bytes =>
    obtain ⟨b', hb', hv', hcontent⟩ := Buffer.readFd_spec hv bytes
    rw [hb', Except.ok.injEq] at hb
    subst hb
    exact ⟨hv', hcontent⟩

/-- The kernel takes bytes behind those it has. -/
theorem sendInLoop_accepted {message : List Byte} {wc : Bool} (h : c.sendInLoop message w = .ok (c', wc)) :
    c.socket.accepted <+: c'.socket.accepted := by
  simp only [sendInLoop, bind_eq_ok, enabled_eq_ok] at h
  obtain ⟨-, -, h⟩ := h
  split at h
  · simp only [bind_eq_ok, pure_eq_ok, Except.ok.injEq, Prod.mk.injEq] at h
    obtain ⟨b, -, c₁, hu, rfl, -⟩ := h
    split at hu
    · obtain rfl := Except.ok.inj hu
      exact List.prefix_append _ _
    · rw [(update_cases hu).1]
      exact List.prefix_append _ _
  · simp only [pure_eq_ok, Except.ok.injEq, Prod.mk.injEq] at h
    obtain ⟨rfl, -⟩ := h
    exact List.prefix_append _ _

theorem handleWrite_accepted {drained : Bool} (h : c.handleWrite w = .ok (c', drained)) :
    c.socket.accepted <+: c'.socket.accepted := by
  unfold handleWrite at h
  split at h
  · simp only [bind_eq_ok, enabled_eq_ok] at h
    obtain ⟨-, -, b, -, h⟩ := h
    split at h
    · simp only [bind_eq_ok, pure_eq_ok, Except.ok.injEq, Prod.mk.injEq] at h
      obtain ⟨c₁, hu, rfl, -⟩ := h
      rw [(update_cases hu).1]
      exact List.prefix_append _ _
    · simp only [pure_eq_ok, Except.ok.injEq, Prod.mk.injEq] at h
      obtain ⟨rfl, -⟩ := h
      exact List.prefix_append _ _
  · simp only [pure_eq_ok, Except.ok.injEq, Prod.mk.injEq] at h
    obtain ⟨rfl, -⟩ := h
    exact List.prefix_refl _

/-! ## What they keep -/

/-- The output buffer is valid, and the kernel watches the channel's mask as long as it is registered. -/
structure Intact (c : TcpConnection) : Prop where
  valid : c.outputBuffer.Valid
  watched : c.watched = if c.channel.index = EPoller.kAdded then some c.channel.events else none

theorem intact_new (self : Addr) (sockfd : Int) : (new self sockfd).Intact :=
  ⟨Buffer.valid_new, by simp [new, watched, Channel.new, EPoller.new, EPoller.kAdded]⟩

theorem Updated.watched {channel : Channel} (h : Updated c' channel)
    (hch : c'.channel = { channel with index := c'.channel.index }) :
    c'.watched = if c'.channel.index = EPoller.kAdded then some c'.channel.events else none := by
  have hev : c'.channel.events = channel.events := by rw [hch]
  rcases h with ⟨-, -, hidx, hw⟩ | ⟨-, hidx, hw⟩
  · rw [hw, hidx, if_neg (by decide)]
  · rw [hw, hidx, if_pos rfl, hev]

theorem Intact.of_updated (h : c.Intact) {channel : Channel} (hout : c'.outputBuffer = c.outputBuffer)
    (hch : c'.channel = { channel with index := c'.channel.index }) (hu : Updated c' channel) : c'.Intact :=
  ⟨hout ▸ h.valid, hu.watched hch⟩

/-- Only the registration of the channel and the output buffer matter. -/
theorem Intact.frame (h : c.Intact) (hout : c'.outputBuffer.Valid) (hch : c'.channel = c.channel)
    (hp : c'.poller = c.poller) : c'.Intact := by
  refine ⟨hout, ?_⟩
  have hw : c'.watched = c.watched := by rw [TcpConnection.watched, TcpConnection.watched, hch, hp]
  rw [hw, hch]
  exact h.watched

theorem sendInLoop_intact (h : c.Intact) {message : List Byte} {wc : Bool}
    (hs : c.sendInLoop message w = .ok (c', wc)) : c'.Intact ∧ c'.state = c.state := by
  obtain ⟨hframe, hv, -, hcase⟩ := sendInLoop_cases h.valid hs
  have hstate : c'.state = c.state := by rw [hframe]
  rcases hcase with ⟨-, -, hch, hp⟩ | ⟨-, -, ⟨-, hch, hp⟩ | ⟨-, hch, hu⟩⟩
  · exact ⟨h.frame hv hch hp, hstate⟩
  · exact ⟨h.frame hv hch hp, hstate⟩
  · exact ⟨⟨hv, hu.watched hch⟩, hstate⟩

theorem handleWrite_intact (h : c.Intact) {drained : Bool} (hs : c.handleWrite w = .ok (c', drained)) :
    c'.Intact ∧ c'.state = c.state := by
  obtain ⟨hframe, hv, -, hcase⟩ := handleWrite_cases h.valid hs
  have hstate : c'.state = c.state := by rw [hframe]
  rcases hcase with ⟨-, rfl⟩ | ⟨-, -, -, hch, hp⟩ | ⟨-, -, -, hch, hu⟩
  · exact ⟨h, rfl⟩
  · exact ⟨h.frame hv hch hp, hstate⟩
  · exact ⟨⟨hv, hu.watched hch⟩, hstate⟩

theorem connectEstablished_intact (h : c.Intact) (hs : c.connectEstablished = .ok c') :
    c'.Intact ∧ c.state = .kConnecting ∧ c'.state = .kConnected := by
  obtain ⟨hstate, hframe, hch, hu⟩ := connectEstablished_cases hs
  exact ⟨h.of_updated (by rw [hframe]) hch hu, hstate, by rw [hframe]⟩

theorem connectDestroyed_intact (h : c.Intact) (hs : c.connectDestroyed = .ok c') :
    c'.Intact ∧ c.state ≠ .kConnecting ∧ c'.state = .kDisconnected := by
  obtain ⟨hstate, hframe, hch, hu⟩ := connectDestroyed_cases hs
  refine ⟨h.of_updated (by rw [hframe]) hch hu, ?_, by rw [hframe]⟩
  rcases hstate with hstate | hstate <;> rw [hstate] <;> simp

theorem handleClose_intact (h : c.Intact) (hs : c.handleClose = .ok c') :
    c'.Intact ∧ c.state ≠ .kConnecting ∧ c'.state = c.state := by
  obtain ⟨hstate, hframe, hch, hu⟩ := handleClose_cases hs
  refine ⟨h.of_updated (by rw [hframe]) hch hu, ?_, by rw [hframe]⟩
  rcases hstate with hstate | hstate <;> rw [hstate] <;> simp

theorem removeChannel_intact (h : c.Intact) (hs : c.removeChannel = .ok c') :
    c'.Intact ∧ c'.state = c.state := by
  obtain ⟨hframe, hch, -, hcase⟩ := removeChannel_cases hs
  refine ⟨⟨by rw [hframe]; exact h.valid, ?_⟩, by rw [hframe]⟩
  rw [hch, if_neg (show ¬ EPoller.kNew = EPoller.kAdded by decide)]
  rcases hcase with ⟨-, hw⟩ | ⟨hidx, hw⟩
  · exact hw
  · rw [hw, h.watched, hidx, if_neg (by decide)]

theorem readInput_intact (h : c.Intact) {r : Option (List Byte)} (hs : c.readInput r = .ok c') :
    c'.Intact ∧ c'.state = c.state := by
  have hframe := readInput_cases hs
  exact ⟨h.frame (by rw [hframe]; exact h.valid) (by rw [hframe]) (by rw [hframe]), by rw [hframe]⟩

@[simp] theorem shutdownInLoop_channel (c : TcpConnection) : c.shutdownInLoop.channel = c.channel := by
  unfold shutdownInLoop; split <;> rfl

theorem shutdownInLoop_intact (h : c.Intact) : c.shutdownInLoop.Intact ∧ c.shutdownInLoop.state = c.state := by
  unfold shutdownInLoop
  split
  · exact ⟨h, rfl⟩
  · exact ⟨h.frame h.valid rfl rfl, rfl⟩

end TcpConnection

end Irono
