import Irono.Net.TcpClient
import Irono.Net.Correctness.PollerRegistry

/-!
# `Net.Correctness.ConnectorSockets` — who owns the sockets of a connector

A socket is the connector's from `createNonblockingOrDie` on. The invariant `Sound` says where it is: with
`channel_` while `state_ == kConnecting`, and between `setState(kConnected)` and the end of `handleWrite`
in that statement. Nothing else holds one, so each socket is disposed of once.

The channel outlives its attempt until `resetChannel` has run; `resets` counts the functors that will do
it, one for each such channel.
-/

namespace Irono

open Transition

namespace TcpClient

open Connector EPoller

variable (tid : ThreadId)

/-! ## The invariant -/

/-- What other threads and the loop itself queue. -/
def Queueable : Stmt → Prop
  | .user => True
  | .startInLoop => True
  | .cancelInLoop _ => True
  | .resetChannel => True
  | _ => False

/-- The socket that `handleWrite` has still to hand on. -/
def finishing : Stmt → Option Int
  | .finishWrite sockfd => some sockfd
  | _ => none

def isReset (stmt : Stmt) : Nat := if stmt = .resetChannel then 1 else 0

/-- How many `resetChannel` are to come. -/
def resets (s : TcpClient) : Nat := s.threads.load Handler.stmts isReset tid

/-- The sockets between `setState(kConnected)` and the end of `handleWrite`. -/
def handedOn (s : TcpClient) : List Int := (s.threads.frames tid).filterMap finishing

/-- The socket of the attempt under way. -/
def attempted (s : TcpClient) : List Int :=
  if s.connector.state = .kConnecting then s.connector.channel.toList.map (·.fd) else []

/-- The connector's channel among the channels of the loop. -/
def only (channel : Option Channel) : Addr → Option Channel :=
  fun a => channel.bind fun c => if c.self = a then some c else none

/-- Where the sockets and the channel of a connector are. -/
structure Sound (s : TcpClient) : Prop where
  batched : s.threads.Batched
  queueable : ∀ x ∈ s.threads.functors tid, Queueable x
  owns : s.sockets.Owns (s.handedOn tid ++ s.attempted)
  /-- a socket is handed on, or a connection is up, only in `kConnected`, and not both -/
  connected : (s.handedOn tid).length + (if s.connection then 1 else 0) ≤
    if s.connector.state = .kConnected then 1 else 0
  registered : Registered s.poller (only s.connector.channel)
  connecting : s.connector.state = .kConnecting →
    ∃ c, s.connector.channel = some c ∧ c.index = kAdded ∧ c.events = Channel.kWriteEvent
  detached : s.connector.state ≠ .kConnecting → ∀ c, s.connector.channel = some c → c.index = kNew
  resets : s.resets tid =
    if s.connector.channel.isSome ∧ s.connector.state ≠ .kConnecting then 1 else 0

variable {tid} {s s' : TcpClient} {a : Answers}

/-! ## The channel and the poller -/

theorem only_none : only none = fun _ => none := rfl

theorem only_self (c : Channel) : only (some c) c.self = some c := by simp [only]

theorem update_only (channel : Option Channel) {a : Addr} {c : Channel} (hself : c.self = a)
    (hold : ∀ d, channel = some d → d.self = a) :
    Function.update (only channel) a (some c) = only (some c) := by
  funext b
  by_cases hb : b = a
  · subst hb
    rw [Function.update_self, ← hself, only_self]
  · have hne : c.self ≠ b := fun heq => hb (by rw [← heq, hself])
    rw [Function.update_of_ne hb]
    cases channel with
    | none => simp [only, hne]
    | some d =>
      have hdb : d.self ≠ b := fun heq => hb (by rw [← heq, hold d rfl])
      simp [only, hne, hdb]

theorem update_only_none (c : Channel) : Function.update (only (some c)) c.self none = only none := by
  funext b
  by_cases hb : b = c.self
  · subst hb
    simp [only]
  · have hne : c.self ≠ b := fun heq => hb heq.symm
    simp [only, hb, hne]

/-- `connecting` registers the new channel for writing. -/
theorem connecting_registered {c c' : Connector} {p p' : EPoller} {self : Addr} {sockfd : Int}
    (hreg : Registered p (only c.channel)) (h : c.connecting p self sockfd = .ok (c', p')) :
    ∃ channel, c.channel = none ∧ c' = { c with state := .kConnecting, channel := some channel } ∧
      channel.fd = sockfd ∧ channel.index = kAdded ∧ channel.events = Channel.kWriteEvent ∧
      Registered p' (only (some channel)) := by
  obtain ⟨channel, hnone, rfl, hup⟩ := connecting_cases h
  rw [hnone, only_none] at hreg
  have hreg₁ := hreg.update_new (a := self) (v := some (Channel.new self sockfd)) (by simp) (by
    intro d hd
    obtain rfl := Option.some.inj hd
    exact ⟨rfl, rfl, by simp⟩)
  rw [← only_none, update_only none (show (Channel.new self sockfd).self = self from rfl) (by simp)] at hreg₁
  obtain ⟨heq, hreg₂⟩ := hreg₁.of_updateChannel (only_self _) hup
  have hself : channel.self = self := by rw [heq]; rfl
  rw [update_only (a := (Channel.new self sockfd).self) _ hself
    (by rintro d hd; obtain rfl := Option.some.inj hd; rfl)] at hreg₂
  have hindex : channel.index = kAdded := by
    obtain ⟨-, ⟨hidx, -⟩ | ⟨-, hidx, -⟩⟩ := updateChannel_cases hup
    · exact absurd hidx Registered.kNew_ne_kAdded
    · exact hidx
  refine ⟨channel, hnone, rfl, ?_, hindex, ?_, hreg₂⟩
  · rw [heq]; rfl
  · rw [heq]; exact Finset.empty_union _

/-- `removeAndResetChannel` takes the channel off the poller's records and keeps it in `channel_`. -/
theorem removeAndResetChannel_registered {c c' : Connector} {p p' : EPoller} {sockfd : Int}
    (hreg : Registered p (only c.channel)) (h : c.removeAndResetChannel p = .ok (c', p', sockfd)) :
    ∃ channel channel', c.channel = some channel ∧ c' = { c with channel := some channel' } ∧
      channel.fd = sockfd ∧ channel'.index = kNew ∧ Registered p' (only (some channel')) := by
  obtain ⟨channel, channel₁, channel', p₁, hc, rfl, hup, hrem, rfl⟩ := removeAndResetChannel_cases h
  rw [hc] at hreg
  obtain ⟨heq₁, hreg₁⟩ := hreg.of_updateChannel (only_self _) hup
  have hself₁ : channel₁.self = channel.self := by rw [heq₁]
  rw [update_only _ hself₁ (by rintro d hd; obtain rfl := Option.some.inj hd; rfl)] at hreg₁
  obtain ⟨heq', hreg'⟩ := hreg₁.of_removeChannel (only_self _) hrem
  have hself' : channel'.self = channel₁.self := by rw [heq']
  rw [update_only _ hself' (by rintro d hd; obtain rfl := Option.some.inj hd; rfl)] at hreg'
  refine ⟨channel, channel', hc, rfl, ?_, ?_, hreg'⟩
  · rw [heq', heq₁]
  · rw [heq']

/-! ## The threads -/

/-- The statements that hand no socket on and reset no channel. -/
def Silent (stmt : Stmt) : Prop := finishing stmt = none ∧ isReset stmt = 0

variable (tid) in
/-- The threads go from `th` to `th'`, and the sockets handed on and the resets to come stay. -/
structure Quiet (th th' : Threads Handler Stmt) : Prop where
  batched : th'.Batched
  queueable : ∀ x ∈ th'.functors tid, Queueable x
  handedOn : (th'.frames tid).filterMap finishing = (th.frames tid).filterMap finishing
  resets : th'.load Handler.stmts isReset tid = th.load Handler.stmts isReset tid

variable {th th' : Threads Handler Stmt} {t : ThreadId} {stmt : Stmt} {stmts : List Stmt}

theorem filterMap_of_silent (h : ∀ x ∈ stmts, Silent x) : stmts.filterMap finishing = [] :=
  List.filterMap_eq_nil_iff.mpr fun x hx => (h x hx).1

theorem sum_of_silent (h : ∀ x ∈ stmts, Silent x) : (stmts.map isReset).sum = 0 := by
  rw [List.sum_eq_zero_iff]
  intro n hn
  obtain ⟨x, hx, rfl⟩ := List.mem_map.mp hn
  exact (h x hx).2

theorem silent_handler (h : Handler) : ∀ x ∈ h.stmts, Silent x := by
  intro x hx
  cases h with
  | connector revents =>
    obtain ⟨cb, -, hcb⟩ := List.mem_filterMap.mp hx
    cases cb <;> cases hcb <;> exact ⟨rfl, rfl⟩
  | timerfd => obtain rfl := List.mem_singleton.mp hx; exact ⟨rfl, rfl⟩
  | connection => obtain rfl := List.mem_singleton.mp hx; exact ⟨rfl, rfl⟩
  | user => obtain rfl := List.mem_singleton.mp hx; exact ⟨rfl, rfl⟩

theorem silent_handlers (active : List (Active Handler)) :
    ∀ x ∈ (EventLoop.handlers active).flatMap (Threads.stmts Handler.stmts), Silent x := by
  intro x hx
  obtain ⟨task, htask, hx⟩ := List.mem_flatMap.mp hx
  obtain ⟨act, -, hact⟩ := List.mem_filterMap.mp htask
  cases act with
  | wakeupChannel => cases hact
  | channel h =>
    obtain rfl := Option.some.inj hact
    exact silent_handler h x hx

theorem finishing_queueable (h : Queueable stmt) : finishing stmt = none := by
  cases stmt <;> first | rfl | exact absurd h id

theorem quiet_push (hb : th.Batched) (hq : ∀ x ∈ th.functors tid, Queueable x)
    (h : ∀ x ∈ stmts, Silent x) : Quiet tid th (th.push tid stmts) := by
  refine ⟨hb, hq, ?_, ?_⟩
  · simp [Threads.push, filterMap_of_silent h]
  · rw [Threads.load_push, if_pos rfl, sum_of_silent h, Nat.zero_add]

theorem quiet_queueInLoop (hb : th.Batched) (hq : ∀ x ∈ th.functors tid, Queueable x)
    (hs : Queueable stmt) (hr : isReset stmt = 0) : Quiet tid th (th.queueInLoop t tid stmt) := by
  refine ⟨Threads.batched_queueInLoop hb _, ?_, rfl, ?_⟩
  · intro x hx
    rw [Threads.functors_queueInLoop, if_pos rfl, List.mem_append, List.mem_singleton] at hx
    rcases hx with hx | rfl
    · exact hq x hx
    · exact hs
  · rw [Threads.load_queueInLoop, if_pos rfl, hr, Nat.add_zero]

theorem quiet_quit (hb : th.Batched) (hq : ∀ x ∈ th.functors tid, Queueable x) :
    Quiet tid th (th.quit t tid) := by
  refine ⟨Threads.batched_quit hb, ?_, rfl, ?_⟩
  · intro x hx
    rw [Threads.functors_quit] at hx
    exact hq x hx
  · unfold Threads.load
    rw [Threads.agenda_quit]

theorem quiet_pop (hb : th.Batched) (hq : ∀ x ∈ th.functors tid, Queueable x) (hs : Silent stmt)
    (hp : th.pop tid = some (stmt, th')) : Quiet tid th th' := by
  refine ⟨Threads.batched_pop hb hp, ?_, ?_, ?_⟩
  · intro x hx
    rw [Threads.functors_pop hp] at hx
    exact hq x hx
  · rw [(Threads.frames_pop hp).1, List.filterMap_cons_none hs.1]
  · rw [Threads.load_pop hp, if_pos rfl, hs.2, Nat.zero_add]

/-- The frames that the loop's own code leaves: those of its next task. -/
theorem quiet_advance {mv : EventLoop.Move Handler} (hb : th.Batched)
    (hq : ∀ x ∈ th.functors tid, Queueable x) (h : th.advance Handler.stmts tid mv = .ok th') :
    Quiet tid th th' := by
  obtain ⟨hb', hnil, -, hcase⟩ := Threads.agenda_advance hb h
  refine ⟨hb', fun x hx => hq x (Threads.functors_advance hb h hx), ?_, ?_⟩
  · -- a task is a handler, or a functor that could be queued
    rw [hnil]
    refine List.filterMap_eq_nil_iff.mpr ?_
    intro x hx
    rcases Threads.frames_advance h with hnone | ⟨hd, rest, -, -, hframes⟩ | ⟨f, rest, -, hf, -, hframes⟩
    · rw [hnone] at hx
      exact absurd hx List.not_mem_nil
    · rw [hframes] at hx
      exact (silent_handler hd x hx).1
    · rw [hframes, List.mem_singleton] at hx
      subst hx
      exact finishing_queueable (hq x (List.mem_append_left _ (by rw [hf]; exact List.mem_cons_self)))
  · unfold Threads.load
    rcases hcase with ⟨active, rfl, -, -, hag⟩ | ⟨-, hag⟩
    · rw [hag, if_pos rfl, List.map_append, List.sum_append, sum_of_silent (silent_handlers active),
        Nat.zero_add]
    · rw [hag]

/-- A step that leaves the connector's state, its channel, the poller and the sockets alone. -/
theorem Sound.quiet (h : s.Sound tid) (hq : Quiet tid s.threads s'.threads)
    (hstate : s'.connector.state = s.connector.state) (hchannel : s'.connector.channel = s.connector.channel)
    (hconnection : s'.connection = s.connection) (hpoller : s'.poller = s.poller)
    (hsockets : s'.sockets = s.sockets) : s'.Sound tid := by
  have hhanded : s'.handedOn tid = s.handedOn tid := hq.handedOn
  have hattempted : s'.attempted = s.attempted := by unfold attempted; rw [hstate, hchannel]
  have hresets : s'.resets tid = s.resets tid := hq.resets
  refine ⟨hq.batched, hq.queueable, ?_, ?_, ?_, ?_, ?_, ?_⟩
  · rw [hhanded, hattempted, hsockets]; exact h.owns
  · rw [hhanded, hconnection, hstate]; exact h.connected
  · rw [hpoller, hchannel]; exact h.registered
  · rw [hstate, hchannel]; exact h.connecting
  · rw [hstate, hchannel]; exact h.detached
  · rw [hresets, hstate, hchannel]; exact h.resets

/-! ## A socket in the hands of the statement that runs -/

variable (tid) in
/-- The one socket the connector has is `sockfd`, a local variable. -/
structure Handling (s : TcpClient) (sockfd : Int) : Prop where
  batched : s.threads.Batched
  queueable : ∀ x ∈ s.threads.functors tid, Queueable x
  owns : s.sockets.Owns [sockfd]
  handedOn : s.handedOn tid = []
  connection : s.connection = false
  registered : Registered s.poller (only s.connector.channel)
  detached : ∀ c, s.connector.channel = some c → c.index = kNew
  resets : s.resets tid = if s.connector.channel.isSome then 1 else 0

namespace Handling

variable {sockfd : Int}

/-- It is closed, and the state is again `kDisconnected`. -/
theorem retry (h : s.Handling tid sockfd) : (s.retry tid sockfd).Sound tid := by
  have hq : Quiet tid s.threads (s.threads.push tid [.finishRetry]) :=
    quiet_push h.batched h.queueable (by simp [Silent, finishing, isReset])
  have hhanded : (s.retry tid sockfd).handedOn tid = [] := hq.handedOn.trans h.handedOn
  refine ⟨hq.batched, hq.queueable, ?_, ?_, h.registered, ?_, ?_, ?_⟩
  · rw [hhanded]
    exact h.owns.close
  · rw [hhanded]
    simp [TcpClient.retry, h.connection]
  · intro hstate
    cases hstate
  · intro _ c hc
    exact h.detached c hc
  · rw [show (s.retry tid sockfd).resets tid = s.resets tid from hq.resets, h.resets]
    simp [TcpClient.retry]

/-- It is closed where it was made. -/
theorem close (h : s.Handling tid sockfd) (hstate : s.connector.state = .kDisconnected) :
    { s with sockets := s.sockets.close sockfd }.Sound tid := by
  have hne : ¬ s.connector.state = .kConnecting := by rw [hstate]; decide
  refine ⟨h.batched, h.queueable, ?_, ?_, h.registered, fun hc => absurd hc hne, fun _ => h.detached, ?_⟩
  · show (s.sockets.close sockfd).Owns (s.handedOn tid ++ s.attempted)
    rw [h.handedOn, attempted, if_neg hne]
    exact h.owns.close
  · show (s.handedOn tid).length + (if s.connection then 1 else 0) ≤ _
    rw [h.handedOn, h.connection]
    exact Nat.zero_le _
  · show s.resets tid = _
    rw [h.resets]
    simp [hne]

/-- It is handed on to the end of `handleWrite`. -/
theorem finishWrite (h : s.Handling tid sockfd) :
    { s with
      connector := { s.connector with state := .kConnected }
      threads := s.threads.push tid [.finishWrite sockfd] }.Sound tid := by
  have hload : (s.threads.push tid [.finishWrite sockfd]).load Handler.stmts isReset tid = s.resets tid := by
    rw [Threads.load_push, if_pos rfl]
    exact Nat.zero_add _
  have hhanded : ((s.threads.push tid [.finishWrite sockfd]).frames tid).filterMap finishing = [sockfd] := by
    have hnil : (s.threads.frames tid).filterMap finishing = [] := h.handedOn
    simp [Threads.push, finishing, hnil]
  refine ⟨h.batched, h.queueable, ?_, ?_, h.registered, ?_, fun _ => h.detached, ?_⟩
  · show s.sockets.Owns (((s.threads.push tid [.finishWrite sockfd]).frames tid).filterMap finishing ++ _)
    rw [hhanded]
    exact h.owns
  · show (((s.threads.push tid [.finishWrite sockfd]).frames tid).filterMap finishing).length +
      (if s.connection then 1 else 0) ≤ 1
    rw [hhanded, h.connection]
    simp
  · intro hstate
    cases hstate
  · show (s.threads.push tid [.finishWrite sockfd]).load Handler.stmts isReset tid = _
    rw [hload, h.resets]
    simp

end Handling

/-! ## The statements -/

theorem eq_of_mem_of_length_le {l : List Nat} {m n : Nat} (h : l.length ≤ 1) (hm : m ∈ l) (hn : n ∈ l) :
    m = n := by
  cases l with
  | nil => cases hm
  | cons x rest =>
    obtain rfl : rest = [] := List.eq_nil_of_length_eq_zero (by rw [List.length_cons] at h; omega)
    rw [List.mem_singleton] at hm hn
    rw [hm, hn]

theorem Sound.not_connected (h : s.Sound tid) (hstate : s.connector.state ≠ .kConnected) :
    s.handedOn tid = [] ∧ s.connection = false := by
  have hle := h.connected
  rw [if_neg hstate] at hle
  refine ⟨List.eq_nil_of_length_eq_zero (by omega), ?_⟩
  cases hc : s.connection with
  | false => rfl
  | true => rw [hc, if_pos rfl] at hle; omega

/-- A socket made in `kDisconnected`. -/
theorem Sound.create (h : s.Sound tid) (hstate : s.connector.state = .kDisconnected) {sockfd : Int}
    (hfree : s.sockets.table sockfd = none) :
    { s with sockets := s.sockets.create sockfd }.Handling tid sockfd := by
  have hne : s.connector.state ≠ .kConnecting := by rw [hstate]; decide
  obtain ⟨hhanded, hconnection⟩ := h.not_connected (by rw [hstate]; decide)
  have howns := h.owns
  rw [hhanded, attempted, if_neg hne] at howns
  refine ⟨h.batched, h.queueable, howns.create hfree, hhanded, hconnection, h.registered,
    h.detached hne, ?_⟩
  show s.resets tid = _
  rw [h.resets]
  simp [hne]

/-- `connect` disposes of the new socket, or begins an attempt with it. -/
theorem sound_connect (h : s.Sound tid) (hstate : s.connector.state = .kDisconnected)
    (hc : s.connect tid a = .ok s') : s'.Sound tid := by
  simp only [connect, bind_eq_ok, enabled_eq_ok] at hc
  obtain ⟨-, hfree, hc⟩ := hc
  have hhand := h.create hstate hfree
  cases haction : a.connectErrno.action with
  | retry =>
    rw [haction] at hc
    obtain rfl := Except.ok.inj hc
    exact hhand.retry
  | close =>
    rw [haction] at hc
    obtain rfl := Except.ok.inj hc
    exact hhand.close hstate
  | connecting =>
    rw [haction] at hc
    simp only [bind_eq_ok, Result.mapFault_eq_ok, Prod.exists, pure_eq_ok, Except.ok.injEq] at hc
    obtain ⟨connector, poller, hcon, rfl⟩ := hc
    obtain ⟨channel, hnone, rfl, hfd, hindex, hevents, hreg⟩ := connecting_registered h.registered hcon
    refine ⟨h.batched, h.queueable, ?_, ?_, hreg, fun _ => ⟨channel, rfl, hindex, hevents⟩,
      fun hne => absurd rfl hne, ?_⟩
    · show (s.sockets.create a.sockfd).Owns (s.handedOn tid ++ [channel.fd])
      rw [show s.handedOn tid = [] from hhand.handedOn, hfd]
      exact hhand.owns
    · show (s.handedOn tid).length + (if s.connection then 1 else 0) ≤ 0
      rw [show s.handedOn tid = [] from hhand.handedOn, show s.connection = false from hhand.connection]
      simp
    · show s.resets tid = _
      rw [show s.resets tid = _ from hhand.resets, hnone]
      simp

theorem startInLoop_cases (h : s.startInLoop tid a = .ok s') :
    s.connector.state = .kDisconnected ∧
      (s.connector.connect = false ∧ s' = s ∨ s.connector.connect = true ∧ s.connect tid a = .ok s') := by
  simp only [startInLoop, bind_eq_ok, require_eq_ok] at h
  obtain ⟨-, hstate, h⟩ := h
  refine ⟨hstate, ?_⟩
  cases hc : s.connector.connect with
  | false => rw [hc] at h; exact .inl ⟨rfl, (Except.ok.inj h).symm⟩
  | true => rw [hc] at h; exact .inr ⟨rfl, h⟩

/-- `startInLoop` does so, or nothing after `stop()`. -/
theorem sound_startInLoop (h : s.Sound tid) (hs : s.startInLoop tid a = .ok s') : s'.Sound tid := by
  obtain ⟨hstate, ⟨-, rfl⟩ | ⟨-, hc⟩⟩ := startInLoop_cases hs
  · exact h
  · exact sound_connect h hstate hc

/-- The socket of the attempt, taken from its channel. -/
theorem Sound.removeAndResetChannel (h : s.Sound tid) (hstate : s.connector.state = .kConnecting)
    {sockfd : Int} (hr : s.removeAndResetChannel tid = .ok (s', sockfd)) : s'.Handling tid sockfd := by
  simp only [TcpClient.removeAndResetChannel, bind_eq_ok, Result.mapFault_eq_ok, Prod.exists, pure_eq_ok,
    Except.ok.injEq, Prod.mk.injEq] at hr
  obtain ⟨connector, poller, fd, hrem, rfl, rfl⟩ := hr
  obtain ⟨channel, channel', hc, rfl, hfd, hindex, hreg⟩ := removeAndResetChannel_registered h.registered hrem
  obtain ⟨hhanded, hconnection⟩ := h.not_connected (by rw [hstate]; decide)
  have howns := h.owns
  rw [hhanded, attempted, if_pos hstate, hc] at howns
  have hresets := h.resets
  rw [if_neg (fun hand => hand.2 hstate)] at hresets
  refine ⟨Threads.batched_queueInLoop h.batched _, ?_, ?_, hhanded, hconnection, hreg, ?_, ?_⟩
  · intro x hx
    rw [Threads.functors_queueInLoop, if_pos rfl, List.mem_append, List.mem_singleton] at hx
    rcases hx with hx | rfl
    · exact h.queueable x hx
    · trivial
  · rw [← hfd]
    exact howns
  · intro c hcc
    obtain rfl := Option.some.inj hcc
    exact hindex
  · show (s.threads.queueInLoop tid tid .resetChannel).load Handler.stmts isReset tid = 1
    rw [Threads.load_queueInLoop, if_pos rfl, show s.threads.load Handler.stmts isReset tid = 0 from hresets]
    rfl

/-- A failed attempt: its socket is closed by `retry`. -/
theorem sound_handleError (h : s.Sound tid) (hs : s.handleError tid = .ok s') : s'.Sound tid := by
  simp only [handleError, bind_eq_ok, require_eq_ok, Prod.exists, pure_eq_ok, Except.ok.injEq] at hs
  obtain ⟨-, hstate, s₁, sockfd, hr, rfl⟩ := hs
  exact (h.removeAndResetChannel hstate hr).retry

/-- **What `handleWrite` does.** -/
theorem handleWrite_cases (h : s.handleWrite tid a = .ok s') :
    (s.connector.state = .kDisconnected ∧ s' = s) ∨
    (s.connector.state = .kConnecting ∧ ∃ s₁ sockfd, s.removeAndResetChannel tid = .ok (s₁, sockfd) ∧
      (s' = s₁.retry tid sockfd ∨ s' = { s₁ with
        connector := { s₁.connector with state := .kConnected }
        threads := s₁.threads.push tid [.finishWrite sockfd] })) := by
  unfold handleWrite at h
  split at h
  · rename_i hstate
    simp only [bind_eq_ok, Prod.exists] at h
    obtain ⟨s₁, sockfd, hr, h⟩ := h
    refine .inr ⟨hstate, s₁, sockfd, hr, ?_⟩
    split at h
    · exact .inl (Except.ok.inj h).symm
    · exact .inr (Except.ok.inj h).symm
  · simp only [bind_eq_ok, require_eq_ok, pure_eq_ok, Except.ok.injEq] at h
    obtain ⟨-, hstate, rfl⟩ := h
    exact .inl ⟨hstate, rfl⟩

/-- An error or a self connect ends in `retry`; a connection is handed on. -/
theorem sound_handleWrite (h : s.Sound tid) (hs : s.handleWrite tid a = .ok s') : s'.Sound tid := by
  rcases handleWrite_cases hs with ⟨-, rfl⟩ | ⟨hstate, s₁, sockfd, hr, rfl | rfl⟩
  · exact h
  · exact (h.removeAndResetChannel hstate hr).retry
  · exact (h.removeAndResetChannel hstate hr).finishWrite

/-- The event of a connection: it closes, and the connector may start again. -/
theorem sound_connectionEvent (h : s.Sound tid) (hs : s.run tid a .connectionEvent = .ok s') :
    s'.Sound tid := by
  simp only [run] at hs
  split at hs
  · simp only [bind_eq_ok, require_eq_ok] at hs
    obtain ⟨-, hup, hs⟩ := hs
    have hle := h.connected
    rw [hup, if_pos rfl] at hle
    have hstate : s.connector.state = .kConnected := by
      by_contra hne
      rw [if_neg hne] at hle
      omega
    rw [if_pos hstate] at hle
    have hhanded : s.handedOn tid = [] := List.eq_nil_of_length_eq_zero (by omega)
    have hne : s.connector.state ≠ .kConnecting := by rw [hstate]; decide
    have howns := h.owns
    rw [hhanded, attempted, if_neg hne] at howns
    have hqueue : Quiet tid s.threads (s.threads.queueInLoop tid tid .user) :=
      quiet_queueInLoop h.batched h.queueable trivial rfl
    split at hs
    · -- `restart`
      obtain rfl := Except.ok.inj hs
      have hsilent : ∀ x ∈ [Stmt.startInLoop], Silent x := by simp [Silent, finishing, isReset]
      have hpush := quiet_push hqueue.batched hqueue.queueable hsilent
      have hhanded' := (hpush.handedOn.trans hqueue.handedOn).trans hhanded
      refine ⟨hpush.batched, hpush.queueable, ?_, ?_, h.registered, ?_, fun _ => h.detached hne, ?_⟩
      · show s.sockets.Owns ((((s.threads.queueInLoop tid tid .user).push tid [.startInLoop]).frames
          tid).filterMap finishing ++ _)
        rw [hhanded']
        exact howns
      · show ((((s.threads.queueInLoop tid tid .user).push tid [.startInLoop]).frames
          tid).filterMap finishing).length + 0 ≤ _
        rw [hhanded']
        exact Nat.zero_le _
      · intro hstate'
        cases hstate'
      · refine (hpush.resets.trans hqueue.resets).trans (h.resets.trans ?_)
        simp [restart, hne]
    · obtain rfl := Except.ok.inj hs
      have hhanded' := hqueue.handedOn.trans hhanded
      refine ⟨hqueue.batched, hqueue.queueable, ?_, ?_, h.registered, h.connecting, h.detached, ?_⟩
      · show s.sockets.Owns (((s.threads.queueInLoop tid tid .user).frames tid).filterMap finishing ++
          s.attempted)
        rw [hhanded', attempted, if_neg hne]
        exact howns
      · show (((s.threads.queueInLoop tid tid .user).frames tid).filterMap finishing).length + 0 ≤ _
        rw [hhanded']
        exact Nat.zero_le _
      · exact hqueue.resets.trans h.resets
  · obtain rfl := Except.ok.inj hs
    exact h.quiet (quiet_push h.batched h.queueable (by simp [Silent, finishing, isReset])) rfl rfl rfl rfl rfl

/-- The end of `handleWrite`: the socket it has is the only one. -/
theorem sound_finishWrite (h : s.Sound tid) {sockfd : Int} {th : Threads Handler Stmt}
    (hp : s.threads.pop tid = some (.finishWrite sockfd, th))
    (hs : { s with threads := th }.run tid a (.finishWrite sockfd) = .ok s') : s'.Sound tid := by
  have hb := Threads.batched_pop h.batched hp
  have hq : ∀ x ∈ th.functors tid, Queueable x := by
    intro x hx
    rw [Threads.functors_pop hp] at hx
    exact h.queueable x hx
  have hload : th.load Handler.stmts isReset tid = s.resets tid := by
    rw [show s.resets tid = _ from Threads.load_pop hp tid, if_pos rfl]
    exact (Nat.zero_add _).symm
  have hhanded : s.handedOn tid = sockfd :: (th.frames tid).filterMap finishing := by
    rw [handedOn, (Threads.frames_pop hp).1]
    rfl
  -- it takes the place that `kConnected` has
  have hle := h.connected
  rw [hhanded, List.length_cons] at hle
  have hstate : s.connector.state = .kConnected := by
    by_contra hne
    rw [if_neg hne] at hle
    omega
  rw [if_pos hstate] at hle
  have hnil : (th.frames tid).filterMap finishing = [] := List.eq_nil_of_length_eq_zero (by omega)
  have hne : s.connector.state ≠ .kConnecting := by rw [hstate]; decide
  have howns := h.owns
  rw [hhanded, hnil, attempted, if_neg hne] at howns
  simp only [run] at hs
  split at hs
  · obtain rfl := Except.ok.inj hs
    have hsilent : ∀ x ∈ [Stmt.user], Silent x := by simp [Silent, finishing, isReset]
    have hpush := quiet_push hb hq hsilent
    have hhanded' := hpush.handedOn.trans hnil
    refine ⟨hpush.batched, hpush.queueable, ?_, ?_, h.registered, h.connecting, h.detached, ?_⟩
    · show (s.sockets.pass sockfd).Owns (((th.push tid [.user]).frames tid).filterMap finishing ++ s.attempted)
      rw [hhanded', attempted, if_neg hne]
      exact howns.pass
    · show (((th.push tid [.user]).frames tid).filterMap finishing).length + 1 ≤
        if s.connector.state = .kConnected then 1 else 0
      rw [hhanded', if_pos hstate]
      simp
    · exact (hpush.resets.trans hload).trans h.resets
  · obtain rfl := Except.ok.inj hs
    refine ⟨hb, hq, ?_, ?_, h.registered, h.connecting, h.detached, hload.trans h.resets⟩
    · show (s.sockets.close sockfd).Owns ((th.frames tid).filterMap finishing ++ s.attempted)
      rw [hnil, attempted, if_neg hne]
      exact howns.close
    · show ((th.frames tid).filterMap finishing).length + (if s.connection then 1 else 0) ≤
        if s.connector.state = .kConnected then 1 else 0
      rw [hnil, if_pos hstate, List.length_nil]
      omega

/-- `resetChannel` finds the channel of an attempt that has ended. -/
theorem sound_resetChannel (h : s.Sound tid) {th : Threads Handler Stmt}
    (hp : s.threads.pop tid = some (.resetChannel, th))
    (hs : { s with threads := th }.run tid a .resetChannel = .ok s') : s'.Sound tid := by
  obtain rfl := Except.ok.inj hs
  have hhanded : s.handedOn tid = (th.frames tid).filterMap finishing := by
    rw [handedOn, (Threads.frames_pop hp).1]
    rfl
  have hload : s.resets tid = 1 + th.load Handler.stmts isReset tid := by
    rw [show s.resets tid = _ from Threads.load_pop hp tid, if_pos rfl]
    rfl
  have hresets := h.resets
  rw [hload] at hresets
  split at hresets
  · rename_i hand
    obtain ⟨hsome, hne⟩ := hand
    obtain ⟨c, hc⟩ := Option.isSome_iff_exists.mp hsome
    have hzero : th.load Handler.stmts isReset tid = 0 := by omega
    have howns := h.owns
    rw [hhanded, attempted, if_neg hne] at howns
    have hreg := h.registered
    rw [hc] at hreg
    have hreg' := hreg.update_new (a := c.self) (v := none)
      (fun d hd => by
        rw [only_self] at hd
        obtain rfl := Option.some.inj hd
        exact h.detached hne _ hc)
      (by simp)
    rw [update_only_none] at hreg'
    refine ⟨Threads.batched_pop h.batched hp, ?_, ?_, ?_, hreg', fun heq => absurd heq hne, ?_, hzero⟩
    · intro x hx
      rw [Threads.functors_pop hp] at hx
      exact h.queueable x hx
    · show s.sockets.Owns ((th.frames tid).filterMap finishing ++ attempted _)
      rw [attempted, if_neg (show ¬ (s.connector.resetChannel).state = .kConnecting from hne)]
      exact howns
    · have hle := h.connected
      rw [hhanded] at hle
      exact hle
    · intro _ d hd
      cases hd
  · omega

theorem silent_expired (l : List (Option Nat)) : ∀ x ∈ l.map expiredStmt, Silent x := by
  intro x hx
  obtain ⟨e, -, rfl⟩ := List.mem_map.mp hx
  cases e <;> exact ⟨rfl, rfl⟩

/-- **One statement** keeps the invariant. -/
theorem sound_exec (h : s.Sound tid) {stmt : Stmt} {th : Threads Handler Stmt}
    (hp : s.threads.pop tid = some (stmt, th)) (hs : { s with threads := th }.run tid a stmt = .ok s') :
    s'.Sound tid := by
  have hpop : Silent stmt → { s with threads := th }.Sound tid := fun hsilent =>
    h.quiet (quiet_pop h.batched h.queueable hsilent hp) rfl rfl rfl rfl rfl
  cases stmt with
  | user => cases hs
  | startInLoop => exact sound_startInLoop (hpop ⟨rfl, rfl⟩) hs
  | timer id => exact sound_startInLoop (hpop ⟨rfl, rfl⟩) hs
  | handleRead =>
    have h₁ := hpop ⟨rfl, rfl⟩
    simp only [run, bind_eq_ok, enabled_eq_ok, pure_eq_ok, Except.ok.injEq] at hs
    obtain ⟨-, -, rfl⟩ := hs
    exact h₁.quiet (quiet_push h₁.batched h₁.queueable (silent_expired _)) rfl rfl rfl rfl rfl
  | cancelInLoop timerId =>
    have h₁ := hpop ⟨rfl, rfl⟩
    obtain rfl := Except.ok.inj hs
    cases timerId with
    | none => exact h₁
    | some id => exact h₁.quiet ⟨h₁.batched, h₁.queueable, rfl, rfl⟩ rfl rfl rfl rfl rfl
  | resetChannel => exact sound_resetChannel h hp hs
  | handleError => exact sound_handleError (hpop ⟨rfl, rfl⟩) hs
  | handleWrite => exact sound_handleWrite (hpop ⟨rfl, rfl⟩) hs
  | finishWrite sockfd => exact sound_finishWrite h hp hs
  | finishRetry =>
    have h₁ := hpop ⟨rfl, rfl⟩
    simp only [run] at hs
    split at hs
    · obtain rfl := Except.ok.inj hs
      exact h₁.quiet (quiet_push h₁.batched h₁.queueable (by simp [Silent, finishing, isReset]))
        rfl rfl rfl rfl rfl
    · obtain rfl := Except.ok.inj hs
      exact h₁
  | setTimer =>
    have h₁ := hpop ⟨rfl, rfl⟩
    obtain rfl := Except.ok.inj hs
    exact h₁.quiet ⟨h₁.batched, h₁.queueable, rfl, rfl⟩ rfl rfl rfl rfl rfl
  | connectionEvent => exact sound_connectionEvent (hpop ⟨rfl, rfl⟩) hs

theorem queueable_functor (c : Call) : Queueable (c.functor s) := by
  cases c <;> trivial

theorem silent_functor (c : Call) : Silent (c.functor s) := by
  cases c <;> exact ⟨rfl, rfl⟩

/-- **One step** keeps the invariant. -/
theorem sound_step (h : s.Sound tid) {l : Label} (hs : s.step tid l = .ok s') : s'.Sound tid := by
  cases l with
  | loop mv =>
    simp only [step, bind_eq_ok, enabled_eq_ok, Result.mapFault_eq_ok, pure_eq_ok, Except.ok.injEq] at hs
    obtain ⟨-, -, th, hadv, rfl⟩ := hs
    exact h.quiet (quiet_advance h.batched h.queueable hadv) rfl rfl rfl rfl rfl
  | exec a =>
    simp only [step] at hs
    cases hp : s.threads.pop tid with
    | none => rw [hp] at hs; cases hs
    | some e =>
      rw [hp] at hs
      exact sound_exec h hp hs
  | ret =>
    simp only [step] at hs
    split at hs
    · rename_i th hp
      obtain rfl := Except.ok.inj hs
      exact h.quiet (quiet_pop h.batched h.queueable ⟨rfl, rfl⟩ hp) rfl rfl rfl rfl rfl
    · cases hs
  | call t c =>
    simp only [step, bind_eq_ok, enabled_eq_ok, pure_eq_ok, Except.ok.injEq] at hs
    obtain ⟨-, -, rfl⟩ := hs
    refine h.quiet ?_ rfl rfl rfl rfl rfl
    split
    · exact quiet_push h.batched h.queueable (by simpa using silent_functor c)
    · exact ⟨h.batched, h.queueable, rfl, rfl⟩
  | finishCall t c =>
    simp only [step, bind_eq_ok, enabled_eq_ok, pure_eq_ok, Except.ok.injEq] at hs
    obtain ⟨-, -, rfl⟩ := hs
    exact h.quiet (quiet_queueInLoop h.batched h.queueable (queueable_functor c) (silent_functor c).2)
      rfl rfl rfl rfl rfl
  | queueInLoop t =>
    simp only [step, bind_eq_ok, enabled_eq_ok, pure_eq_ok, Except.ok.injEq] at hs
    obtain ⟨-, -, rfl⟩ := hs
    exact h.quiet (quiet_queueInLoop h.batched h.queueable trivial rfl) rfl rfl rfl rfl rfl
  | quit t =>
    simp only [step, bind_eq_ok, enabled_eq_ok, pure_eq_ok, Except.ok.injEq] at hs
    obtain ⟨-, -, rfl⟩ := hs
    exact h.quiet (quiet_quit h.batched h.queueable) rfl rfl rfl rfl rfl
  | release sockfd =>
    simp only [step, bind_eq_ok, enabled_eq_ok, pure_eq_ok, Except.ok.injEq] at hs
    obtain ⟨-, ⟨hopen, hpassed⟩, rfl⟩ := hs
    obtain ⟨n, hn⟩ := Option.ne_none_iff_exists'.mp hopen
    rw [hn] at hpassed
    exact ⟨h.batched, h.queueable, h.owns.release (h.owns.not_mem_of_passed hn hpassed), h.connected,
      h.registered, h.connecting, h.detached, h.resets⟩

theorem sound_start : start.Sound tid := by
  refine ⟨Threads.batched_start, ?_, Ledger.Owns.new, Nat.zero_le _, ?_, ?_, ?_, rfl⟩
  · intro x hx
    exact absurd hx List.not_mem_nil
  · exact Registered.new (by simp [start, Connector.new, only]) (by simp [start, Connector.new, only])
  · intro hstate
    cases hstate
  · intro _ c hc
    cases hc

theorem sound_of_reachable (h : (tcpClient tid).Reachable s) : s.Sound tid :=
  h.invariant (I := fun s => s.Sound tid) (fun _ h0 => h0 ▸ sound_start)
    (fun _ _ _ _ hI _ hs => sound_step hI hs)

/-! ## Each socket is closed once, or passed on once -/

/-- A socket that was made, and neither closed nor passed to `newConnectionCallback_`. -/
def Undisposed (s : TcpClient) (n : Nat) : Prop := n < s.sockets.created ∧ s.sockets.disposals n = 0

variable (tid) in
/-- No statement holds a socket in a local variable. -/
def BetweenSteps (s : TcpClient) : Prop := ∀ sockfd, .finishWrite sockfd ∉ s.threads.frames tid

/-- The channel of the attempt under way, for the socket `n`. -/
structure Attempt (s : TcpClient) (n : Nat) (c : Channel) : Prop where
  channel : s.connector.channel = some c
  fd : s.sockets.table c.fd = some n
  known : s.poller.channels c.fd = some c.self
  watched : s.poller.epoll c.fd = some (Channel.kWriteEvent, c.self)

variable (tid) in
/-- How the connector disposes of its sockets. -/
structure Disposes (s : TcpClient) : Prop where
  /-- closed once, or passed on once, and never both -/
  once : ∀ n, s.sockets.disposals n ≤ 1
  /-- what was closed or passed on was a socket of the connector -/
  hits : ∀ x ∈ s.sockets.closed ++ s.sockets.passed, ∃ n < s.sockets.created, x = some n
  unique : ∀ m n, s.Undisposed m → s.Undisposed n → m = n
  undisposed : s.BetweenSteps tid → ((∃ n, s.Undisposed n) ↔ s.connector.state = .kConnecting)
  attempt : s.BetweenSteps tid → ∀ n, s.Undisposed n → ∃ c, s.Attempt n c

theorem handedOn_eq_nil (h : s.BetweenSteps tid) : s.handedOn tid = [] := by
  refine List.filterMap_eq_nil_iff.mpr fun x hx => ?_
  cases x with
  | finishWrite sockfd => exact absurd hx (h sockfd)
  | _ => rfl

/-- The resources not disposed of are behind the descriptors held. -/
theorem Sound.undisposed_iff (h : s.Sound tid) (n : Nat) :
    s.Undisposed n ↔ n ∈ (s.handedOn tid ++ s.attempted).filterMap s.sockets.table := by
  have haccount := h.owns.account n
  rw [← List.count_pos_iff]
  unfold Undisposed
  split at haccount
  · omega
  · omega

/-- There is one at most: the states that hold one exclude each other. -/
theorem Sound.length_le (h : s.Sound tid) :
    ((s.handedOn tid ++ s.attempted).filterMap s.sockets.table).length ≤ 1 := by
  refine (List.length_filterMap_le _ _).trans ?_
  rw [List.length_append]
  unfold attempted
  by_cases hstate : s.connector.state = .kConnecting
  · have hnil := (h.not_connected (by rw [hstate]; decide)).1
    rw [if_pos hstate, hnil, List.length_map]
    cases s.connector.channel <;> simp
  · have hle := h.connected
    rw [if_neg hstate, List.length_nil]
    split at hle <;> split at hle <;> omega

/-- **The sockets of a connector**, in every run: each is disposed of once, and between steps one is left
    exactly while `state_ == kConnecting`, behind the registered `channel_`. -/
theorem sockets_disposed (h : (tcpClient tid).Reachable s) : s.Disposes tid := by
  have hsound := sound_of_reachable h
  refine ⟨?_, ?_, ?_, ?_, ?_⟩
  · intro n
    have haccount := hsound.owns.account n
    split at haccount <;> omega
  · intro x hx
    cases x with
    | none => exact absurd hx hsound.owns.hits
    | some n =>
      refine ⟨n, ?_, rfl⟩
      have haccount := hsound.owns.account n
      have hpos : 0 < s.sockets.disposals n := by
        rw [Ledger.disposals, ← List.count_append]
        exact List.count_pos_iff.mpr hx
      by_contra hge
      rw [if_neg hge] at haccount
      omega
  · intro m n hm hn
    rw [hsound.undisposed_iff] at hm hn
    exact eq_of_mem_of_length_le hsound.length_le hm hn
  · intro hbetween
    have hnil := handedOn_eq_nil hbetween
    constructor
    · rintro ⟨n, hn⟩
      rw [hsound.undisposed_iff, hnil, attempted] at hn
      by_contra hne
      rw [if_neg hne] at hn
      exact absurd hn List.not_mem_nil
    · intro hstate
      obtain ⟨c, hc, -⟩ := hsound.connecting hstate
      have hheld : c.fd ∈ s.handedOn tid ++ s.attempted := by
        rw [hnil, attempted, if_pos hstate, hc]
        exact List.mem_singleton_self _
      obtain ⟨n, hn⟩ := Option.isSome_iff_exists.mp (hsound.owns.isOpen _ hheld)
      exact ⟨n, (hsound.undisposed_iff n).mpr (List.mem_filterMap.mpr ⟨c.fd, hheld, hn⟩)⟩
  · intro hbetween n hn
    rw [hsound.undisposed_iff, handedOn_eq_nil hbetween, attempted] at hn
    split at hn
    · rename_i hstate
      obtain ⟨c, hc, hindex, hevents⟩ := hsound.connecting hstate
      obtain ⟨fd, hfd, htable⟩ := List.mem_filterMap.mp hn
      rw [hc] at hfd
      obtain rfl := List.mem_singleton.mp hfd
      have hself : only s.connector.channel c.self = some c := by rw [hc, only_self]
      refine ⟨c, hc, htable, ?_, ?_⟩
      · exact (hsound.registered.known _ _).mpr ⟨c, hself, rfl, by rw [hindex]; decide⟩
      · exact (hsound.registered.watched _ _ _).mpr ⟨c, hself, rfl, hindex, hevents⟩
    · exact absurd hn List.not_mem_nil

/-- The answers when nothing goes wrong. -/
def Answers.quiet : Answers :=
  { sockfd := 5, channel := 100, connectErrno := .EINPROGRESS, soError := false, isSelfConnect := false
    expired := [], closes := false, again := false }

/-- One turn of the loop that reports `active`, up to its tasks. -/
def turn (active : List (Active Handler)) : List Label := [.loop .next, .loop (.poll active)]

/-- The rest of a turn, with `n` functors that are one statement each. -/
def functors (n : Nat) : List Label :=
  [Label.loop .next] ++ (List.replicate n [.loop .next, .exec Answers.quiet]).flatten ++ [Label.loop .next, .loop .next]

/-- An error reported with the channel writable, a retry with the same descriptor, and a connection. -/
theorem sockets_disposed_sample : ∃ s : TcpClient, s.sockets.closed = [some 0] ∧ s.sockets.passed = [some 1] ∧
    s.connection = true ∧ s.Disposes 0 := by
  obtain ⟨s, hs, hp⟩ := System.Reach.of_exec (S := tcpClient 0) (s := start)
    (l := [Label.loop .enter, .call 1 .start, .finishCall 1 .start] ++
      turn [.wakeupChannel] ++ [Label.loop .next] ++ functors 1 ++
      turn [.channel (.connector {.POLLERR, .POLLOUT})] ++
      [Label.loop .next, .exec Answers.quiet, .exec Answers.quiet, .exec Answers.quiet, .exec Answers.quiet] ++
      functors 1 ++
      turn [.channel .timerfd] ++
      [Label.loop .next, .exec { Answers.quiet with expired := [some 0] }, .exec Answers.quiet] ++ functors 0 ++
      turn [.channel (.connector {.POLLOUT})] ++ [Label.loop .next, .exec Answers.quiet, .exec Answers.quiet])
    (p := fun s => decide (s.sockets.closed = [some 0] ∧ s.sockets.passed = [some 1] ∧ s.connection = true))
    (.init rfl) (by decide +kernel)
  rw [decide_eq_true_eq] at hp
  exact ⟨s, hp.1, hp.2.1, hp.2.2, sockets_disposed hs⟩

end TcpClient

end Irono
