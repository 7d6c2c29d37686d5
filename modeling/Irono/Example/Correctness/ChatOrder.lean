import Irono.Example.Correctness.ChatControl

/-!
# `Example.Correctness.ChatOrder` — all clients see the messages in one order

The order in which `onStringMessage` got the mutex is the order in which every loop has, will have and is
being given the messages (`Fanout`): the mutex is held over all the `queueInLoop`s, and a loop's functors are
first come, first served. What a loop has begun to distribute is, for each of its connections, what was sent
to it and what is at the front of the loop's agenda (`Delivery`). So every client gets a contiguous piece of
the one order.
-/

namespace Irono

open Transition Threads

namespace HighPerformance

/-! ## The messages on an agenda -/

def Stmt.distributing : Stmt → Option (List Byte)
  | .distributeMessage message => some message
  | _ => none

/-- The message that loop `l` is still to be given by the `for` of `onStringMessage`. -/
def Stmt.owing (l : ThreadId) : Stmt → Option (List Byte)
  | .queueEach loops message => if l ∈ loops then some message else none
  | _ => none

def Stmt.sendingTo (conn : ConnId) : Stmt → Option (List Byte)
  | .send c message => if c = conn then some message else none
  | _ => none

def Stmt.entering (conn : ConnId) : Stmt → Option (List Byte)
  | .onStringMessage c message => if c = conn then some message else none
  | _ => none

/-- What loop `l` has still to begin. -/
def pending (s : ChatServer) (l : ThreadId) : List (List Byte) := (agenda s l).filterMap Stmt.distributing

/-- What loop `l` is still to be given by the thread with the mutex. -/
def owed (s : ChatServer) (l : ThreadId) : List (List Byte) :=
  match s.mutex with
  | some t => (agenda s t).filterMap (Stmt.owing l)
  | none => []

/-- What is being sent to `conn`. -/
def sending (s : ChatServer) (conn : ConnId) : List (List Byte) :=
  (agenda s (s.ioLoop conn)).filterMap (Stmt.sendingTo conn)

/-- What `conn` has said and waits for the mutex. -/
def entering (s : ChatServer) (conn : ConnId) : List (List Byte) :=
  (agenda s (s.ioLoop conn)).filterMap (Stmt.entering conn)

variable {cfg : PoolThreads} {s s' : ChatServer} {t l : ThreadId} {th : Threads Handler Stmt} {stmt : Stmt}
  {conn : ConnId} {w : Option Nat} {r : Option (List Byte)}

/-- A silent statement carries no message anywhere. -/
theorem Stmt.Silent.heard {x : Stmt} (h : x.Silent) : x.distributing = none ∧ (∀ l, x.owing l = none) ∧
    (∀ conn, x.sendingTo conn = none) ∧ ∀ conn, x.entering conn = none := by
  cases x <;> first | exact absurd h id | exact ⟨rfl, fun _ => rfl, fun _ => rfl, fun _ => rfl⟩

/-- A plain statement carries no message but one that its loop is to distribute. -/
theorem Stmt.Plain.heard {x : Stmt} (h : x.Plain) : (∀ l, x.owing l = none) ∧
    (∀ conn, x.sendingTo conn = none) ∧ ∀ conn, x.entering conn = none := by
  rcases h with h | ⟨message, rfl⟩
  · exact h.heard.2
  · exact ⟨fun _ => rfl, fun _ => rfl, fun _ => rfl⟩

/-! ## Steps without a message -/

/-- Nothing of the chat has changed, and no message was put anywhere. -/
structure Unheard (s s' : ChatServer) : Prop where
  same : SameChat s s'
  conns : ∀ conn, KeptConn (s.conn conn) (s'.conn conn)
  silent : ∀ {β : Type} (p : Stmt → Option β), (∀ x : Stmt, x.Silent → p x = none) →
    ∀ t, (agenda s' t).filterMap p = (agenda s t).filterMap p
  reading : ∀ t conn, .onMessage conn ∈ agenda s t → .onMessage conn ∈ agenda s' t

theorem Stmt.Quiet.silent (h : stmt.Quiet) : stmt.Silent := by
  cases stmt <;> first | exact h | exact absurd h id

/-- A quiet statement is unheard, wherever in its thread it stands. -/
theorem unheard_run (h : Control s) (hp : s.threads.pop t = some (stmt, th)) (hq : stmt.Quiet)
    (hs : run cfg { s with threads := th } t w r stmt = .ok s') : Unheard s s' := by
  have hat := h.at hp
  cases hat with
  | plain _ _ hplaced _ =>
    obtain ⟨hsame, -, hconns, front, back, hg, hfront, hback⟩ := run_quiet hq hs
    refine ⟨⟨hsame.nextConnId, hsame.next, hsame.ioLoop, hsame.mutex, hsame.loops, hsame.members, hsame.order,
      hsame.joined, hsame.distributed, hsame.since, hsame.sent, hsame.received⟩, hconns, fun p hp' t' => ?_,
      fun t' c hc => mem_agenda_step hp hg hc fun heq => by rw [← heq] at hq; exact hq⟩
    obtain ⟨hbefore, hafter⟩ := filterMap_step p hp hg t'
    rw [hbefore, hafter, hp' stmt hq.silent, filterMap_nil fun x hx => hp' x (hfront x hx).1,
      filterMap_nil fun x hx => hp' x (hback t' x hx).1]
    simp
  | _ => exact absurd hq.silent id

/-- The loop's own code is unheard: what `poll` reports is silent, and functors keep their order. -/
theorem unheard_loop {mv : EventLoop.Move Handler} (h : Control s) (hpoll : Pollable cfg s t mv)
    (hadv : s.threads.advance Handler.stmts t mv = .ok th) : Unheard s { s with threads := th } := by
  obtain ⟨front, hfront, hag, -⟩ := loop_agenda h hpoll hadv
  refine ⟨⟨rfl, rfl, rfl, rfl, rfl, fun _ => rfl, rfl, rfl, rfl, rfl, rfl, rfl⟩, fun c => KeptConn.refl _,
    fun p hp t' => ?_, fun t' c hc => ?_⟩
  · rw [agenda, hag, List.filterMap_append]
    split
    · rw [filterMap_nil fun x hx => hp x (hfront x hx).1.1, List.nil_append]
    · rfl
  · rw [agenda, hag]
    exact List.mem_append_right _ hc

/-- The accept loop ends. -/
theorem unheard_acceptEnd (hp : s.threads.pop cfg.base = some (.acceptLoop, th)) : Unheard s { s with threads := th } := by
  refine ⟨⟨rfl, rfl, rfl, rfl, rfl, fun _ => rfl, rfl, rfl, rfl, rfl, rfl, rfl⟩, fun c => KeptConn.refl _,
    fun p hp' t' => ?_, fun t' c hc => ?_⟩
  · rw [filterMap_pop p hp t', hp' .acceptLoop trivial]
    simp [agenda]
  · have hg : Grown cfg.base th (ChatServer.threads { s with threads := th }) [] (fun _ => []) := Grown.same
    exact mem_agenda_step hp hg hc (by simp)

/-- A new connection puts no message on any agenda. -/
theorem newConnection_silent {self : Addr} {sockfd : Int} (h : newConnection cfg s self sockfd = .ok s') {β : Type}
    (p : Stmt → Option β) (hp : ∀ x : Stmt, x.Silent → p x = none) (t : ThreadId) :
    (agenda s' t).filterMap p = (agenda s t).filterMap p := by
  have hg : Grown cfg.base s.threads s'.threads
      [.runConnectEstablished s.nextConnId, .setCloseCallback s.nextConnId] (fun _ => []) := by
    rw [newConnection_eq h]
    exact Grown.push _
  have hnil : [Stmt.runConnectEstablished s.nextConnId, .setCloseCallback s.nextConnId].filterMap p = [] := by
    refine filterMap_nil fun x hx => hp x ?_
    simp only [List.mem_cons, List.not_mem_nil, or_false] at hx
    rcases hx with rfl | rfl <;> trivial
  rw [agenda, hg.agendas, List.append_nil, List.filterMap_append]
  split
  · rw [hnil, List.nil_append]
    rfl
  · rfl

/-- **Every step** is unheard, a connection accepted, or one of the other statements. -/
theorem step_heard {a : Label} (h : Control s) (hs : step cfg s a = .ok s') : Unheard s s' ∨
    (∃ self sockfd, (s.threads.frames cfg.base).head? = some .acceptLoop ∧
      newConnection cfg s self sockfd = .ok s') ∨
    (∃ t w r stmt th, s.threads.pop t = some (stmt, th) ∧ ¬ stmt.Quiet ∧
      run cfg { s with threads := th } t w r stmt = .ok s') := by
  rcases step_cases hs with ⟨t, w, r, stmt, th, -, hp, hrun⟩ | ⟨t, mv, th, -, -, hpoll, hadv, rfl⟩ |
    ⟨self, sockfd, -, hhead, hnew⟩ | ⟨th, -, hp, rfl⟩
  · by_cases hq : stmt.Quiet
    · exact .inl (unheard_run h hp hq hrun)
    · exact .inr (.inr ⟨t, w, r, stmt, th, hp, hq, hrun⟩)
  · exact .inl (unheard_loop h hpoll hadv)
  · exact .inr (.inl ⟨self, sockfd, hhead, hnew⟩)
  · exact .inl (unheard_acceptEnd hp)

/-! ## From the order to the loops -/

/-- **Every loop has the order**: what it has begun, what it will begin, what it is being given. -/
structure Fanout (s : ChatServer) : Prop where
  joined : ∀ l ∈ s.loops, s.history.joined l ≤ s.history.order.length
  order : ∀ l ∈ s.loops, (s.history.order.map Prod.snd).drop (s.history.joined l) =
    s.history.distributed l ++ pending s l ++ owed s l
  outside : ∀ l, l ∉ s.loops → s.history.distributed l = [] ∧ pending s l = []

/-- Nothing that matters to the loops has changed. -/
theorem Fanout.frame (h : Fanout s) (hloops : s'.loops = s.loops) (horder : s'.history.order = s.history.order)
    (hjoined : s'.history.joined = s.history.joined) (hdistributed : s'.history.distributed = s.history.distributed)
    (hpending : ∀ l, pending s' l = pending s l) (howed : ∀ l, owed s' l = owed s l) : Fanout s' := by
  refine ⟨?_, ?_, ?_⟩
  · rw [hloops, hjoined, horder]
    exact h.joined
  · rw [hloops, hjoined, horder, hdistributed]
    intro l hl
    rw [hpending, howed]
    exact h.order l hl
  · rw [hloops, hdistributed]
    intro l hl
    rw [hpending]
    exact h.outside l hl

theorem Unheard.pending (h : Unheard s s') (l : ThreadId) : pending s' l = HighPerformance.pending s l :=
  h.silent _ (fun _ hx => hx.heard.1) l

theorem Unheard.owed (h : Unheard s s') (l : ThreadId) : owed s' l = HighPerformance.owed s l := by
  unfold HighPerformance.owed
  rw [h.same.mutex]
  split
  · exact h.silent _ (fun _ hx => hx.heard.2.1 l) _
  · rfl

theorem Unheard.sending (h : Unheard s s') (conn : ConnId) : sending s' conn = HighPerformance.sending s conn := by
  unfold HighPerformance.sending
  rw [h.same.ioLoop]
  exact h.silent _ (fun _ hx => hx.heard.2.2.1 conn) _

theorem Unheard.entering (h : Unheard s s') (conn : ConnId) : entering s' conn = HighPerformance.entering s conn := by
  unfold HighPerformance.entering
  rw [h.same.ioLoop]
  exact h.silent _ (fun _ hx => hx.heard.2.2.2 conn) _

/-- The thread `t` owes nobody anything, before and after. -/
theorem owed_frame (hmutex : s'.mutex = s.mutex)
    (hagenda : ∀ t', (agenda s' t').filterMap (Stmt.owing l) = (agenda s t').filterMap (Stmt.owing l)) :
    owed s' l = owed s l := by
  unfold owed
  rw [hmutex]
  split
  · exact hagenda _
  · rfl

/-- Of a statement that carries nothing for the loops, and puts nothing for them anywhere. -/
theorem Fanout.exec (h : Fanout s) (hp : s.threads.pop t = some (stmt, th)) {front : List Stmt}
    (hg : Grown t th s'.threads front fun _ => []) (hstmt : stmt.distributing = none ∧ ∀ l, stmt.owing l = none)
    (hfront : ∀ x ∈ front, x.distributing = none ∧ ∀ l, x.owing l = none) (hmutex : s'.mutex = s.mutex)
    (hloops : s'.loops = s.loops) (horder : s'.history.order = s.history.order)
    (hjoined : s'.history.joined = s.history.joined) (hdistributed : s'.history.distributed = s.history.distributed) :
    Fanout s' := by
  have hkept : ∀ (p : Stmt → Option (List Byte)), p stmt = none → (∀ x ∈ front, p x = none) →
      ∀ t', (agenda s' t').filterMap p = (agenda s t').filterMap p := by
    intro p hstmt' hfront' t'
    obtain ⟨hbefore, hafter⟩ := filterMap_step p hp hg t'
    rw [hbefore, hafter, hstmt', filterMap_nil hfront']
    simp
  exact h.frame hloops horder hjoined hdistributed
    (fun l => hkept _ hstmt.1 (fun x hx => (hfront x hx).1) l)
    (fun l => owed_frame hmutex (hkept _ (hstmt.2 l) fun x hx => (hfront x hx).2 l))

/-- **A loop joins**: it has the order from here on, and was given nothing before. -/
theorem fanout_insertLoop (h : Fanout s) (hp : s.threads.pop t = some (.insertLoop, th)) (hfree : s.mutex = none) :
    Fanout (insertLoop { s with threads := th } t) := by
  have hpending : ∀ l, pending (insertLoop { s with threads := th } t) l = pending s l := fun l => by
    have hbefore := filterMap_pop Stmt.distributing hp l
    rw [pending, pending, hbefore]
    simp [agenda, insertLoop, Stmt.distributing]
  have howed : ∀ l, owed (insertLoop { s with threads := th } t) l = [] := fun l => by
    simp [owed, insertLoop, hfree]
  have howed₀ : ∀ l, owed s l = [] := fun l => by simp [owed, hfree]
  have hold : ∀ l ∈ s.loops, (insertLoop { s with threads := th } t).history.joined l = s.history.joined l := by
    intro l hl
    simp only [insertLoop]
    split
    · rfl
    · rename_i ht
      refine Function.update_of_ne (fun heq => ht ?_) ..
      rw [← heq]
      exact hl
  have hnew : t ∉ s.loops → (insertLoop { s with threads := th } t).history.joined t = s.history.order.length := by
    intro ht
    simp only [insertLoop, if_neg ht, Function.update_self]
  refine ⟨fun l hl => ?_, fun l hl => ?_, fun l hl => ?_⟩
  · by_cases hmem : l ∈ s.loops
    · rw [hold l hmem]
      exact h.joined l hmem
    · obtain rfl := (OrderedSet.mem_insert.mp hl).resolve_right hmem
      exact le_of_eq (hnew hmem)
  · rw [hpending, howed]
    by_cases hmem : l ∈ s.loops
    · rw [hold l hmem, ← howed₀ l]
      exact h.order l hmem
    · -- what the order will hold from now on
      obtain rfl := (OrderedSet.mem_insert.mp hl).resolve_right hmem
      obtain ⟨hdistributed, hnone⟩ := h.outside l hmem
      rw [hnew hmem, hnone]
      show (s.history.order.map Prod.snd).drop s.history.order.length = s.history.distributed l ++ [] ++ []
      rw [hdistributed, List.drop_of_length_le (by rw [List.length_map])]
      rfl
  · rw [hpending]
    exact h.outside l fun hmem => hl (OrderedSet.mem_insert.mpr (.inr hmem))

/-- **A message gets its place**: the thread with the mutex owes it to every loop there is. -/
theorem fanout_onStringMessage {message : List Byte} (hc : Control s) (h : Fanout s)
    (hp : s.threads.pop t = some (.onStringMessage conn message, th)) (hfree : s.mutex = none) :
    Fanout (onStringMessage { s with threads := th } t conn message) := by
  have hat := hc.at hp
  cases hat with
  | plain _ hplain => rcases hplain with h' | ⟨_, h'⟩ <;> cases h'
  | message _ _ _ _ _ hrest =>
    have hg : Grown t th (onStringMessage { s with threads := th } t conn message).threads
        [.queueEach s.loops.elems message, .unlock] (fun _ => []) := Grown.push _
    have hpending : ∀ l, pending (onStringMessage { s with threads := th } t conn message) l = pending s l := fun l => by
      obtain ⟨hbefore, hafter⟩ := filterMap_step Stmt.distributing hp hg l
      rw [pending, pending, hbefore, hafter]
      simp [Stmt.distributing]
    -- every loop is owed the message
    have howed : ∀ l ∈ s.loops, owed (onStringMessage { s with threads := th } t conn message) l = [message] := by
      intro l hl
      obtain ⟨-, hafter⟩ := filterMap_step (Stmt.owing l) hp hg t
      show (agenda (onStringMessage { s with threads := th } t conn message) t).filterMap (Stmt.owing l) = [message]
      rw [hafter, filterMap_nil fun x hx => (hrest x hx).1.heard.1 l]
      simp [Stmt.owing, OrderedSet.mem_def.mp hl]
    have horder : (onStringMessage { s with threads := th } t conn message).history.order =
        s.history.order ++ [(conn, message)] := rfl
    refine ⟨fun l hl => ?_, fun l hl => ?_, fun l hl => ?_⟩
    · rw [horder, List.length_append]
      exact (h.joined l hl).trans (Nat.le_add_right _ _)
    · have hold := h.order l hl
      rw [show owed s l = [] by simp [owed, hfree], List.append_nil] at hold
      rw [horder, List.map_append, hpending, howed l hl]
      show List.drop (s.history.joined l) _ = s.history.distributed l ++ _ ++ _
      rw [List.drop_append_of_le_length (by rw [List.length_map]; exact h.joined l hl), hold]
      rfl
    · rw [hpending]
      exact h.outside l hl

/-- **One loop is given the message**: it goes from what is owed to what is pending. -/
theorem fanout_queueEach {loops : List ThreadId} {message : List Byte} (hc : Control s) (h : Fanout s)
    (hp : s.threads.pop t = some (.queueEach loops message, th))
    (hs : run cfg { s with threads := th } t w r (.queueEach loops message) = .ok s') : Fanout s' := by
  have hat := hc.at hp
  cases hat with
  | plain _ hplain => rcases hplain with h' | ⟨_, h'⟩ <;> cases h'
  | queueEach _ _ rest hm hnodup hmem hbehind hrest =>
    have hnone : ∀ l, (th.agenda Handler.stmts t).filterMap (Stmt.owing l) = [] := fun l => by
      rw [hbehind, List.filterMap_cons_none rfl, filterMap_nil fun x hx => (hrest x hx).1.heard.1 l]
    have howed : ∀ l, owed s l = if l ∈ loops then [message] else [] := fun l => by
      unfold owed
      rw [hm]
      simp only
      rw [filterMap_pop (Stmt.owing l) hp t, hnone l]
      by_cases hl : l ∈ loops <;> simp [Stmt.owing, hl]
    cases loops with
    | nil =>
      simp only [run, pure_eq_ok, Except.ok.injEq] at hs
      subst hs
      refine h.frame rfl rfl rfl rfl (fun l => ?_) fun l => ?_
      · have hbefore := filterMap_pop Stmt.distributing hp l
        rw [pending, pending, hbefore]
        simp [agenda, Stmt.distributing]
      · rw [howed l]
        unfold owed
        simp only [hm, agenda, hnone l, List.not_mem_nil, if_false]
    | cons l₀ loops =>
      simp only [run, pure_eq_ok, Except.ok.injEq] at hs
      have hg : Grown t th s'.threads [.queueEach loops message]
          (fun t' => if t' = l₀ then [.distributeMessage message] else []) := by
        rw [← hs]
        exact Grown.queueEach l₀ loops message
      obtain ⟨hl₀, -⟩ := List.nodup_cons.mp hnodup
      -- the message goes from what is owed to what is pending
      have hpending : ∀ l, pending s' l = pending s l ++ if l = l₀ then [message] else [] := fun l => by
        obtain ⟨hbefore, hafter⟩ := filterMap_step Stmt.distributing hp hg l
        rw [pending, pending, hbefore, hafter, filterMap_nil (l := [_]) (by simp [Stmt.distributing])]
        by_cases hl : l = l₀
        · simp [hl, Stmt.distributing]
        · simp [hl, Stmt.distributing]
      have howed' : ∀ l, owed s' l = if l ∈ loops then [message] else [] := fun l => by
        obtain ⟨-, hafter⟩ := filterMap_step (Stmt.owing l) hp hg t
        unfold owed
        rw [show s'.mutex = some t by rw [← hs]; exact hm]
        simp only
        rw [hafter, hnone l, if_pos rfl, List.append_nil, filterMap_nil (l := ite _ _ _) fun x hx => ?_]
        · by_cases hl : l ∈ loops <;> simp [Stmt.owing, hl]
        · split at hx
          · obtain rfl := List.mem_singleton.mp hx
            rfl
          · exact absurd hx List.not_mem_nil
      have hloops : s'.loops = s.loops := by rw [← hs]; rfl
      have hhistory : s'.history = s.history := by rw [← hs]; rfl
      refine ⟨?_, fun l hl => ?_, fun l hl => ?_⟩
      · rw [hloops, hhistory]
        exact h.joined
      · rw [hloops] at hl
        rw [hhistory, hpending, howed', h.order l hl, howed l]
        by_cases heq : l = l₀
        · subst heq
          simp [hl₀]
        · simp [heq]
      · rw [hloops] at hl
        rw [hhistory, hpending, if_neg, List.append_nil]
        · exact h.outside l hl
        · rintro rfl
          exact hl (hmem l List.mem_cons_self)

/-- The mutex is released when nothing is owed any more. -/
theorem fanout_unlock (hc : Control s) (h : Fanout s) (hp : s.threads.pop t = some (.unlock, th)) :
    Fanout { s with threads := th, mutex := none } := by
  have hat := hc.at hp
  cases hat with
  | plain _ hplain => rcases hplain with h' | ⟨_, h'⟩ <;> cases h'
  | unlock hm hrest =>
    refine h.frame rfl rfl rfl rfl (fun l => ?_) fun l => ?_
    · have hbefore := filterMap_pop Stmt.distributing hp l
      rw [pending, pending, hbefore]
      simp [agenda, Stmt.distributing]
    · unfold owed
      rw [hm]
      simp only
      rw [filterMap_pop (Stmt.owing l) hp t, if_pos rfl,
        filterMap_nil fun x hx => (hrest x hx).1.heard.1 l]
      rfl

/-- **A loop begins with a message**: it was the first that was pending. -/
theorem fanout_distributeMessage {message : List Byte} (h : Fanout s)
    (hp : s.threads.pop t = some (.distributeMessage message, th))
    (hs : distributeMessage { s with threads := th } t message = .ok s') : Fanout s' := by
  obtain ⟨locals, -, heq⟩ := distributeMessage_eq hs
  have hg : Grown t th s'.threads ((members s t).elems.map (.send · message)) (fun _ => []) := by
    rw [heq]
    exact Grown.push _
  have hfront : ∀ x ∈ (members s t).elems.map (Stmt.send · message), x.distributing = none ∧
      ∀ l, x.owing l = none := by
    intro x hx
    obtain ⟨c, -, rfl⟩ := List.mem_map.mp hx
    exact ⟨rfl, fun _ => rfl⟩
  -- the message goes from what is pending to what has been begun
  have hpending : ∀ l, pending s l = (if l = t then [message] else []) ++ pending s' l := fun l => by
    obtain ⟨hbefore, hafter⟩ := filterMap_step Stmt.distributing hp hg l
    rw [pending, pending, hbefore, hafter, filterMap_nil fun x hx => (hfront x hx).1]
    simp [Stmt.distributing]
  have howed : ∀ l, owed s' l = owed s l := fun l => by
    refine owed_frame (by rw [heq]; rfl) fun t' => ?_
    obtain ⟨hbefore, hafter⟩ := filterMap_step (Stmt.owing l) hp hg t'
    rw [hbefore, hafter, filterMap_nil fun x hx => (hfront x hx).2 l]
    simp [Stmt.owing]
  have hloops : s'.loops = s.loops := by rw [heq]; rfl
  have horder : s'.history.order = s.history.order := by rw [heq]; rfl
  have hjoined : s'.history.joined = s.history.joined := by rw [heq]; rfl
  have hdistributed : ∀ l, s'.history.distributed l =
      s.history.distributed l ++ if l = t then [message] else [] := fun l => by
    rw [heq]
    by_cases ht : l = t
    · subst ht
      simp [push]
    · simp [push, ht]
  refine ⟨?_, fun l hl => ?_, fun l hl => ?_⟩
  · rw [hloops, horder, hjoined]
    exact h.joined
  · rw [hloops] at hl
    rw [horder, hjoined, h.order l hl, hpending l, howed, hdistributed]
    simp
  · rw [hloops] at hl
    obtain ⟨hnil, hnone⟩ := h.outside l hl
    rw [hpending l] at hnone
    obtain ⟨hno, hnone'⟩ := List.append_eq_nil_iff.mp hnone
    rw [hdistributed, hno, hnil]
    exact ⟨rfl, hnone'⟩

/-- The statements that are heard. -/
theorem fanout_run (hc : Control s) (h : Fanout s) (hp : s.threads.pop t = some (stmt, th)) (hq : ¬ stmt.Quiet)
    (hs : run cfg { s with threads := th } t w r stmt = .ok s') : Fanout s' := by
  have hat := hc.at hp
  cases stmt with
  | acceptLoop => cases hs
  | insertLoop =>
    simp only [run, bind_eq_ok, enabled_eq_ok, pure_eq_ok, Except.ok.injEq] at hs
    obtain ⟨-, hfree, rfl⟩ := hs
    exact fanout_insertLoop h hp hfree
  | onConnection conn =>
    obtain ⟨hframe, -, hcase⟩ := onConnection_eq hs
    have hhistory : s'.history.order = s.history.order ∧ s'.history.joined = s.history.joined ∧
        s'.history.distributed = s.history.distributed := by
      rcases hcase with ⟨-, -, hhistory⟩ | ⟨-, -, hhistory⟩
      · rw [hhistory]
        split <;> exact ⟨rfl, rfl, rfl⟩
      · rw [hhistory]
        exact ⟨rfl, rfl, rfl⟩
    exact h.exec hp (by rw [hframe]; exact Grown.same) ⟨rfl, fun _ => rfl⟩ (by simp)
      (by rw [hframe]) (by rw [hframe]) hhistory.1 hhistory.2.1 hhistory.2.2
  | handleRead conn =>
    obtain ⟨c, -, ⟨b, bytes, -, rfl⟩ | ⟨-, rfl⟩ | ⟨-, rfl⟩⟩ := handleRead_eq hs
    · exact h.exec hp (Grown.push _) ⟨rfl, fun _ => rfl⟩ (by simp [Stmt.distributing, Stmt.owing]) rfl rfl rfl rfl rfl
    · exact h.exec hp (Grown.push _) ⟨rfl, fun _ => rfl⟩ (by simp [Stmt.distributing, Stmt.owing]) rfl rfl rfl rfl rfl
    · exact h.exec hp (Grown.push _) ⟨rfl, fun _ => rfl⟩ (by simp [Stmt.distributing, Stmt.owing]) rfl rfl rfl rfl rfl
  | onMessage conn =>
    rcases onMessage_eq hs with ⟨buf, message, -, rfl⟩ | ⟨events, hturn, rfl⟩
    · exact h.exec hp (Grown.push _) ⟨rfl, fun _ => rfl⟩ (by simp [Stmt.distributing, Stmt.owing]) rfl rfl rfl rfl rfl
    · refine h.exec hp (Grown.push _) ⟨rfl, fun _ => rfl⟩ (fun x hx => ?_) rfl rfl rfl rfl rfl
      obtain rfl := turn_leave hturn hx
      exact ⟨rfl, fun _ => rfl⟩
  | onStringMessage conn message =>
    simp only [run, bind_eq_ok, enabled_eq_ok, pure_eq_ok, Except.ok.injEq] at hs
    obtain ⟨-, hfree, rfl⟩ := hs
    exact fanout_onStringMessage hc h hp hfree
  | queueEach loops message => exact fanout_queueEach hc h hp hs
  | unlock =>
    simp only [run, pure_eq_ok, Except.ok.injEq] at hs
    subst hs
    exact fanout_unlock hc h hp
  | distributeMessage message => exact fanout_distributeMessage h hp hs
  | send conn message =>
    cases hat with
    | plain _ hplain => rcases hplain with h' | ⟨_, h'⟩ <;> cases h'
    | send _ conns _ rest _ _ hmem =>
      have hio := (hc.member t conn (hmem conn List.mem_cons_self)).2
      rcases send_eq (s := { s with threads := th }) hio.symm hs with ⟨-, rfl⟩ | ⟨-, c, wc, -, rfl⟩
      · exact h.exec hp Grown.same ⟨rfl, fun _ => rfl⟩ (by simp) rfl rfl rfl rfl rfl
      · exact h.exec hp Grown.same ⟨rfl, fun _ => rfl⟩ (by simp) rfl rfl rfl rfl rfl
  | sendInLoop conn bytes =>
    cases hat with
    | plain _ hplain => rcases hplain with h' | ⟨_, h'⟩ <;> cases h'
  | _ => exact absurd trivial hq

/-- **One step**: unheard, a new connection, or a statement that is heard. -/
theorem fanout_step {a : Label} (hc : Control s) (h : Fanout s) (hs : step cfg s a = .ok s') : Fanout s' := by
  rcases step_heard hc hs with hun | ⟨self, sockfd, -, hnew⟩ | ⟨t, w, r, stmt, th, hp, hq, hrun⟩
  · exact h.frame hun.same.loops hun.same.order hun.same.joined hun.same.distributed hun.pending hun.owed
  · have heq := newConnection_eq hnew
    exact h.frame (by rw [heq]; rfl) (by rw [heq]; rfl) (by rw [heq]; rfl) (by rw [heq]; rfl)
      (fun l => newConnection_silent hnew _ (fun _ hx => hx.heard.1) l)
      (fun l => owed_frame (by rw [heq]; rfl) (newConnection_silent hnew _ fun _ hx => hx.heard.2.1 l))
  · exact fanout_run hc h hp hq hrun

theorem fanout_start : Fanout (start cfg) :=
  ⟨fun l hl => by simp [start] at hl, fun l hl => by simp [start] at hl,
    fun _ _ => ⟨rfl, filterMap_nil fun _ hx => (start_silent hx).1.heard.1⟩⟩

/-- **Every loop has the order**, in every run. -/
theorem fanout_of_reachable (h : (chatServer cfg).Reachable s) : Fanout s :=
  h.invariant (I := Fanout) (fun s h0 => by obtain rfl := h0; exact fanout_start)
    (fun _ _ _ hr hI _ hs => fanout_step (control_of_reachable hr) hI hs)

end HighPerformance

end Irono
