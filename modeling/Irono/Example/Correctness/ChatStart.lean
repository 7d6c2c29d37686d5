import Irono.Example.Correctness.ChatControl

/-!
# `Example.Correctness.ChatStart` — the chat server before its first connection

What a thread has still to do of `start()` is at the front of its agenda (`todo`). As long as the main thread
has not got through, nothing but `start()` happens anywhere (`Before`); when it has, every I/O loop is in
`loops_`. So no message is missed by a loop, and each thread makes its `LocalConnections` once.
-/

namespace Irono

open Transition Threads

/-- The threads whose loops have connections. -/
def PoolThreads.ioThreads (cfg : PoolThreads) : List ThreadId := if cfg.pool.isEmpty then [cfg.base] else cfg.pool

/-- `getNextLoop` gives a loop of the pool, and its index stays in range. -/
theorem PoolThreads.getNextLoop_mem {cfg : PoolThreads} {next : Nat} (h : cfg.pool ≠ [] → next < cfg.pool.length) :
    (cfg.getNextLoop next).1 ∈ cfg.ioThreads ∧ (cfg.pool ≠ [] → (cfg.getNextLoop next).2 < cfg.pool.length) := by
  unfold getNextLoop ioThreads
  split
  · rename_i hempty
    exact ⟨List.mem_singleton.mpr rfl, fun hne => absurd (List.isEmpty_iff.mp hempty) hne⟩
  · rename_i hempty
    have hlt := h fun hnil => hempty (List.isEmpty_iff.mpr hnil)
    refine ⟨?_, fun _ => ?_⟩
    · simp only [List.getD_eq_getElem?_getD, List.getElem?_eq_getElem hlt, Option.getD_some]
      exact List.getElem_mem hlt
    · simp only
      split <;> omega

namespace HighPerformance

def Stmt.starting (stmt : Stmt) : Option Stmt := if stmt.isStart then some stmt else none

/-- What `t` has still to do of `start()`. -/
def todo (s : ChatServer) (t : ThreadId) : List Stmt := (agenda s t).filterMap Stmt.starting

/-- What an I/O thread has still to do, and what it has done. -/
structure Stage (s : ChatServer) (t : ThreadId) : Prop where
  lists : todo s t ∈ [[.threadFunc, .threadInit, .setLoop], [.threadInit, .setLoop], [.threadInit],
    [.insertLoop, .setLoop], [.insertLoop], [.setLoop], []]
  fresh : .threadInit ∈ todo s t → (s.locals t).value = none
  loops : t ∈ s.loops ↔ .threadInit ∉ todo s t ∧ .insertLoop ∉ todo s t

/-- Nothing has happened yet. -/
structure Before (s : ChatServer) : Prop where
  agenda : ∀ t, ∀ x ∈ agenda s t, x.isStart = true
  order : s.history.order = []
  watched : ∀ c, (s.conn c).watched = none
  members : ∀ t c, c ∉ members s t

/-- **The invariant.** -/
structure Starting (cfg : PoolThreads) (s : ChatServer) : Prop where
  first : ∀ t, ∃ rest, agenda s t = todo s t ++ rest
  functors : ∀ t, ∀ x ∈ s.threads.functors t, x.isStart = false
  stage : ∀ t ∈ cfg.ioThreads, Stage s t
  base : cfg.pool ≠ [] → todo s cfg.base <:+ startStmts cfg
  others : ∀ t, t ∉ cfg.ioThreads → t ≠ cfg.base → todo s t = []
  waiting : ∀ t ∈ cfg.pool, t ∉ s.loops → .waitLoop t ∈ todo s cfg.base
  loopSet : ∀ t, s.loopSet t = true → t ∈ s.loops
  before : todo s cfg.base ≠ [] → Before s
  loops : ∀ t ∈ s.loops, t ∈ cfg.ioThreads
  joined : ∀ t, s.history.joined t = 0
  locals : ∀ t, (s.locals t).specific = (s.locals t).value.isSome
  next : cfg.pool ≠ [] → s.next < cfg.pool.length
  ioLoop : ∀ c, s.ioLoop c ∈ cfg.ioThreads

variable {cfg : PoolThreads} {s s' : ChatServer} {t : ThreadId} {th : Threads Handler Stmt} {stmt : Stmt}
  {conn : ConnId} {w : Option Nat} {r : Option (List Byte)}

theorem Stmt.starting_eq_none (h : stmt.isStart = false) : stmt.starting = none := by simp [Stmt.starting, h]

/-- What is to do of `start()` is on the agenda. -/
theorem mem_todo {x : Stmt} : x ∈ todo s t ↔ x ∈ agenda s t ∧ x.isStart = true := by
  unfold todo
  rw [List.mem_filterMap]
  constructor
  · rintro ⟨y, hy, hxy⟩
    unfold Stmt.starting at hxy
    split at hxy
    · obtain rfl := Option.some.inj hxy
      exact ⟨hy, ‹_›⟩
    · cases hxy
  · rintro ⟨hx, hstart⟩
    exact ⟨x, hx, by simp [Stmt.starting, hstart]⟩

/-- A thread that is not at `start()` has done with it. -/
theorem Starting.todo_of_head (h : Starting cfg s) (hp : s.threads.pop t = some (stmt, th))
    (hstmt : stmt.isStart = false) : todo s t = [] := by
  obtain ⟨rest, heq⟩ := h.first t
  cases htodo : todo s t with
  | nil => rfl
  | cons x l =>
    have hx : x ∈ todo s t := by rw [htodo]; exact List.mem_cons_self
    rw [(agenda_of_pop hp).1, htodo, List.cons_append, List.cons.injEq] at heq
    have hstart := (mem_todo.mp hx).2
    rw [← heq.1, hstmt] at hstart
    cases hstart

/-- What is left of a list of statements to start with. -/
theorem Starting.todo_pop (h : Starting cfg s) (hp : s.threads.pop t = some (stmt, th)) (hstmt : stmt.isStart = true) :
    todo s t = stmt :: (th.agenda Handler.stmts t).filterMap Stmt.starting ∧
      ∃ rest, th.agenda Handler.stmts t = (th.agenda Handler.stmts t).filterMap Stmt.starting ++ rest := by
  have htodo : todo s t = stmt :: (th.agenda Handler.stmts t).filterMap Stmt.starting := by
    rw [todo, (agenda_of_pop hp).1, List.filterMap_cons_some (b := stmt) (by simp [Stmt.starting, hstmt])]
  obtain ⟨rest, heq⟩ := h.first t
  rw [(agenda_of_pop hp).1, htodo, List.cons_append, List.cons.injEq] at heq
  exact ⟨htodo, rest, heq.2⟩

/-! ## Steps after `start()` in their thread -/

/-- Nothing of `start()` has been touched. -/
structure Untouched (t : ThreadId) (s s' : ChatServer) : Prop where
  loops : s'.loops = s.loops
  loopSet : s'.loopSet = s.loopSet
  joined : s'.history.joined = s.history.joined
  locals : ∀ t', t' ≠ t → s'.locals t' = s.locals t'
  localSpecific : (s.locals t).specific = (s.locals t).value.isSome → (s'.locals t).specific = (s'.locals t).value.isSome
  next : s'.next = s.next
  ioLoop : s'.ioLoop = s.ioLoop

/-- A thread that has done with `start()` makes a step that puts nothing of it anywhere. -/
theorem Starting.untouched (h : Starting cfg s) (hu : Untouched t s s') (hdone : todo s t = [])
    (hbusy : ∃ x ∈ agenda s t, x.isStart = false) {front : List Stmt} {back : ThreadId → List Stmt} {old : List Stmt}
    (hag : ∀ t', agenda s' t' = (if t' = t then front ++ old else agenda s t') ++ back t')
    (hold : ∀ x ∈ old, x ∈ agenda s t) (hfun : ∀ t', ∀ x ∈ s'.threads.functors t', x.isStart = false)
    (hfront : ∀ x ∈ front, x.isStart = false) (hback : ∀ t', ∀ x ∈ back t', x.isStart = false) :
    Starting cfg s' := by
  have htodo : ∀ t', todo s' t' = todo s t' := by
    intro t'
    rw [todo, hag, List.filterMap_append, filterMap_nil fun x hx => Stmt.starting_eq_none (hback t' x hx), List.append_nil]
    split
    · rename_i ht
      rw [ht, hdone]
      refine filterMap_nil fun x hx => Stmt.starting_eq_none ?_
      rcases List.mem_append.mp hx with hx | hx
      · exact hfront x hx
      · by_contra hstart
        have hmem := mem_todo.mpr ⟨hold x hx, by simpa using hstart⟩
        rw [hdone] at hmem
        cases hmem
    · rfl
  -- the main thread has got through
  have hthrough : todo s cfg.base = [] := by
    by_contra hne
    obtain ⟨x, hx, hno⟩ := hbusy
    have hstart := (h.before hne).agenda t x hx
    rw [hno] at hstart
    cases hstart
  refine ⟨fun t' => ?_, hfun, fun t' ht' => ?_, ?_, ?_, ?_, ?_, fun hne => ?_, ?_, ?_, fun t' => ?_, ?_, ?_⟩
  · rw [htodo, hag]
    split
    · rename_i ht
      rw [ht, hdone]
      exact ⟨_, rfl⟩
    · obtain ⟨rest, heq⟩ := h.first t'
      exact ⟨rest ++ back t', by rw [← List.append_assoc, ← heq]⟩
  · obtain ⟨hlists, hfresh, hloops⟩ := h.stage t' ht'
    refine ⟨by rw [htodo]; exact hlists, fun hmem => ?_, by rw [htodo, hu.loops]; exact hloops⟩
    rw [htodo] at hmem
    have hne : t' ≠ t := fun heq => by rw [heq, hdone] at hmem; cases hmem
    rw [hu.locals t' hne]
    exact hfresh hmem
  · rw [htodo]
    exact h.base
  · intro t' ht' hne
    rw [htodo]
    exact h.others t' ht' hne
  · rw [hu.loops, htodo]
    exact h.waiting
  · rw [hu.loops, hu.loopSet]
    exact h.loopSet
  · rw [htodo] at hne
    exact absurd hthrough hne
  · rw [hu.loops]
    exact h.loops
  · rw [hu.joined]
    exact h.joined
  · by_cases ht : t' = t
    · rw [ht]
      exact hu.localSpecific (h.locals t)
    · rw [hu.locals t' ht]
      exact h.locals t'
  · rw [hu.next]
    exact h.next
  · rw [hu.ioLoop]
    exact h.ioLoop

/-- `instance` sets the thread's own pointer when it makes the value. -/
theorem ThreadLocal.instance_specific {T : Type} {l l' : ThreadLocal T} {e value : T}
    (h : l.instance e = .ok (value, l')) (hl : l.specific = l.value.isSome) : l'.specific = l'.value.isSome := by
  unfold ThreadLocal.instance at h
  split at h
  · simp only [pure_eq_ok, Except.ok.injEq, Prod.mk.injEq] at h
    rw [← h.2]
    exact hl
  · simp only [bind_eq_ok, pure_eq_ok, Except.ok.injEq, Prod.mk.injEq] at h
    obtain ⟨-, -, -, rfl⟩ := h
    rfl

/-- **A statement that is not of `start()`** puts nothing of it anywhere. -/
theorem run_untouched (hctl : Control s) (hp : s.threads.pop t = some (stmt, th)) (hstmt : stmt.isStart = false)
    (hs : run cfg { s with threads := th } t w r stmt = .ok s') : Untouched t s s' ∧
      ∃ front back, Grown t th s'.threads front back ∧ (∀ x ∈ front, x.isStart = false) ∧
        ∀ t', ∀ x ∈ back t', x.isStart = false := by
  have hat := hctl.at hp
  by_cases hq : stmt.Quiet
  · obtain ⟨hsame, hstarted, -, front, back, hg, hfront, hback⟩ := run_quiet hq hs
    obtain ⟨hloopSet, hlocals⟩ := hstarted hstmt
    refine ⟨⟨hsame.loops, hloopSet, hsame.joined, fun t' _ => by rw [hlocals], fun h => by rw [hlocals]; exact h,
      hsame.next, hsame.ioLoop⟩, front, back, hg, fun x hx => ?_, fun t' x hx => (hback t' x hx).2.1⟩
    by_contra hstart
    exact absurd (hstmt.symm.trans ((hfront x hx).2.1 (by simpa using hstart))) (by simp)
  cases stmt with
  | acceptLoop => cases hs
  | insertLoop => cases hstmt
  | onConnection conn =>
    simp only [run, onConnection, bind_eq_ok, Prod.exists, pure_eq_ok, Except.ok.injEq] at hs
    obtain ⟨value, l, hl, rfl⟩ := hs
    refine ⟨⟨rfl, rfl, ?_, fun t' ht => Function.update_of_ne ht .., fun hloc => ?_, rfl, rfl⟩, [], fun _ => [],
      Grown.same, by simp, by simp⟩
    · simp only
      split <;> rfl
    · have hspecific := ThreadLocal.instance_specific hl hloc
      simp only [Function.update_self]
      rw [hspecific, (ThreadLocal.instance_eq hl).2]
      rfl
  | handleRead conn =>
    obtain ⟨c, -, ⟨b, bytes, -, rfl⟩ | ⟨-, rfl⟩ | ⟨-, rfl⟩⟩ := handleRead_eq hs
    · exact ⟨⟨rfl, rfl, rfl, fun _ _ => rfl, id, rfl, rfl⟩, _, _, Grown.push _, by simp [Stmt.isStart], by simp⟩
    · exact ⟨⟨rfl, rfl, rfl, fun _ _ => rfl, id, rfl, rfl⟩, _, _, Grown.push _, by simp [Stmt.isStart], by simp⟩
    · exact ⟨⟨rfl, rfl, rfl, fun _ _ => rfl, id, rfl, rfl⟩, _, _, Grown.push _, by simp [Stmt.isStart], by simp⟩
  | onMessage conn =>
    rcases onMessage_eq hs with ⟨buf, message, -, rfl⟩ | ⟨events, hturn, rfl⟩
    · exact ⟨⟨rfl, rfl, rfl, fun _ _ => rfl, id, rfl, rfl⟩, _, _, Grown.push _, by simp [Stmt.isStart], by simp⟩
    · refine ⟨⟨rfl, rfl, rfl, fun _ _ => rfl, id, rfl, rfl⟩, _, _, Grown.push _, fun x hx => ?_, by simp⟩
      rw [turn_leave hturn hx]
      rfl
  | onStringMessage conn message =>
    simp only [run, bind_eq_ok, pure_eq_ok, Except.ok.injEq] at hs
    obtain ⟨-, -, rfl⟩ := hs
    exact ⟨⟨rfl, rfl, rfl, fun _ _ => rfl, id, rfl, rfl⟩, _, _, Grown.push _, by simp [Stmt.isStart], by simp⟩
  | queueEach loops message =>
    cases loops with
    | nil =>
      simp only [run, pure_eq_ok, Except.ok.injEq] at hs
      subst hs
      exact ⟨⟨rfl, rfl, rfl, fun _ _ => rfl, id, rfl, rfl⟩, [], fun _ => [], Grown.same, by simp, by simp⟩
    | cons l loops =>
      simp only [run, pure_eq_ok, Except.ok.injEq] at hs
      subst hs
      refine ⟨⟨rfl, rfl, rfl, fun _ _ => rfl, id, rfl, rfl⟩, _, _, Grown.queueEach l loops message,
        by simp [Stmt.isStart], fun t' x hx => ?_⟩
      split at hx
      · rw [List.mem_singleton.mp hx]
        rfl
      · exact absurd hx List.not_mem_nil
  | unlock =>
    simp only [run, pure_eq_ok, Except.ok.injEq] at hs
    subst hs
    exact ⟨⟨rfl, rfl, rfl, fun _ _ => rfl, id, rfl, rfl⟩, [], fun _ => [], Grown.same, by simp, by simp⟩
  | distributeMessage message =>
    simp only [run, distributeMessage, bind_eq_ok, Prod.exists, pure_eq_ok, Except.ok.injEq] at hs
    obtain ⟨value, l, hl, rfl⟩ := hs
    refine ⟨⟨rfl, rfl, rfl, fun t' ht => Function.update_of_ne ht .., fun hloc => ?_, rfl, rfl⟩, _, _, Grown.push _,
      fun x hx => ?_, by simp⟩
    · simp only [push, Function.update_self]
      exact ThreadLocal.instance_specific hl hloc
    · obtain ⟨c, -, rfl⟩ := List.mem_map.mp hx
      rfl
  | send conn message =>
    cases hat with
    | plain _ hplain => rcases hplain with h' | ⟨_, h'⟩ <;> cases h'
    | send _ conns _ rest _ _ hmem =>
      have hio := (hctl.member t conn (hmem conn List.mem_cons_self)).2
      rcases send_eq (s := { s with threads := th }) hio.symm hs with ⟨-, rfl⟩ | ⟨-, c, wc, -, rfl⟩
      · exact ⟨⟨rfl, rfl, rfl, fun _ _ => rfl, id, rfl, rfl⟩, [], fun _ => [], Grown.same, by simp, by simp⟩
      · exact ⟨⟨rfl, rfl, rfl, fun _ _ => rfl, id, rfl, rfl⟩, [], fun _ => [], Grown.same, by simp, by simp⟩
  | sendInLoop conn bytes =>
    cases hat with
    | plain _ hplain => rcases hplain with h' | ⟨_, h'⟩ <;> cases h'
  | _ => exact absurd trivial hq

/-! ## The statements of `start()` -/

/-- A statement of `start()` belongs to an I/O thread, or the main thread starts one. -/
theorem Starting.owner (h : Starting cfg s) (hp : s.threads.pop t = some (stmt, th)) (hstmt : stmt.isStart = true) :
    t ∈ cfg.ioThreads ∨
      (t = cfg.base ∧ cfg.pool ≠ [] ∧ ∃ io, stmt = .startThread io ∨ stmt = .waitLoop io) := by
  obtain ⟨htodo, -⟩ := h.todo_pop hp hstmt
  by_cases ht : t ∈ cfg.ioThreads
  · exact .inl ht
  by_cases hbase : t = cfg.base
  · refine .inr ⟨hbase, ?_⟩
    have hne : cfg.pool ≠ [] := by
      intro hnil
      rw [hbase, PoolThreads.ioThreads, hnil] at ht
      exact ht (List.mem_singleton.mpr rfl)
    have hmem : stmt ∈ startStmts cfg := by
      refine (h.base hne).subset ?_
      rw [← hbase, htodo]
      exact List.mem_cons_self
    unfold startStmts at hmem
    rw [if_neg (by simpa using hne)] at hmem
    obtain ⟨io, -, hx⟩ := List.mem_flatMap.mp hmem
    simp only [List.mem_cons, List.not_mem_nil, or_false] at hx
    exact ⟨hne, io, hx⟩
  · rw [h.others t ht hbase] at htodo
    cases htodo

/-- What a statement of `start()` changes. -/
structure Begun (t : ThreadId) (s s' : ChatServer) (stmt : Stmt) : Prop where
  loops : ∀ l, l ∈ s'.loops ↔ l ∈ s.loops ∨ (l = t ∧ stmt = .insertLoop)
  loopSet : ∀ l, s'.loopSet l = true → s.loopSet l = true ∨ (l = t ∧ stmt = .setLoop)
  waited : ∀ io, stmt = .waitLoop io → s.loopSet io = true
  joined : ∀ l, s'.history.joined l = s.history.joined l ∨
    (stmt = .insertLoop ∧ s'.history.joined l = s.history.order.length)
  locals : ∀ t', t' ≠ t ∨ stmt ≠ .threadInit → s'.locals t' = s.locals t'
  localSpecific : (s.locals t).specific = (s.locals t).value.isSome → (s'.locals t).specific = (s'.locals t).value.isSome
  members : ∀ t', members s' t' = members s t'
  order : s'.history.order = s.history.order
  conn : s'.conn = s.conn
  next : s'.next = s.next
  ioLoop : s'.ioLoop = s.ioLoop
  grown : Grown t s.threads s'.threads (if stmt = .threadInit then [.insertLoop] else []) (fun _ => [])

/-- **What a statement of `start()` does.** -/
theorem run_begun (hstmt : stmt.isStart = true) (hs : run cfg s t w r stmt = .ok s') : Begun t s s' stmt := by
  cases stmt with
  | startThread io =>
    simp only [run, pure_eq_ok, Except.ok.injEq] at hs
    subst hs
    exact ⟨by simp, fun _ hl => .inl hl, by simp, fun _ => .inl rfl, fun _ _ => rfl, id, fun _ => rfl, rfl, rfl, rfl,
      rfl, Grown.same⟩
  | waitLoop io =>
    simp only [run, bind_eq_ok, enabled_eq_ok, pure_eq_ok, Except.ok.injEq] at hs
    obtain ⟨-, hset, rfl⟩ := hs
    exact ⟨by simp, fun _ hl => .inl hl, fun io' heq => Stmt.waitLoop.inj heq ▸ hset, fun _ => .inl rfl,
      fun _ _ => rfl, id, fun _ => rfl, rfl, rfl, rfl, rfl, Grown.same⟩
  | threadFunc =>
    simp only [run, bind_eq_ok, pure_eq_ok, Except.ok.injEq] at hs
    obtain ⟨-, -, rfl⟩ := hs
    exact ⟨by simp, fun _ hl => .inl hl, by simp, fun _ => .inl rfl, fun _ _ => rfl, id, fun _ => rfl, rfl, rfl, rfl,
      rfl, Grown.same⟩
  | threadInit =>
    simp only [run, threadInit, bind_eq_ok, Prod.exists, pure_eq_ok, Except.ok.injEq] at hs
    obtain ⟨-, -, value, l, hl, -, -, rfl⟩ := hs
    refine ⟨by simp [push], fun _ hl => .inl hl, by simp, fun _ => .inl rfl, fun t' ht => ?_, fun hloc => ?_,
      (members_instance hl).2, rfl, rfl, rfl, rfl, Grown.push _⟩
    · exact Function.update_of_ne (ht.resolve_right (by simp)) ..
    · simp only [push, Function.update_self]
      exact ThreadLocal.instance_specific hl hloc
  | insertLoop =>
    simp only [run, bind_eq_ok, pure_eq_ok, Except.ok.injEq] at hs
    obtain ⟨-, -, rfl⟩ := hs
    refine ⟨fun l => by simp [insertLoop, or_comm], fun _ hl => .inl hl, by simp, fun l => ?_, fun _ _ => rfl, id,
      fun _ => rfl, rfl, rfl, rfl, rfl, Grown.same⟩
    simp only [insertLoop]
    split
    · exact .inl rfl
    · by_cases hl : l = t
      · subst hl
        exact .inr ⟨trivial, Function.update_self ..⟩
      · exact .inl (Function.update_of_ne hl ..)
  | setLoop =>
    simp only [run, pure_eq_ok, Except.ok.injEq] at hs
    subst hs
    refine ⟨by simp, fun l hl => ?_, by simp, fun _ => .inl rfl, fun _ _ => rfl, id, fun _ => rfl, rfl, rfl, rfl, rfl,
      Grown.same⟩
    by_cases hlt : l = t
    · exact .inr ⟨hlt, rfl⟩
    · exact .inl (by simpa [hlt] using hl)
  | _ => cases hstmt

/-- The lists an I/O thread goes through, one statement after another. -/
theorem Stage.begun (h : Stage s t) {left : List Stmt} (htodo : todo s t = stmt :: left)
    (hnew : todo s' t = (if stmt = .threadInit then [.insertLoop] else []) ++ left)
    (hlocals : stmt ≠ .threadInit → s'.locals t = s.locals t)
    (hiff : t ∈ s'.loops ↔ t ∈ s.loops ∨ stmt = .insertLoop) : Stage s' t := by
  obtain ⟨hlists, hfresh, hloops⟩ := h
  rw [htodo] at hlists hfresh hloops
  simp only [List.mem_cons, List.cons.injEq, List.not_mem_nil, or_false, reduceCtorEq] at hlists
  rcases hlists with ⟨rfl, rfl⟩ | ⟨rfl, rfl⟩ | ⟨rfl, rfl⟩ | ⟨rfl, rfl⟩ | ⟨rfl, rfl⟩ | ⟨rfl, rfl⟩
  all_goals
    refine ⟨by rw [hnew]; simp, ?_, ?_⟩
    · rw [hnew]
      simp_all
    · rw [hiff, hnew]
      simp_all

/-- How a statement of `start()` changes what is to do: it is done, and `threadInit` goes on to `insertLoop`. -/
structure Proceeds (t : ThreadId) (s s' : ChatServer) (stmt : Stmt) (left : List Stmt) : Prop where
  was : todo s t = stmt :: left
  now : todo s' t = (if stmt = .threadInit then [.insertLoop] else []) ++ left
  others : ∀ t', t' ≠ t → todo s' t' = todo s t'

/-- A statement of `start()` is the first of what is to do of it. -/
theorem Starting.proceeds (h : Starting cfg s) (hp : s.threads.pop t = some (stmt, th)) (hstmt : stmt.isStart = true)
    (hb : Begun t { s with threads := th } s' stmt) :
    Proceeds t s s' stmt ((th.agenda Handler.stmts t).filterMap Stmt.starting) := by
  have hstep := fun t' => filterMap_step Stmt.starting hp hb.grown t'
  refine ⟨(h.todo_pop hp hstmt).1, ?_, fun t' ht => ?_⟩
  · rw [todo, (hstep t).2, if_pos rfl]
    split <;> simp [Stmt.starting, Stmt.isStart]
  · rw [todo, todo, (hstep t').1, (hstep t').2, if_neg ht, if_neg ht]
    simp

/-- What is left of `start()` stays in front. -/
theorem Starting.begun_first (h : Starting cfg s) (hp : s.threads.pop t = some (stmt, th))
    (hstmt : stmt.isStart = true) (hb : Begun t { s with threads := th } s' stmt) (t' : ThreadId) :
    ∃ rest, agenda s' t' = todo s' t' ++ rest := by
  obtain ⟨-, hnow, hothers⟩ := h.proceeds hp hstmt hb
  obtain ⟨-, rest, hrest⟩ := h.todo_pop hp hstmt
  by_cases ht : t' = t
  · refine ⟨rest, ?_⟩
    rw [ht, hnow, agenda, hb.grown.agendas, if_pos rfl, List.append_nil, List.append_assoc, ← hrest]
  · rw [hothers t' ht, agenda, hb.grown.agendas, if_neg ht, List.append_nil, List.nil_append]
    obtain ⟨rest', heq⟩ := h.first t'
    exact ⟨rest', by rw [← heq]; exact ((agenda_of_pop hp).2 t' ht).symm⟩

/-- Only an I/O thread is at `insertLoop` and `setLoop`. -/
theorem Starting.owner_of_loop (h : Starting cfg s) (hp : s.threads.pop t = some (stmt, th))
    (hstmt : stmt = .insertLoop ∨ stmt = .setLoop) : t ∈ cfg.ioThreads := by
  have hstart : stmt.isStart = true := by rcases hstmt with rfl | rfl <;> rfl
  rcases h.owner hp hstart with hio | ⟨-, -, io, hmain⟩
  · exact hio
  · rcases hstmt with rfl | rfl <;> rcases hmain with heq | heq <;> cases heq

/-- The main thread works off `startStmts` in order. -/
theorem Starting.begun_base (h : Starting cfg s) {left : List Stmt} (hpr : Proceeds t s s' stmt left)
    (hne : cfg.pool ≠ []) : todo s' cfg.base <:+ startStmts cfg := by
  by_cases ht : cfg.base = t
  · have hsuffix := h.base hne
    rw [ht, hpr.was] at hsuffix
    have hnot : stmt ≠ .threadInit := by
      rintro rfl
      have hmem := hsuffix.subset List.mem_cons_self
      unfold startStmts at hmem
      rw [if_neg (by simpa using hne)] at hmem
      simp at hmem
    rw [ht, hpr.now, if_neg hnot]
    exact (List.suffix_cons _ _).trans hsuffix
  · rw [hpr.others _ ht]
    exact h.base hne

/-- The main thread has still to wait for the threads it has not heard of. -/
theorem Starting.begun_waiting (h : Starting cfg s) {left : List Stmt} (hpr : Proceeds t s s' stmt left)
    (hb : Begun t { s with threads := th } s' stmt) {l : ThreadId} (hl : l ∈ cfg.pool) (hout : l ∉ s'.loops) :
    .waitLoop l ∈ todo s' cfg.base := by
  have hwait := h.waiting l hl fun hin => hout ((hb.loops l).mpr (.inl hin))
  by_cases ht : cfg.base = t
  · rw [ht, hpr.was] at hwait
    rcases List.mem_cons.mp hwait with heq | hmem
    · -- it waits no longer when the thread's `startLoop` has its loop
      exact absurd ((hb.loops l).mpr (.inl (h.loopSet l (hb.waited l heq.symm)))) hout
    · rw [ht, hpr.now]
      exact List.mem_append_right _ hmem
  · rw [hpr.others _ ht]
    exact hwait

/-- A thread hands over its loop after it has entered it in `loops_`. -/
theorem Starting.begun_loopSet (h : Starting cfg s) (hp : s.threads.pop t = some (stmt, th)) {left : List Stmt}
    (hpr : Proceeds t s s' stmt left) (hb : Begun t { s with threads := th } s' stmt) {l : ThreadId}
    (hl : s'.loopSet l = true) : l ∈ s'.loops := by
  rcases hb.loopSet l hl with hset | ⟨rfl, rfl⟩
  · exact (hb.loops l).mpr (.inl (h.loopSet l hset))
  · have hstage := h.stage l (h.owner_of_loop hp (.inr rfl))
    refine (hb.loops l).mpr (.inl (hstage.loops.mpr ?_))
    have hlists := hstage.lists
    rw [hpr.was] at hlists ⊢
    simp only [List.mem_cons, List.cons.injEq, List.not_mem_nil, or_false, reduceCtorEq, false_and, false_or,
      true_and] at hlists
    rw [hlists]
    simp

/-- As long as the main thread has not got through, nothing else happens. -/
theorem Starting.begun_before (h : Starting cfg s) (hp : s.threads.pop t = some (stmt, th)) {left : List Stmt}
    (hpr : Proceeds t s s' stmt left) (hb : Begun t { s with threads := th } s' stmt) (hne : todo s' cfg.base ≠ []) :
    Before s' := by
  have hne' : todo s cfg.base ≠ [] := by
    by_cases ht : cfg.base = t
    · rw [ht, hpr.was]
      simp
    · rwa [hpr.others _ ht] at hne
  obtain ⟨hagenda, horder, hwatched, hmembers⟩ := h.before hne'
  refine ⟨fun t' x hx => ?_, by rw [hb.order]; exact horder, by rw [hb.conn]; exact hwatched,
    fun t' c => by rw [hb.members]; exact hmembers t' c⟩
  rw [agenda, hb.grown.agendas, List.append_nil] at hx
  rcases List.mem_append.mp hx with hnew | hleft
  · split at hnew
    · split at hnew
      · rw [List.mem_singleton.mp hnew]
        rfl
      · cases hnew
    · cases hnew
  · refine hagenda t' x ?_
    by_cases ht : t' = t
    · rw [ht] at hleft ⊢
      rw [(agenda_of_pop hp).1]
      exact List.mem_cons_of_mem _ hleft
    · rw [(agenda_of_pop hp).2 t' ht]
      exact hleft

/-- A thread that is not in `loops_` yet is the main thread, or the main thread waits for it. -/
theorem Starting.not_through (h : Starting cfg s) (hp : s.threads.pop t = some (stmt, th))
    (hstmt : stmt.isStart = true) (hout : t ∉ s.loops) : todo s cfg.base ≠ [] := by
  by_cases hbase : t = cfg.base
  · rw [← hbase, (h.todo_pop hp hstmt).1]
    simp
  · intro hnil
    have hpool : t ∈ cfg.pool := by
      rcases h.owner hp hstmt with hio | ⟨heq, -⟩
      · unfold PoolThreads.ioThreads at hio
        split at hio
        · exact absurd (List.mem_singleton.mp hio) hbase
        · exact hio
      · exact absurd heq hbase
    have hwait := h.waiting t hpool hout
    rw [hnil] at hwait
    cases hwait

/-- Every loop is in `loops_` before the first message has its place. -/
theorem Starting.begun_joined (h : Starting cfg s) (hp : s.threads.pop t = some (stmt, th)) {left : List Stmt}
    (hpr : Proceeds t s s' stmt left) (hb : Begun t { s with threads := th } s' stmt) (l : ThreadId) :
    s'.history.joined l = 0 := by
  rcases hb.joined l with heq | ⟨rfl, heq⟩
  · rw [heq]
    exact h.joined l
  · have hout : t ∉ s.loops := by
      intro hin
      have hnot := ((h.stage t (h.owner_of_loop hp (.inl rfl))).loops.mp hin).2
      rw [hpr.was] at hnot
      exact hnot List.mem_cons_self
    rw [heq]
    show s.history.order.length = 0
    rw [(h.before (h.not_through hp rfl hout)).order]
    rfl

/-- **A statement of `start()`** keeps the invariant. -/
theorem Starting.begun (h : Starting cfg s) (hp : s.threads.pop t = some (stmt, th)) (hstmt : stmt.isStart = true)
    (hs : run cfg { s with threads := th } t w r stmt = .ok s') : Starting cfg s' := by
  have hb := run_begun hstmt hs
  have hpr := h.proceeds hp hstmt hb
  have howner := h.owner hp hstmt
  constructor
  case first => exact h.begun_first hp hstmt hb
  case functors =>
    intro t' x hx
    rw [hb.grown.functors, List.append_nil] at hx
    exact h.functors t' x (by rw [← functors_pop hp]; exact hx)
  case stage =>
    intro t' ht'
    by_cases ht : t' = t
    · subst ht
      exact (h.stage t' ht').begun hpr.was hpr.now (fun hne => hb.locals t' (.inr hne)) ((hb.loops t').trans (by simp))
    · obtain ⟨hlists, hfresh, hiff⟩ := h.stage t' ht'
      refine ⟨by rw [hpr.others t' ht]; exact hlists, ?_, ?_⟩
      · rw [hpr.others t' ht, hb.locals t' (.inl ht)]
        exact hfresh
      · rw [hb.loops, hpr.others t' ht, ← hiff]
        exact ⟨fun h' => h'.resolve_right fun h'' => ht h''.1, .inl⟩
  case base => exact h.begun_base hpr
  case others =>
    intro t' hio hne
    by_cases ht : t' = t
    · rcases howner with hio' | ⟨hbase, -⟩
      · exact absurd (ht ▸ hio') hio
      · exact absurd (ht.trans hbase) hne
    · rw [hpr.others t' ht]
      exact h.others t' hio hne
  case waiting => exact fun l hl hout => h.begun_waiting hpr hb hl hout
  case loopSet => exact fun l hl => h.begun_loopSet hp hpr hb hl
  case before => exact h.begun_before hp hpr hb
  case loops =>
    intro l hl
    rcases (hb.loops l).mp hl with hin | ⟨rfl, rfl⟩
    · exact h.loops l hin
    · exact h.owner_of_loop hp (.inl rfl)
  case joined => exact h.begun_joined hp hpr hb
  case locals =>
    intro t'
    by_cases ht : t' = t
    · rw [ht]
      exact hb.localSpecific (h.locals t)
    · rw [hb.locals t' (.inl ht)]
      exact h.locals t'
  case next => rw [hb.next]; exact h.next
  case ioLoop => rw [hb.ioLoop]; exact h.ioLoop

/-! ## Every step -/

/-- **One statement**, of `start()` or after it. -/
theorem starting_exec (hctl : Control s) (h : Starting cfg s) (hp : s.threads.pop t = some (stmt, th))
    (hs : run cfg { s with threads := th } t w r stmt = .ok s') : Starting cfg s' := by
  cases hstmt : stmt.isStart with
  | true => exact h.begun hp hstmt hs
  | false =>
    obtain ⟨hu, front, back, hg, hfront, hback⟩ := run_untouched hctl hp hstmt hs
    have hag : ∀ t', agenda s' t' = (if t' = t then front ++ th.agenda Handler.stmts t else agenda s t') ++ back t' := by
      intro t'
      rw [agenda, hg.agendas]
      by_cases ht : t' = t
      · rw [if_pos ht, if_pos ht, ht]
      · rw [if_neg ht, if_neg ht, List.nil_append, (agenda_of_pop hp).2 t' ht]
    refine h.untouched hu (h.todo_of_head hp hstmt) ⟨stmt, ?_, hstmt⟩ hag (fun x hx => ?_)
      (fun t' x hx => ?_) hfront hback
    · rw [(agenda_of_pop hp).1]
      exact List.mem_cons_self
    · rw [(agenda_of_pop hp).1]
      exact List.mem_cons_of_mem _ hx
    · rw [hg.functors] at hx
      rcases List.mem_append.mp hx with hx | hx
      · exact h.functors t' x (by rw [← functors_pop hp]; exact hx)
      · exact hback t' x hx

/-- Only the threads change, and no agenda. -/
theorem Starting.of_agenda (h : Starting cfg s) (hag : ∀ t', th.agenda Handler.stmts t' = agenda s t')
    (hfun : ∀ t', ∀ x ∈ th.functors t', x ∈ s.threads.functors t') : Starting cfg { s with threads := th } := by
  have hagenda : ∀ t', agenda { s with threads := th } t' = agenda s t' := hag
  have htodo : ∀ t', todo { s with threads := th } t' = todo s t' := fun t' => by rw [todo, hagenda, todo]
  refine ⟨fun t' => ?_, fun t' x hx => h.functors t' x (hfun t' x hx), fun t' ht' => ?_, ?_, ?_, ?_, h.loopSet,
    fun hne => ?_, h.loops, h.joined, h.locals, h.next, h.ioLoop⟩
  · rw [hagenda, htodo]
    exact h.first t'
  · obtain ⟨hlists, hfresh, hloops⟩ := h.stage t' ht'
    refine ⟨?_, ?_, ?_⟩ <;> rw [htodo]
    · exact hlists
    · exact hfresh
    · exact hloops
  · rw [htodo]
    exact h.base
  · intro t' ht' hne
    rw [htodo]
    exact h.others t' ht' hne
  · rw [htodo]
    exact h.waiting
  · rw [htodo] at hne
    obtain ⟨hag', horder, hwatched, hmembers⟩ := h.before hne
    exact ⟨fun t' x hx => hag' t' x (hagenda t' ▸ hx), horder, hwatched, hmembers⟩

/-- The loop's own code: the functors are not of `start()`, and nothing is reported before it is over. -/
theorem starting_loop {mv : EventLoop.Move Handler} (hctl : Control s) (h : Starting cfg s)
    (hpoll : Pollable cfg s t mv) (hadv : s.threads.advance Handler.stmts t mv = .ok th) :
    Starting cfg { s with threads := th } := by
  obtain ⟨front, hfront, hag, hfun⟩ := loop_agenda hctl hpoll hadv
  have hfunctors : ∀ t', ∀ x ∈ th.functors t', x ∈ s.threads.functors t' :=
    fun t' x hx => functors_advance hctl.batched hadv hx
  cases front with
  | nil => exact h.of_agenda (fun t' => by rw [hag]; simp) hfunctors
  | cons y front =>
    -- the thread has only functors to do, so it is not at `start()`
    have hnone : ∀ x ∈ agenda s t, x.isStart = false := fun x hx => h.functors t x (hfun (by simp) x hx)
    have hdone : todo s t = [] := filterMap_nil fun x hx => Stmt.starting_eq_none (hnone x hx)
    have hthrough : todo s cfg.base = [] := by
      by_contra hne
      rcases (hfront y List.mem_cons_self).2 with hbase | ⟨c, hc⟩
      · exact hne (hbase ▸ hdone)
      · exact hc ((h.before hne).watched c)
    have htodo : ∀ t', todo { s with threads := th } t' = todo s t' := by
      intro t'
      rw [todo, agenda, hag, List.filterMap_append]
      split
      · rw [filterMap_nil fun x hx => Stmt.starting_eq_none (hfront x hx).1.2.1]
        rfl
      · rfl
    refine ⟨fun t' => ?_, fun t' x hx => h.functors t' x (hfunctors t' x hx), fun t' ht' => ?_, ?_, ?_, ?_, h.loopSet,
      fun hne => ?_, h.loops, h.joined, h.locals, h.next, h.ioLoop⟩
    · rw [htodo]
      by_cases ht : t' = t
      · rw [ht, hdone]
        exact ⟨_, rfl⟩
      · obtain ⟨rest, heq⟩ := h.first t'
        refine ⟨rest, ?_⟩
        rw [agenda, hag, if_neg ht, List.nil_append]
        exact heq
    · obtain ⟨hlists, hfresh, hloops⟩ := h.stage t' ht'
      refine ⟨?_, ?_, ?_⟩ <;> rw [htodo]
      · exact hlists
      · exact hfresh
      · exact hloops
    · rw [htodo]
      exact h.base
    · intro t' ht' hne
      rw [htodo]
      exact h.others t' ht' hne
    · rw [htodo]
      exact h.waiting
    · rw [htodo] at hne
      exact absurd hthrough hne

/-- A connection is accepted after `start()`, for an I/O loop that is in `loops_`. -/
theorem starting_newConnection {self : Addr} {sockfd : Int} (h : Starting cfg s)
    (hhead : (s.threads.frames cfg.base).head? = some .acceptLoop)
    (hs : newConnection cfg s self sockfd = .ok s') : Starting cfg s' := by
  have heq := newConnection_eq hs
  obtain ⟨hio, hnext⟩ := PoolThreads.getNextLoop_mem h.next
  -- the main thread is in its loop
  have hbusy : .acceptLoop ∈ agenda s cfg.base := by
    refine List.mem_append_left _ (List.mem_of_mem_head? ?_)
    rw [hhead]
    rfl
  have hthrough : todo s cfg.base = [] := by
    by_contra hne
    have hstart := (h.before hne).agenda cfg.base _ hbusy
    cases hstart
  have hg : Grown cfg.base s.threads s'.threads
      [.runConnectEstablished s.nextConnId, .setCloseCallback s.nextConnId] (fun _ => []) := by
    rw [heq]
    exact Grown.push _
  -- the loop of the new connection is set apart from the rest
  have hag : ∀ t', agenda s' t' = (if t' = cfg.base then
      [.runConnectEstablished s.nextConnId, .setCloseCallback s.nextConnId] ++ agenda s cfg.base
      else agenda s t') ++ [] := by
    intro t'
    rw [agenda, hg.agendas]
    by_cases ht : t' = cfg.base
    · rw [if_pos ht, if_pos ht, ht]
      rfl
    · rw [if_neg ht, if_neg ht]
      rfl
  have h₁ : Starting cfg { s' with next := s.next, ioLoop := s.ioLoop } := by
    refine h.untouched (t := cfg.base) ⟨by rw [heq]; rfl, by rw [heq]; rfl, by rw [heq]; rfl,
      fun t' _ => by rw [heq]; rfl, fun hloc => by rw [heq]; exact hloc, rfl, rfl⟩ hthrough ⟨_, hbusy, rfl⟩
      hag (fun x hx => hx) (fun t' x hx => ?_) (by simp [Stmt.isStart]) (by simp)
    · have hx' : x ∈ s'.threads.functors t' := hx
      rw [hg.functors, List.append_nil] at hx'
      exact h.functors t' x hx'
  have htodo : todo s' cfg.base = [] := by
    rw [todo, agenda, hg.agendas, if_pos rfl, List.append_nil, List.filterMap_append]
    exact List.append_eq_nil_iff.mpr ⟨rfl, hthrough⟩
  refine ⟨h₁.first, h₁.functors, fun t' ht' => ?_, h₁.base, h₁.others, h₁.waiting, h₁.loopSet,
    fun hne => absurd htodo hne, h₁.loops, h₁.joined, h₁.locals, ?_, fun c => ?_⟩
  · exact ⟨(h₁.stage t' ht').lists, (h₁.stage t' ht').fresh, (h₁.stage t' ht').loops⟩
  · rw [heq]
    exact hnext
  · rw [heq]
    by_cases hc : c = s.nextConnId
    · rw [hc]
      simpa [push] using hio
    · simpa [push, hc] using h.ioLoop c

/-- **One step.** -/
theorem starting_step {a : Label} (hctl : Control s) (h : Starting cfg s) (hs : step cfg s a = .ok s') :
    Starting cfg s' := by
  rcases step_cases hs with ⟨t, w, r, stmt, th, -, hp, hrun⟩ | ⟨t, mv, th, -, -, hpoll, hadv, rfl⟩ |
    ⟨self, sockfd, -, hhead, hnew⟩ | ⟨th, -, hp, rfl⟩
  · exact starting_exec hctl h hp hrun
  · exact starting_loop hctl h hpoll hadv
  · exact starting_newConnection h hhead hnew
  · have hag : ∀ t', agenda { s with threads := th } t' =
        (if t' = cfg.base then [] ++ th.agenda Handler.stmts cfg.base else agenda s t') ++ [] := by
      intro t'
      by_cases ht : t' = cfg.base
      · rw [if_pos ht, ht, List.append_nil]
        rfl
      · rw [if_neg ht, List.append_nil, (agenda_of_pop hp).2 t' ht]
        rfl
    refine h.untouched (t := cfg.base) ⟨rfl, rfl, rfl, fun _ _ => rfl, id, rfl, rfl⟩ (h.todo_of_head hp rfl)
      ⟨.acceptLoop, by rw [(agenda_of_pop hp).1]; exact List.mem_cons_self, rfl⟩ hag (fun x hx => ?_)
      (fun t' x hx => ?_) (by simp) (by simp)
    · rw [(agenda_of_pop hp).1]
      exact List.mem_cons_of_mem _ hx
    · exact h.functors t' x (by rw [← functors_pop hp]; exact hx)

/-- At first every thread has all of `start()` to do. -/
theorem starting_start : Starting cfg (start cfg) := by
  have hall : ∀ t, ∀ x ∈ agenda (start cfg) t, x.isStart = true := by
    intro t x hx
    rw [agenda_initial] at hx
    split at hx
    · unfold startStmts at hx
      split at hx
      · rw [List.mem_singleton.mp hx]
        rfl
      · obtain ⟨io, -, hx⟩ := List.mem_flatMap.mp hx
        simp only [List.mem_cons, List.not_mem_nil, or_false] at hx
        rcases hx with rfl | rfl <;> rfl
    · split at hx
      · simp only [List.mem_cons, List.not_mem_nil, or_false] at hx
        rcases hx with rfl | rfl | rfl <;> rfl
      · cases hx
  have htodo : ∀ t, todo (start cfg) t = agenda (start cfg) t := by
    intro t
    rw [todo, List.filterMap_congr (g := some) fun x hx => by simp [Stmt.starting, hall t x hx], List.filterMap_some]
  have hbase : ∀ t ∈ cfg.pool, t ≠ cfg.base := fun t ht heq =>
    (List.nodup_cons.mp cfg.nodup).1 (heq ▸ ht)
  refine ⟨fun t => ⟨[], by rw [htodo, List.append_nil]⟩, fun t x hx => ?_, fun t ht => ?_, fun _ => ?_,
    fun t hio hne => ?_, fun t ht _ => ?_, fun t ht => absurd ht (by simp [start]), fun _ => ?_,
    fun t ht => absurd ht (by simp [start]), fun _ => rfl, fun _ => rfl, fun hne => ?_, fun c => ?_⟩
  · simp [start, functors, EventLoop.new] at hx
  · have hlists : todo (start cfg) t ∈ [[Stmt.threadFunc, .threadInit, .setLoop], [.threadInit]] := by
      rw [htodo, agenda_initial]
      unfold PoolThreads.ioThreads at ht
      split at ht
      · rename_i hempty
        rw [if_pos (List.mem_singleton.mp ht), startStmts, if_pos hempty]
        simp
      · rw [if_neg (hbase t ht), if_pos ht]
        simp
    have hinit : .threadInit ∈ todo (start cfg) t := by
      simp only [List.mem_cons, List.not_mem_nil, or_false] at hlists
      rcases hlists with heq | heq <;> rw [heq] <;> simp
    refine ⟨?_, fun _ => rfl, ?_⟩
    · simp only [List.mem_cons, List.not_mem_nil, or_false] at hlists ⊢
      rcases hlists with heq | heq
      · exact .inl heq
      · exact .inr (.inr (.inl heq))
    · exact ⟨fun hin => absurd hin (by simp [start]), fun h => absurd hinit h.1⟩
  · rw [htodo, agenda_initial, if_pos rfl]
  · rw [htodo, agenda_initial, if_neg hne]
    unfold PoolThreads.ioThreads at hio
    split at hio
    · rename_i hempty
      rw [List.isEmpty_iff.mp hempty]
      simp
    · rw [if_neg hio]
  · rw [htodo, agenda_initial, if_pos rfl, startStmts, if_neg (by simpa using List.ne_nil_of_mem ht)]
    exact List.mem_flatMap.mpr ⟨t, ht, by simp⟩
  · exact ⟨hall, rfl, fun c => rfl, fun t c => by simp [members, start]⟩
  · exact List.length_pos_iff.mpr hne
  · exact (PoolThreads.getNextLoop_mem fun hne => List.length_pos_iff.mpr hne).1

/-- **The invariant of every run.** -/
theorem starting_of_reachable (h : (chatServer cfg).Reachable s) : Starting cfg s :=
  h.invariant (I := Starting cfg) (fun s h0 => by obtain rfl := h0; exact starting_start)
    (fun _ _ _ hr hI _ hs => starting_step (control_of_reachable hr) hI hs)

/-! ## The results -/

/-- When the main thread has got through, every I/O loop is in `loops_`. -/
theorem Starting.all_loops (h : Starting cfg s) (hthrough : todo s cfg.base = [])
    {l : ThreadId} (hl : l ∈ cfg.ioThreads) :
    l ∈ s.loops := by
  by_cases hpool : l ∈ cfg.pool
  · by_contra hout
    have hwait := h.waiting l hpool hout
    rw [hthrough] at hwait
    cases hwait
  · unfold PoolThreads.ioThreads at hl
    split at hl
    · rename_i hempty
      have hstage := h.stage l (by rw [PoolThreads.ioThreads, if_pos hempty]; exact hl)
      rw [List.mem_singleton.mp hl] at hstage ⊢
      rw [hstage.loops, hthrough]
      simp
    · exact absurd hl hpool

/-- A thread with connections of its own is in `loops_`. -/
theorem Starting.loop_of_member (h : Starting cfg s) (hctl : Control s) (hmem : conn ∈ members s t) :
    todo s cfg.base = [] ∧ t ∈ s.loops := by
  have hthrough : todo s cfg.base = [] := by
    by_contra hne
    exact (h.before hne).members t conn hmem
  exact ⟨hthrough, h.all_loops hthrough ((hctl.member t conn hmem).2 ▸ h.ioLoop conn)⟩

/-- `instance` cannot fail. -/
theorem ThreadLocal.instance_ok {T : Type} {l : ThreadLocal T} (h : l.specific = l.value.isSome) (e : T) :
    ∃ value, l.instance e = .ok (value, ⟨some value, true⟩) := by
  unfold ThreadLocal.instance
  cases hv : l.value with
  | some value =>
    refine ⟨value, ?_⟩
    rw [hv] at h
    simp only [pure_eq_ok, Except.ok.injEq, Prod.mk.injEq, true_and]
    cases l
    simp_all
  | none =>
    rw [hv] at h
    refine ⟨e, ?_⟩
    show (require (l.specific = false) Fault.singleton >>= fun _ => pure (e, (⟨some e, true⟩ : ThreadLocal T))) = _
    rw [require_of (by simpa using h)]
    rfl

theorem sendInLoop_singleton {bytes : List Byte} : sendInLoop s t conn bytes w ≠ .error (.fault .singleton) := by
  simp [sendInLoop, bind_eq_error, require_eq_error, Result.mapFault_eq_fault]

theorem shutdownInLoop_singleton : shutdownInLoop s t conn ≠ .error (.fault .singleton) := by
  simp [shutdownInLoop, bind_eq_error, require_eq_error]

/-- The other statements have asserts of other things. -/
theorem run_singleton (hs : run cfg s t w r stmt = .error (.fault .singleton)) :
    stmt = .threadInit ∨ (∃ conn, stmt = .onConnection conn) ∨ ∃ message, stmt = .distributeMessage message := by
  cases stmt with
  | threadInit => exact .inl rfl
  | onConnection conn => exact .inr (.inl ⟨conn, rfl⟩)
  | distributeMessage message => exact .inr (.inr ⟨message, rfl⟩)
  | queueEach loops message => cases loops <;> cases hs
  | acceptLoop => cases hs
  | handleRead conn =>
    simp only [run, handleRead, bind_eq_error, Result.mapFault_eq_fault] at hs
    rcases hs with ⟨_, -, hs⟩ | ⟨c, -, hs⟩
    · cases hs
    · split at hs <;> cases hs
  | handleWrite conn =>
    simp only [run, handleWrite, bind_eq_error, require_eq_error, Result.mapFault_eq_fault] at hs
    rcases hs with ⟨-, hs⟩ | ⟨-, -, ⟨_, -, hs⟩ | ⟨c, -, hs⟩⟩
    · cases hs
    · cases hs
    · split at hs
      · exact absurd hs shutdownInLoop_singleton
      · cases hs
  | onMessage conn =>
    simp only [run, onMessage, bind_eq_error, Result.mapFault_eq_fault] at hs
    rcases hs with ⟨_, -, hs⟩ | ⟨turn, -, hs⟩
    · cases hs
    · split at hs <;> cases hs
  | send conn message =>
    simp only [run, send, bind_eq_error, Result.mapFault_eq_fault] at hs
    rcases hs with ⟨_, -, hs⟩ | ⟨out, -, hs⟩
    · cases hs
    · split at hs
      · cases hs
      · split at hs
        · exact absurd hs sendInLoop_singleton
        · cases hs
  | sendInLoop conn bytes => exact absurd hs sendInLoop_singleton
  | shutdownInLoop conn => exact absurd hs shutdownInLoop_singleton
  | shutdown conn =>
    simp only [run] at hs
    split at hs
    · split at hs
      · exact absurd hs shutdownInLoop_singleton
      · cases hs
    · cases hs
  | _ => simp [run, bind_eq_error, require_eq_error, enabled_eq_error, Result.mapFault_eq_fault] at hs

/-- The asserts of `singleton` in `threadInit` do not fail: a thread gets its `LocalConnections` once. -/
theorem Starting.no_singleton_run (h : Starting cfg s) (hp : s.threads.pop t = some (stmt, th)) :
    run cfg { s with threads := th } t w r stmt ≠ .error (.fault .singleton) := by
  intro hs
  obtain ⟨value, hinstance⟩ := ThreadLocal.instance_ok (h.locals t) OrderedSet.empty
  rcases run_singleton hs with rfl | ⟨conn, rfl⟩ | ⟨message, rfl⟩
  · have howner : t ∈ cfg.ioThreads := by
      rcases h.owner hp rfl with hio | ⟨-, -, io, heq | heq⟩
      · exact hio
      · cases heq
      · cases heq
    have hfresh := (h.stage t howner).fresh (by rw [(h.todo_pop hp rfl).1]; exact List.mem_cons_self)
    simp [run, threadInit, hfresh, hinstance, require_of] at hs
  · simp [run, onConnection, hinstance] at hs
  · simp [run, distributeMessage, hinstance] at hs

/-- No assert of `threadInit` or of the singleton's `Deleter` fails. -/
theorem Starting.no_singleton (h : Starting cfg s) (a : Label) : step cfg s a ≠ .error (.fault .singleton) := by
  intro hs
  cases a with
  | loop t mv =>
    simp only [step, bind_eq_error, enabled_eq_error, Result.mapFault_eq_fault] at hs
    rcases hs with ⟨-, hs⟩ | ⟨-, -, ⟨_, -, hs⟩ | ⟨_, -, hs⟩⟩ <;> cases hs
  | exec t w r =>
    simp only [step] at hs
    split at hs
    · rename_i stmt th hp
      exact h.no_singleton_run hp hs
    · cases hs
  | newConnection self sockfd =>
    simp [step, newConnection, bind_eq_error, enabled_eq_error, require_eq_error] at hs
  | acceptEnd =>
    simp only [step] at hs
    split at hs <;> cases hs

/-- What `start()` has to see to. -/
structure Started (cfg : PoolThreads) (s : ChatServer) : Prop where
  /-- each thread makes its `LocalConnections` once, before it uses them -/
  singleton : ∀ a, step cfg s a ≠ .error (.fault .singleton)
  loops : ∀ l ∈ s.loops, l ∈ cfg.ioThreads
  /-- `start()` comes back when every loop is there -/
  all : todo s cfg.base = [] → ∀ l ∈ cfg.ioThreads, l ∈ s.loops
  before : todo s cfg.base ≠ [] → s.history.order = [] ∧ ∀ t c, c ∉ members s t
  ioLoop : ∀ t, ∀ c ∈ members s t, s.ioLoop c = t ∧ t ∈ s.loops

/-- **The loops are there before the connections**, whatever the order in which the threads of the pool start. -/
theorem started_soundly (h : (chatServer cfg).Reachable s) : Started cfg s := by
  have hctl := control_of_reachable h
  have hstart := starting_of_reachable h
  exact ⟨hstart.no_singleton, hstart.loops, fun hthrough l hl => hstart.all_loops hthrough hl,
    fun hne => ⟨(hstart.before hne).order, (hstart.before hne).members⟩,
    fun t c hc => ⟨(hctl.member t c hc).2, (hstart.loop_of_member hctl hc).2⟩⟩

/-- A base loop and two I/O loops. -/
def twoLoops : PoolThreads := ⟨0, [1, 2], by decide⟩

/-- Each thread of the pool in its turn. -/
def startLabels : List Label :=
  [.exec 0 none none, .exec 1 none none, .exec 1 none none, .exec 1 none none, .exec 1 none none, .exec 0 none none,
    .exec 0 none none, .exec 2 none none, .exec 2 none none, .exec 2 none none, .exec 2 none none, .exec 0 none none]

/-- Two clients come, one for each loop. -/
def connectLabels : List Label :=
  [.loop 0 .enter, .loop 0 .next, .loop 0 (.poll [.channel .acceptor]), .loop 0 .next,
    .newConnection 16 9, .exec 0 none none, .exec 0 none none, .newConnection 32 10, .exec 0 none none,
    .exec 0 none none, .acceptEnd,
    .loop 1 .enter, .loop 1 .next, .loop 1 (.poll [.wakeupChannel]), .loop 1 .next, .loop 1 .next, .loop 1 .next,
    .exec 1 none none, .exec 1 none none,
    .loop 2 .enter, .loop 2 .next, .loop 2 (.poll [.wakeupChannel]), .loop 2 .next, .loop 2 .next, .loop 2 .next,
    .exec 2 none none, .exec 2 none none]

/-- Two I/O threads start, and the first has a connection. -/
theorem started_soundly_sample : ∃ s, (members s 1).elems = [1] ∧ Started twoLoops s := by
  obtain ⟨s, hs, hp⟩ := System.Reach.of_exec (S := chatServer twoLoops) (s := start twoLoops)
    (l := startLabels ++ connectLabels) (p := fun s => decide ((members s 1).elems = [1])) (.init rfl) (by decide +kernel)
  rw [decide_eq_true_eq] at hp
  exact ⟨s, hp, started_soundly hs⟩

end HighPerformance

end Irono
