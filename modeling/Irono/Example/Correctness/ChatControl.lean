import Irono.Example.Correctness.ChatStatements

/-!
# `Example.Correctness.ChatControl` — where the messages stand on the agendas

A message is carried by the statement at the very front of an agenda, or by a functor: behind the front
everything is silent or a `distributeMessage` (`Shaped`). The thread that holds the mutex is the one with an
`unlock` at the front, so there is one at most; what a thread does to the chat depends on the front alone
(`Control.pop_cases`).
-/

namespace Irono

open Transition Threads

namespace HighPerformance

/-- No message at the front depends on it. -/
def Stmt.Plain (stmt : Stmt) : Prop := stmt.Silent ∨ ∃ message, stmt = .distributeMessage message

/-- What can stand at the front of thread `t`'s agenda, before the plain statements. -/
inductive Front (s : ChatServer) (t : ThreadId) : List Stmt → Prop
  /-- the rest of the `for` of `distributeMessage` -/
  | sends (conns : List ConnId) (message : List Byte) : s.mutex ≠ some t → conns.Nodup →
      (∀ conn ∈ conns, conn ∈ members s t) → Front s t (conns.map (.send · message))
  | message (conn : ConnId) (message : List Byte) : s.mutex ≠ some t → conn < s.nextConnId →
      t = s.ioLoop conn → Front s t [.onStringMessage conn message]
  | queueEach (loops : List ThreadId) (message : List Byte) : s.mutex = some t → loops.Nodup →
      (∀ l ∈ loops, l ∈ s.loops) → Front s t [.queueEach loops message, .unlock]
  | unlock : s.mutex = some t → Front s t [.unlock]

/-- The agenda of `t` is a front and plain statements. -/
def Shaped (s : ChatServer) (t : ThreadId) (l : List Stmt) : Prop :=
  ∃ front rest, l = front ++ rest ∧ Front s t front ∧ ∀ x ∈ rest, x.Plain ∧ x.Placed s t

/-- **The invariant.** -/
structure Control (s : ChatServer) : Prop where
  batched : s.threads.Batched
  shaped : ∀ t, Shaped s t (agenda s t)
  functors : ∀ t, ∀ x ∈ s.threads.functors t, x.Plain
  member : ∀ t, ∀ conn ∈ members s t, conn < s.nextConnId ∧ s.ioLoop conn = t

variable {cfg : PoolThreads} {s s' : ChatServer} {t : ThreadId} {th : Threads Handler Stmt} {stmt : Stmt}
  {conn : ConnId} {w : Option Nat} {r : Option (List Byte)}

/-- An empty front. -/
theorem Front.nil (h : s.mutex ≠ some t) : Front s t [] := Front.sends [] [] h List.nodup_nil (by simp)

/-- Only plain statements, and no mutex. -/
theorem Shaped.plain {l : List Stmt} (hm : s.mutex ≠ some t) (h : ∀ x ∈ l, x.Plain ∧ x.Placed s t) :
    Shaped s t l := ⟨[], l, rfl, Front.nil hm, h⟩

/-- A plain statement comes first only when the front is empty. -/
theorem Shaped.of_plain {l : List Stmt} (h : Shaped s t l) (hplain : ∀ x ∈ l.head?, x.Plain) :
    s.mutex ≠ some t ∧ ∀ x ∈ l, x.Plain ∧ x.Placed s t := by
  obtain ⟨front, rest, rfl, hfront, hrest⟩ := h
  cases hfront with
  | sends conns message hm _ _ =>
    cases conns with
    | nil => exact ⟨hm, by simpa using hrest⟩
    | cons c conns =>
      rcases hplain (.send c message) (by simp) with h | ⟨_, h⟩
      · exact absurd h id
      · cases h
  | message c message _ _ _ =>
    rcases hplain (.onStringMessage c message) (by simp) with h | ⟨_, h⟩
    · exact absurd h id
    · cases h
  | queueEach loops message _ _ _ =>
    rcases hplain (.queueEach loops message) (by simp) with h | ⟨_, h⟩
    · exact absurd h id
    · cases h
  | unlock _ =>
    rcases hplain .unlock (by simp) with h | ⟨_, h⟩
    · exact absurd h id
    · cases h

/-! ## What a thread is at -/

/-- The statement `stmt` that `t` is at, and what is behind it. -/
inductive At (s : ChatServer) (t : ThreadId) (behind : List Stmt) : Stmt → Prop
  | plain {stmt : Stmt} : s.mutex ≠ some t → stmt.Plain → stmt.Placed s t →
      (∀ x ∈ behind, x.Plain ∧ x.Placed s t) → At s t behind stmt
  | send (conn : ConnId) (conns : List ConnId) (message : List Byte) (rest : List Stmt) : s.mutex ≠ some t →
      (conn :: conns).Nodup → (∀ c ∈ conn :: conns, c ∈ members s t) →
      behind = conns.map (.send · message) ++ rest → (∀ x ∈ rest, x.Plain ∧ x.Placed s t) →
      At s t behind (.send conn message)
  | message (conn : ConnId) (message : List Byte) : s.mutex ≠ some t → conn < s.nextConnId →
      t = s.ioLoop conn → (∀ x ∈ behind, x.Plain ∧ x.Placed s t) → At s t behind (.onStringMessage conn message)
  | queueEach (loops : List ThreadId) (message : List Byte) (rest : List Stmt) : s.mutex = some t →
      loops.Nodup → (∀ l ∈ loops, l ∈ s.loops) → behind = .unlock :: rest →
      (∀ x ∈ rest, x.Plain ∧ x.Placed s t) → At s t behind (.queueEach loops message)
  | unlock : s.mutex = some t → (∀ x ∈ behind, x.Plain ∧ x.Placed s t) → At s t behind .unlock

/-- What a thread is at, by the front of its agenda. -/
theorem At.of_shaped {behind : List Stmt} (h : Shaped s t (stmt :: behind)) : At s t behind stmt := by
  obtain ⟨front, rest, heq, hfront, hrest⟩ := h
  cases hfront with
  | sends conns message hm hnodup hmem =>
    cases conns with
    | nil =>
      rw [List.map_nil, List.nil_append] at heq
      subst heq
      obtain ⟨hplain, hplaced⟩ := hrest stmt List.mem_cons_self
      exact .plain hm hplain hplaced fun x hx => hrest x (List.mem_cons_of_mem _ hx)
    | cons c conns =>
      rw [List.map_cons, List.cons_append, List.cons.injEq] at heq
      obtain ⟨rfl, rfl⟩ := heq
      exact .send c conns message rest hm hnodup hmem rfl hrest
  | message c message hm hc ht =>
    rw [List.singleton_append, List.cons.injEq] at heq
    obtain ⟨rfl, rfl⟩ := heq
    exact .message c message hm hc ht hrest
  | queueEach loops message hm hnodup hmem =>
    rw [List.cons_append, List.cons.injEq, List.singleton_append] at heq
    obtain ⟨rfl, rfl⟩ := heq
    exact .queueEach loops message rest hm hnodup hmem rfl hrest
  | unlock hm =>
    rw [List.singleton_append, List.cons.injEq] at heq
    obtain ⟨rfl, rfl⟩ := heq
    exact .unlock hm hrest

theorem agenda_of_pop (hp : s.threads.pop t = some (stmt, th)) :
    agenda s t = stmt :: th.agenda Handler.stmts t ∧ ∀ t', t' ≠ t → agenda s t' = th.agenda Handler.stmts t' := by
  refine ⟨?_, fun t' ht => ?_⟩
  · rw [agenda, agenda_pop hp, if_pos rfl]
    rfl
  · rw [agenda, agenda_pop hp, if_neg ht, List.nil_append]

theorem filterMap_nil {β : Type} {p : Stmt → Option β} {l : List Stmt} (h : ∀ x ∈ l, p x = none) :
    l.filterMap p = [] := List.filterMap_eq_nil_iff.mpr h

/-- The messages of `p` on an agenda when thread `t` is at `stmt`. -/
theorem filterMap_pop {β : Type} (p : Stmt → Option β) (hp : s.threads.pop t = some (stmt, th)) (t' : ThreadId) :
    (agenda s t').filterMap p = (if t' = t then (p stmt).toList else []) ++
      (th.agenda Handler.stmts t').filterMap p := by
  by_cases ht : t' = t
  · subst ht
    rw [(agenda_of_pop hp).1, if_pos rfl, List.filterMap_cons]
    cases p stmt <;> rfl
  · rw [(agenda_of_pop hp).2 t' ht, if_neg ht, List.nil_append]

/-- And after it. -/
theorem filterMap_step {β : Type} (p : Stmt → Option β) (hp : s.threads.pop t = some (stmt, th)) {front : List Stmt}
    {back : ThreadId → List Stmt} (hg : Grown t th s'.threads front back) (t' : ThreadId) :
    (agenda s t').filterMap p = (if t' = t then (p stmt).toList else []) ++
        (th.agenda Handler.stmts t').filterMap p ∧
      (agenda s' t').filterMap p = (if t' = t then front.filterMap p else []) ++
        (th.agenda Handler.stmts t').filterMap p ++ (back t').filterMap p := by
  refine ⟨filterMap_pop p hp t', ?_⟩
  rw [agenda, hg.agendas, List.filterMap_append, List.filterMap_append]
  split <;> rfl

/-- What was behind the statement stays. -/
theorem mem_agenda_step (hp : s.threads.pop t = some (stmt, th)) {front : List Stmt} {back : ThreadId → List Stmt}
    (hg : Grown t th s'.threads front back) {t' : ThreadId} {x : Stmt} (hx : x ∈ agenda s t') (hne : x ≠ stmt) :
    x ∈ agenda s' t' := by
  rw [agenda, hg.agendas]
  refine List.mem_append_left _ (List.mem_append_right _ ?_)
  by_cases ht : t' = t
  · subst ht
    rw [(agenda_of_pop hp).1] at hx
    exact (List.mem_cons.mp hx).resolve_left hne
  · rw [(agenda_of_pop hp).2 t' ht] at hx
    exact hx

/-- **What thread `t` is at**, and what it has to do behind that. -/
theorem Control.at (h : Control s) (hp : s.threads.pop t = some (stmt, th)) :
    At s t (th.agenda Handler.stmts t) stmt :=
  At.of_shaped ((agenda_of_pop hp).1 ▸ h.shaped t)

/-! ## What the other threads rely on -/

/-- A step of thread `t` has left to the others what their fronts rely on. -/
structure Carried (t : ThreadId) (s s' : ChatServer) : Prop where
  mutex : ∀ t', t' ≠ t → (s'.mutex = some t' ↔ s.mutex = some t')
  loops : ∀ l ∈ s.loops, l ∈ s'.loops
  members : ∀ t', t' ≠ t → members s' t' = members s t'
  known : s.nextConnId ≤ s'.nextConnId
  ioLoop : ∀ conn < s.nextConnId, s'.ioLoop conn = s.ioLoop conn

theorem Carried.of_eq (hmutex : s'.mutex = s.mutex) (hloops : s'.loops = s.loops)
    (hmembers : ∀ t', t' ≠ t → HighPerformance.members s' t' = HighPerformance.members s t')
    (hknown : s'.nextConnId = s.nextConnId) (hio : s'.ioLoop = s.ioLoop) : Carried t s s' :=
  ⟨fun t' _ => by rw [hmutex], fun l hl => by rw [hloops]; exact hl, hmembers, le_of_eq hknown.symm,
    fun c _ => by rw [hio]⟩

theorem SameChat.carried (h : SameChat s s') : Carried t s s' :=
  Carried.of_eq h.mutex h.loops (fun t' _ => h.members t') h.nextConnId h.ioLoop

/-- A statement stays where it may run. -/
theorem Stmt.Placed.carry (hc : Carried t s s') {t' : ThreadId} (h : stmt.Placed s t') : stmt.Placed s' t' :=
  ⟨fun c hconn => (h.known c hconn).trans_le hc.known,
    fun hl c hconn => by rw [hc.ioLoop c (h.known c hconn)]; exact h.own hl c hconn⟩

theorem carry_plain (hc : Carried t s s') {t' : ThreadId} {l : List Stmt}
    (h : ∀ x ∈ l, x.Plain ∧ x.Placed s t') : ∀ x ∈ l, x.Plain ∧ x.Placed s' t' :=
  fun x hx => ⟨(h x hx).1, (h x hx).2.carry hc⟩

/-- The front of another thread stays one: a step of `t` leaves it the mutex and its loops. -/
theorem Front.carry (hc : Carried t s s') {t' : ThreadId} (ht : t' ≠ t) {front : List Stmt}
    (h : Front s t' front) : Front s' t' front := by
  have hmutex := hc.mutex t' ht
  cases h with
  | sends conns message hm hnodup hmem =>
    exact .sends conns message (fun hm' => hm (hmutex.mp hm')) hnodup (by rw [hc.members t' ht]; exact hmem)
  | message c message hm hconn hio =>
    exact .message c message (fun hm' => hm (hmutex.mp hm')) (hconn.trans_le hc.known)
      (by rw [hc.ioLoop c hconn]; exact hio)
  | queueEach loops message hm hnodup hmem =>
    exact .queueEach loops message (hmutex.mpr hm) hnodup fun l hl => hc.loops l (hmem l hl)
  | unlock hm => exact .unlock (hmutex.mpr hm)

/-- **A step of thread `t` keeps the invariant**, when its own agenda is shaped after it. -/
theorem Control.next (h : Control s) {th : Threads Handler Stmt} (hb : th.Batched)
    (hother : ∀ t', t' ≠ t → agenda s t' = th.agenda Handler.stmts t')
    (hfun : ∀ t', th.functors t' = s.threads.functors t') (hc : Carried t s s') {front : List Stmt}
    {back : ThreadId → List Stmt} (hg : Grown t th s'.threads front back)
    (hback : ∀ t', ∀ x ∈ back t', x.Plain ∧ x.Placed s' t')
    (hshaped : Shaped s' t (front ++ th.agenda Handler.stmts t))
    (hmember : ∀ conn ∈ members s' t, conn < s'.nextConnId ∧ s'.ioLoop conn = t) : Control s' := by
  have happend : ∀ t' l, Shaped s' t' l → Shaped s' t' (l ++ back t') := by
    rintro t' l ⟨f, rest, rfl, hf, hrest⟩
    refine ⟨f, rest ++ back t', by rw [List.append_assoc], hf, fun x hx => ?_⟩
    rcases List.mem_append.mp hx with hx | hx
    · exact hrest x hx
    · exact hback t' x hx
  refine ⟨hg.batched hb, fun t' => ?_, fun t' x hx => ?_, fun t' c hcm => ?_⟩
  · rw [agenda, hg.agendas]
    by_cases ht : t' = t
    · subst ht
      rw [if_pos rfl]
      exact happend t' _ hshaped
    · rw [if_neg ht, List.nil_append, ← hother t' ht]
      obtain ⟨f, rest, heq, hf, hrest⟩ := h.shaped t'
      rw [heq]
      exact happend t' _ ⟨f, rest, rfl, hf.carry hc ht, carry_plain hc hrest⟩
  · rw [hg.functors, hfun] at hx
    rcases List.mem_append.mp hx with hx | hx
    · exact h.functors t' x hx
    · exact (hback t' x hx).1
  · by_cases ht : t' = t
    · subst ht
      exact hmember c hcm
    · rw [hc.members t' ht] at hcm
      obtain ⟨hlt, hio⟩ := h.member t' c hcm
      exact ⟨hlt.trans_le hc.known, by rw [hc.ioLoop c hlt]; exact hio⟩

/-! ## Every statement -/

theorem Stmt.Silent.plain (h : stmt.Silent) : stmt.Plain := .inl h

/-- A statement that changes nothing the others rely on and puts only plain statements anywhere. -/
theorem control_plain (h : Control s) (hp : s.threads.pop t = some (stmt, th)) (hc : Carried t s s')
    {front : List Stmt} {back : ThreadId → List Stmt} (hg : Grown t th s'.threads front back)
    (hm : s'.mutex ≠ some t) (hfront : ∀ x ∈ front, x.Plain ∧ x.Placed s' t)
    (hback : ∀ t', ∀ x ∈ back t', x.Plain ∧ x.Placed s' t')
    (hrest : ∀ x ∈ th.agenda Handler.stmts t, x.Plain ∧ x.Placed s t)
    (hmember : ∀ conn ∈ members s' t, conn < s'.nextConnId ∧ s'.ioLoop conn = t) : Control s' := by
  refine h.next (batched_pop h.batched hp) (agenda_of_pop hp).2 (functors_pop hp) hc hg hback
    (Shaped.plain hm fun x hx => ?_) hmember
  rcases List.mem_append.mp hx with hx | hx
  · exact hfront x hx
  · exact ⟨(hrest x hx).1, (hrest x hx).2.carry hc⟩

/-- The step of a quiet statement, seen from before it was taken off. -/
theorem control_quiet (h : Control s) (hp : s.threads.pop t = some (stmt, th)) (hm : s.mutex ≠ some t)
    (hplaced : stmt.Placed s t) (hrest : ∀ x ∈ th.agenda Handler.stmts t, x.Plain ∧ x.Placed s t)
    (hq : Quietly t { s with threads := th } s' stmt) : Control s' := by
  obtain ⟨hsame, -, -, front, back, hg, hfront, hback⟩ := hq
  have hc₀ : Carried t { s with threads := th } s' := hsame.carried
  have hc : Carried t s s' := ⟨hc₀.mutex, hc₀.loops, hc₀.members, hc₀.known, hc₀.ioLoop⟩
  have hplaced' : Stmt.Placed { s with threads := th } t stmt := ⟨hplaced.known, hplaced.own⟩
  refine control_plain h hp hc hg (by rw [hsame.mutex]; exact hm) (fun x hx => ?_) (fun t' x hx => ?_) hrest
    fun c hcm => ?_
  · obtain ⟨hsilent, -, hx'⟩ := hfront x hx
    exact ⟨hsilent.plain, (hx' hplaced').carry hc₀⟩
  · obtain ⟨hsilent, -, hx'⟩ := hback t' x hx
    exact ⟨hsilent.plain, (hx' hplaced').carry hc₀⟩
  · rw [hsame.members] at hcm
    obtain ⟨hlt, hio⟩ := h.member t c hcm
    rw [hsame.nextConnId, hsame.ioLoop]
    exact ⟨hlt, hio⟩

/-- `onConnection` changes the set of its own loop only. -/
theorem control_onConnection (h : Control s) (hp : s.threads.pop t = some (.onConnection conn, th))
    (hs : onConnection { s with threads := th } t conn = .ok s') : Control s' := by
  have hat := h.at hp
  cases hat with
  | plain hm _ hplaced hrest =>
    obtain ⟨hframe, hother, hcase⟩ := onConnection_eq hs
    have hthreads : s'.threads = th := by rw [hframe]
    have hc : Carried t s s' := ⟨fun t' _ => by rw [hframe], fun l hl => by rw [hframe]; exact hl, hother,
      le_of_eq (by rw [hframe]), fun c _ => by rw [hframe]⟩
    have hmem : ∀ c ∈ members s' t, c ∈ members s t ∨ c = conn := by
      intro c hcm
      rcases hcase with ⟨-, heq, -⟩ | ⟨-, heq, -⟩
      · rw [heq, OrderedSet.mem_insert] at hcm
        exact hcm.symm
      · rw [heq, OrderedSet.mem_erase] at hcm
        exact .inl hcm.1
    refine control_plain h hp hc (Grown.of_eq hthreads) (by rw [hframe]; exact hm)
      (by simp) (by simp) hrest fun c hcm => ?_
    have hknown : s'.nextConnId = s.nextConnId ∧ s'.ioLoop = s.ioLoop := by
      rw [hframe]
      exact ⟨rfl, rfl⟩
    rw [hknown.1, hknown.2]
    rcases hmem c hcm with hcm | rfl
    · exact h.member t c hcm
    · exact ⟨hplaced.known c rfl, (hplaced.own trivial c rfl).symm⟩

theorem control_handleRead (h : Control s) (hp : s.threads.pop t = some (.handleRead conn, th))
    (hs : handleRead { s with threads := th } t conn r = .ok s') : Control s' := by
  have hat := h.at hp
  cases hat with
  | plain hm _ hplaced hrest =>
    have hfront : ∀ x : Stmt, x.Silent → x.conn = some conn → ∀ y ∈ [x], y.Plain ∧ y.Placed s t := by
      intro x hx hconn y hy
      obtain rfl := List.mem_singleton.mp hy
      exact ⟨hx.plain, fun c hc => hplaced.known c (hconn.symm.trans hc),
        fun _ c hc => hplaced.own trivial c (hconn.symm.trans hc)⟩
    have hnext : ∀ (s'' : ChatServer) (x : Stmt), x.Silent → x.conn = some conn → Carried t s s'' →
        s''.threads = th.push t [x] → s''.mutex = s.mutex →
        (∀ c ∈ members s'' t, c < s''.nextConnId ∧ s''.ioLoop c = t) → Control s'' :=
      fun s'' x hx hconn hc hthreads hmutex hmember => control_plain h hp hc (hthreads ▸ Grown.push [x])
        (by rw [hmutex]; exact hm) (carry_plain hc (hfront x hx hconn)) (by simp) hrest hmember
    obtain ⟨c, -, ⟨b, bytes, -, rfl⟩ | ⟨-, rfl⟩ | ⟨-, rfl⟩⟩ := handleRead_eq hs
    · exact hnext _ (.onMessage conn) trivial rfl (Carried.of_eq rfl rfl (fun _ _ => rfl) rfl rfl) rfl rfl (h.member t)
    · exact hnext _ (.handleClose conn) trivial rfl (Carried.of_eq rfl rfl (fun _ _ => rfl) rfl rfl) rfl rfl (h.member t)
    · exact hnext _ (.handleError conn) trivial rfl (Carried.of_eq rfl rfl (fun _ _ => rfl) rfl rfl) rfl rfl (h.member t)

theorem control_onMessage (h : Control s) (hp : s.threads.pop t = some (.onMessage conn, th))
    (hs : onMessage { s with threads := th } t conn = .ok s') : Control s' := by
  have hat := h.at hp
  cases hat with
  | plain hm _ hplaced hrest =>
    have hknown := hplaced.known conn rfl
    have hio := hplaced.own trivial conn rfl
    rcases onMessage_eq hs with ⟨buf, message, -, rfl⟩ | ⟨events, hturn, rfl⟩
    · have hbehind : ∀ x ∈ Stmt.onMessage conn :: th.agenda Handler.stmts t, x.Plain ∧ x.Placed s t := by
        intro x hx
        rcases List.mem_cons.mp hx with rfl | hx
        · exact ⟨.inl trivial, hplaced⟩
        · exact hrest x hx
      have hc : Carried t s (push (setConn { s with threads := th } conn { s.conn conn with inputBuffer := buf }) t
          [.onStringMessage conn message, .onMessage conn]) := Carried.of_eq rfl rfl (fun _ _ => rfl) rfl rfl
      exact h.next (batched_pop h.batched hp) (agenda_of_pop hp).2 (functors_pop hp) hc (Grown.push _) (by simp)
        ⟨[.onStringMessage conn message], .onMessage conn :: th.agenda Handler.stmts t, rfl,
          .message conn message hm hknown hio, carry_plain hc hbehind⟩ (h.member t)
    · refine control_plain h hp
        (Carried.of_eq rfl rfl (fun _ _ => rfl) rfl rfl) (Grown.push _) hm
        (fun x hx => ?_) (by simp) hrest (h.member t)
      obtain rfl := turn_leave hturn hx
      exact ⟨.inl trivial, fun c hc => hplaced.known c hc, fun hl => absurd hl id⟩

/-- A distributed message is sent to members of the loop. -/
theorem control_distributeMessage {message : List Byte} (h : Control s)
    (hp : s.threads.pop t = some (.distributeMessage message, th))
    (hs : distributeMessage { s with threads := th } t message = .ok s') : Control s' := by
  have hat := h.at hp
  cases hat with
  | plain hm _ hplaced hrest =>
    obtain ⟨l, hmembers, rfl⟩ := distributeMessage_eq hs
    have hc : Carried t s (push { { s with threads := th } with
        locals := Function.update s.locals t l
        history := { s.history with
          distributed := Function.update s.history.distributed t (s.history.distributed t ++ [message]) } } t
        ((members s t).elems.map (.send · message))) :=
      Carried.of_eq rfl rfl (fun t' _ => hmembers t') rfl rfl
    refine h.next (batched_pop h.batched hp) (agenda_of_pop hp).2 (functors_pop hp) hc (Grown.push _) (by simp)
      ⟨_, th.agenda Handler.stmts t, rfl, .sends _ message hm (OrderedSet.nodup _) fun c hc => ?_,
        carry_plain hc hrest⟩
      fun c hc => ?_
    · show c ∈ ((Function.update s.locals t l) t).value.getD OrderedSet.empty
      exact (hmembers t).symm ▸ OrderedSet.mem_def.mpr hc
    · exact h.member t c ((hmembers t) ▸ hc)

/-- One `send` of the loop's broadcast. -/
theorem control_send {message : List Byte} (h : Control s) (hp : s.threads.pop t = some (.send conn message, th))
    (hs : send { s with threads := th } t conn message w = .ok s') : Control s' := by
  have hat := h.at hp
  cases hat with
  | plain _ hplain => rcases hplain with h' | ⟨_, h'⟩ <;> cases h'
  | send _ conns _ rest hm hnodup hmem hbehind hrest =>
    have hio := (h.member t conn (hmem conn List.mem_cons_self)).2
    have hnext : ∀ s'' : ChatServer, s''.threads = th → Carried t s s'' → s''.mutex = s.mutex →
        members s'' t = members s t → s''.nextConnId = s.nextConnId → s''.ioLoop = s.ioLoop → Control s'' := by
      intro s'' hthreads hc hmutex hmembers hknown hioLoop
      refine h.next (batched_pop h.batched hp) (agenda_of_pop hp).2 (functors_pop hp) hc
        (Grown.of_eq hthreads) (by simp) ⟨_, rest, hbehind,
          .sends conns message (by rw [hmutex]; exact hm) (List.nodup_cons.mp hnodup).2 fun c hcm => ?_,
          carry_plain hc hrest⟩ fun c hcm => ?_
      · rw [hmembers]
        exact hmem c (List.mem_cons_of_mem _ hcm)
      · rw [hmembers] at hcm
        rw [hknown, hioLoop]
        exact h.member t c hcm
    rcases send_eq (s := { s with threads := th }) hio.symm hs with ⟨-, rfl⟩ | ⟨-, c, wc, -, rfl⟩
    · exact hnext _ rfl (Carried.of_eq rfl rfl (fun _ _ => rfl) rfl rfl) rfl rfl rfl rfl
    · exact hnext _ rfl (Carried.of_eq rfl rfl (fun _ _ => rfl) rfl rfl) rfl rfl rfl rfl

/-- `onStringMessage` under its mutex: one loop after the other gets the message queued. -/
theorem control_queueEach {loops : List ThreadId} {message : List Byte} (h : Control s)
    (hp : s.threads.pop t = some (.queueEach loops message, th))
    (hs : run cfg { s with threads := th } t w r (.queueEach loops message) = .ok s') : Control s' := by
  have hat := h.at hp
  cases hat with
  | plain _ hplain => rcases hplain with h' | ⟨_, h'⟩ <;> cases h'
  | queueEach _ _ rest hm hnodup hmem hbehind hrest =>
    cases loops with
    | nil =>
      simp only [run, pure_eq_ok, Except.ok.injEq] at hs
      subst hs
      have hc : Carried t s { s with threads := th } := Carried.of_eq rfl rfl (fun _ _ => rfl) rfl rfl
      exact h.next (batched_pop h.batched hp) (agenda_of_pop hp).2 (functors_pop hp) hc Grown.same
        (by simp) ⟨[.unlock], rest, hbehind, .unlock hm, carry_plain hc hrest⟩ (h.member t)
    | cons l loops =>
      simp only [run, pure_eq_ok, Except.ok.injEq] at hs
      subst hs
      have hc : Carried t s (push { { s with threads := th } with
          threads := th.queueInLoop t l (.distributeMessage message) } t [.queueEach loops message]) :=
        Carried.of_eq rfl rfl (fun _ _ => rfl) rfl rfl
      refine h.next (batched_pop h.batched hp) (agenda_of_pop hp).2 (functors_pop hp) hc (Grown.queueEach l loops message)
        (fun t' x hx => ?_)
        ⟨[.queueEach loops message, .unlock], rest, by rw [hbehind]; rfl,
          .queueEach loops message hm (List.nodup_cons.mp hnodup).2
            fun l' hl' => hmem l' (List.mem_cons_of_mem _ hl'), carry_plain hc hrest⟩ (h.member t)
      split at hx
      · obtain rfl := List.mem_singleton.mp hx
        exact ⟨.inr ⟨message, rfl⟩, by simp [Stmt.conn], by simp [Stmt.Local]⟩
      · exact absurd hx List.not_mem_nil

/-- **Every statement keeps the invariant.** -/
theorem control_run (h : Control s) (hp : s.threads.pop t = some (stmt, th))
    (hs : run cfg { s with threads := th } t w r stmt = .ok s') : Control s' := by
  by_cases hq : stmt.Quiet
  · have hquiet := run_quiet hq hs
    have hsilent : stmt.Silent := by cases stmt <;> first | exact hq | exact absurd hq id
    have hat := h.at hp
    cases hat with
    | plain hm _ hplaced hrest => exact control_quiet h hp hm hplaced hrest hquiet
    | _ => exact absurd hsilent id
  cases stmt with
  | acceptLoop => cases hs
  | insertLoop =>
    simp only [run, bind_eq_ok, enabled_eq_ok, pure_eq_ok, Except.ok.injEq] at hs
    obtain ⟨-, -, rfl⟩ := hs
    have hat := h.at hp
    cases hat with
    | plain hm _ hplaced hrest =>
      exact control_plain h hp ⟨fun _ _ => Iff.rfl, fun l hl => OrderedSet.mem_insert.mpr (.inr hl), fun _ _ => rfl,
        le_refl _, fun _ _ => rfl⟩ Grown.same hm (by simp) (by simp) hrest
        (h.member t)
  | onConnection conn => exact control_onConnection h hp hs
  | handleRead conn => exact control_handleRead h hp hs
  | onMessage conn => exact control_onMessage h hp hs
  | onStringMessage conn message =>
    simp only [run, bind_eq_ok, enabled_eq_ok, pure_eq_ok, Except.ok.injEq] at hs
    obtain ⟨-, hfree, rfl⟩ := hs
    have hat := h.at hp
    cases hat with
    | plain _ hplain => rcases hplain with h' | ⟨_, h'⟩ <;> cases h'
    | message _ _ hm hknown hio hrest =>
      have hc : Carried t s (onStringMessage { s with threads := th } t conn message) :=
        ⟨fun t' ht => by
            show some t = some t' ↔ s.mutex = some t'
            rw [show s.mutex = none from hfree]
            simp [Ne.symm ht],
          fun _ hl => hl, fun _ _ => rfl, le_refl _, fun _ _ => rfl⟩
      exact h.next (batched_pop h.batched hp) (agenda_of_pop hp).2 (functors_pop hp) hc (Grown.push _) (by simp)
        ⟨[.queueEach s.loops.elems message, .unlock], th.agenda Handler.stmts t, rfl,
          .queueEach _ message rfl (OrderedSet.nodup _) fun _ hl => hl,
          carry_plain hc hrest⟩ (h.member t)
  | queueEach loops message => exact control_queueEach h hp hs
  | unlock =>
    simp only [run, pure_eq_ok, Except.ok.injEq] at hs
    subst hs
    have hat := h.at hp
    cases hat with
    | plain _ hplain => rcases hplain with h' | ⟨_, h'⟩ <;> cases h'
    | unlock hm hrest =>
      have hc : Carried t s { { s with threads := th } with mutex := none } :=
        ⟨fun t' ht => by rw [hm]; simp [Ne.symm ht], fun _ hl => hl, fun _ _ => rfl, le_refl _, fun _ _ => rfl⟩
      exact control_plain h hp hc Grown.same (by simp) (by simp) (by simp) hrest
        (h.member t)
  | distributeMessage message => exact control_distributeMessage h hp hs
  | send conn message => exact control_send h hp hs
  | sendInLoop conn bytes =>
    have hat := h.at hp
    cases hat with
    | plain _ hplain => rcases hplain with h' | ⟨_, h'⟩ <;> cases h'
  | _ => exact absurd trivial hq

/-! ## Every step -/

theorem agenda_initial (t : ThreadId) : agenda (start cfg) t =
    if t = cfg.base then startStmts cfg else if t ∈ cfg.pool then [.threadFunc, .threadInit, .setLoop] else [] := by
  simp [agenda, Threads.agenda, start, EventLoop.agenda, EventLoop.new, EventLoop.activeChannels, EventLoop.handlers]

/-- At the beginning there are neither connections nor messages. -/
theorem start_silent {x : Stmt} (h : x ∈ agenda (start cfg) t) : x.Silent ∧ x.conn = none ∧ ¬ x.Local := by
  rw [agenda_initial] at h
  split at h
  · unfold startStmts at h
    split at h
    · obtain rfl := List.mem_singleton.mp h
      exact ⟨trivial, rfl, id⟩
    · obtain ⟨io, -, hx⟩ := List.mem_flatMap.mp h
      simp only [List.mem_cons, List.not_mem_nil, or_false] at hx
      rcases hx with rfl | rfl <;> exact ⟨trivial, rfl, id⟩
  · split at h
    · simp only [List.mem_cons, List.not_mem_nil, or_false] at h
      rcases h with rfl | rfl | rfl <;> exact ⟨trivial, rfl, id⟩
    · exact absurd h List.not_mem_nil

theorem control_start : Control (start cfg) := by
  refine ⟨fun _ => EventLoop.batched_new, fun t => Shaped.plain (by simp [start]) fun x hx => ?_, fun t x hx => ?_,
    fun t c hc => ?_⟩
  · obtain ⟨hsilent, hconn, hlocal⟩ := start_silent hx
    exact ⟨hsilent.plain, by rw [hconn]; simp, fun hl => absurd hl hlocal⟩
  · simp [start, functors, EventLoop.new] at hx
  · simp [members, start] at hc

/-- The statements of what `epoll_wait` can report. -/
theorem handler_placed {active : List (Active Handler)} (h : Pollable cfg s t (.poll active)) {x : Stmt}
    (hx : x ∈ (EventLoop.handlers (F := Stmt) active).flatMap (Threads.stmts Handler.stmts)) :
    (x.Silent ∧ x.isStart = false ∧ x.Placed s t) ∧ (t = cfg.base ∨ ∃ c, (s.conn c).watched ≠ none) := by
  obtain ⟨task, htask, hx⟩ := List.mem_flatMap.mp hx
  obtain ⟨a, ha, htask⟩ := List.mem_filterMap.mp htask
  cases a with
  | wakeupChannel => cases htask
  | channel hd =>
    obtain rfl := Option.some.inj htask
    cases hd with
    | acceptor =>
      obtain rfl := List.mem_singleton.mp hx
      exact ⟨⟨trivial, rfl, by simp [Stmt.conn], by simp [Stmt.Local]⟩, .inl (h.1 _ ha)⟩
    | connection conn revents =>
      obtain ⟨hio, hknown, events, hwatched, -⟩ := h.1 _ ha
      obtain ⟨callback, -, rfl⟩ := List.mem_map.mp hx
      refine ⟨?_, .inr ⟨conn, by rw [Option.mem_def.mp hwatched]; simp⟩⟩
      cases callback <;>
        exact ⟨trivial, rfl, fun c hc => Option.mem_some.mp hc ▸ hknown, fun _ c hc => Option.mem_some.mp hc ▸ hio⟩

/-- A loop's own code puts handlers in front, or works its agenda off. -/
theorem loop_agenda {mv : EventLoop.Move Handler} (h : Control s) (hpoll : Pollable cfg s t mv)
    (hadv : s.threads.advance Handler.stmts t mv = .ok th) :
    ∃ front, (∀ x ∈ front, (x.Silent ∧ x.isStart = false ∧ x.Placed s t) ∧
        (t = cfg.base ∨ ∃ c, (s.conn c).watched ≠ none)) ∧
      (∀ t', th.agenda Handler.stmts t' = (if t' = t then front else []) ++ agenda s t') ∧
      (front ≠ [] → ∀ x ∈ agenda s t, x ∈ s.threads.functors t) := by
  obtain ⟨-, -, -, hcase⟩ := agenda_advance h.batched hadv
  rcases hcase with ⟨active, rfl, -, hag, hag'⟩ | ⟨-, hag⟩
  · refine ⟨_, fun x hx => handler_placed hpoll hx, hag', fun _ x hx => ?_⟩
    rw [agenda, hag] at hx
    exact List.mem_append_right _ hx
  · exact ⟨[], by simp, fun t' => by rw [hag]; simp [agenda], fun hne => absurd rfl hne⟩

theorem control_loop {mv : EventLoop.Move Handler} (h : Control s) (hpoll : Pollable cfg s t mv)
    (hadv : s.threads.advance Handler.stmts t mv = .ok th) : Control { s with threads := th } := by
  obtain ⟨front, hfront, hag, hplain⟩ := loop_agenda h hpoll hadv
  have hc : Carried t s { s with threads := th } := Carried.of_eq rfl rfl (fun _ _ => rfl) rfl rfl
  have hshaped : ∀ t' l, Shaped s t' l → Shaped { s with threads := th } t' l := by
    rintro t' l ⟨f, rest, heq, hf, hrest⟩
    -- nothing but the threads has changed
    refine ⟨f, rest, heq, ?_, carry_plain hc hrest⟩
    cases hf with
    | sends conns message hm hnodup hmem => exact .sends conns message hm hnodup hmem
    | message c message hm hknown hio => exact .message c message hm hknown hio
    | queueEach loops message hm hnodup hmem => exact .queueEach loops message hm hnodup hmem
    | unlock hm => exact .unlock hm
  refine ⟨(agenda_advance h.batched hadv).1, fun t' => ?_, fun t' x hx => h.functors t' x ?_, h.member⟩
  · rw [agenda, hag]
    by_cases ht : t' = t
    · subst ht
      rw [if_pos rfl]
      cases front with
      | nil => exact hshaped t' _ (h.shaped t')
      | cons y front =>
        obtain ⟨hm, hrest⟩ := (h.shaped t').of_plain fun x hx =>
          h.functors t' x (hplain (by simp) x (List.mem_of_mem_head? hx))
        refine hshaped t' _ (Shaped.plain hm fun x hx => ?_)
        rcases List.mem_append.mp hx with hx | hx
        · exact ⟨(hfront x hx).1.1.plain, (hfront x hx).1.2.2⟩
        · exact hrest x hx
    · rw [if_neg ht, List.nil_append]
      exact hshaped t' _ (h.shaped t')
  · exact functors_advance h.batched hadv hx

theorem newConnection_eq {self : Addr} {sockfd : Int} (h : newConnection cfg s self sockfd = .ok s') :
    s' = push { s with
      nextConnId := s.nextConnId + 1
      next := (cfg.getNextLoop s.next).2
      connections := s.nextConnId :: s.connections
      ioLoop := Function.update s.ioLoop s.nextConnId (cfg.getNextLoop s.next).1
      conn := Function.update s.conn s.nextConnId (TcpConnection.new self sockfd)
      history := { s.history with
        since := Function.update s.history.since s.nextConnId 0
        sent := Function.update s.history.sent s.nextConnId []
        received := Function.update s.history.received s.nextConnId [] } } cfg.base
      [.runConnectEstablished s.nextConnId, .setCloseCallback s.nextConnId] := by
  simp only [newConnection, bind_eq_ok, pure_eq_ok, Except.ok.injEq] at h
  obtain ⟨-, -, rfl⟩ := h
  rfl

/-- A new connection is handed to its I/O loop. -/
theorem control_newConnection {self : Addr} {sockfd : Int} (h : Control s)
    (hhead : (s.threads.frames cfg.base).head? = some .acceptLoop)
    (hs : newConnection cfg s self sockfd = .ok s') : Control s' := by
  have heq := newConnection_eq hs
  have hio : ∀ c < s.nextConnId, s'.ioLoop c = s.ioLoop c := fun c hc => by
    rw [heq]
    exact Function.update_of_ne (Nat.ne_of_lt hc) ..
  have hc : Carried cfg.base s s' := ⟨fun t' _ => by rw [heq]; rfl, fun l hl => by rw [heq]; exact hl,
    fun t' _ => by rw [heq]; rfl, by rw [heq]; exact Nat.le_succ _, hio⟩
  have hplain : ∀ x ∈ (agenda s cfg.base).head?, x.Plain := by
    intro x hx
    cases hf : s.threads.frames cfg.base with
    | nil => rw [hf] at hhead; cases hhead
    | cons y frames =>
      rw [agenda, Threads.agenda, hf, List.cons_append, List.head?_cons, Option.mem_some] at hx
      rw [hf, List.head?_cons, Option.some.injEq] at hhead
      subst hx hhead
      exact .inl trivial
  obtain ⟨hm, hrest⟩ := (h.shaped cfg.base).of_plain hplain
  refine h.next h.batched (fun _ _ => rfl) (fun _ => rfl) hc (by rw [heq]; exact Grown.push _) (by simp)
    (Shaped.plain (by rw [heq]; exact hm) fun x hx => ?_) fun c hcm => ?_
  · rcases List.mem_append.mp hx with hx | hx
    · simp only [List.mem_cons, List.not_mem_nil, or_false] at hx
      have hknown : s.nextConnId < s'.nextConnId := by
        rw [heq]
        exact Nat.lt_succ_self _
      rcases hx with rfl | rfl <;>
        exact ⟨.inl trivial, fun c hc => Option.mem_some.mp hc ▸ hknown, fun hl => absurd hl id⟩
    · exact ⟨(hrest x hx).1, (hrest x hx).2.carry hc⟩
  · have hcm' : c ∈ members s cfg.base := by
      rw [heq] at hcm
      exact hcm
    obtain ⟨hlt, hbase⟩ := h.member cfg.base c hcm'
    exact ⟨hlt.trans_le hc.known, (hio c hlt).trans hbase⟩

/-- **Every step is one of four.** -/
theorem step_cases {a : Label} (hs : step cfg s a = .ok s') :
    (∃ t w r stmt th, a = .exec t w r ∧ s.threads.pop t = some (stmt, th) ∧
      run cfg { s with threads := th } t w r stmt = .ok s') ∨
    (∃ t mv th, a = .loop t mv ∧ (t = cfg.base ∨ t ∈ cfg.pool) ∧ Pollable cfg s t mv ∧
      s.threads.advance Handler.stmts t mv = .ok th ∧ s' = { s with threads := th }) ∨
    (∃ self sockfd, a = .newConnection self sockfd ∧ (s.threads.frames cfg.base).head? = some .acceptLoop ∧
      newConnection cfg s self sockfd = .ok s') ∨
    (∃ th, a = .acceptEnd ∧ s.threads.pop cfg.base = some (.acceptLoop, th) ∧ s' = { s with threads := th }) := by
  cases a with
  | loop t mv =>
    simp only [step, bind_eq_ok, enabled_eq_ok, Result.mapFault_eq_ok, pure_eq_ok, Except.ok.injEq] at hs
    obtain ⟨-, ⟨ht, hpoll⟩, th, hadv, rfl⟩ := hs
    exact .inr (.inl ⟨t, mv, th, rfl, ht, hpoll, hadv, rfl⟩)
  | exec t w r =>
    simp only [step] at hs
    split at hs
    · rename_i stmt th hp
      exact .inl ⟨t, w, r, stmt, th, rfl, hp, hs⟩
    · cases hs
  | newConnection self sockfd =>
    simp only [step, bind_eq_ok, enabled_eq_ok] at hs
    obtain ⟨-, hhead, hs⟩ := hs
    exact .inr (.inr (.inl ⟨self, sockfd, rfl, hhead, hs⟩))
  | acceptEnd =>
    simp only [step] at hs
    split at hs
    · rename_i th hp
      simp only [pure_eq_ok, Except.ok.injEq] at hs
      exact .inr (.inr (.inr ⟨th, rfl, hp, hs.symm⟩))
    · cases hs

/-- **One step.** -/
theorem control_step {a : Label} (h : Control s) (hs : step cfg s a = .ok s') : Control s' := by
  rcases step_cases hs with ⟨t, w, r, stmt, th, -, hp, hrun⟩ | ⟨t, mv, th, -, -, hpoll, hadv, rfl⟩ |
    ⟨self, sockfd, -, hhead, hnew⟩ | ⟨th, -, hp, rfl⟩
  · exact control_run h hp hrun
  · exact control_loop h hpoll hadv
  · exact control_newConnection h hhead hnew
  · have hat := h.at hp
    cases hat with
    | plain hm _ _ hrest =>
      exact control_plain h hp (Carried.of_eq rfl rfl (fun _ _ => rfl) rfl rfl)
        Grown.same hm (by simp) (by simp) hrest (h.member _)

theorem control_of_reachable (h : (chatServer cfg).Reachable s) : Control s :=
  h.invariant (I := Control) (fun s h0 => by obtain rfl := h0; exact control_start)
    (fun _ _ _ _ hI _ hs => control_step hI hs)

/-! ## The mutex is let go of -/

theorem Handler.stmts_silent {hd : Handler} {x : Stmt} (h : x ∈ hd.stmts) : x.Silent := by
  cases hd with
  | acceptor =>
    obtain rfl := List.mem_singleton.mp h
    trivial
  | connection c revents =>
    obtain ⟨callback, -, rfl⟩ := List.mem_map.mp h
    cases callback <;> trivial

/-- What is not plain is in the thread's frames: the loop's own code starts nothing of the kind. -/
theorem Control.frames_of_front (h : Control s) {rest : List Stmt} (hag : agenda s t = stmt :: rest)
    (hstmt : ¬ stmt.Plain) : ∃ stmts, s.threads.frames t = stmt :: stmts := by
  rw [agenda, Threads.agenda] at hag
  cases hframes : s.threads.frames t with
  | cons y stmts =>
    rw [hframes, List.cons_append, List.cons.injEq] at hag
    exact ⟨stmts, by rw [hag.1]⟩
  | nil =>
    exfalso
    rw [hframes, List.nil_append] at hag
    have hmem : stmt ∈ (s.threads.loops t).agenda.flatMap (stmts Handler.stmts) := by
      rw [hag]
      exact List.mem_cons_self
    obtain ⟨task, htask, hin⟩ := List.mem_flatMap.mp hmem
    cases task with
    | handler hd => exact hstmt (Handler.stmts_silent hin).plain
    | functor x =>
      obtain rfl := List.mem_singleton.mp hin
      refine hstmt (h.functors t stmt ?_)
      rcases List.mem_append.mp htask with htask | htask
      · obtain ⟨a, -, heq⟩ := List.mem_filterMap.mp htask
        cases a <;> cases heq
      · obtain ⟨_, hx, heq⟩ := List.mem_map.mp htask
        cases heq
        exact hx

/-- The thread with the mutex goes on whatever the others do. -/
theorem Control.holder_step (h : Control s) (cfg : PoolThreads) {rest : List Stmt} (hag : agenda s t = stmt :: rest)
    (hstmt : ¬ stmt.Plain) :
    ∃ th, s.threads.pop t = some (stmt, th) ∧ th.agenda Handler.stmts t = rest ∧
      step cfg s (.exec t none none) = run cfg { s with threads := th } t none none stmt := by
  obtain ⟨stmts, hframes⟩ := h.frames_of_front hag hstmt
  have hp : s.threads.pop t = some (stmt, { s.threads with frames := Function.update s.threads.frames t stmts }) := by
    simp [Threads.pop, hframes]
  have hrest := (agenda_of_pop hp).1
  rw [hag, List.cons.injEq] at hrest
  exact ⟨_, hp, hrest.2.symm, by simp only [step, hp]⟩

theorem not_plain_queueEach {loops : List ThreadId} {message : List Byte} : ¬ (Stmt.queueEach loops message).Plain := by
  rintro (h | ⟨_, h⟩)
  · exact h
  · cases h

theorem not_plain_unlock : ¬ Stmt.unlock.Plain := by
  rintro (h | ⟨_, h⟩)
  · exact h
  · cases h

/-- The holder of the mutex can give it back. -/
theorem Control.unlock_step (h : Control s) (cfg : PoolThreads) {rest : List Stmt} (hag : agenda s t = .unlock :: rest) :
    ∃ s', step cfg s (.exec t none none) = .ok s' ∧ s'.mutex = none ∧ s'.history = s.history := by
  obtain ⟨th, -, -, hs⟩ := h.holder_step cfg hag not_plain_unlock
  exact ⟨_, hs, rfl, rfl⟩

/-- The `for` has as many turns as there are loops to come; the mutex is free after them. -/
theorem Control.unlocks (h : Control s) {loops : List ThreadId} {message : List Byte} {rest : List Stmt}
    (hag : agenda s t = .queueEach loops message :: rest) :
    ∃ s', (chatServer cfg).exec s (List.replicate (loops.length + 2) (.exec t none none)) = .ok s' ∧
      s'.mutex = none ∧ s'.history = s.history := by
  induction loops generalizing s rest with
  | nil =>
    obtain ⟨th, hp, hrest, hs⟩ := h.holder_step cfg hag not_plain_queueEach
    -- behind the `for` there is the end of the block
    have hat := h.at hp
    cases hat with
    | plain _ hplain => exact absurd hplain not_plain_queueEach
    | queueEach _ _ rest' _ _ _ hbehind _ =>
      have hunlock : agenda { s with threads := th } t = .unlock :: rest' := hbehind
      obtain ⟨s', hs', hm, hhistory⟩ := (control_step h hs).unlock_step cfg hunlock
      refine ⟨s', ?_, hm, hhistory⟩
      show ((chatServer cfg).step s _ >>= fun s₁ => (chatServer cfg).step s₁ _ >>= fun s₂ => .ok s₂) = _
      rw [show (chatServer cfg).step s (.exec t none none) = .ok { s with threads := th } from hs, ok_bind,
        show (chatServer cfg).step { s with threads := th } (.exec t none none) = .ok s' from hs']
      rfl
  | cons l loops ih =>
    obtain ⟨th, hp, -, hs⟩ := h.holder_step cfg hag not_plain_queueEach
    obtain ⟨s₁, hs₁⟩ : ∃ s₁, step cfg s (.exec t none none) = .ok s₁ := ⟨_, hs⟩
    have heq : s₁ = push { s with threads := th.queueInLoop t l (.distributeMessage message) } t
        [.queueEach loops message] := Except.ok.inj (hs₁.symm.trans hs)
    have hg : Grown t th s₁.threads [.queueEach loops message]
        (fun t' => if t' = l then [.distributeMessage message] else []) := by
      rw [heq]
      exact Grown.queueEach l loops message
    have hag₁ := hg.agendas t
    rw [if_pos rfl, List.append_assoc, List.singleton_append] at hag₁
    obtain ⟨s', hs', hm, hhistory⟩ := ih (control_step h hs₁) hag₁
    refine ⟨s', ?_, hm, by rw [hhistory, heq]; rfl⟩
    show ((chatServer cfg).step s _ >>= fun s₁ => (chatServer cfg).exec s₁ _) = _
    rw [show (chatServer cfg).step s (.exec t none none) = .ok s₁ from hs₁]
    exact hs'

/-- **The mutex is never held for good**: the thread that has it gives the message to the loops and lets go,
    in its own next steps, none of which can block or fail. -/
theorem mutex_released (h : (chatServer cfg).Reachable s) (hm : s.mutex = some t) :
    ∃ n ≤ s.loops.size + 2, ∃ s', (chatServer cfg).exec s (List.replicate n (.exec t none none)) = .ok s' ∧
      s'.mutex = none ∧ s'.history = s.history := by
  have hctl := control_of_reachable h
  obtain ⟨front, rest, hag, hfront, -⟩ := hctl.shaped t
  cases hfront with
  | sends _ _ hnot => exact absurd hm hnot
  | message _ _ hnot => exact absurd hm hnot
  | queueEach loops message _ hnodup hmem =>
    have hle : loops.length ≤ s.loops.size := (List.subperm_of_subset hnodup hmem).length_le
    exact ⟨loops.length + 2, Nat.add_le_add_right hle 2, hctl.unlocks hag⟩
  | unlock _ =>
    obtain ⟨s', hs', hfree, hhistory⟩ := hctl.unlock_step cfg hag
    refine ⟨1, by omega, s', ?_, hfree, hhistory⟩
    show ((chatServer cfg).step s _ >>= fun s₁ => .ok s₁) = _
    rw [show (chatServer cfg).step s (.exec t none none) = .ok s' from hs']
    rfl

/-- One loop, which got a message from its only client. -/
theorem mutex_released_sample : ∃ s n s', s.mutex = some 0 ∧ s.history.order = [(1, [65])] ∧ n ≤ 3 ∧
    (chatServer ⟨0, [], by decide⟩).exec s (List.replicate n (.exec 0 none none)) = .ok s' ∧ s'.mutex = none := by
  obtain ⟨s, hs, hp⟩ := System.Reach.of_exec
      (S := chatServer ⟨0, [], by decide⟩) (s := start ⟨0, [], by decide⟩)
    (l := [.exec 0 none none, .exec 0 none none, .loop 0 .enter, .loop 0 .next, .loop 0 (.poll [.channel .acceptor]),
      .loop 0 .next, .newConnection 16 9, .exec 0 none none, .exec 0 none none, .exec 0 none none, .exec 0 none none,
      .acceptEnd, .loop 0 .next, .loop 0 .next, .loop 0 .next, .loop 0 .next,
      .loop 0 (.poll [.channel (.connection 1 {.POLLIN})]), .loop 0 .next, .exec 0 none (some [0, 0, 0, 1, 65]),
      .exec 0 none none, .exec 0 none none])
    (p := fun s => decide (s.mutex = some 0 ∧ s.history.order = [(1, [65])] ∧ s.loops.size = 1))
    (.init rfl) (by decide +kernel)
  rw [decide_eq_true_eq] at hp
  obtain ⟨n, hn, s', hs', hm, -⟩ := mutex_released hs hp.1
  exact ⟨s, n, s', hp.1, hp.2.1, by omega, hs', hm⟩

end HighPerformance

end Irono
