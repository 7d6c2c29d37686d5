import Irono.Example.ChatEfficient

/-!
# `Example.Correctness.CopyOnWrite` — the list behind the pointer is as good as the lock

The pointers there are, are `connections_` and those of the broadcasts that are going through their lists
(`held`); a thread that is about to change the list has the only pointer to it (`Sound`). So no assert fails,
no list changes or goes while it is read, and none is left over (`copy_on_write`). Each run is one of the
server that holds the mutex all through, with the broadcasts at the moment they got their list
(`efficient_refines`).
-/

namespace Irono

open Transition SharedPtr

namespace EfficientChat

/-- In the scope of a `MutexLockGuard`. -/
def Pc.locked : Pc → Bool
  | .testUnique _ => true
  | .reset _ => true
  | .assertUnique _ => true
  | .change _ => true
  | .unlock => true
  | .getConnectionList _ => true
  | .leave _ _ => true
  | _ => false

/-- `unique()` has been seen, or seen to. -/
def Pc.changing : Pc → Bool
  | .assertUnique _ => true
  | .change _ => true
  | _ => false

variable {cfg : PoolThreads} {s s' : EfficientChat} {t : ThreadId} {pc : Pc}

/-- The pointers of the broadcasts. -/
def held (cfg : PoolThreads) (s : EfficientChat) : List Ptr :=
  (cfg.base :: cfg.pool).filterMap fun t => (s.pc t).list

/-- Those of the threads but `t`. -/
def others (cfg : PoolThreads) (s : EfficientChat) (t : ThreadId) : List Ptr :=
  ((cfg.base :: cfg.pool).erase t).filterMap fun t => (s.pc t).list

theorem held_perm (ht : t ∈ cfg.base :: cfg.pool) : (held cfg s).Perm ((s.pc t).list.toList ++ others cfg s t) :=
  perm_filterMap ht _

/-- A step of `t` changes only the pointer that `t` has. -/
theorem held_update (ht : t ∈ cfg.base :: cfg.pool) (hpc : s'.pc = Function.update s.pc t pc) :
    (held cfg s').Perm (pc.list.toList ++ others cfg s t) := by
  have hlists : (fun t' => (s'.pc t').list) = Function.update (fun t' => (s.pc t').list) t pc.list := by
    funext t'
    rw [hpc]
    by_cases heq : t' = t
    · subst heq
      simp
    · simp [heq]
  rw [held, hlists]
  exact perm_filterMap_update cfg.nodup ht _ _

/-- **The invariant.** -/
structure Sound (cfg : PoolThreads) (s : EfficientChat) : Prop where
  counted : Counted s.lists (s.connections :: held cfg s)
  mutex : ∀ t, (s.pc t).locked = true → s.mutex = some t
  outside : ∀ t, t ∉ cfg.base :: cfg.pool → s.pc t = .outside
  unique : ∀ t, (s.pc t).changing = true → s.connections ∉ held cfg s
  iterator : ∀ t q c n, s.pc t = .forEach q (some c) n → ∃ set, s.lists.objects q = some set ∧ c ∈ set

theorem Pc.locked_of_changing (h : pc.changing = true) : pc.locked = true := by
  cases pc <;> first | rfl | cases h

theorem Sound.thread (h : Sound cfg s) (hpc : s.pc t ≠ .outside) : t ∈ cfg.base :: cfg.pool := by
  by_contra hnot
  exact hpc (h.outside t hnot)

theorem Sound.mem_held (h : Sound cfg s) {q : Ptr} (hq : (s.pc t).list = some q) : q ∈ held cfg s := by
  refine List.mem_filterMap.mpr ⟨t, h.thread fun hout => ?_, hq⟩
  rw [hout] at hq
  cases hq

/-- `connections_` points to a live list. -/
theorem Sound.get_connections (h : Sound cfg s) : ∃ set, s.lists.objects s.connections = some set :=
  h.counted.get List.mem_cons_self

/-- So does the list of a broadcast. -/
theorem Sound.get_list (h : Sound cfg s) {q : Ptr} (hq : (s.pc t).list = some q) :
    ∃ set, s.lists.objects q = some set :=
  h.counted.get (List.mem_cons_of_mem _ (h.mem_held hq))

/-- No other thread is inside when `t` is, or the mutex is free. -/
theorem Sound.alone (h : Sound cfg s) (ht : s.mutex = none ∨ s.mutex = some t) {t' : ThreadId} (hne : t' ≠ t)
    (hlocked : (s.pc t').locked = true) : False := by
  have hm := h.mutex t' hlocked
  rcases ht with hfree | hmine
  · rw [hfree] at hm
    cases hm
  · rw [hmine] at hm
    exact hne (Option.some.inj hm).symm

/-- What a piece of thread `t` has to see to. -/
structure Piece (cfg : PoolThreads) (s s' : EfficientChat) (t : ThreadId) (pc : Pc) : Prop where
  goes : s'.pc = Function.update s.pc t pc
  counted : Counted s'.lists (s'.connections :: (pc.list.toList ++ others cfg s t))
  mutex : pc.locked = true → s'.mutex = some t
  lock : s'.mutex = s.mutex ∨ s.mutex = none ∨ s.mutex = some t
  /-- a list that is in use gets no new pointer outside the mutex -/
  quiet : s.mutex = none ∨ s.mutex = some t ∨
    s'.connections = s.connections ∧ ∀ q ∈ pc.list.toList, q ∈ (s.pc t).list.toList
  unique : pc.changing = true → s'.connections ∉ pc.list.toList ++ others cfg s t
  iterator : ∀ q c n, pc = .forEach q (some c) n → ∃ set, s'.lists.objects q = some set ∧ c ∈ set
  kept : ∀ q ∈ others cfg s t, s'.lists.objects q = s.lists.objects q

theorem mem_others (h : Sound cfg s) {t' : ThreadId} (hne : t' ≠ t) {q : Ptr} (hq : (s.pc t').list = some q) :
    q ∈ others cfg s t := by
  refine List.mem_filterMap.mpr ⟨t', (List.mem_erase_of_ne hne).mpr (h.thread fun hout => ?_), hq⟩
  rw [hout] at hq
  cases hq

theorem Piece.pc_self (hp : Piece cfg s s' t pc) : s'.pc t = pc := by rw [hp.goes, Function.update_self]

theorem Piece.pc_of_ne (hp : Piece cfg s s' t pc) {t' : ThreadId} (hne : t' ≠ t) : s'.pc t' = s.pc t' := by
  rw [hp.goes, Function.update_of_ne hne]

/-- **A piece** of one thread keeps the invariant. -/
theorem Sound.next (h : Sound cfg s) (ht : t ∈ cfg.base :: cfg.pool) (hp : Piece cfg s s' t pc) : Sound cfg s' := by
  have hheld := held_update ht hp.goes
  refine ⟨hp.counted.perm (hheld.symm.cons _), fun t' hlocked => ?_, fun t' hnot => ?_, fun t' hchanging => ?_,
    fun t' q c n hfor => ?_⟩
  · by_cases hne : t' = t
    · subst hne
      rw [hp.pc_self] at hlocked
      exact hp.mutex hlocked
    · rw [hp.pc_of_ne hne] at hlocked
      rcases hp.lock with hsame | halone
      · rw [hsame]
        exact h.mutex t' hlocked
      · exact (h.alone halone hne hlocked).elim
  · have hne : t' ≠ t := fun heq => hnot (heq ▸ ht)
    rw [hp.pc_of_ne hne]
    exact h.outside t' hnot
  · rw [hheld.mem_iff]
    by_cases hne : t' = t
    · subst hne
      rw [hp.pc_self] at hchanging
      exact hp.unique hchanging
    · rw [hp.pc_of_ne hne] at hchanging
      rcases hp.quiet with hfree | hmine | ⟨hsame, hsub⟩
      · exact (h.alone (.inl hfree) hne (Pc.locked_of_changing hchanging)).elim
      · exact (h.alone (.inr hmine) hne (Pc.locked_of_changing hchanging)).elim
      · have hnot := h.unique t' hchanging
        rw [(held_perm ht).mem_iff] at hnot
        rw [hsame]
        intro hin
        refine hnot (List.mem_append.mpr ?_)
        exact (List.mem_append.mp hin).imp_left (hsub _)
  · by_cases hne : t' = t
    · subst hne
      rw [hp.pc_self] at hfor
      exact hp.iterator q c n hfor
    · rw [hp.pc_of_ne hne] at hfor
      obtain ⟨set, hset, hc⟩ := h.iterator t' q c n hfor
      refine ⟨set, ?_, hc⟩
      rw [hp.kept q (mem_others h hne (by rw [hfor]; rfl)), hset]

/-- The number of the broadcast. -/
def Pc.broadcast : Pc → Option Nat
  | .leave _ n => some n
  | .begin _ n => some n
  | .forEach _ _ n => some n
  | _ => none

/-- To whom of its list it has still to be sent. -/
def Pc.toSend (set : OrderedSet ConnId) : Pc → List ConnId
  | .leave _ _ => set.elems
  | .begin _ _ => set.elems
  | .forEach _ it _ => set.fromIt it
  | _ => []

/-! ## The pieces -/

/-- A piece that leaves the lists alone. -/
theorem Sound.piece_goTo (h : Sound cfg s) (ht : t ∈ cfg.base :: cfg.pool) (hlists : s'.lists = s.lists)
    (hconnections : s'.connections = s.connections) (hpc : s'.pc = Function.update s.pc t pc)
    (hlist : pc.list = (s.pc t).list) (hmutex : pc.locked = true → s'.mutex = some t)
    (hlock : s'.mutex = s.mutex ∨ s.mutex = none ∨ s.mutex = some t)
    (hunique : pc.changing = true → s.connections ∉ held cfg s)
    (hiterator : ∀ q c n, pc = .forEach q (some c) n → ∃ set, s'.lists.objects q = some set ∧ c ∈ set) :
    Piece cfg s s' t pc := by
  have hheld : (held cfg s).Perm (pc.list.toList ++ others cfg s t) := hlist ▸ held_perm ht
  refine ⟨hpc, ?_, hmutex, hlock, .inr (.inr ⟨hconnections, fun q hq => hlist ▸ hq⟩), fun hchanging => ?_,
    hiterator, fun q _ => by rw [hlists]⟩
  · rw [hlists, hconnections]
    exact h.counted.perm (hheld.cons _)
  · rw [hconnections, ← hheld.mem_iff]
    exact hunique hchanging

theorem get_eq_ok {q : Ptr} {set : OrderedSet ConnId} : s.get q = .ok set ↔ s.lists.objects q = some set := by
  unfold get
  cases s.lists.objects q <;> simp

/-- `connections_.reset(new ConnectionList(*connections_))`: the broadcasts keep the old list. -/
theorem piece_reset {conn : ConnId} {p : Ptr} (h : Sound cfg s) (ht : t ∈ cfg.base :: cfg.pool)
    (hpc : s.pc t = .reset conn) (hs : s.reset p = .ok s') :
    Piece cfg s (s'.goTo t (.assertUnique conn)) t (.assertUnique conn) ∧
      s'.lists.objects s'.connections = s.lists.objects s.connections ∧
      s'.broadcasts = s.broadcasts ∧ s'.sent = s.sent := by
  simp only [reset, bind_eq_ok, enabled_eq_ok, get_eq_ok, pure_eq_ok, Except.ok.injEq] at hs
  obtain ⟨-, hfree, set, hset, rfl⟩ := hs
  have hheld : (held cfg s).Perm (others cfg s t) := by simpa [hpc, Pc.list] using held_perm (s := s) ht
  have hcounted := h.counted.perm (hheld.cons s.connections)
  have hmade := (hcounted.make hfree (a := set)).perm (List.Perm.swap _ _ _)
  have hne : p ≠ s.connections := fun heq => hcounted.not_mem_of_none hfree (heq ▸ List.mem_cons_self)
  refine ⟨⟨rfl, hmade.drop, fun _ => h.mutex t (by rw [hpc]; rfl), .inl rfl,
    .inr (.inl (h.mutex t (by rw [hpc]; rfl))), fun _ => ?_, by simp, fun q hq => ?_⟩, ?_, rfl, rfl⟩
  · exact fun hin => hcounted.not_mem_of_none hfree (List.mem_cons_of_mem _ hin)
  · refine (hmade.objects_drop (List.mem_cons_of_mem _ hq)).trans ?_
    exact hcounted.objects_make hfree (List.mem_cons_of_mem _ hq)
  · refine (hmade.objects_drop List.mem_cons_self).trans ?_
    rw [hset]
    exact Function.update_self ..

/-- The list is changed when no broadcast has it. -/
theorem piece_change {conn : ConnId} {up : Bool} (h : Sound cfg s) (ht : t ∈ cfg.base :: cfg.pool)
    (hpc : s.pc t = .change conn) (hs : s.change conn up = .ok s') :
    Piece cfg s (s'.goTo t .unlock) t .unlock ∧ s'.broadcasts = s.broadcasts ∧ s'.sent = s.sent ∧
      s'.connections = s.connections ∧ ∃ set, s.lists.objects s.connections = some set ∧
        s'.lists.objects s.connections = some (if up then set.insert conn else set.erase conn) := by
  simp only [change, bind_eq_ok, get_eq_ok, pure_eq_ok, Except.ok.injEq] at hs
  obtain ⟨set, hset, rfl⟩ := hs
  have hheld : (held cfg s).Perm (others cfg s t) := by simpa [hpc, Pc.list] using held_perm (s := s) ht
  have hcounted := h.counted.perm (hheld.cons s.connections)
  have hunique := h.unique t (by rw [hpc]; rfl)
  refine ⟨⟨rfl, hcounted.write List.mem_cons_self, fun _ => h.mutex t (by rw [hpc]; rfl), .inl rfl,
    .inr (.inl (h.mutex t (by rw [hpc]; rfl))), by simp [Pc.changing], by simp, fun q hq => ?_⟩, rfl, rfl, rfl,
    set, hset, Function.update_self ..⟩
  exact Counted.objects_write hunique (hheld.mem_iff.mpr hq)

/-- `getConnectionList` is one more pointer to the list. -/
theorem piece_getConnectionList {message : List Byte} (h : Sound cfg s) (ht : t ∈ cfg.base :: cfg.pool)
    (hpc : s.pc t = .getConnectionList message)
    (heq : s' = { s with lists := s.lists.copy s.connections, broadcasts := s.broadcasts ++ [message] }.goTo t
      (.leave s.connections s.broadcasts.length)) : Piece cfg s s' t (.leave s.connections s.broadcasts.length) := by
  have hheld : (held cfg s).Perm (others cfg s t) := by simpa [hpc, Pc.list] using held_perm (s := s) ht
  have hcounted := h.counted.perm (hheld.cons s.connections)
  have hmutex := h.mutex t (by rw [hpc]; rfl)
  subst heq
  exact ⟨rfl, hcounted.copy List.mem_cons_self, fun _ => hmutex, .inl rfl, .inr (.inl hmutex), by simp [Pc.changing],
    by simp, fun _ _ => rfl⟩

/-- The end of the `for` lets go of it. -/
theorem piece_done {q : Ptr} {n : Nat} (h : Sound cfg s) (ht : t ∈ cfg.base :: cfg.pool)
    (hpc : s.pc t = .forEach q none n) (heq : s' = { s with lists := s.lists.drop q }.goTo t .outside) :
    Piece cfg s s' t .outside ∧ s'.lists.objects s.connections = s.lists.objects s.connections := by
  have hheld : (held cfg s).Perm (q :: others cfg s t) := by simpa [hpc, Pc.list] using held_perm (s := s) ht
  have hcounted := (h.counted.perm (hheld.cons s.connections)).perm (List.Perm.swap _ _ _)
  subst heq
  exact ⟨⟨rfl, hcounted.drop, by simp [Pc.locked], .inl rfl, .inr (.inr ⟨rfl, by simp [Pc.list]⟩),
    by simp [Pc.changing],
    by simp, fun r hr => hcounted.objects_drop (List.mem_cons_of_mem _ hr)⟩, hcounted.objects_drop List.mem_cons_self⟩

/-! ## Every step -/

/-- What is to be seen of a piece of thread `t`. -/
inductive Effect (s s' : EfficientChat) (t : ThreadId) : Pc → Prop
  | quiet {pc : Pc} : (s.pc t).list = none → pc.list = none →
      s'.lists.objects s'.connections = s.lists.objects s.connections → s'.broadcasts = s.broadcasts →
      s'.sent = s.sent → Effect s s' t pc
  /-- in a broadcast, which is sent to `conns` -/
  | going {pc : Pc} (q : Ptr) (n : Nat) (set : OrderedSet ConnId) (conns : List ConnId) : (s.pc t).list = some q →
      pc.list = some q → (s.pc t).broadcast = some n → pc.broadcast = some n → s'.lists = s.lists →
      s'.connections = s.connections → s'.broadcasts = s.broadcasts → s.lists.objects q = some set →
      s'.sent = Function.update s.sent n (s.sent n ++ conns) →
      (s.pc t).toSend set = conns ++ pc.toSend set → Effect s s' t pc
  | change (conn : ConnId) (up : Bool) (set : OrderedSet ConnId) : (s.pc t).list = none →
      s.lists.objects s.connections = some set →
      s'.lists.objects s'.connections = some (if up then set.insert conn else set.erase conn) →
      s'.broadcasts = s.broadcasts → s'.sent = s.sent → Effect s s' t .unlock
  | getConnectionList (message : List Byte) : (s.pc t).list = none →
      s'.lists.objects = s.lists.objects → s'.connections = s.connections →
      s'.broadcasts = s.broadcasts ++ [message] → s'.sent = s.sent →
      Effect s s' t (.leave s.connections s.broadcasts.length)
  | done (q : Ptr) (n : Nat) : s.pc t = .forEach q none n →
      s'.lists.objects s'.connections = s.lists.objects s.connections → s'.broadcasts = s.broadcasts →
      s'.sent = s.sent → Effect s s' t .outside

/-- Its own list stays too while it has it. -/
theorem Effect.own (h : Effect s s' t pc) : (s.pc t).list = none ∨ pc.list = none ∨ s'.lists = s.lists := by
  cases h with
  | quiet hnone => exact .inl hnone
  | going _ _ _ _ _ _ _ _ hlists => exact .inr (.inr hlists)
  | change _ _ _ hnone => exact .inl hnone
  | getConnectionList _ hnone => exact .inl hnone
  | done => exact .inr (.inl rfl)

/-- What a thread executes is a piece. -/
theorem exec_piece {up : Bool} {p : Ptr} (h : Sound cfg s) (hs : s.exec t up p = .ok s') :
    t ∈ cfg.base :: cfg.pool ∧ ∃ pc, Piece cfg s s' t pc ∧ Effect s s' t pc := by
  unfold exec at hs
  have ht : t ∈ cfg.base :: cfg.pool := by
    refine h.thread fun hpc => ?_
    rw [hpc] at hs
    cases hs
  refine ⟨ht, ?_⟩
  cases hpc : s.pc t with
  | outside =>
    rw [hpc] at hs
    cases hs
  | onConnection conn =>
    simp only [hpc, bind_eq_ok, enabled_eq_ok, pure_eq_ok, Except.ok.injEq] at hs
    obtain ⟨-, hfree, rfl⟩ := hs
    exact ⟨_, h.piece_goTo ht rfl rfl rfl (by rw [hpc]; rfl) (fun _ => rfl) (.inr (.inl hfree)) (by simp [Pc.changing])
      (by simp), .quiet (by rw [hpc]; rfl) rfl rfl rfl rfl⟩
  | testUnique conn =>
    simp only [hpc, pure_eq_ok, Except.ok.injEq] at hs
    subst hs
    have hmutex := h.mutex t (by rw [hpc]; rfl)
    split
    · rename_i hunique
      exact ⟨_, h.piece_goTo ht rfl rfl rfl (by rw [hpc]; rfl) (fun _ => hmutex) (.inl rfl)
        (fun _ => h.counted.unique_iff.mp hunique) (by simp), .quiet (by rw [hpc]; rfl) rfl rfl rfl rfl⟩
    · exact ⟨_, h.piece_goTo ht rfl rfl rfl (by rw [hpc]; rfl) (fun _ => hmutex) (.inl rfl) (by simp [Pc.changing])
        (by simp), .quiet (by rw [hpc]; rfl) rfl rfl rfl rfl⟩
  | reset conn =>
    simp only [hpc, bind_eq_ok, pure_eq_ok, Except.ok.injEq] at hs
    obtain ⟨s₁, hreset, rfl⟩ := hs
    obtain ⟨hp, hset, hbroadcasts, hsent⟩ := piece_reset h ht hpc hreset
    exact ⟨_, hp, .quiet (by rw [hpc]; rfl) rfl hset hbroadcasts hsent⟩
  | assertUnique conn =>
    simp only [hpc, bind_eq_ok, require_eq_ok, pure_eq_ok, Except.ok.injEq] at hs
    obtain ⟨-, -, rfl⟩ := hs
    exact ⟨_, h.piece_goTo ht rfl rfl rfl (by rw [hpc]; rfl) (fun _ => h.mutex t (by rw [hpc]; rfl)) (.inl rfl)
      (fun _ => h.unique t (by rw [hpc]; rfl)) (by simp), .quiet (by rw [hpc]; rfl) rfl rfl rfl rfl⟩
  | change conn =>
    simp only [hpc, bind_eq_ok, pure_eq_ok, Except.ok.injEq] at hs
    obtain ⟨s₁, hchange, rfl⟩ := hs
    obtain ⟨hp, hbroadcasts, hsent, hconnections, set, hset, hset'⟩ := piece_change h ht hpc hchange
    exact ⟨_, hp, .change conn up set (by rw [hpc]; rfl) hset (hconnections.symm ▸ hset') hbroadcasts hsent⟩
  | unlock =>
    simp only [hpc, pure_eq_ok, Except.ok.injEq] at hs
    subst hs
    exact ⟨_, h.piece_goTo ht rfl rfl rfl (by rw [hpc]; rfl) (by simp [Pc.locked])
      (.inr (.inr (h.mutex t (by rw [hpc]; rfl)))) (by simp [Pc.changing]) (by simp),
      .quiet (by rw [hpc]; rfl) rfl rfl rfl rfl⟩
  | onStringMessage message =>
    simp only [hpc, bind_eq_ok, enabled_eq_ok, pure_eq_ok, Except.ok.injEq] at hs
    obtain ⟨-, hfree, rfl⟩ := hs
    exact ⟨_, h.piece_goTo ht rfl rfl rfl (by rw [hpc]; rfl) (fun _ => rfl) (.inr (.inl hfree)) (by simp [Pc.changing])
      (by simp), .quiet (by rw [hpc]; rfl) rfl rfl rfl rfl⟩
  | getConnectionList message =>
    simp only [hpc, pure_eq_ok, Except.ok.injEq] at hs
    refine ⟨_, piece_getConnectionList h ht hpc hs.symm, .getConnectionList message (by rw [hpc]; rfl) ?_ ?_ ?_ ?_⟩ <;>
      rw [← hs] <;> rfl
  | leave q n =>
    simp only [hpc, pure_eq_ok, Except.ok.injEq] at hs
    subst hs
    obtain ⟨set, hset⟩ := h.get_list (t := t) (q := q) (by rw [hpc]; rfl)
    exact ⟨_, h.piece_goTo ht rfl rfl rfl (by rw [hpc]; rfl) (by simp [Pc.locked])
      (.inr (.inr (h.mutex t (by rw [hpc]; rfl)))) (by simp [Pc.changing]) (by simp),
      .going q n set [] (by rw [hpc]; rfl) rfl (by rw [hpc]; rfl) rfl rfl rfl rfl hset (by simp [goTo])
      (by rw [hpc]; rfl)⟩
  | begin q n =>
    simp only [hpc, bind_eq_ok, get_eq_ok, pure_eq_ok, Except.ok.injEq] at hs
    obtain ⟨set, hset, rfl⟩ := hs
    refine ⟨_, h.piece_goTo ht rfl rfl rfl (by rw [hpc]; rfl) (by simp [Pc.locked]) (.inl rfl) (by simp [Pc.changing])
      (fun q' c n' heq => ?_), .going q n set [] (by rw [hpc]; rfl) rfl (by rw [hpc]; rfl) rfl rfl rfl rfl hset
        (by simp [goTo]) (by rw [hpc]; exact set.fromIt_min?.symm)⟩
    simp only [Pc.forEach.injEq] at heq
    obtain ⟨rfl, hmin, -⟩ := heq
    exact ⟨set, hset, OrderedSet.mem_of_min? hmin⟩
  | forEach q it n =>
    cases it with
    | none =>
      simp only [hpc, pure_eq_ok, Except.ok.injEq] at hs
      obtain ⟨hp, hset⟩ := piece_done h ht hpc hs.symm
      refine ⟨_, hp, .done q n hpc ?_ ?_ ?_⟩
      · rw [← hset, ← hs]
        rfl
      · rw [← hs]
        rfl
      · rw [← hs]
        rfl
    | some c =>
      simp only [hpc, turn, bind_eq_ok, get_eq_ok, require_eq_ok, pure_eq_ok, Except.ok.injEq] at hs
      obtain ⟨set, hset, -, hc, rfl⟩ := hs
      refine ⟨_, h.piece_goTo ht rfl rfl rfl (by rw [hpc]; rfl) (by simp [Pc.locked]) (.inl rfl) (by simp [Pc.changing])
        (fun q' c' n' heq => ?_), .going q n set [c] (by rw [hpc]; rfl) rfl (by rw [hpc]; rfl) rfl rfl rfl rfl hset rfl
          (by rw [hpc]; exact OrderedSet.fromIt_of_mem hc)⟩
      simp only [Pc.forEach.injEq] at heq
      obtain ⟨rfl, hnext, -⟩ := heq
      exact ⟨set, hset, OrderedSet.mem_of_next? hnext⟩

/-- A call starts outside. -/
theorem piece_call (h : Sound cfg s) (ht : t ∈ cfg.base :: cfg.pool) (hpc : s.pc t = .outside) (hlist : pc.list = none)
    (hlocked : pc.locked = false) (hfor : ∀ q it n, pc ≠ .forEach q it n) : Piece cfg s (s.goTo t pc) t pc := by
  have hchanging : pc.changing ≠ true := fun hc => by
    have hl := Pc.locked_of_changing hc
    rw [hlocked] at hl
    cases hl
  exact h.piece_goTo ht rfl rfl rfl (by rw [hpc, hlist]; rfl) (by simp [hlocked]) (.inl rfl)
    (fun hc => absurd hc hchanging) (fun q c n heq => absurd heq (hfor q _ n))

/-- **What a step can do.** -/
theorem step_piece {a : Label} (h : Sound cfg s) (hs : step cfg s a = .ok s') :
    ∃ t pc, t ∈ cfg.base :: cfg.pool ∧ Piece cfg s s' t pc ∧ Effect s s' t pc := by
  cases a with
  | onConnection t conn =>
    simp only [step, bind_eq_ok, enabled_eq_ok, pure_eq_ok, Except.ok.injEq] at hs
    obtain ⟨-, ⟨ht, hpc⟩, rfl⟩ := hs
    exact ⟨t, _, ht, piece_call h ht hpc rfl rfl (by simp), .quiet (by rw [hpc]; rfl) rfl rfl rfl rfl⟩
  | onStringMessage t message =>
    simp only [step, bind_eq_ok, enabled_eq_ok, pure_eq_ok, Except.ok.injEq] at hs
    obtain ⟨-, ⟨ht, hpc⟩, rfl⟩ := hs
    exact ⟨t, _, ht, piece_call h ht hpc rfl rfl (by simp), .quiet (by rw [hpc]; rfl) rfl rfl rfl rfl⟩
  | exec t up p =>
    obtain ⟨ht, pc, hp, heffect⟩ := exec_piece h hs
    exact ⟨t, pc, ht, hp, heffect⟩

/-- **One step.** -/
theorem sound_step {a : Label} (h : Sound cfg s) (hs : step cfg s a = .ok s') : Sound cfg s' := by
  obtain ⟨t, pc, ht, hp, -⟩ := step_piece h hs
  exact h.next ht hp

theorem sound_start (p : Ptr) : Sound cfg (start p) := by
  have hheld : held cfg (start p) = [] := List.filterMap_eq_nil_iff.mpr fun _ _ => rfl
  refine ⟨?_, fun t ht => absurd ht (by simp [start, Pc.locked]), fun t _ => rfl,
    fun t ht => absurd ht (by simp [start, Pc.changing]), fun t q c n hpc => absurd hpc (by simp [start])⟩
  rw [hheld]
  exact Counted.empty.make rfl

theorem sound_of_reachable (h : (efficientChat cfg).Reachable s) : Sound cfg s :=
  h.invariant (I := Sound cfg) (fun s h0 => by obtain ⟨p, rfl⟩ := h0; exact sound_start p)
    (fun _ _ _ _ hI _ hs => sound_step hI hs)

theorem get_ok {q : Ptr} {set : OrderedSet ConnId} (hset : s.lists.objects q = some set) : s.get q = .ok set :=
  get_eq_ok.mpr hset

/-- No pointer dangles, and `assert(connections_.unique())` holds. -/
theorem Sound.exec_noFault {up : Bool} {p : Ptr} (h : Sound cfg s) (f : Fault) : s.exec t up p ≠ .error (.fault f) := by
  intro hs
  obtain ⟨set, hset⟩ := h.get_connections
  unfold exec at hs
  cases hpc : s.pc t with
  | reset conn => simp [hpc, reset, get_ok hset, bind_eq_error, enabled_eq_error] at hs
  | assertUnique conn =>
    have hunique := h.counted.unique_iff.mpr (h.unique t (by rw [hpc]; rfl))
    simp [hpc, bind_eq_error, require_eq_error, hunique] at hs
  | change conn => simp [hpc, change, get_ok hset] at hs
  | begin q n =>
    obtain ⟨list, hlist⟩ := h.get_list (t := t) (q := q) (by rw [hpc]; rfl)
    simp [hpc, get_ok hlist] at hs
  | forEach q it n =>
    cases it with
    | none => simp [hpc] at hs
    | some c =>
      obtain ⟨list, hlist, hc⟩ := h.iterator t q c n hpc
      simp [hpc, turn, get_ok hlist, bind_eq_error, require_eq_error, hc] at hs
  | _ => simp [hpc, bind_eq_error, enabled_eq_error] at hs

/-- What copying the list before changing it is for. -/
structure CopyOnWrite (cfg : PoolThreads) (s : EfficientChat) : Prop where
  /-- `assert(connections_.unique())` holds, and no list that has been destroyed is used -/
  noFault : ∀ a f, step cfg s a ≠ .error (.fault f)
  /-- no list is changed or destroyed as long as a broadcast has it -/
  kept : ∀ a s', step cfg s a = .ok s' → ∀ t q, (s.pc t).list = some q → (s'.pc t).list = some q →
    s'.lists.objects q = s.lists.objects q
  /-- none is left over -/
  noLeak : ∀ q, (s.lists.objects q).isSome ↔ q = s.connections ∨ ∃ t, (s.pc t).list = some q

/-- **Copy on write is safe** for any threads and in any order of their pieces. -/
theorem copy_on_write (h : (efficientChat cfg).Reachable s) : CopyOnWrite cfg s := by
  have hsound := sound_of_reachable h
  refine ⟨fun a f hs => ?_, fun a s' hs t' q hq hq' => ?_, fun q => ?_⟩
  · cases a with
    | onConnection t conn => simp [step, bind_eq_error, enabled_eq_error] at hs
    | onStringMessage t message => simp [step, bind_eq_error, enabled_eq_error] at hs
    | exec t up p => exact hsound.exec_noFault f hs
  · obtain ⟨t, pc, -, hp, heffect⟩ := step_piece hsound hs
    by_cases hne : t' = t
    · subst hne
      rw [hp.pc_self] at hq'
      rcases heffect.own with hnone | hnone | hsame
      · rw [hnone] at hq
        cases hq
      · rw [hnone] at hq'
        cases hq'
      · rw [hsame]
    · exact hp.kept q (mem_others hsound hne hq)
  · rw [hsound.counted.present, List.mem_cons]
    refine or_congr_right ⟨fun hin => ?_, fun hholder => ?_⟩
    · obtain ⟨t, -, hq⟩ := List.mem_filterMap.mp hin
      exact ⟨t, hq⟩
    · obtain ⟨t, hq⟩ := hholder
      exact hsound.mem_held hq

/-- Thread 2 makes a new list while thread 1 is going through the old one. -/
theorem copy_on_write_sample : ∃ s, s.connections = 8 ∧ s.pc 1 = .forEach 7 (some 5) 0 ∧ s.pc 2 = .change 6 ∧
    CopyOnWrite ⟨0, [1, 2], by decide⟩ s := by
  obtain ⟨s, hs, hp⟩ := System.Reach.of_exec (S := efficientChat ⟨0, [1, 2], by decide⟩) (s := start 7)
    (l := [.onConnection 1 5, .exec 1 true 0, .exec 1 true 0, .exec 1 true 0, .exec 1 true 0, .exec 1 true 0,
      .onStringMessage 1 [65], .exec 1 true 0, .exec 1 true 0, .exec 1 true 0, .exec 1 true 0,
      .onConnection 2 6, .exec 2 true 0, .exec 2 true 0, .exec 2 true 8, .exec 2 true 0])
    (p := fun s => decide (s.connections = 8 ∧ s.pc 1 = .forEach 7 (some 5) 0 ∧ s.pc 2 = .change 6))
    (.init ⟨7, rfl⟩) (by decide +kernel)
  rw [decide_eq_true_eq] at hp
  exact ⟨s, hp.1, hp.2.1, hp.2.2, copy_on_write hs⟩

/-! ## The server with the lock -/

/-- A broadcast under way: what was sent and what is to be sent is the list of the other server. -/
structure Under (s : EfficientChat) (p : ThreadedChat) (t : ThreadId) (n : Nat) : Prop where
  number : n < s.broadcasts.length
  sends : ∃ q set, (s.pc t).list = some q ∧ s.lists.objects q = some set ∧ set.elems = p.sent n ∧
    s.sent n ++ (s.pc t).toSend set = p.sent n

/-- **The relation** to a state of the server that holds the mutex all through. -/
structure Matches (s : EfficientChat) (p : ThreadedChat) : Prop where
  connections : s.lists.objects s.connections = some p.connections
  broadcasts : s.broadcasts = p.broadcasts
  under : ∀ t n, (s.pc t).broadcast = some n → Under s p t n
  one : ∀ t t' n, (s.pc t).broadcast = some n → (s.pc t').broadcast = some n → t = t'
  finished : ∀ n, (∀ t, (s.pc t).broadcast ≠ some n) → s.sent n = p.sent n
  fresh : ∀ n, p.broadcasts.length ≤ n → p.sent n = []

variable {p p' : ThreadedChat}

/-- A broadcast of another thread does not notice. -/
theorem Under.frame {n : Nat} {t' : ThreadId} (hu : Under s p t' n) (h : Sound cfg s) (hp : Piece cfg s s' t pc)
    (hne : t' ≠ t)
    (hbroadcasts : s.broadcasts.length ≤ s'.broadcasts.length) (hsent : s'.sent n = s.sent n)
    (hother : p'.sent n = p.sent n) : Under s' p' t' n := by
  obtain ⟨hnumber, q, set, hlist, hset, helems, hsum⟩ := hu
  refine ⟨hnumber.trans_le hbroadcasts, q, set, ?_, ?_, ?_, ?_⟩
  · rw [hp.pc_of_ne hne, hlist]
  · rw [hp.kept q (mem_others h hne hlist), hset]
  · rw [hother, helems]
  · rw [hp.pc_of_ne hne, hsent, hother, hsum]

/-- A piece of thread `t`, and what the other server does. -/
theorem Matches.next (hm : Matches s p) (h : Sound cfg s) (hp : Piece cfg s s' t pc)
    (hconnections : s'.lists.objects s'.connections = some p'.connections) (hbroadcasts : s'.broadcasts = p'.broadcasts)
    (hle : s.broadcasts.length ≤ s'.broadcasts.length)
    (hothers : ∀ t' n, t' ≠ t → (s.pc t').broadcast = some n → s'.sent n = s.sent n ∧ p'.sent n = p.sent n)
    (hunder : ∀ n, pc.broadcast = some n → Under s' p' t n)
    (hone : ∀ t' n, t' ≠ t → pc.broadcast = some n → (s.pc t').broadcast ≠ some n)
    (hfinished : ∀ n, (∀ t', t' ≠ t → (s.pc t').broadcast ≠ some n) → pc.broadcast ≠ some n →
      s'.sent n = p'.sent n)
    (hfresh : ∀ n, p'.broadcasts.length ≤ n → p'.sent n = []) : Matches s' p' := by
  refine ⟨hconnections, hbroadcasts, fun t' n hn => ?_, fun t₁ t₂ n h₁ h₂ => ?_, fun n hn => ?_, hfresh⟩
  · by_cases hne : t' = t
    · rw [hne, hp.pc_self] at hn
      rw [hne]
      exact hunder n hn
    · rw [hp.pc_of_ne hne] at hn
      obtain ⟨hsent, hother⟩ := hothers t' n hne hn
      exact (hm.under t' n hn).frame h hp hne hle hsent hother
  · by_cases hne₁ : t₁ = t
    · by_cases hne₂ : t₂ = t
      · rw [hne₁, hne₂]
      · rw [hne₁, hp.pc_self] at h₁
        rw [hp.pc_of_ne hne₂] at h₂
        exact absurd h₂ (hone t₂ n hne₂ h₁)
    · rw [hp.pc_of_ne hne₁] at h₁
      by_cases hne₂ : t₂ = t
      · rw [hne₂, hp.pc_self] at h₂
        exact absurd h₁ (hone t₁ n hne₁ h₂)
      · rw [hp.pc_of_ne hne₂] at h₂
        exact hm.one t₁ t₂ n h₁ h₂
  · refine hfinished n (fun t' hne => ?_) ?_
    · have hn' := hn t'
      rwa [hp.pc_of_ne hne] at hn'
    · have hn' := hn t
      rwa [hp.pc_self] at hn'

theorem Pc.broadcast_of_list (h : pc.list = none) : pc.broadcast = none := by
  cases pc <;> first | rfl | cases h

/-- Broadcasts of one number are of one thread. -/
theorem Matches.alone (hm : Matches s p) {n : Nat} (ht : (s.pc t).broadcast = some n) {t' : ThreadId} (hne : t' ≠ t) :
    (s.pc t').broadcast ≠ some n := fun h' => hne (hm.one t' t n h' ht)

/-- A piece outside the broadcasts. -/
theorem Matches.silent (hm : Matches s p) (h : Sound cfg s) (hp : Piece cfg s s' t pc) (hlist : (s.pc t).list = none)
    (hlist' : pc.list = none) (hconnections : s'.lists.objects s'.connections = some p'.connections)
    (hbroadcasts : s'.broadcasts = s.broadcasts) (hother : p'.broadcasts = p.broadcasts) (hsent : s'.sent = s.sent)
    (hsent' : p'.sent = p.sent) : Matches s' p' := by
  have hnone := Pc.broadcast_of_list hlist'
  refine hm.next h hp hconnections (by rw [hbroadcasts, hother, hm.broadcasts]) (by rw [hbroadcasts])
    (fun _ n _ _ => ⟨by rw [hsent], by rw [hsent']⟩) (fun n hn => ?_) (fun _ n _ hn => ?_) (fun n hn _ => ?_) ?_
  · rw [hnone] at hn
    cases hn
  · rw [hnone] at hn
    cases hn
  · rw [hsent, hsent']
    refine hm.finished n fun t' => ?_
    by_cases hne : t' = t
    · rw [hne, Pc.broadcast_of_list hlist]
      simp
    · exact hn t' hne
  · rw [hother, hsent']
    exact hm.fresh

/-- **Each piece is matched**: a change of the list by `onConnection`, and the copy of its pointer by the whole of
    `onStringMessage`. -/
theorem matches_piece (hm : Matches s p) (h : Sound cfg s) (hp : Piece cfg s s' t pc) (heffect : Effect s s' t pc) :
    Matches s' p ∨ ∃ b p', threadedChat.step p b = .ok p' ∧ Matches s' p' := by
  cases heffect with
  | quiet hlist hlist' hset hbroadcasts hsent =>
    exact .inl (hm.silent h hp hlist hlist' (hset.trans hm.connections) hbroadcasts rfl hsent rfl)
  | change conn up set hlist hset hset' hbroadcasts hsent =>
    have hconnections : set = p.connections := Option.some.inj (hset.symm.trans hm.connections)
    refine .inr ⟨.onConnection conn up, p.onConnection conn up, rfl,
      hm.silent h hp hlist rfl ?_ hbroadcasts rfl hsent rfl⟩
    rw [hset', hconnections]
    rfl
  -- one `send` of a broadcast, which the plain server has made with the others
  | going q n set conns hlist hlist' hn hn' hlists hconnections hbroadcasts hset hsent hsend =>
    obtain ⟨hnumber, q', set', hlist₂, hset₂, helems, hsum⟩ := hm.under t n hn
    obtain rfl := Option.some.inj (hlist.symm.trans hlist₂)
    obtain rfl := Option.some.inj (hset.symm.trans hset₂)
    have hother : ∀ n', n' ≠ n → s'.sent n' = s.sent n' := fun n' hne => by rw [hsent, Function.update_of_ne hne]
    refine .inl (hm.next h hp ?_ (by rw [hbroadcasts, hm.broadcasts]) (by rw [hbroadcasts])
      (fun t' n' hne hn₂ => ⟨?_, rfl⟩)
      (fun n' hn₂ => ?_) (fun t' n' hne hn₂ => ?_) (fun n' hn₂ hne => ?_) hm.fresh)
    · rw [hlists, hconnections, hm.connections]
    · refine hother n' fun heq => hm.alone hn hne ?_
      rw [hn₂, heq]
    · obtain rfl := Option.some.inj (hn'.symm.trans hn₂)
      refine ⟨by rw [hbroadcasts]; exact hnumber, q, set, by rw [hp.pc_self, hlist'], by rw [hlists, hset], helems, ?_⟩
      rw [hp.pc_self, hsent, Function.update_self, List.append_assoc, ← hsend, hsum]
    · obtain rfl := Option.some.inj (hn'.symm.trans hn₂)
      exact hm.alone hn hne
    · have hne' : n' ≠ n := fun heq => hne (by rw [hn', heq])
      rw [hother n' hne']
      refine hm.finished n' fun t' => ?_
      by_cases ht : t' = t
      · rw [ht, hn]
        simpa using fun heq => hne' heq.symm
      · exact hn₂ t' ht
  -- the plain server does the whole of `onStringMessage` here
  | getConnectionList message hlist hobjects hconnections hbroadcasts hsent =>
    have hlength : p.broadcasts.length = s.broadcasts.length := by rw [hm.broadcasts]
    have hunder : ∀ t', (s.pc t').broadcast ≠ some s.broadcasts.length := fun t' hn =>
      Nat.lt_irrefl _ (hm.under t' _ hn).number
    have hother : ∀ n, n ≠ s.broadcasts.length → (p.onStringMessage message).sent n = p.sent n := fun n hne =>
      Function.update_of_ne (by rw [hlength]; exact hne) _ _
    have hnew : (p.onStringMessage message).sent s.broadcasts.length = p.connections.elems := by
      rw [← hlength]
      exact Function.update_self ..
    refine .inr ⟨.onStringMessage message, p.onStringMessage message, rfl, hm.next h hp ?_ ?_ ?_
      (fun t' n hne hn => ⟨by rw [hsent], hother n fun heq => hunder t' (heq ▸ hn)⟩) (fun n hn => ?_)
      (fun t' n hne hn => ?_) (fun n hn hne => ?_) (fun n hn => ?_)⟩
    · rw [hobjects, hconnections]
      exact hm.connections
    · rw [hbroadcasts, hm.broadcasts]
      rfl
    · rw [hbroadcasts, List.length_append]
      exact Nat.le_add_right _ _
    · obtain rfl := Option.some.inj hn
      refine ⟨?_, s.connections, p.connections, by rw [hp.pc_self]; rfl, by rw [hobjects, hm.connections],
        hnew.symm, ?_⟩
      · rw [hbroadcasts, List.length_append]
        exact Nat.lt_succ_self _
      · -- nothing of it has been sent
        rw [hsent, hm.finished _ hunder, hm.fresh _ hlength.le, hnew, hp.pc_self]
        rfl
    · obtain rfl := Option.some.inj hn
      exact hunder t'
    · have hne' : n ≠ s.broadcasts.length := fun heq => hne (by rw [heq]; rfl)
      rw [hsent, hother n hne']
      refine hm.finished n fun t' => ?_
      by_cases ht : t' = t
      · rw [ht, Pc.broadcast_of_list hlist]
        simp
      · exact hn t' ht
    · have hlt : p.broadcasts.length + 1 ≤ n := by simpa [ThreadedChat.onStringMessage] using hn
      rw [hother n (by omega)]
      exact hm.fresh n (by omega)
  | done q n hpc hset hbroadcasts hsent =>
    have hn : (s.pc t).broadcast = some n := by rw [hpc]; rfl
    obtain ⟨-, q', set, -, -, -, hsum⟩ := hm.under t n hn
    refine .inl (hm.next h hp (hset.trans hm.connections) (by rw [hbroadcasts, hm.broadcasts]) (by rw [hbroadcasts])
      (fun _ n' _ _ => ⟨by rw [hsent], rfl⟩) (fun _ hn' => absurd hn' (by simp [Pc.broadcast]))
      (fun _ _ _ hn' => absurd hn' (by simp [Pc.broadcast])) (fun n' hn' _ => ?_) hm.fresh)
    rw [hsent]
    by_cases heq : n' = n
    · -- it has come to the end of its list
      rw [hpc] at hsum
      rw [heq, ← hsum]
      exact (List.append_nil _).symm
    · refine hm.finished n' fun t' => ?_
      by_cases ht : t' = t
      · rw [ht, hn]
        simpa using fun h' => heq h'.symm
      · exact hn' t' ht

theorem matches_start (q : Ptr) : Matches (start q) ThreadedChat.start :=
  ⟨Function.update_self .., rfl, fun _ _ hn => absurd hn (by simp [start, Pc.broadcast]),
    fun _ _ _ hn => absurd hn (by simp [start, Pc.broadcast]), fun _ _ => rfl, fun _ _ => rfl⟩

/-- **The simulation** by the server with one plain lock. -/
theorem efficient_simulation : System.Simulation (efficientChat cfg) threadedChat Matches := by
  refine ⟨fun s h0 => ?_, fun s p a s' hr hm hs => ?_⟩
  · obtain ⟨q, rfl⟩ := h0
    exact ⟨_, rfl, matches_start q⟩
  · have hsound := sound_of_reachable hr
    obtain ⟨t, pc, -, hp, heffect⟩ := step_piece hsound hs
    exact matches_piece hm hsound hp heffect

/-- A state of the server with the lock that has done the same. -/
structure Refines (s : EfficientChat) (p : ThreadedChat) : Prop where
  /-- the same connections are there -/
  connections : s.lists.objects s.connections = some p.connections
  /-- the broadcasts got their lists in the same order -/
  broadcasts : s.broadcasts = p.broadcasts
  /-- each was sent to the same connections, as far as it has come -/
  sent : ∀ n, s.sent n <+: p.sent n
  finished : ∀ n, (∀ t, (s.pc t).broadcast ≠ some n) → s.sent n = p.sent n

/-- **The efficient server does what the plain one does**: to its users, a broadcast that goes through its list
    without the mutex is one that held it all through. -/
theorem efficient_refines (h : (efficientChat cfg).Reachable s) :
    ∃ p, threadedChat.Reachable p ∧ Refines s p := by
  obtain ⟨p, hr, hm⟩ := efficient_simulation.reachable h
  refine ⟨p, hr, hm.connections, hm.broadcasts, fun n => ?_, hm.finished⟩
  by_cases hn : ∃ t, (s.pc t).broadcast = some n
  · obtain ⟨t, ht⟩ := hn
    obtain ⟨-, q, set, -, -, -, hsum⟩ := hm.under t n ht
    rw [← hsum]
    exact List.prefix_append _ _
  · rw [hm.finished n fun t ht => hn ⟨t, ht⟩]

/-- The broadcast of `copy_on_write_sample`, after connection 6 has come. -/
theorem efficient_refines_sample : ∃ s p, s.sent 0 = [5] ∧ p.sent 0 = [5] ∧ p.connections.elems = [5, 6] ∧
    threadedChat.Reachable p ∧ Refines s p := by
  obtain ⟨s, hs, hp⟩ := System.Reach.of_exec (S := efficientChat ⟨0, [1, 2], by decide⟩) (s := start 7)
    (l := [.onConnection 1 5, .exec 1 true 0, .exec 1 true 0, .exec 1 true 0, .exec 1 true 0, .exec 1 true 0,
      .onStringMessage 1 [65], .exec 1 true 0, .exec 1 true 0, .exec 1 true 0, .exec 1 true 0,
      .onConnection 2 6, .exec 2 true 0, .exec 2 true 0, .exec 2 true 8, .exec 2 true 0, .exec 2 true 0,
      .exec 1 true 0, .exec 1 true 0])
    (p := fun s => decide (s.sent 0 = [5] ∧ s.pc 1 = .outside ∧ s.pc 2 = .unlock ∧ s.pc 0 = .outside ∧
      (s.lists.objects s.connections).map OrderedSet.elems = some [5, 6]))
    (.init ⟨7, rfl⟩) (by decide +kernel)
  rw [decide_eq_true_eq] at hp
  obtain ⟨hsent, h₁, h₂, h₀, helems⟩ := hp
  obtain ⟨p, hr, hrefines⟩ := efficient_refines hs
  refine ⟨s, p, hsent, ?_, ?_, hr, hrefines⟩
  · rw [← hrefines.finished 0 fun t => ?_, hsent]
    by_cases ht : t ∈ [0, 1, 2]
    · simp only [List.mem_cons, List.not_mem_nil, or_false] at ht
      rcases ht with rfl | rfl | rfl
      · simp [h₀, Pc.broadcast]
      · simp [h₁, Pc.broadcast]
      · simp [h₂, Pc.broadcast]
    · simp [(sound_of_reachable hs).outside t ht, Pc.broadcast]
  · rw [hrefines.connections] at helems
    exact Option.some.inj helems

end EfficientChat

end Irono
