import Irono.Example.EchoServer

/-!
# `Example.Correctness.TimingWheel` — an entry lives for N ticks

The deadline of an entry is nowhere stored. Its first bucket is: the age of an entry on the wheel is the
number of ticks since the last up or message of its connection (`Kept.age`), and its use count the number of
buckets it is in (`Kept.counts`). Hence the bucket that a tick takes away holds the last owner of just those
entries that have been idle for as many ticks as there are buckets.
-/

namespace Irono

open Transition Wheel

namespace EchoServer

variable {Conn : Type} [DecidableEq Conn] {s s' : EchoServer Conn} {events : List (Event Conn)} {N : Nat}

/-! ## What the events say -/

/-- The ticks since the last up or message of a connection. -/
def ticksSince (conn : Conn) (events : List (Event Conn)) : Option Nat :=
  events.foldl (fun ticks event =>
    match event with
    | .up c => if c = conn then some 0 else ticks
    | .message c => if c = conn then some 0 else ticks
    | .tick => ticks.map (· + 1)
    | .down _ => ticks
    | .gone _ => ticks) none

@[simp] theorem ticksSince_up (conn c : Conn) :
    ticksSince conn (events ++ [.up c]) = if c = conn then some 0 else ticksSince conn events := List.foldl_concat ..

@[simp] theorem ticksSince_message (conn c : Conn) :
    ticksSince conn (events ++ [.message c]) = if c = conn then some 0 else ticksSince conn events :=
  List.foldl_concat ..

@[simp] theorem ticksSince_tick (conn : Conn) :
    ticksSince conn (events ++ [.tick]) = (ticksSince conn events).map (· + 1) := List.foldl_concat ..

@[simp] theorem ticksSince_down (conn c : Conn) : ticksSince conn (events ++ [.down c]) = ticksSince conn events :=
  List.foldl_concat ..

@[simp] theorem ticksSince_gone (conn c : Conn) : ticksSince conn (events ++ [.gone c]) = ticksSince conn events :=
  List.foldl_concat ..

/-! ## A bucket is destroyed -/

/-- What the destruction of a bucket does, of one owner or of the last one. -/
structure Released (s s' : EchoServer Conn) (bucket : List Conn) : Prop where
  buckets : s'.buckets = s.buckets
  useCount : ∀ c, s'.useCount c = s.useCount c - if c ∈ bucket then 1 else 0
  context : s'.context = s.context
  conns : s'.conns = s.conns
  destroyed : s'.destroyed = s.destroyed ++ bucket.filter (s.useCount · ≤ 1)
  shutdowns : s'.shutdowns = s.shutdowns ++ (bucket.filter (s.useCount · ≤ 1)).filter s.alive

theorem release_spec (s : EchoServer Conn) (entry : Conn) : Released s (s.release entry) [entry] := by
  have hcount : ∀ c, Function.update s.useCount entry (s.useCount entry - 1) c =
      s.useCount c - if c ∈ [entry] then 1 else 0 := by
    intro c
    by_cases hc : c = entry
    · subst hc
      rw [Function.update_self, if_pos List.mem_cons_self]
    · rw [Function.update_of_ne hc, if_neg (by rwa [List.mem_singleton]), Nat.sub_zero]
  unfold release
  simp only [Function.update_self]
  by_cases hlast : s.useCount entry ≤ 1
  · have hfilter : [entry].filter (s.useCount · ≤ 1) = [entry] :=
      List.filter_eq_self.mpr fun c hc => by rw [List.mem_singleton.mp hc]; exact decide_eq_true hlast
    have halive : [entry].filter s.alive = if s.alive entry then [entry] else [] := List.filter_cons
    -- the last owner goes, and `~Entry` runs
    rw [if_pos (by omega)]
    exact ⟨rfl, hcount, rfl, rfl, by rw [hfilter]; rfl, by rw [hfilter, halive]; rfl⟩
  · have hfilter : [entry].filter (s.useCount · ≤ 1) = [] :=
      List.filter_eq_nil_iff.mpr fun c hc => by rw [List.mem_singleton.mp hc, decide_eq_true_eq]; exact hlast
    rw [if_neg (by omega)]
    refine ⟨rfl, hcount, rfl, rfl, ?_, ?_⟩
    · rw [hfilter, List.append_nil]
    · rw [hfilter, List.filter_nil, List.append_nil]

/-- The owners go one after the other; in a set no entry comes twice. -/
theorem foldl_release (s : EchoServer Conn) {bucket : List Conn} (h : bucket.Nodup) :
    Released s (bucket.foldl release s) bucket := by
  induction bucket generalizing s with
  | nil => exact ⟨rfl, fun c => rfl, rfl, rfl, (List.append_nil _).symm, (List.append_nil _).symm⟩
  | cons entry bucket ih =>
    obtain ⟨hnew, hrest⟩ := List.nodup_cons.mp h
    have hone := release_spec s entry
    have hmore := ih (s.release entry) hrest
    -- the others have the counts they had
    have hfilter : bucket.filter ((s.release entry).useCount · ≤ 1) = bucket.filter (s.useCount · ≤ 1) := by
      refine List.filter_congr fun c hc => ?_
      have hne : c ∉ [entry] := by
        rw [List.mem_singleton]
        rintro rfl
        exact hnew hc
      rw [hone.useCount c, if_neg hne, Nat.sub_zero]
    have halive : (s.release entry).alive = s.alive := by
      unfold alive
      rw [hone.conns]
    have hsplit : (entry :: bucket).filter (s.useCount · ≤ 1) =
        [entry].filter (s.useCount · ≤ 1) ++ bucket.filter (s.useCount · ≤ 1) :=
      List.filter_append [entry] bucket
    refine ⟨hmore.buckets.trans hone.buckets, fun c => ?_, hmore.context.trans hone.context,
      hmore.conns.trans hone.conns, ?_, ?_⟩
    · rw [List.foldl_cons, hmore.useCount, hone.useCount]
      by_cases hc : c = entry
      · subst hc
        simp [hnew]
      · simp [hc]
    · rw [List.foldl_cons, hmore.destroyed, hone.destroyed, hfilter, hsplit, List.append_assoc]
    · rw [List.foldl_cons, hmore.shutdowns, hone.shutdowns, hfilter, halive, hsplit, List.filter_append,
        List.append_assoc]

/-! ## The invariant -/

/-- The entries on the wheel, after some events. -/
structure Kept (N : Nat) (events : List (Event Conn)) (s : EchoServer Conn) : Prop where
  size : s.buckets.length = N
  sets : ∀ bucket ∈ s.buckets, bucket.Nodup
  counts : ∀ c, s.useCount c = holders s.buckets c
  /-- the first bucket of an entry -/
  age : ∀ c, Wheel.age s.buckets c = if c ∈ s.destroyed then none else ticksSince c events
  once : s.destroyed.Nodup
  /-- an entry is made by the up callback, and left in the context -/
  unborn : ∀ c, s.conns c = .unborn ↔ ticksSince c events = none
  notYet : ∀ c ∈ s.destroyed, s.conns c ≠ .unborn
  context : ∀ c, s.conns c ≠ .unborn → s.context c = some c

theorem kept_new (N : Nat) : Kept N [] (new N : EchoServer Conn) := by
  have hholders : ∀ c : Conn, holders (List.replicate N []) c = 0 := by
    intro c
    unfold holders
    rw [List.countP_eq_zero]
    intro bucket hbucket
    rw [List.eq_of_mem_replicate hbucket]
    simp
  refine ⟨List.length_replicate, ?_, fun c => (hholders c).symm, fun c => ?_, List.nodup_nil, fun c => ?_, ?_, ?_⟩
  · intro bucket hbucket
    rw [List.eq_of_mem_replicate hbucket]
    exact List.nodup_nil
  · exact age_eq_none.mpr (hholders c)
  · exact ⟨fun _ => rfl, fun _ => rfl⟩
  · intro c hc
    cases hc
  · intro c hc
    exact absurd rfl hc

theorem Kept.buckets_ne_nil (h : Kept N events s) (hN : 0 < N) : s.buckets ≠ [] := by
  have hsize := h.size
  intro hnil
  rw [hnil, List.length_nil] at hsize
  omega

/-- What is destroyed has no owner, and is in no bucket. -/
theorem Kept.of_destroyed (h : Kept N events s) {c : Conn} (hc : c ∈ s.destroyed) :
    s.useCount c = 0 ∧ ∀ bucket ∈ s.buckets, c ∉ bucket := by
  have hage := h.age c
  rw [if_pos hc, age_eq_none] at hage
  refine ⟨(h.counts c).trans hage, fun bucket hbucket hmem => ?_⟩
  unfold holders at hage
  rw [List.countP_eq_zero] at hage
  exact hage bucket hbucket (decide_eq_true hmem)

/-- What is not has an owner, from its up callback on. -/
theorem Kept.useCount_eq_zero (h : Kept N events s) {c : Conn} (hborn : s.conns c ≠ .unborn) :
    s.useCount c = 0 ↔ c ∈ s.destroyed := by
  rw [h.counts c, ← age_eq_none, h.age c]
  split
  · rename_i hc
    exact ⟨fun _ => hc, fun _ => rfl⟩
  · rename_i hc
    exact ⟨fun hnone => absurd ((h.unborn c).mpr hnone) hborn, fun hd => absurd hd hc⟩

/-! ## The callbacks -/

/-- The insertion makes one more owner where it makes one more holder. -/
theorem insert_spec (hne : s.buckets ≠ []) (entry : Conn) :
    ∃ n, s.insert entry = .ok { s with
        buckets := put s.buckets entry, useCount := Function.update s.useCount entry n } ∧
      n + holders s.buckets entry = s.useCount entry + holders (put s.buckets entry) entry := by
  unfold insert
  cases hb : s.buckets with
  | nil => exact absurd hb hne
  | cons bucket buckets =>
    rw [holders_put_self]
    unfold put
    by_cases hmem : entry ∈ bucket
    · refine ⟨s.useCount entry, ?_, by rw [if_pos hmem]; omega⟩
      simp only [if_pos hmem, Function.update_eq_self, pure_eq_ok]
      rw [← hb]
    · refine ⟨s.useCount entry + 1, ?_, by rw [if_neg hmem]; omega⟩
      simp only [if_neg hmem, pure_eq_ok]
      rfl

theorem release_of_shared {entry : Conn} (h : 1 < s.useCount entry) :
    s.release entry = { s with useCount := Function.update s.useCount entry (s.useCount entry - 1) } := by
  unfold release
  simp only [Function.update_self]
  rw [if_neg (by omega)]

/-- **An entry is put into the first bucket** while a local owns it. -/
theorem touch_spec (hne : s.buckets ≠ []) {entry : Conn} (hcount : s.useCount entry = holders s.buckets entry) :
    0 < holders (put s.buckets entry) entry ∧ (s.acquire entry).insert entry = .ok { s with
      buckets := put s.buckets entry
      useCount := Function.update s.useCount entry (holders (put s.buckets entry) entry + 1) } := by
  obtain ⟨n, hinsert, hn⟩ := insert_spec (s := s.acquire entry) hne entry
  have hself : (s.acquire entry).useCount entry = s.useCount entry + 1 := Function.update_self ..
  have hbuckets : (s.acquire entry).buckets = s.buckets := rfl
  rw [hself, hbuckets, hcount] at hn
  have hn' : n = holders (put s.buckets entry) entry + 1 := by omega
  constructor
  · rw [Nat.pos_iff_ne_zero]
    intro hzero
    have hnone := age_eq_none.mpr hzero
    rw [age_put_self hne] at hnone
    cases hnone
  · rw [hinsert, hn']
    simp only [acquire, Function.update_idem]

/-- The first bucket has the entry of a connection that was active. -/
theorem Kept.touched (h : Kept N events s) (hN : 0 < N) {c : Conn} (hc : c ∉ s.destroyed) {e : Event Conn}
    (he : ∀ d, ticksSince d (events ++ [e]) = if c = d then some 0 else ticksSince d events)
    (conns : Conn → ConnState) (context : Conn → Option Conn)
    (hconns : ∀ d, conns d = .unborn ↔ s.conns d = .unborn ∧ d ≠ c)
    (hcontext : ∀ d, conns d ≠ .unborn → context d = some d) :
    Kept N (events ++ [e]) { s with
      buckets := put s.buckets c
      useCount := Function.update s.useCount c (holders (put s.buckets c) c)
      context := context
      conns := conns } := by
  refine ⟨(length_put _ _).trans h.size, nodup_put h.sets c, fun d => ?_, fun d => ?_, h.once, fun d => ?_,
    fun d hd => ?_, hcontext⟩
  · -- an owner for each bucket, as before for the other entries
    show Function.update s.useCount c _ d = holders (put s.buckets c) d
    by_cases hd : d = c
    · subst hd
      rw [Function.update_self]
    · rw [Function.update_of_ne hd, holders_put_of_ne _ hd, h.counts]
  · show Wheel.age (put s.buckets c) d = _
    rw [he]
    by_cases hd : d = c
    · subst hd
      rw [age_put_self (h.buckets_ne_nil hN), if_neg hc, if_pos rfl]
    · rw [age_put_of_ne _ hd, h.age, if_neg (Ne.symm hd)]
  · show conns d = .unborn ↔ _
    rw [hconns, he, h.unborn]
    by_cases hd : d = c
    · subst hd
      simp
    · simp [hd, Ne.symm hd]
  · intro hunborn
    exact h.notYet d hd ((hconns d).mp hunborn).1

/-- Nothing happens to the wheel. -/
theorem Kept.untouched (h : Kept N events s) {e : Event Conn}
    (he : ∀ d, d ∉ s.destroyed → ticksSince d (events ++ [e]) = ticksSince d events)
    (hborn : ∀ d ∈ s.destroyed, ticksSince d (events ++ [e]) ≠ none)
    {conns : Conn → ConnState} (hconns : ∀ d, conns d = .unborn ↔ s.conns d = .unborn) :
    Kept N (events ++ [e]) { s with conns := conns } := by
  refine ⟨h.size, h.sets, h.counts, fun d => ?_, h.once, fun d => ?_, fun d hd hunborn => ?_, fun d hd => ?_⟩
  · show Wheel.age s.buckets d = if d ∈ s.destroyed then none else _
    rw [h.age]
    split
    · rfl
    · rename_i hd
      rw [he d hd]
  · show conns d = .unborn ↔ _
    rw [hconns]
    by_cases hd : d ∈ s.destroyed
    · exact ⟨fun hunborn => absurd hunborn (h.notYet d hd), fun hnone => absurd hnone (hborn d hd)⟩
    · rw [he d hd, h.unborn]
  · exact h.notYet d hd ((hconns d).mp hunborn)
  · exact h.context d (fun hunborn => hd ((hconns d).mpr hunborn))

/-! ## A tick -/

/-- What an event destroys: at a tick the entries that have been idle for as many as there are buckets. -/
def Destroys (N : Nat) (events : List (Event Conn)) (s : EchoServer Conn) (e : Event Conn) (s' : EchoServer Conn) : Prop :=
  ∃ entries, s'.destroyed = s.destroyed ++ entries ∧ s'.shutdowns = s.shutdowns ++ entries.filter s.alive ∧
    ∀ c, c ∈ entries ↔ e = .tick ∧ ticksSince c events = some (N - 1) ∧ c ∉ s.destroyed

theorem destroys_nothing {e : Event Conn} (he : e ≠ .tick) (hd : s'.destroyed = s.destroyed)
    (hs : s'.shutdowns = s.shutdowns) : Destroys N events s e s' := by
  refine ⟨[], by rw [hd, List.append_nil], by rw [hs, List.filter_nil, List.append_nil], fun c => ?_⟩
  constructor
  · intro hc
    cases hc
  · exact fun hc => absurd hc.1 he

/-- The last owners in the last bucket are those of the entries that are old enough. -/
theorem Kept.last_owners (h : Kept N events s) {last : List Conn} (hlast : s.buckets.getLast? = some last) (c : Conn) :
    c ∈ last.filter (s.useCount · ≤ 1) ↔ ticksSince c events = some (N - 1) ∧ c ∉ s.destroyed := by
  have hage : Wheel.age s.buckets c = some (s.buckets.length - 1) ↔
      ticksSince c events = some (N - 1) ∧ c ∉ s.destroyed := by
    rw [h.age, h.size]
    split
    · rename_i hc
      constructor
      · intro hnone
        cases hnone
      · exact fun hc' => absurd hc hc'.2
    · rename_i hc
      exact (and_iff_left hc).symm
  rw [List.mem_filter, decide_eq_true_eq, ← hage, h.counts]
  constructor
  · rintro ⟨hmem, hone⟩
    exact (holders_of_last hlast hmem).mp hone
  · intro hold
    have hmem := mem_last hlast hold
    exact ⟨hmem, (holders_of_last hlast hmem).mpr hold⟩

/-- **A tick** takes the last owner of the entries whose first bucket is the last one. -/
theorem Kept.tick (h : Kept N events s) (hN : 0 < N) :
    ∃ s', s.step .tick = .ok s' ∧ Kept N (events ++ [.tick]) s' ∧ Destroys N events s .tick s' := by
  have hne := h.buckets_ne_nil hN
  obtain ⟨last, hlast⟩ : ∃ last, s.buckets.getLast? = some last := ⟨_, List.getLast?_eq_some_getLast hne⟩
  have hset := h.sets last (List.mem_of_getLast? hlast)
  have hreleased := foldl_release { s with buckets := s.buckets.dropLast } hset
  have hrun : s.step .tick =
      .ok { last.foldl release { s with buckets := s.buckets.dropLast } with buckets := turn s.buckets } := by
    show s.Tick = _
    unfold Tick
    rw [hlast]
    simp only [pure_eq_ok, hreleased.buckets]
    rfl
  generalize last.foldl release { s with buckets := s.buckets.dropLast } = s₁ at hreleased hrun
  have howners := h.last_owners hlast
  have hdestroyed : s₁.destroyed = s.destroyed ++ last.filter (s.useCount · ≤ 1) := hreleased.destroyed
  have hconns : s₁.conns = s.conns := hreleased.conns
  refine ⟨_, hrun, ?_, _, hdestroyed, hreleased.shutdowns, fun c => (howners c).trans (and_iff_right rfl).symm⟩
  refine ⟨(length_turn hne).trans h.size, nodup_turn h.sets, fun c => ?_, fun c => ?_, ?_, fun c => ?_, fun c hc => ?_,
    fun c hc => ?_⟩
  · show s₁.useCount c = holders (turn s.buckets) c
    rw [hreleased.useCount, holders_turn hlast, ← h.counts]
  · -- one tick older, or destroyed: the age that is lost is that of the last bucket
    show Wheel.age (turn s.buckets) c = if c ∈ s₁.destroyed then none else _
    rw [hdestroyed, ticksSince_tick, age_turn hne, h.age, h.size]
    simp only [List.mem_append, howners]
    by_cases hc : c ∈ s.destroyed
    · simp [hc]
    · by_cases hold : ticksSince c events = some (N - 1)
      · simp [hc, hold]
      · simp [hc, hold]
  · -- nothing is destroyed that was destroyed before
    show s₁.destroyed.Nodup
    rw [hdestroyed]
    refine List.nodup_append.mpr ⟨h.once, hset.filter _, ?_⟩
    rintro c hc _ hnew rfl
    exact ((howners c).mp hnew).2 hc
  · show s₁.conns c = .unborn ↔ _
    rw [hconns, ticksSince_tick, Option.map_eq_none_iff]
    exact h.unborn c
  · show s₁.conns c ≠ .unborn
    have hc' : c ∈ s₁.destroyed := hc
    rw [hdestroyed, List.mem_append] at hc'
    rw [hconns]
    rcases hc' with hold | hnew
    · exact h.notYet c hold
    · -- it has had its up callback
      intro hunborn
      have hticks := ((howners c).mp hnew).1
      rw [(h.unborn c).mp hunborn] at hticks
      cases hticks
  · show s₁.context c = some c
    have hc' : s₁.conns c ≠ .unborn := hc
    rw [hconns] at hc'
    rw [hreleased.context]
    exact h.context c hc'

/-! ## Each event -/

/-- An up callback makes the entry, and puts it into the first bucket. -/
theorem Kept.up (h : Kept N events s) (hN : 0 < N) {c : Conn} (hc : s.conns c = .unborn) :
    ∃ s', s.step (.up c) = .ok s' ∧ Kept N (events ++ [.up c]) s' ∧ Destroys N events s (.up c) s' := by
  have hnew : c ∉ s.destroyed := fun hd => h.notYet c hd hc
  obtain ⟨hpos, hinsert⟩ := touch_spec (s := { s with conns := Function.update s.conns c .up }) (h.buckets_ne_nil hN)
    (h.counts c)
  simp only at hpos
  refine ⟨_, ?_, h.touched hN hnew (fun d => ticksSince_up d c) (Function.update s.conns c .up)
    (Function.update s.context c (some c)) (fun d => ?_) (fun d hd => ?_),
    destroys_nothing (by simp) rfl rfl⟩
  · show (enabled _ >>= fun _ => onConnection _ c) = _
    rw [enabled_of hc, ok_bind, onConnection, if_pos (Function.update_self ..), hinsert]
    simp only [ok_bind, pure_eq_ok]
    -- the local owner of the entry goes
    rw [release_of_shared (by simp only [Function.update_self]; omega)]
    simp only [Function.update_self, Function.update_idem, Nat.add_sub_cancel]
  · by_cases hd : d = c
    · subst hd
      simp
    · simp [hd]
  · by_cases hdc : d = c
    · subst hdc
      rw [Function.update_self]
    · rw [Function.update_of_ne hdc] at hd ⊢
      exact h.context d hd

/-- A message puts the entry into the first bucket, if there still is one. -/
theorem Kept.message (h : Kept N events s) (hN : 0 < N) {c : Conn} (hc : s.alive c = true) :
    ∃ s', s.step (.message c) = .ok s' ∧
      Kept N (events ++ [.message c]) s' ∧ Destroys N events s (.message c) s' := by
  have hborn : s.conns c ≠ .unborn := by
    intro hunborn
    unfold alive at hc
    rw [hunborn] at hc
    cases hc
  have hstep : s.step (.message c) = if s.useCount c ≠ 0 then (do
      let s ← (s.acquire c).insert c
      return s.release c) else return s := by
    show (enabled _ >>= fun _ => onMessage s c) = _
    rw [enabled_of hc, ok_bind, onMessage, h.context c hborn]
  by_cases hlocked : s.useCount c ≠ 0
  · have hkept : c ∉ s.destroyed := fun hd => hlocked ((h.useCount_eq_zero hborn).mpr hd)
    obtain ⟨hpos, hinsert⟩ := touch_spec (h.buckets_ne_nil hN) (h.counts c)
    refine ⟨_, ?_, h.touched hN hkept (fun d => ticksSince_message d c) s.conns s.context
      (fun d => ?_) h.context, destroys_nothing (by simp) rfl rfl⟩
    · rw [hstep, if_pos hlocked, hinsert]
      simp only [ok_bind, pure_eq_ok]
      rw [release_of_shared (by simp only [Function.update_self]; omega)]
      simp only [Function.update_self, Function.update_idem, Nat.add_sub_cancel]
    · constructor
      · intro hd
        refine ⟨hd, ?_⟩
        rintro rfl
        exact hborn hd
      · exact And.left
  · -- the entry is gone, and stays so
    have hgone : c ∈ s.destroyed := (h.useCount_eq_zero hborn).mp (not_not.mp hlocked)
    refine ⟨s, by rw [hstep, if_neg hlocked, pure_eq_ok], h.untouched (fun d hd => ?_) (fun d hd => ?_) fun d => Iff.rfl,
      destroys_nothing (by simp) rfl rfl⟩
    · rw [ticksSince_message, if_neg]
      rintro rfl
      exact hd hgone
    · rw [ticksSince_message]
      split
      · simp
      · exact fun hnone => h.notYet d hd ((h.unborn d).mpr hnone)

/-- The down callback and the end of a connection do not touch the wheel. -/
theorem Kept.leave (h : Kept N events s) {c : Conn} {e : Event Conn}
    (he : ∀ d, ticksSince d (events ++ [e]) = ticksSince d events)
    (hborn : s.conns c ≠ .unborn) (state : ConnState) (hstate : state ≠ .unborn) :
    Kept N (events ++ [e]) { s with conns := Function.update s.conns c state } := by
  refine h.untouched (fun d _ => he d) (fun d hd => ?_) (fun d => ?_)
  · rw [he]
    exact fun hnone => h.notYet d hd ((h.unborn d).mpr hnone)
  · by_cases hd : d = c
    · subst hd
      rw [Function.update_self]
      exact iff_of_false hstate hborn
    · rw [Function.update_of_ne hd]

/-- **One event**: it cannot happen here, or it keeps the invariant and destroys what it should. -/
theorem Kept.step (h : Kept N events s) (hN : 0 < N) (e : Event Conn) :
    s.step e = .error .blocked ∨
      ∃ s', s.step e = .ok s' ∧ Kept N (events ++ [e]) s' ∧ Destroys N events s e s' := by
  have hblocked : ∀ {p : Prop} [Decidable p] {f : Unit → Result Fault (EchoServer Conn)}, ¬ p →
      (enabled p >>= f) = .error .blocked := by
    intro p _ f hp
    rw [enabled, if_neg hp, error_bind]
  cases e with
  | up c =>
    by_cases hc : s.conns c = .unborn
    · exact .inr (h.up hN hc)
    · exact .inl (hblocked hc)
  | message c =>
    by_cases hc : s.alive c = true
    · exact .inr (h.message hN hc)
    · exact .inl (hblocked hc)
  | down c =>
    by_cases hc : s.conns c = .up
    · have hborn : s.conns c ≠ .unborn := by rw [hc]; simp
      refine .inr ⟨_, ?_, h.leave (fun d => ticksSince_down d c) hborn .down (by simp),
        destroys_nothing (by simp) rfl rfl⟩
      show (enabled _ >>= fun _ => onConnection _ c) = _
      -- the assert of the down callback: the up callback left a weak pointer
      have hsome : (s.context c).isSome = true := by rw [h.context c hborn]; rfl
      rw [enabled_of hc, ok_bind, onConnection, if_neg (by simp), require_of hsome]
      rfl
    · exact .inl (hblocked hc)
  | gone c =>
    by_cases hc : s.conns c = .down
    · have hborn : s.conns c ≠ .unborn := by rw [hc]; simp
      refine .inr ⟨_, ?_, h.leave (fun d => ticksSince_gone d c) hborn .gone (by simp),
        destroys_nothing (by simp) rfl rfl⟩
      show (enabled _ >>= fun _ => _) = _
      rw [enabled_of hc]
      rfl
    · exact .inl (hblocked hc)
  | tick => exact .inr (h.tick hN)

theorem kept_of_exec (hN : 0 < N) (h : (echoServer Conn N).exec (.new N) events = .ok s) : Kept N events s := by
  refine System.exec_invariant (I := Kept N) (kept_new N) (fun events e t t' _ hkept hstep => ?_) h
  rcases hkept.step hN e with hblocked | ⟨t₁, ht₁, hkept₁, -⟩
  · have hstep' : t.step e = .ok t' := hstep
    rw [hblocked] at hstep'
    cases hstep'
  · have hstep' : t.step e = .ok t' := hstep
    rw [ht₁, Except.ok.injEq] at hstep'
    exact hstep' ▸ hkept₁

/-! ## The result -/

/-- What happens to entries in a run of a wheel with `N` buckets. -/
structure Wheeled (N : Nat) (events : List (Event Conn)) (s : EchoServer Conn) : Prop where
  /-- no assert fails, no bucket is missing -/
  noFault : ∀ e f, s.step e ≠ .error (.fault f)
  /-- a step destroys, and shuts down where the connection exists, the entries for which it is the `N`-th
      tick since the last up or message, unless they are gone already -/
  exactly : ∀ e s', s.step e = .ok s' → Destroys N events s e s'
  once : s.destroyed.Nodup
  /-- what is gone has no owner and is in no bucket, whatever messages came since -/
  stays : ∀ c ∈ s.destroyed, s.useCount c = 0 ∧ ∀ bucket ∈ s.buckets, c ∉ bucket
  /-- gone are those for which an `N`-th tick has come -/
  due : ∀ c, c ∈ s.destroyed ↔ ∃ before, before ++ [.tick] <+: events ∧ ticksSince c before = some (N - 1)

/-- **The timing wheel.** -/
theorem timing_wheel (hN : 0 < N) (h : (echoServer Conn N).exec (.new N) events = .ok s) : s.Wheeled N events := by
  have hkept := kept_of_exec hN h
  refine ⟨fun e f => ?_, fun e s' hstep => ?_, hkept.once, fun c hc => hkept.of_destroyed hc, fun c => ?_⟩
  · rcases hkept.step hN e with hblocked | ⟨s', hs', -⟩
    · rw [hblocked]
      simp
    · rw [hs']
      simp
  · rcases hkept.step hN e with hblocked | ⟨s₁, hs₁, -, hdestroys⟩
    · rw [hblocked] at hstep
      cases hstep
    · rw [hs₁, Except.ok.injEq] at hstep
      exact hstep ▸ hdestroys
  · -- by induction along the run
    refine System.exec_invariant (S := echoServer Conn N)
      (I := fun events s => c ∈ s.destroyed ↔
        ∃ before, before ++ [.tick] <+: events ∧ ticksSince c before = some (N - 1)) ?_ ?_ h
    · constructor
      · intro hc
        cases hc
      · rintro ⟨before, hstart, -⟩
        simp at hstart
    · intro events e t t' hrun ih hstep
      rcases (kept_of_exec hN hrun).step hN e with hblocked | ⟨t₁, ht₁, -, entries, hdestroyed, -, hentries⟩
      · have hstep' : t.step e = .ok t' := hstep
        rw [hblocked] at hstep'
        cases hstep'
      · have hstep' : t.step e = .ok t' := hstep
        rw [ht₁, Except.ok.injEq] at hstep'
        subst hstep'
        rw [hdestroyed, List.mem_append, hentries, ih]
        constructor
        · rintro (⟨before, hstart, hticks⟩ | ⟨rfl, hticks, -⟩)
          · exact ⟨before, hstart.trans (List.prefix_append _ _), hticks⟩
          · exact ⟨events, List.prefix_refl _, hticks⟩
        · -- the `N`-th tick is this one, or an earlier one
          rintro ⟨before, hstart, hticks⟩
          rcases List.prefix_concat_iff.mp hstart with heq | hstart
          · obtain ⟨rfl, hlast⟩ := List.append_inj' heq rfl
            rw [List.cons.injEq] at hlast
            rw [← ih]
            by_cases hc : c ∈ t.destroyed
            · exact .inl hc
            · exact .inr ⟨hlast.1.symm, hticks, hc⟩
          · exact .inl ⟨before, hstart, hticks⟩

/-- Two buckets: the entry survives a tick, the message after it makes it young again, and two ticks later it
    is gone with its connection shut down; the next message and ticks change nothing. -/
theorem timing_wheel_sample : ∃ s : EchoServer Nat, s.destroyed = [7] ∧ s.shutdowns = [7] ∧
    s.Wheeled 2 [.up 7, .tick, .message 7, .tick, .tick, .message 7, .tick, .tick, .down 7, .gone 7] := by
  refine ⟨_, ?_, ?_, timing_wheel (by decide) rfl⟩
  · rfl
  · rfl

end EchoServer

end Irono
