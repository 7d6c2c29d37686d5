import Irono.Base.LogStream

/-!
# `Base.Correctness.LogNumerals` — what `convert` writes

The digit loop leaves the digits the wrong way round, with `convert`'s sign behind them, and `std::reverse`
turns them. The whole is **one store** of the canonical numeral and a NUL (`convert_eq`, `convertHex_eq`):
bounds, contents and frame are then those of a store. For negative values the remainders are not positive,
and the table `digits` is symmetric about `zero`.
-/

namespace Irono

open Transition Slice Numeral

namespace LogStream

variable {SIZE : Nat} {T : IntType}

/-! ## Stores -/

namespace CharArray

variable {a a' : CharArray SIZE} {p : Nat} {x y : List Byte}

theorem store_of_le (h : p + x.length ≤ SIZE) : ∃ a', a.store p x = .ok a' ∧ a'.bytes = overwrite a.bytes p x := by
  refine ⟨_, dif_pos h, rfl⟩

theorem store_of_lt (h : SIZE < p + x.length) : a.store p x = .error (.fault .outOfBounds) :=
  dif_neg (Nat.not_le.mpr h)

theorem store_eq_ok : a.store p x = .ok a' ↔ p + x.length ≤ SIZE ∧ a'.bytes = overwrite a.bytes p x := by
  unfold store
  split
  · rename_i h
    rw [Except.ok.injEq]
    constructor
    · rintro rfl
      exact ⟨h, rfl⟩
    · rintro ⟨-, hbytes⟩
      cases a'
      simp only at hbytes
      subst hbytes
      rfl
  · rename_i h
    simp [h]

/-- One store behind another is one store. -/
theorem store_store : (a.store p x >>= fun b => b.store (p + x.length) y) = a.store p (x ++ y) := by
  by_cases hxy : p + (x ++ y).length ≤ SIZE
  · rw [List.length_append, ← Nat.add_assoc] at hxy
    obtain ⟨b, hb, hbytes⟩ := store_of_le (a := a) (p := p) (x := x) (by omega)
    obtain ⟨c, hc, hcbytes⟩ := store_of_le (a := b) (p := p + x.length) (x := y) hxy
    rw [hb, ok_bind, hc]
    refine (store_eq_ok.mpr ⟨by rw [List.length_append, ← Nat.add_assoc]; exact hxy, ?_⟩).symm
    rw [hcbytes, hbytes, overwrite_overwrite (by rw [a.length_eq]; omega)]
  · rw [store_of_lt (Nat.not_le.mp hxy)]
    by_cases hx : p + x.length ≤ SIZE
    · obtain ⟨b, hb, -⟩ := store_of_le (a := a) hx
      rw [hb, ok_bind]
      refine store_of_lt ?_
      rw [List.length_append] at hxy
      omega
    · rw [store_of_lt (Nat.not_le.mp hx), error_bind]

/-- What was stored is there, and nothing else has changed. -/
theorem read_store (h : a.store p x = .ok a') :
    a'.read p (p + x.length) = x ∧ (∀ i j, j ≤ p → a'.read i j = a.read i j) ∧
      ∀ i j, p + x.length ≤ i → a'.read i j = a.read i j := by
  obtain ⟨hle, hbytes⟩ := store_eq_ok.mp h
  have hp : p ≤ a.bytes.length := by rw [a.length_eq]; omega
  unfold read
  rw [hbytes]
  exact ⟨slice_overwrite_at hp, fun i j hj => slice_overwrite_before hj hp, fun i j hi => slice_overwrite_after hi hp⟩

end CharArray

/-! ## The digit loop -/

/-- The characters of a numeral. -/
def Radix.text (r : Radix) (n : Nat) : List Byte := (numeral r.base n).map fun d : Nat => r.digit (d : Int)

theorem Radix.text_ne_nil (r : Radix) (n : Nat) : r.text n ≠ [] := by
  rw [Radix.text, ne_eq, List.map_eq_nil_iff]
  exact (canonical_numeral r.one_lt n).nonempty

/-- The table reads the same on both sides of `'0'`. -/
theorem zero_neg : ∀ d < 10, zero (-(d : Nat)) = zero d := by decide

/-- The remainder of a value that is not negative, or of a negative one with a symmetric table. -/
theorem digit_tmod {r : Radix} {v : Int} (h : 0 ≤ v ∨ ∀ d < r.base, r.digit (-(d : Nat)) = r.digit d) :
    r.digit (v.tmod r.base) = r.digit ((v.natAbs % r.base : Nat) : Int) := by
  have hlt : v.natAbs % r.base < r.base := Nat.mod_lt _ (Nat.lt_trans Nat.zero_lt_one r.one_lt)
  rcases Int.natAbs_eq v with hv | hv
  · rw [hv, Int.natAbs_natCast]
    rfl
  · rcases h with h | h
    · have h0 : v.natAbs = 0 := by omega
      rw [hv, h0]
      simp
    · rw [hv, Int.natAbs_neg, Int.natAbs_natCast, Int.neg_tmod]
      exact h _ hlt

/-- **The loop stores the numeral, last digit first.** -/
theorem digitLoop_eq (r : Radix) (buf : CharArray SIZE) (p : Nat) (i : T.Value)
    (h : 0 ≤ i.val ∨ ∀ d < r.base, r.digit (-(d : Nat)) = r.digit d) :
    digitLoop r buf p i = (buf.store p (r.text i.val.natAbs).reverse >>= fun a =>
      .ok (a, p + (r.text i.val.natAbs).length)) := by
  -- along the loop: the remainder is the last digit, and the quotient has the digits in front of it
  induction buf, p, i using digitLoop.induct r with
  | case1 buf p i ih =>
    have hquot : (i.quot r.base).val.natAbs = i.val.natAbs / r.base := by
      show (i.val.tdiv r.base).natAbs = _
      rw [Int.natAbs_tdiv]
      rfl
    have hquot' : 0 ≤ (i.quot r.base).val ∨ ∀ d < r.base, r.digit (-(d : Nat)) = r.digit d :=
      h.imp_left fun h0 => Int.tdiv_nonneg h0 (Int.natCast_nonneg _)
    rw [digitLoop, digit_tmod h]
    by_cases hne : (i.quot r.base).val ≠ 0
    · have hdiv : i.val.natAbs / r.base ≠ 0 := by
        rw [← hquot]
        exact Int.natAbs_ne_zero.mpr hne
      have htext : r.text i.val.natAbs =
          r.text (i.val.natAbs / r.base) ++ [r.digit ((i.val.natAbs % r.base : Nat) : Int)] := by
        rw [Radix.text, numeral_step r.one_lt hdiv, List.map_append]
        rfl
      simp only [if_pos hne]
      rw [htext, List.reverse_append, List.length_append, List.reverse_singleton]
      have hstore := CharArray.store_store (a := buf) (p := p) (x := [r.digit ((i.val.natAbs % r.base : Nat) : Int)])
        (y := (r.text (i.val.natAbs / r.base)).reverse)
      rw [← hstore]
      cases hb : buf.store p [r.digit ((i.val.natAbs % r.base : Nat) : Int)] with
      | error e => rfl
      | ok b =>
        simp only [ok_bind]
        rw [ih b hne hquot', hquot, List.length_singleton]
        simp only [Nat.add_assoc, Nat.add_comm 1]
    · have hzero : i.val.natAbs / r.base = 0 := by
        rw [← hquot]
        exact Int.natAbs_eq_zero.mpr (not_not.mp hne)
      have hsmall : i.val.natAbs < r.base := (Nat.div_eq_zero_iff.mp hzero).resolve_left (by have := r.one_lt; omega)
      have htext : r.text i.val.natAbs = [r.digit ((i.val.natAbs % r.base : Nat) : Int)] := by
        rw [Radix.text, numeral_of_lt hsmall, Nat.mod_eq_of_lt hsmall]
        rfl
      simp only [if_neg hne]
      rw [htext, List.reverse_singleton]
      rfl

/-- The NUL goes behind what was stored, and the reverse of it into its place. -/
theorem store_finish (a : CharArray SIZE) (buf : Nat) (text : List Byte) :
    (a.store buf text.reverse >>= fun b => finish b buf (buf + text.length)) =
      (a.store buf (text ++ [0]) >>= fun b => .ok (b, text.length)) := by
  have hlen : text.reverse.length = text.length := List.length_reverse
  have hwhole : (text ++ [(0 : Byte)]).length = (text.reverse ++ [0]).length := by
    rw [List.length_append, List.length_append, hlen]
  -- the text and its NUL
  have hnul : (a.store buf text.reverse >>= fun b => finish b buf (buf + text.length)) =
      (a.store buf (text.reverse ++ [0]) >>= fun b =>
        b.store buf (b.read buf (buf + text.length)).reverse >>= fun c => .ok (c, text.length)) := by
    rw [← CharArray.store_store, hlen]
    cases a.store buf text.reverse with
    | error e => rfl
    | ok b =>
      simp only [ok_bind, finish, pure_eq_ok, Nat.add_sub_cancel_left]
  rw [hnul]
  by_cases hle : buf + (text.reverse ++ [0]).length ≤ SIZE
  · obtain ⟨b, hb, hbytes⟩ := CharArray.store_of_le (a := a) hle
    have hroom : buf + (text ++ [0]).length ≤ SIZE := by rwa [hwhole]
    have hbuf : buf ≤ a.bytes.length := by rw [a.length_eq]; omega
    have hread : b.read buf (buf + text.length) = text.reverse := by
      have hsplit : b.read buf (buf + text.length) ++ b.read (buf + text.length) (buf + (text.reverse ++ [0]).length) =
          text.reverse ++ [0] := by
        refine Eq.trans ?_ (CharArray.read_store hb).1
        exact slice_append_slice (by omega) (by simp)
      refine (List.append_inj hsplit ?_).1
      rw [CharArray.read, length_slice (by rw [b.length_eq]; simp at hle; omega), hlen]
      omega
    rw [hb, ok_bind, hread, List.reverse_reverse]
    obtain ⟨c, hc, hcbytes⟩ := CharArray.store_of_le (a := b) (p := buf) (x := text) (by simp at hle; omega)
    have hc' : a.store buf (text ++ [0]) = .ok c := by
      refine CharArray.store_eq_ok.mpr ⟨hroom, ?_⟩
      rw [hcbytes, hbytes, overwrite_start hbuf hlen.symm]
    rw [hc, hc']
  · rw [CharArray.store_of_lt (Nat.not_le.mp hle), CharArray.store_of_lt (by rw [hwhole]; exact Nat.not_le.mp hle)]
    rfl

/-! ## The numerals -/

/-- The decimal numeral of a value. -/
def decimalText (v : Int) : List Byte := (if v < 0 then ascii "-" else []) ++ decimal.text v.natAbs

/-- What `operator<<(const void*)` prints. -/
def pointerText (p : uintptr_t) : List Byte := ascii "0x" ++ hexadecimal.text p.val.natAbs

/-- **`convert` is one store** of the numeral and a NUL. -/
theorem convert_eq (a : CharArray SIZE) (buf : Nat) (value : T.Value) :
    convert a buf value = (a.store buf (decimalText value.val ++ [0]) >>= fun b =>
      .ok (b, (decimalText value.val).length)) := by
  rw [← store_finish, convert, digitLoop_eq _ _ _ _ (.inr zero_neg), decimalText]
  split
  · -- the sign is stored behind the digits
    rw [List.reverse_append, ← CharArray.store_store, List.length_reverse, List.length_append]
    cases a.store buf (decimal.text value.val.natAbs).reverse with
    | error e => rfl
    | ok b =>
      simp only [ok_bind]
      have hminus : (ascii "-").reverse = ascii "-" := rfl
      have hone : (ascii "-").length = 1 := rfl
      rw [hminus, hone, Nat.add_comm 1, Nat.add_assoc]
  · rw [List.nil_append]
    cases a.store buf (decimal.text value.val.natAbs).reverse with
    | error e => rfl
    | ok b => rfl

theorem uintptr_nonneg (p : uintptr_t) : 0 ≤ p.val := p.min_le

theorem convertHex_eq (a : CharArray SIZE) (buf : Nat) (value : uintptr_t) :
    convertHex a buf value = (a.store buf (hexadecimal.text value.val.natAbs ++ [0]) >>= fun b =>
      .ok (b, (hexadecimal.text value.val.natAbs).length)) := by
  rw [← store_finish, convertHex, digitLoop_eq _ _ _ _ (.inl (uintptr_nonneg value))]
  cases a.store buf (hexadecimal.text value.val.natAbs).reverse with
  | error e => rfl
  | ok b => rfl

/-! ## The texts are canonical -/

/-- The character of a digit. -/
def digitChar (d : Nat) : Byte := UInt8.ofNat (if d < 10 then 48 + d else 55 + d)

/-- The text of a canonical numeral. -/
def CanonicalText (b n : Nat) (text : List Byte) : Prop := ∃ ds, Canonical b n ds ∧ text = ds.map digitChar

/-- An optional sign and a canonical decimal numeral. -/
def CanonicalDecimal (v : Int) (text : List Byte) : Prop :=
  ∃ number, CanonicalText 10 v.natAbs number ∧ text = (if v < 0 then ascii "-" else []) ++ number

theorem decimal_digit : ∀ d < 10, decimal.digit (d : Nat) = digitChar d := by decide

theorem hexadecimal_digit : ∀ d < 16, hexadecimal.digit (d : Nat) = digitChar d := by decide

/-- Where the table shows the character of each digit, the text is canonical. -/
theorem Radix.canonical_text {r : Radix} (h : ∀ d < r.base, r.digit (d : Nat) = digitChar d) (n : Nat) :
    CanonicalText r.base n (r.text n) := by
  have hcanon := canonical_numeral r.one_lt n
  exact ⟨_, hcanon, List.map_congr_left fun d hd => h d (hcanon.below d hd)⟩

theorem canonical_decimalText (v : Int) : CanonicalDecimal v (decimalText v) :=
  ⟨_, decimal.canonical_text decimal_digit _, rfl⟩

/-! ## Reading them back -/

/-- The digit of a character. -/
def charDigit (c : Byte) : Option Nat :=
  if 48 ≤ c.toNat ∧ c.toNat ≤ 57 then some (c.toNat - 48)
  else if 65 ≤ c.toNat ∧ c.toNat ≤ 70 then some (c.toNat - 55)
  else none

/-- The number a text denotes: digits of the base, at least one. -/
def parseNumeral (b : Nat) (text : List Byte) : Option Nat := do
  let ds ← text.mapM charDigit
  if ds ≠ [] ∧ ∀ d ∈ ds, d < b then some (value b ds) else none

/-- The integer a text denotes. -/
def parseDecimal (text : List Byte) : Option Int :=
  if text.head? = some 45 then (parseNumeral 10 text.tail).map fun n : Nat => -(n : Int)
  else (parseNumeral 10 text).map fun n : Nat => (n : Int)

theorem charDigit_digitChar : ∀ d < 16, charDigit (digitChar d) = some d := by decide

theorem digitChar_ne_minus : ∀ d < 10, digitChar d ≠ 45 := by decide

theorem mapM_charDigit {ds : List Nat} (h : ∀ d ∈ ds, d < 16) : (ds.map digitChar).mapM charDigit = some ds := by
  induction ds with
  | nil => rfl
  | cons d ds ih =>
    rw [List.map_cons, List.mapM_cons, charDigit_digitChar d (h d List.mem_cons_self),
      ih fun e he => h e (List.mem_cons_of_mem _ he)]
    rfl

/-- **Parsing gives the number back.** -/
theorem CanonicalText.parse {b n : Nat} {text : List Byte} (h : CanonicalText b n text) (hb : b ≤ 16) :
    parseNumeral b text = some n := by
  obtain ⟨ds, hcanon, rfl⟩ := h
  unfold parseNumeral
  rw [mapM_charDigit fun d hd => Nat.lt_of_lt_of_le (hcanon.below d hd) hb]
  show (if _ then _ else _) = _
  rw [if_pos ⟨hcanon.nonempty, hcanon.below⟩, hcanon.denotes]

theorem CanonicalDecimal.parse {v : Int} {text : List Byte} (h : CanonicalDecimal v text) :
    parseDecimal text = some v := by
  obtain ⟨number, hnumber, rfl⟩ := h
  have hparse := hnumber.parse (by decide)
  unfold parseDecimal
  by_cases hv : v < 0
  · have hminus : (ascii "-" ++ number).head? = some 45 := rfl
    rw [if_pos hv, if_pos hminus]
    show (parseNumeral 10 number).map _ = _
    rw [hparse, Option.map_some]
    congr 1
    omega
  · -- no digit reads as a sign
    have hdigit : number.head? ≠ some 45 := by
      obtain ⟨ds, hcanon, rfl⟩ := hnumber
      intro h
      rw [List.head?_map, Option.map_eq_some_iff] at h
      obtain ⟨d, hd, hminus⟩ := h
      exact digitChar_ne_minus d (hcanon.below d (List.mem_of_head? hd)) hminus
    rw [if_neg hv, List.nil_append, if_neg hdigit, hparse, Option.map_some]
    congr 1
    omega

theorem decimalText_injective : Function.Injective decimalText := by
  intro v w h
  have hv := (canonical_decimalText v).parse
  rw [h, (canonical_decimalText w).parse] at hv
  exact (Option.some.inj hv).symm

/-! ## Lengths -/

theorem Radix.length_text_le {r : Radix} {n k : Nat} (hk : 0 < k) (hn : n < r.base ^ k) : (r.text n).length ≤ k := by
  rw [Radix.text, List.length_map]
  exact length_numeral_le r.one_lt hk hn

/-- The extreme values of 64 bits have 20 characters, a sign included. -/
theorem length_decimalText_le (v : T.Value) : (decimalText v.val).length ≤ 20 := by
  have hlo := v.min_le
  have hhi := v.le_max
  have hmin : -2 ^ 63 ≤ T.min := by cases T <;> decide
  have hmax : T.max ≤ 2 ^ 64 - 1 := by cases T <;> decide
  rw [decimalText, List.length_append]
  split
  · -- a negative value has 63 bits
    have hlen : (decimal.text v.val.natAbs).length ≤ 19 := by
      apply Radix.length_text_le (by decide)
      show v.val.natAbs < 10 ^ 19
      omega
    show 1 + _ ≤ 20
    omega
  · have hlen : (decimal.text v.val.natAbs).length ≤ 20 := by
      apply Radix.length_text_le (by decide)
      show v.val.natAbs < 10 ^ 20
      omega
    rw [List.length_nil]
    omega

theorem length_pointerText_le (p : uintptr_t) : (pointerText p).length ≤ 18 := by
  have hhi : p.val ≤ 2 ^ 64 - 1 := p.le_max
  have hlo := uintptr_nonneg p
  have hlen : (hexadecimal.text p.val.natAbs).length ≤ 16 := by
    apply Radix.length_text_le (by decide)
    show p.val.natAbs < 16 ^ 16
    omega
  rw [pointerText, List.length_append]
  show 2 + _ ≤ 18
  omega

/-! ## The two functions -/

/-- A store of a text and its NUL, read back. -/
theorem CharArray.read_text {a a' : CharArray SIZE} {p : Nat} {text : List Byte} (h : a.store p (text ++ [0]) = .ok a') :
    a'.read p (p + (text.length + 1)) = text ++ [0] ∧ a'.read p (p + text.length) = text := by
  have hwhole := (CharArray.read_store h).1
  obtain ⟨hle, hbytes⟩ := CharArray.store_eq_ok.mp h
  rw [List.length_append, List.length_singleton] at hwhole hle
  refine ⟨hwhole, ?_⟩
  have hsplit : a'.read p (p + text.length) ++ a'.read (p + text.length) (p + (text.length + 1)) = text ++ [0] := by
    rw [← hwhole]
    exact slice_append_slice (by omega) (by omega)
  refine (List.append_inj hsplit ?_).1
  rw [CharArray.read, length_slice (by rw [a'.length_eq]; omega)]
  omega

theorem convert_eq_ok {a a' : CharArray SIZE} {buf n : Nat} {v : T.Value} (h : convert a buf v = .ok (a', n)) :
    a.store buf (decimalText v.val ++ [0]) = .ok a' ∧ n = (decimalText v.val).length := by
  rw [convert_eq, bind_eq_ok] at h
  obtain ⟨b, hb, heq⟩ := h
  rw [Except.ok.injEq, Prod.mk.injEq] at heq
  obtain ⟨rfl, rfl⟩ := heq
  exact ⟨hb, rfl⟩

theorem formatPointer_eq {b : LogBuffer SIZE} (p : uintptr_t) (h : kMaxNumericSize ≤ b.avail) :
    formatPointer b p = (b.data.store b.cur (pointerText p ++ [0]) >>= fun data =>
      .ok { data := data, cur := b.cur + (pointerText p).length }) := by
  have hstores : (b.data.store b.cur (pointerText p ++ [0])) =
      (b.data.store b.cur (ascii "0") >>= fun data => data.store (b.cur + 1) (ascii "x") >>= fun data =>
        data.store (b.cur + 2) (hexadecimal.text p.val.natAbs ++ [0])) := by
    have htext : pointerText p ++ [0] = ascii "0" ++ (ascii "x" ++ (hexadecimal.text p.val.natAbs ++ [0])) := by
      rw [pointerText, List.append_assoc]
      rfl
    rw [htext, ← CharArray.store_store]
    refine congrArg _ (funext fun data => ?_)
    exact CharArray.store_store.symm
  unfold formatPointer
  rw [if_pos h, hstores]
  cases b.data.store b.cur (ascii "0") with
  | error e => rfl
  | ok data =>
    simp only [ok_bind]
    cases data.store (b.cur + 1) (ascii "x") with
    | error e => rfl
    | ok data =>
      simp only [ok_bind, convertHex_eq]
      cases data.store (b.cur + 2) (hexadecimal.text p.val.natAbs ++ [0]) with
      | error e => rfl
      | ok data =>
        have hlen : (pointerText p).length = (hexadecimal.text p.val.natAbs).length + 2 := by
          rw [pointerText, List.length_append]
          exact Nat.add_comm 2 _
        rw [hlen]
        rfl

/-- **The numerals are canonical.** With room for `kMaxNumericSize` bytes, `convert` writes the canonical
    decimal numeral and a NUL and returns the length; parsing it gives the value back, and different values
    have different texts. `operator<<(const void*)` appends `0x` and the canonical hexadecimal numeral. -/
theorem convert_canonical :
    (∀ (SIZE : Nat) (a : CharArray SIZE) (buf : Nat) (T : IntType) (v : T.Value), buf + kMaxNumericSize ≤ SIZE →
      ∃ a' text, convert a buf v = .ok (a', text.length) ∧ a'.read buf (buf + (text.length + 1)) = text ++ [0] ∧
        CanonicalDecimal v.val text ∧ parseDecimal text = some v.val ∧ text.length + 1 ≤ kMaxNumericSize) ∧
    (∀ (SIZE : Nat) (a a' b b' : CharArray SIZE) (p q n m : Nat) (T : IntType) (v w : T.Value),
      convert a p v = .ok (a', n) → convert b q w = .ok (b', m) → v.val ≠ w.val →
        a'.read p (p + n) ≠ b'.read q (q + m)) ∧
    (∀ (SIZE : Nat) (b : LogBuffer SIZE) (p : uintptr_t), kMaxNumericSize ≤ b.avail →
      ∃ b' number, formatPointer b p = .ok b' ∧ b'.content = b.content ++ (ascii "0x" ++ number) ∧
        b'.data.read b'.cur (b'.cur + 1) = [0] ∧ CanonicalText 16 p.val.natAbs number ∧
        parseNumeral 16 number = some p.val.natAbs ∧ (ascii "0x" ++ number).length + 1 ≤ kMaxNumericSize) := by
  refine ⟨fun SIZE a buf T v hroom => ?_, fun SIZE a a' b b' p q n m T v w hv hw hne => ?_, fun SIZE b p hroom => ?_⟩
  · have hlen := length_decimalText_le v
    unfold kMaxNumericSize at hroom ⊢
    obtain ⟨a', ha, -⟩ := CharArray.store_of_le (a := a) (p := buf) (x := decimalText v.val ++ [0])
      (by rw [List.length_append, List.length_singleton]; omega)
    have hconvert : convert a buf v = .ok (a', (decimalText v.val).length) := by rw [convert_eq, ha, ok_bind]
    have hcanon := canonical_decimalText v.val
    exact ⟨a', _, hconvert, (CharArray.read_text ha).1, hcanon, hcanon.parse, by omega⟩
  · obtain ⟨ha, rfl⟩ := convert_eq_ok hv
    obtain ⟨hb, rfl⟩ := convert_eq_ok hw
    rw [(CharArray.read_text ha).2, (CharArray.read_text hb).2]
    exact fun h => hne (decimalText_injective h)
  · have hlen := length_pointerText_le p
    have havail : (kMaxNumericSize : Int) ≤ SIZE - b.cur := hroom
    unfold kMaxNumericSize at havail ⊢
    obtain ⟨data, hdata, hbytes⟩ := CharArray.store_of_le (a := b.data) (p := b.cur) (x := pointerText p ++ [0])
      (by rw [List.length_append, List.length_singleton]; omega)
    have hformat : formatPointer b p = .ok { data := data, cur := b.cur + (pointerText p).length } := by
      rw [formatPointer_eq p hroom, hdata, ok_bind]
    have hcanon := hexadecimal.canonical_text hexadecimal_digit p.val.natAbs
    refine ⟨_, hexadecimal.text p.val.natAbs, hformat, ?_, ?_, hcanon, hcanon.parse (by decide), ?_⟩
    · -- the content goes on with what was stored
      show data.read 0 (b.cur + (pointerText p).length) = _
      have hsplit : data.read 0 b.cur ++ data.read b.cur (b.cur + (pointerText p).length) =
          data.read 0 (b.cur + (pointerText p).length) := slice_append_slice (Nat.zero_le _) (Nat.le_add_right _ _)
      rw [← hsplit, (CharArray.read_text hdata).2, (CharArray.read_store hdata).2.1 0 b.cur (le_refl _)]
      rfl
    · have hwhole := (CharArray.read_text hdata).1
      have hsplit : data.read b.cur (b.cur + (pointerText p).length) ++
          data.read (b.cur + (pointerText p).length) (b.cur + ((pointerText p).length + 1)) = pointerText p ++ [0] := by
        rw [← hwhole]
        exact slice_append_slice (by omega) (by omega)
      rw [(CharArray.read_text hdata).2] at hsplit
      exact List.append_cancel_left hsplit
    · show (pointerText p).length + 1 ≤ 32
      omega

/-- The extreme values of `long`, and a pointer. -/
theorem convert_canonical_extremes :
    (∃ a' b' n m, convert (⟨List.replicate 64 0, rfl⟩ : CharArray 64) 5
        (⟨-2 ^ 63, by decide, by decide⟩ : IntType.long.Value) =
        .ok (a', n) ∧
      convert (⟨List.replicate 64 0, rfl⟩ : CharArray 64) 5
      (⟨2 ^ 63 - 1, by decide, by decide⟩ : IntType.long.Value) =
        .ok (b', m) ∧ a'.read 5 (5 + n) ≠ b'.read 5 (5 + m)) ∧
    ∃ b', formatPointer (⟨⟨List.replicate 64 0, rfl⟩, 5⟩ : LogBuffer 64)
      ⟨2 ^ 47, by decide, by decide⟩ = .ok b' ∧
      b'.data.read b'.cur (b'.cur + 1) = [0] := by
  obtain ⟨hconvert, hdistinct, hpointer⟩ := convert_canonical
  obtain ⟨a', _, ha, -⟩ := hconvert 64 ⟨List.replicate 64 0, rfl⟩ 5 .long ⟨-2 ^ 63, by decide, by decide⟩
      (by decide)
  obtain ⟨b', _, hb, -⟩ := hconvert 64 ⟨List.replicate 64 0, rfl⟩ 5 .long
      ⟨2 ^ 63 - 1, by decide, by decide⟩ (by decide)
  obtain ⟨p', _, hp, -, hnul, -⟩ := hpointer 64 ⟨⟨List.replicate 64 0, rfl⟩, 5⟩
      ⟨2 ^ 47, by decide, by decide⟩ (by decide)
  exact ⟨⟨a', b', _, _, ha, hb, hdistinct _ _ _ _ _ _ _ _ _ _ _ _ ha hb (by decide)⟩, p', hp, hnul⟩

end LogStream

end Irono
