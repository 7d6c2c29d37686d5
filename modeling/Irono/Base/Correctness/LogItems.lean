import Irono.Base.AsyncLogging
import Irono.Base.Correctness.LogNumerals

/-!
# `Base.Correctness.LogItems` — items go in whole, or not at all

What a stream is for is said without its memory: `put` appends the text of an item when the item fits, and
nothing else. The buffer **shows** these contents (`Shows`) as long as the items are admissible: the guard
of a text compares its length as an `int`, so a text of 2^31 bytes or more may pass the guard, and then is
stored past the end of the array.
-/

namespace Irono

open Transition Slice Numeral

namespace LogStream

variable {SIZE : Nat}

/-! ## What an item adds -/

/-- The complete rendering of an item. -/
def Item.text : Item → List Byte
  | .cString (some str) => str.chars
  | .cString none => ascii "(null)"
  | .string v => v
  | .integer _ v => decimalText v.val
  | .char v => [v]
  | .pointer p => pointerText p
  | .double v => v.chars

/-- The items that are written in place. -/
def Item.numeric : Item → Bool
  | .integer _ _ | .pointer _ | .double _ => true
  | .cString _ | .string _ | .char _ => false

/-- An item fits in the room left: a text with a byte to spare, a number when any number would fit. -/
def Item.Fits (item : Item) (room : Nat) : Prop :=
  if item.numeric then kMaxNumericSize ≤ room else item.text.length < room

instance (item : Item) (room : Nat) : Decidable (item.Fits room) := by
  unfold Item.Fits
  infer_instance

/-- The contents after an item. -/
def put (SIZE : Nat) (contents : List Byte) (item : Item) : List Byte :=
  if item.Fits (SIZE - contents.length) then contents ++ item.text else contents

/-- The contents after a sequence of items. -/
def putAll (SIZE : Nat) (contents : List Byte) (items : List Item) : List Byte := items.foldl (put SIZE) contents

/-- The guard of a text decides about its length: that is an `int`, or the `int` it is cut to is too large
    anyway. -/
def Item.Admissible (item : Item) (room : Nat) : Prop :=
  item.numeric ∨ item.text.length < 2 ^ 31 ∨ (room : Int) ≤ int32 item.text.length

/-- Each item of a sequence is admissible in the room it finds. -/
def AllAdmissible (SIZE : Nat) (contents : List Byte) : List Item → Prop
  | [] => True
  | item :: items => item.Admissible (SIZE - contents.length) ∧ AllAdmissible SIZE (put SIZE contents item) items

/-- A number's text leaves room for its NUL. -/
theorem Item.length_text_lt {item : Item} (h : item.numeric) : item.text.length < kMaxNumericSize := by
  have hkMax : kMaxNumericSize = 32 := rfl
  cases item with
  | cString str => cases h
  | string v => cases h
  | char v => cases h
  | integer T v =>
    have hlen := length_decimalText_le v
    show (decimalText v.val).length < kMaxNumericSize
    omega
  | pointer p =>
    have hlen := length_pointerText_le p
    show (pointerText p).length < kMaxNumericSize
    omega
  | double v => exact v.short

/-- A text that fits is shorter than the room. -/
theorem Item.Fits.length_lt {item : Item} {room : Nat} (h : item.Fits room) : item.text.length < room := by
  unfold Item.Fits at h
  split at h
  · rename_i hnum
    exact Nat.lt_of_lt_of_le (item.length_text_lt hnum) h
  · exact h

theorem put_of_fits {contents : List Byte} {item : Item} (h : item.Fits (SIZE - contents.length)) :
    put SIZE contents item = contents ++ item.text := if_pos h

theorem put_of_not_fits {contents : List Byte} {item : Item} (h : ¬ item.Fits (SIZE - contents.length)) :
    put SIZE contents item = contents := if_neg h

@[simp] theorem putAll_nil (contents : List Byte) : putAll SIZE contents [] = contents := rfl

@[simp] theorem putAll_cons (contents : List Byte) (item : Item) (items : List Item) :
    putAll SIZE contents (item :: items) = putAll SIZE (put SIZE contents item) items := rfl

/-! ## The memory shows it -/

/-- The buffer's content is `contents`, inside the array. -/
structure LogBuffer.Shows (b : LogBuffer SIZE) (contents : List Byte) : Prop where
  inside : b.cur ≤ SIZE
  content : b.content = contents

theorem LogBuffer.shows_new (data : CharArray SIZE) : (LogBuffer.new data).Shows [] := by
  refine ⟨Nat.zero_le _, ?_⟩
  show slice data.bytes 0 0 = []
  exact slice_self _ _

variable {b : LogBuffer SIZE} {contents : List Byte}

theorem LogBuffer.Shows.length (h : b.Shows contents) : contents.length = b.cur := by
  rw [← h.content, LogBuffer.content, CharArray.read, length_slice (by rw [b.data.length_eq]; exact h.inside)]
  exact Nat.sub_zero _

theorem LogBuffer.Shows.room (h : b.Shows contents) : ((SIZE - contents.length : Nat) : Int) = b.avail := by
  have hinside := h.inside
  rw [h.length, LogBuffer.avail]
  omega

/-- **A text is stored behind the contents**, with or without a NUL behind it. -/
theorem LogBuffer.Shows.store (h : b.Shows contents) {text behind : List Byte} {data : CharArray SIZE}
    (hstore : b.data.store b.cur (text ++ behind) = .ok data) :
    (⟨data, b.cur + text.length⟩ : LogBuffer SIZE).Shows (contents ++ text) := by
  obtain ⟨hle, -⟩ := CharArray.store_eq_ok.mp hstore
  obtain ⟨hwhole, hbefore, -⟩ := CharArray.read_store hstore
  rw [List.length_append] at hle hwhole
  refine ⟨?_, ?_⟩
  · show b.cur + text.length ≤ SIZE
    omega
  · -- the window of the content is the old content and the window of the text
    have hold : data.read 0 b.cur = contents := by
      rw [hbefore 0 b.cur (le_refl _)]
      exact h.content
    have htext : data.read b.cur (b.cur + text.length) = text := by
      have hsplit : data.read b.cur (b.cur + text.length) ++
          data.read (b.cur + text.length) (b.cur + (text.length + behind.length)) = text ++ behind := by
        rw [← hwhole]
        exact slice_append_slice (by omega) (by omega)
      refine (List.append_inj hsplit ?_).1
      rw [CharArray.read, length_slice (by rw [data.length_eq]; omega)]
      omega
    have hsplit : data.read 0 b.cur ++ data.read b.cur (b.cur + text.length) = data.read 0 (b.cur + text.length) :=
      slice_append_slice (Nat.zero_le _) (Nat.le_add_right _ _)
    show data.read 0 (b.cur + text.length) = contents ++ text
    rw [← hsplit, hold, htext]

/-! ## Each overload -/

theorem insert_text {item : Item} (h : item.numeric = false) : insert b item = b.append item.text := by
  cases item with
  | cString str => cases str <;> rfl
  | string v => rfl
  | char v => rfl
  | integer T v => cases h
  | pointer p => cases h
  | double v => cases h

/-- A number is one store of its text and a NUL. -/
theorem insert_numeric {item : Item} (h : item.numeric) (havail : kMaxNumericSize ≤ b.avail) :
    insert b item = (b.data.store b.cur (item.text ++ [0]) >>= fun data =>
      .ok { data := data, cur := b.cur + item.text.length }) := by
  cases item with
  | cString str => cases h
  | string v => cases h
  | char v => cases h
  | integer T v =>
    show formatInteger b v = _
    unfold formatInteger
    rw [if_pos havail, convert_eq]
    show _ = (b.data.store b.cur (decimalText v.val ++ [0]) >>= _)
    cases b.data.store b.cur (decimalText v.val ++ [0]) with
    | error e => rfl
    | ok data => rfl
  | pointer p => exact formatPointer_eq p havail
  | double v =>
    have hshort := v.short
    show formatDouble b v = _
    unfold formatDouble
    rw [if_pos havail, List.take_of_length_le (by omega)]
    rfl

theorem insert_numeric_full {item : Item} (h : item.numeric) (havail : ¬ kMaxNumericSize ≤ b.avail) :
    insert b item = .ok b := by
  cases item with
  | cString str => cases h
  | string v => cases h
  | char v => cases h
  | integer T v => exact if_neg havail
  | pointer p => exact if_neg havail
  | double v => exact if_neg havail

/-- `append` of a text whose guard is right. -/
theorem LogBuffer.Shows.append (h : b.Shows contents) {text : List Byte}
    (htext : text.length < 2 ^ 31 ∨ ((SIZE - contents.length : Nat) : Int) ≤ int32 text.length) :
    ∃ b', b.append text = .ok b' ∧
      b'.Shows (if text.length < SIZE - contents.length then contents ++ text else contents) := by
  have hroom := h.room
  have hlength := h.length
  have hinside := h.inside
  unfold LogBuffer.append
  by_cases hguard : int32 text.length < b.avail
  · -- the guard is passed: the length is its own `int`
    have hcast : int32 text.length = text.length := by
      rcases htext with hlt | hle
      · exact int32_of_lt hlt
      · omega
    obtain ⟨data, hdata, -⟩ := CharArray.store_of_le (a := b.data) (p := b.cur) (x := text ++ [])
      (by rw [List.append_nil]; omega)
    have hshows := h.store hdata
    rw [List.append_nil] at hdata
    rw [if_pos hguard, if_pos (by omega), hdata]
    exact ⟨_, rfl, hshows⟩
  · have hlong : ¬ text.length < SIZE - contents.length := by
      intro hlt
      rcases htext with hint | hle
      · rw [int32_of_lt hint] at hguard
        omega
      · -- an `int` is never more than the length it was cut from
        have hcast := int32_le text.length
        omega
    rw [if_neg hguard, if_neg hlong]
    exact ⟨b, rfl, h⟩

/-- **One insertion** of an admissible item. -/
theorem LogBuffer.Shows.insert (h : b.Shows contents) {item : Item} (hitem : item.Admissible (SIZE - contents.length)) :
    ∃ b', LogStream.insert b item = .ok b' ∧ b'.Shows (put SIZE contents item) := by
  have hroom := h.room
  cases hnum : item.numeric with
  | false =>
    rw [insert_text hnum, put]
    have hfits : item.Fits (SIZE - contents.length) ↔ item.text.length < SIZE - contents.length := by
      unfold Item.Fits
      rw [hnum]
      rfl
    simp only [hfits]
    apply h.append
    exact hitem.resolve_left (by rw [hnum]; decide)
  | true =>
    have hfits : item.Fits (SIZE - contents.length) ↔ kMaxNumericSize ≤ b.avail := by
      unfold Item.Fits
      rw [hnum, if_pos rfl, ← hroom]
      exact Int.ofNat_le.symm
    by_cases havail : kMaxNumericSize ≤ b.avail
    · have hlen := item.length_text_lt hnum
      have hlength := h.length
      have hinside := h.inside
      obtain ⟨data, hdata, -⟩ := CharArray.store_of_le (a := b.data) (p := b.cur) (x := item.text ++ [0])
        (by rw [List.length_append, List.length_singleton]; omega)
      rw [insert_numeric hnum havail, hdata, put_of_fits (hfits.mpr havail)]
      exact ⟨_, rfl, h.store hdata⟩
    · rw [insert_numeric_full hnum havail, put_of_not_fits (mt hfits.mp havail)]
      exact ⟨b, rfl, h⟩

/-- An item that is not admissible passes the guard, and does not fit. -/
theorem LogBuffer.Shows.overrun (h : b.Shows contents) {item : Item}
    (hitem : ¬ item.Admissible (SIZE - contents.length)) (hSIZE : SIZE < 2 ^ 31) :
    LogStream.insert b item = .error (.fault .outOfBounds) := by
  have hroom := h.room
  unfold Item.Admissible at hitem
  rw [not_or, not_or] at hitem
  obtain ⟨hnum, hlong, hguard⟩ := hitem
  rw [insert_text (Bool.eq_false_iff.mpr hnum), LogBuffer.append, if_pos (by omega), CharArray.store_of_lt (by omega)]
  rfl

/-- **A sequence of insertions** goes through exactly when each item is admissible, and then the buffer
    shows the items that fitted. -/
theorem LogBuffer.Shows.insertAll (h : b.Shows contents) (items : List Item) (hSIZE : SIZE < 2 ^ 31) :
    (∃ b', LogStream.insertAll b items = .ok b' ∧ b'.Shows (putAll SIZE contents items)) ↔
      AllAdmissible SIZE contents items := by
  -- by induction on the items; what the buffer shows is carried along
  induction items generalizing b contents with
  | nil => exact ⟨fun _ => trivial, fun _ => ⟨b, rfl, h⟩⟩
  | cons item items ih =>
    rw [LogStream.insertAll, AllAdmissible, putAll_cons]
    by_cases hitem : item.Admissible (SIZE - contents.length)
    · obtain ⟨b', hinsert, hshows⟩ := h.insert hitem
      rw [hinsert, ok_bind, ih hshows]
      exact ⟨fun hrest => ⟨hitem, hrest⟩, And.right⟩
    · rw [h.overrun hitem hSIZE, error_bind]
      constructor
      · rintro ⟨b', hb', -⟩
        cases hb'
      · rintro ⟨hadm, -⟩
        exact absurd hadm hitem

/-- A sequence that is not admissible ends outside the array. -/
theorem LogBuffer.Shows.insertAll_error (h : b.Shows contents) {items : List Item}
    (hitems : ¬ AllAdmissible SIZE contents items) (hSIZE : SIZE < 2 ^ 31) :
    LogStream.insertAll b items = .error (.fault .outOfBounds) := by
  induction items generalizing b contents with
  | nil => exact absurd trivial hitems
  | cons item items ih =>
    rw [LogStream.insertAll]
    by_cases hitem : item.Admissible (SIZE - contents.length)
    · obtain ⟨b', hinsert, hshows⟩ := h.insert hitem
      rw [hinsert, ok_bind]
      exact ih hshows fun hrest => hitems ⟨hitem, hrest⟩
    · rw [h.overrun hitem hSIZE, error_bind]

/-- The buffer of the back end is what such a buffer shows. -/
theorem LogBuffer.Shows.refines {c : FixedBuffer SIZE} (h : b.Shows c.data) {buf : List Byte}
    (hlen : buf.length < 2 ^ 31) :
    ∃ b', b.append buf = .ok b' ∧ b'.Shows (c.append buf).data := by
  obtain ⟨b', hb', hshows⟩ := h.append (.inl hlen)
  refine ⟨b', hb', ?_⟩
  have hdata : (c.append buf).data = if buf.length < SIZE - c.data.length then c.data ++ buf else c.data := by
    split
    · rename_i hfits
      exact FixedBuffer.data_append hfits
    · rename_i hfull
      have hsame : c.append buf = c := dif_neg hfull
      rw [hsame]
  rw [hdata]
  exact hshows

/-! ## The result -/

/-- **Items go in whole, or not at all**, exactly when each item is admissible in the room it finds. -/
theorem contents_of_fitted (data : CharArray kSmallBuffer) (items : List Item) :
    (∀ pre, pre <+: items → ∃ b, insertAll (.new data) pre = .ok b ∧ b.cur ≤ kSmallBuffer ∧
      b.content = putAll kSmallBuffer [] pre) ↔ AllAdmissible kSmallBuffer [] items := by
  have hSIZE : kSmallBuffer < 2 ^ 31 := by decide
  constructor
  · intro h
    obtain ⟨b, hb, hinside, hcontent⟩ := h items (List.prefix_refl _)
    exact ((LogBuffer.shows_new data).insertAll items hSIZE).mp ⟨b, hb, hinside, hcontent⟩
  · -- the items in front are admissible as well
    have hstart : ∀ (contents : List Byte) (pre post : List Item),
        AllAdmissible kSmallBuffer contents (pre ++ post) → AllAdmissible kSmallBuffer contents pre := by
      intro contents pre post
      induction pre generalizing contents with
      | nil => exact fun _ => trivial
      | cons item pre ih => exact And.imp_right (ih _)
    rintro hadm _ ⟨post, rfl⟩
    obtain ⟨b, hb, hshows⟩ := ((LogBuffer.shows_new data).insertAll _ hSIZE).mpr (hstart _ _ post hadm)
    exact ⟨b, hb, hshows.inside, hshows.content⟩

/-- A string of 2^31 bytes is copied into the buffer of 4000. -/
theorem contents_overrun : insertAll
    (.new (⟨List.replicate kSmallBuffer 0, List.length_replicate⟩ : CharArray kSmallBuffer))
    [.string (List.replicate (2 ^ 31) 65)] = .error (.fault .outOfBounds) := by
  refine (LogBuffer.shows_new _).insertAll_error ?_ (by decide)
  rintro ⟨hadm, -⟩
  -- the length is negative as an `int`, and less than any room
  have hcast : int32 (2 ^ 31 : Nat) = -2 ^ 31 := by decide
  unfold Item.Admissible Item.text at hadm
  rw [List.length_replicate, hcast] at hadm
  rcases hadm with hnum | hlt | hle
  · cases hnum
  · exact absurd hlt (by decide)
  · exact absurd hle (by decide)

end LogStream

end Irono
