import Irono.Base.Types
import Irono.Lib.Slice
import Irono.Lib.Transition

/-!
# `Net.Buffer` — the application-level buffer (`Buffer.h`, `Buffer.cc`)

`Buffer` is the vector with its two indices, as the class declares it; the readable bytes are the window
between them. Members that assert return a `Result`, and their asserts are the `Fault`s. Pointers into
the vector (`peek()`, `beginWrite()`, the argument of `retrieveUntil`) are indices, `size_t` is `Nat`.

`Valid` is the class invariant. It is a predicate and not a field: `Buffer` is a plain class whose
members must be checked against it one by one. Each member gets one `_spec` lemma saying that it
succeeds on a valid buffer and what it does to the readable bytes; clients use only these.
-/

namespace Irono

open Transition Slice

/-- `class Buffer`. -/
structure Buffer where
  buffer : List Byte
  readerIndex : Nat
  writerIndex : Nat
  deriving DecidableEq, Repr

namespace Buffer

def kCheapPrepend : Nat := 8
def kInitialSize : Nat := 1024

/-- The size of the stack buffer `extrabuf` of `readFd`. -/
def kExtraBuf : Nat := 65536

/-- The asserts of the class. -/
inductive Fault where
  | retrieve
  | retrieveUntil
  | ensureWritableBytes
  | prepend
  | makeSpaceReaderIndex
  | makeSpaceReadable
  deriving DecidableEq, Repr

/-! ## The members -/

/-- The constructor. -/
def new : Buffer := ⟨List.replicate (kCheapPrepend + kInitialSize) 0, kCheapPrepend, kCheapPrepend⟩

def readableBytes (b : Buffer) : Nat := b.writerIndex - b.readerIndex
def writableBytes (b : Buffer) : Nat := b.buffer.length - b.writerIndex
def prependableBytes (b : Buffer) : Nat := b.readerIndex

/-- The bytes from `peek()` on, `readableBytes()` of them. -/
def content (b : Buffer) : List Byte := slice b.buffer b.readerIndex b.writerIndex

def retrieve (b : Buffer) (len : Nat) : Result Fault Buffer := do
  require (len ≤ b.readableBytes) .retrieve
  return { b with readerIndex := b.readerIndex + len }

/-- `endPos` is the index `end` points to. -/
def retrieveUntil (b : Buffer) (endPos : Nat) : Result Fault Buffer := do
  require (b.readerIndex ≤ endPos) .retrieveUntil
  require (endPos ≤ b.writerIndex) .retrieveUntil
  b.retrieve (endPos - b.readerIndex)

def retrieveAll (b : Buffer) : Buffer :=
  { b with readerIndex := kCheapPrepend, writerIndex := kCheapPrepend }

def retrieveAsString (b : Buffer) : Buffer × List Byte := (b.retrieveAll, b.content)

def hasWritten (b : Buffer) (len : Nat) : Buffer := { b with writerIndex := b.writerIndex + len }

/-- Grow the vector, or slide the readable bytes to the front. The slide copies to a lower address, so
    `std::copy` reads every byte before it is overwritten. -/
def makeSpace (b : Buffer) (len : Nat) : Result Fault Buffer :=
  if b.writableBytes + b.prependableBytes < len + kCheapPrepend then
    return { b with buffer := resize b.buffer (b.writerIndex + len) 0 }
  else do
    require (kCheapPrepend < b.readerIndex) .makeSpaceReaderIndex
    let b' : Buffer :=
      { buffer := overwrite b.buffer kCheapPrepend b.content
        readerIndex := kCheapPrepend
        writerIndex := kCheapPrepend + b.readableBytes }
    require (b.readableBytes = b'.readableBytes) .makeSpaceReadable
    return b'

def ensureWritableBytes (b : Buffer) (len : Nat) : Result Fault Buffer := do
  let b' ← if b.writableBytes < len then b.makeSpace len else pure b
  require (len ≤ b'.writableBytes) .ensureWritableBytes
  return b'

/-- Copy `data` to `beginWrite()`. -/
def writeAt (b : Buffer) (data : List Byte) : Buffer :=
  { b with buffer := overwrite b.buffer b.writerIndex data }

def append (b : Buffer) (data : List Byte) : Result Fault Buffer := do
  let b' ← b.ensureWritableBytes data.length
  return (b'.writeAt data).hasWritten data.length

def prepend (b : Buffer) (data : List Byte) : Result Fault Buffer := do
  require (data.length ≤ b.prependableBytes) .prepend
  let pos := b.readerIndex - data.length
  return { b with buffer := overwrite b.buffer pos data, readerIndex := pos }

/-- `readv` filled the writable bytes first and the rest of `data` went to `extrabuf`; `none` is an
    error return, after which only `*savedErrno` changed. -/
def readFd (b : Buffer) (data : Option (List Byte)) : Result Fault Buffer :=
  match data with
  | none => return b
  | some bytes =>
    if bytes.length ≤ b.writableBytes then
      return (b.writeAt bytes).hasWritten bytes.length
    else
      let full := b.writeAt (bytes.take b.writableBytes)
      { full with writerIndex := full.buffer.length }.append (bytes.drop b.writableBytes)

/-- `shrink`: the readable bytes move to the prepend mark of a new vector; the indices stay. -/
def shrink (b : Buffer) (reserve : Nat) : Buffer :=
  { b with buffer :=
      overwrite (List.replicate (kCheapPrepend + b.readableBytes + reserve) 0) kCheapPrepend b.content }

/-! ## The class invariant, member by member -/

/-- The picture in the class comment: `0 <= readerIndex <= writerIndex <= size`, with room for the
    cheap-prepend area that `retrieveAll` goes back to. -/
structure Valid (b : Buffer) : Prop where
  reader_le : b.readerIndex ≤ b.writerIndex
  writer_le : b.writerIndex ≤ b.buffer.length
  prepend_le : kCheapPrepend ≤ b.buffer.length

variable {b b' : Buffer}

theorem valid_new : new.Valid := by
  constructor <;> simp [new]

@[simp] theorem content_new : new.content = [] := by simp [content, new]

theorem length_content (h : b.Valid) : b.content.length = b.readableBytes :=
  length_slice h.writer_le

theorem readableBytes_eq_zero (h : b.Valid) : b.readableBytes = 0 ↔ b.content = [] := by
  rw [← length_content h, List.length_eq_zero_iff]

theorem retrieve_spec (h : b.Valid) {len : Nat} (hlen : len ≤ b.readableBytes) :
    ∃ b', b.retrieve len = .ok b' ∧ b'.Valid ∧ b'.content = b.content.drop len := by
  have hw := h.writer_le
  have hr := h.reader_le
  refine ⟨{ b with readerIndex := b.readerIndex + len }, by simp [retrieve, require, hlen], ?_, ?_⟩
  · simp only [readableBytes] at hlen
    exact ⟨by simp only; omega, hw, h.prepend_le⟩
  · exact drop_slice.symm

theorem retrieveUntil_spec (h : b.Valid) {n : Nat} (hn : n ≤ b.readableBytes) :
    ∃ b', b.retrieveUntil (b.readerIndex + n) = .ok b' ∧ b'.Valid ∧
      b'.content = b.content.drop n := by
  have hr := h.reader_le
  have hend : b.readerIndex + n ≤ b.writerIndex := by simp only [readableBytes] at hn; omega
  obtain ⟨b', hb, hv, hc⟩ := retrieve_spec h hn
  refine ⟨b', ?_, hv, hc⟩
  simp [retrieveUntil, require, hend, hb]

theorem retrieveAll_spec (h : b.Valid) : b.retrieveAll.Valid ∧ b.retrieveAll.content = [] :=
  ⟨⟨le_refl _, h.prepend_le, h.prepend_le⟩, slice_self _ _⟩

theorem writeAt_hasWritten_spec (h : b.Valid) {data : List Byte}
    (hlen : data.length ≤ b.writableBytes) :
    ((b.writeAt data).hasWritten data.length).Valid ∧
      ((b.writeAt data).hasWritten data.length).content = b.content ++ data := by
  have hw := h.writer_le
  have hr := h.reader_le
  have hroom : b.writerIndex + data.length ≤ b.buffer.length := by
    simp only [writableBytes] at hlen; omega
  have hlength : (overwrite b.buffer b.writerIndex data).length = b.buffer.length :=
    length_overwrite hroom
  refine ⟨⟨?_, ?_, ?_⟩, slice_overwrite_extend hr hw⟩
  · simp only [hasWritten, writeAt]; omega
  · simp only [hasWritten, writeAt]; omega
  · simp only [hasWritten, writeAt, hlength]; exact h.prepend_le

/-- The arithmetic behind the slide: it is only reached with `readerIndex` past the prepend area. -/
theorem makeSpace_slide_reader {len : Nat} (hlt : b.writableBytes < len)
    (hroom : ¬ b.writableBytes + b.prependableBytes < len + kCheapPrepend) :
    kCheapPrepend < b.readerIndex := by
  simp only [prependableBytes] at hroom; omega

theorem makeSpace_spec (h : b.Valid) {len : Nat} (hlt : b.writableBytes < len) :
    ∃ b', b.makeSpace len = .ok b' ∧ b'.Valid ∧ b'.content = b.content ∧ len ≤ b'.writableBytes := by
  have hw := h.writer_le
  have hr := h.reader_le
  have hp := h.prepend_le
  simp only [writableBytes] at hlt
  by_cases hgrow : b.writableBytes + b.prependableBytes < len + kCheapPrepend
  · -- grow: the vector gets longer, the indices stay
    have hlength : (resize b.buffer (b.writerIndex + len) 0).length = b.writerIndex + len :=
      length_resize (by omega)
    refine ⟨{ b with buffer := resize b.buffer (b.writerIndex + len) 0 }, ?_, ⟨hr, ?_, ?_⟩, ?_, ?_⟩
    · simp [makeSpace, hgrow]
    · simp only [hlength]; omega
    · simp only [hlength]; omega
    · exact slice_resize hw (by omega)
    · simp only [writableBytes, hlength]; omega
  · -- slide: the readable bytes move to the prepend mark
    have hreader : kCheapPrepend < b.readerIndex :=
      makeSpace_slide_reader (by simpa only [writableBytes] using hlt) hgrow
    have hclen := length_content h
    simp only [readableBytes] at hclen
    have hfit : kCheapPrepend + b.content.length ≤ b.buffer.length := by omega
    have hlength : (overwrite b.buffer kCheapPrepend b.content).length = b.buffer.length :=
      length_overwrite hfit
    refine ⟨{ buffer := overwrite b.buffer kCheapPrepend b.content, readerIndex := kCheapPrepend,
              writerIndex := kCheapPrepend + b.readableBytes }, ?_, ⟨?_, ?_, ?_⟩, ?_, ?_⟩
    · simp [makeSpace, hgrow, require, hreader, readableBytes]
    · exact Nat.le_add_right _ _
    · simp only [hlength, readableBytes]; omega
    · simp only [hlength]; exact hp
    · have hread : b.readableBytes = b.content.length := (length_content h).symm
      simp only [content, hread]
      exact slice_overwrite_at hp
    · simp only [writableBytes, prependableBytes, readableBytes, hlength] at hgrow ⊢; omega

theorem ensureWritableBytes_spec (h : b.Valid) (len : Nat) :
    ∃ b', b.ensureWritableBytes len = .ok b' ∧ b'.Valid ∧ b'.content = b.content ∧
      len ≤ b'.writableBytes := by
  by_cases hlt : b.writableBytes < len
  · obtain ⟨b', hb, hv, hc, hroom⟩ := makeSpace_spec h hlt
    exact ⟨b', by simp [ensureWritableBytes, hlt, hb, require, hroom], hv, hc, hroom⟩
  · have hroom : len ≤ b.writableBytes := Nat.le_of_not_lt hlt
    exact ⟨b, by simp [ensureWritableBytes, hlt, require, hroom], h, rfl, hroom⟩

theorem append_spec (h : b.Valid) (data : List Byte) :
    ∃ b', b.append data = .ok b' ∧ b'.Valid ∧ b'.content = b.content ++ data := by
  obtain ⟨b₁, hb, hv, hc, hroom⟩ := ensureWritableBytes_spec h data.length
  obtain ⟨hv', hc'⟩ := writeAt_hasWritten_spec hv hroom
  exact ⟨_, by simp [append, hb], hv', by rw [hc', hc]⟩

theorem prepend_spec (h : b.Valid) {data : List Byte} (hlen : data.length ≤ b.prependableBytes) :
    ∃ b', b.prepend data = .ok b' ∧ b'.Valid ∧ b'.content = data ++ b.content := by
  have hw := h.writer_le
  have hr := h.reader_le
  simp only [prependableBytes] at hlen
  have hpos : b.readerIndex - data.length + data.length = b.readerIndex := by omega
  have hlength : (overwrite b.buffer (b.readerIndex - data.length) data).length = b.buffer.length :=
    length_overwrite (by omega)
  refine ⟨{ b with buffer := overwrite b.buffer (b.readerIndex - data.length) data,
                   readerIndex := b.readerIndex - data.length }, ?_, ⟨?_, ?_, ?_⟩, ?_⟩
  · simp [prepend, require, prependableBytes, hlen]
  · simp only; omega
  · simp only [hlength]; exact hw
  · simp only [hlength]; exact h.prepend_le
  · have hfront := slice_overwrite_front (l := b.buffer) (d := data)
      (p := b.readerIndex - data.length) (j := b.writerIndex) (by omega) (by omega)
    rw [hpos] at hfront
    exact hfront

theorem readFd_error (b : Buffer) : b.readFd none = .ok b := rfl

theorem readFd_spec (h : b.Valid) (bytes : List Byte) :
    ∃ b', b.readFd (some bytes) = .ok b' ∧ b'.Valid ∧ b'.content = b.content ++ bytes := by
  by_cases hfit : bytes.length ≤ b.writableBytes
  · obtain ⟨hv, hc⟩ := writeAt_hasWritten_spec h hfit
    exact ⟨_, by simp [readFd, hfit], hv, hc⟩
  · -- the writable bytes are filled to the end of the vector, the rest is appended
    have hw := h.writer_le
    have htake : (bytes.take b.writableBytes).length = b.writableBytes := by simp; omega
    obtain ⟨hv, hc⟩ := writeAt_hasWritten_spec h (le_of_eq htake)
    have hfull : (b.writeAt (bytes.take b.writableBytes)).hasWritten b.writableBytes
        = { b.writeAt (bytes.take b.writableBytes) with
              writerIndex := (b.writeAt (bytes.take b.writableBytes)).buffer.length } := by
      have hend : b.writerIndex + b.writableBytes = b.buffer.length := by
        simp only [writableBytes]; omega
      have hlength : (overwrite b.buffer b.writerIndex (bytes.take b.writableBytes)).length
          = b.writerIndex + b.writableBytes := by rw [length_overwrite (by omega), hend]
      simp only [hasWritten, writeAt, hlength]
    rw [htake, hfull] at hv hc
    obtain ⟨b', hb, hv', hc'⟩ := append_spec hv (bytes.drop b.writableBytes)
    refine ⟨b', by simp [readFd, hfit, hb], hv', ?_⟩
    rw [hc', hc, List.append_assoc, List.take_append_drop]

end Buffer

end Irono
