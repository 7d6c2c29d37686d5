import Irono.Example.Codec
import Irono.Lib.Framing

/-!
# `Example.Correctness.Framing` — messages do not depend on how the stream was cut

`frames` is the reference: what one frame is, on the bare stream. A turn of `onMessage` takes such a frame
from the buffer or finds none (`turn_of_frame`, `turn_of_none`), so the loop parses the buffer
(`onMessage_spec`) and `receive` is the reference fed in pieces (`receive_spec`). An invalid length stays at
the front for good (`badLength_append`).
-/

namespace Irono

open Transition Framing

namespace LengthHeaderCodec

/-! ## The reference -/

/-- The length at the front of a stream: four bytes, big-endian. -/
def lengthField (stream : List Byte) : Option Int :=
  if stream.length < 4 then none else some (int32 (ntohl (stream.take 4)))

/-- The first length that is not one. -/
def badLength (stream : List Byte) : Option Int :=
  (lengthField stream).filter fun len => len < 0 ∨ 65536 < len

/-- One frame: a length, and as many bytes. -/
def readFrame (stream : List Byte) : Option (List Byte × List Byte) :=
  (lengthField stream).bind fun len =>
    if len < 0 ∨ 65536 < len ∨ stream.length < 4 + len.toNat then none
    else some ((stream.drop 4).take len.toNat, stream.drop (4 + len.toNat))

theorem lengthField_append {s : List Byte} {len : Int} (t : List Byte) (h : lengthField s = some len) :
    lengthField (s ++ t) = some len := by
  unfold lengthField at h ⊢
  split at h
  · cases h
  · rename_i hlong
    rw [if_neg (by rw [List.length_append]; omega), List.take_append_of_le_length (Nat.le_of_not_lt hlong)]
    exact h

theorem lengthField_eq_some {s : List Byte} {len : Int} (h : lengthField s = some len) : 4 ≤ s.length := by
  unfold lengthField at h
  split at h
  · cases h
  · rename_i hlong
    exact Nat.le_of_not_lt hlong

/-- What a frame is, said of the stream. -/
theorem readFrame_eq_some {s m rest : List Byte} : readFrame s = some (m, rest) ↔
    ∃ len, lengthField s = some len ∧ 0 ≤ len ∧ len ≤ 65536 ∧
      m.length = len.toNat ∧ s = s.take 4 ++ m ++ rest := by
  unfold readFrame
  rw [Option.bind_eq_some_iff]
  refine exists_congr fun len => and_congr_right fun hlen => ?_
  have hheader := lengthField_eq_some hlen
  constructor
  · intro h
    split at h
    · cases h
    · rename_i hvalid
      rw [Option.some.injEq, Prod.mk.injEq] at h
      obtain ⟨rfl, rfl⟩ := h
      refine ⟨by omega, by omega, ?_, ?_⟩
      · rw [List.length_take, List.length_drop]
        omega
      · rw [List.append_assoc, ← List.drop_drop, List.take_append_drop, List.take_append_drop]
  · rintro ⟨hnonneg, hmax, hm, hs⟩
    have hfour : (s.take 4).length = 4 := by rw [List.length_take]; omega
    have hlength : s.length = 4 + len.toNat + rest.length := by
      conv => lhs; rw [hs]
      rw [List.length_append, List.length_append, hfour, hm]
    rw [if_neg (by omega), Option.some.injEq, Prod.mk.injEq]
    have hdrop : s.drop 4 = m ++ rest := by
      conv => lhs; rw [hs]
      rw [List.append_assoc, List.drop_append_of_le_length (le_of_eq hfour.symm), List.drop_of_length_le (le_of_eq hfour),
        List.nil_append]
    -- behind the length stand the message and the rest, and the length says where the message ends
    rw [← List.drop_drop, hdrop, ← hm]
    exact ⟨List.take_left, List.drop_left⟩

/-- **The reference parse** takes frames as long as there are any. -/
def frames : Decoder Byte (List Byte) where
  next := readFrame
  shrinks := by
    intro s m rest h
    obtain ⟨len, hlen, -, -, -, hs⟩ := readFrame_eq_some.mp h
    have hheader := lengthField_eq_some hlen
    have hlength := congrArg List.length hs
    simp only [List.length_append, List.length_take] at hlength
    omega
  stable := by
    intro s m rest t h
    obtain ⟨len, hlen, hnonneg, hmax, hm, hs⟩ := readFrame_eq_some.mp h
    refine readFrame_eq_some.mpr ⟨len, lengthField_append t hlen, hnonneg, hmax, hm, ?_⟩
    have htake : (s ++ t).take 4 = s.take 4 := List.take_append_of_le_length (lengthField_eq_some hlen)
    rw [htake, ← List.append_assoc, ← hs]

theorem next_frames (s : List Byte) : frames.next s = readFrame s := rfl

theorem badLength_eq_some {s : List Byte} {len : Int} :
    badLength s = some len ↔ lengthField s = some len ∧ (len < 0 ∨ 65536 < len) := by
  unfold badLength
  rw [Option.filter_eq_some_iff, decide_eq_true_eq]

/-- An invalid length stays where it is. -/
theorem badLength_append {s : List Byte} {len : Int} (t : List Byte) (h : badLength s = some len) :
    badLength (s ++ t) = some len := by
  obtain ⟨hlen, hbad⟩ := badLength_eq_some.mp h
  exact badLength_eq_some.mpr ⟨lengthField_append t hlen, hbad⟩

/-- A stream that is at a bad length has no next frame. -/
theorem next_of_badLength {s : List Byte} {len : Int} (h : badLength s = some len) : frames.next s = none := by
  obtain ⟨hlen, hbad⟩ := badLength_eq_some.mp h
  rw [next_frames, readFrame, hlen, Option.bind_some, if_pos (hbad.imp_right .inl)]

/-! ## A turn -/

variable {buf buf' : Buffer}

theorem sizeT_of_nonneg {len : Int} (hnonneg : 0 ≤ len) (hmax : len ≤ 65536) : sizeT len = len.toNat := by
  unfold sizeT
  rw [Int.emod_eq_of_lt hnonneg (by omega)]

/-- The condition of the `while`, and the length it reads. -/
theorem lengthField_content (hv : buf.Valid) (h : kHeaderLen ≤ buf.readableBytes) :
    lengthField buf.content = some (int32 (ntohl (buf.content.take kHeaderLen))) := by
  rw [← Buffer.length_content hv] at h
  exact if_neg (Nat.not_lt.mpr h)

/-- **A frame at the front** is taken. -/
theorem turn_of_frame (hv : buf.Valid) {m rest : List Byte} (h : readFrame buf.content = some (m, rest)) :
    ∃ buf', turn buf = .ok (.again buf' m) ∧ buf'.Valid ∧ buf'.content = rest := by
  obtain ⟨len, hlen, hnonneg, hmax, hm, hs⟩ := readFrame_eq_some.mp h
  have hfour := lengthField_eq_some hlen
  have hlength := Buffer.length_content hv
  have htotal := congrArg List.length hs
  rw [List.length_append, List.length_append, List.length_take, hm] at htotal
  have hheader : kHeaderLen ≤ buf.readableBytes := by unfold kHeaderLen; omega
  have hread := (lengthField_content hv hheader).symm.trans hlen
  rw [Option.some.injEq] at hread
  have hdrop : buf.content.drop 4 = m ++ rest := by
    conv => lhs; rw [hs]
    rw [List.append_assoc, List.drop_append_of_le_length (by rw [List.length_take]; omega),
      List.drop_of_length_le (by rw [List.length_take]; omega), List.nil_append]
  -- the header goes, then the body
  obtain ⟨b₁, hb₁, hv₁, hc₁⟩ := Buffer.retrieve_spec hv hheader
  have hc₁' : b₁.content = m ++ rest := hc₁.trans hdrop
  have hlength₁ := Buffer.length_content hv₁
  rw [hc₁', List.length_append] at hlength₁
  have hfit : len.toNat ≤ b₁.readableBytes := by omega
  obtain ⟨b₂, hb₂, hv₂, hc₂⟩ := Buffer.retrieve_spec hv₁ hfit
  refine ⟨b₂, ?_, hv₂, ?_⟩
  · -- both tests pass: the length is a valid one, and the body is there
    unfold turn
    simp only [hread, sizeT_of_nonneg hnonneg hmax]
    rw [if_pos hheader, if_neg (by omega), if_pos (by unfold kHeaderLen; omega), hb₁]
    simp only [ok_bind]
    rw [hb₂, hc₁', ← hm, List.take_left]
    rfl
  · rw [hc₂, hc₁', ← hm, List.drop_left]

/-- What a call reports when it leaves the loop. -/
def leaving (stream : List Byte) : List Event :=
  match badLength stream with
  | some len => [.invalidLength len, .shutdown]
  | none => []

/-- **No frame at the front**: the loop is left, with a report when the length is invalid. -/
theorem turn_of_none (hv : buf.Valid) (h : readFrame buf.content = none) :
    turn buf = .ok (.leave (leaving buf.content)) := by
  have hlength := Buffer.length_content hv
  unfold turn
  by_cases hheader : kHeaderLen ≤ buf.readableBytes
  · have hlen := lengthField_content hv hheader
    rw [if_pos hheader]
    simp only
    by_cases hbad : 65536 < int32 (ntohl (buf.content.take kHeaderLen)) ∨ int32 (ntohl (buf.content.take kHeaderLen)) < 0
    · have hreport := badLength_eq_some.mpr ⟨hlen, hbad.symm⟩
      rw [if_pos hbad, leaving, hreport]
      rfl
    · have hgood : badLength buf.content = none := by
        unfold badLength
        rw [hlen, Option.filter_some, if_neg (by rw [decide_eq_true_eq]; omega)]
      rw [if_neg hbad, leaving, hgood, if_neg ?_]
      · rfl
      · -- the body is not there yet
        intro hroom
        have hkHeader : kHeaderLen = 4 := rfl
        rw [sizeT_of_nonneg (by omega) (by omega)] at hroom
        unfold readFrame at h
        rw [hlen, Option.bind_some, if_neg (by omega)] at h
        cases h
  · have hshort : lengthField buf.content = none := if_pos (by unfold kHeaderLen at hheader; omega)
    have hgood : badLength buf.content = none := by
      unfold badLength
      rw [hshort]
      rfl
    rw [if_neg hheader, leaving, hgood]
    rfl

/-! ## The loop -/

/-- The messages among what was called. -/
def delivered (events : List Event) : List (List Byte) :=
  events.filterMap fun event => match event with
    | .message m => some m
    | .invalidLength _ => none
    | .shutdown => none

theorem onMessage_of_none (hv : buf.Valid) (h : readFrame buf.content = none) :
    onMessage buf = .ok (buf, leaving buf.content) := by
  have hturn := turn_of_none hv h
  rw [onMessage]
  split
  · rename_i herror
    rw [hturn] at herror
    cases herror
  · rename_i hleave
    rw [hturn, Except.ok.injEq] at hleave
    obtain rfl := Turn.leave.inj hleave
    rfl
  · rename_i hagain
    rw [hturn, Except.ok.injEq] at hagain
    cases hagain

/-- A turn of the `while` that went on gave one message. -/
theorem onMessage_of_again {message : List Byte} (h : turn buf = .ok (.again buf' message)) :
    onMessage buf = (onMessage buf' >>= fun r => .ok (r.1, .message message :: r.2)) := by
  rw [onMessage]
  split
  · rename_i herror
    rw [h] at herror
    cases herror
  · rename_i hleave
    rw [h, Except.ok.injEq] at hleave
    cases hleave
  · rename_i hagain
    rw [h, Except.ok.injEq] at hagain
    obtain ⟨rfl, rfl⟩ := Turn.again.inj hagain
    rfl

/-- **The loop parses the buffer**: it delivers the frames there are, leaves the rest, and reports what is
    at the front of it. -/
theorem onMessage_spec (hv : buf.Valid) : ∃ buf', buf'.Valid ∧ buf'.content = (frames.parse buf.content).2 ∧
    onMessage buf = .ok (buf', (frames.parse buf.content).1.map .message ++ leaving buf'.content) := by
  -- induction along what the buffer holds: a turn takes one frame
  induction hc : buf.content using Decoder.parse_induction frames generalizing buf with
  | stuck s h =>
    subst hc
    rw [Decoder.parse_of_none h]
    exact ⟨buf, hv, rfl, onMessage_of_none hv h⟩
  | frame s m rest h ih =>
    subst hc
    obtain ⟨b₁, hturn, hv₁, hc₁⟩ := turn_of_frame hv h
    obtain ⟨b₂, hv₂, hc₂, hrun⟩ := ih hv₁ hc₁
    rw [Decoder.parse_of_some h]
    refine ⟨b₂, hv₂, hc₂, ?_⟩
    rw [onMessage_of_again hturn, hrun]
    rfl

/-! ## The stream in pieces -/

theorem delivered_map (ms : List (List Byte)) : delivered (ms.map .message) = ms := by
  induction ms with
  | nil => rfl
  | cons m ms ih =>
    rw [List.map_cons]
    show m :: delivered _ = _
    rw [ih]

theorem delivered_leaving (stream : List Byte) : delivered (leaving stream) = [] := by
  unfold leaving
  split
  · rfl
  · rfl

theorem mem_leaving {stream : List Byte} {len : Int} (h : .invalidLength len ∈ leaving stream) :
    badLength stream = some len := by
  unfold leaving at h
  split at h
  · rename_i len' hbad
    rw [List.mem_cons, List.mem_singleton] at h
    rcases h with h | h
    · rw [hbad, Event.invalidLength.inj h]
    · cases h
  · cases h

/-- **Fed in pieces**, the codec delivers what the reference does, keeps what it keeps, and has reported an
    invalid length only when there is one in front of what is kept. -/
theorem receive_spec (hv : buf.Valid) (hnone : frames.next buf.content = none) (chunks : List (List Byte)) :
    ∃ buf' events, receive buf chunks = .ok (buf', events) ∧ buf'.Valid ∧
      delivered events = (frames.parse (buf.content ++ chunks.flatten)).1 ∧
      buf'.content = (frames.parse (buf.content ++ chunks.flatten)).2 ∧
      ∀ len, .invalidLength len ∈ events → badLength buf'.content = some len := by
  induction chunks generalizing buf with
  | nil =>
    rw [List.flatten_nil, List.append_nil, Decoder.parse_of_none hnone]
    exact ⟨buf, [], rfl, hv, rfl, rfl, fun len h => absurd h List.not_mem_nil⟩
  | cons chunk chunks ih =>
    obtain ⟨b₁, hb₁, hv₁, hc₁⟩ := Buffer.append_spec hv chunk
    obtain ⟨b₂, hv₂, hc₂, hrun⟩ := onMessage_spec hv₁
    have hnone₂ : frames.next b₂.content = none := by
      -- what a call leaves has no frame at the front
      rw [hc₂]
      exact Decoder.next_parse _ _
    obtain ⟨b₃, events, hrest, hv₃, hdelivered, hc₃, hbad⟩ := ih hv₂ hnone₂
    have hparse := Decoder.parse_append frames b₁.content chunks.flatten
    rw [← hc₂, hc₁, List.append_assoc, ← List.flatten_cons] at hparse
    refine ⟨b₃, (frames.parse b₁.content).1.map .message ++ leaving b₂.content ++ events, ?_, hv₃, ?_, ?_, ?_⟩
    · rw [receive, hb₁, ok_bind, hrun, ok_bind]
      simp only [hrest, ok_bind, pure_eq_ok]
    · rw [hparse, delivered, List.filterMap_append, List.filterMap_append]
      show delivered _ ++ delivered _ ++ delivered _ = _
      rw [delivered_map, delivered_leaving, List.append_nil, hdelivered, hc₁]
    · rw [hparse, hc₃]
    · intro len hlen
      rw [List.mem_append, List.mem_append] at hlen
      rcases hlen with (hmap | hleave) | hlater
      · obtain ⟨_, -, heq⟩ := List.mem_map.mp hmap
        cases heq
      · -- it was reported before the later pieces, and stays in front of them
        have hstay := badLength_append chunks.flatten (mem_leaving hleave)
        rw [hc₃, Decoder.parse_of_none (next_of_badLength hstay)]
        exact hstay
      · exact hbad len hlater

theorem receive_new (chunks : List (List Byte)) :
    ∃ buf' events, receive .new chunks = .ok (buf', events) ∧ buf'.Valid ∧
      delivered events = (frames.parse chunks.flatten).1 ∧ buf'.content = (frames.parse chunks.flatten).2 ∧
      ∀ len, .invalidLength len ∈ events → badLength buf'.content = some len := by
  have hnone : frames.next Buffer.new.content = none := by
    rw [Buffer.content_new]
    rfl
  have h := receive_spec Buffer.valid_new hnone chunks
  rw [Buffer.content_new, List.nil_append] at h
  exact h

/-! ## What `send` writes -/

/-- A message behind its length. -/
def frame (message : List Byte) : List Byte := htonl (int32 message.length) ++ message

/-- `append` to a buffer that was never read from leaves the room in front of it. -/
theorem append_readerIndex {message : List Byte} (hreader : buf.readerIndex = Buffer.kCheapPrepend)
    (h : buf.append message = .ok buf') : buf'.readerIndex = Buffer.kCheapPrepend := by
  unfold Buffer.append at h
  rw [bind_eq_ok] at h
  obtain ⟨b₁, hensure, heq⟩ := h
  rw [pure_eq_ok, Except.ok.injEq] at heq
  rw [← heq]
  show b₁.readerIndex = _
  unfold Buffer.ensureWritableBytes at hensure
  split at hensure
  · rw [bind_eq_ok] at hensure
    obtain ⟨b₂, hmake, hensure⟩ := hensure
    rw [bind_eq_ok] at hensure
    obtain ⟨-, -, heq⟩ := hensure
    rw [pure_eq_ok, Except.ok.injEq] at heq
    rw [← heq]
    unfold Buffer.makeSpace at hmake
    split at hmake
    · rw [pure_eq_ok, Except.ok.injEq] at hmake
      rw [← hmake]
      exact hreader
    · -- there is nothing to slide over
      rw [require, if_neg (by rw [hreader]; exact Nat.lt_irrefl _)] at hmake
      cases hmake
  · rw [pure_eq_ok, ok_bind, bind_eq_ok] at hensure
    obtain ⟨-, -, heq⟩ := hensure
    rw [pure_eq_ok, Except.ok.injEq] at heq
    rw [← heq]
    exact hreader

/-- **`send` frames the message**, whatever its size. -/
theorem send_spec (message : List Byte) : send true message = .ok (some (frame message)) := by
  obtain ⟨b₁, hb₁, hv₁, hc₁⟩ := Buffer.append_spec Buffer.valid_new message
  have hroom : b₁.prependableBytes = 8 := append_readerIndex rfl hb₁
  have hlen : (htonl (int32 message.length)).length = 4 := rfl
  have hfit : (htonl (int32 message.length)).length ≤ b₁.prependableBytes := by
    rw [hroom, hlen]
    decide
  obtain ⟨b₂, hb₂, -, hc₂⟩ := Buffer.prepend_spec hv₁ hfit
  rw [Buffer.content_new, List.nil_append] at hc₁
  unfold send
  rw [hb₁]
  simp only [ok_bind, hb₂, pure_eq_ok]
  show Except.ok (some b₂.content) = _
  rw [hc₂, hc₁]
  rfl

/-- `send` sends frames. -/
theorem sent_eq {messages sent : List (List Byte)}
    (h : List.Forall₂ (fun message bytes => send true message = .ok (some bytes)) messages sent) :
    sent = messages.map frame := by
  induction h with
  | nil => rfl
  | cons hbytes _ ih =>
    rw [send_spec, Except.ok.injEq, Option.some.injEq] at hbytes
    rw [List.map_cons, hbytes, ih]

/-- The four bytes are the value without its sign. -/
theorem ntohl_htonl (x : Int) : ntohl (htonl x) = x % 2 ^ 32 := by
  have hnonneg := Int.emod_nonneg x (b := 2 ^ 32) (by decide)
  have hlt := Int.emod_lt_of_pos x (b := 2 ^ 32) (by decide)
  have hbytes : ∀ n : Nat, n < 2 ^ 32 → ((n / 2 ^ 24 % 2 ^ 8 * 2 ^ 8 + n / 2 ^ 16 % 2 ^ 8) * 2 ^ 8 +
      n / 2 ^ 8 % 2 ^ 8) * 2 ^ 8 + n % 2 ^ 8 = n := by
    intro n hn
    omega
  have hvalue := hbytes (x % 2 ^ 32).toNat (by omega)
  simp only [ntohl, htonl, List.foldl_cons, List.foldl_nil, UInt8.toNat_ofNat']
  omega

theorem lengthField_frame (message t : List Byte) :
    lengthField (frame message ++ t) = some (int32 message.length) := by
  have htake : (frame message ++ t).take 4 = htonl (int32 message.length) := rfl
  have hlong : ¬ (frame message ++ t).length < 4 := by
    rw [List.length_append, frame, List.length_append]
    show ¬ 4 + _ + _ < 4
    omega
  unfold lengthField
  rw [if_neg hlong, htake, ntohl_htonl]
  rw [Option.some.injEq]
  unfold int32
  have hbmod : (2 ^ 32 : Int) = ((2 ^ 32 : Nat) : Int) := rfl
  rw [hbmod, Int.emod_bmod, Int.bmod_bmod]

/-- The frame of a message that is not too long is one for the reference. -/
theorem readFrame_frame {message : List Byte} (h : message.length ≤ 65536) (t : List Byte) :
    frames.next (frame message ++ t) = some (message, t) := by
  have hint : int32 message.length = message.length := int32_of_lt (by omega)
  rw [next_frames, readFrame_eq_some]
  refine ⟨_, lengthField_frame message t, by omega, by omega, ?_, ?_⟩
  · rw [hint]
    rfl
  · show frame message ++ t = htonl (int32 message.length) ++ message ++ t
    rfl

/-! ## The results -/

/-- **Framing is independent of segmentation.** However a stream is cut, the calls deliver the messages of
    the reference parse and leave what it leaves; the frames of `send` give back their messages. -/
theorem framing_independent :
    (∀ chunks, ∃ buf events, receive .new chunks = .ok (buf, events) ∧
      delivered events = (frames.parse chunks.flatten).1 ∧ buf.content = (frames.parse chunks.flatten).2) ∧
    ∀ messages sent chunks, List.Forall₂ (fun message bytes => send true message = .ok (some bytes)) messages sent →
      (∀ message ∈ messages, message.length ≤ 65536) → chunks.flatten = sent.flatten →
      ∃ buf events, receive .new chunks = .ok (buf, events) ∧ delivered events = messages ∧ buf.content = [] := by
  constructor
  · intro chunks
    obtain ⟨buf, events, hrun, -, hdelivered, hcontent, -⟩ := receive_new chunks
    exact ⟨buf, events, hrun, hdelivered, hcontent⟩
  · intro messages sent chunks hsent hshort hchunks
    obtain ⟨buf, events, hrun, -, hdelivered, hcontent, -⟩ := receive_new chunks
    have hparse := Decoder.parse_encode (D := frames) (fun m hm t => readFrame_frame (hshort m hm) t) []
    have hempty : frames.parse [] = ([], []) := Decoder.parse_of_none rfl
    rw [List.append_nil, ← sent_eq hsent, ← hchunks, hempty, List.append_nil] at hparse
    rw [hparse] at hdelivered hcontent
    exact ⟨buf, events, hrun, hdelivered, hcontent⟩

/-- Two messages, cut inside a length and inside a body. -/
theorem framing_independent_cut : ∃ buf events,
    receive .new [[0, 0, 0], [2, 7], [8, 0, 0, 0, 1, 9]] = .ok (buf, events) ∧ delivered events = [[7, 8], [9]] ∧
      buf.content = [] :=
  framing_independent.2 [[7, 8], [9]] [frame [7, 8], frame [9]] _ (.cons (send_spec _) (.cons (send_spec _) .nil))
    (by decide) (by decide)

theorem mem_delivered {m : List Byte} {events : List Event} : m ∈ delivered events ↔ .message m ∈ events := by
  unfold delivered
  rw [List.mem_filterMap]
  constructor
  · rintro ⟨event, hevent, heq⟩
    cases event with
    | message m' =>
      rw [Option.some.injEq] at heq
      exact heq ▸ hevent
    | invalidLength len => cases heq
    | shutdown => cases heq
  · exact fun h => ⟨_, h, rfl⟩

theorem length_of_readFrame {s m rest : List Byte} (h : frames.next s = some (m, rest)) : m.length ≤ 65536 := by
  obtain ⟨len, -, hnonneg, hmax, hm, -⟩ := readFrame_eq_some.mp h
  omega

/-- **The decoder takes what the encoder sends** exactly when the message has at most 65536 bytes. -/
theorem sent_delivered_iff (message bytes : List Byte) (hsent : send true message = .ok (some bytes))
    (chunks : List (List Byte)) (hchunks : chunks.flatten = bytes) :
    ∃ buf events, receive .new chunks = .ok (buf, events) ∧
      ((.message message ∈ events ∧ ∀ len, .invalidLength len ∉ events) ↔ message.length ≤ 65536) := by
  obtain ⟨buf, events, hrun, -, hdelivered, hcontent, hbad⟩ := receive_new chunks
  refine ⟨buf, events, hrun, ?_, ?_⟩
  · rintro ⟨hmessage, -⟩
    rw [← mem_delivered, hdelivered] at hmessage
    exact Decoder.forall_parse length_of_readFrame _ _ hmessage
  · intro hshort
    have hframe := Decoder.parse_of_some (readFrame_frame hshort [])
    have hempty : frames.parse [] = ([], []) := Decoder.parse_of_none rfl
    rw [send_spec, Except.ok.injEq, Option.some.injEq] at hsent
    rw [List.append_nil, hempty, hsent, ← hchunks] at hframe
    rw [hframe] at hdelivered hcontent
    refine ⟨mem_delivered.mp (by rw [hdelivered]; exact List.mem_singleton_self _), fun len hlen => ?_⟩
    have hreport := hbad len hlen
    rw [hcontent] at hreport
    cases hreport

theorem sent_delivered_iff_short : ∃ buf events, receive .new [[0, 0], [0, 1, 7]] = .ok (buf, events) ∧
    ((.message [7] ∈ events ∧ ∀ len, .invalidLength len ∉ events) ↔ [(7 : Byte)].length ≤ 65536) :=
  sent_delivered_iff [7] _ (send_spec [7]) _ (by decide)

/-- A message of 65537 bytes is sent and not delivered. -/
theorem sent_undelivered : ∃ bytes, send true (List.replicate 65537 7) = .ok (some bytes) ∧
    ∃ buf events, receive .new [bytes] = .ok (buf, events) ∧ .message (List.replicate 65537 7) ∉ events := by
  refine ⟨_, send_spec _, ?_⟩
  obtain ⟨buf, events, hrun, -, hdelivered, -, -⟩ := receive_new [frame (List.replicate 65537 7)]
  refine ⟨buf, events, hrun, fun hmessage => ?_⟩
  rw [← mem_delivered, hdelivered] at hmessage
  have hlen := Decoder.forall_parse length_of_readFrame _ _ hmessage
  rw [List.length_replicate] at hlen
  exact absurd hlen (by decide)

end LengthHeaderCodec

end Irono
