import Irono.Base.Correctness.LogItems
import Irono.Base.Logging

/-!
# `Base.Correctness.LogSuffix` — where a record says that it ends

The destructor's five insertions are insertions like all others: each is dropped when it does not fit, and
the line number asks for the room of any number. They are complete exactly when `AllFit` holds of them,
which comes down to one inequality about the bytes in front (`location_fits`).
-/

namespace Irono

open Transition LogStream

namespace LogStream

variable {SIZE : Nat} {contents : List Byte} {items : List Item}

/-! ## Complete sequences -/

/-- Every item that adds something fits. -/
def AllFit (SIZE : Nat) (contents : List Byte) : List Item → Prop
  | [] => True
  | item :: items => (item.Fits (SIZE - contents.length) ∨ item.text = []) ∧ AllFit SIZE (contents ++ item.text) items

theorem length_putAll_le (SIZE : Nat) (contents : List Byte) (items : List Item) :
    (putAll SIZE contents items).length ≤ contents.length + (items.map Item.text).flatten.length := by
  induction items generalizing contents with
  | nil => exact le_refl _
  | cons item items ih =>
    have hput : (put SIZE contents item).length ≤ contents.length + item.text.length := by
      unfold put
      split
      · rw [List.length_append]
      · exact Nat.le_add_right _ _
    have hrest := ih (put SIZE contents item)
    rw [putAll_cons, List.map_cons, List.flatten_cons, List.length_append]
    omega

/-- **Nothing is missing exactly when everything fits**: a dropped item leaves the contents too short. -/
theorem putAll_eq_iff : putAll SIZE contents items = contents ++ (items.map Item.text).flatten ↔
    AllFit SIZE contents items := by
  induction items generalizing contents with
  | nil => simp [AllFit]
  | cons item items ih =>
    rw [putAll_cons, List.map_cons, List.flatten_cons, ← List.append_assoc, AllFit]
    by_cases hfits : item.Fits (SIZE - contents.length)
    · rw [put_of_fits hfits, ih]
      exact ⟨fun hrest => ⟨.inl hfits, hrest⟩, And.right⟩
    · rw [put_of_not_fits hfits]
      by_cases hnil : item.text = []
      · rw [hnil, List.append_nil, ih]
        exact ⟨fun hrest => ⟨.inr rfl, hrest⟩, And.right⟩
      · -- the others cannot make up for the text that is missing
        refine ⟨fun heq => ?_, fun hall => absurd hall.1 (not_or.mpr ⟨hfits, hnil⟩)⟩
        have hlen := congrArg List.length heq
        have hle := length_putAll_le SIZE contents items
        have hpos := List.length_pos_iff.mpr hnil
        rw [List.length_append, List.length_append] at hlen
        omega

/-- A buffer with one byte to spare takes nothing any more. -/
theorem putAll_full (h : SIZE ≤ contents.length + 1) : putAll SIZE contents items = contents := by
  induction items with
  | nil => rfl
  | cons item items ih =>
    have hput : put SIZE contents item = contents := by
      by_cases hfits : item.Fits (SIZE - contents.length)
      · have hlt := hfits.length_lt
        have hnil : item.text = [] := List.eq_nil_of_length_eq_zero (by omega)
        rw [put_of_fits hfits, hnil, List.append_nil]
      · exact put_of_not_fits hfits
    rw [putAll_cons, hput, ih]

end LogStream

namespace Logger

/-- The suffix of a record: `" -- <file>:<line>"` and a newline. -/
def locationText (filename : List Byte) (line : IntType.int.Value) : List Byte :=
  ascii " -- " ++ (filename ++ (ascii ":" ++ (decimalText line.val ++ [10])))

/-- What the stream holds when the destructor begins. -/
def before (env : Surroundings) (level : LogLevel) (operands : List Item) : List Byte :=
  putAll kSmallBuffer (putAll kSmallBuffer [] (header env level)) operands

theorem flatten_location (filename : List Byte) (line : IntType.int.Value) :
    ((location filename line).map Item.text).flatten = locationText filename line := by
  simp [location, Item.text, locationText]

/-- **The suffix fits** when the line number finds room for any number. -/
theorem location_fits {contents filename : List Byte} {line : IntType.int.Value} :
    AllFit kSmallBuffer contents (location filename line) ↔
      contents.length + filename.length + 37 ≤ kSmallBuffer := by
  have hdigits := length_decimalText_le line
  have hsome : decimalText line.val ≠ [] := by
    unfold decimalText
    exact List.append_ne_nil_of_right_ne_nil _ (Radix.text_ne_nil _ _)
  have hdash : (ascii " -- ").length = 4 := rfl
  have hcolon : (ascii ":").length = 1 := rfl
  have hkSmall : kSmallBuffer = 4000 := rfl
  have hkMax : kMaxNumericSize = 32 := rfl
  simp only [location, AllFit, Item.Fits, Item.numeric, Item.text, if_true, Bool.false_eq_true, if_false,
    List.length_append, List.length_singleton, hdash, hcolon, hkSmall, hkMax, hsome, or_false, and_true]
  constructor
  · -- of the five guards the line number's asks for most
    rintro ⟨-, -, -, hline, -⟩
    omega
  · intro hroom
    refine ⟨.inl ?_, .inl ?_, .inl ?_, ?_, .inl ?_⟩
    all_goals omega

theorem header_admissible (env : Surroundings) (level : LogLevel) : AllAdmissible kSmallBuffer [] (header env level) := by
  have hstr := env.str_t.short
  have htid := env.t_tidString.short
  have hlevel : (LogLevelName level).chars.length = 6 := by cases level <;> rfl
  refine ⟨.inr (.inl ?_), .inr (.inl ?_), .inr (.inl ?_), .inr (.inl ?_), trivial⟩
  · show env.str_t.chars.length < 2 ^ 31
    omega
  · show (LogLevelName level).chars.length < 2 ^ 31
    omega
  · show env.t_tidString.chars.length < 2 ^ 31
    omega
  · show (ascii " ").length < 2 ^ 31
    decide

theorem location_admissible {contents filename : List Byte} {line : IntType.int.Value}
    (h : filename.length < 2 ^ 31) : AllAdmissible kSmallBuffer contents (location filename line) :=
  ⟨.inr (.inl (by decide)), .inr (.inl h), .inr (.inl (by decide)), .inl rfl, .inr (.inl (by decide)), trivial⟩

/-! ## The record -/

section

variable (env : Surroundings) (filename : CString) (line : IntType.int.Value) (level : LogLevel) (operands : List Item)

/-- A statement whose operands are admissible comes to its destructor with `before` in the stream. -/
theorem statement_eq (hadm : AllAdmissible kSmallBuffer (putAll kSmallBuffer [] (header env level)) operands) :
    ∃ stream : LogBuffer kSmallBuffer, stream.Shows (before env level operands) ∧
      statement env filename line level operands =
        Impl.destroy { stream := stream, level := level, line := line, filename := filename.chars } := by
  have hSIZE : kSmallBuffer < 2 ^ 31 := by decide
  obtain ⟨b, hb, hshows⟩ := ((LogBuffer.shows_new env.data).insertAll _ hSIZE).mpr (header_admissible env level)
  obtain ⟨b', hb', hshows'⟩ := (hshows.insertAll _ hSIZE).mpr hadm
  refine ⟨b', hshows', ?_⟩
  unfold statement Impl.new
  rw [hb]
  simp only [ok_bind, pure_eq_ok, hb']

/-- A statement whose operands are not admissible writes outside the array. -/
theorem statement_error (hadm : ¬ AllAdmissible kSmallBuffer (putAll kSmallBuffer [] (header env level)) operands) :
    statement env filename line level operands = .error (.fault .outOfBounds) := by
  have hSIZE : kSmallBuffer < 2 ^ 31 := by decide
  obtain ⟨b, hb, hshows⟩ := ((LogBuffer.shows_new env.data).insertAll _ hSIZE).mpr (header_admissible env level)
  have herror := hshows.insertAll_error hadm hSIZE
  unfold statement Impl.new
  rw [hb]
  simp only [ok_bind, pure_eq_ok, herror, error_bind]

/-- The destructor, with the array showing `contents`. -/
theorem destroy_eq_ok (impl : Impl) {contents record : List Byte} (h : impl.stream.Shows contents) :
    impl.destroy = .ok record ↔ AllAdmissible kSmallBuffer contents (location impl.filename impl.line) ∧
      record = putAll kSmallBuffer contents (location impl.filename impl.line) := by
  have hSIZE : kSmallBuffer < 2 ^ 31 := by decide
  unfold Impl.destroy
  by_cases hadm : AllAdmissible kSmallBuffer contents (location impl.filename impl.line)
  · obtain ⟨b, hb, hshows⟩ := (h.insertAll _ hSIZE).mpr hadm
    rw [hb, ok_bind, pure_eq_ok, Except.ok.injEq, hshows.content]
    exact ⟨fun heq => ⟨hadm, heq.symm⟩, fun hrec => hrec.2.symm⟩
  · rw [h.insertAll_error hadm hSIZE, error_bind]
    constructor
    · intro heq
      cases heq
    · exact fun hrec => absurd hrec.1 hadm

/-- **The suffix is complete** exactly when the operands are admissible and leave room for the file name
    and 37 bytes. -/
theorem record_ends_with_location :
    statement env filename line level operands =
        .ok (before env level operands ++ locationText filename.chars line) ↔
      AllAdmissible kSmallBuffer (putAll kSmallBuffer [] (header env level)) operands ∧
        (before env level operands).length + filename.chars.length + 37 ≤ kSmallBuffer := by
  by_cases hadm : AllAdmissible kSmallBuffer (putAll kSmallBuffer [] (header env level)) operands
  · obtain ⟨stream, hshows, hstatement⟩ := statement_eq env filename line level operands hadm
    rw [hstatement, destroy_eq_ok { stream := stream, level := level, line := line, filename := filename.chars }
      hshows]
    have hcomplete : before env level operands ++ locationText filename.chars line =
        putAll kSmallBuffer (before env level operands) (location filename.chars line) ↔
          (before env level operands).length + filename.chars.length + 37 ≤ kSmallBuffer := by
      rw [← location_fits, ← putAll_eq_iff, flatten_location]
      exact eq_comm
    simp only [hcomplete]
    constructor
    · exact fun h => ⟨hadm, h.2⟩
    · rintro ⟨-, hroom⟩
      have hkSmall : kSmallBuffer = 4000 := rfl
      exact ⟨location_admissible (by omega), hroom⟩
  · rw [statement_error env filename line level operands hadm]
    constructor
    · intro heq
      cases heq
    · exact fun h => absurd h.1 hadm

end

/-- A thread and a time. -/
def sampleSurroundings : Surroundings where
  str_t := ⟨⟨ascii "2021-11-28 11:24:23 ", by decide⟩, by decide⟩
  t_tidString := ⟨⟨ascii "131880 ", by decide⟩, by decide⟩
  data := ⟨List.replicate kSmallBuffer 0, List.length_replicate⟩

/-- An operand that leaves one byte: the record ends with it. -/
theorem record_without_location : ∃ record,
    statement sampleSurroundings ⟨ascii "test.cc", by decide⟩ ⟨42, by decide, by decide⟩ .DEBUG
        [.string (List.replicate 3965 120)] = .ok record ∧
      ¬ locationText (ascii "test.cc") ⟨42, by decide, by decide⟩ <:+ record := by
  have hheader : putAll kSmallBuffer [] (header sampleSurroundings .DEBUG) =
      ascii "2021-11-28 11:24:23 DEBUG 131880  " := by decide +kernel
  have hlength : (ascii "2021-11-28 11:24:23 DEBUG 131880  ").length = 34 := rfl
  obtain ⟨stream, hshows, hstatement⟩ := statement_eq sampleSurroundings ⟨ascii "test.cc", by decide⟩
    ⟨42, by decide, by decide⟩ .DEBUG [.string (List.replicate 3965 120)]
    ⟨.inr (.inl (by rw [Item.text, List.length_replicate]; decide)), trivial⟩
  have hbefore : before sampleSurroundings .DEBUG [.string (List.replicate 3965 120)] =
      ascii "2021-11-28 11:24:23 DEBUG 131880  " ++ List.replicate 3965 120 := by
    rw [before, hheader, putAll_cons, putAll_nil]
    apply put_of_fits
    rw [hlength]
    show (List.replicate 3965 _).length < 3966
    rw [List.length_replicate]
    decide
  have hrecord := hstatement.trans
    ((destroy_eq_ok _ hshows).mpr ⟨location_admissible (by show 7 < 2 ^ 31; decide), rfl⟩)
  rw [putAll_full (by rw [hbefore, List.length_append, hlength, List.length_replicate]; decide), hbefore] at hrecord
  refine ⟨_, hrecord, ?_⟩
  -- the last byte would be a newline
  rintro ⟨front, heq⟩
  have hlast := congrArg List.getLast? heq
  simp only [locationText, List.getLast?_append, List.getLast?_replicate, List.getLast?_singleton, Option.some_or] at hlast
  exact absurd hlast (by decide)

end Logger

end Irono
