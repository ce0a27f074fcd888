import FlowService.Proofs.Text.Offsets
import Mathlib.Data.List.Induction

/-!
The offsets of the positions inside of a buffer are the boundaries between its characters, but for
those between a carriage return and the line feed or the end of the buffer behind it.
-/

namespace FlowService

namespace Text

/-- What is above a line ends in a line feed. -/
theorem eq_feed_of_mem_getLast?_above (lines : List (List Char)) (number : Nat) :
    ∀ char ∈ (above lines number).getLast?, char = '\n' := by
  unfold above
  induction lines.take number using List.reverseRecOn with
  | nil => simp
  | append_singleton front raw =>
    intro char member
    rw [List.flatMap_append, List.flatMap_singleton, ← List.append_assoc,
      List.getLast?_concat] at member
    exact (Option.some.inj member).symm

/-- A line that closes with a carriage return once its end is taken away had one more. -/
theorem ending_of_getLast?_withoutReturn {raw : List Char}
    (last : (withoutReturn raw).getLast? = some '\r') : ending raw = ['\r'] := by
  by_cases ended : raw.getLast? = some '\r'
  · exact if_pos ended
  · have whole : withoutReturn raw = raw := if_neg ended
    rw [whole] at last
    contradiction

/-- The beginning of a line with its end is the beginning of its text, or all of it with the
carriage return that ends it. -/
theorem isPrefix_withoutReturn (first last : List Char) :
    first <+: withoutReturn (first ++ last) ∨ first.getLast? = some '\r' ∧ last = [] := by
  unfold withoutReturn
  split
  · rename_i ended
    cases last with
    | nil =>
      rw [List.append_nil] at ended
      exact Or.inr ⟨ended, rfl⟩
    | cons char later =>
      rw [List.dropLast_append_of_ne_nil (List.cons_ne_nil char later)]
      exact Or.inl (List.prefix_append ..)
  · exact Or.inl (List.prefix_append ..)

/-- What is below a line begins with a line feed, if there is anything. -/
theorem below_cases (lines : List (List Char)) (number : Nat) :
    below lines number = [] ∨ (below lines number).head? = some '\n' := by
  unfold below
  cases lines.drop (number + 1) with
  | nil => exact Or.inl rfl
  | cons raw later => exact Or.inr rfl

end Text

namespace Document

variable {document : Document} {position : Position}

/-- A buffer's columns fit when its lines without their ends have fewer than 2³² characters. -/
def ColumnsFit (document : Document) : Prop :=
  ∀ raw ∈ document.rawLines, (Text.withoutReturn raw).length < UInt32.size

instance (document : Document) : Decidable document.ColumnsFit :=
  inferInstanceAs (Decidable (∀ raw ∈ document.rawLines, _))

/-- Where columns fit, a line that is there has fewer than 2³² characters. -/
theorem ColumnsFit.length_lt (fits : document.ColumnsFit) {number : UInt32} {line : List Char}
    (there : document.line? number = some line) : line.length < UInt32.size := by
  obtain ⟨raw, found, rfl⟩ := exists_rawLine there
  exact fits raw (List.mem_of_getElem? found)

/-- A stretch between two line feeds is a line with its end. -/
theorem line?_of_rawLine {number : UInt32} {raw : List Char}
    (found : document.rawLines[number.toNat]? = some raw) :
    document.line? number = some (Text.withoutReturn raw) := by
  unfold line?
  rw [found]
  rfl

/-- What is behind a position is the rest of its line, its end and what is below it. -/
theorem before_append_behind {raw : List Char}
    (found : document.rawLines[position.line.toNat]? = some raw) :
    document.before position ++ ((Text.withoutReturn raw).drop position.character.toNat ++
      (Text.ending raw ++ Text.below document.rawLines position.line.toNat)) =
        document.characters := by
  let lines := document.rawLines
  let number := position.line.toNat
  let column := position.character.toNat
  calc
    _ = Text.above lines number ++ ((Text.withoutReturn raw).take column ++
        (Text.withoutReturn raw).drop column ++ Text.ending raw) ++ Text.below lines number := by
      rw [before_of_line (line?_of_rawLine found)]
      simp only [List.append_assoc]
      rfl
    _ = Text.above lines number ++ raw ++ Text.below lines number := by
      rw [List.take_append_drop, Text.withoutReturn_append_ending]
    _ = document.characters := (characters_eq found).symm

/-- No position on a line is in the middle of the end of a line. -/
theorem not_splitsEnding {line : List Char} (there : document.line? position.line = some line) :
    ¬Text.SplitsEnding document.characters (document.offsetAt position) := by
  rintro ⟨front, back, text, feed, same⟩
  obtain ⟨raw, found, rfl⟩ := exists_rawLine there
  -- What is in front of the position closes with the carriage return.
  have before : document.before position = front ++ ['\r'] := by
    rw [offsetAt_eq_byteLength] at same
    apply Text.eq_of_byteLength_eq (before_isPrefix document position) _ same
    rw [text]
    exact ⟨back, by simp⟩
  have behind := before_append_behind found
  rw [before, text, List.append_cons front '\r' back] at behind
  obtain rfl := List.append_cancel_left behind
  cases rest : (Text.withoutReturn raw).drop position.character.toNat with
  | cons char later =>
    -- A line holds no line feed, so none follows in the middle of it.
    rw [rest] at feed
    rcases feed with none | next
    · cases none
    · obtain rfl : char = '\n' := Option.some.inj next
      have member : '\n' ∈ (Text.withoutReturn raw).drop position.character.toNat := by simp [rest]
      exact not_mem_of_line? there (List.mem_of_mem_drop member)
  | nil =>
    rw [rest] at feed
    rw [before_of_line there, List.take_of_length_le (List.drop_eq_nil_iff.mp rest)] at before
    have last := congrArg List.getLast? before
    rw [List.getLast?_concat, List.getLast?_append] at last
    cases ends : (Text.withoutReturn raw).getLast? with
    | none =>
      -- The lines above close with a line feed.
      rw [ends] at last
      exact absurd (Text.eq_feed_of_mem_getLast?_above _ _ _ last) (by decide)
    | some char =>
      -- The line closes with a carriage return and has another one behind it.
      rw [ends] at last
      obtain rfl : char = '\r' := Option.some.inj last
      rw [Text.ending_of_getLast?_withoutReturn ends] at feed
      rcases feed with none | next
      · cases none
      · exact absurd (Option.some.inj next) (by decide)

/-- A buffer that is not cut in the middle of the end of a line is cut at a position. -/
theorem exists_position_of_cut (lines : document.rawLines.length < UInt32.size)
    (columns : document.ColumnsFit) {front back : List Char}
    (text : document.characters = front ++ back)
    (whole : ¬Text.SplitsEnding document.characters (Text.byteLength front)) :
    ∃ position, document.IsInside position ∧ document.before position = front := by
  have joined : ['\n'].intercalate document.rawLines = front ++ back := by
    rw [← text, rawLines, Text.splitAt_eq_splitOn, List.intercalate_splitOn]
  have nonempty : document.rawLines ≠ [] := by
    rw [rawLines, Text.splitAt_eq_splitOn]
    exact List.splitOn_ne_nil _ _
  obtain ⟨number, first, last, found, rfl, rfl⟩ := Text.exists_line_of_intercalate nonempty joined
  -- The number of the line and the columns on it fit in 32 bits.
  have inside := (List.getElem?_eq_some_iff.mp found).1
  have small : number.toUInt32.toNat = number :=
    UInt32.toNat_ofNat_of_lt (Nat.lt_trans inside lines)
  have there : document.line? number.toUInt32 = some (Text.withoutReturn (first ++ last)) := by
    apply line?_of_rawLine
    rwa [small]
  have shorter := columns.length_lt there
  rcases Text.isPrefix_withoutReturn first last with start | ⟨closed, rfl⟩
  · have fits := start.length_le
    have column : first.length.toUInt32.toNat = first.length :=
      UInt32.toNat_ofNat_of_lt (Nat.lt_of_le_of_lt fits shorter)
    refine ⟨⟨number.toUInt32, first.length.toUInt32⟩, ⟨_, there, ?_⟩, ?_⟩
    · rw [column]
      exact fits
    · rw [before_of_line there]
      simp only [small, column]
      rw [← List.prefix_iff_eq_take.mp start]
  · -- The cut would be behind the carriage return that ends the line.
    exfalso
    apply whole
    obtain ⟨line, rfl⟩ := List.getLast?_eq_some_iff.mp closed
    refine ⟨Text.above document.rawLines number ++ line, Text.below document.rawLines number, ?_,
      Text.below_cases document.rawLines number, ?_⟩
    · rw [text]
      simp
    · rw [List.append_assoc]

/-- The offsets of the positions inside of a buffer are the boundaries of its text that are not in
the middle of the end of a line. -/
theorem image_offsetAt (lines : document.rawLines.length < UInt32.size)
    (columns : document.ColumnsFit) :
    document.offsetAt '' {position | document.IsInside position} =
      {offset | Text.IsBoundary document.text offset ∧
        ¬Text.SplitsEnding document.characters offset} := by
  ext offset
  constructor
  · rintro ⟨position, ⟨line, there, fits⟩, rfl⟩
    refine ⟨Text.isBoundary_iff.mpr ?_, not_splitsEnding there⟩
    exact ⟨_, before_isPrefix document position, offsetAt_eq_byteLength document position⟩
  · rintro ⟨boundary, whole⟩
    obtain ⟨front, ⟨back, text⟩, rfl⟩ := Text.isBoundary_iff.mp boundary
    obtain ⟨position, inside, rfl⟩ := exists_position_of_cut lines columns text.symm whole
    exact ⟨position, inside, offsetAt_eq_byteLength document position⟩

/-- Positions of a buffer and offsets into its bytes agree on what is where. -/
structure PlacesAgree (document : Document) : Prop where
  /-- Every position leads between two characters, or to an end of the text. -/
  boundary : ∀ position, Text.IsBoundary document.text (document.offsetAt position) ∧
    document.offsetAt position ≤ document.text.utf8ByteSize
  monotone : Monotone document.offsetAt
  strictMono : StrictMonoOn document.offsetAt {position | document.IsInside position}
  image : document.offsetAt '' {position | document.IsInside position} =
    {offset | Text.IsBoundary document.text offset ∧
      ¬Text.SplitsEnding document.characters offset}
  /-- There is a text between any two positions. -/
  sliced : ∀ range, ∃ text, document.slice? range = some text
  line : ∀ number line, document.line? number = some line →
    document.slice? ⟨⟨number, 0⟩, ⟨number, line.length.toUInt32⟩⟩ = some (String.ofList line)
  columns : ∀ number line, document.line? number = some line → ∀ first last, first ≤ last →
    document.slice? ⟨⟨number, first⟩, ⟨number, last⟩⟩ =
      some (String.ofList ((line.take last.toNat).drop first.toNat))
  /-- What is between two positions is what is between them and one that is not outside of them. -/
  joined : ∀ first middle last, first ≤ middle → middle ≤ last → ∃ front back,
    document.slice? ⟨first, middle⟩ = some front ∧ document.slice? ⟨middle, last⟩ = some back ∧
      document.slice? ⟨first, last⟩ = some (front ++ back)

/-- In every buffer whose lines and columns fit in 32 bits, positions and offsets agree. -/
theorem positions_and_offsets_agree {document : Document}
    (lines : document.rawLines.length < UInt32.size) (columns : document.ColumnsFit) :
    document.PlacesAgree := by
  constructor
  case boundary =>
    intro position
    have boundary : Text.IsBoundary document.text (document.offsetAt position) :=
      Text.isBoundary_iff.mpr
        ⟨_, before_isPrefix document position, offsetAt_eq_byteLength document position⟩
    exact ⟨boundary, boundary.le_rawEndPos⟩
  case monotone =>
    intro first second order
    rw [offsetAt_eq_byteLength, offsetAt_eq_byteLength]
    exact Text.byteLength_le_of_isPrefix (before_mono order)
  case strictMono =>
    intro first _ second inside order
    rw [offsetAt_eq_byteLength, offsetAt_eq_byteLength]
    exact Text.byteLength_lt_of_isPrefix (before_mono order.le) (before_ne inside order)
  case image => exact image_offsetAt lines columns
  case sliced => exact fun range => ⟨_, slice?_eq document range⟩
  case line =>
    intro number line there
    have size : line.length.toUInt32.toNat = line.length :=
      UInt32.toNat_ofNat_of_lt (columns.length_lt there)
    have start : (0 : UInt32) ≤ line.length.toUInt32 := UInt32.zero_le
    have whole := slice?_columns there start
    rw [size, List.take_length] at whole
    exact whole
  case columns => exact fun number line there first last order => slice?_columns there order
  case joined =>
    intro first middle last before behind
    refine ⟨_, _, slice?_eq document ⟨first, middle⟩, slice?_eq document ⟨middle, last⟩, ?_⟩
    obtain ⟨front, onwards⟩ := document.before_mono before
    obtain ⟨back, further⟩ := document.before_mono behind
    rw [slice?_eq]
    simp only
    rw [← further, ← onwards, List.append_assoc]
    simp

/-- Line ends with and without carriage returns, one carriage return more and a last line that
closes with one: there the positions of a buffer agree with its offsets. -/
theorem positions_and_offsets_agree_around_returns :
    let document : Document := ⟨Path.ofText "/p/a.js", "ä\r\n\r\r\nx😀\r"⟩
    document.rawLines.length < UInt32.size ∧ document.ColumnsFit ∧ document.PlacesAgree := by
  intro document
  have lines : document.rawLines.length < UInt32.size := by decide +kernel
  have columns : document.ColumnsFit := by decide +kernel
  exact ⟨lines, columns, positions_and_offsets_agree lines columns⟩

end Document

end FlowService
