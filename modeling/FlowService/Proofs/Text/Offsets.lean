import FlowService.Proofs.Text.Lines
import Mathlib.Data.Prod.Lex
import Mathlib.Data.Set.Image

/-!
The offset of a position is the number of bytes that the characters in front of it take. The later a
position is, the more characters are in front of it, so offsets keep the order of positions, and the
text between two positions is what the later one has in front of it beyond the earlier one.
-/

namespace FlowService

namespace Position

/-- Positions come in the order of their lines, and on one line in that of their columns. -/
def rank (position : Position) : Nat ×ₗ Nat :=
  toLex (position.line.toNat, position.character.toNat)

/-- Two positions are at different places. -/
theorem rank_injective : Function.Injective rank := by
  intro first second same
  obtain ⟨line, character⟩ := Prod.mk.inj (toLex.injective same)
  obtain ⟨_, _⟩ := first
  obtain ⟨_, _⟩ := second
  rw [Position.mk.injEq]
  exact ⟨UInt32.toNat_inj.mp line, UInt32.toNat_inj.mp character⟩

instance : PartialOrder Position := PartialOrder.lift rank rank_injective

/-- A position is not behind another one. -/
theorem le_iff {first second : Position} : first ≤ second ↔ first.line.toNat < second.line.toNat ∨
    first.line.toNat = second.line.toNat ∧ first.character.toNat ≤ second.character.toNat :=
  Prod.Lex.toLex_le_toLex

/-- A position is in front of another one. -/
theorem lt_iff {first second : Position} : first < second ↔ first.line.toNat < second.line.toNat ∨
    first.line.toNat = second.line.toNat ∧ first.character.toNat < second.character.toNat :=
  Prod.Lex.toLex_lt_toLex

end Position

namespace Text

/-- An offset is between two characters of a text, or at one of its ends. -/
def IsBoundary (text : String) (offset : Nat) : Prop := String.Pos.Raw.IsValid text ⟨offset⟩

/-- An offset is directly behind a carriage return that belongs to the end of a line: a line feed
follows it or nothing does. -/
def SplitsEnding (text : List Char) (offset : Nat) : Prop :=
  ∃ front back, text = front ++ '\r' :: back ∧ (back = [] ∨ back.head? = some '\n') ∧
    offset = byteLength (front ++ ['\r'])

/-- The bytes of a text are those of its string. -/
theorem byteLength_eq (text : List Char) : byteLength text = (String.ofList text).utf8ByteSize := by
  induction text with
  | nil => rfl
  | cons char rest ih =>
    have step : byteLength (char :: rest) = char.utf8Size + byteLength rest := rfl
    rw [step, ih, String.ofList_cons, String.utf8ByteSize_append, String.utf8ByteSize_singleton]

/-- Only an empty text takes no bytes. -/
theorem byteLength_eq_zero {text : List Char} : byteLength text = 0 ↔ text = [] := by
  constructor
  · intro none
    cases text with
    | nil => rfl
    | cons char rest =>
      -- A character takes a byte at least.
      have step : byteLength (char :: rest) = char.utf8Size + byteLength rest := rfl
      have positive := char.utf8Size_pos
      omega
  · rintro rfl
    rfl

/-- A boundary has some of the characters in front of it. -/
theorem isBoundary_iff {text : String} {offset : Nat} :
    IsBoundary text offset ↔ ∃ front, front <+: text.toList ∧ offset = byteLength front := by
  unfold IsBoundary
  rw [String.Pos.Raw.isValid_iff_exists_append]
  constructor
  · rintro ⟨front, back, rfl, place⟩
    refine ⟨front.toList, ?_, ?_⟩
    · rw [String.toList_append]
      exact List.prefix_append ..
    · rw [byteLength_eq, String.ofList_toList]
      exact congrArg String.Pos.Raw.byteIdx place
  · rintro ⟨front, ⟨back, whole⟩, rfl⟩
    refine ⟨String.ofList front, String.ofList back, ?_, ?_⟩
    · rw [← String.ofList_append, whole, String.ofList_toList]
    · rw [byteLength_eq]
      rfl

/-- Of two beginnings of a text, the longer one takes more bytes. -/
theorem byteLength_lt_of_isPrefix {front other : List Char} (shorter : front <+: other)
    (differ : front ≠ other) : byteLength front < byteLength other := by
  obtain ⟨more, rfl⟩ := shorter
  have nonempty : more ≠ [] := by
    rintro rfl
    exact differ (List.append_nil front).symm
  have bytes : byteLength more ≠ 0 := fun none => nonempty (byteLength_eq_zero.mp none)
  rw [byteLength_append]
  omega

/-- The beginning of a text takes no more bytes than the text. -/
theorem byteLength_le_of_isPrefix {front text : List Char} (shorter : front <+: text) :
    byteLength front ≤ byteLength text := by
  obtain ⟨more, rfl⟩ := shorter
  rw [byteLength_append]
  exact Nat.le_add_right ..

/-- Two beginnings of a text that take as many bytes are the same. -/
theorem eq_of_byteLength_eq {text front other : List Char} (first : front <+: text)
    (second : other <+: text) (same : byteLength front = byteLength other) : front = other := by
  by_contra differ
  rcases List.prefix_or_prefix_of_prefix first second with shorter | longer
  · exact absurd same (Nat.ne_of_lt (byteLength_lt_of_isPrefix shorter differ))
  · exact absurd same (Nat.ne_of_gt (byteLength_lt_of_isPrefix longer (Ne.symm differ)))

/-- One line more is above the next line. -/
theorem above_succ {lines : List (List Char)} {number : Nat} {raw : List Char}
    (there : lines[number]? = some raw) :
    above lines (number + 1) = above lines number ++ (raw ++ ['\n']) := by
  unfold above
  rw [List.take_add_one, there, List.flatMap_append]
  simp

/-- What is above a line is above all later ones too. -/
theorem above_isPrefix (lines : List (List Char)) {number later : Nat} (before : number ≤ later) :
    above lines number <+: above lines later := by
  have parted := List.take_append_drop number (lines.take later)
  rw [List.take_take, Nat.min_eq_left before] at parted
  unfold above
  rw [← parted, List.flatMap_append]
  exact List.prefix_append ..

/-- Joined lines that are cut in two are cut in one of them. -/
theorem exists_line_of_intercalate {lines : List (List Char)} (nonempty : lines ≠ [])
    {front back : List Char} (cut : ['\n'].intercalate lines = front ++ back) :
    ∃ number first last, lines[number]? = some (first ++ last) ∧
      front = above lines number ++ first ∧ back = last ++ below lines number := by
  induction lines generalizing front with
  | nil => contradiction
  | cons raw rest ih =>
    cases rest with
    | nil =>
      refine ⟨0, front, back, ?_, rfl, ?_⟩
      · rw [← cut]
        simp
      · simp [below]
    | cons second later =>
      have next := intercalate_eq (show (second :: later)[0]? = some second from rfl)
      rw [List.intercalate_cons_cons, List.append_assoc, List.append_eq_append_iff] at cut
      rcases cut with ⟨more, rfl, parted⟩ | ⟨more, rfl, parted⟩
      · -- The cut is behind the first line, and so either in front of its line feed or later.
        cases more with
        | nil =>
          refine ⟨0, raw, [], ?_, ?_, ?_⟩
          · simp
          · simp [above]
          · rw [List.nil_append] at parted
            rw [← parted, next]
            simp [above, below]
        | cons feed more =>
          rw [List.singleton_append, List.cons_append, List.cons.injEq] at parted
          obtain ⟨rfl, parted⟩ := parted
          obtain ⟨number, first, last, there, rfl, rfl⟩ := ih (by simp) parted
          refine ⟨number + 1, first, last, there, ?_, ?_⟩
          · simp [above]
          · simp [below]
      · refine ⟨0, front, more, rfl, rfl, ?_⟩
        rw [parted, next]
        simp [above, below]

end Text

namespace Document

variable {document : Document} {position : Position}

/-- The characters in front of a position; beyond the last line these are all. -/
def before (document : Document) (position : Position) : List Char :=
  match document.line? position.line with
  | none => document.characters
  | some line =>
    Text.above document.rawLines position.line.toNat ++ line.take position.character.toNat

/-- A position is inside of a buffer when its line is there and has the column. -/
def IsInside (document : Document) (position : Position) : Prop :=
  ∃ line ∈ document.line? position.line, position.character.toNat ≤ line.length

/-- On a line, what is above it and what is in front of the column is in front of the position. -/
theorem before_of_line {line : List Char} (there : document.line? position.line = some line) :
    document.before position =
      Text.above document.rawLines position.line.toNat ++ line.take position.character.toNat := by
  unfold before
  rw [there]

/-- Beyond the last line, everything is in front of a position. -/
theorem before_of_no_line (none : document.line? position.line = none) :
    document.before position = document.characters := by
  unfold before
  rw [none]

/-- There is no line beyond the last one. -/
theorem line?_eq_none {number : UInt32} :
    document.line? number = none ↔ document.rawLines.length ≤ number.toNat := by
  unfold line?
  rw [Option.map_eq_none_iff, List.getElem?_eq_none_iff]

/-- The offset of a position is the number of bytes in front of it. -/
theorem offsetAt_eq_byteLength (document : Document) (position : Position) :
    document.offsetAt position = Text.byteLength (document.before position) := by
  cases there : document.line? position.line with
  | none =>
    have absent := Option.map_eq_none_iff.mp there
    rw [before_of_no_line there]
    unfold offsetAt
    simp only [absent]
  | some line => rw [offsetAt_eq there, before_of_line there]

/-- What is in front of a position is the beginning of the buffer. -/
theorem before_isPrefix (document : Document) (position : Position) :
    document.before position <+: document.characters := by
  cases there : document.line? position.line with
  | none =>
    refine ⟨[], ?_⟩
    rw [before_of_no_line there, List.append_nil]
  | some line =>
    obtain ⟨behind, text⟩ := exists_behind there
    rw [before_of_line there, text, List.append_assoc, List.prefix_append_right_inj]
    exact (List.take_prefix ..).trans (List.prefix_append ..)

/-- There is a line in front of one that is there. -/
theorem exists_line_above {number other : UInt32} {line : List Char}
    (there : document.line? number = some line) (higher : other.toNat < number.toNat) :
    ∃ earlier, document.line? other = some earlier := by
  have present : document.line? number ≠ none := by simp [there]
  rw [Ne, line?_eq_none] at present
  apply Option.ne_none_iff_exists'.mp
  rw [Ne, line?_eq_none]
  omega

/-- Between a position and one on a later line there is the end of a line. -/
theorem exists_feed_between {first second : Position} {line : List Char}
    (there : document.line? second.line = some line)
    (higher : first.line.toNat < second.line.toNat) :
    ∃ more rest, document.before second = document.before first ++ (more ++ '\n' :: rest) := by
  obtain ⟨earlier, found⟩ := exists_line_above there higher
  obtain ⟨raw, stands, rfl⟩ := exists_rawLine found
  obtain ⟨rest, lines⟩ := Text.above_isPrefix document.rawLines (Nat.succ_le_of_lt higher)
  let front := (Text.withoutReturn raw).take first.character.toNat
  let more := (Text.withoutReturn raw).drop first.character.toNat
  have whole : raw ++ ['\n'] = front ++ (more ++ Text.ending raw ++ ['\n']) := by
    calc
      raw ++ ['\n']
      _ = Text.withoutReturn raw ++ Text.ending raw ++ ['\n'] := by
        rw [Text.withoutReturn_append_ending]
      _ = front ++ more ++ Text.ending raw ++ ['\n'] := by rw [List.take_append_drop]
      _ = front ++ (more ++ Text.ending raw ++ ['\n']) := by simp only [List.append_assoc]
  refine ⟨more ++ Text.ending raw, rest ++ line.take second.character.toNat, ?_⟩
  calc
    document.before second
    _ = Text.above document.rawLines first.line.toNat ++ (raw ++ ['\n']) ++ rest ++
        line.take second.character.toNat := by
      rw [before_of_line there, ← lines, ← Text.above_succ stands]
    _ = document.before first ++
        (more ++ Text.ending raw ++ '\n' :: (rest ++ line.take second.character.toNat)) := by
      rw [before_of_line found, whole]
      simp [front]

/-- What is in front of a position is in front of every later one. -/
theorem before_mono {first second : Position} (order : first ≤ second) :
    document.before first <+: document.before second := by
  cases later : document.line? second.line with
  | none =>
    rw [before_of_no_line later]
    exact before_isPrefix document first
  | some line =>
    rcases Position.le_iff.mp order with higher | ⟨same, columns⟩
    · obtain ⟨more, rest, between⟩ := exists_feed_between later higher
      rw [between]
      exact List.prefix_append ..
    · have number : first.line = second.line := UInt32.toNat_inj.mp same
      have there : document.line? first.line = some line := number ▸ later
      rw [before_of_line there, before_of_line later, number, List.prefix_append_right_inj]
      exact List.take_prefix_take_left columns

/-- A position inside of a buffer has more characters in front of it than every earlier one. -/
theorem before_ne {first second : Position} (inside : document.IsInside second)
    (order : first < second) : document.before first ≠ document.before second := by
  obtain ⟨line, later, fits⟩ := inside
  rcases Position.lt_iff.mp order with higher | ⟨number, columns⟩
  · obtain ⟨more, rest, between⟩ := exists_feed_between later higher
    rw [between]
    simp
  · have number : first.line = second.line := UInt32.toNat_inj.mp number
    have there : document.line? first.line = some line := number ▸ later
    rw [before_of_line there, before_of_line later, number]
    intro same
    have size := congrArg List.length (List.append_cancel_left same)
    rw [List.length_take, List.length_take] at size
    omega

/-- What lies between two positions is what the later one has in front of it beyond the earlier one;
nothing lies behind the later one and in front of the earlier one. -/
theorem slice?_eq (document : Document) (range : Range) : document.slice? range =
    some (String.ofList ((document.before range.stop).drop (document.before range.start).length)) := by
  obtain ⟨start, stop⟩ := range
  obtain ⟨behind, text⟩ := before_isPrefix document start
  unfold slice?
  simp only [offsetAt_eq_byteLength]
  rcases List.prefix_or_prefix_of_prefix (before_isPrefix document start)
    (before_isPrefix document stop) with ⟨middle, onwards⟩ | backwards
  · obtain ⟨behind, text⟩ := before_isPrefix document stop
    rw [← onwards] at text ⊢
    rw [Nat.max_eq_left, between?_eq text.symm, List.drop_left]
    rw [Text.byteLength_append]
    exact Nat.le_add_right ..
  · -- The end is moved up to the start, and nothing is left.
    have none : document.characters = document.before start ++ [] ++ behind := by
      rw [List.append_nil, text]
    have empty := between?_eq none
    rw [List.append_nil] at empty
    rw [Nat.max_eq_right (Text.byteLength_le_of_isPrefix backwards), empty,
      List.drop_eq_nil_of_le backwards.length_le]

/-- A text between two columns of a line is its characters from the one to the other. -/
theorem slice?_columns {number first last : UInt32} {line : List Char}
    (there : document.line? number = some line) (order : first ≤ last) :
    document.slice? ⟨⟨number, first⟩, ⟨number, last⟩⟩ =
      some (String.ofList ((line.take last.toNat).drop first.toNat)) := by
  have columns : first.toNat ≤ last.toNat := order
  have start : document.before ⟨number, first⟩ =
      Text.above document.rawLines number.toNat ++ line.take first.toNat := before_of_line there
  have stop : document.before ⟨number, last⟩ =
      Text.above document.rawLines number.toNat ++ line.take last.toNat := before_of_line there
  rw [slice?_eq, start, stop, List.length_append, ← List.drop_drop, List.drop_left]
  congr 2
  rw [List.length_take]
  rcases Nat.le_total first.toNat line.length with inside | beyond
  · rw [Nat.min_eq_left inside]
  · -- Beyond the end of the line there is nothing.
    rw [Nat.min_eq_right beyond, List.drop_eq_nil_of_le, List.drop_eq_nil_of_le]
    · exact (List.length_take_le' ..).trans beyond
    · exact List.length_take_le' ..

end Document

end FlowService
