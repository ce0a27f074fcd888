import FlowService.Proofs.Text.Boundaries
import FlowService.Proofs.Text.Words

/-!
The identifier that touches a position is as long as it can be: it is made of word characters alone,
and on either side of it the line ends or has another character. So it is the same one that touches
each of its columns.
-/

namespace FlowService

namespace Text

/-- A line has an identifier between two others of its parts, and no word character touches it. -/
structure WholeWord (line front word back : List Char) : Prop where
  split : line = front ++ word ++ back
  nonempty : word ≠ []
  whole : ∀ char ∈ word, isWordChar char
  apart : ∀ char ∈ front.getLast?, ¬isWordChar char
  behind : ∀ char ∈ back.head?, ¬isWordChar char

/-- A word character stands directly in front of a column of a line or directly behind it. -/
def Touches (chars : List Char) (column : Nat) : Prop :=
  column ≤ chars.length ∧ ∃ char, isWordChar char ∧
    (0 < column ∧ chars[column - 1]? = some char ∨ chars[column]? = some char)

variable {line front word back : List Char} {column : Nat}

/-- The word characters at the beginning of a text that begins with an identifier are those of it. -/
theorem takeWhile_append (whole : ∀ char ∈ word, isWordChar char)
    (behind : ∀ char ∈ back.head?, ¬isWordChar char) :
    (word ++ back).takeWhile isWordChar = word := by
  rw [List.takeWhile_append_of_pos whole, takeWhile_eq_nil behind, List.append_nil]

/-- An identifier is found from each of its columns, both ends included. -/
theorem WholeWord.wordAt? (there : WholeWord line front word back)
    (start : front.length ≤ column) (stop : column ≤ (front ++ word).length) :
    wordAt? line column = some (front.length, (front ++ word).length) := by
  -- The column cuts the identifier in two, each part of which is found from there.
  obtain ⟨first, last, rfl, size⟩ : ∃ first last, word = first ++ last ∧
      column = (front ++ first).length := by
    refine ⟨word.take (column - front.length), word.drop (column - front.length), ?_, ?_⟩
    · rw [List.take_append_drop]
    · simp at stop ⊢
      omega
  have parted : line = (front ++ first) ++ (last ++ back) := by
    rw [there.split]
    simp only [List.append_assoc]
  rw [parted, size, wordAt?_append,
    rtakeWhile_append (fun char member => there.whole char (List.mem_append_left _ member))
      there.apart,
    takeWhile_append (fun char member => there.whole char (List.mem_append_right _ member))
      there.behind,
    if_neg there.nonempty]
  simp [Nat.add_assoc]

/-- The word characters around a column make up the identifier that is found from there. -/
theorem wordAt?_eq (inside : column ≤ line.length) :
    wordAt? line column =
      if (line.take column).rtakeWhile isWordChar ++ (line.drop column).takeWhile isWordChar = []
      then none
      else some (column - ((line.take column).rtakeWhile isWordChar).length,
        column + ((line.drop column).takeWhile isWordChar).length) := by
  have parted := wordAt?_append (line.take column) (line.drop column)
  rwa [List.take_append_drop, List.length_take_of_le inside] at parted

/-- Nothing is found beyond the end of a line. -/
theorem wordAt?_beyond (beyond : line.length < column) : wordAt? line column = none :=
  if_pos beyond

/-- What is found from a column is an identifier that has the column. -/
theorem exists_wholeWord {start stop : Nat} (found : wordAt? line column = some (start, stop)) :
    ∃ front word back, WholeWord line front word back ∧ start = front.length ∧
      stop = (front ++ word).length ∧ start ≤ column ∧ column ≤ stop := by
  have inside : column ≤ line.length := by
    by_contra beyond
    rw [wordAt?_beyond (Nat.lt_of_not_le beyond)] at found
    cases found
  rw [wordAt?_eq inside] at found
  split at found
  · cases found
  · rename_i nonempty
    obtain ⟨rfl, rfl⟩ := Prod.mk.inj (Option.some.inj found)
    let first := (line.take column).rtakeWhile isWordChar
    let last := (line.drop column).takeWhile isWordChar
    let front := (line.take column).rdropWhile isWordChar
    let back := (line.drop column).dropWhile isWordChar
    have before : front ++ first = line.take column := List.rdropWhile_append_rtakeWhile
    have after : last ++ back = line.drop column := List.takeWhile_append_dropWhile
    have size : front.length + first.length = column := by
      rw [← List.length_append, before, List.length_take_of_le inside]
    refine ⟨front, first ++ last, back, ⟨?_, nonempty, ?_, ?_, ?_⟩, ?_, ?_, ?_, ?_⟩
    · calc
        line = line.take column ++ line.drop column := (List.take_append_drop ..).symm
        _ = front ++ first ++ (last ++ back) := by rw [before, after]
        _ = front ++ (first ++ last) ++ back := by simp only [List.append_assoc]
    · intro char member
      rcases List.mem_append.mp member with early | late
      · exact List.mem_rtakeWhile_imp early
      · exact List.mem_takeWhile_imp late
    · intro char member
      obtain ⟨there, rfl⟩ := List.mem_getLast?_eq_getLast member
      exact List.rdropWhile_last_not _ _ there
    · intro char member word
      have other := List.head?_dropWhile_not isWordChar (line.drop column)
      rw [Option.mem_def.mp member] at other
      exact absurd word (by simp [other])
    · show column - first.length = front.length
      omega
    · show column + last.length = _
      rw [List.length_append, List.length_append]
      omega
    · exact Nat.sub_le ..
    · exact Nat.le_add_right ..

/-- A text begins with an identifier exactly if its first character is one of it. -/
theorem takeWhile_eq_nil_iff {text : List Char} :
    text.takeWhile isWordChar = [] ↔ ∀ char ∈ text.head?, ¬isWordChar char := by
  refine ⟨?_, takeWhile_eq_nil⟩
  intro empty char first word
  cases text with
  | nil => cases first
  | cons head rest =>
    obtain rfl : head = char := Option.some.inj first
    rw [List.takeWhile_cons_of_pos word] at empty
    cases empty

/-- A text ends in an identifier exactly if its last character is one of it. -/
theorem rtakeWhile_eq_nil_iff {text : List Char} :
    text.rtakeWhile isWordChar = [] ↔ ∀ char ∈ text.getLast?, ¬isWordChar char := by
  rw [List.rtakeWhile, List.reverse_eq_nil_iff, takeWhile_eq_nil_iff, List.head?_reverse]

/-- The last character in front of a column of a line. -/
theorem getLast?_take_eq {chars : List Char} (inside : column ≤ chars.length) (char : Char) :
    char ∈ (chars.take column).getLast? ↔ 0 < column ∧ chars[column - 1]? = some char := by
  rw [Option.mem_def, List.getLast?_eq_getElem?, List.length_take_of_le inside]
  cases column with
  | zero => simp
  | succ before => simp

/-- An identifier is found from a column exactly if a word character stands on either side of it. -/
theorem exists_wordAt?_iff :
    (∃ columns, wordAt? line column = some columns) ↔ Touches line column := by
  by_cases inside : column ≤ line.length
  · have untouched : (line.take column).rtakeWhile isWordChar ++
        (line.drop column).takeWhile isWordChar = [] ↔ ¬Touches line column := by
      rw [List.append_eq_nil_iff, rtakeWhile_eq_nil_iff, takeWhile_eq_nil_iff, List.head?_drop]
      constructor
      · rintro ⟨before, behind⟩ ⟨-, char, word, front | back⟩
        · exact before char ((getLast?_take_eq inside char).mpr front) word
        · exact behind char back word
      · intro apart
        refine ⟨fun char front word => apart ⟨inside, char, word, Or.inl ?_⟩,
          fun char back word => apart ⟨inside, char, word, Or.inr back⟩⟩
        exact (getLast?_take_eq inside char).mp front
    rw [wordAt?_eq inside]
    split
    · rename_i empty
      constructor
      · rintro ⟨_, found⟩
        cases found
      · exact fun touches => absurd touches (untouched.mp empty)
    · rename_i nonempty
      constructor
      · exact fun _ => by_contra fun apart => nonempty (untouched.mpr apart)
      · exact fun _ => ⟨_, rfl⟩
  · rw [wordAt?_beyond (Nat.lt_of_not_le inside)]
    constructor
    · rintro ⟨_, found⟩
      cases found
    · exact fun touches => absurd touches.1 inside

end Text

namespace Document

variable {document : Document} {position : Position} {range : Range} {line : List Char}

/-- A range is that of the identifier which touches a position on a line, as long as it can be. -/
structure IsTouching (document : Document) (position : Position) (chars : List Char)
    (range : Range) : Prop where
  number : range.start.line = position.line ∧ range.stop.line = position.line
  around : range.start.character ≤ position.character ∧
    position.character ≤ range.stop.character
  inside : range.stop.character.toNat ≤ chars.length
  text : ∃ word, document.slice? range = some word ∧ word ≠ "" ∧
    (∀ char ∈ word.toList, Text.isWordChar char) ∧
    word.toList = (chars.take range.stop.character.toNat).drop range.start.character.toNat
  /-- The line begins with it or has another character in front of it. -/
  front : range.start.character = 0 ∨
    ∃ char, chars[range.start.character.toNat - 1]? = some char ∧ ¬Text.isWordChar char
  /-- The line ends with it or has another character behind it. -/
  back : range.stop.character.toNat = chars.length ∨
    ∃ char, chars[range.stop.character.toNat]? = some char ∧ ¬Text.isWordChar char
  /-- It is found from each of its columns. -/
  same : ∀ column, range.start.character ≤ column → column ≤ range.stop.character →
    document.wordRange? ⟨position.line, column⟩ = some range

/-- On a line that is there, the columns of the identifier that touches a position are looked up. -/
theorem wordRange?_of_line (there : document.line? position.line = some line) :
    document.wordRange? position =
      (Text.wordAt? line position.character.toNat).map (onLine position.line) := by
  unfold wordRange?
  rw [there]
  exact Option.map_eq_bind.symm

/-- An identifier on a line is the one that touches a position at any of its columns. -/
theorem isTouching_of_wholeWord (columns : document.ColumnsFit)
    (there : document.line? position.line = some line) {front word back : List Char}
    (whole : Text.WholeWord line front word back)
    (start : front.length ≤ position.character.toNat)
    (stop : position.character.toNat ≤ (front ++ word).length) :
    document.IsTouching position line
      (onLine position.line (front.length, (front ++ word).length)) := by
  have size : (front ++ word).length ≤ line.length := by
    rw [whole.split]
    simp
  have shorter := columns.length_lt there
  have shortest : front.length ≤ (front ++ word).length := by simp
  have first : front.length.toUInt32.toNat = front.length :=
    UInt32.toNat_ofNat_of_lt (by omega)
  have last : (front ++ word).length.toUInt32.toNat = (front ++ word).length :=
    UInt32.toNat_ofNat_of_lt (by omega)
  have split := whole.split
  constructor
  case number => exact ⟨rfl, rfl⟩
  case around =>
    rw [UInt32.le_iff_toNat_le, UInt32.le_iff_toNat_le]
    exact ⟨by rwa [onLine, first], by rwa [onLine, last]⟩
  case inside => exact last.trans_le size
  case text =>
    rw [split] at there
    refine ⟨String.ofList word, slice?_onLine there (by omega), ?_, ?_, ?_⟩
    · simpa using whole.nonempty
    · simpa using whole.whole
    · show _ = (line.take (front ++ word).length.toUInt32.toNat).drop front.length.toUInt32.toNat
      rw [first, last, split, List.take_left, List.drop_left, String.toList_ofList]
  case front =>
    have before : line.take front.length = front := by
      rw [split, List.append_assoc, List.take_left]
    cases ends : front.getLast? with
    | none =>
      left
      rw [List.getLast?_eq_none_iff.mp ends]
      rfl
    | some char =>
      right
      rw [← before] at ends
      have stands := (Text.getLast?_take_eq (shortest.trans size) char).mp ends
      rw [before] at ends
      refine ⟨char, ?_, whole.apart char ends⟩
      rw [onLine, first]
      exact stands.2
  case back =>
    have behind : line.drop (front ++ word).length = back := by
      rw [split, List.drop_left]
    cases begins : back.head? with
    | none =>
      left
      rw [List.head?_eq_none_iff] at begins
      rw [onLine, last, split, begins, List.append_nil]
    | some char =>
      right
      refine ⟨char, ?_, whole.behind char begins⟩
      rw [onLine, last, ← List.head?_drop, behind, begins]
  case same =>
    intro column after before
    rw [UInt32.le_iff_toNat_le] at after before
    have again : front.length ≤ column.toNat := first.symm.trans_le after
    have within : column.toNat ≤ (front ++ word).length := before.trans_eq last
    have looked : document.wordRange? ⟨position.line, column⟩ =
        (Text.wordAt? line column.toNat).map (onLine position.line) := wordRange?_of_line there
    rw [looked, whole.wordAt? again within]
    rfl

/-- An identifier is found at a position exactly if the position is on a line and a word character
stands on either side of it. What is found is the whole identifier there, which is found from each
of its columns. -/
theorem touching_identifier_is_whole {document : Document} (columns : document.ColumnsFit)
    (position : Position) :
    ((∃ range, document.wordRange? position = some range) ↔
      ∃ line ∈ document.line? position.line, Text.Touches line position.character.toNat) ∧
    ∀ range ∈ document.wordRange? position, ∃ line ∈ document.line? position.line,
      document.IsTouching position line range := by
  cases there : document.line? position.line with
  | none =>
    have none : document.wordRange? position = none := by
      unfold wordRange?
      rw [there]
      rfl
    rw [none]
    simp
  | some line =>
    rw [wordRange?_of_line there]
    constructor
    · simp [← Text.exists_wordAt?_iff]
    · intro range found
      obtain ⟨⟨start, stop⟩, word, rfl⟩ := Option.map_eq_some_iff.mp found
      obtain ⟨front, text, back, whole, rfl, rfl, before, behind⟩ := Text.exists_wholeWord word
      exact ⟨line, rfl, isTouching_of_wholeWord columns there whole before behind⟩

/-- Behind the last character of an identifier of several scripts and in front of a sign that is no
part of one, the whole identifier is found. -/
theorem touching_identifier_is_whole_at_its_end :
    let document : Document := ⟨Path.ofText "/p/a.js", "x\r\n  $größe変数_1+y"⟩
    document.ColumnsFit ∧ document.wordRange? ⟨1, 12⟩ = some ⟨⟨1, 2⟩, ⟨1, 12⟩⟩ ∧
      document.slice? ⟨⟨1, 2⟩, ⟨1, 12⟩⟩ = some "$größe変数_1" ∧
      ∃ line ∈ document.line? 1, document.IsTouching ⟨1, 12⟩ line ⟨⟨1, 2⟩, ⟨1, 12⟩⟩ := by
  intro document
  have columns : document.ColumnsFit := by decide +kernel
  have found : document.wordRange? ⟨1, 12⟩ = some ⟨⟨1, 2⟩, ⟨1, 12⟩⟩ := by decide +kernel
  have whole := (touching_identifier_is_whole columns ⟨1, 12⟩).2 _ found
  exact ⟨columns, found, by decide +kernel, whole⟩

end Document

end FlowService
