import FlowService.Feature.Signature
import FlowService.Proofs.Text.Identifiers

/-!
The identifier in front of a position is the last one that ends there or further left on its line.
It is whole, and no word character stands between its end and the position.
-/

namespace FlowService

namespace Text

variable {chars front word gap back : List Char} {column : Nat}

/-- The last identifier in front of a column that cuts none is an identifier of the line. -/
theorem LastWord.wholeWord (last : LastWord (chars.take column) front word gap)
    (uncut : ∀ char ∈ chars[column]?, ¬isWordChar char) :
    WholeWord chars front word (gap ++ chars.drop column) := by
  constructor
  case split => rw [← List.append_assoc, ← last.split, List.take_append_drop]
  case nonempty => exact last.nonempty
  case whole => exact last.whole
  case apart => exact last.apart
  case behind =>
    -- What follows is the gap or, where there is none, what the column is in front of.
    cases gap with
    | nil =>
      rw [List.nil_append, List.head?_drop]
      exact uncut
    | cons char rest =>
      intro other member
      obtain rfl := Option.some.inj member
      exact last.blank _ List.mem_cons_self

/-- Between the end of the last identifier and the column there are no word characters. -/
theorem LastWord.blank_between (last : LastWord (chars.take column) front word gap) {index : Nat}
    (behind : (front ++ word).length ≤ index) (before : index < column) :
    ∀ char ∈ chars[index]?, ¬isWordChar char := by
  -- Such a place is one of the gap.
  intro char member
  rw [← List.getElem?_take_of_lt before, last.split, List.getElem?_append_right behind] at member
  exact last.blank char (List.mem_of_getElem? member)

/-- An identifier of a line ends with a word character. -/
theorem WholeWord.exists_last (there : WholeWord chars front word back) :
    ∃ char, chars[(front ++ word).length - 1]? = some char ∧ isWordChar char := by
  obtain ⟨split, nonempty, whole, -, -⟩ := there
  obtain ⟨first, char, rfl⟩ := (List.eq_nil_or_concat' word).resolve_left nonempty
  refine ⟨char, ?_, whole char (by simp)⟩
  have last : (front ++ (first ++ [char])).length - 1 = (front ++ first).length := by simp
  rw [split, last]
  simp

/-- An identifier that ends in front of a column ends no later than the last one there. -/
theorem LastWord.length_le (last : LastWord (chars.take column) front word gap)
    {before other : List Char} (there : WholeWord chars before other back)
    (earlier : (before ++ other).length ≤ column) :
    (before ++ other).length ≤ (front ++ word).length := by
  by_contra later
  -- Otherwise its last character would stand in the gap.
  obtain ⟨char, stands, isWord⟩ := there.exists_last
  exact last.blank_between (by omega) (by omega) char stands isWord

end Text

namespace Document

variable {document : Document} {position : Position} {chars : List Char}

/-- A range is that of the last identifier in front of a position on a line. -/
structure IsPreceding (document : Document) (position : Position) (chars : List Char)
    (range : Range) : Prop where
  number : range.start.line = position.line ∧ range.stop.line = position.line
  /-- An identifier as long as it can be lies between its columns, and its text is that. -/
  identifier : ∃ front word back, Text.WholeWord chars front word back ∧
    range.start.character.toNat = front.length ∧
    range.stop.character.toNat = (front ++ word).length ∧
    document.slice? range = some (String.ofList word)
  earlier : range.stop.character ≤ position.character
  /-- Of all identifiers of the line that do not end behind the position, it ends last. -/
  latest : ∀ front word back, Text.WholeWord chars front word back →
    (front ++ word).length ≤ position.character.toNat →
      (front ++ word).length ≤ range.stop.character.toNat
  /-- No word character stands between its end and the position. -/
  gap : ∀ column, range.stop.character.toNat ≤ column → column < position.character.toNat →
    ∀ char ∈ chars[column]?, ¬Text.isWordChar char

/-- On a line that is there, the search goes through the columns of the line. -/
theorem previousWord?_of_line (there : document.line? position.line = some chars) :
    document.previousWord? position =
      (Text.wordBefore? chars position.character.toNat).map (onLine position.line) := by
  unfold previousWord?
  rw [there]
  exact Option.map_eq_bind.symm

/-- The search asks for the identifier at each column from that of the position down to column one,
and takes the first that there is. -/
theorem previousWord?_eq_findSome? (document : Document) (position : Position) :
    document.previousWord? position = (List.range position.character.toNat).reverse.findSome?
      fun before => document.wordRange? ⟨position.line, (before + 1).toUInt32⟩ := by
  cases there : document.line? position.line with
  | none =>
    have nowhere : document.previousWord? position = none := by simp [previousWord?, there]
    rw [nowhere]
    exact (List.findSome?_eq_none_iff.mpr fun _ _ => by simp [wordRange?, there]).symm
  | some chars =>
    rw [previousWord?_of_line there]
    have bound := position.character.toNat_lt
    -- The induction is on the column, all columns down from which fit in 32 bits.
    generalize position.character.toNat = column at bound ⊢
    induction column with
    | zero => rfl
    | succ before ih =>
      have asked : document.wordRange? ⟨position.line, (before + 1).toUInt32⟩ = _ :=
        wordRange?_of_line there
      have column : (before + 1).toUInt32.toNat = before + 1 := UInt32.toNat_ofNat_of_lt bound
      rw [List.range_succ, List.reverse_append, List.reverse_singleton, List.singleton_append,
        List.findSome?_cons, asked, column, Text.wordBefore?, ← ih (by omega)]
      cases Text.wordAt? chars (before + 1) <;> rfl

/-- The last identifier in front of a column of a line is what is found there. -/
theorem isPreceding_of_lastWord (there : document.line? position.line = some chars)
    {front word gap : List Char}
    (last : Text.LastWord (chars.take position.character.toNat) front word gap)
    (uncut : ∀ char ∈ chars[position.character.toNat]?, ¬Text.isWordChar char) :
    document.IsPreceding position chars
      (onLine position.line (front.length, (front ++ word).length)) := by
  have whole := last.wholeWord uncut
  have earlier : (front ++ word).length ≤ position.character.toNat := by
    have part : (front ++ word).length ≤ (chars.take position.character.toNat).length := by
      simp [last.split]
    exact part.trans (List.length_take_le ..)
  -- What ends in front of the position has columns that fit in 32 bits, however long the line is.
  have fits : (front ++ word).length < UInt32.size :=
    Nat.lt_of_le_of_lt earlier position.character.toNat_lt
  have shorter : front.length ≤ (front ++ word).length := by simp
  have start : front.length.toUInt32.toNat = front.length :=
    UInt32.toNat_ofNat_of_lt (Nat.lt_of_le_of_lt shorter fits)
  have stop : (front ++ word).length.toUInt32.toNat = (front ++ word).length :=
    UInt32.toNat_ofNat_of_lt fits
  constructor
  case number => exact ⟨rfl, rfl⟩
  case identifier =>
    rw [whole.split] at there
    exact ⟨front, word, _, whole, start, stop, slice?_onLine there fits⟩
  case earlier =>
    rw [UInt32.le_iff_toNat_le]
    exact stop.trans_le earlier
  case latest =>
    intro before other behind another inside
    exact (last.length_le another inside).trans_eq stop.symm
  case gap =>
    intro column after inside
    exact last.blank_between (stop.symm.trans_le after) inside

/-- In front of a position which is not in front of a word character, an identifier is found exactly
if there is a word character further left on the line. It is the last identifier that ends there. -/
theorem preceding_identifier_is_nearest {document : Document} (position : Position)
    (uncut : ∀ chars ∈ document.line? position.line,
      ∀ char ∈ chars[position.character.toNat]?, ¬Text.isWordChar char) :
    (document.previousWord? position = (List.range position.character.toNat).reverse.findSome?
      fun before => document.wordRange? ⟨position.line, (before + 1).toUInt32⟩) ∧
    ((∃ range, document.previousWord? position = some range) ↔
      ∃ chars ∈ document.line? position.line,
        ∃ char ∈ chars.take position.character.toNat, Text.isWordChar char) ∧
    ∀ range ∈ document.previousWord? position, ∃ chars ∈ document.line? position.line,
      document.IsPreceding position chars range := by
  refine ⟨previousWord?_eq_findSome? document position, ?_⟩
  cases there : document.line? position.line with
  | none => simp [previousWord?, there]
  | some chars =>
    -- Whether there is a last identifier in front of the column decides both parts.
    have alone := uncut chars there
    have behind : ∀ char ∈ (chars.drop position.character.toNat).head?, ¬Text.isWordChar char := by
      rwa [List.head?_drop]
    rw [previousWord?_of_line there]
    by_cases some : ∃ char ∈ chars.take position.character.toNat, Text.isWordChar char
    · obtain ⟨front, word, gap, last⟩ := Text.exists_lastWord some
      rw [Text.wordBefore?_of_lastWord last behind]
      refine ⟨⟨fun _ => ⟨chars, rfl, some⟩, fun _ => ⟨_, rfl⟩⟩, fun range found => ?_⟩
      obtain rfl := Option.some.inj found
      exact ⟨chars, rfl, isPreceding_of_lastWord there last alone⟩
    · have blank : ∀ char ∈ chars.take position.character.toNat, ¬Text.isWordChar char :=
        fun char member word => some ⟨char, member, word⟩
      rw [Text.wordBefore?_of_blank blank behind]
      simpa using blank

/-- An identifier of several scripts behind another one, with signs and blanks between it and the
parenthesis from which it is looked for. -/
theorem preceding_identifier_is_nearest_across_signs :
    let document : Document := ⟨Path.ofText "/p/a.js", "x\r\n  obj.größe変$ -> (y)"⟩
    (∀ chars ∈ document.line? 1, ∀ char ∈ chars[17]?, ¬Text.isWordChar char) ∧
      document.previousWord? ⟨1, 17⟩ = some ⟨⟨1, 6⟩, ⟨1, 13⟩⟩ ∧
      document.slice? ⟨⟨1, 6⟩, ⟨1, 13⟩⟩ = some "größe変$" ∧
      ∃ chars ∈ document.line? 1, document.IsPreceding ⟨1, 17⟩ chars ⟨⟨1, 6⟩, ⟨1, 13⟩⟩ := by
  intro document
  have found : document.previousWord? ⟨1, 17⟩ = some ⟨⟨1, 6⟩, ⟨1, 13⟩⟩ := by decide +kernel
  have sign : (document.line? 1).bind (·[17]?) = some '(' := by decide +kernel
  have uncut : ∀ chars ∈ document.line? 1, ∀ char ∈ chars[17]?, ¬Text.isWordChar char := by
    intro chars there char member
    obtain rfl := Option.some.inj
      (sign.symm.trans (Option.bind_eq_some_iff.mpr ⟨chars, there, member⟩))
    decide +kernel
  have nearest := (preceding_identifier_is_nearest ⟨1, 17⟩ uncut).2.2 _ found
  exact ⟨uncut, found, by decide +kernel, nearest⟩

end Document

end FlowService
