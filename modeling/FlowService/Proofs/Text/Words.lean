import FlowService.Text.Document
import Mathlib.Data.List.DropRight

/-!
An identifier is a run of word characters that no word character touches. The one that touches a
column is what stands on both sides of it, and the one in front of a column is the last one there.
-/

namespace FlowService.Text

/-- A text is an identifier between two others: no word character touches it in front, and there
are none behind it. -/
structure LastWord (text front word gap : List Char) : Prop where
  split : text = front ++ word ++ gap
  nonempty : word ≠ []
  whole : ∀ char ∈ word, isWordChar char
  apart : ∀ char ∈ front.getLast?, ¬isWordChar char
  blank : ∀ char ∈ gap, ¬isWordChar char

/-- A text that does not begin with a word character begins with no identifier. -/
theorem takeWhile_eq_nil {text : List Char} (apart : ∀ char ∈ text.head?, ¬isWordChar char) :
    text.takeWhile isWordChar = [] := by
  cases text with
  | nil => rfl
  | cons char rest => exact List.takeWhile_cons_of_neg (apart char rfl)

/-- The word characters at the end of a text that ends in an identifier are those of it. -/
theorem rtakeWhile_append {front word : List Char} (whole : ∀ char ∈ word, isWordChar char)
    (apart : ∀ char ∈ front.getLast?, ¬isWordChar char) :
    (front ++ word).rtakeWhile isWordChar = word := by
  rw [List.rtakeWhile, List.reverse_append, List.takeWhile_append_of_pos, takeWhile_eq_nil]
  · simp
  · rwa [List.head?_reverse]
  · intro char member
    exact whole char (List.mem_reverse.mp member)

/-- The identifier that touches a column is made of the word characters on both sides. -/
theorem wordAt?_append (front back : List Char) :
    wordAt? (front ++ back) front.length =
      if front.rtakeWhile isWordChar ++ back.takeWhile isWordChar = [] then none
      else some (front.length - (front.rtakeWhile isWordChar).length,
        front.length + (back.takeWhile isWordChar).length) := by
  have inside : ¬(front ++ back).length < front.length := by simp
  unfold wordAt?
  rw [if_neg inside, List.take_left, List.drop_left]
  simp [List.rtakeWhile]

/-- The identifier that touches its own end goes on as far as word characters follow. -/
theorem wordAt?_end {front word : List Char} (nonempty : word ≠ [])
    (whole : ∀ char ∈ word, isWordChar char) (apart : ∀ char ∈ front.getLast?, ¬isWordChar char)
    (back : List Char) :
    wordAt? (front ++ word ++ back) (front ++ word).length =
      some (front.length, (front ++ word).length + (back.takeWhile isWordChar).length) := by
  have some : word ++ back.takeWhile isWordChar ≠ [] := by simp [nonempty]
  rw [wordAt?_append, rtakeWhile_append whole apart, if_neg some]
  simp

/-- No identifier touches a column between characters that are not of one. -/
theorem wordAt?_between {front back : List Char}
    (before : ∀ char ∈ front.getLast?, ¬isWordChar char)
    (behind : ∀ char ∈ back.head?, ¬isWordChar char) :
    wordAt? (front ++ back) front.length = none := by
  have none : front.rtakeWhile isWordChar = [] := by
    simpa using @rtakeWhile_append front [] (by simp) before
  rw [wordAt?_append, none, takeWhile_eq_nil behind, List.append_nil, if_pos rfl]

/-- Beyond the end of a line the search begins at its end. -/
theorem wordBefore?_length_take (line : List Char) (column : Nat) :
    wordBefore? line (line.take column).length = wordBefore? line column := by
  rw [List.length_take]
  induction column with
  | zero => rw [Nat.zero_min]
  | succ column ih =>
    by_cases inside : column + 1 ≤ line.length
    · rw [Nat.min_eq_left inside]
    · have beyond : line.length < column + 1 := Nat.lt_of_not_le inside
      have none : wordAt? line (column + 1) = none := if_pos beyond
      rw [wordBefore?, none, ← ih]
      congr 1
      omega

/-- The search goes back through characters that are not of an identifier. -/
theorem wordBefore?_skip {gap : List Char} (blank : ∀ char ∈ gap, ¬isWordChar char)
    (front back : List Char) (behind : ∀ char ∈ back.head?, ¬isWordChar char) :
    wordBefore? (front ++ gap ++ back) (front ++ gap).length =
      wordBefore? (front ++ gap ++ back) front.length := by
  -- The last character of the gap comes to stand behind the column.
  induction gap using List.reverseRecOn generalizing back with
  | nil => rw [List.append_nil]
  | append_singleton gap char ih =>
    have last : ¬isWordChar char := blank char (by simp)
    have none : wordAt? (front ++ (gap ++ [char]) ++ back) (front ++ (gap ++ [char])).length =
        none := by
      apply wordAt?_between _ behind
      simpa using last
    have size : (front ++ (gap ++ [char])).length = (front ++ gap).length + 1 := by
      simp [Nat.add_assoc]
    have later := ih (fun other member => blank other (List.mem_append_left _ member))
      (char :: back) (by simpa using last)
    rw [size] at none ⊢
    rw [wordBefore?, none]
    simpa using later

/-- The search from the end of an identifier that does not go on finds it. -/
theorem wordBefore?_end {front word : List Char} (nonempty : word ≠ [])
    (whole : ∀ char ∈ word, isWordChar char) (apart : ∀ char ∈ front.getLast?, ¬isWordChar char)
    {back : List Char} (behind : ∀ char ∈ back.head?, ¬isWordChar char) :
    wordBefore? (front ++ word ++ back) (front ++ word).length =
      some (front.length, (front ++ word).length) := by
  have found := wordAt?_end nonempty whole apart back
  rw [takeWhile_eq_nil behind, List.length_nil, Nat.add_zero] at found
  -- An identifier has a character, so its end is not the start of the line.
  obtain ⟨column, size⟩ : ∃ column, (front ++ word).length = column + 1 :=
    Nat.exists_eq_succ_of_ne_zero (by simp [nonempty])
  rw [size] at found ⊢
  rw [wordBefore?, found]

variable {line front word gap : List Char} {column : Nat}

/-- The search from a place that cuts no identifier comes to the last one in front of it. -/
theorem wordBefore?_of_lastWord (last : LastWord (line.take column) front word gap)
    (uncut : ∀ char ∈ (line.drop column).head?, ¬isWordChar char) :
    wordBefore? line column = some (front.length, (front ++ word).length) := by
  have behind : ∀ char ∈ (gap ++ line.drop column).head?, ¬isWordChar char := by
    cases gap with
    | nil => exact uncut
    | cons char rest =>
      intro other member
      obtain rfl := Option.some.inj member
      exact last.blank _ List.mem_cons_self
  have there : line = front ++ word ++ gap ++ line.drop column := by
    rw [← last.split, List.take_append_drop]
  calc
    wordBefore? line column
    _ = wordBefore? line (front ++ word ++ gap).length := by
      rw [← wordBefore?_length_take, last.split]
    _ = wordBefore? line (front ++ word).length := by
      have skipped := wordBefore?_skip last.blank (front ++ word) (line.drop column) uncut
      rwa [← there] at skipped
    _ = some (front.length, (front ++ word).length) := by
      have found := wordBefore?_end last.nonempty last.whole last.apart behind
      rwa [← List.append_assoc, ← there] at found

/-- The search finds nothing where there is no word character in front. -/
theorem wordBefore?_of_blank (blank : ∀ char ∈ line.take column, ¬isWordChar char)
    (uncut : ∀ char ∈ (line.drop column).head?, ¬isWordChar char) :
    wordBefore? line column = none := by
  have skipped := wordBefore?_skip blank [] (line.drop column) uncut
  rw [List.nil_append, List.take_append_drop, wordBefore?_length_take] at skipped
  exact skipped

/-- A text with a word character in it has a last identifier. -/
theorem exists_lastWord {text : List Char} (some : ∃ char ∈ text, isWordChar char) :
    ∃ front word gap, LastWord text front word gap := by
  -- What is no word character is taken off the end, and then what is one.
  let rest := text.rdropWhile (!isWordChar ·)
  have split : rest ++ text.rtakeWhile (!isWordChar ·) = text := List.rdropWhile_append_rtakeWhile
  have left : rest ≠ [] := by
    intro none
    obtain ⟨char, member, word⟩ := some
    have other := List.rdropWhile_eq_nil_iff.mp none char member
    simp [word] at other
  have last : isWordChar (rest.getLast left) := by
    simpa using List.rdropWhile_last_not (!isWordChar ·) text left
  refine ⟨rest.rdropWhile isWordChar, rest.rtakeWhile isWordChar,
    text.rtakeWhile (!isWordChar ·), ?_, ?_, ?_, ?_, ?_⟩
  · rw [List.rdropWhile_append_rtakeWhile, split]
  · intro none
    exact List.rtakeWhile_eq_nil_iff.mp none left last
  · exact fun char member => List.mem_rtakeWhile_imp member
  · intro char member
    obtain ⟨there, rfl⟩ := List.mem_getLast?_eq_getLast member
    exact List.rdropWhile_last_not _ _ there
  · intro char member
    simpa using List.mem_rtakeWhile_imp member

/-- What the search finds from a place that cuts no identifier is the last one in front of it. -/
theorem wordBefore?_eq_some {start stop : Nat}
    (found : wordBefore? line column = some (start, stop))
    (uncut : ∀ char ∈ (line.drop column).head?, ¬isWordChar char) :
    ∃ front word gap, LastWord (line.take column) front word gap ∧
      start = front.length ∧ stop = (front ++ word).length := by
  by_cases some : ∃ char ∈ line.take column, isWordChar char
  · obtain ⟨front, word, gap, last⟩ := exists_lastWord some
    refine ⟨front, word, gap, last, ?_⟩
    have same := (wordBefore?_of_lastWord last uncut).symm.trans found
    exact Prod.mk.inj (Option.some.inj same.symm)
  · push Not at some
    rw [wordBefore?_of_blank some uncut] at found
    cases found

end FlowService.Text
