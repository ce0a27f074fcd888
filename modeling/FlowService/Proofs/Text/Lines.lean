import FlowService.Text.Document

/-!
A buffer is its lines with a line feed between any two of them. An offset counts the bytes in front
of its place, and a line that is rewritten leaves all others as they are.
-/

namespace FlowService

namespace Text

/-- Splitting at a mark is splitting a list. -/
theorem splitAt_eq_splitOn (mark : Char) (text : List Char) :
    splitAt mark text = text.splitOn mark := by
  induction text with
  | nil => rfl
  | cons char rest ih =>
    have there : splitAt mark rest ≠ [] := by
      rw [ih]
      exact List.splitOn_ne_nil mark rest
    obtain ⟨stretch, later, split⟩ := List.exists_cons_of_ne_nil there
    have step : splitAt mark (char :: rest) =
        if char = mark then [] :: stretch :: later else (char :: stretch) :: later := by
      unfold splitAt at split ⊢
      rw [List.foldr_cons, split]
    rw [List.splitOn_cons_eq_if_modifyHead, ← ih, split, step]
    by_cases same : char = mark
    · simp [same]
    · simp [same]

/-- No stretch of a text that is split holds the mark. -/
theorem not_mem_of_mem_splitAt {mark : Char} {text stretch : List Char}
    (member : stretch ∈ splitAt mark text) : mark ∉ stretch := by
  rw [splitAt_eq_splitOn] at member
  induction text generalizing stretch with
  | nil =>
    rw [List.splitOn_nil, List.mem_singleton] at member
    rw [member]
    exact List.not_mem_nil
  | cons char rest ih =>
    rw [List.splitOn_cons_eq_if_modifyHead] at member
    split at member
    · rcases List.mem_cons.mp member with rfl | later
      · exact List.not_mem_nil
      · exact ih later
    · rename_i apart
      obtain ⟨first, later, split⟩ :=
        List.exists_cons_of_ne_nil (List.splitOn_ne_nil mark rest)
      rw [split] at member ih
      rcases List.mem_cons.mp member with rfl | other
      · have clean := ih List.mem_cons_self
        rintro (_ | _)
        · exact apart (beq_self_eq_true _)
        · contradiction
      · exact ih (List.mem_cons_of_mem _ other)

/-- The lines in front of one of them, each with its line feed. -/
def above (lines : List (List Char)) (number : Nat) : List Char :=
  (lines.take number).flatMap (· ++ ['\n'])

/-- The lines behind one of them, each with the line feed in front of it. -/
def below (lines : List (List Char)) (number : Nat) : List Char :=
  (lines.drop (number + 1)).flatMap ('\n' :: ·)

/-- Joined lines are one of them between those above and those below. -/
theorem intercalate_eq {lines : List (List Char)} {number : Nat} {line : List Char}
    (there : lines[number]? = some line) :
    ['\n'].intercalate lines = above lines number ++ line ++ below lines number := by
  induction lines generalizing number line with
  | nil => cases there
  | cons first later ih =>
    cases number with
    | zero =>
      obtain rfl := Option.some.inj there
      cases later with
      | nil => simp [above, below]
      | cons second rest =>
        have next : ['\n'].intercalate (second :: rest) =
            above (second :: rest) 0 ++ second ++ below (second :: rest) 0 := ih rfl
        simpa [above, below] using next
    | succ number =>
      have found : later[number]? = some line := there
      have some : later ≠ [] := by
        rintro rfl
        cases found
      rw [List.intercalate_cons_of_ne_nil some, ih found]
      simp [above, below]

/-- What is done to a line does not touch those above it. -/
theorem above_modify (lines : List (List Char)) (number : Nat)
    (change : List Char → List Char) :
    above (lines.modify number change) number = above lines number := by
  unfold above
  rw [List.take_modify, List.modify_eq_self (List.length_take_le _ _)]

/-- What is done to a line does not touch those below it. -/
theorem below_modify (lines : List (List Char)) (number : Nat)
    (change : List Char → List Char) :
    below (lines.modify number change) number = below lines number := by
  unfold below
  rw [List.drop_modify_of_lt _ _ _ _ (Nat.lt_succ_self _)]

/-- The bytes of two texts are those of the one and those of the other. -/
@[simp]
theorem byteLength_append (front back : List Char) :
    byteLength (front ++ back) = byteLength front + byteLength back := by
  induction front with
  | nil => simp [byteLength]
  | cons char rest ih =>
    have step : ∀ text, byteLength (char :: text) = char.utf8Size + byteLength text := fun _ => rfl
    rw [List.cons_append, step, step, ih, Nat.add_assoc]

/-- As many bytes as a text takes are its characters. -/
theorem charactersIn?_byteLength (front back : List Char) :
    charactersIn? (byteLength front) (front ++ back) = some front.length := by
  induction front with
  | nil =>
    show charactersIn? 0 back = some 0
    rw [charactersIn?]
  | cons char rest ih =>
    have step : byteLength (char :: rest) = char.utf8Size + byteLength rest := rfl
    -- A character takes a byte at least, so the count is not used up before it.
    obtain ⟨bytes, positive⟩ := Nat.exists_eq_succ_of_ne_zero
      (Nat.ne_of_gt (Nat.add_pos_left char.utf8Size_pos (byteLength rest)))
    have enough : char.utf8Size ≤ bytes + 1 := by omega
    have left : bytes + 1 - char.utf8Size = byteLength rest := by omega
    rw [step, positive, List.cons_append, charactersIn?, if_pos enough, left, ih]
    rfl

/-- What ends a line in front of its line feed. -/
def ending (raw : List Char) : List Char :=
  if raw.getLast? = some '\r' then ['\r'] else []

/-- A line is its text and its end. -/
theorem withoutReturn_append_ending (raw : List Char) : withoutReturn raw ++ ending raw = raw := by
  unfold withoutReturn ending
  split
  · rename_i last
    obtain ⟨front, rfl⟩ := List.getLast?_eq_some_iff.mp last
    simp
  · simp

/-- A text with the end of a line is that text as a line, unless the line has no end and the text
closes with what would be one. -/
theorem withoutReturn_append {raw line : List Char}
    (kept : line.getLast? = some '\r' → (withoutReturn raw).getLast? = some '\r') :
    withoutReturn (line ++ ending raw) = line := by
  unfold ending
  split
  · simp [withoutReturn]
  · rename_i unended
    have whole : withoutReturn raw = raw := if_neg unended
    rw [whole] at kept
    rw [List.append_nil]
    exact if_neg fun last => unended (kept last)

/-- The end of a line holds no line feed. -/
theorem not_mem_ending (raw : List Char) : '\n' ∉ ending raw := by
  unfold ending
  split <;> simp

end Text

namespace Document

/-- A line of a buffer and its end are between two line feeds. -/
theorem exists_rawLine {document : Document} {number : UInt32} {line : List Char}
    (there : document.line? number = some line) :
    ∃ raw, document.rawLines[number.toNat]? = some raw ∧ Text.withoutReturn raw = line :=
  Option.map_eq_some_iff.mp there

/-- A line holds no line feed. -/
theorem not_mem_of_line? {document : Document} {number : UInt32} {line : List Char}
    (there : document.line? number = some line) : '\n' ∉ line := by
  obtain ⟨raw, found, rfl⟩ := exists_rawLine there
  have clean := Text.not_mem_of_mem_splitAt (List.mem_of_getElem? found)
  intro feed
  apply clean
  rw [← Text.withoutReturn_append_ending raw]
  exact List.mem_append_left _ feed

/-- A buffer is one of its lines between those above and those below. -/
theorem characters_eq {document : Document} {number : Nat} {raw : List Char}
    (there : document.rawLines[number]? = some raw) :
    document.characters =
      Text.above document.rawLines number ++ raw ++ Text.below document.rawLines number := by
  rw [← Text.intercalate_eq there, rawLines, Text.splitAt_eq_splitOn, List.intercalate_splitOn]

/-- An offset on a line counts the bytes above it and those of the line in front of the column. -/
theorem offsetAt_eq {document : Document} {position : Position} {line : List Char}
    (there : document.line? position.line = some line) :
    document.offsetAt position = Text.byteLength
      (Text.above document.rawLines position.line.toNat ++
        line.take position.character.toNat) := by
  obtain ⟨raw, found, rfl⟩ := exists_rawLine there
  have lines : ∀ lines : List (List Char),
      lines.foldr (fun line bytes => Text.byteLength line + 1 + bytes) 0 =
        Text.byteLength (lines.flatMap (· ++ ['\n'])) := by
    intro lines
    induction lines with
    | nil => rfl
    | cons first later ih =>
      have feed : Text.byteLength ['\n'] = 1 := rfl
      rw [List.foldr_cons, ih, List.flatMap_cons, Text.byteLength_append, Text.byteLength_append,
        feed]
  rw [Text.byteLength_append, Text.above, ← lines]
  unfold offsetAt
  simp only [found]

/-- What is between two offsets is the text that takes the bytes between them. -/
theorem between?_eq {document : Document} {front middle back : List Char}
    (text : document.characters = front ++ middle ++ back) :
    document.between? (Text.byteLength front) (Text.byteLength (front ++ middle)) =
      some (String.ofList middle) := by
  have first := Text.charactersIn?_byteLength front (middle ++ back)
  have last := Text.charactersIn?_byteLength (front ++ middle) back
  rw [← List.append_assoc] at first
  have cut : ((front ++ middle ++ back).take (front ++ middle).length).drop front.length =
      middle := by
    rw [List.take_left, List.drop_left]
  unfold between?
  rw [text, first, last, Option.bind_eq_bind, Option.bind_some, Option.bind_some, cut]
  rfl

/-- An offset on a line counts the bytes above it and those of what is in front on the line. -/
theorem offsetAt_column {document : Document} {number : UInt32} {front back : List Char}
    (there : document.line? number = some (front ++ back)) (fits : front.length < UInt32.size) :
    document.offsetAt ⟨number, front.length.toUInt32⟩ =
      Text.byteLength (Text.above document.rawLines number.toNat ++ front) := by
  have column : front.length.toUInt32.toNat = front.length := UInt32.toNat_ofNat_of_lt fits
  rw [offsetAt_eq there]
  simp only [column, List.take_left]

/-- A buffer is the text of one of its lines between what is above and what is behind. -/
theorem exists_behind {document : Document} {number : UInt32} {line : List Char}
    (there : document.line? number = some line) :
    ∃ behind, document.characters =
      Text.above document.rawLines number.toNat ++ line ++ behind := by
  obtain ⟨raw, found, rfl⟩ := exists_rawLine there
  refine ⟨Text.ending raw ++ Text.below document.rawLines number.toNat, ?_⟩
  rw [characters_eq found, ← List.append_assoc, List.append_assoc _ _ (Text.ending raw),
    Text.withoutReturn_append_ending]

/-- The text between two columns of a line is what stands there. -/
theorem slice?_onLine {document : Document} {number : UInt32} {front middle back : List Char}
    (there : document.line? number = some (front ++ middle ++ back))
    (fits : (front ++ middle).length < UInt32.size) :
    document.slice? (onLine number (front.length, (front ++ middle).length)) =
      some (String.ofList middle) := by
  have start := there
  rw [List.append_assoc] at start
  have shorter : front.length < UInt32.size := by
    rw [List.length_append] at fits
    omega
  obtain ⟨behind, text⟩ := exists_behind there
  have parted : document.characters = (Text.above document.rawLines number.toNat ++ front) ++
      middle ++ (back ++ behind) := by
    rw [text]
    simp only [List.append_assoc]
  have first := offsetAt_column start shorter
  have last := offsetAt_column there fits
  rw [← List.append_assoc] at last
  unfold slice? onLine
  simp only [first, last]
  rw [Nat.max_eq_left, between?_eq parted]
  rw [Text.byteLength_append _ middle]
  exact Nat.le_add_right ..

/-- A buffer with another text in one of its lines, which keeps its end. -/
def withLine (document : Document) (number : UInt32) (line : List Char) : Document where
  path := document.path
  text := String.ofList (['\n'].intercalate
    (document.rawLines.modify number.toNat fun raw => line ++ Text.ending raw))

/-- The lines of a buffer with another text in one of them are the same but for that one. -/
theorem rawLines_withLine (document : Document) (number : UInt32) {line : List Char}
    (clean : '\n' ∉ line) : (document.withLine number line).rawLines =
      document.rawLines.modify number.toNat fun raw => line ++ Text.ending raw := by
  have text : (document.withLine number line).characters = ['\n'].intercalate
      (document.rawLines.modify number.toNat fun raw => line ++ Text.ending raw) :=
    String.toList_ofList
  rw [rawLines, text, Text.splitAt_eq_splitOn]
  apply List.splitOn_intercalate
  · -- Neither the other lines nor the new one hold a line feed.
    intro raw member
    obtain ⟨index, inside, rfl⟩ := List.getElem_of_mem member
    have bound : index < document.rawLines.length := by simpa using inside
    have old : '\n' ∉ document.rawLines[index] :=
      Text.not_mem_of_mem_splitAt (List.getElem_mem _)
    rw [List.getElem_modify]
    split
    · exact fun either => (List.mem_append.mp either).elim clean (Text.not_mem_ending _)
    · exact old
  · intro none
    have size := congrArg List.length none
    rw [List.length_modify, List.length_nil, List.length_eq_zero_iff, rawLines,
      Text.splitAt_eq_splitOn] at size
    exact List.splitOn_ne_nil _ _ size

/-- A buffer with another text in one of its lines has that text in place of the line. -/
theorem characters_withLine {document : Document} {number : UInt32} {raw : List Char}
    (there : document.rawLines[number.toNat]? = some raw) (line : List Char) :
    (document.withLine number line).characters =
      Text.above document.rawLines number.toNat ++ (line ++ Text.ending raw) ++
        Text.below document.rawLines number.toNat := by
  have changed : (document.rawLines.modify number.toNat
      fun raw => line ++ Text.ending raw)[number.toNat]? = some (line ++ Text.ending raw) := by
    rw [List.getElem?_modify_eq, there]
    rfl
  rw [← Text.above_modify _ _ fun raw => line ++ Text.ending raw,
    ← Text.below_modify _ _ fun raw => line ++ Text.ending raw, ← Text.intercalate_eq changed]
  exact String.toList_ofList

/-- Only the rewritten line of a buffer reads otherwise. -/
theorem line?_withLine {document : Document} {number : UInt32} {old line : List Char}
    (there : document.line? number = some old) (clean : '\n' ∉ line)
    (kept : line.getLast? = some '\r' → old.getLast? = some '\r') (other : UInt32) :
    (document.withLine number line).line? other =
      if other = number then some line else document.line? other := by
  obtain ⟨raw, found, rfl⟩ := exists_rawLine there
  unfold line?
  rw [rawLines_withLine document number clean]
  by_cases same : other = number
  · rw [if_pos same, same, List.getElem?_modify_eq, found]
    exact congrArg some (Text.withoutReturn_append kept)
  · rw [if_neg same, List.getElem?_modify_ne]
    exact fun equal => same (UInt32.toNat_inj.mp equal.symm)

end Document

end FlowService
