import FlowService.Proofs.Feature.Calls
import FlowService.Proofs.Text.Lines
import FlowService.Proofs.Text.Words

/-!
The checker is asked about a call in a buffer from which the arguments in front of the position are
cut out and nothing else, at the end of the callee. What follows the position comes to stand right
behind the callee there.
-/

namespace FlowService

/-- The parts of a line on which a call is open: the callee, what is between it and the parenthesis,
the arguments up to some column with the number of commas that separate them, and what is around. -/
structure CallLine where
  front : List Char
  name : List Char
  gap : List Char
  arguments : List Char
  rest : List Char
  commas : Nat

/-- What is outside of two offsets is the text without the bytes between them. -/
theorem Document.without?_eq {document : Document} {front middle back : List Char}
    (text : document.characters = front ++ middle ++ back) :
    document.without? (Text.byteLength front) (Text.byteLength (front ++ middle)) =
      some (String.ofList (front ++ back)) := by
  have first := Text.charactersIn?_byteLength front (middle ++ back)
  have last := Text.charactersIn?_byteLength (front ++ middle) back
  rw [← List.append_assoc] at first
  have start : (front ++ middle ++ back).take front.length = front := by
    rw [List.append_assoc, List.take_left]
  unfold without?
  rw [text, first, last, Option.bind_eq_bind, Option.bind_some, Option.bind_some, List.drop_left,
    start]
  rfl

namespace CallLine

/-- What is in front of the parenthesis. -/
def opening (parts : CallLine) : List Char := parts.front ++ parts.name ++ parts.gap

/-- What is in front of the column. -/
def seen (parts : CallLine) : List Char := parts.opening ++ '(' :: parts.arguments

/-- The whole line. -/
def line (parts : CallLine) : List Char := parts.seen ++ parts.rest

/-- The line without what is between the callee and the column. -/
def cut (parts : CallLine) : List Char := parts.front ++ parts.name ++ parts.rest

/-- The call as it is found on a line of some number. -/
def call (parts : CallLine) (number : UInt32) : OpenCall :=
  ⟨⟨number, parts.opening.length.toUInt32⟩, parts.commas⟩

/-- The callee as it is found on a line of some number. -/
def callee (parts : CallLine) (number : UInt32) : Range :=
  Document.onLine number (parts.front.length, (parts.front ++ parts.name).length)

/-- The parts are those of the line of a position: the column is that of the position, the callee is
the last identifier in front of the parenthesis, and the parenthesis is the one that is open. -/
structure Around (parts : CallLine) (document : Document) (position : Position) : Prop where
  there : document.line? position.line = some parts.line
  column : parts.line.take position.character.toNat = parts.seen
  named : Text.LastWord parts.opening parts.front parts.name parts.gap
  scanned : OpenCall.scanBack parts.seen.reverse 0 0 = some (parts.opening.length, parts.commas)

variable {parts : CallLine} {document : Document} {position : Position}

/-- A column up to the one of a position fits in 32 bits. -/
theorem Around.fits (around : parts.Around document position) :
    parts.opening.length < UInt32.size := by
  have shown : parts.opening.length < parts.seen.length := by simp [seen]
  calc
    parts.opening.length < parts.seen.length := shown
    _ ≤ position.character.toNat := by
      rw [← around.column]
      exact List.length_take_le ..
    _ < UInt32.size := position.character.toNat_lt

/-- No identifier goes on at a parenthesis. -/
theorem uncut_parenthesis (opening back : List Char) :
    ∀ char ∈ ((opening ++ '(' :: back).drop opening.length).head?, ¬Text.isWordChar char := by
  rw [List.drop_left]
  intro char member
  obtain rfl : '(' = char := Option.some.inj member
  decide +kernel

/-- What is found around a position are the parts of its line. -/
theorem Around.found (around : parts.Around document position) :
    document.enclosingCall? position = some (parts.call position.line) ∧
      document.previousWord? (parts.call position.line).parenthesis =
        some (parts.callee position.line) := by
  have column : parts.opening.length.toUInt32.toNat = parts.opening.length :=
    UInt32.toNat_ofNat_of_lt around.fits
  have whole : parts.line = parts.opening ++ '(' :: (parts.arguments ++ parts.rest) := by
    simp [line, seen]
  constructor
  · apply Document.enclosingCall?_eq_some.mpr
    refine ⟨parts.line, around.there, parts.opening.length, parts.commas, ?_, rfl⟩
    rw [around.column]
    exact around.scanned
  · have word : Text.wordBefore? parts.line parts.opening.length =
        some (parts.front.length, (parts.front ++ parts.name).length) := by
      rw [whole]
      apply Text.wordBefore?_of_lastWord
      · rw [List.take_left]
        exact around.named
      · exact uncut_parenthesis parts.opening _
    unfold Document.previousWord? call callee
    simp only [around.there, column, Option.bind_eq_bind, Option.bind_some, word]
    rfl

/-- A call and a callee that are found are parts of the line. -/
theorem exists_around {call : OpenCall} {callee : Range}
    (opened : document.enclosingCall? position = some call)
    (named : document.previousWord? call.parenthesis = some callee) :
    ∃ parts : CallLine, parts.Around document position ∧
      call = parts.call position.line ∧ callee = parts.callee position.line := by
  obtain ⟨line, there, index, commas, scanned, rfl⟩ := Document.enclosingCall?_eq_some.mp opened
  obtain ⟨innermost, -⟩ := OpenCall.scanBack_eq_some_iff.mp scanned
  obtain ⟨split, inside, -⟩ := innermost.split
  have column := Document.toNat_toUInt32_of_lt inside
  have earlier : index ≤ position.character.toNat :=
    Nat.le_trans (Nat.le_of_lt inside) (List.length_take_le ..)
  have size : (line.take index).length = index :=
    List.length_take_of_le (Nat.le_trans (Nat.le_of_lt inside) (List.length_take_le' ..))
  rw [List.take_take, Nat.min_eq_left earlier] at split
  have whole : line.take index ++ '(' :: ((line.take position.character.toNat).drop (index + 1) ++
      line.drop position.character.toNat) = line := by
    rw [← List.cons_append, ← List.append_assoc, ← split, List.take_append_drop]
  -- The callee is looked for in front of the parenthesis.
  obtain ⟨other, sameLine, named⟩ := Option.bind_eq_some_iff.mp named
  obtain rfl := Option.some.inj (there.symm.trans sameLine)
  obtain ⟨⟨start, stop⟩, found, made⟩ := Option.bind_eq_some_iff.mp named
  obtain rfl := Option.some.inj made
  have word : Text.wordBefore? line index = some (start, stop) := by
    rw [← found]
    exact congrArg (Text.wordBefore? line) column.symm
  have uncut := uncut_parenthesis (line.take index)
    ((line.take position.character.toNat).drop (index + 1) ++ line.drop position.character.toNat)
  rw [whole, size] at uncut
  obtain ⟨front, name, gap, last, rfl, rfl⟩ := Text.wordBefore?_eq_some word uncut
  rw [last.split] at split size last
  refine ⟨⟨front, name, gap, (line.take position.character.toNat).drop (index + 1),
    line.drop position.character.toNat, commas⟩, ⟨?_, ?_, last, ?_⟩, ?_, rfl⟩
  · rw [CallLine.line, seen, opening, ← split, List.take_append_drop]
    exact there
  · rw [CallLine.line, seen, opening, ← split, List.take_append_drop]
  · rw [seen, opening, ← split, size]
    exact scanned
  · rw [CallLine.call, opening, size]

/-- The callee ends in front of the parenthesis, and that in front of the column. -/
theorem lengths (parts : CallLine) : (parts.front ++ parts.name).length ≤ parts.opening.length ∧
    parts.opening.length < parts.seen.length := by
  simp [opening, seen]

/-- The line holds no line feed. -/
theorem Around.not_mem_line (around : parts.Around document position) : '\n' ∉ parts.line :=
  Document.not_mem_of_line? around.there

/-- What is cut out of a line is what is between its callee and the column. -/
theorem line_eq (parts : CallLine) : parts.line =
    parts.front ++ parts.name ++ (parts.gap ++ '(' :: parts.arguments) ++ parts.rest := by
  simp [line, seen, opening]

/-- What is left of the line holds no line feed. -/
theorem Around.not_mem_cut (around : parts.Around document position) : '\n' ∉ parts.cut := by
  intro feed
  apply around.not_mem_line
  rw [line_eq]
  rw [cut] at feed
  rcases List.mem_append.mp feed with before | behind
  · exact List.mem_append_left _ (List.mem_append_left _ before)
  · exact List.mem_append_right _ behind

/-- What is left of the line closes with no carriage return unless the line does. -/
theorem Around.cut_kept (around : parts.Around document position) :
    parts.cut.getLast? = some '\r' → parts.line.getLast? = some '\r' := by
  have ended : ∀ text, (text ++ parts.rest).getLast? =
      parts.rest.getLast?.or text.getLast? := fun _ => List.getLast?_append
  rw [cut, line, ended, ended]
  cases parts.rest.getLast? with
  | some last => exact id
  | none =>
    -- The callee closes what is left, and its characters are those of an identifier.
    intro closing
    have last : (parts.front ++ parts.name).getLast? = parts.name.getLast? := by
      rw [List.getLast?_append_of_ne_nil _ around.named.nonempty]
    rw [Option.none_or, last] at closing
    have word := around.named.whole _ (List.mem_of_getLast? closing)
    exact absurd word (by decide +kernel)

/-- What is left of the line takes its place in the buffer. -/
theorem Around.line?_withLine (around : parts.Around document position) (number : UInt32) :
    (document.withLine position.line parts.cut).line? number =
      if number = position.line then some parts.cut else document.line? number :=
  Document.line?_withLine around.there around.not_mem_cut around.cut_kept number

/-- The offset of the end of the callee counts all in front of it. -/
theorem Around.offsetAt_callee (around : parts.Around document position) :
    document.offsetAt (parts.callee position.line).stop = Text.byteLength
      (Text.above document.rawLines position.line.toNat ++ (parts.front ++ parts.name)) := by
  have there := around.there
  rw [line_eq, List.append_assoc (parts.front ++ parts.name)] at there
  exact Document.offsetAt_column there (Nat.lt_of_le_of_lt parts.lengths.1 around.fits)

/-- The offset of the position counts all in front of it. -/
theorem Around.offsetAt_position (around : parts.Around document position) :
    document.offsetAt position = Text.byteLength
      (Text.above document.rawLines position.line.toNat ++ (parts.front ++ parts.name) ++
        (parts.gap ++ '(' :: parts.arguments)) := by
  rw [Document.offsetAt_eq around.there, around.column]
  simp [seen, opening]

/-- The buffer with what is left of the line lacks the span from the callee to the column. -/
theorem Around.exists_behind (around : parts.Around document position) : ∃ behind,
    document.characters =
      Text.above document.rawLines position.line.toNat ++ (parts.front ++ parts.name) ++
        (parts.gap ++ '(' :: parts.arguments) ++ behind ∧
    (document.withLine position.line parts.cut).characters =
      Text.above document.rawLines position.line.toNat ++ (parts.front ++ parts.name) ++
        behind := by
  obtain ⟨raw, found, same⟩ := Document.exists_rawLine around.there
  have whole : parts.line ++ Text.ending raw = raw := by
    rw [← same, Text.withoutReturn_append_ending]
  refine ⟨parts.rest ++ Text.ending raw ++ Text.below document.rawLines position.line.toNat,
    ?_, ?_⟩
  · calc
      document.characters = Text.above document.rawLines position.line.toNat ++
          (parts.line ++ Text.ending raw) ++
            Text.below document.rawLines position.line.toNat := by
        rw [whole, ← Document.characters_eq found]
      _ = _ := by simp [line_eq, List.append_assoc]
  · rw [Document.characters_withLine found]
    simp [cut, List.append_assoc]

/-- The checker is asked about the line without what is between the callee and the column. -/
theorem Around.callSite? (around : parts.Around document position) :
    document.callSite? position = some ⟨parts.call position.line, parts.callee position.line,
      String.ofList parts.name, (document.withLine position.line parts.cut).text⟩ := by
  obtain ⟨opened, named⟩ := around.found
  have there := around.there
  rw [line_eq, List.append_assoc (parts.front ++ parts.name)] at there
  have sliced : document.slice? (parts.callee position.line) = some (String.ofList parts.name) :=
    Document.slice?_onLine there (Nat.lt_of_le_of_lt parts.lengths.1 around.fits)
  have later : document.offsetAt (parts.callee position.line).stop ≤
      document.offsetAt position := by
    rw [around.offsetAt_callee, around.offsetAt_position, Text.byteLength_append _ (parts.gap ++ _)]
    exact Nat.le_add_right ..
  have contents : document.without? (document.offsetAt (parts.callee position.line).stop)
      (document.offsetAt position) =
        some (document.withLine position.line parts.cut).text := by
    obtain ⟨behind, text, left⟩ := around.exists_behind
    rw [around.offsetAt_callee, around.offsetAt_position, Document.without?_eq text, ← left]
    exact congrArg some String.ofList_toList
  unfold Document.callSite?
  simp only [opened, named, sliced, Option.bind_eq_bind, Option.bind_some, Nat.max_eq_left later,
    contents]
  rfl

end CallLine

end FlowService
