import FlowService.Proofs.Feature.CallSites

/-!
The checker is asked about a call at the end of its callee, in a buffer that lacks the span from
there to the position and nothing else. So the identifier at the place asked about is the callee
together with what of an identifier follows the position.
-/

namespace FlowService

/-- The buffer that the checker is asked about in place of one with a path. -/
def CallSite.buffer (site : CallSite) (path : Path) : Document := ⟨path, site.contents⟩

/-- What is shown for what comes of the question: the parameters of a function of the callee's name
with the one of them that is reached. -/
def CallSite.help? (site : CallSite) (result : CheckerResult) : Option SignatureHelp :=
  (result.settle Reply.Completions.ofJson?).bind fun reply =>
    (SignatureHelp.candidate? site.name reply).map fun candidate =>
      SignatureHelp.ofCandidate site.name candidate site.call.commas

/-- A call is asked about in front of a position on a line with its arguments cut out: the callee
ends in front of the parenthesis and that in front of the position, and what lies between the
offsets of the end of the callee and of the position is missing, which is no end of a line. -/
structure CallSite.LacksArguments (site : CallSite) (document : Document) (position : Position)
    (line : List Char) : Prop where
  there : document.line? position.line = some line
  callee_line : site.callee.start.line = position.line ∧ site.callee.stop.line = position.line
  callee_nonempty : site.callee.start.character < site.callee.stop.character
  callee_in_front : site.callee.stop.character ≤ site.call.parenthesis.character
  parenthesis_line : site.call.parenthesis.line = position.line
  parenthesis_in_front :
    site.call.parenthesis.character.toNat < min position.character.toNat line.length
  later : document.offsetAt site.callee.stop < document.offsetAt position
  cut : ∃ front span back, document.characters = front ++ span ++ back ∧
    site.contents.toList = front ++ back ∧ '\n' ∉ span ∧
      Text.byteLength front = document.offsetAt site.callee.stop ∧
        Text.byteLength (front ++ span) = document.offsetAt position
  lines : (site.buffer document.path).rawLines =
    document.rawLines.modify position.line.toNat fun raw =>
      line.take site.callee.stop.character.toNat ++ line.drop position.character.toNat ++
        Text.ending raw
  offset : (site.buffer document.path).offsetAt site.callee.stop =
    document.offsetAt site.callee.stop

namespace CallLine

variable {parts : CallLine} {document : Document} {position : Position}

/-- How the checker is asked about the parts of a line. -/
def site (parts : CallLine) (document : Document) (number : UInt32) : CallSite :=
  ⟨parts.call number, parts.callee number, String.ofList parts.name,
    (document.withLine number parts.cut).text⟩

/-- The columns of what is in front of the parenthesis are as they are counted. -/
theorem Around.columns (around : parts.Around document position) :
    (parts.callee position.line).start.character.toNat = parts.front.length ∧
    (parts.callee position.line).stop.character.toNat = (parts.front ++ parts.name).length ∧
    (parts.call position.line).parenthesis.character.toNat = parts.opening.length := by
  have fits := around.fits
  have shorter := parts.lengths.1
  have shortest : parts.front.length ≤ (parts.front ++ parts.name).length := by simp
  exact ⟨UInt32.toNat_ofNat_of_lt (by omega), UInt32.toNat_ofNat_of_lt (by omega),
    UInt32.toNat_ofNat_of_lt fits⟩

/-- What is behind the column is the rest of the line. -/
theorem Around.rest_eq (around : parts.Around document position) :
    parts.line.drop position.character.toNat = parts.rest := by
  have whole : parts.seen ++ parts.line.drop position.character.toNat =
      parts.seen ++ parts.rest := by
    rw [← around.column, List.take_append_drop, around.column]
    rfl
  exact List.append_cancel_left whole

/-- What is left of the line is what is in front of the end of the callee and behind the column. -/
theorem Around.cut_eq (around : parts.Around document position) : parts.cut =
    parts.line.take (parts.callee position.line).stop.character.toNat ++
      parts.line.drop position.character.toNat := by
  have front : parts.line.take (parts.front ++ parts.name).length = parts.front ++ parts.name := by
    rw [line_eq, List.append_assoc (parts.front ++ parts.name), List.take_left]
  rw [around.columns.2.1, around.rest_eq, front, cut]

/-- What is cut out has a parenthesis at least. -/
theorem byteLength_span_pos (parts : CallLine) :
    0 < Text.byteLength (parts.gap ++ '(' :: parts.arguments) := by
  have one : Text.byteLength ('(' :: parts.arguments) = 1 + Text.byteLength parts.arguments := rfl
  rw [Text.byteLength_append, one]
  omega

/-- The checker is asked about the parts of a line with the arguments cut out. -/
theorem Around.lacksArguments (around : parts.Around document position) :
    (parts.site document position.line).LacksArguments document position parts.line := by
  obtain ⟨start, stop, parenthesis⟩ := around.columns
  obtain ⟨shorter, shortest⟩ := parts.lengths
  have nonempty : 0 < parts.name.length := List.length_pos_iff.mpr around.named.nonempty
  constructor
  case there => exact around.there
  case callee_line => exact ⟨rfl, rfl⟩
  case callee_nonempty =>
    rw [UInt32.lt_iff_toNat_lt]
    show (parts.callee position.line).start.character.toNat <
      (parts.callee position.line).stop.character.toNat
    rw [start, stop, List.length_append]
    omega
  case callee_in_front =>
    rw [UInt32.le_iff_toNat_le]
    show (parts.callee position.line).stop.character.toNat ≤
      (parts.call position.line).parenthesis.character.toNat
    rw [stop, parenthesis]
    exact shorter
  case parenthesis_line => rfl
  case parenthesis_in_front =>
    show (parts.call position.line).parenthesis.character.toNat < _
    rw [parenthesis, ← List.length_take, around.column]
    exact shortest
  case later =>
    show document.offsetAt (parts.callee position.line).stop < _
    rw [around.offsetAt_callee, around.offsetAt_position, Text.byteLength_append _ (parts.gap ++ _)]
    exact Nat.lt_add_of_pos_right parts.byteLength_span_pos
  case cut =>
    obtain ⟨behind, text, left⟩ := around.exists_behind
    refine ⟨_, _, behind, text, left, ?_, ?_, ?_⟩
    · intro feed
      apply around.not_mem_line
      rw [line_eq]
      exact List.mem_append_left _ (List.mem_append_right _ feed)
    · exact around.offsetAt_callee.symm
    · exact around.offsetAt_position.symm
  case lines =>
    calc
      _ = document.rawLines.modify position.line.toNat fun raw =>
          parts.cut ++ Text.ending raw :=
        Document.rawLines_withLine document position.line around.not_mem_cut
      _ = _ := by
        rw [around.cut_eq]
        rfl
  case offset =>
    have there : (document.withLine position.line parts.cut).line? position.line =
        some (parts.front ++ parts.name ++ parts.rest) := by
      rw [around.line?_withLine, if_pos rfl, cut]
    have fits : (parts.front ++ parts.name).length < UInt32.size :=
      Nat.lt_of_le_of_lt shorter around.fits
    have asked := Document.offsetAt_column there fits
    rw [Document.rawLines_withLine document position.line around.not_mem_cut,
      Text.above_modify, ← around.offsetAt_callee] at asked
    exact asked

end CallLine

namespace Document

open CallLine

/-- A buffer with an absolute path is asked about as its call site says. -/
theorem signature_eq {document : Document} {position : Position} {site : CallSite}
    (absolute : document.path.absolute) (found : document.callSite? position = some site) :
    document.signature position =
      .ask (.completions document.path site.contents site.callee.stop) site.help? := by
  unfold signature
  rw [if_pos absolute, found]
  rfl

/-- Wherever a call and its callee are found, the checker is asked about the call with nothing but
its arguments in front of the position cut out. -/
theorem signature_cuts_out_arguments {document : Document} {position : Position} {call : OpenCall}
    {callee : Range} (opened : document.enclosingCall? position = some call)
    (named : document.previousWord? call.parenthesis = some callee) :
    ∃ site line, document.callSite? position = some site ∧ site.call = call ∧
      site.callee = callee ∧ site.LacksArguments document position line ∧
        (document.path.absolute → ∃ read, document.signature position =
          .ask (.completions document.path site.contents site.callee.stop) read) := by
  obtain ⟨parts, around, rfl, rfl⟩ := exists_around opened named
  refine ⟨parts.site document position.line, parts.line, around.callSite?, rfl, rfl,
    around.lacksArguments, ?_⟩
  intro absolute
  exact ⟨_, signature_eq absolute around.callSite?⟩

/-- A call behind umlauts, whose position is beyond the end of its line, is asked about with the
ends of all lines left as they are. -/
theorem signature_cuts_out_arguments_beyond_line :
    let document : Document := ⟨Path.ofText "/p/a.js", "α\r\n  größe (ä, ß\r\nx"⟩
    ∃ site line, document.callSite? ⟨1, 99⟩ = some site ∧ site.contents = "α\r\n  größe\r\nx" ∧
      site.LacksArguments document ⟨1, 99⟩ line := by
  intro document
  have opened : document.enclosingCall? ⟨1, 99⟩ = some ⟨⟨1, 8⟩, 1⟩ := by decide +kernel
  have named : document.previousWord? ⟨1, 8⟩ = some ⟨⟨1, 2⟩, ⟨1, 7⟩⟩ := by decide +kernel
  obtain ⟨site, line, found, -, -, lacks, -⟩ := signature_cuts_out_arguments opened named
  have contents : (document.callSite? ⟨1, 99⟩).map (·.contents) = some "α\r\n  größe\r\nx" := by
    decide +kernel
  rw [found] at contents
  exact ⟨site, line, found, Option.some.inj contents, lacks⟩

/-- What is asked about is a call site. -/
theorem exists_callSite {document : Document} {position : Position} {question : Question}
    {read : CheckerResult → Option SignatureHelp}
    (asked : document.signature position = .ask question read) :
    ∃ site, document.callSite? position = some site ∧
      question = .completions document.path site.contents site.callee.stop ∧
      read = site.help? := by
  by_cases absolute : document.path.absolute
  · cases found : document.callSite? position with
    | none =>
      rw [signature, if_pos absolute, found] at asked
      cases asked
    | some site =>
      rw [signature_eq absolute found] at asked
      obtain ⟨rfl, rfl⟩ := Plan.ask.inj asked
      exact ⟨site, rfl, rfl, rfl⟩
  · rw [signature, if_neg absolute] at asked
    cases asked

/-- A call site has its call and its callee on the line. -/
theorem exists_around_of_callSite {document : Document} {position : Position} {site : CallSite}
    (found : document.callSite? position = some site) :
    ∃ parts : CallLine, parts.Around document position ∧
      site = parts.site document position.line := by
  obtain ⟨call, opened, rest⟩ := Option.bind_eq_some_iff.mp found
  obtain ⟨callee, named, -⟩ := Option.bind_eq_some_iff.mp rest
  obtain ⟨parts, around, rfl, rfl⟩ := exists_around opened named
  exact ⟨parts, around, Option.some.inj (found.symm.trans around.callSite?)⟩

end Document

namespace CallLine

variable {parts : CallLine} {document : Document} {position : Position}

/-- What of an identifier follows the column. -/
def glued (parts : CallLine) : List Char := parts.rest.takeWhile Text.isWordChar

/-- The line asked about is what is left of it. -/
theorem Around.line?_buffer (around : parts.Around document position) :
    ((parts.site document position.line).buffer document.path).line? position.line =
      some parts.cut := by
  have rewritten := around.line?_withLine position.line
  rw [if_pos rfl] at rewritten
  exact rewritten

/-- The identifier at the place asked about begins as the callee does, and ends where the one behind
the column does. -/
theorem Around.wordRange?_buffer (around : parts.Around document position) :
    ((parts.site document position.line).buffer document.path).wordRange?
        (parts.callee position.line).stop =
      some (Document.onLine position.line (parts.front.length,
        (parts.front ++ (parts.name ++ parts.glued)).length)) := by
  have word : Text.wordAt? parts.cut (parts.callee position.line).stop.character.toNat =
      some (parts.front.length, (parts.front ++ (parts.name ++ parts.glued)).length) := by
    have size : (parts.front ++ (parts.name ++ parts.glued)).length =
        (parts.front ++ parts.name).length + parts.glued.length := by
      rw [← List.append_assoc, List.length_append]
    rw [around.columns.2.1, size]
    exact Text.wordAt?_end around.named.nonempty around.named.whole around.named.apart parts.rest
  unfold Document.wordRange?
  have number : (parts.callee position.line).stop.line = position.line := rfl
  rw [number, around.line?_buffer, Option.bind_eq_bind, Option.bind_some, word]
  rfl

/-- Its text is the callee with what of an identifier follows the column. -/
theorem Around.slice?_buffer (around : parts.Around document position)
    (fits : (parts.front ++ (parts.name ++ parts.glued)).length < UInt32.size) :
    ((parts.site document position.line).buffer document.path).slice?
        (Document.onLine position.line (parts.front.length,
          (parts.front ++ (parts.name ++ parts.glued)).length)) =
      some (String.ofList parts.name ++ String.ofList parts.glued) := by
  have parted : parts.cut = parts.front ++ (parts.name ++ parts.glued) ++
      parts.rest.dropWhile Text.isWordChar := by
    simp [cut, glued, List.append_assoc]
  have there := around.line?_buffer
  rw [parted] at there
  rw [Document.slice?_onLine there fits, String.ofList_append]

/-- The place asked about names the callee together with what of an identifier follows the
column. -/
theorem Around.identifier_buffer (around : parts.Around document position)
    (fits : (parts.front ++ (parts.name ++ parts.glued)).length < UInt32.size) :
    (((parts.site document position.line).buffer document.path).wordRange?
      (parts.callee position.line).stop).bind
        ((parts.site document position.line).buffer document.path).slice? =
      some (String.ofList parts.name ++ String.ofList parts.glued) := by
  rw [around.wordRange?_buffer, Option.bind_some, around.slice?_buffer fits]

end CallLine

namespace Document

open CallLine

/-- What of an identifier follows a position on a line. -/
def wordBehind (line : List Char) (position : Position) : List Char :=
  (line.drop position.character.toNat).takeWhile Text.isWordChar

/-- The checker is asked about a buffer that lacks what stands between the callee and the position.
The identifier at the place that it is asked about is the callee that is looked for in the reply,
with what of an identifier follows the position. So it is the callee itself if the
position is in front of no such character, and, where columns fit in 32 bits, only then. -/
theorem checker_is_asked_about_callee {document : Document} {position : Position}
    {question : Question} {read : CheckerResult → Option SignatureHelp}
    (asked : document.signature position = .ask question read) :
    ∃ (site : CallSite) (line : List Char), document.callSite? position = some site ∧
      question = .completions document.path site.contents site.callee.stop ∧
      read = site.help? ∧ document.line? position.line = some line ∧
      site.LacksArguments document position line ∧
      let asked := site.buffer document.path
      let identifier := (asked.wordRange? site.callee.stop).bind asked.slice?
      let stop := site.callee.stop.character.toNat + (wordBehind line position).length
      asked.wordRange? site.callee.stop =
          some ⟨site.callee.start, ⟨position.line, stop.toUInt32⟩⟩ ∧
        (wordBehind line position = [] → identifier = some site.name) ∧
        (stop < UInt32.size →
          identifier = some (site.name ++ String.ofList (wordBehind line position)) ∧
            (identifier = some site.name ↔ wordBehind line position = [])) := by
  obtain ⟨site, found, rfl, rfl⟩ := exists_callSite asked
  obtain ⟨parts, around, rfl⟩ := exists_around_of_callSite found
  refine ⟨parts.site document position.line, parts.line, found, rfl, rfl, around.there,
    around.lacksArguments, ?_⟩
  have behind : wordBehind parts.line position = parts.glued := by
    rw [wordBehind, around.rest_eq, glued]
  have ends : (parts.callee position.line).stop.character.toNat + parts.glued.length =
      (parts.front ++ (parts.name ++ parts.glued)).length := by
    rw [around.columns.2.1]
    simp [Nat.add_assoc]
  intro asked identifier stop
  have size : stop = (parts.front ++ (parts.name ++ parts.glued)).length := by
    rw [← ends, ← behind]
    rfl
  refine ⟨?_, ?_, ?_⟩
  · rw [size]
    exact around.wordRange?_buffer
  · intro none
    have shorter := Nat.lt_of_le_of_lt parts.lengths.1 around.fits
    have spelled := around.identifier_buffer
    rw [behind] at none
    rw [none, List.append_nil] at spelled
    exact (spelled shorter).trans (congrArg some (String.append_empty))
  · intro fits
    rw [size] at fits
    have whole : identifier = some (String.ofList parts.name ++ String.ofList parts.glued) :=
      around.identifier_buffer fits
    rw [behind]
    refine ⟨whole, ?_⟩
    rw [whole]
    show some (String.ofList parts.name ++ _) = some (String.ofList parts.name) ↔ _
    simp

/-- In the middle of an argument, its second half is what the callee is asked about with. -/
theorem checker_is_asked_about_callee_within_argument :
    let document : Document := ⟨Path.ofText "/p/a.js", "größe(ä, bobby)"⟩
    ∃ site : CallSite, document.signature ⟨0, 12⟩ =
        .ask (.completions document.path site.contents site.callee.stop) site.help? ∧
      let asked := site.buffer document.path
      (asked.wordRange? site.callee.stop).bind asked.slice? = some (site.name ++ "by") ∧
        (asked.wordRange? site.callee.stop).bind asked.slice? ≠ some site.name := by
  intro document
  have found : document.callSite? ⟨0, 12⟩ =
      some ⟨⟨⟨0, 5⟩, 1⟩, ⟨⟨0, 0⟩, ⟨0, 5⟩⟩, "größe", "größeby)"⟩ := by decide +kernel
  have absolute : document.path.absolute := by decide +kernel
  have asked := signature_eq absolute found
  obtain ⟨site, line, called, -, -, there, -, -, -, whole⟩ := checker_is_asked_about_callee asked
  obtain rfl := Option.some.inj (found.symm.trans called)
  have shown : document.line? 0 = some "größe(ä, bobby)".toList := by decide +kernel
  obtain rfl := Option.some.inj (shown.symm.trans there)
  have behind : wordBehind "größe(ä, bobby)".toList ⟨0, 12⟩ = ['b', 'y'] := by decide +kernel
  rw [behind] at whole
  obtain ⟨spelled, only⟩ := whole (by decide)
  exact ⟨_, asked, spelled, fun same => by cases only.mp same⟩

/-- In front of an identifier the checker is asked about a longer one than the callee. -/
theorem callee_runs_into_identifier :
    let document : Document := ⟨Path.ofText "/p/a.js", "greet(bob"⟩
    ∃ site : CallSite, document.signature ⟨0, 6⟩ =
        .ask (.completions document.path site.contents site.callee.stop) site.help? ∧
      site.name = "greet" ∧
      let asked := site.buffer document.path
      (asked.wordRange? site.callee.stop).bind asked.slice? = some "greetbob" := by
  intro document
  have found : document.callSite? ⟨0, 6⟩ =
      some ⟨⟨⟨0, 5⟩, 0⟩, ⟨⟨0, 0⟩, ⟨0, 5⟩⟩, "greet", "greetbob"⟩ := by decide +kernel
  have absolute : document.path.absolute := by decide +kernel
  exact ⟨_, signature_eq absolute found, rfl, by decide +kernel⟩

end Document

end FlowService
