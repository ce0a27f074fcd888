import FlowService.Proofs.Json.Lexing
import Mathlib.Data.List.Forall2

/-! A printed value is read back as it was, as long as it keeps to the bounds of the reader. -/

namespace FlowService.Json

/-- A value without doubles that nests at most so deep, whose numbers fit in 64 bits, and whose
objects have no key twice. -/
inductive Printable : Nat → Json → Prop
  | null (depth : Nat) : Printable depth .null
  | bool (depth : Nat) (value : Bool) : Printable depth (.bool value)
  | integer (depth : Nat) {value : Int} (low : -0x8000000000000000 ≤ value)
    (high : value < 0x10000000000000000) : Printable depth (.integer value)
  | string (depth : Nat) (value : String) : Printable depth (.string value)
  | array {depth : Nat} {items : List Json} (each : ∀ item ∈ items, Printable depth item) :
    Printable (depth + 1) (.array items)
  | object {depth : Nat} {members : List (String × Json)} (distinct : (members.map (·.1)).Nodup)
    (each : ∀ member ∈ members, Printable depth member.2) : Printable (depth + 1) (.object members)

/-- A record is printable when the value of each of its fields is. -/
theorem Printable.record {depth : Nat} {members : List (String × Json)}
    (distinct : (members.map (·.1)).Nodup)
    (each : members.Forall fun member => Printable depth member.2) :
    Printable (depth + 1) (.object members) :=
  .object distinct (List.forall_iff_forall_mem.mp each)

/-- Some tokens take a reader from one state to another. -/
def Leads (reading : Reading) (tokens : List Token) (next : Reading) : Prop :=
  tokens.foldlM Reading.step reading = some next

namespace Leads

variable {reading middle next : Reading} {token : Token} {tokens later : List Token}

theorem nil : Leads reading [] reading := rfl

theorem cons (first : reading.step token = some middle) (rest : Leads middle tokens next) :
    Leads reading (token :: tokens) next := by
  unfold Leads
  rw [List.foldlM_cons, first]
  exact rest

theorem append (first : Leads reading tokens middle) (rest : Leads middle later next) :
    Leads reading (tokens ++ later) next := by
  unfold Leads at first
  unfold Leads
  rw [List.foldlM_append, first]
  exact rest

end Leads

/-- What the text of a value is cut into, and what is read from that. -/
structure Reads (depth : Nat) (value : Json) (tokens : List Token) (written : Written) : Prop where
  lexed : ∀ indent done rest, Delimited rest →
    Token.readAll? done ((prettyAt indent value).toList ++ rest) =
      Token.readAll? (tokens.reverse ++ done) rest
  parsed : ∀ outer, Leads (.beforeValue outer) tokens (.complete outer written)
  -- The first item of an array is told from its end.
  begins : tokens.head? ≠ some .closeArray
  meant : written.meaning? depth = some value

/-- The text of a value is read back. -/
def Readable (depth : Nat) (value : Json) : Prop :=
  ∃ tokens written, Reads depth value tokens written

/-- What the later items of an array are cut into, and what is read from that. -/
structure ReadsItems (depth : Nat) (items : List Json) (tokens : List Token)
    (written : List Written) : Prop where
  lexed : ∀ indent done rest, Delimited rest →
    Token.readAll? done ((prettyItems indent items).toList ++ rest) =
      Token.readAll? (tokens.reverse ++ done) rest
  parsed : ∀ outer before last,
    Leads (.complete (.array before :: outer) last) (tokens ++ [.closeArray])
      (.complete outer (.array ((last :: before).reverse ++ written)))
  meant : Written.itemsMeaning? depth written = some items

/-- A member is written with its key, which is a text, and with its value. -/
structure Spells (depth : Nat) (written : List Piece × Written) (member : String × Json) :
    Prop where
  key : Written.text? written.1 = some member.1
  value : written.2.meaning? depth = some member.2

/-- Members that are written mean what they were when no key comes twice. -/
theorem membersMeaning?_of_spelled {depth : Nat} {written : List (List Piece × Written)}
    {members : List (String × Json)} (spelled : List.Forall₂ (Spells depth) written members) :
    ∀ done : List (String × Json), ((done ++ members).map (·.1)).Nodup →
      Written.membersMeaning? depth done written = some (done ++ members) := by
  induction spelled with
  | nil => exact fun done _ => by simp [Written.membersMeaning?]
  | @cons first member _ later spells _ ih =>
    intro done distinct
    obtain ⟨pieces, written⟩ := first
    obtain ⟨key, value⟩ := member
    obtain ⟨named, meant⟩ := spells
    -- The key is not among those that came before, so its value is added behind them.
    have fresh : done.any (·.1 == key) = false := by
      rw [List.map_append, List.nodup_append] at distinct
      rw [List.any_eq_false]
      intro entry member same
      exact distinct.2.2 entry.1 (List.mem_map_of_mem member) key List.mem_cons_self
        (beq_iff_eq.mp same)
    have added : setMember done key value = done ++ [(key, value)] := by
      simp [setMember, fresh]
    have onwards := ih (done ++ [(key, value)]) (by simpa using distinct)
    dsimp only at named meant
    simp [Written.membersMeaning?, named, meant, added, onwards]

/-- What the later members of an object are cut into, and what is read from that. -/
structure ReadsMembers (depth : Nat) (members : List (String × Json)) (tokens : List Token)
    (written : List (List Piece × Written)) : Prop where
  lexed : ∀ indent done rest, Delimited rest →
    Token.readAll? done ((prettyMembers indent members).toList ++ rest) =
      Token.readAll? (tokens.reverse ++ done) rest
  parsed : ∀ outer before key last,
    Leads (.complete (.object before key :: outer) last) (tokens ++ [.closeObject])
      (.complete outer (.object (((key, last) :: before).reverse ++ written)))
  spelled : List.Forall₂ (Spells depth) written members

variable {depth : Nat} {value : Json} {tokens : List Token} {written : Written}

/-- What comes behind an item is the next one or what comes behind all of them. -/
theorem delimited_items (indent : Nat) (items : List Json) {rest : List Char}
    (delimited : Delimited rest) : Delimited ((prettyItems indent items).toList ++ rest) := by
  cases items with
  | nil => simpa [prettyItems] using delimited
  | cons item later => simp [prettyItems, Delimited]

/-- What comes behind a member is the next one or what comes behind all of them. -/
theorem delimited_members (indent : Nat) (members : List (String × Json)) {rest : List Char}
    (delimited : Delimited rest) : Delimited ((prettyMembers indent members).toList ++ rest) := by
  cases members with
  | nil => simpa [prettyMembers] using delimited
  | cons member later => simp [prettyMembers, Delimited]

/-- The first item of an array is read like any value. -/
theorem Reads.parsedFirst (reads : Reads depth value tokens written) (outer : List Frame) :
    Leads (.beforeItem outer) tokens (.complete (.array [] :: outer) written) := by
  have parsed := reads.parsed (.array [] :: outer)
  cases tokens with
  | nil => cases parsed
  | cons token later =>
    -- No token but the end of the array is read in another way.
    have same : Reading.step (.beforeItem outer) token =
        Reading.step (.beforeValue (.array [] :: outer)) token := by
      cases token with
      | closeArray => exact absurd rfl reads.begins
      | _ => rfl
    unfold Leads at parsed ⊢
    rw [List.foldlM_cons, same]
    exact parsed

namespace Readable

/-- A value of one token is read back when the token is. -/
theorem ofToken {token : Token} {text : String} (printed : ∀ indent, prettyAt indent value = text)
    (lexed : ∀ done rest, Delimited rest →
      Token.readAll? done (text.toList ++ rest) = Token.readAll? (token :: done) rest)
    (parsed : ∀ outer, Reading.beginValue outer token = some (.complete outer written))
    (meant : written.meaning? depth = some value) : Readable depth value := by
  refine ⟨[token], written, fun indent done rest delimited => ?_, fun outer => ?_, ?_, meant⟩
  · rw [printed]
    exact lexed done rest delimited
  · exact .cons (parsed outer) .nil
  · rintro same
    obtain rfl := Option.some.inj same
    cases parsed []

theorem null : Readable depth .null :=
  ofToken (fun _ => rfl) (fun _ _ _ => Token.readAll?_token rfl rfl) (fun _ => rfl) rfl

theorem bool (value : Bool) : Readable depth (.bool value) := by
  cases value with
  | false | true =>
    exact ofToken (fun _ => rfl) (fun _ _ _ => Token.readAll?_token rfl rfl) (fun _ => rfl) rfl

theorem integer {value : Int} (low : -0x8000000000000000 ≤ value)
    (high : value < 0x10000000000000000) :
    Readable depth (.integer value) :=
  ofToken (fun _ => rfl) (fun done _ delimited => readAll?_integer done value delimited)
    (fun _ => rfl) (value?_numeralOf low high)

theorem string (value : String) : Readable depth (.string value) :=
  ofToken (fun _ => rfl) (fun done rest _ => readAll?_quoted done value rest) (fun _ => rfl)
    (congrArg (Option.map Json.string) (text?_pieces value))

/-- Items are read back one after the other. -/
theorem items {items : List Json} (each : ∀ item ∈ items, Readable depth item) :
    ∃ tokens written, ReadsItems depth items tokens written := by
  induction items with
  | nil =>
    refine ⟨[], [], fun indent done rest _ => rfl, fun outer before last => ?_, rfl⟩
    rw [List.append_nil]
    exact .cons rfl .nil
  | cons item later ih =>
    obtain ⟨itemTokens, itemWritten, itemReads⟩ := each item List.mem_cons_self
    obtain ⟨laterTokens, laterWritten, laterReads⟩ :=
      ih fun other member => each other (List.mem_cons_of_mem _ member)
    refine ⟨.comma :: itemTokens ++ laterTokens, itemWritten :: laterWritten,
      fun indent done rest delimited => ?_, fun outer before last => ?_, ?_⟩
    · have text : (prettyItems indent (item :: later)).toList ++ rest =
          ',' :: ((lineStart indent).toList ++ ((prettyAt indent item).toList ++
            ((prettyItems indent later).toList ++ rest))) := by
        simp [prettyItems]
      rw [text, Token.readAll?_token rfl rfl, Token.readAll?_lineStart,
        itemReads.lexed _ _ _ (delimited_items indent later delimited),
        laterReads.lexed _ _ _ delimited]
      simp
    · have onwards := laterReads.parsed outer (last :: before) itemWritten
      rw [List.reverse_cons, List.append_assoc] at onwards
      rw [List.append_assoc, List.cons_append]
      exact .cons rfl ((itemReads.parsed _).append onwards)
    · simp [Written.itemsMeaning?, itemReads.meant, laterReads.meant]

/-- An array is read back when its items are. -/
theorem array {items : List Json} (each : ∀ item ∈ items, Readable depth item) :
    Readable (depth + 1) (.array items) := by
  cases items with
  | nil =>
    refine ⟨[.openArray, .closeArray], .array [], fun indent done rest _ => ?_,
      fun outer => .cons rfl (.cons rfl .nil), by simp, rfl⟩
    have text : (prettyAt indent (.array [])).toList ++ rest = '[' :: ']' :: rest := by
      simp [prettyAt]
    rw [text, Token.readAll?_token rfl rfl, Token.readAll?_token rfl rfl]
    rfl
  | cons first later =>
    obtain ⟨firstTokens, firstWritten, firstReads⟩ := each first List.mem_cons_self
    obtain ⟨laterTokens, laterWritten, laterReads⟩ :=
      Readable.items fun other member => each other (List.mem_cons_of_mem _ member)
    refine ⟨.openArray :: (firstTokens ++ (laterTokens ++ [.closeArray])),
      .array (firstWritten :: laterWritten), fun indent done rest delimited => ?_,
      fun outer => ?_, by simp, ?_⟩
    · have text : (prettyAt indent (.array (first :: later))).toList ++ rest =
          '[' :: ((lineStart (indent + 1)).toList ++ ((prettyAt (indent + 1) first).toList ++
            ((prettyItems (indent + 1) later).toList ++
              ((lineStart indent).toList ++ ']' :: rest)))) := by
        simp [prettyAt]
      have closing := delimited_lineStart indent (']' :: rest)
      rw [text, Token.readAll?_token rfl rfl, Token.readAll?_lineStart,
        firstReads.lexed _ _ _ (delimited_items _ later closing), laterReads.lexed _ _ _ closing,
        Token.readAll?_lineStart, Token.readAll?_token rfl rfl]
      simp
    · exact .cons rfl ((firstReads.parsedFirst outer).append (laterReads.parsed outer [] _))
    · simp [Written.meaning?, Written.itemsMeaning?, firstReads.meant, laterReads.meant]

/-- Members are read back one after the other. -/
theorem members {members : List (String × Json)}
    (each : ∀ member ∈ members, Readable depth member.2) :
    ∃ tokens written, ReadsMembers depth members tokens written := by
  induction members with
  | nil =>
    refine ⟨[], [], fun indent done rest _ => rfl, fun outer before key last => ?_, .nil⟩
    rw [List.append_nil]
    exact .cons rfl .nil
  | cons member later ih =>
    obtain ⟨key, value⟩ := member
    obtain ⟨valueTokens, valueWritten, valueReads⟩ := each (key, value) List.mem_cons_self
    obtain ⟨laterTokens, laterWritten, laterReads⟩ :=
      ih fun other member => each other (List.mem_cons_of_mem _ member)
    let pieces := key.toList.map pieceOf
    refine ⟨.comma :: .string pieces :: .colon :: (valueTokens ++ laterTokens),
      (pieces, valueWritten) :: laterWritten, fun indent done rest delimited => ?_,
      fun outer before earlier last => ?_, .cons ⟨text?_pieces key, valueReads.meant⟩
        laterReads.spelled⟩
    · have text : (prettyMembers indent ((key, value) :: later)).toList ++ rest =
          ',' :: ((lineStart indent).toList ++ ((quoted key).toList ++ ':' :: ' ' ::
            ((prettyAt indent value).toList ++
              ((prettyMembers indent later).toList ++ rest)))) := by
        simp [prettyMembers]
      rw [text, Token.readAll?_token rfl rfl, Token.readAll?_lineStart, readAll?_key,
        valueReads.lexed _ _ _ (delimited_members indent later delimited),
        laterReads.lexed _ _ _ delimited]
      simp [pieces]
    · have onwards := laterReads.parsed outer ((earlier, last) :: before) pieces valueWritten
      rw [List.reverse_cons, List.append_assoc] at onwards
      simp only [List.cons_append, List.append_assoc]
      exact .cons rfl (.cons rfl (.cons rfl ((valueReads.parsed _).append onwards)))

/-- An object whose members are read back is written as an object, member by member, when no key
comes twice. -/
theorem objectReads {members : List (String × Json)} (distinct : (members.map (·.1)).Nodup)
    (each : ∀ member ∈ members, Readable depth member.2) :
    ∃ tokens written, Reads (depth + 1) (.object members) tokens (.object written) ∧
      List.Forall₂ (Spells depth) written members := by
  cases members with
  | nil =>
    refine ⟨[.openObject, .closeObject], [], ⟨fun indent done rest _ => ?_,
      fun outer => .cons rfl (.cons rfl .nil), by simp, rfl⟩, .nil⟩
    have text : (prettyAt indent (.object [])).toList ++ rest =
        '\x7b' :: '\x7d' :: rest := by
      simp [prettyAt]
    rw [text, Token.readAll?_token rfl rfl, Token.readAll?_token rfl rfl]
    rfl
  | cons first later =>
    obtain ⟨key, value⟩ := first
    obtain ⟨valueTokens, valueWritten, valueReads⟩ := each (key, value) List.mem_cons_self
    obtain ⟨laterTokens, laterWritten, laterReads⟩ :=
      Readable.members fun other member => each other (List.mem_cons_of_mem _ member)
    let pieces := key.toList.map pieceOf
    have spelled : List.Forall₂ (Spells depth) ((pieces, valueWritten) :: laterWritten)
        ((key, value) :: later) :=
      .cons ⟨text?_pieces key, valueReads.meant⟩ laterReads.spelled
    refine ⟨.openObject :: .string pieces :: .colon ::
        (valueTokens ++ (laterTokens ++ [.closeObject])),
      (pieces, valueWritten) :: laterWritten, ⟨fun indent done rest delimited => ?_,
      fun outer => ?_, by simp, ?_⟩, spelled⟩
    · have text : (prettyAt indent (.object ((key, value) :: later))).toList ++ rest =
          '\x7b' :: ((lineStart (indent + 1)).toList ++ ((quoted key).toList ++ ':' :: ' ' ::
            ((prettyAt (indent + 1) value).toList ++
              ((prettyMembers (indent + 1) later).toList ++
                ((lineStart indent).toList ++ '\x7d' :: rest))))) := by
        simp [prettyAt]
      have closing := delimited_lineStart indent ('\x7d' :: rest)
      rw [text, Token.readAll?_token rfl rfl, Token.readAll?_lineStart, readAll?_key,
        valueReads.lexed _ _ _ (delimited_members _ later closing),
        laterReads.lexed _ _ _ closing, Token.readAll?_lineStart, Token.readAll?_token rfl rfl]
      simp [pieces]
    · exact .cons rfl (.cons rfl (.cons rfl
        ((valueReads.parsed _).append (laterReads.parsed outer [] pieces valueWritten))))
    · simp [Written.meaning?, membersMeaning?_of_spelled spelled [] distinct]

/-- An object is read back when its members are and no key comes twice. -/
theorem object {members : List (String × Json)} (distinct : (members.map (·.1)).Nodup)
    (each : ∀ member ∈ members, Readable depth member.2) :
    Readable (depth + 1) (.object members) := by
  obtain ⟨tokens, written, reads, -⟩ := objectReads distinct each
  exact ⟨tokens, .object written, reads⟩

end Readable

/-- Whatever keeps to the bounds of the reader is read back. -/
theorem Printable.readable (printable : Printable depth value) : Readable depth value := by
  induction printable with
  | null => exact .null
  | bool depth value => exact .bool value
  | integer depth low high => exact .integer low high
  | string depth value => exact .string value
  | array each ih => exact .array ih
  | object distinct each ih => exact .object distinct ih

/-- The text of a value is read as it is written, with nothing but blanks behind it. -/
theorem Reads.ofText? (reads : Reads depth value tokens written) {blanks : String}
    (delimited : Delimited blanks.toList)
    (silent : ∀ done, Token.readAll? done blanks.toList = some done.reverse) :
    Written.ofText? (value.pretty ++ blanks) = some written := by
  have lexed : Token.ofText? (value.pretty ++ blanks) = some tokens := by
    rw [Token.ofText?, String.toList_append, pretty, reads.lexed 0 [] _ delimited, silent]
    simp
  have parsed : tokens.foldlM Reading.step (.beforeValue []) = some (.complete [] written) :=
    reads.parsed []
  simp [Written.ofText?, lexed, parsed, Reading.result?]

/-- A line with the text of a value holds that value and nothing else. -/
theorem parse?_pretty (printable : Printable Written.depthLimit value) :
    parse? (value.pretty ++ "\n") = some value := by
  obtain ⟨tokens, written, reads⟩ := printable.readable
  have read : Written.ofText? (value.pretty ++ "\n") = some written :=
    reads.ofText? (by simp [Delimited]) fun done => by
      rw [show "\n".toList = ['\n'] from rfl, Token.readAll?_space rfl]
      simp [Token.readAll?]
  simp [parse?, read, reads.meant]

end FlowService.Json
