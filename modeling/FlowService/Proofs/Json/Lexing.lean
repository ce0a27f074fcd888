import FlowService.Json.Printer
import FlowService.Json.Written

/-!
The text of a string, of a whole number and of a line start is cut into the tokens it stands for.
-/

namespace FlowService.Json

/-- What stands behind a printed value: the end of the text, a comma or the end of a line. -/
def Delimited (rest : List Char) : Prop := ∀ char ∈ rest.head?, char = ',' ∨ char = '\n'

theorem Delimited.cases {rest : List Char} (delimited : Delimited rest) :
    rest = [] ∨ (∃ later, rest = ',' :: later) ∨ ∃ later, rest = '\n' :: later := by
  cases rest with
  | nil => exact Or.inl rfl
  | cons char later =>
    rcases delimited char rfl with rfl | rfl
    · exact Or.inr (Or.inl ⟨later, rfl⟩)
    · exact Or.inr (Or.inr ⟨later, rfl⟩)

namespace Token

variable {char : Char} {rest later : List Char} {done : List Token} {token : Token}

/-- A space between tokens is passed over. -/
theorem readAll?_space (space : isSpace char) :
    readAll? done (char :: rest) = readAll? done rest := by
  rw [readAll?, if_pos space]

/-- A token at the front of the text is taken off. -/
theorem readAll?_token (spoken : isSpace char = false)
    (taken : read? (char :: rest) = some (token, later)) :
    readAll? done (char :: rest) = readAll? (token :: done) later := by
  rw [readAll?, if_neg (by simp [spoken])]
  split
  · rename_i missing
    rw [taken] at missing
    cases missing
  · rename_i found foundLater same
    rw [taken] at same
    cases same
    rfl

/-- The start of a line is passed over. -/
theorem readAll?_lineStart (depth : Nat) :
    readAll? done ((lineStart depth).toList ++ rest) = readAll? done rest := by
  have spaces : ∀ count, readAll? done (List.replicate count ' ' ++ rest) = readAll? done rest := by
    intro count
    induction count with
    | zero => rfl
    | succ count ih => rw [List.replicate_succ, List.cons_append, readAll?_space rfl, ih]
  have line : (lineStart depth).toList ++ rest =
      '\n' :: (List.replicate (2 * depth) ' ' ++ rest) := by
    simp [lineStart]
  rw [line, readAll?_space rfl, spaces]

end Token

/-- The start of a line ends what stands in front of it. -/
theorem delimited_lineStart (depth : Nat) (rest : List Char) :
    Delimited ((lineStart depth).toList ++ rest) := by
  simp [Delimited, lineStart]

/-! ## Strings -/

/-- The piece of a string as which the text of a character is read. -/
def pieceOf (char : Char) : Piece :=
  -- Of the control characters only those without a letter of their own are written as units.
  if char < ' ' ∧ char ∉ ['\x08', '\t', '\n', '\x0c', '\r'] then .unit char.toNat else .char char

/-- Two digits spell the number of a control character. -/
theorem unit?_digits : ∀ value < 32,
    Token.unit? '0' '0' (Nat.digitChar (value / 16)) (Nat.digitChar (value % 16)) = some value := by
  decide

/-- The text of a character is read as its piece. -/
theorem readString_escapeChar (pieces : List Piece) (char : Char) (rest : List Char) :
    Token.readString pieces ((escapeChar char).toList ++ rest) =
      Token.readString (pieceOf char :: pieces) rest := by
  unfold escapeChar
  -- The characters with a letter of their own are told apart first.
  split
  · subst_vars; rfl
  split
  · subst_vars; rfl
  split
  · subst_vars; rfl
  split
  · subst_vars; rfl
  split
  · subst_vars; rfl
  split
  · subst_vars; rfl
  split
  · subst_vars; rfl
  split
  · rename_i quote slash back tab line feed carriage control
    have small : char.toNat < 32 := control
    have piece : pieceOf char = .unit char.toNat := by
      simp [pieceOf, control, back, tab, line, feed, carriage]
    have digits := unit?_digits char.toNat small
    have written : ("\\u00" ++ String.ofList [Nat.digitChar (char.toNat / 16),
        Nat.digitChar (char.toNat % 16)]).toList ++ rest = '\\' :: 'u' :: '0' :: '0' ::
          Nat.digitChar (char.toNat / 16) :: Nat.digitChar (char.toNat % 16) :: rest := by
      simp
    rw [written, Token.readString, digits, piece]
  · rename_i quote slash back tab line feed carriage plain
    have piece : pieceOf char = .char char := by simp [pieceOf, plain]
    rw [piece]
    simp [Token.readString, slash, plain]

/-- The text of a string is read as its pieces, up to the closing quote. -/
theorem readString_chars (pieces : List Piece) (chars : List Char) (rest : List Char) :
    Token.readString pieces ((String.join (chars.map escapeChar)).toList ++ '"' :: rest) =
      some (pieces.reverse ++ chars.map pieceOf, rest) := by
  induction chars generalizing pieces with
  | nil => simp [Token.readString]
  | cons char chars ih =>
    rw [List.map_cons, String.join_cons, String.toList_append, List.append_assoc,
      readString_escapeChar, ih]
    simp

/-- A quoted text is read as a string. -/
theorem readAll?_quoted (done : List Token) (text : String) (rest : List Char) :
    Token.readAll? done ((quoted text).toList ++ rest) =
      Token.readAll? (.string (text.toList.map pieceOf) :: done) rest := by
  have written : (quoted text).toList ++ rest =
      '"' :: ((String.join (text.toList.map escapeChar)).toList ++ '"' :: rest) := by
    simp [quoted]
  rw [written]
  refine Token.readAll?_token rfl ?_
  rw [Token.read?, readString_chars]
  rfl

/-- A quoted key with its colon is read as a string and a colon. -/
theorem readAll?_key (done : List Token) (key : String) (rest : List Char) :
    Token.readAll? done ((quoted key).toList ++ ':' :: ' ' :: rest) =
      Token.readAll? (.colon :: .string (key.toList.map pieceOf) :: done) rest := by
  rw [readAll?_quoted, Token.readAll?_token rfl rfl, Token.readAll?_space rfl]

/-- A piece stands for its character, since it is no half of a pair. -/
theorem characters?_pieceOf (done : List Char) (char : Char) (pieces : List Piece) :
    Written.characters? done (pieceOf char :: pieces) =
      Written.characters? (char :: done) pieces := by
  unfold pieceOf
  split
  · rename_i control
    have small : char.toNat < 32 := control.1
    have single : Written.isHigh char.toNat = false ∧ Written.isLow char.toNat = false := by
      simp [Written.isHigh, Written.isLow]
      omega
    -- Only the first half of a pair looks at the piece behind it.
    cases pieces with
    | nil => simp [Written.characters?, single]
    | cons piece pieces => cases piece <;> simp [Written.characters?, single]
  · rfl

/-- The pieces of a string stand for its characters. -/
theorem characters?_pieces (done chars : List Char) :
    Written.characters? done (chars.map pieceOf) = some (done.reverse ++ chars) := by
  induction chars generalizing done with
  | nil => simp [Written.characters?]
  | cons char chars ih =>
    rw [List.map_cons, characters?_pieceOf, ih]
    simp

/-- The pieces of a string stand for it. -/
theorem text?_pieces (text : String) : Written.text? (text.toList.map pieceOf) = some text := by
  simp [Written.text?, characters?_pieces]

/-! ## Numbers -/

/-- The digits of a number. -/
def digitsOf (value : Nat) : List Nat :=
  (Nat.toDigits 10 value).map fun digit => digit.toNat - '0'.toNat

/-- A whole number as it is written. -/
def numeralOf (value : Int) : Numeral := ⟨value < 0, digitsOf value.natAbs, none, none⟩

/-- The digits of a number spell it. -/
theorem digitsValue_digitsOf (value : Nat) : Numeral.digitsValue (digitsOf value) = value := by
  have spelled : Nat.ofDigitChars 10 (Nat.toDigits 10 value) 0 = value :=
    Nat.ofDigitChars_toDigits (by decide) (by decide)
  rw [Nat.ofDigitChars_eq_foldl] at spelled
  rw [Numeral.digitsValue, digitsOf, List.foldl_map]
  simpa only [Nat.mul_comm] using spelled

/-- A number other than zero does not begin with a zero. -/
theorem head?_digitsOf {value : Nat} (positive : 0 < value) :
    (digitsOf value).head? ≠ some 0 := by
  -- The first digit is that of the number without its last digit.
  induction value using Nat.strongRecOn with
  | ind value ih =>
    unfold digitsOf
    by_cases small : value < 10
    · rw [Nat.toDigits_of_lt_base small]
      simp only [List.map_singleton, List.head?_cons, ne_eq, Option.some.injEq]
      rw [Nat.toNat_digitChar_of_lt_ten small]
      simp
      omega
    · have large : 10 ≤ value := Nat.le_of_not_lt small
      have shorter := ih (value / 10) (by omega) (by omega)
      have some : (digitsOf (value / 10)).head?.isSome := by
        simp [digitsOf, Nat.toDigits_ne_nil]
      rw [Nat.toDigits_of_base_le (by decide) large, List.map_append, List.head?_append]
      rw [← digitsOf, Option.or_of_isSome some]
      exact shorter

/-- A numeral gives its number back while it fits in 64 bits. -/
theorem value?_numeralOf {value : Int} (low : -0x8000000000000000 ≤ value)
    (high : value < 0x10000000000000000) :
    (numeralOf value).value? = some (.integer value) := by
  have fits : (numeralOf value).isInteger := by
    by_cases negative : value < 0
    · simp [Numeral.isInteger, numeralOf, digitsValue_digitsOf, negative, UInt64.size]
      omega
    · simp [Numeral.isInteger, numeralOf, digitsValue_digitsOf, negative, UInt64.size]
      omega
  -- The digits are those of the magnitude, and the sign is put in front of them.
  have signed : (if value < 0 then -(value.natAbs : Int) else value.natAbs) = value := by
    split <;> omega
  rw [Numeral.value?, if_pos fits]
  simp only [numeralOf, digitsValue_digitsOf, decide_eq_true_eq, signed]

/-- The digits of a number are read up to where they end. -/
theorem readSomeDigits?_toDigits (value : Nat) {rest : List Char} (delimited : Delimited rest) :
    Token.readSomeDigits? (Nat.toDigits 10 value ++ rest) = some (digitsOf value, rest) := by
  have digits : ∀ digit ∈ Nat.toDigits 10 value, digit.isDigit = true := fun digit member =>
    Nat.isDigit_of_mem_toDigits (by decide) (by decide) member
  have stop : rest.takeWhile Char.isDigit = [] := by
    rcases delimited.cases with rfl | ⟨_, rfl⟩ | ⟨_, rfl⟩ <;> rfl
  have taken : (Nat.toDigits 10 value ++ rest).takeWhile Char.isDigit = Nat.toDigits 10 value := by
    rw [List.takeWhile_append_of_pos digits, stop, List.append_nil]
  unfold Token.readSomeDigits?
  simp only [taken]
  rw [if_neg (by simp [Nat.toDigits_ne_nil]), List.drop_left]
  rfl

/-- The digits of a number behind its sign are read as its numeral. -/
theorem readNumeral?_toDigits (negative : Bool) (value : Nat) {rest : List Char}
    (delimited : Delimited rest) :
    Token.readNumeral? negative (Nat.toDigits 10 value ++ rest) =
      some (⟨negative, digitsOf value, none, none⟩, rest) := by
  have single : ¬((digitsOf value).head? = some 0 ∧ 1 < (digitsOf value).length) := by
    rintro ⟨zero, long⟩
    obtain rfl : value = 0 := Nat.eq_zero_of_not_pos fun positive => head?_digitsOf positive zero
    exact absurd long (by decide)
  -- Neither a fraction nor an exponent begins as what stands behind a value does.
  have noFraction : Token.readFraction? rest = some (none, rest) := by
    rcases delimited.cases with rfl | ⟨_, rfl⟩ | ⟨_, rfl⟩ <;> rfl
  have noExponent : Token.readExponent? rest = some (none, rest) := by
    rcases delimited.cases with rfl | ⟨_, rfl⟩ | ⟨_, rfl⟩ <;> rfl
  simp [Token.readNumeral?, readSomeDigits?_toDigits value delimited, single, noFraction,
    noExponent]

/-- A text that begins with a digit is read as a numeral. -/
theorem read?_digit {char : Char} (digit : char.isDigit) (rest : List Char) :
    Token.read? (char :: rest) =
      (Token.readNumeral? false (char :: rest)).map fun read => (.number read.1, read.2) := by
  unfold Token.read?
  split
  case h_12 => rfl
  -- No other kind of token begins with a digit.
  all_goals
    rename_i same
    cases same
    exact absurd digit (by decide)

/-- A digit does not stand between tokens. -/
theorem isSpace_of_isDigit {char : Char} (digit : char.isDigit) : Token.isSpace char = false := by
  rw [Bool.eq_false_iff]
  intro space
  simp only [Token.isSpace, Bool.or_eq_true, beq_iff_eq] at space
  rcases space with ((rfl | rfl) | rfl) | rfl <;> exact absurd digit (by decide)

/-- The text of a whole number is read as its numeral. -/
theorem readAll?_integer (done : List Token) (value : Int) {rest : List Char}
    (delimited : Delimited rest) :
    Token.readAll? done ((toString value).toList ++ rest) =
      Token.readAll? (.number (numeralOf value) :: done) rest := by
  have written : (toString value).toList =
      if 0 ≤ value then Nat.toDigits 10 value.toNat else '-' :: Nat.toDigits 10 (-value).toNat := by
    rw [Int.toString_eq_repr, Int.repr_eq_if]
    split <;> simp
  rw [written]
  split
  · rename_i positive
    have numeral : numeralOf value = ⟨false, digitsOf value.toNat, none, none⟩ := by
      have same : value.natAbs = value.toNat := by omega
      simp [numeralOf, same, Int.not_lt.mpr positive]
    have read := readNumeral?_toDigits false value.toNat delimited
    cases digits : Nat.toDigits 10 value.toNat with
    | nil => exact absurd digits Nat.toDigits_ne_nil
    | cons first later =>
      have digit : first.isDigit :=
        Nat.isDigit_of_mem_toDigits (by decide) (by decide) (digits ▸ List.mem_cons_self)
      rw [digits, List.cons_append] at read
      rw [List.cons_append]
      refine Token.readAll?_token (isSpace_of_isDigit digit) ?_
      rw [read?_digit digit, read, numeral]
      rfl
  · rename_i negative
    have numeral : numeralOf value = ⟨true, digitsOf (-value).toNat, none, none⟩ := by
      have same : value.natAbs = (-value).toNat := by omega
      simp [numeralOf, same, Int.not_le.mp negative]
    rw [List.cons_append]
    refine Token.readAll?_token rfl ?_
    rw [Token.read?, readNumeral?_toDigits true _ delimited, numeral]
    rfl

end FlowService.Json
