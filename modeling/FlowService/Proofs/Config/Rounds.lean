import FlowService.Proofs.Config.Expansion

/-!
The pass over a text goes in rounds, each of which looks for the two marks of a reference and cuts
the text at offsets in bytes. No offset is ever within a character, each round leaves less to be
done, and what the rounds write is what the text becomes.
-/

namespace FlowService.Expansion

/-- The offset in bytes of the first place where a mark stands. -/
def find? (mark : List Char) : List Char → Option Nat
  | [] => if mark = [] then some 0 else none
  | char :: rest =>
    if mark <+: char :: rest then some 0 else (find? mark rest).map (char.utf8Size + ·)

/-- What is behind an offset; none when it is not between two characters. -/
def behind? (text : List Char) (offset : Nat) : Option (List Char) :=
  (Text.charactersIn? offset text).map text.drop

/-- What is between two offsets; none when one of them is not between two characters or they are the
wrong way round. -/
def between? (text : List Char) (start stop : Nat) : Option (List Char) := do
  let first ← Text.charactersIn? start text
  let last ← Text.charactersIn? stop text
  if first ≤ last then some ((text.take last).drop first) else none

/-- What a round comes to: the rest of the text is kept, or something is written for a part of it and
another round follows. -/
inductive Round
  | last
  | next (written rest : List Char)
  deriving DecidableEq, Repr

/-- One round over the rest of a text; none when the text is cut within a character. -/
def round? (environment : Environment) (text : List Char) : Option Round :=
  match find? ['$', '\x7b'] text with
  | none => some .last
  | some start => do
    let inner ← behind? text (start + 2)
    match find? ['\x7d'] inner with
    | none => return .last
    | some length =>
      let before ← between? text 0 start
      let name ← between? text (start + 2) (start + 2 + length)
      let rest ← behind? text (start + 2 + length + 1)
      return .next (before ++ valueOf environment name) rest

/-- The first byte of a text is part of a character of it. -/
theorem pos_of_charactersIn? {text : List Char} {offset count : Nat}
    (counted : Text.charactersIn? (offset + 1) text = some count) :
    0 < count ∧ 0 < text.length := by
  cases text with
  | nil => cases counted
  | cons char rest =>
    rw [Text.charactersIn?] at counted
    split at counted
    · obtain ⟨later, -, rfl⟩ := Option.map_eq_some_iff.mp counted
      exact ⟨Nat.succ_pos _, Nat.succ_pos _⟩
    · cases counted

/-- What is behind a byte at least is shorter than the text. -/
theorem length_lt_of_behind? {text rest : List Char} {offset : Nat}
    (cut : behind? text (offset + 1) = some rest) : rest.length < text.length := by
  obtain ⟨count, counted, rfl⟩ := Option.map_eq_some_iff.mp cut
  obtain ⟨taken, nonempty⟩ := pos_of_charactersIn? counted
  rw [List.length_drop]
  omega

/-- A round that is followed by another one leaves less to be done. -/
theorem length_lt_of_round? {environment : Environment} {text written rest : List Char}
    (turn : round? environment text = some (.next written rest)) : rest.length < text.length := by
  unfold round? at turn
  split at turn
  · cases turn
  · obtain ⟨inner, -, turn⟩ := Option.bind_eq_some_iff.mp turn
    split at turn
    · cases turn
    · obtain ⟨before, -, turn⟩ := Option.bind_eq_some_iff.mp turn
      obtain ⟨name, -, turn⟩ := Option.bind_eq_some_iff.mp turn
      obtain ⟨later, cut, turn⟩ := Option.bind_eq_some_iff.mp turn
      obtain ⟨-, rfl⟩ := Round.next.inj (Option.some.inj turn)
      exact length_lt_of_behind? cut

/-- The rounds over a text one after the other, behind what has been written so far; none when the
text is cut within a character. -/
def rounds? (environment : Environment) (out text : List Char) : Option (List Char) :=
  match _turn : round? environment text with
  | none => none
  | some .last => some (out ++ text)
  | some (.next written rest) => rounds? environment (out ++ written) rest
termination_by text.length
decreasing_by exact length_lt_of_round? _turn

/-- A place where a reference could begin is found at the bytes in front of it. -/
theorem find?_opening (text : List Char) :
    find? ['$', '\x7b'] text = (splitAtOpening? text).map fun parts => Text.byteLength parts.1 := by
  fun_induction splitAtOpening? text with
  | case1 => rfl
  | case2 rest => exact if_pos (List.prefix_append ['$', '\x7b'] rest)
  | case3 char rest other ih =>
    have apart : ¬['$', '\x7b'] <+: char :: rest := by
      rintro ⟨tail, same⟩
      obtain ⟨rfl, rfl⟩ := List.cons.inj same
      exact other _ rfl rfl
    rw [find?, if_neg apart, ih, Option.map_map, Option.map_map]
    rfl

/-- A closing brace is found at the bytes in front of it. -/
theorem find?_closing (text : List Char) :
    find? ['\x7d'] text = (splitAtClosing? text).map fun parts => Text.byteLength parts.1 := by
  fun_induction splitAtClosing? text with
  | case1 => rfl
  | case2 rest => exact if_pos (List.prefix_append ['\x7d'] rest)
  | case3 char rest other ih =>
    have apart : ¬['\x7d'] <+: char :: rest := by
      rintro ⟨tail, same⟩
      exact other (List.cons.inj same).1.symm
    rw [find?, if_neg apart, ih, Option.map_map, Option.map_map]
    rfl

/-- The text behind its beginning is the rest of it. -/
theorem behind?_append (front back : List Char) :
    behind? (front ++ back) (Text.byteLength front) = some back := by
  rw [behind?, Text.charactersIn?_byteLength, Option.map_some, List.drop_left]

/-- The text between its beginning and the rest of it is what is left. -/
theorem between?_append (front middle back : List Char) :
    between? (front ++ middle ++ back) (Text.byteLength front)
      (Text.byteLength (front ++ middle)) = some middle := by
  have first := Text.charactersIn?_byteLength front (middle ++ back)
  rw [← List.append_assoc] at first
  have order : front.length ≤ (front ++ middle).length := by simp
  rw [between?, first, Text.charactersIn?_byteLength, Option.bind_eq_bind, Option.bind_some,
    Option.bind_some, if_pos order, List.take_left, List.drop_left]

variable {environment : Environment} {text before after name rest : List Char}

/-- The round over a text in which no reference could begin is the last one. -/
theorem round?_of_unopened (unopened : splitAtOpening? text = none) :
    round? environment text = some .last := by
  rw [round?, find?_opening, unopened]
  rfl

/-- The mark that begins a reference takes two bytes. -/
theorem byteLength_opening (before : List Char) :
    Text.byteLength (before ++ ['$', '\x7b']) = Text.byteLength before + 2 :=
  Text.byteLength_append before ['$', '\x7b']

/-- A text is cut behind the place where its first reference could begin. -/
theorem behind?_opening (opened : splitAtOpening? text = some (before, after)) :
    behind? text (Text.byteLength before + 2) = some after := by
  have whole : text = before ++ ['$', '\x7b'] ++ after := by
    rw [(splitAtOpening?_eq_some opened).1, List.append_assoc]
    rfl
  rw [whole, ← byteLength_opening, behind?_append]

/-- The round over a text in which the first beginning of a reference is not closed is the last. -/
theorem round?_of_unclosed (opened : splitAtOpening? text = some (before, after))
    (unclosed : splitAtClosing? after = none) : round? environment text = some .last := by
  rw [round?, find?_opening, opened]
  simp only [Option.map_some, behind?_opening opened, Option.bind_eq_bind, Option.bind_some,
    find?_closing, unclosed, Option.map_none]
  rfl

/-- A round writes the text up to the first reference and what its name stands for. -/
theorem round?_of_closed (opened : splitAtOpening? text = some (before, after))
    (closed : splitAtClosing? after = some (name, rest)) :
    round? environment text = some (.next (before ++ valueOf environment name) rest) := by
  obtain ⟨whole, -⟩ := splitAtOpening?_eq_some opened
  obtain ⟨inner, -⟩ := splitAtClosing?_eq_some_iff.mp closed
  -- The text is cut at four places: in front of the two marks and behind them.
  have front : between? text 0 (Text.byteLength before) = some before := by
    rw [whole]
    exact between?_append [] before ('$' :: '\x7b' :: after)
  have middle : between? text (Text.byteLength before + 2)
      (Text.byteLength before + 2 + Text.byteLength name) = some name := by
    have parted : text = before ++ ['$', '\x7b'] ++ name ++ '\x7d' :: rest := by
      simp [whole, inner]
    rw [parted, ← byteLength_opening, ← Text.byteLength_append, between?_append]
  have back : behind? text (Text.byteLength before + 2 + Text.byteLength name + 1) = some rest := by
    have parted : text = before ++ ['$', '\x7b'] ++ name ++ ['\x7d'] ++ rest := by
      simp [whole, inner]
    have closing : Text.byteLength ['\x7d'] = 1 := rfl
    rw [parted, ← byteLength_opening, ← closing, ← Text.byteLength_append,
      ← Text.byteLength_append, behind?_append]
  rw [round?, find?_opening, opened]
  simp only [Option.map_some, behind?_opening opened, Option.bind_eq_bind, Option.bind_some,
    find?_closing, closed, front, middle, back]
  rfl

/-- After the last round, the rest of the text is kept. -/
theorem rounds?_of_last (turn : round? environment text = some .last) (out : List Char) :
    rounds? environment out text = some (out ++ text) := by
  rw [rounds?]
  split
  · rename_i failed
    cases failed.symm.trans turn
  · rfl
  · rename_i goesOn
    cases goesOn.symm.trans turn

/-- After any other round, the next one goes over what is left. -/
theorem rounds?_of_next {written : List Char}
    (turn : round? environment text = some (.next written rest)) (out : List Char) :
    rounds? environment out text = rounds? environment (out ++ written) rest := by
  rw [rounds?]
  split
  · rename_i failed
    cases failed.symm.trans turn
  · rename_i ended
    cases ended.symm.trans turn
  · rename_i goesOn
    obtain ⟨rfl, rfl⟩ := Round.next.inj (Option.some.inj (goesOn.symm.trans turn))
    rfl

/-- The rounds over a text write what it is expanded to. -/
theorem rounds?_eq (environment : Environment) (out text : List Char) :
    rounds? environment out text = some (out ++ expandCharacters environment text) := by
  cases opened : splitAtOpening? text with
  | none =>
    rw [rounds?_of_last (round?_of_unopened opened), expandCharacters_of_unopened opened]
  | some parts =>
    obtain ⟨before, after⟩ := parts
    cases closed : splitAtClosing? after with
    | none =>
      rw [rounds?_of_last (round?_of_unclosed opened closed),
        expandCharacters_of_unclosed opened closed]
    | some parts =>
      obtain ⟨name, rest⟩ := parts
      have turn : round? environment text = _ := round?_of_closed opened closed
      have shorter : rest.length < text.length := length_lt_of_round? turn
      rw [rounds?_of_next turn, rounds?_eq environment (out ++ _) rest,
        expandCharacters_of_closed opened closed, List.append_assoc]
termination_by text.length

example : rounds? ⟨[("HOME", "$\x7bX\x7d")]⟩ [] "ä$\x7bHOME\x7d\x7d$\x7bHOME".toList =
    some "ä$\x7bX\x7d\x7d$\x7bHOME".toList := by cbv

/-- The references in a text are replaced in one pass: it ends without ever cutting the text within a
character, and what comes out is what is said of each character in turn. So the text is made of
pieces with a reference each, in place of which its value stands as it is, and of a rest without any
that is kept. What begins like a reference and is not closed is kept with all that follows it. -/
theorem references_are_replaced_in_one_pass (environment : Environment) (text : String) :
    rounds? environment [] text.toList = some (expand environment text).toList ∧
    (∀ out, Becomes environment text.toList out ↔ out = (expand environment text).toList) ∧
    (∃ pieces last,
      Replaces environment text.toList (expand environment text).toList pieces last) ∧
    ∀ after : String, '\x7d' ∉ after.toList →
      expand environment (text ++ "$\x7b" ++ after) =
        expand environment text ++ "$\x7b" ++ after := by
  have expanded : ∀ text, (expand environment text).toList =
      expandCharacters environment text.toList := fun _ => String.toList_ofList
  have becomes := becomes_expandCharacters environment text.toList
  rw [expanded]
  refine ⟨rounds?_eq environment [] text.toList, fun _ => becomes_iff, exists_replaces becomes, ?_⟩
  intro after unclosed
  have kept := becomes_iff.mp (becomes.append_unclosed unclosed)
  apply String.toList_inj.mp
  rw [expanded, String.toList_append, String.toList_append, String.toList_append,
    String.toList_append, expanded]
  simpa using kept.symm

end FlowService.Expansion
