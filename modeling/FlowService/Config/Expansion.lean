import FlowService.Environment

/-!
References to variables in a text are replaced from left to right, and what takes their place is not
looked at again.
-/

namespace FlowService.Expansion

/-- Splits a text around the first dollar sign with a brace behind it. -/
def splitAtOpening? : List Char → Option (List Char × List Char)
  | [] => none
  | '$' :: '\x7b' :: rest => some ([], rest)
  | char :: rest => (splitAtOpening? rest).map fun parts => (char :: parts.1, parts.2)

/-- Splits a text around its first closing brace. -/
def splitAtClosing? : List Char → Option (List Char × List Char)
  | [] => none
  | '\x7d' :: rest => some ([], rest)
  | char :: rest => (splitAtClosing? rest).map fun parts => (char :: parts.1, parts.2)

/-- What a reference stands for; an empty name and an unset variable stand for nothing. -/
def valueOf (environment : Environment) (name : List Char) : List Char :=
  if name.isEmpty then [] else ((environment.value? (String.ofList name)).getD "").toList

/-- What follows an opening is shorter than the whole. -/
theorem length_lt_of_splitAtOpening {text before after : List Char}
    (split : splitAtOpening? text = some (before, after)) : after.length < text.length := by
  -- Each case drops at least one character.
  fun_induction splitAtOpening? text generalizing before after with
  | case1 => simp at split
  | case2 rest =>
    simp only [Option.some.injEq, Prod.mk.injEq] at split
    simp only [← split.2, List.length_cons]
    omega
  | case3 char rest _ ih =>
    simp only [Option.map_eq_some_iff, Prod.exists, Prod.mk.injEq] at split
    obtain ⟨first, last, found, _, rfl⟩ := split
    have shorter := ih found
    simp only [List.length_cons]
    omega

/-- What follows a closing brace is shorter than the whole. -/
theorem length_lt_of_splitAtClosing {text before after : List Char}
    (split : splitAtClosing? text = some (before, after)) : after.length < text.length := by
  -- Each case drops at least one character.
  fun_induction splitAtClosing? text generalizing before after with
  | case1 => simp at split
  | case2 rest =>
    simp only [Option.some.injEq, Prod.mk.injEq] at split
    simp only [← split.2, List.length_cons]
    omega
  | case3 char rest _ ih =>
    simp only [Option.map_eq_some_iff, Prod.exists, Prod.mk.injEq] at split
    obtain ⟨first, last, found, _, rfl⟩ := split
    have shorter := ih found
    simp only [List.length_cons]
    omega

/-- Replaces the references in a text; one that is not closed stays, with all that follows it. -/
def expandCharacters (environment : Environment) (text : List Char) : List Char :=
  match _opened : splitAtOpening? text with
  | none => text
  | some (before, after) =>
    match _closed : splitAtClosing? after with
    | none => text
    | some (name, rest) =>
      before ++ valueOf environment name ++ expandCharacters environment rest
termination_by text.length
decreasing_by
  have inner := length_lt_of_splitAtOpening _opened
  have outer := length_lt_of_splitAtClosing _closed
  omega

/-- Replaces the references in a text by the values of the variables that they name. -/
def expand (environment : Environment) (text : String) : String :=
  String.ofList (expandCharacters environment text.toList)

end FlowService.Expansion
