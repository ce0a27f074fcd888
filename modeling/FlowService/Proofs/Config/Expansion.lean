import FlowService.Config.Expansion
import FlowService.Proofs.Text.Lines

/-!
The references of a text are replaced in one pass from left to right. The pass finds marks and cuts
the text at offsets in bytes, which are all between two characters, and does what is said of each
character in turn: either a reference begins there or the character is kept.
-/

namespace FlowService.Expansion

/-- A reference begins where a dollar sign and a brace stand that some later brace closes. -/
def OpensReference (text : List Char) : Prop :=
  ∃ after, text = '$' :: '\x7b' :: after ∧ '\x7d' ∈ after

/-- What a name stands for in an environment. -/
inductive StandsFor (environment : Environment) : List Char → List Char → Prop
  | nameless : StandsFor environment [] []
  | unset {name : List Char} (named : name ≠ [])
      (unset : environment.value? (String.ofList name) = none) : StandsFor environment name []
  | set {name : List Char} {value : String} (named : name ≠ [])
      (set : environment.value? (String.ofList name) = some value) :
      StandsFor environment name value.toList

/-- What a text becomes, character by character: a reference gives way to what its name stands for,
up to the first brace that closes it, and every other character is kept. -/
inductive Becomes (environment : Environment) : List Char → List Char → Prop
  | done : Becomes environment [] []
  | reference {name value rest out : List Char} (first : '\x7d' ∉ name)
      (stands : StandsFor environment name value) (later : Becomes environment rest out) :
      Becomes environment ('$' :: '\x7b' :: (name ++ '\x7d' :: rest)) (value ++ out)
  | kept {char : Char} {rest out : List Char} (plain : ¬OpensReference (char :: rest))
      (later : Becomes environment rest out) : Becomes environment (char :: rest) (char :: out)

variable {environment : Environment} {text name value rest : List Char}

/-- A name stands for exactly what takes its place. -/
theorem standsFor_iff : StandsFor environment name value ↔ value = valueOf environment name := by
  unfold valueOf
  constructor
  · rintro (_ | ⟨named, unset⟩ | ⟨named, set⟩)
    · rfl
    · simp [named, unset]
    · simp [named, set]
  · rintro rfl
    by_cases named : name = []
    · subst named
      exact .nameless
    · cases found : environment.value? (String.ofList name) with
      | none => simpa [named] using StandsFor.unset named found
      | some value => simpa [named] using StandsFor.set named found

/-- A text is split around its first closing brace. -/
theorem splitAtClosing?_eq_some_iff :
    splitAtClosing? text = some (name, rest) ↔ text = name ++ '\x7d' :: rest ∧ '\x7d' ∉ name := by
  fun_induction splitAtClosing? text generalizing name rest with
  | case1 => simp
  | case2 later =>
    constructor
    · rintro ⟨⟩
      exact ⟨rfl, List.not_mem_nil⟩
    · rintro ⟨split, first⟩
      cases name with
      | nil => simpa using split
      | cons char name =>
        obtain ⟨rfl, -⟩ := List.cons.inj split
        exact absurd List.mem_cons_self first
  | case3 char later other ih =>
    simp only [Option.map_eq_some_iff, Prod.exists, Prod.mk.injEq, ih]
    constructor
    · rintro ⟨name, rest, ⟨rfl, first⟩, rfl, rfl⟩
      refine ⟨rfl, ?_⟩
      rintro (_ | ⟨_, member⟩)
      · exact other rfl
      · exact first member
    · rintro ⟨split, first⟩
      cases name with
      | nil => exact absurd (List.cons.inj split).1 other
      | cons head name =>
        obtain ⟨rfl, rfl⟩ := List.cons.inj split
        exact ⟨name, rest, ⟨rfl, fun member => first (List.mem_cons_of_mem _ member)⟩, rfl, rfl⟩

/-- Only a text without a closing brace is not split at one. -/
theorem splitAtClosing?_eq_none_iff : splitAtClosing? text = none ↔ '\x7d' ∉ text := by
  constructor
  · intro none member
    obtain ⟨name, rest, split, first⟩ := List.eq_append_cons_of_mem member
    rw [splitAtClosing?_eq_some_iff.mpr ⟨split, first⟩] at none
    cases none
  · intro unclosed
    cases found : splitAtClosing? text with
    | none => rfl
    | some parts =>
      obtain ⟨rfl, -⟩ := splitAtClosing?_eq_some_iff.mp found
      simp at unclosed

/-- A text is split around the first place where a reference could begin. -/
theorem splitAtOpening?_eq_some {before after : List Char}
    (opened : splitAtOpening? text = some (before, after)) :
    text = before ++ '$' :: '\x7b' :: after ∧ ¬['$', '\x7b'] <:+: before := by
  fun_induction splitAtOpening? text generalizing before after with
  | case1 => cases opened
  | case2 later =>
    obtain ⟨rfl, rfl⟩ := Prod.mk.inj (Option.some.inj opened)
    exact ⟨rfl, by simp⟩
  | case3 char later other ih =>
    obtain ⟨⟨first, last⟩, found, same⟩ := Option.map_eq_some_iff.mp opened
    obtain ⟨rfl, rfl⟩ := Prod.mk.inj same
    obtain ⟨rfl, none⟩ := ih found
    refine ⟨rfl, ?_⟩
    intro inside
    rcases List.infix_cons_iff.mp inside with start | later
    · -- The mark would already stand at the first character.
      obtain ⟨tail, same⟩ := start
      obtain ⟨rfl, rfl⟩ := List.cons.inj same
      exact other _ rfl rfl
    · exact none later

/-- Where no reference could begin at the first character, a text is split later. -/
theorem splitAtOpening?_cons {char : Char} (other : ∀ after, char :: rest ≠ '$' :: '\x7b' :: after) :
    splitAtOpening? (char :: rest) =
      (splitAtOpening? rest).map fun parts => (char :: parts.1, parts.2) := by
  rw [splitAtOpening?]
  intro after dollar brace
  exact other after (by rw [dollar, brace])

/-- A text in which no reference could begin stays as it is. -/
theorem expandCharacters_of_unopened (unopened : splitAtOpening? text = none) :
    expandCharacters environment text = text := by
  rw [expandCharacters]
  split
  · rfl
  · rename_i opened
    rw [unopened] at opened
    cases opened

/-- A text in which the first beginning of a reference is not closed stays as it is. -/
theorem expandCharacters_of_unclosed {before after : List Char}
    (opened : splitAtOpening? text = some (before, after))
    (unclosed : splitAtClosing? after = none) : expandCharacters environment text = text := by
  rw [expandCharacters]
  split
  · rfl
  · rename_i found
    obtain ⟨rfl, rfl⟩ := Prod.mk.inj (Option.some.inj (opened.symm.trans found))
    split
    · rfl
    · rename_i closed
      rw [unclosed] at closed
      cases closed

/-- The first reference of a text gives way to what its name stands for. -/
theorem expandCharacters_of_closed {before after : List Char}
    (opened : splitAtOpening? text = some (before, after))
    (closed : splitAtClosing? after = some (name, rest)) :
    expandCharacters environment text =
      before ++ valueOf environment name ++ expandCharacters environment rest := by
  rw [expandCharacters]
  split
  · rename_i unopened
    rw [opened] at unopened
    cases unopened
  · rename_i found
    obtain ⟨rfl, rfl⟩ := Prod.mk.inj (Option.some.inj (opened.symm.trans found))
    split
    · rename_i unclosed
      rw [closed] at unclosed
      cases unclosed
    · rename_i again
      obtain ⟨rfl, rfl⟩ := Prod.mk.inj (Option.some.inj (closed.symm.trans again))
      rfl

/-- A text without a closing brace stays as it is. -/
theorem expandCharacters_of_not_mem (unclosed : '\x7d' ∉ text) :
    expandCharacters environment text = text := by
  cases opened : splitAtOpening? text with
  | none => exact expandCharacters_of_unopened opened
  | some parts =>
    obtain ⟨split, -⟩ := splitAtOpening?_eq_some opened
    apply expandCharacters_of_unclosed opened
    rw [splitAtClosing?_eq_none_iff]
    intro member
    apply unclosed
    rw [split]
    simp [member]

/-- A reference at the beginning of a text gives way to what its name stands for. -/
theorem expandCharacters_reference (first : '\x7d' ∉ name) (rest : List Char) :
    expandCharacters environment ('$' :: '\x7b' :: (name ++ '\x7d' :: rest)) =
      valueOf environment name ++ expandCharacters environment rest := by
  have closed : splitAtClosing? (name ++ '\x7d' :: rest) = some (name, rest) :=
    splitAtClosing?_eq_some_iff.mpr ⟨rfl, first⟩
  have opened : splitAtOpening? ('$' :: '\x7b' :: (name ++ '\x7d' :: rest)) =
      some ([], name ++ '\x7d' :: rest) := rfl
  exact expandCharacters_of_closed opened closed

/-- A character at which no reference begins is kept. -/
theorem expandCharacters_cons {char : Char} (plain : ¬OpensReference (char :: rest)) :
    expandCharacters environment (char :: rest) = char :: expandCharacters environment rest := by
  by_cases opening : ∃ after, char :: rest = '$' :: '\x7b' :: after
  · -- Nothing closes what begins here, so all that follows is kept.
    obtain ⟨after, same⟩ := opening
    have unclosed : '\x7d' ∉ after := fun member => plain ⟨after, same, member⟩
    obtain ⟨rfl, rfl⟩ := List.cons.inj same
    rw [expandCharacters_of_not_mem (by simp [unclosed]),
      expandCharacters_of_not_mem (by simp [unclosed])]
  · have later : splitAtOpening? (char :: rest) =
        (splitAtOpening? rest).map fun parts => (char :: parts.1, parts.2) :=
      splitAtOpening?_cons fun after same => opening ⟨after, same⟩
    cases opened : splitAtOpening? rest with
    | none =>
      rw [opened] at later
      rw [expandCharacters_of_unopened opened, expandCharacters_of_unopened later]
    | some parts =>
      obtain ⟨before, after⟩ := parts
      rw [opened] at later
      cases closed : splitAtClosing? after with
      | none =>
        rw [expandCharacters_of_unclosed opened closed, expandCharacters_of_unclosed later closed]
      | some parts =>
        rw [expandCharacters_of_closed opened closed, expandCharacters_of_closed later closed]
        rfl

/-- A text becomes what it is expanded to. -/
theorem becomes_expandCharacters (environment : Environment) (text : List Char) :
    Becomes environment text (expandCharacters environment text) := by
  -- Either a reference begins at the first character or the character is kept.
  by_cases opens : OpensReference text
  · obtain ⟨after, rfl, closed⟩ := opens
    obtain ⟨name, rest, rfl, first⟩ := List.eq_append_cons_of_mem closed
    rw [expandCharacters_reference first]
    exact .reference first (standsFor_iff.mpr rfl) (becomes_expandCharacters environment rest)
  · cases text with
    | nil =>
      rw [expandCharacters_of_unopened rfl]
      exact .done
    | cons char rest =>
      rw [expandCharacters_cons opens]
      exact .kept opens (becomes_expandCharacters environment rest)
termination_by text.length

/-- A text becomes nothing but what it is expanded to. -/
theorem becomes_iff {out : List Char} :
    Becomes environment text out ↔ out = expandCharacters environment text := by
  constructor
  · intro becomes
    induction becomes with
    | done => exact (expandCharacters_of_unopened rfl).symm
    | reference first stands later ih =>
      rw [expandCharacters_reference first, ih, standsFor_iff.mp stands]
    | kept plain later ih => rw [expandCharacters_cons plain, ih]
  · rintro rfl
    exact becomes_expandCharacters environment text

/-- A reference with the text in front of it. -/
structure Piece where
  before : List Char
  name : List Char

namespace Piece

/-- A piece as it is written. -/
def written (piece : Piece) : List Char :=
  piece.before ++ '$' :: '\x7b' :: (piece.name ++ ['\x7d'])

/-- A piece with what its name stands for. -/
def shown (environment : Environment) (piece : Piece) : List Char :=
  piece.before ++ valueOf environment piece.name

/-- A piece has no other beginning of a reference in front of its own and no other end in it. -/
structure IsFirst (piece : Piece) : Prop where
  opening : ¬['$', '\x7b'] <:+: piece.before
  closing : '\x7d' ∉ piece.name

end Piece

/-- A text is made of pieces and a rest without a reference, and becomes another one if its pieces
are shown and the rest is kept. -/
structure Replaces (environment : Environment) (text out : List Char) (pieces : List Piece)
    (last : List Char) : Prop where
  text : text = pieces.flatMap Piece.written ++ last
  out : out = pieces.flatMap (Piece.shown environment) ++ last
  first : ∀ piece ∈ pieces, piece.IsFirst
  last : ∀ suffix, suffix <:+ last → ¬OpensReference suffix

variable {out last : List Char} {pieces : List Piece}

/-- A reference more in front is a piece more. -/
theorem Replaces.reference (replaces : Replaces environment rest out pieces last)
    (first : '\x7d' ∉ name) :
    Replaces environment ('$' :: '\x7b' :: (name ++ '\x7d' :: rest))
      (valueOf environment name ++ out) (⟨[], name⟩ :: pieces) last := by
  constructor
  case text => simp [replaces.text, Piece.written]
  case out => simp [replaces.out, Piece.shown]
  case first =>
    intro piece member
    rcases List.mem_cons.mp member with rfl | later
    · exact ⟨by simp, first⟩
    · exact replaces.first piece later
  case last => exact replaces.last

/-- A character more in front at which no reference begins belongs to the first piece, or to the rest
if there is none. -/
theorem Replaces.kept {char : Char} (replaces : Replaces environment rest out pieces last)
    (plain : ¬OpensReference (char :: rest)) :
    ∃ pieces last, Replaces environment (char :: rest) (char :: out) pieces last := by
  cases pieces with
  | nil =>
    have same : rest = last := replaces.text
    refine ⟨[], char :: last, ?_, ?_, ?_, ?_⟩
    · rw [same]
      rfl
    · rw [replaces.out]
      rfl
    · exact fun piece member => absurd member List.not_mem_nil
    · intro suffix ends
      rcases List.suffix_cons_iff.mp ends with rfl | later
      · exact same ▸ plain
      · exact replaces.last suffix later
  | cons piece later =>
    refine ⟨⟨char :: piece.before, piece.name⟩ :: later, last, ?_, ?_, ?_, replaces.last⟩
    · simp [replaces.text, Piece.written]
    · simp [replaces.out, Piece.shown]
    · intro other member
      rcases List.mem_cons.mp member with rfl | found
      · have old := replaces.first piece List.mem_cons_self
        refine ⟨?_, old.closing⟩
        intro inside
        rcases List.infix_cons_iff.mp inside with start | deeper
        · -- The reference of the piece would begin at the character.
          apply plain
          obtain ⟨tail, same⟩ := start
          obtain ⟨rfl, before⟩ := List.cons.inj same
          refine ⟨tail ++ '$' :: '\x7b' :: (piece.name ++ '\x7d' ::
            (later.flatMap Piece.written ++ last)), ?_, by simp⟩
          rw [replaces.text, List.flatMap_cons, Piece.written, ← before]
          simp
        · exact old.opening deeper
      · exact replaces.first other (List.mem_cons_of_mem _ found)

/-- What a text becomes is the text with its references replaced. -/
theorem exists_replaces (becomes : Becomes environment text out) :
    ∃ pieces last, Replaces environment text out pieces last := by
  induction becomes with
  | done =>
    refine ⟨[], [], rfl, rfl, fun piece member => absurd member List.not_mem_nil, ?_⟩
    intro suffix ends
    rw [List.suffix_nil.mp ends]
    rintro ⟨after, same, -⟩
    cases same
  | reference first stands later ih =>
    obtain ⟨pieces, last, replaces⟩ := ih
    rw [standsFor_iff.mp stands]
    exact ⟨_, last, replaces.reference first⟩
  | kept plain later ih =>
    obtain ⟨pieces, last, replaces⟩ := ih
    exact replaces.kept plain

/-- What begins like a reference and is not closed is kept with all that follows it, whatever becomes
of the text in front of it. -/
theorem Becomes.append_unclosed (becomes : Becomes environment text out) {after : List Char}
    (unclosed : '\x7d' ∉ after) :
    Becomes environment (text ++ '$' :: '\x7b' :: after) (out ++ '$' :: '\x7b' :: after) := by
  induction becomes with
  | done =>
    rw [List.nil_append, becomes_iff, expandCharacters_of_not_mem (by simp [unclosed])]
  | reference first stands later ih =>
    have whole := Becomes.reference first stands ih
    simpa using whole
  | @kept char rest out plain later ih =>
    refine .kept ?_ ih
    rintro ⟨behind, same, closed⟩
    apply plain
    obtain ⟨rfl, next⟩ := List.cons.inj same
    cases rest with
    | nil => cases (List.cons.inj next).1
    | cons brace rest =>
      obtain ⟨rfl, rfl⟩ := List.cons.inj next
      -- Nothing behind the text closes a reference.
      refine ⟨rest, rfl, ?_⟩
      simpa [unclosed] using closed

end FlowService.Expansion
