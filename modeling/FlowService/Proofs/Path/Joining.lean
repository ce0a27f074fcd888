import FlowService.Proofs.Path.Spelling

/-! What is put behind a path leads through that path and does not bring out how it was spelled. -/

namespace FlowService.Path

/-- Two paths are the same, or they differ only in how the directories above some name of theirs
are spelled. -/
inductive Akin : Path → Path → Prop
  | same (path : Path) : Akin path path
  | below {absolute : Bool} {inner : List String} {name : String} {outer others : List String}
    (named : ¬isQuiet name)
    -- What is above the name stands for the same, and below it the spelling is the same.
    (outside : innerComponents absolute outer = innerComponents absolute others) :
    Akin ⟨absolute, inner ++ name :: outer⟩ ⟨absolute, inner ++ name :: others⟩

/-- A name is never silent. -/
theorem not_isSilent_of_named {name : String} (named : ¬isQuiet name) (absolute : Bool)
    (outer : List String) : ¬isSilent absolute name outer := by
  simp only [isQuiet, Bool.or_eq_true, not_or] at named
  simp [isSilent, named]

/-- Segments below some name stand for the same below all spellings of what is above it. -/
theorem innerComponents_append {absolute : Bool} (inner : List String) {name : String}
    (named : ¬isQuiet name) {outer others : List String}
    (outside : innerComponents absolute outer = innerComponents absolute others) :
    innerComponents absolute (inner ++ name :: outer) =
      innerComponents absolute (inner ++ name :: others) := by
  -- Whether a segment is silent only depends on whether there is anything above it.
  induction inner with
  | nil => simp [innerComponents, not_isSilent_of_named named, outside]
  | cons segment rest ih => simp [innerComponents, isSilent, ih]

/-- Paths that are akin stand for the same. -/
theorem Akin.trail {left right : Path} (akin : Akin left right) : left.trail = right.trail := by
  cases akin with
  | same => rfl
  | below named outside => exact innerComponents_append _ named outside

/-- A path that is put behind segments comes below them, whatever they stand below. -/
theorem join_below {next : Path} (relative : next.absolute = false) (inner : List String)
    {name : String} (named : ¬isQuiet name) :
    ∃ longer, ∀ absolute outer, join ⟨absolute, inner ++ name :: outer⟩ next =
      ⟨absolute, longer ++ name :: outer⟩ := by
  -- Of the segments only the innermost one is looked at: it gives way if it is empty.
  have some : name ≠ "" := by
    rintro rfl
    exact named rfl
  obtain ⟨_, segments⟩ := next
  cases relative
  rcases inner with _ | ⟨innermost, rest⟩
  · rcases segments with _ | ⟨first, later⟩
    · exact ⟨[""], fun absolute outer => by simp [join, some]⟩
    · exact ⟨first :: later, fun absolute outer => by simp [join, some]⟩
  · by_cases empty : innermost = ""
    · subst empty
      rcases segments with _ | ⟨first, later⟩
      · exact ⟨"" :: rest, fun absolute outer => by simp [join]⟩
      · exact ⟨first :: later ++ rest, fun absolute outer => by simp [join]⟩
    · rcases segments with _ | ⟨first, later⟩
      · exact ⟨"" :: innermost :: rest, fun absolute outer => by simp [join, empty]⟩
      · exact ⟨first :: later ++ innermost :: rest, fun absolute outer => by simp [join, empty]⟩

/-- Paths that are akin stay so when something is put behind them. -/
theorem Akin.join {left right : Path} (akin : Akin left right) (next : Path) :
    Akin (left.join next) (right.join next) := by
  cases akin with
  | same path => exact .same _
  | @below absolute inner name outer others named outside =>
    cases relative : next.absolute with
    | true =>
      -- A path that begins at the root takes the place of either.
      have taken : ∀ base : Path, base.join next = next := fun base => by simp [Path.join, relative]
      rw [taken, taken]
      exact .same next
    | false =>
      obtain ⟨longer, joined⟩ := join_below relative inner named
      rw [joined, joined]
      exact .below named outside

/-- A name behind a path comes behind what that path stands for. -/
theorem join_name (path : Path) (name : String) :
    ∃ outer, path.join ⟨false, [name]⟩ = ⟨path.absolute, name :: outer⟩ ∧
      innerComponents path.absolute outer = path.trail := by
  -- An empty segment at the inner end gives way to the name.
  obtain ⟨absolute, segments⟩ := path
  rcases segments with _ | ⟨segment, outer⟩
  · exact ⟨[], rfl, rfl⟩
  · by_cases empty : segment = ""
    · subst empty
      exact ⟨outer, rfl, by simp [trail, innerComponents, isSilent]⟩
    · exact ⟨segment :: outer, by simp [join, empty], rfl⟩

/-- A name behind two spellings of a path makes them akin. -/
theorem akin_of_trail {left right : Path} (spelling : left.trail = right.trail) {name : String}
    (named : ¬isQuiet name) : Akin (left.join ⟨false, [name]⟩) (right.join ⟨false, [name]⟩) := by
  obtain ⟨outer, leftJoined, leftSame⟩ := join_name left name
  obtain ⟨others, rightJoined, rightSame⟩ := join_name right name
  rw [leftJoined, rightJoined, absolute_of_trail spelling]
  have outside : innerComponents right.absolute outer = innerComponents right.absolute others := by
    rw [rightSame, ← spelling, ← leftSame, absolute_of_trail spelling]
  exact @Akin.below right.absolute [] name outer others named outside

/-- A path leads through another one: its spelling goes on from that of the other one. -/
def Through (base path : Path) : Prop :=
  -- The segments are listed from the innermost outwards.
  ∃ inner, path = ⟨base.absolute, inner ++ base.segments⟩

/-- A text spells an absolute path exactly if it begins with a slash. -/
theorem ofText_absolute (text : String) :
    (ofText text).absolute = (text.toList.head? == some '/') := by
  unfold ofText
  split
  · rename_i nothing
    rw [nothing]
    rfl
  · rename_i slash
    rw [slash]
    rfl
  · rename_i rest _ spelled
    rw [spelled]
    rfl
  · rename_i noSlash single chars
    cases spelled : text.toList with
    | nil => rfl
    | cons first rest =>
      have relative : first ≠ '/' := by
        rintro rfl
        exact chars rest spelled
      simp [relative]

/-- What is put behind a relative spelling leaves it relative. -/
theorem ofText_append_relative {text : String} (relative : (ofText text).absolute = false)
    {more : String} (apart : more.toList.head? ≠ some '/') :
    (ofText (text ++ more)).absolute = false := by
  rw [ofText_absolute] at relative ⊢
  rw [String.toList_append]
  cases spelled : text.toList with
  | nil => simpa using apart
  | cons first rest => simpa [spelled] using relative

/-- A relative path behind a path that leads through a named one leads through it too. -/
theorem Through.join {absolute : Bool} {name : String} {outer : List String} {path next : Path}
    (named : ¬isQuiet name) (through : Through ⟨absolute, name :: outer⟩ path)
    (relative : next.absolute = false) : Through ⟨absolute, name :: outer⟩ (path.join next) := by
  obtain ⟨inner, rfl⟩ := through
  obtain ⟨longer, joined⟩ := join_below relative inner named
  exact ⟨longer, joined absolute outer⟩

end FlowService.Path
