import FlowService.Path.Basic

/-! Two spellings of a path agree on everything but the segments that name nothing. -/

namespace FlowService.Path

/-- What a path stands for once spelling no longer matters, from the inside out. -/
def trail (path : Path) : List Component := innerComponents path.absolute path.segments

/-- Two paths stand for the same thing when their trails are the same. -/
theorem sameAs_iff {left right : Path} : left.sameAs right ↔ left.trail = right.trail := by
  -- The components are the trail in the other order.
  simp [sameAs, components, trail]

/-- Whether two paths stand for the same thing does not depend on their spelling. -/
theorem sameAs_congr {left right one other : Path} (leftSame : left.trail = one.trail)
    (rightSame : right.trail = other.trail) : left.sameAs right = one.sameAs other := by
  rw [Bool.eq_iff_iff, sameAs_iff, sameAs_iff, leftSame, rightSame]

/-- A segment never stands for the root. -/
theorem componentOf_ne_root (segment : String) : componentOf segment ≠ .root := by
  unfold componentOf
  split
  · simp
  · split <;> simp

/-- The trail of a path ends at the root exactly if its spelling begins there. -/
theorem root_mem_innerComponents (absolute : Bool) (segments : List String) :
    .root ∈ innerComponents absolute segments ↔ absolute = true := by
  -- Only the outer end can add the root, since no segment stands for it.
  induction segments with
  | nil => cases absolute <;> simp [innerComponents]
  | cons segment outer ih =>
    rw [innerComponents]
    split
    · exact ih
    · simp [(componentOf_ne_root segment).symm, ih]

/-- The trail of a path tells whether its spelling begins at the root. -/
theorem absolute_of_trail {left right : Path} (same : left.trail = right.trail) :
    left.absolute = right.absolute := by
  have leftRoot := root_mem_innerComponents left.absolute left.segments
  have rightRoot := root_mem_innerComponents right.absolute right.segments
  unfold trail at same
  rw [same, rightRoot] at leftRoot
  exact (Bool.eq_iff_iff.mpr leftRoot).symm

/-- Dropping segments that name nothing does not change what is stood for. -/
theorem innerComponents_trim (absolute : Bool) (segments : List String) :
    innerComponents absolute (trim absolute segments) = innerComponents absolute segments := by
  -- What is dropped is silent, and a silent segment adds nothing.
  induction segments with
  | nil => rfl
  | cons segment outer ih =>
    by_cases silent : isSilent absolute segment outer
    · simp only [trim, innerComponents, silent, if_true, ih]
    · simp only [trim, silent]
      rfl

/-- A segment at the inner end that names something is the first of the trail. -/
theorem innerComponents_of_trim {absolute : Bool} {segments outer : List String} {segment : String}
    (trimmed : trim absolute segments = segment :: outer) :
    innerComponents absolute segments = componentOf segment :: innerComponents absolute outer := by
  -- The silent segments in front of it are passed over on both sides.
  induction segments with
  | nil => cases trimmed
  | cons first rest ih =>
    by_cases silent : isSilent absolute first rest
    · rw [trim, if_pos silent] at trimmed
      rw [innerComponents, if_pos silent]
      exact ih trimmed
    · rw [trim, if_neg silent] at trimmed
      cases trimmed
      rw [innerComponents, if_neg silent]

/-- The last name of a path is a proper one, and all that stands behind it names nothing. -/
theorem trim_of_fileName? {path : Path} {name : String} (named : path.fileName? = some name) :
    ∃ outer, trim path.absolute path.segments = name :: outer ∧
      name ≠ "" ∧ name ≠ "." ∧ name ≠ ".." := by
  have notEmpty : ∀ {segments segment outer},
      trim path.absolute segments = segment :: outer → segment ≠ "" := by
    -- An empty segment is silent, so it does not stay in front.
    intro segments segment outer trimmed
    induction segments with
    | nil => cases trimmed
    | cons first rest ih =>
      by_cases silent : isSilent path.absolute first rest
      · rw [trim, if_pos silent] at trimmed
        exact ih trimmed
      · rw [trim, if_neg silent] at trimmed
        obtain ⟨rfl, rfl⟩ := List.cons.inj trimmed
        rintro rfl
        exact silent rfl
  unfold fileName? at named
  cases trimmed : trim path.absolute path.segments with
  | nil =>
    rw [trimmed] at named
    cases named
  | cons segment outer =>
    simp only [trimmed, componentOf] at named
    by_cases dot : segment = "."
    · simp [dot] at named
    · by_cases dots : segment = ".."
      · simp [dots] at named
      · obtain rfl : segment = name := by simpa [dot, dots] using named
        exact ⟨outer, rfl, notEmpty trimmed, dot, dots⟩

/-- The trail of the directory that a trail lies in. -/
def around : List Component → Option (List Component)
  | [] => none
  | [.root] => none
  | _ :: outer => some outer

/-- The trails of everything on the way outwards. -/
def outward : List Component → List (List Component)
  | [] => [[]]
  | [.root] => [[.root]]
  | component :: outer => (component :: outer) :: outward outer

/-- The trail of the directory that a path lies in is that of the path without its first step. -/
theorem parent?_trail (path : Path) : path.parent?.map trail = around path.trail := by
  -- The parent drops the first segment that names something, and with it the first step.
  unfold parent? trail
  cases trimmed : trim path.absolute path.segments with
  | nil =>
    have silent := innerComponents_trim path.absolute path.segments
    rw [trimmed] at silent
    rw [← silent]
    cases path.absolute <;> rfl
  | cons segment outer =>
    rw [innerComponents_of_trim trimmed]
    cases component : componentOf segment with
    | root => exact absurd component (componentOf_ne_root segment)
    | _ => simp [around, innerComponents_trim]

/-- The trails of a path and of all directories above it are those on the way outwards. -/
theorem ancestors_trail (path : Path) : path.ancestors.map trail = outward path.trail := by
  have along : ∀ segments, innerComponents path.absolute segments ::
      (segmentsAbove path.absolute segments).map (innerComponents path.absolute) =
        outward (innerComponents path.absolute segments) := by
    -- A silent segment adds no directory, and any other adds the one around it.
    intro segments
    induction segments with
    | nil => cases path.absolute <;> rfl
    | cons segment outer ih =>
      by_cases silent : isSilent path.absolute segment outer
      · simpa only [segmentsAbove, innerComponents, silent, if_true] using ih
      · have named := componentOf_ne_root segment
        rw [segmentsAbove, if_neg silent, innerComponents, if_neg silent, List.map_cons,
          innerComponents_trim, ih]
        cases component : componentOf segment with
        | root => exact absurd component named
        | _ => rfl
  simpa [ancestors, trail, Function.comp_def] using along path.segments

/-- The way outwards begins with a trail and goes on as that of the directory around it. -/
theorem outward_eq (trail : List Component) :
    outward trail = trail :: ((around trail).map outward).getD [] := by
  -- Neither an empty trail nor the root has a directory around it.
  fun_cases outward trail with
  | case1 | case2 => rfl
  | case3 component outer apart => rw [around] <;> simp_all

/-- What comes on the way outwards behind a trail is its own way outwards. -/
theorem outward_split {trail other : List Component} {before after : List (List Component)}
    (split : outward trail = before ++ other :: after) : other :: after = outward other := by
  induction before generalizing trail with
  | nil =>
    rw [List.nil_append, outward_eq] at split
    rw [← split, ← (List.cons.inj split).1, ← outward_eq]
  | cons first rest ih =>
    -- What is behind the first trail is the way outwards from the directory around it.
    rw [outward_eq] at split
    have behind := (List.cons.inj split).2
    cases outside : around trail with
    | none => simp [outside] at behind
    | some outer =>
      rw [outside] at behind
      exact ih behind

/-- Whether a segment stays where it is. -/
def isQuiet (segment : String) : Bool := segment == "" || segment == "."

/-- The segments that lead somewhere. -/
def loud (segments : List String) : List String := segments.filter (!isQuiet ·)

/-- The segment that spells a component which leads somewhere. -/
def spoken? : Component → Option String
  | .above => some ".."
  | .name text => some text
  | _ => none

/-- The trail of a path tells all its segments that lead somewhere. -/
theorem trail_spoken (path : Path) : path.trail.filterMap spoken? = loud path.segments := by
  -- A dot may stand in the trail, but it leads nowhere and is left out on both sides.
  unfold trail
  induction path.segments with
  | nil => cases path.absolute <;> rfl
  | cons segment outer ih =>
    rw [innerComponents]
    by_cases silent : isSilent path.absolute segment outer
    · have quiet : isQuiet segment := by
        simp only [isSilent, Bool.or_eq_true, Bool.and_eq_true] at silent
        simp only [isQuiet, Bool.or_eq_true]
        exact silent.imp_right And.left
      rw [if_pos silent, ih]
      simp [loud, quiet]
    · rw [if_neg silent]
      by_cases dot : segment = "."
      · simpa [componentOf, spoken?, loud, isQuiet, dot, List.filterMap_cons] using ih
      · have some : segment ≠ "" := by
          rintro rfl
          exact silent rfl
        have loudHere : loud (segment :: outer) = segment :: loud outer := by
          simp [loud, isQuiet, dot, some]
        rw [loudHere, ← ih]
        by_cases dots : segment = ".." <;> simp [componentOf, spoken?, dot, dots]

/-- Paths that stand for the same thing have the same segments that lead somewhere. -/
theorem loud_of_trail {left right : Path} (same : left.trail = right.trail) :
    loud left.segments = loud right.segments := by
  rw [← trail_spoken, ← trail_spoken, same]

end FlowService.Path
