import FlowService.Proofs.Disk.Walk
import Mathlib.Data.List.Infix

/-!
A walk that begins at a place below directories only comes to such places, and the path that names
one of them leads straight to it.
-/

namespace FlowService

open FlowService.Path

namespace FileTree

variable {tree : FileTree} {follow : List String → Location → Option Location}
variable {segments : List String} {here place : Location} {links : Nat}

/-- All names on the way to a place are proper ones, and all of them stand in directories. -/
def Standing (tree : FileTree) : Location → Prop
  -- Nothing is asked of what stands at the place itself.
  | [] => True
  | name :: outer =>
    (¬isQuiet name ∧ name ≠ "..") ∧ tree.isDirectoryAt outer ∧ tree.Standing outer

/-- Around a place stand directories. -/
theorem Standing.tail (standing : tree.Standing place) : tree.Standing place.tail := by
  cases place with
  | nil => exact standing
  | cons name outer => exact standing.2.2

/-- Further out from a place in a directory stand directories as well. -/
theorem Standing.drop (standing : tree.Standing place) (directory : tree.isDirectoryAt place)
    (level : Nat) : tree.Standing (place.drop level) ∧ tree.isDirectoryAt (place.drop level) := by
  induction level generalizing place with
  | zero => exact ⟨standing, directory⟩
  | succ level ih =>
    cases place with
    | nil => exact ⟨trivial, rfl⟩
    | cons name outer => exact ih standing.2.2 standing.2.1

/-- The directories above the path of a place are the places around it. -/
theorem Standing.ancestors (standing : tree.Standing place) :
    place.path.ancestors = place.tails.map Location.path := by
  have kept : ∀ {place}, tree.Standing place → trim true place = place := by
    -- A proper name is not silent, so it stays in front.
    intro place standing
    cases place with
    | nil => rfl
    | cons name outer => rw [trim, if_neg (not_isSilent_of_named standing.1.1 true outer)]
  have above : ∀ {place}, tree.Standing place →
      place :: segmentsAbove true place = place.tails := by
    intro place standing
    induction place with
    | nil => rfl
    | cons name outer ih =>
      rw [segmentsAbove, if_neg (not_isSilent_of_named standing.1.1 true outer),
        kept standing.2.2, ih standing.2.2, List.tails_cons]
  rw [← above standing]
  rfl

/-- A walk only comes to places below directories if following links only does. -/
theorem walkWith_standing (following : ∀ segments here place, tree.Standing here →
      follow segments here = some place → tree.Standing place)
    (standing : tree.Standing here) (walked : tree.walkWith follow segments here = some place) :
    tree.Standing place := by
  -- The walk enters a name only from a directory, and only a proper one.
  induction segments generalizing here with
  | nil => exact Option.some.inj walked ▸ standing
  | cons segment later ih =>
    by_cases directory : tree.isDirectoryAt here
    · by_cases quiet : isQuiet segment
      · rw [walkWith_quiet quiet later directory] at walked
        exact ih standing walked
      · by_cases above : segment = ".."
        · rw [above, walkWith_above later directory] at walked
          exact ih standing.tail walked
        · rw [walkWith_name quiet above later directory] at walked
          have inner : tree.Standing (segment :: here) := ⟨⟨quiet, above⟩, directory, standing⟩
          cases found : tree.lookup? (segment :: here) with
          | none =>
            rw [found] at walked
            cases walked
          | some entry =>
            rw [found] at walked
            cases entry with
            | file | directory => exact ih inner walked
            | link target =>
              -- A link begins at the root or where it stands.
              refine following _ _ _ ?_ walked
              split
              · trivial
              · exact standing
    · rw [walkWith_cons_of_not_directory directory] at walked
      cases walked

/-- Walks only come to places below directories. -/
theorem walk_standing (standing : tree.Standing here)
    (walked : tree.walk links segments here = some place) : tree.Standing place := by
  induction links generalizing segments here place with
  | zero => exact walkWith_standing (fun _ _ _ _ none => by cases none) standing walked
  | succ links ih =>
    exact walkWith_standing (fun _ _ _ start followed => ih start followed) standing walked

/-- The names of a directory lead to it without any link being followed. -/
theorem walkWith_names (follow : List String → Location → Option Location)
    (standing : tree.Standing place) (directory : tree.isDirectoryAt place) (more : List String) :
    tree.walkWith follow (place.reverse ++ more) [] = tree.walkWith follow more place := by
  -- The induction goes outwards, since the outer names are walked through first.
  induction place generalizing more with
  | nil => rfl
  | cons name outer ih =>
    obtain ⟨⟨named, inward⟩, outside, around⟩ := standing
    rw [List.reverse_cons, List.append_assoc, ih around outside, List.singleton_append,
      walkWith_name named inward more outside, eq_of_beq directory]

/-- However few links may be followed, the names of a directory lead to it. -/
theorem walk_names (standing : tree.Standing place) (directory : tree.isDirectoryAt place) :
    tree.walk links place.reverse [] = some place := by
  have walked : ∀ follow, tree.walkWith follow place.reverse [] = some place := by
    intro follow
    have onwards := walkWith_names follow standing directory []
    rwa [List.append_nil] at onwards
  cases links with
  | zero => exact walked _
  | succ links => exact walked _

/-- A walk with more to come goes on where it would have ended, or behind the same link. -/
theorem walkWith_resume (walked : tree.walkWith follow segments here = some place) :
    (∀ more, tree.walkWith follow (segments ++ more) here = tree.walkWith follow more place) ∨
      ∃ inner start, follow inner start = some place ∧
        ∀ more, tree.walkWith follow (segments ++ more) here = follow (inner ++ more) start := by
  induction segments generalizing here with
  | nil =>
    left
    intro more
    rw [Option.some.inj walked, List.nil_append]
  | cons segment later ih =>
    simp only [List.cons_append]
    by_cases directory : tree.isDirectoryAt here
    · by_cases quiet : isQuiet segment
      · simp only [walkWith_quiet quiet _ directory] at walked ⊢
        exact ih walked
      · by_cases above : segment = ".."
        · subst above
          simp only [walkWith_above _ directory] at walked ⊢
          exact ih walked
        · simp only [walkWith_name quiet above _ directory] at walked ⊢
          cases found : tree.lookup? (segment :: here) with
          | none =>
            rw [found] at walked
            cases walked
          | some entry =>
            simp only [found] at walked ⊢
            cases entry with
            | file | directory => exact ih walked
            | link target =>
              right
              refine ⟨_, _, walked, fun more => ?_⟩
              rw [List.append_assoc]
    · rw [walkWith_cons_of_not_directory directory] at walked
      cases walked

/-- A walk with more to come goes on where it would have ended, with the links that are left. -/
theorem walk_resume (walked : tree.walk links segments here = some place) :
    ∃ left, ∀ more, tree.walk links (segments ++ more) here = tree.walk left more place := by
  -- Every link that is followed starts a walk of its own with one link less.
  induction links generalizing segments here with
  | zero =>
    rcases walkWith_resume walked with onwards | ⟨_, _, followed, _⟩
    · exact ⟨0, onwards⟩
    · cases followed
  | succ links ih =>
    rcases walkWith_resume walked with onwards | ⟨inner, start, followed, onwards⟩
    · exact ⟨links + 1, onwards⟩
    · obtain ⟨left, later⟩ := ih followed
      exact ⟨left, fun more => (onwards more).trans (later more)⟩

/-- Whatever is walked through from some place, that place is a directory. -/
theorem isDirectoryAt_of_walkWith {segment : String} {later : List String}
    (walked : tree.walkWith follow (segment :: later) here = some place) :
    tree.isDirectoryAt here := by
  by_contra blocked
  rw [walkWith_cons_of_not_directory blocked] at walked
  cases walked

/-- A walk that gets further than some segments comes to a directory behind them. -/
theorem walkWith_front {more : List String} (further : more ≠ [])
    (following : ∀ inner start, follow (inner ++ more) start = some place →
      ∃ stop, follow inner start = some stop ∧ tree.isDirectoryAt stop)
    (walked : tree.walkWith follow (segments ++ more) here = some place) :
    ∃ stop, tree.walkWith follow segments here = some stop ∧ tree.isDirectoryAt stop := by
  induction segments generalizing here with
  | nil =>
    obtain ⟨first, rest, rfl⟩ := List.exists_cons_of_ne_nil further
    exact ⟨here, rfl, isDirectoryAt_of_walkWith walked⟩
  | cons segment later ih =>
    rw [List.cons_append] at walked
    have directory := isDirectoryAt_of_walkWith walked
    by_cases quiet : isQuiet segment
    · rw [walkWith_quiet quiet _ directory] at walked ⊢
      exact ih walked
    · by_cases above : segment = ".."
      · subst above
        rw [walkWith_above _ directory] at walked ⊢
        exact ih walked
      · rw [walkWith_name quiet above _ directory] at walked ⊢
        cases found : tree.lookup? (segment :: here) with
        | none =>
          rw [found] at walked
          cases walked
        | some entry =>
          rw [found] at walked
          cases entry with
          | file | directory => exact ih walked
          | link target =>
            -- Behind a link everything is walked through by the one who follows it.
            simp only [← List.append_assoc] at walked
            exact following _ _ walked

/-- However many links are met, a walk that gets further comes to a directory on the way. -/
theorem walk_front {more : List String} (further : more ≠ [])
    (walked : tree.walk links (segments ++ more) here = some place) :
    ∃ stop, tree.walk links segments here = some stop ∧ tree.isDirectoryAt stop := by
  induction links generalizing segments here with
  | zero => exact walkWith_front further (fun _ _ followed => by cases followed) walked
  | succ links ih => exact walkWith_front further (fun _ _ followed => ih followed) walked

/-- A walk that goes on to the name of a directory comes to that directory. -/
theorem walk_inward (walked : tree.walk links segments here = some place) {name : String}
    (proper : ¬isQuiet name ∧ name ≠ "..") (around : tree.isDirectoryAt place)
    (directory : tree.isDirectoryAt (name :: place)) :
    tree.walk links (segments ++ [name]) here = some (name :: place) := by
  obtain ⟨left, onwards⟩ := walk_resume walked
  rw [onwards]
  -- No link is met at the last step, whatever number of them may be followed.
  cases left <;>
    rw [walk, walkWith_name proper.1 proper.2 [] around, eq_of_beq directory] <;> rfl

end FileTree

namespace Disk

variable {disk : Disk} {path parent : Path} {place : Location} {name : String}

/-- A path leads to places below directories, if a relative one begins at such a place. -/
theorem standing_of_directoryAt? (start : disk.tree.Standing disk.workingDirectory)
    (located : disk.directoryAt? path = some place) :
    disk.tree.Standing place ∧ disk.tree.isDirectoryAt place := by
  obtain ⟨found, directory⟩ := Option.filter_eq_some_iff.mp located
  refine ⟨?_, directory⟩
  unfold locate? at found
  split at found
  · cases found
  · apply FileTree.walk_standing _ found
    split
    · trivial
    · exact start

/-- The path of a directory leads to it. -/
theorem directoryAt?_path (standing : disk.tree.Standing place)
    (directory : disk.tree.isDirectoryAt place) : disk.directoryAt? place.path = some place := by
  have named : ¬place.path.components.isEmpty := by
    -- An absolute path has the root among its components.
    have root := (root_mem_innerComponents true place).mpr rfl
    simpa [components, Location.path] using List.ne_nil_of_mem root
  refine Option.filter_eq_some_iff.mpr ⟨?_, directory⟩
  unfold locate?
  rw [if_neg named]
  exact FileTree.walk_names standing directory

/-- Where a path leads anywhere, a directory stands at every name that it leads through. -/
theorem isDirectory_of_lookup? {absolute : Bool} {inner outer : List String} {entry : Entry}
    (named : ¬isQuiet name) (further : inner ≠ [])
    (found : disk.lookup? ⟨absolute, inner ++ name :: outer⟩ = some entry) :
    disk.isDirectory ⟨absolute, name :: outer⟩ := by
  obtain ⟨place, located, _⟩ := Option.bind_eq_some_iff.mp found
  have spoken : ¬(components ⟨absolute, name :: outer⟩).isEmpty := by
    simp [components, innerComponents, not_isSilent_of_named named]
  unfold locate? at located
  split at located
  · cases located
  · rw [List.reverse_append] at located
    obtain ⟨stop, walked, directory⟩ :=
      FileTree.walk_front (List.reverse_ne_nil_iff.mpr further) located
    unfold isDirectory lookup? locate?
    rw [if_neg spoken]
    -- The directory that the name leads to is where the whole walk passed.
    simp only [walked, Option.bind_some]
    exact directory

/-- The last name of a path is that of a directory, and of no link, in the directory around it. -/
def IsStraight (disk : Disk) (path : Path) : Prop :=
  ∃ parent name place, path.parent? = some parent ∧ path.fileName? = some name ∧
    disk.directoryAt? parent = some place ∧ disk.tree.isDirectoryAt (name :: place)

/-- A path is found where it is found without the segments at its inner end that name nothing. -/
theorem directoryAt?_trim (disk : Disk) (absolute : Bool) (segments : List String) :
    disk.directoryAt? ⟨absolute, trim absolute segments⟩ = disk.directoryAt? ⟨absolute, segments⟩ :=
  directoryAt?_congr (.refl disk) (innerComponents_trim absolute segments)

/-- A proper name behind a path to a directory leads to the directory of that name. -/
theorem directoryAt?_inward {absolute : Bool} {outer : List String}
    (located : disk.directoryAt? ⟨absolute, outer⟩ = some place)
    (proper : ¬isQuiet name ∧ name ≠ "..") (directory : disk.tree.isDirectoryAt (name :: place)) :
    disk.directoryAt? ⟨absolute, name :: outer⟩ = some (name :: place) := by
  obtain ⟨found, around⟩ := Option.filter_eq_some_iff.mp located
  refine Option.filter_eq_some_iff.mpr ⟨?_, directory⟩
  have named : ¬(components ⟨absolute, name :: outer⟩).isEmpty := by
    simp [components, innerComponents, not_isSilent_of_named proper.1]
  unfold locate? at found ⊢
  rw [if_neg named, List.reverse_cons]
  -- The path around the name led somewhere, so its segments were walked through.
  split at found
  · cases found
  · exact FileTree.walk_inward found proper around directory

/-- A path whose last name is that of a directory leads to it. -/
theorem IsStraight.directoryAt? (straight : disk.IsStraight path) :
    ∃ parent name place, path.parent? = some parent ∧ disk.directoryAt? parent = some place ∧
      disk.directoryAt? path = some (name :: place) := by
  obtain ⟨parent, name, place, above, named, located, directory⟩ := straight
  refine ⟨parent, name, place, above, located, ?_⟩
  obtain ⟨absolute, segments⟩ := path
  rw [← directoryAt?_trim]
  obtain ⟨outer, trimmed, notEmpty, notDot, inward⟩ := trim_of_fileName? named
  unfold parent? at above
  simp only at trimmed above
  rw [trimmed] at above ⊢
  rw [← Option.some.inj above, directoryAt?_trim] at located
  exact directoryAt?_inward located ⟨by simp [isQuiet, notEmpty, notDot], inward⟩ directory

end Disk

end FlowService
