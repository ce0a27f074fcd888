import FlowService.Proofs.Path.Joining
import FlowService.Project.Root

/-!
Where a path leads depends on the directories and links of a tree and on the segments that lead
somewhere, as long as a directory or a name stands at its end.
-/

namespace FlowService

open FlowService.Path

namespace FileTree

/-- Two trees have the same directories and links. -/
structure Alike (one other : FileTree) : Prop where
  -- Nothing is asked of files, which may differ in what they hold and in where they stand.
  directories : ∀ location, one.isDirectoryAt location = other.isDirectoryAt location
  links : ∀ location target,
    one.lookup? location = some (.link target) ↔ other.lookup? location = some (.link target)

variable {one other tree : FileTree} {follow : List String → Location → Option Location}

/-- A tree is like itself. -/
theorem Alike.refl (tree : FileTree) : Alike tree tree := ⟨fun _ => rfl, fun _ _ => Iff.rfl⟩

/-- Nothing can be walked through but a directory. -/
theorem walkWith_cons_of_not_directory {here : Location} (blocked : ¬tree.isDirectoryAt here)
    (segment : String) (later : List String) :
    tree.walkWith follow (segment :: later) here = none := by
  simp [walkWith, blocked]

/-- No walk from something else than a directory ends at a directory. -/
theorem walkWith_filter_of_not_directory {here : Location} (blocked : ¬tree.isDirectoryAt here)
    (segments : List String) :
    (tree.walkWith follow segments here).filter tree.isDirectoryAt = none := by
  -- A walk that is at its end is where it started, any other fails at its first step.
  cases segments with
  | nil => simp [walkWith, blocked]
  | cons segment later => rw [walkWith_cons_of_not_directory blocked]; rfl

/-- A quiet segment only asks for a directory. -/
theorem walkWith_quiet {segment : String} (quiet : isQuiet segment) (later : List String)
    {here : Location} (directory : tree.isDirectoryAt here) :
    tree.walkWith follow (segment :: later) here = tree.walkWith follow later here := by
  have silent : (segment == "" || segment == ".") = true := quiet
  simp [walkWith, directory, silent]

/-- Two dots lead out of a directory. -/
theorem walkWith_above (later : List String) {here : Location}
    (directory : tree.isDirectoryAt here) :
    tree.walkWith follow (".." :: later) here = tree.walkWith follow later here.tail := by
  simp [walkWith, directory]

/-- Any other segment is looked up in a directory, and a link is followed. -/
theorem walkWith_name {segment : String} (named : ¬isQuiet segment) (inward : segment ≠ "..")
    (later : List String) {here : Location} (directory : tree.isDirectoryAt here) :
    tree.walkWith follow (segment :: later) here =
      match tree.lookup? (segment :: here) with
      | none => none
      | some (.link target) =>
        follow (target.segments.reverse ++ later) (if target.absolute then [] else here)
      | some _ => tree.walkWith follow later (segment :: here) := by
  have loud : ¬(segment == "" || segment == ".") = true := named
  simp only [walkWith, directory, loud, beq_eq_false_iff_ne.mpr inward]
  cases tree.lookup? (segment :: here) with
  | none => rfl
  | some entry => cases entry <;> rfl

/-- A name under which neither a directory nor a link stands leads to no directory. -/
theorem walkWith_filter_of_dead {segment : String} (named : ¬isQuiet segment)
    (inward : segment ≠ "..") (later : List String) {here : Location}
    (directory : tree.isDirectoryAt here) (blocked : ¬tree.isDirectoryAt (segment :: here))
    (unlinked : ∀ target, tree.lookup? (segment :: here) ≠ some (.link target)) :
    (tree.walkWith follow (segment :: later) here).filter tree.isDirectoryAt = none := by
  -- There may be a file of that name, but the walk cannot end at a directory behind it.
  rw [walkWith_name named inward later directory]
  cases found : tree.lookup? (segment :: here) with
  | none => rfl
  | some entry =>
    cases entry with
    | link target => exact absurd found (unlinked target)
    | file file => exact walkWith_filter_of_not_directory blocked later
    | directory => exact walkWith_filter_of_not_directory blocked later

/-- A walk that ends at a directory ends there without its quiet segments, in any like tree. -/
theorem walkWith_loud (alike : Alike one other) {theirs : List String → Location → Option Location}
    (following : ∀ segments others here, loud segments = loud others →
      (follow segments here).filter one.isDirectoryAt =
        (theirs others here).filter other.isDirectoryAt)
    (segments : List String) (here : Location) :
    (one.walkWith follow segments here).filter one.isDirectoryAt =
      (other.walkWith theirs (loud segments) here).filter other.isDirectoryAt := by
  -- Both walks are taken step by step; they part only where neither can end at a directory.
  induction segments generalizing here with
  | nil => simp [walkWith, loud, Option.filter, alike.directories]
  | cons segment later ih =>
    by_cases directory : one.isDirectoryAt here
    · have directoryToo : other.isDirectoryAt here := alike.directories here ▸ directory
      by_cases quiet : isQuiet segment
      · have dropped : loud (segment :: later) = loud later := by simp [loud, quiet]
        rw [walkWith_quiet quiet later directory, dropped, ih]
      · have kept : loud (segment :: later) = segment :: loud later := by simp [loud, quiet]
        rw [kept]
        by_cases above : segment = ".."
        · subst above
          rw [walkWith_above _ directory, walkWith_above _ directoryToo, ih]
        · by_cases inner : one.isDirectoryAt (segment :: here)
          · -- Both walks go on in the directory of that name.
            have innerToo : other.isDirectoryAt (segment :: here) :=
              alike.directories (segment :: here) ▸ inner
            rw [walkWith_name quiet above _ directory, walkWith_name quiet above _ directoryToo]
            have mine := eq_of_beq inner
            have theirs := eq_of_beq innerToo
            simp only [mine, theirs, ih]
          · have outside : ¬other.isDirectoryAt (segment :: here) :=
              alike.directories (segment :: here) ▸ inner
            by_cases linked : ∃ target, one.lookup? (segment :: here) = some (.link target)
            · -- Both walks follow the same link.
              obtain ⟨target, mine⟩ := linked
              have theirs := (alike.links _ target).mp mine
              rw [walkWith_name quiet above _ directory, walkWith_name quiet above _ directoryToo]
              simp only [mine, theirs]
              exact following _ _ _ (by simp [loud, List.filter_append])
            · have unlinked := not_exists.mp linked
              rw [walkWith_filter_of_dead quiet above _ directory inner unlinked,
                walkWith_filter_of_dead quiet above _ directoryToo outside
                  fun target => mt (alike.links _ target).mpr (unlinked target)]
    · have blockedToo : ¬other.isDirectoryAt here := alike.directories here ▸ directory
      rw [walkWith_filter_of_not_directory directory,
        walkWith_filter_of_not_directory blockedToo]

/-- Where a walk ends at a directory, a walk with the same loud segments ends in any like tree. -/
theorem walk_landing (alike : Alike one other) (links : Nat) {segments others : List String}
    (same : loud segments = loud others) (here : Location) :
    (one.walk links segments here).filter one.isDirectoryAt =
      (other.walk links others here).filter other.isDirectoryAt := by
  -- Both walks end where the walk through the loud segments ends, which may follow one link less.
  have through : ∀ (tree : FileTree) (_ : Alike tree other) (segments : List String),
      (tree.walk links segments here).filter tree.isDirectoryAt =
        (other.walk links (loud segments) here).filter other.isDirectoryAt := by
    induction links generalizing here with
    | zero =>
      intro tree like segments
      exact walkWith_loud like (fun _ _ _ _ => rfl) segments here
    | succ links ih =>
      intro tree like segments
      refine walkWith_loud like (fun mine theirs start loudly => ?_) segments here
      rw [ih start tree like mine, ih start other (Alike.refl other) theirs, loudly]
  rw [through one alike segments, through other (Alike.refl other) others, same]

/-- Quiet segments in front of some others do not change where those lead. -/
theorem walkWith_append {behind : List String} (some : behind ≠ [])
    (following : ∀ segments others here, loud segments = loud others →
      follow (segments ++ behind) here = follow (others ++ behind) here)
    (segments : List String) (here : Location) :
    tree.walkWith follow (segments ++ behind) here =
      tree.walkWith follow (loud segments ++ behind) here := by
  -- As long as something is left to be walked, a quiet segment asks for no more than that does.
  induction segments generalizing here with
  | nil => rfl
  | cons segment later ih =>
    by_cases directory : tree.isDirectoryAt here
    · by_cases quiet : isQuiet segment
      · have dropped : loud (segment :: later) = loud later := by simp [loud, quiet]
        rw [List.cons_append, walkWith_quiet quiet _ directory, dropped, ih]
      · have kept : loud (segment :: later) = segment :: loud later := by simp [loud, quiet]
        rw [kept, List.cons_append, List.cons_append]
        by_cases above : segment = ".."
        · subst above
          rw [walkWith_above _ directory, walkWith_above _ directory, ih]
        · rw [walkWith_name quiet above _ directory, walkWith_name quiet above _ directory]
          cases tree.lookup? (segment :: here) with
          | none => rfl
          | some entry =>
            cases entry with
            | link target =>
              simp only [← List.append_assoc]
              exact following _ _ _ (by simp [loud, List.filter_append])
            | _ => exact ih (segment :: here)
    · -- Some segment is left to be walked through on either side.
      have left : ∃ first rest, loud (segment :: later) ++ behind = first :: rest :=
        List.exists_cons_of_ne_nil (by simp [some])
      obtain ⟨first, rest, split⟩ := left
      rw [split, List.cons_append, walkWith_cons_of_not_directory directory,
        walkWith_cons_of_not_directory directory]

/-- Walks with the same loud segments in front of the same others end at the same place. -/
theorem walk_append {behind : List String} (some : behind ≠ []) (links : Nat)
    {segments others : List String} (same : loud segments = loud others) (here : Location) :
    tree.walk links (segments ++ behind) here = tree.walk links (others ++ behind) here := by
  -- Behind a link the walk starts anew with one link less to follow.
  have through : ∀ segments, tree.walk links (segments ++ behind) here =
      tree.walk links (loud segments ++ behind) here := by
    induction links generalizing here with
    | zero => exact fun segments => walkWith_append some (fun _ _ _ _ => rfl) segments here
    | succ links ih =>
      refine fun segments => walkWith_append some (fun mine theirs start loudly => ?_) segments here
      rw [ih start mine, ih start theirs, loudly]
  rw [through segments, through others, same]

end FileTree

namespace Disk

/-- Two disks have the same directories, links and marked directories. -/
structure SameLayout (one other : Disk) : Prop where
  -- A mark is a file, so it is asked for beside the directories and links.
  start : one.workingDirectory = other.workingDirectory
  trees : FileTree.Alike one.tree other.tree
  marks : ∀ directory, Project.isMarked one directory = Project.isMarked other directory

/-- Where the directory stands that a path leads to. -/
def directoryAt? (disk : Disk) (path : Path) : Option Location :=
  (disk.locate? path).filter disk.tree.isDirectoryAt

/-- Nothing but a directory stands where a path leads. -/
def LeadsToNoFile (disk : Disk) (path : Path) : Prop :=
  disk.exists? path → disk.isDirectory path

variable {one other disk : Disk} {left right : Path}

/-- Every layout is the same as itself. -/
theorem SameLayout.refl (disk : Disk) : SameLayout disk disk :=
  ⟨rfl, FileTree.Alike.refl _, fun _ => rfl⟩

/-- Where a directory stands depends on the layout and on what its path stands for. -/
theorem directoryAt?_congr (same : SameLayout one other) (spelling : left.trail = right.trail) :
    one.directoryAt? left = other.directoryAt? right := by
  -- The walks start at the same place, or there is nothing to be walked for either.
  have absolute := absolute_of_trail spelling
  have nothing : left.components.isEmpty = right.components.isEmpty := by
    have components : left.components = right.components := congrArg List.reverse spelling
    rw [components]
  have segments : loud left.segments.reverse = loud right.segments.reverse := by
    simp only [loud, List.filter_reverse]
    exact congrArg List.reverse (loud_of_trail spelling)
  unfold directoryAt? locate?
  rw [nothing, absolute, same.start]
  split
  · rfl
  · exact FileTree.walk_landing same.trees _ segments _

/-- A path that does not lead to a file has a canonical form exactly where a directory stands. -/
theorem canonical?_of_no_file (bare : disk.LeadsToNoFile left) :
    disk.canonical? left = (disk.directoryAt? left).map Location.path := by
  -- Anything that stands there has a canonical form, but only a directory can.
  unfold LeadsToNoFile exists? isDirectory lookup? at bare
  unfold canonical? directoryAt?
  cases located : disk.locate? left with
  | none => rfl
  | some location =>
    rw [located] at bare
    cases stands : disk.tree.lookup? location with
    | none => simp [stands, FileTree.isDirectoryAt, Option.filter]
    | some entry =>
      have directory : entry = .directory := by simpa [stands] using bare
      simp [stands, directory, FileTree.isDirectoryAt, Option.filter]

/-- Paths that are akin lead to the same place. -/
theorem locate?_of_akin (akin : Akin left right) : disk.locate? left = disk.locate? right := by
  cases akin with
  | same path => rfl
  | @below absolute inner name outer others named outside =>
    -- Something is left to be walked below the part that is spelled in two ways.
    have above : loud outer.reverse = loud others.reverse := by
      have spoken := @loud_of_trail ⟨absolute, outer⟩ ⟨absolute, others⟩ outside
      simp only [loud, List.filter_reverse]
      exact congrArg List.reverse spoken
    have trails := (@Akin.below absolute inner name outer others named outside).trail
    have walked : ∀ behind : List String, behind ≠ [] → ∀ here,
        disk.tree.walk FileTree.linkLimit (outer.reverse ++ behind) here =
          disk.tree.walk FileTree.linkLimit (others.reverse ++ behind) here :=
      fun behind some here => FileTree.walk_append some _ above here
    unfold locate?
    rw [show components _ = components _ from congrArg List.reverse trails]
    simp only [List.reverse_append, List.reverse_cons, List.append_assoc]
    rw [walked _ (by simp)]

/-- Paths that are akin lead to the same file. -/
theorem file?_of_akin (akin : Akin left right) : disk.file? left = disk.file? right := by
  rw [file?, file?, lookup?, lookup?, locate?_of_akin akin]

/-- Paths that are akin both lead to a file, or neither does. -/
theorem isFile_of_akin (akin : Akin left right) : disk.isFile left = disk.isFile right := by
  rw [isFile, isFile, file?_of_akin akin]

/-- Paths that are akin both lead to a directory, or neither does. -/
theorem isDirectory_of_akin (akin : Akin left right) :
    disk.isDirectory left = disk.isDirectory right := by
  rw [isDirectory, isDirectory, lookup?, lookup?, locate?_of_akin akin]

/-- Paths that are akin lead to the same text. -/
theorem readText?_of_akin (akin : Akin left right) :
    disk.readText? left = disk.readText? right := by
  rw [readText?, readText?, file?_of_akin akin]

/-- Whether a directory is marked does not depend on its spelling. -/
theorem isMarked_congr (spelling : left.trail = right.trail) :
    Project.isMarked disk left = Project.isMarked disk right := by
  have marker : ofText Project.marker = ⟨false, [Project.marker]⟩ := by decide
  unfold Project.isMarked joinText
  rw [marker]
  exact isFile_of_akin (akin_of_trail spelling (by decide))

end Disk

end FlowService
