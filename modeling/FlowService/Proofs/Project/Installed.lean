import FlowService.Project.Discovery
import FlowService.Proofs.Project.Chain

/-!
The nearest directory that has the package installed decides which binary is found, however the
directories are spelled.
-/

namespace FlowService.Discovery

variable {platform : Option String} {discovery : Discovery platform} {disk : Disk}
variable {environment : Environment} {left right : Path}

/-- Whether the package is installed in a directory. -/
def isInstalled (discovery : Discovery platform) (disk : Disk) (directory : Path) : Bool :=
  disk.isDirectory (modulesOf directory) && disk.isFile (discovery.manifest (modulesOf directory))

/-- The files that may be the binary of a version of the package, that for the platform first. -/
def candidates (discovery : Discovery platform) (modules : Path) (version : String) : List Path :=
  (discovery.platformBinary? modules version).toList ++ [discovery.sharedBinary modules]

/-- The binary of the package that is installed in a directory of packages, if it has one. -/
def installedBinary? (discovery : Discovery platform) (disk : Disk) (modules : Path) :
    Option Path := do
  let text ← disk.readText? (discovery.manifest modules)
  let version ← Manifest.version? text
  (discovery.candidates modules version).find? disk.isFile

/-- What a directory decides on; nothing when it leaves that to the directories above it. -/
def verdict? (discovery : Discovery platform) (disk : Disk) (directory : Path) :
    Option (Option Path) :=
  -- A package that is installed without a binary decides as well.
  if discovery.isInstalled disk directory then
    some (discovery.installedBinary? disk (modulesOf directory))
  else none

/-- What a search found; nothing when it went on to its end. -/
def found? : Except DiscoveryError (Option Path) → Option (Option Path)
  | .ok none => none
  | .ok (some binary) => some (some binary)
  | .error _ => some none

/-- A directory decides exactly if the package is installed there. -/
theorem isSome_verdict? (directory : Path) :
    (discovery.verdict? disk directory).isSome = discovery.isInstalled disk directory := by
  unfold verdict?
  split <;> simp_all

/-- A package that has a manifest is found with its binary or found to have none. -/
theorem found?_inPackages (modules : Path) :
    found? (discovery.inPackages disk modules) =
      if disk.isFile (discovery.manifest modules) then
        some (discovery.installedBinary? disk modules)
      else none := by
  unfold inPackages installedBinary? candidates
  by_cases manifest : disk.isFile (discovery.manifest modules)
  · simp only [manifest, Bool.not_true, Bool.false_eq_true, if_false, if_true]
    cases disk.readText? (discovery.manifest modules) with
    | none => rfl
    | some text =>
      cases read : Manifest.version? text with
      | none => simp [read, found?]
      | some version =>
        -- Both files are tried in turn, the first one if the platform has a name.
        cases named : discovery.platformBinary? modules version with
        | none =>
          by_cases shared : disk.isFile (discovery.sharedBinary modules) <;>
            simp [read, named, shared, found?]
        | some binary =>
          by_cases there : disk.isFile binary
          · simp [read, named, there, Option.filter, found?]
          · by_cases shared : disk.isFile (discovery.sharedBinary modules) <;>
              simp [read, named, there, Option.filter, shared, found?]
  · simp [manifest, found?]

/-- The nearest of some directories that decides is the one whose decision is taken. -/
theorem found?_inAncestors (directories : List Path) :
    found? (discovery.inAncestors disk directories) =
      directories.findSome? (discovery.verdict? disk) := by
  induction directories with
  | nil => rfl
  | cons directory outer ih =>
    have here : found? (discovery.inPackages disk (modulesOf directory)) = _ :=
      found?_inPackages (modulesOf directory)
    rw [List.findSome?_cons]
    unfold inAncestors
    by_cases modules : disk.isDirectory (modulesOf directory)
    · have verdict : discovery.verdict? disk directory =
          found? (discovery.inPackages disk (modulesOf directory)) := by
        simp [verdict?, isInstalled, modules, here]
      rw [if_pos modules, verdict]
      cases discovery.inPackages disk (modulesOf directory) with
      | error error => rfl
      | ok binary =>
        cases binary with
        | none => exact ih
        | some binary => rfl
    · have verdict : discovery.verdict? disk directory = none := by
        simp [verdict?, isInstalled, modules]
      rw [if_neg modules, verdict]
      exact ih

/-- The search path is asked when no directory decides. -/
theorem discovered?_eq (directory : Path) :
    discovery.discovered? disk environment directory =
      (directory.ancestors.findSome? (discovery.verdict? disk)).getD
        (if discovery.searchPath then SearchPath.find? disk environment discovery.binary
          else none) := by
  rw [← found?_inAncestors]
  unfold discovered? discover
  cases discovery.inAncestors disk directory.ancestors with
  | error error => rfl
  | ok binary => cases binary <;> rfl

/-- The first of some files is the same, however they are spelled. -/
theorem find?_isFile_congr {lefts rights : List Path} (akin : List.Forall₂ Path.Akin lefts rights) :
    (lefts.find? disk.isFile).map Path.trail = (rights.find? disk.isFile).map Path.trail := by
  induction akin with
  | nil => rfl
  | @cons left right _ _ first _ ih =>
    rw [List.find?_cons, List.find?_cons, Disk.isFile_of_akin first]
    split
    · exact congrArg some first.trail
    · exact ih

/-- The files that may be the binary are the same, however the directory above them is spelled. -/
theorem candidates_akin (akin : Path.Akin left right) (version : String) :
    List.Forall₂ Path.Akin (discovery.candidates left version)
      (discovery.candidates right version) := by
  -- All files of a package are named by what is put behind its directory.
  have package := akin.join (Path.ofText discovery.package)
  have shared := (akin.join (Path.ofText ".bin")).join (Path.ofText discovery.binary)
  unfold candidates platformBinary?
  cases discovery.platformDirectory? version with
  | none => exact .cons shared .nil
  | some directory =>
    have binary := (package.join (Path.ofText directory)).join (Path.ofText discovery.binary)
    exact .cons binary (.cons shared .nil)

/-- What an installed package has is the same, however the directories above it are spelled. -/
theorem installedBinary?_congr (akin : Path.Akin left right) :
    (discovery.installedBinary? disk left).map Path.trail =
      (discovery.installedBinary? disk right).map Path.trail := by
  have package := akin.join (Path.ofText discovery.package)
  have manifest := package.join (Path.ofText Project.marker)
  have text : disk.readText? (discovery.manifest left) =
      disk.readText? (discovery.manifest right) := Disk.readText?_of_akin manifest
  unfold installedBinary?
  rw [text]
  cases disk.readText? (discovery.manifest right) with
  | none => rfl
  | some text =>
    cases read : Manifest.version? text with
    | none => simp [read]
    | some version =>
      simp only [read, Option.bind_eq_bind, Option.bind_some]
      exact find?_isFile_congr (candidates_akin akin version)

/-- Whether the package is installed in a directory does not depend on its spelling. -/
theorem isInstalled_congr (spelling : left.trail = right.trail) :
    discovery.isInstalled disk left = discovery.isInstalled disk right := by
  have akin : Path.Akin (modulesOf left) (modulesOf right) :=
    Path.akin_of_trail spelling (by decide)
  have manifest := (akin.join (Path.ofText discovery.package)).join (Path.ofText Project.marker)
  unfold isInstalled
  rw [Disk.isDirectory_of_akin akin]
  exact congrArg _ (Disk.isFile_of_akin manifest)

/-- What a directory decides on does not depend on its spelling. -/
theorem verdict?_congr (spelling : left.trail = right.trail) :
    (discovery.verdict? disk left).map (·.map Path.trail) =
      (discovery.verdict? disk right).map (·.map Path.trail) := by
  have akin : Path.Akin (modulesOf left) (modulesOf right) :=
    Path.akin_of_trail spelling (by decide)
  unfold verdict?
  rw [isInstalled_congr spelling]
  split
  · exact congrArg some (installedBinary?_congr akin)
  · rfl

end FlowService.Discovery
