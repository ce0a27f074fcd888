import FlowService.Project.Manifest
import FlowService.Project.Root
import FlowService.Project.SearchPath

/-!
The checker's binary comes with a package, and the nearest directory that has the package installed
decides.
-/

namespace FlowService

/-- Why the binary of a package that is installed cannot be found. -/
inductive DiscoveryError
  | read (manifest : Path)
  | malformed (manifest : Path)
  | noBinary (package binary : String) (directory : Path)
  deriving DecidableEq, Repr, Inhabited

/-- The text shown for a failed discovery. -/
def DiscoveryError.message : DiscoveryError → String
  | .read manifest => s!"reading {manifest.text}: the file holds no text"
  | .malformed manifest => s!"parsing {manifest.text}: the manifest is malformed"
  | .noBinary package binary directory =>
    s!"{package} in {directory.text} ships no {binary} binary for this platform"

namespace Platform

/-- The name of a platform in the directories of a package, by its system and its machine; not
every platform has one. -/
def name? (system machine : String) : Option String :=
  match system, machine with
  | "macos", "aarch64" => some "osx-arm64"
  | "macos", _ => some "osx"
  | "linux", "aarch64" => some "linux-arm64"
  | "linux", "x86_64" => some "linux64"
  | "windows", "x86_64" => some "win64"
  | _, _ => none

/-- The name of the platform that the program is built for. -/
def built : Option String := name? "linux" "x86_64"

end Platform

/-- What is looked for on a platform, which may have no name. -/
structure Discovery (platform : Option String := Platform.built) where
  package : String
  binary : String
  /-- Whether the search path is looked through when no package is installed. -/
  searchPath : Bool
  deriving DecidableEq, Repr, Inhabited

namespace Discovery

variable {platform : Option String}

/-- The directory of a package that holds the binary for the platform. -/
def platformDirectory? (discovery : Discovery platform) (version : String) : Option String :=
  -- Each version has a directory of its own, beside those of other platforms.
  platform.map fun name => s!"{discovery.binary}-{name}-v{version}"

/-- Where a directory of packages may hold the package, and its manifest. -/
def packageDirectory (discovery : Discovery platform) (modules : Path) : Path :=
  modules.joinText discovery.package

/-- The manifest of the package. -/
def manifest (discovery : Discovery platform) (modules : Path) : Path :=
  (discovery.packageDirectory modules).joinText Project.marker

/-- The binary that the package has for the platform. -/
def platformBinary? (discovery : Discovery platform) (modules : Path) (version : String) :
    Option Path :=
  (discovery.platformDirectory? version).map fun directory =>
    ((discovery.packageDirectory modules).joinText directory).joinText discovery.binary

/-- The binary that stands beside all packages. -/
def sharedBinary (discovery : Discovery platform) (modules : Path) : Path :=
  (modules.joinText ".bin").joinText discovery.binary

/-- The binary of the package in a directory of packages; nothing when it is not installed there. -/
def inPackages (discovery : Discovery platform) (disk : Disk) (modules : Path) :
    Except DiscoveryError (Option Path) :=
  -- A package counts as installed once it has a manifest.
  let manifest := discovery.manifest modules
  if !disk.isFile manifest then .ok none
  else match disk.readText? manifest with
    | none => .error (.read manifest)
    | some text => match Manifest.version? text with
      | none => .error (.malformed manifest)
      | some version =>
        -- The binary for the platform goes before the shared one.
        match (discovery.platformBinary? modules version).filter disk.isFile with
        | some binary => .ok (some binary)
        | none =>
          if disk.isFile (discovery.sharedBinary modules) then
            .ok (some (discovery.sharedBinary modules))
          else
            .error (.noBinary discovery.package discovery.binary
              (discovery.packageDirectory modules))

/-- The directory of packages of a directory. -/
def modulesOf (directory : Path) : Path := directory.joinText "node_modules"

/-- Looks through directories in order until one decides. -/
def inAncestors (discovery : Discovery platform) (disk : Disk) :
    List Path → Except DiscoveryError (Option Path)
  | [] => .ok none
  | directory :: outer =>
    if disk.isDirectory (modulesOf directory) then
      match discovery.inPackages disk (modulesOf directory) with
      -- A failure decides as well, so nothing further out makes up for it.
      | .ok none => inAncestors discovery disk outer
      | decided => decided
    else inAncestors discovery disk outer

/-- The binary for the files in a directory; nothing when it is not installed. -/
def discover (discovery : Discovery platform) (disk : Disk) (environment : Environment)
    (directory : Path) : Except DiscoveryError (Option Path) :=
  -- The search path is the last resort and not asked after a failure.
  match discovery.inAncestors disk directory.ancestors with
  | .ok none =>
    .ok (if discovery.searchPath then SearchPath.find? disk environment discovery.binary else none)
  | decided => decided

/-- The binary for the files in a directory, with a failed discovery counting as not installed. -/
def discovered? (discovery : Discovery platform) (disk : Disk) (environment : Environment)
    (directory : Path) : Option Path :=
  -- The reason for a failure is only logged.
  match discovery.discover disk environment directory with
  | .ok found => found
  | .error _ => none

end Discovery

end FlowService
