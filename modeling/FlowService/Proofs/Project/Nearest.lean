import FlowService.Proofs.Disk.Standing
import FlowService.Proofs.Project.Installed
import FlowService.Proofs.Project.Manifest

/-!
The nearest directory with a manifest of the package decides what is discovered, and it decides by
nothing but what is reached through its own directory of packages. The search path is only asked
when there is no such directory.
-/

namespace FlowService

namespace Discovery

variable {platform : Option String} {discovery : Discovery platform} {disk other : Disk}
variable {directory modules top : Path} {result : Except DiscoveryError (Option Path)}

/-- Neither the package nor the binary is named by an absolute path. -/
structure IsRelative (discovery : Discovery platform) : Prop where
  package : (Path.ofText discovery.package).absolute = false
  binary : (Path.ofText discovery.binary).absolute = false

/-- Whether a directory has a manifest of the package in its directory of packages. -/
def hasManifest (discovery : Discovery platform) (disk : Disk) (directory : Path) : Bool :=
  disk.isFile (discovery.manifest (modulesOf directory))

/-- A package with a manifest comes to a result. -/
inductive ComesTo (discovery : Discovery platform) (disk : Disk) (modules : Path) :
    Except DiscoveryError (Option Path) → Prop
  | unreadable (unread : disk.readText? (discovery.manifest modules) = none) :
    ComesTo discovery disk modules (.error (.read (discovery.manifest modules)))
  | malformed {text : String} (read : disk.readText? (discovery.manifest modules) = some text)
      (unversioned : ∀ version, ¬Manifest.Gives text version) :
    ComesTo discovery disk modules (.error (.malformed (discovery.manifest modules)))
  | platform {text version : String} {binary : Path}
      (read : disk.readText? (discovery.manifest modules) = some text)
      (versioned : Manifest.Gives text version)
      (named : discovery.platformBinary? modules version = some binary)
      (found : disk.isFile binary) :
    ComesTo discovery disk modules (.ok (some binary))
  | shared {text version : String}
      (read : disk.readText? (discovery.manifest modules) = some text)
      (versioned : Manifest.Gives text version)
      (missing : ∀ binary ∈ discovery.platformBinary? modules version, ¬disk.isFile binary)
      (found : disk.isFile (discovery.sharedBinary modules)) :
    ComesTo discovery disk modules (.ok (some (discovery.sharedBinary modules)))
  | bare {text version : String}
      (read : disk.readText? (discovery.manifest modules) = some text)
      (versioned : Manifest.Gives text version)
      (missing : ∀ binary ∈ discovery.platformBinary? modules version, ¬disk.isFile binary)
      (unshared : ¬disk.isFile (discovery.sharedBinary modules)) :
    ComesTo discovery disk modules (.error (.noBinary discovery.package discovery.binary
      (discovery.packageDirectory modules)))

/-- The files that a package comes to its result by. -/
def consulted (discovery : Discovery platform) (disk : Disk) (modules : Path) : List Path :=
  -- Which file is the binary for the platform is only known from the manifest.
  let version? := (disk.readText? (discovery.manifest modules)).bind Manifest.version?
  discovery.manifest modules :: discovery.sharedBinary modules ::
    (version?.bind (discovery.platformBinary? modules)).toList

/-- A package with a manifest comes to the result that is found for it. -/
theorem comesTo_inPackages (there : disk.isFile (discovery.manifest modules)) :
    ComesTo discovery disk modules (discovery.inPackages disk modules) := by
  unfold inPackages
  simp only [there, Bool.not_true, Bool.false_eq_true, if_false]
  cases read : disk.readText? (discovery.manifest modules) with
  | none => exact .unreadable read
  | some text =>
    cases versioned : Manifest.version? text with
    | none =>
      simp only [versioned]
      exact .malformed read (Manifest.version?_eq_none_iff.mp versioned)
    | some version =>
      simp only [versioned]
      have versioned := Manifest.version?_eq_some_iff.mp versioned
      -- The two binaries are tried in turn, the first one if the platform has a name.
      cases own : (discovery.platformBinary? modules version).filter disk.isFile with
      | some binary =>
        obtain ⟨named, found⟩ := Option.filter_eq_some_iff.mp own
        exact .platform read versioned named found
      | none =>
        have missing := Option.filter_eq_none_iff.mp own
        by_cases shared : disk.isFile (discovery.sharedBinary modules)
        · simp only [shared, if_true]
          exact .shared read versioned missing shared
        · simp only [shared]
          exact .bare read versioned missing shared

/-- What a package with a manifest comes to is found for it. -/
theorem ComesTo.inPackages_eq (comes : ComesTo discovery disk modules result)
    (there : disk.isFile (discovery.manifest modules)) :
    discovery.inPackages disk modules = result := by
  cases comes with
  | unreadable unread => simp [inPackages, there, unread]
  | malformed read unversioned =>
    simp [inPackages, there, read, Manifest.version?_eq_none_iff.mpr unversioned]
  | platform read versioned named found =>
    simp [inPackages, there, read, Manifest.version?_eq_some_iff.mpr versioned, named,
      Option.filter, found]
  | shared read versioned missing found =>
    simp [inPackages, there, read, Manifest.version?_eq_some_iff.mpr versioned,
      Option.filter_eq_none_iff.mpr missing, found]
  | bare read versioned missing unshared =>
    simp [inPackages, there, read, Manifest.version?_eq_some_iff.mpr versioned,
      Option.filter_eq_none_iff.mpr missing, unshared]

/-- A binary that a package comes to is a file. -/
theorem ComesTo.isFile {found : Option Path} (comes : ComesTo discovery disk modules (.ok found)) :
    ∃ binary, found = some binary ∧ disk.isFile binary := by
  cases comes with
  | platform _ _ _ there => exact ⟨_, rfl, there⟩
  | shared _ _ _ there => exact ⟨_, rfl, there⟩

/-- The directory of packages of a directory is called so, wherever it lies. -/
theorem modulesOf_eq (directory : Path) :
    ∃ absolute outer, modulesOf directory = ⟨absolute, "node_modules" :: outer⟩ := by
  obtain ⟨outer, joined, _⟩ := Path.join_name directory "node_modules"
  exact ⟨_, outer, joined⟩

/-- The directory for the platform is named by a relative path, whatever the version is. -/
theorem IsRelative.platformDirectory (relative : discovery.IsRelative) {version text : String}
    (named : discovery.platformDirectory? version = some text) :
    (Path.ofText text).absolute = false := by
  obtain ⟨name, _, rfl⟩ := Option.map_eq_some_iff.mp named
  have spelled : s!"{discovery.binary}-{name}-v{version}" =
      discovery.binary ++ ("-" ++ name ++ "-v" ++ version) := by
    simp [String.append_assoc, toString]
  rw [spelled]
  apply Path.ofText_append_relative relative.binary
  simp

namespace IsRelative

/-- All that is looked for in a directory of packages is reached through it. -/
theorem through (relative : discovery.IsRelative) (directory : Path) :
    let modules := modulesOf directory
    Path.Through modules (discovery.manifest modules) ∧
      (∀ version, ∀ binary ∈ discovery.platformBinary? modules version,
        Path.Through modules binary) ∧
      Path.Through modules (discovery.sharedBinary modules) := by
  intro modules
  have below : ∀ {path next : Path}, Path.Through modules path → next.absolute = false →
      Path.Through modules (path.join next) := by
    obtain ⟨absolute, outer, called⟩ := modulesOf_eq directory
    rw [show modules = _ from called]
    exact fun through relative => through.join (by decide) relative
  have itself : Path.Through modules modules := ⟨[], rfl⟩
  have package : Path.Through modules (discovery.packageDirectory modules) :=
    below itself relative.package
  have shared : Path.Through modules (modules.joinText ".bin") := below itself (by decide)
  refine ⟨?_, fun version binary named => ?_, below shared relative.binary⟩
  · exact below package (show (Path.ofText Project.marker).absolute = false by decide)
  · obtain ⟨text, located, rfl⟩ := Option.map_eq_some_iff.mp named
    exact below (below package (relative.platformDirectory located)) relative.binary

/-- Where there is a manifest of the package, there is a directory of packages. -/
theorem isDirectory (relative : discovery.IsRelative)
    (there : discovery.hasManifest disk directory) : disk.isDirectory (modulesOf directory) := by
  obtain ⟨absolute, outer, called⟩ := modulesOf_eq directory
  obtain ⟨⟨inner, spelled⟩, _⟩ := relative.through directory
  unfold hasManifest at there
  rw [called] at there spelled ⊢
  have marker : Path.ofText Project.marker = ⟨false, [Project.marker]⟩ := by decide
  -- The last name is that of the manifest, so the path goes on behind the directory.
  have further : inner ≠ [] := by
    rintro rfl
    obtain ⟨_, joined, _⟩ := Path.join_name
      (discovery.packageDirectory ⟨absolute, "node_modules" :: outer⟩) Project.marker
    rw [← marker] at joined
    have ends : some "node_modules" = some Project.marker :=
      congrArg (·.segments.head?) (spelled.symm.trans joined)
    exact absurd ends (by decide)
  rw [spelled] at there
  unfold Disk.isFile Disk.file? at there
  split at there
  · rename_i found
    exact Disk.isDirectory_of_lookup? (by decide) further found
  · cases there

/-- A package is installed where it has a manifest. -/
theorem isInstalled_eq (relative : discovery.IsRelative) (disk : Disk) (directory : Path) :
    discovery.isInstalled disk directory = discovery.hasManifest disk directory := by
  unfold isInstalled
  cases there : discovery.hasManifest disk directory with
  | true =>
    rw [relative.isDirectory there]
    exact there
  | false =>
    unfold hasManifest at there
    rw [there, Bool.and_false]

end IsRelative

/-- A directory without the package is passed, and one with it decides. -/
theorem inAncestors_cons (path : Path) (outer : List Path) :
    discovery.inAncestors disk (path :: outer) =
      if discovery.isInstalled disk path then discovery.inPackages disk (modulesOf path)
      else discovery.inAncestors disk outer := by
  by_cases directory : disk.isDirectory (modulesOf path)
  · refine Eq.trans (if_pos directory) ?_
    by_cases there : disk.isFile (discovery.manifest (modulesOf path))
    · rw [if_pos (by simp [isInstalled, directory, there])]
      -- A package that has a manifest is never taken for one that is not installed.
      have comes := comesTo_inPackages there
      split
      · rename_i skipped
        rw [skipped] at comes
        obtain ⟨_, found, _⟩ := comes.isFile
        cases found
      · rfl
    · have skipped : discovery.inPackages disk (modulesOf path) = .ok none := by
        simp [inPackages, there]
      rw [skipped, if_neg (by simp [isInstalled, there])]
  · refine Eq.trans (if_neg directory) ?_
    rw [if_neg (by simp [isInstalled, directory])]

/-- The first directory with the package decides. -/
theorem inAncestors_append {nearer further : List Path}
    (passed : ∀ path ∈ nearer, ¬discovery.isInstalled disk path)
    (there : discovery.isInstalled disk top) :
    discovery.inAncestors disk (nearer ++ top :: further) =
      discovery.inPackages disk (modulesOf top) := by
  induction nearer with
  | nil => rw [List.nil_append, inAncestors_cons, if_pos there]
  | cons path rest ih =>
    rw [List.cons_append, inAncestors_cons, if_neg (passed path (.head _))]
    exact ih fun other member => passed other (.tail _ member)

/-- Where no directory has the package, none decides. -/
theorem inAncestors_of_missing {directories : List Path}
    (missing : ∀ path ∈ directories, ¬discovery.isInstalled disk path) :
    discovery.inAncestors disk directories = .ok none := by
  induction directories with
  | nil => rfl
  | cons path rest ih =>
    rw [inAncestors_cons, if_neg (missing path (.head _))]
    exact ih fun other member => missing other (.tail _ member)

/-- All files that a package comes to its result by are reached through its directory of
packages. -/
theorem IsRelative.consulted_through (relative : discovery.IsRelative) (disk : Disk)
    (directory : Path) :
    ∀ path ∈ discovery.consulted disk (modulesOf directory),
      Path.Through (modulesOf directory) path := by
  obtain ⟨manifest, platform, shared⟩ := relative.through directory
  intro path member
  rcases List.mem_cons.mp member with rfl | member
  · exact manifest
  · rcases List.mem_cons.mp member with rfl | member
    · exact shared
    · obtain ⟨version, _, named⟩ := Option.bind_eq_some_iff.mp (Option.mem_toList.mp member)
      exact platform version path named

/-- A package comes to the same result on every disk that has the same files for it. -/
theorem inPackages_congr
    (same : ∀ path ∈ discovery.consulted disk modules, disk.file? path = other.file? path) :
    discovery.inPackages other modules = discovery.inPackages disk modules := by
  have alike : ∀ path ∈ discovery.consulted disk modules,
      other.isFile path = disk.isFile path := by
    intro path member
    rw [Disk.isFile, Disk.isFile, same path member]
  have manifest := alike _ (.head _)
  have shared := alike _ (.tail _ (.head _))
  have text : other.readText? (discovery.manifest modules) =
      disk.readText? (discovery.manifest modules) := by
    rw [Disk.readText?, Disk.readText?, same _ (.head _)]
  simp only [inPackages, manifest, shared, text]
  cases read : disk.readText? (discovery.manifest modules) with
  | none => rfl
  | some text =>
    cases versioned : Manifest.version? text with
    | none => simp only [versioned]
    | some version =>
      have own : (discovery.platformBinary? modules version).filter other.isFile =
          (discovery.platformBinary? modules version).filter disk.isFile := by
        cases named : discovery.platformBinary? modules version with
        | none => rfl
        | some binary =>
          have same := alike binary (by simp [consulted, read, versioned, named])
          simp only [Option.filter, same]
      simp only [versioned, own]

/-- What the nearest directory with a manifest decides is what is discovered. -/
theorem IsRelative.discover_eq (relative : discovery.IsRelative) (disk : Disk)
    (environment : Environment) {nearer further : List Path}
    (split : directory.ancestors = nearer ++ top :: further)
    (passed : ∀ path ∈ nearer, ¬discovery.hasManifest disk path)
    (there : discovery.hasManifest disk top) :
    discovery.discover disk environment directory =
      discovery.inPackages disk (modulesOf top) := by
  have decided : discovery.inAncestors disk directory.ancestors =
      discovery.inPackages disk (modulesOf top) := by
    rw [split]
    apply inAncestors_append
    · intro path member
      rw [relative.isInstalled_eq]
      exact passed path member
    · rw [relative.isInstalled_eq]
      exact there
  unfold discover
  rw [decided]
  -- The search path would be asked only after a result that no package with a manifest comes to.
  have comes : ComesTo discovery disk (modulesOf top) _ := comesTo_inPackages there
  split
  · rename_i nothing
    rw [nothing] at comes
    obtain ⟨_, found, _⟩ := comes.isFile
    cases found
  · rfl

/-- Where no directory has a manifest, the search path is asked if it may be. -/
theorem IsRelative.discover_of_missing (relative : discovery.IsRelative) (disk : Disk)
    (environment : Environment)
    (missing : ∀ path ∈ directory.ancestors, ¬discovery.hasManifest disk path) :
    discovery.discover disk environment directory =
      .ok (if discovery.searchPath then SearchPath.find? disk environment discovery.binary
        else none) := by
  have undecided : discovery.inAncestors disk directory.ancestors = .ok none := by
    refine inAncestors_of_missing fun path member => ?_
    rw [relative.isInstalled_eq]
    exact missing path member
  rw [discover, undecided]

/-- The nearest directory with a manifest of the package decides: on its platform binary, or else on
the shared one beside it, or else on a failure; a binary that it decides on is a file. It decides by
files that are reached through its directory of packages. Every disk that has the same of them, and
no manifest of the package in the directories before it, gives the same, so neither directories
further up nor the search path make up for a broken package. The search path is asked only if it
may be and no directory has a manifest of the package, and otherwise nothing is installed. -/
theorem nearest_package_decides (discovery : Discovery platform) (relative : discovery.IsRelative)
    (disk : Disk) (environment : Environment) (directory : Path) :
    (∀ nearer top further, directory.ancestors = nearer ++ top :: further →
      (∀ path ∈ nearer, ¬discovery.hasManifest disk path) → discovery.hasManifest disk top →
      (∀ result, discovery.discover disk environment directory = result ↔
        ComesTo discovery disk (modulesOf top) result) ∧
      (∀ found, discovery.discover disk environment directory = .ok found →
        ∃ binary, found = some binary ∧ disk.isFile binary) ∧
      (∀ path ∈ discovery.consulted disk (modulesOf top), Path.Through (modulesOf top) path) ∧
      (∀ other elsewhere,
        (∀ path ∈ discovery.consulted disk (modulesOf top), disk.file? path = other.file? path) →
        (∀ path ∈ nearer, ¬discovery.hasManifest other path) →
        discovery.discover other elsewhere directory =
          discovery.discover disk environment directory)) ∧
    ((∀ path ∈ directory.ancestors, ¬discovery.hasManifest disk path) →
      discovery.discover disk environment directory =
        .ok (if discovery.searchPath then SearchPath.find? disk environment discovery.binary
          else none)) ∧
    -- Where the variables of the process make a difference, the search path was asked.
    (∀ elsewhere, discovery.discover disk environment directory ≠
        discovery.discover disk elsewhere directory →
      discovery.searchPath ∧ ∀ path ∈ directory.ancestors, ¬discovery.hasManifest disk path) := by
  refine ⟨fun nearer top further split passed there => ?_,
    relative.discover_of_missing disk environment,
    fun elsewhere differs => ?_⟩
  · have decided := relative.discover_eq disk environment split passed there
    refine ⟨fun result => ?_, fun found discovered => ?_, relative.consulted_through disk top,
      fun other elsewhere same absent => ?_⟩
    · rw [decided]
      exact ⟨fun same => same ▸ comesTo_inPackages there, fun comes => comes.inPackages_eq there⟩
    · have comes : ComesTo discovery disk (modulesOf top) _ := comesTo_inPackages there
      rw [← decided, discovered] at comes
      exact comes.isFile
    · have thereToo : discovery.hasManifest other top := by
        unfold hasManifest Disk.isFile
        rw [← same _ (.head _)]
        exact there
      rw [decided, relative.discover_eq other elsewhere split absent thereToo,
        inPackages_congr same]
  · by_cases none : ∀ path ∈ directory.ancestors, ¬discovery.hasManifest disk path
    · refine ⟨?_, none⟩
      rw [relative.discover_of_missing disk environment none,
        relative.discover_of_missing disk elsewhere none] at differs
      by_contra unasked
      simp [unasked] at differs
    · -- Some directory has a manifest, and the nearest one decides in either environment.
      obtain ⟨_, member, there⟩ :
          ∃ path ∈ directory.ancestors, discovery.hasManifest disk path := by
        simpa using none
      obtain ⟨top, located⟩ := Option.isSome_iff_exists.mp
        (List.find?_isSome.mpr ⟨_, member, there⟩)
      obtain ⟨topThere, nearer, further, split, passed⟩ :=
        List.find?_eq_some_iff_append.mp located
      have absent : ∀ path ∈ nearer, ¬discovery.hasManifest disk path := by
        simpa using passed
      refine absurd ?_ differs
      rw [relative.discover_eq disk environment split absent topThere,
        relative.discover_eq disk elsewhere split absent topThere]

/-- A project whose package has a manifest, and whatever else is there. -/
def projectWith (manifest : String) (further : List (Location × Entry)) :
    List (Location × Entry) :=
  let modules := ["node_modules", "proj"]
  [(["proj"], .directory), (["src", "proj"], .directory), (modules, .directory),
    ("flow-bin" :: modules, .directory),
    ("package.json" :: "flow-bin" :: modules, .file ⟨Utf8.encode manifest, false, false⟩)] ++
    further

/-- A project whose package has a manifest that is no text of JSON. -/
def brokenProject : List (Location × Entry) := projectWith "[" []

/-- A manifest that gives a version. -/
def soundManifest : Json := .object [("name", .string "flow-bin"), ("version", .string "0.9.1")]

/-- A project whose package has a binary for the platform, beside the shared one. -/
def shippedProject : List (Location × Entry) :=
  let modules := ["node_modules", "proj"]
  projectWith soundManifest.pretty
    [("flow-linux64-v0.9.1" :: "flow-bin" :: modules, .directory),
      ("flow" :: "flow-linux64-v0.9.1" :: "flow-bin" :: modules, .file ⟨[], true, true⟩),
      (".bin" :: modules, .directory), ("flow" :: ".bin" :: modules, .file ⟨[], true, true⟩)]

/-- A project whose package has none but the shared binary. -/
def sharedProject : List (Location × Entry) :=
  let modules := ["node_modules", "proj"]
  projectWith soundManifest.pretty
    [(".bin" :: modules, .directory), ("flow" :: ".bin" :: modules, .file ⟨[], true, true⟩)]

/-- The package beside the project, with a manifest and a binary. -/
def soundPackage : List (Location × Entry) :=
  let modules := ["node_modules"]
  [(modules, .directory), ("flow-bin" :: modules, .directory),
    ("package.json" :: "flow-bin" :: modules, .file ⟨Utf8.encode "\x7b\x7d", false, false⟩),
    (".bin" :: modules, .directory), ("flow" :: ".bin" :: modules, .file ⟨[], true, true⟩)]

/-- For all that is in a project its package decides, although there is a sound one further up: on
its binary for the platform, on the shared one where there is no other, and on a failure where the
manifest is broken, also without the package further up and whatever the search path is. -/
theorem nearest_package_decides_project :
    let discovery : Discovery := ⟨"flow-bin", "flow", true⟩
    let found (project : List (Location × Entry)) :=
      discovery.discover ⟨⟨project ++ soundPackage⟩, []⟩ ⟨[]⟩ ⟨true, ["src", "proj"]⟩
    discovery.discover ⟨⟨soundPackage⟩, []⟩ ⟨[]⟩ ⟨true, []⟩ =
        .ok (some ⟨true, ["flow", ".bin", "node_modules"]⟩) ∧
      found shippedProject = .ok (some ⟨true,
        ["flow", "flow-linux64-v0.9.1", "flow-bin", "node_modules", "proj"]⟩) ∧
      found sharedProject = .ok (some ⟨true, ["flow", ".bin", "node_modules", "proj"]⟩) ∧
      found brokenProject =
        .error (.malformed ⟨true, ["package.json", "flow-bin", "node_modules", "proj"]⟩) ∧
      ∀ elsewhere, discovery.discover ⟨⟨brokenProject⟩, []⟩ elsewhere ⟨true, ["src", "proj"]⟩ =
        found brokenProject := by
  intro discovery found
  let disk (project : List (Location × Entry)) : Disk := ⟨⟨project ++ soundPackage⟩, []⟩
  have relative : discovery.IsRelative := ⟨by decide, by decide⟩
  -- The project is the nearest directory with a manifest, whatever its package holds.
  have nearest (project : List (Location × Entry)) :=
    (nearest_package_decides discovery relative (disk project) ⟨[]⟩ ⟨true, ["src", "proj"]⟩).1
      [⟨true, ["src", "proj"]⟩] ⟨true, ["proj"]⟩ [⟨true, []⟩] (by decide)
  have printable : Json.Printable 1 soundManifest :=
    .record (by decide) ⟨.string 0 _, .string 0 _⟩
  have sound : Manifest.Gives soundManifest.pretty "0.9.1" :=
    Manifest.version?_eq_some_iff.mp (Manifest.version?_pretty printable)
  have manifest : discovery.manifest (modulesOf ⟨true, ["proj"]⟩) =
    ⟨true, ["package.json", "flow-bin", "node_modules", "proj"]⟩ := by decide
  have binary : discovery.sharedBinary (modulesOf ⟨true, ["proj"]⟩) =
    ⟨true, ["flow", ".bin", "node_modules", "proj"]⟩ := by decide
  -- What each package holds is read off the disk.
  obtain ⟨shipped, -⟩ := nearest shippedProject (by decide +kernel) (by decide +kernel)
  obtain ⟨shared, -⟩ := nearest sharedProject (by decide +kernel) (by decide +kernel)
  obtain ⟨broken, -, -, alone⟩ := nearest brokenProject (by decide +kernel) (by decide +kernel)
  refine ⟨by decide +kernel, (shipped _).mpr ?_, (shared _).mpr ?_, (broken _).mpr ?_,
    fun elsewhere => ?_⟩
  · exact .platform (by decide +kernel) sound (by decide +kernel) (by decide +kernel)
  · rw [← binary]
    exact .shared (by decide +kernel) sound (by decide +kernel) (by decide +kernel)
  · have read : (disk brokenProject).readText?
        (discovery.manifest (modulesOf ⟨true, ["proj"]⟩)) = some "[" := by decide +kernel
    rw [← manifest]
    exact .malformed read (Manifest.version?_eq_none_iff.mp (by decide +kernel))
  · exact alone _ elsewhere (by decide +kernel) (by decide +kernel)

end Discovery

end FlowService
