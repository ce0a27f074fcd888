import FlowService.Proofs.Project.Installed
import FlowService.Proofs.Project.Lookups
import FlowService.Proofs.Project.Plain

/-!
A locator answers for a directory with the lookup of another one that shares its answer. Nobody
notices as long as no package is installed between a directory and the root of its project.
-/

namespace FlowService.Locator

variable {platform : Option String} {discovery : Discovery platform} {disk : Disk}
variable {environment : Environment}

/-- The first verdict is the same along directories that stand for the same. -/
theorem findSome?_verdict?_trail {paths others : List Path}
    (same : paths.map Path.trail = others.map Path.trail) :
    (paths.findSome? (discovery.verdict? disk)).map (·.map Path.trail) =
      (others.findSome? (discovery.verdict? disk)).map (·.map Path.trail) := by
  -- Both lists have as many paths, so they are gone through in step.
  induction paths generalizing others with
  | nil => rw [List.map_eq_nil_iff.mp same.symm]
  | cons path rest ih =>
    obtain ⟨first, behind, rfl, firstSame, restSame⟩ := List.map_eq_cons_iff.mp same.symm
    have here : (discovery.verdict? disk first).map (·.map Path.trail) =
        (discovery.verdict? disk path).map (·.map Path.trail) := Discovery.verdict?_congr firstSame
    rw [List.findSome?_cons, List.findSome?_cons]
    cases theirs : discovery.verdict? disk first with
    | none =>
      rw [theirs] at here
      rw [Option.map_eq_none_iff.mp here.symm]
      exact ih restSame.symm
    | some verdict =>
      rw [theirs] at here
      obtain ⟨mine, located, agrees⟩ := Option.map_eq_some_iff.mp here.symm
      rw [located]
      exact congrArg some agrees

/-- The package is installed in no directory of a chain but the root of the project. -/
def Undivided (discovery : Discovery platform) (disk : Disk) (directory : Path) : Prop :=
  ∀ member ∈ chain disk directory, discovery.isInstalled disk member →
    member.sameAs (rootAround disk directory)

/-- Directories that share an answer in an undivided project have lookups that agree. -/
theorem sameAnswer_of_shares {one other : Path} (plain : Plain disk one)
    (undivided : Undivided discovery disk one) (shared : shares disk one other) :
    SameAnswer (discovery.discovered? disk environment one)
      (discovery.discovered? disk environment other) := by
  -- The lookup of the one passes directories that do not decide, and goes on like the other's.
  obtain ⟨below, above, split, sameAbove, passed⟩ := split_of_shared plain (shares_iff.mp shared)
  have silent : below.findSome? (discovery.verdict? disk) = none := by
    refine List.findSome?_eq_none_iff.mpr fun path member => ?_
    obtain ⟨listed, apart⟩ := passed path member
    obtain ⟨entry, entryMember, spelling⟩ := List.mem_map.mp listed
    have missing : ¬discovery.isInstalled disk path := by
      intro installed
      rw [← Discovery.isInstalled_congr spelling] at installed
      exact apart (spelling.symm.trans (Path.sameAs_iff.mp (undivided entry entryMember installed)))
    rw [← Option.not_isSome_iff_eq_none, Discovery.isSome_verdict?]
    exact missing
  have verdicts : (above.findSome? (discovery.verdict? disk)).map (·.map Path.trail) = _ :=
    findSome?_verdict?_trail sameAbove
  unfold SameAnswer
  rw [Discovery.discovered?_eq, Discovery.discovered?_eq, split, List.findSome?_append, silent,
    Option.none_or]
  generalize above.findSome? (discovery.verdict? disk) = mine at verdicts
  generalize other.ancestors.findSome? (discovery.verdict? disk) = theirs at verdicts
  cases mine <;> cases theirs <;> simp_all

/-- On a disk that stays as it is, every answer is what the lookup gives of the latest directory
that was really looked up and shares its answer, or of the directory itself if there is none. Such
answers are those of the directories' own lookups exactly if directories that share an answer have
lookups that agree; so it is where paths lead through no links and no package is installed between
a directory and the root of its project. -/
theorem answers_come_from_shared_lookups (disk : Disk) (discovery : Discovery platform)
    (environment : Environment) :
    (∀ calls source directory,
      answer disk (discovery.discovered? disk environment) calls source directory =
        discovery.discovered? disk environment (asker disk (calls.map (·.2)) directory)) ∧
    (∀ directories directory, asker disk directories directory = directory ∨
      asker disk directories directory ∈ directories ∧
        shares disk (asker disk directories directory) directory) ∧
    (∀ asked, Transparent disk (discovery.discovered? disk environment) asked ↔
      ∀ one ∈ asked, ∀ other ∈ asked, shares disk one other →
        SameAnswer (discovery.discovered? disk environment one)
          (discovery.discovered? disk environment other)) ∧
    (∀ asked : Set Path,
      (∀ directory ∈ asked, Plain disk directory ∧ Undivided discovery disk directory) →
        Transparent disk (discovery.discovered? disk environment) asked) := by
  refine ⟨answer_eq, asker_cases disk, transparent_iff, fun asked fine => ?_⟩
  refine (transparent_iff asked).mpr fun one oneAsked other _ shared => ?_
  exact sameAnswer_of_shares (fine one oneAsked).1 (fine one oneAsked).2 shared

/-- The package and the binary that are looked for. -/
def flowPackage : Discovery := ⟨"flow-bin", "flow", false⟩

/-- A project with one directory, and the package installed in a place of it. -/
def installedAt (place : Location) : Disk :=
  let modules := "node_modules" :: place
  ⟨⟨[(["proj"], .directory), (["package.json", "proj"], .file ⟨[], false, false⟩),
    (["src", "proj"], .directory), (modules, .directory), ("flow-bin" :: modules, .directory),
    -- The manifest is an object without members.
    ("package.json" :: "flow-bin" :: modules, .file ⟨[123, 125], false, false⟩),
    (".bin" :: modules, .directory), ("flow" :: ".bin" :: modules, .file ⟨[], true, true⟩)]⟩, []⟩

/-- Where the package is installed below the root of the project, the root gets the binary of that
directory once it was looked up there, although its own lookup finds nothing. -/
theorem answer_of_nested_package :
    let disk := installedAt ["src", "proj"]
    let discover := flowPackage.discovered? disk ⟨[]⟩
    answer disk discover [(.manual, ⟨true, ["src", "proj"]⟩)] .manual ⟨true, ["proj"]⟩ =
        some ⟨true, ["flow", ".bin", "node_modules", "src", "proj"]⟩ ∧
      discover ⟨true, ["proj"]⟩ = none := by
  decide +kernel

/-- Where it is installed in the root, both directories get the binary of the root in any order. -/
theorem answers_come_from_shared_lookups_in_undivided_project :
    let disk := installedAt ["proj"]
    Transparent disk (flowPackage.discovered? disk ⟨[]⟩)
      {⟨true, ["proj"]⟩, ⟨true, ["src", "proj"]⟩} := by
  refine (answers_come_from_shared_lookups _ flowPackage _).2.2.2 _ fun directory asked => ?_
  rcases asked with rfl | rfl
  · exact ⟨by unfold Plain; decide +kernel, by unfold Undivided; decide +kernel⟩
  · exact ⟨by unfold Plain; decide +kernel, by unfold Undivided; decide +kernel⟩

end FlowService.Locator
