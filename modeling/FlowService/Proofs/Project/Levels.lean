import FlowService.Proofs.Project.Filling

/-!
The chain of a directory goes up as many levels along the spelling of the directory as lie between
the real directory and the root of its project.
-/

namespace FlowService.Locator

variable {disk : Disk} {directory path root : Path} {reals : List Path} {given : Option Path}

/-- How many directories there are from a directory up to the root of its project. -/
def levels (disk : Disk) (directory : Path) : Nat :=
  -- The root is counted as well.
  (realPath disk directory).ancestors.findIdx (·.sameAs (rootAround disk directory)) + 1

/-- What a directory and all above it along its spelling stand for, if there is a directory. -/
def spellings (given : Option Path) : List (List Component) :=
  (given.map fun path => Path.outward path.trail).getD []

/-- Along a spelling come the directory and then what is above the directory that it lies in. -/
theorem spellings_some (path : Path) :
    spellings (some path) = path.trail :: spellings path.parent? := by
  have above : (path.parent?.map fun path => Path.outward path.trail) =
      (Path.around path.trail).map Path.outward := by
    rw [← path.parent?_trail, Option.map_map]
    rfl
  unfold spellings
  rw [Option.map_some, Option.getD_some, Path.outward_eq, above]

/-- Going up lists the real directories as far as the root, and as many spelled ones. -/
theorem mem_chainUp_iff (within : ∃ real ∈ reals, real.sameAs root)
    {listed : List Component} :
    listed ∈ (chainUp root reals given).map Path.trail ↔
      listed ∈ (reals.take (reals.findIdx (·.sameAs root) + 1)).map Path.trail ∨
        listed ∈ (spellings given).take (reals.findIdx (·.sameAs root) + 1) := by
  -- The induction is on the real directories; each of them takes one spelled directory with it.
  induction reals generalizing given with
  | nil =>
    obtain ⟨real, member, _⟩ := within
    cases member
  | cons real outer ih =>
    have here : listed ∈ (real :: given.toList.filter (!·.sameAs real)).map Path.trail ↔
        listed = real.trail ∨ listed ∈ (spellings given).take 1 := by
      rw [List.map_cons, List.mem_cons, filter_sameAs_trail]
      cases given with
      | none => simp [spellings]
      | some path =>
        rw [spellings_some]
        by_cases same : path.trail = real.trail <;> simp [same]
    rw [chainUp_cons, List.map_append, List.mem_append, here, List.findIdx_cons]
    cases top : real.sameAs root with
    | true => simp
    | false =>
      have further : ∃ real ∈ outer, real.sameAs root := by
        obtain ⟨other, member, same⟩ := within
        rcases List.mem_cons.mp member with rfl | behind
        · rw [top] at same
          cases same
        · exact ⟨other, behind, same⟩
      have onwards : listed ∈ (chainUp root outer (given.bind Path.parent?)).map Path.trail ↔ _ :=
        ih further
      simp only [Bool.false_eq_true, if_false, cond_false, List.take_succ_cons, List.map_cons,
        List.mem_cons]
      rw [onwards]
      cases given with
      | none => simp [spellings]
      | some path =>
        rw [spellings_some, Option.bind_some]
        simp only [List.take_succ_cons, List.mem_cons, List.take_zero, List.not_mem_nil, or_false]
        -- The real directories and the spelled ones are sorted apart.
        exact or_or_or_comm

/-- The chain of a directory lists as many directories along its spelling as there are real ones up
to the root of its project. -/
theorem listed_iff_levels : Listed (chain disk directory) path ↔
    Listed ((realPath disk directory).ancestors.take (levels disk directory)) path ∨
      Listed (directory.ancestors.take (levels disk directory)) path := by
  have within : ∃ real ∈ (realPath disk directory).ancestors,
      real.sameAs (rootAround disk directory) :=
    ⟨_, rootAround_mem disk directory, Path.sameAs_iff.mpr rfl⟩
  have spelled : (directory.ancestors.take (levels disk directory)).map Path.trail =
      (spellings (some directory)).take (levels disk directory) := by
    rw [List.map_take, Path.ancestors_trail]
    rfl
  rw [listed_iff, listed_iff, listed_iff, spelled]
  exact mem_chainUp_iff within

end FlowService.Locator
