import FlowService.Feature.Diagnostics
import FlowService.Proofs.Path.Comparison
import Mathlib.Data.List.Induction
import Mathlib.Data.List.Nodup

/-!
Diagnostics are gathered file by file, and each file gets one group whatever the order in which the
groups are handed on. Sorting puts any such groups into the one order that is wanted.
-/

namespace FlowService.DiagnosticsReport

/-- A diagnostic with the path of the file that it points at. -/
abbrev Finding := Path × Diagnostic

/-- A file with the diagnostics that point at it. -/
abbrev Group := Path × List Diagnostic

/-- The diagnostics of a file among some findings, in their order. -/
def ofFile (found : List Finding) (path : Path) : List Diagnostic :=
  (found.filter (·.1.sameAs path)).map (·.2)

/-- Some findings gathered file by file. -/
def gather (found : List Finding) : List Group :=
  found.foldl (fun files entry => add files entry.1 entry.2) []

/-- Each file that is found has one group, named as it is spelled first, with its diagnostics. -/
structure Gathered (found : List Finding) (files : List Group) : Prop where
  distinct : files.Pairwise fun left right => ¬left.1.sameAs right.1
  contents : ∀ group ∈ files, group.2 = ofFile found group.1
  named : ∀ group ∈ files, (found.find? (·.1.sameAs group.1)).map (·.1) = some group.1
  complete : ∀ entry ∈ found, ∃ group ∈ files, group.1.sameAs entry.1

/-- One of the diagnostics of a group is an error. -/
def HoldsError (group : Group) : Prop := ∃ diagnostic ∈ group.2, diagnostic.severity = .error

/-- A group comes before another one: those with errors first, and within each kind by path. -/
def Before (left right : Group) : Prop :=
  (HoldsError left ∧ ¬HoldsError right) ∨
    ((HoldsError left ↔ HoldsError right) ∧ left.1.compare right.1 = .lt)

/-- A group has errors exactly if one of its diagnostics is an error. -/
theorem hasErrors_iff {group : Group} : hasErrors group ↔ HoldsError group := by
  have isError : ∀ severity : Severity, severity.isError ↔ severity = .error := by
    intro severity
    cases severity <;> simp [Severity.isError]
  simp only [hasErrors, HoldsError, List.any_eq_true, isError]

/-- A path stands for the same thing as itself. -/
theorem sameAs_refl (path : Path) : path.sameAs path := Path.sameAs_iff.mpr rfl

/-- Two paths that stand for the same thing do so in either order. -/
theorem sameAs_symm {left right : Path} (same : left.sameAs right) : right.sameAs left :=
  Path.sameAs_iff.mpr (Path.sameAs_iff.mp same).symm

/-- What a path stands for the same as does not depend on its spelling. -/
theorem sameAs_left {left right : Path} (same : left.sameAs right) (other : Path) :
    other.sameAs left = other.sameAs right :=
  Path.sameAs_congr rfl (Path.sameAs_iff.mp same)

/-- One more finding goes to the diagnostics of its own file. -/
theorem ofFile_concat (found : List Finding) (entry : Finding) (path : Path) :
    ofFile (found ++ [entry]) path =
      ofFile found path ++ if entry.1.sameAs path then [entry.2] else [] := by
  unfold ofFile
  rw [List.filter_append, List.map_append]
  congr 1
  by_cases same : entry.1.sameAs path <;> simp [same]

/-- A file with a group has something that points at it. -/
theorem Gathered.nonempty {found : List Finding} {files : List Group}
    (gathered : Gathered found files) {group : Group} (member : group ∈ files) :
    group.2 ≠ [] := by
  -- The group is named after a finding, which is therefore among its diagnostics.
  obtain ⟨entry, located, _⟩ := Option.map_eq_some_iff.mp (gathered.named group member)
  have same := List.find?_some located
  have pointing : entry ∈ found.filter (·.1.sameAs group.1) :=
    List.mem_filter.mpr ⟨List.mem_of_find?_eq_some located, same⟩
  rw [gathered.contents group member]
  exact List.ne_nil_of_mem (List.mem_map_of_mem pointing)

/-- Groups stay gathered when a diagnostic is added to a file that has a group. -/
theorem Gathered.add_known {found : List Finding} {files : List Group}
    (gathered : Gathered found files) {entry : Finding}
    (known : files.any (·.1.sameAs entry.1)) :
    Gathered (found ++ [entry]) (add files entry.1 entry.2) := by
  -- No group is renamed, and only that of the file grows.
  have grown : add files entry.1 entry.2 = files.map fun group =>
      (group.1, group.2 ++ if entry.1.sameAs group.1 then [entry.2] else []) := by
    rw [add, if_pos known]
    apply List.map_congr_left
    intro group _
    have turned : group.1.sameAs entry.1 = entry.1.sameAs group.1 := by
      rw [Bool.eq_iff_iff]
      exact ⟨sameAs_symm, sameAs_symm⟩
    rw [turned]
    split <;> simp
  rw [grown]
  constructor
  · rw [List.pairwise_map]
    exact gathered.distinct
  · intro group member
    obtain ⟨before, beforeMember, rfl⟩ := List.mem_map.mp member
    rw [ofFile_concat, ← gathered.contents before beforeMember]
  · intro group member
    obtain ⟨before, beforeMember, rfl⟩ := List.mem_map.mp member
    -- The first spelling was found before the new finding came.
    have first := gathered.named before beforeMember
    obtain ⟨earliest, located, _⟩ := Option.map_eq_some_iff.mp first
    show ((found ++ [entry]).find? (·.1.sameAs before.1)).map (·.1) = some before.1
    rw [List.find?_append, located, Option.some_or, ← located]
    exact first
  · intro other member
    have held : ∃ group ∈ files, group.1.sameAs other.1 := by
      rcases List.mem_append.mp member with earlier | latest
      · exact gathered.complete other earlier
      · rw [List.mem_singleton.mp latest]
        exact List.any_eq_true.mp known
    obtain ⟨group, groupMember, same⟩ := held
    exact ⟨_, List.mem_map_of_mem groupMember, same⟩

/-- Groups stay gathered when a file gets its first diagnostic. -/
theorem Gathered.add_unknown {found : List Finding} {files : List Group}
    (gathered : Gathered found files) {entry : Finding}
    (unknown : ¬files.any (·.1.sameAs entry.1)) :
    Gathered (found ++ [entry]) (add files entry.1 entry.2) := by
  have apart : ∀ group ∈ files, ¬group.1.sameAs entry.1 := fun group member same =>
    unknown (List.any_eq_true.mpr ⟨group, member, same⟩)
  -- Nothing that was found before points at the file, for else it would have a group.
  have unseen : ∀ other ∈ found, ¬other.1.sameAs entry.1 := by
    intro other member same
    obtain ⟨group, groupMember, groupSame⟩ := gathered.complete other member
    apply apart group groupMember
    rw [← sameAs_left same]
    exact groupSame
  rw [add, if_neg unknown]
  constructor
  · rw [List.pairwise_append]
    refine ⟨gathered.distinct, List.pairwise_singleton _ _, ?_⟩
    intro group member other new
    rw [List.mem_singleton.mp new]
    exact apart group member
  · intro group member
    rw [ofFile_concat]
    rcases List.mem_append.mp member with old | new
    · have other : ¬entry.1.sameAs group.1 := fun same => apart group old (sameAs_symm same)
      rw [if_neg other, List.append_nil]
      exact gathered.contents group old
    · rw [List.mem_singleton.mp new]
      have nothing : ofFile found entry.1 = [] := by
        unfold ofFile
        rw [List.map_eq_nil_iff, List.filter_eq_nil_iff]
        exact unseen
      rw [nothing, if_pos (sameAs_refl _)]
      rfl
  · intro group member
    rcases List.mem_append.mp member with old | new
    · have first := gathered.named group old
      obtain ⟨earliest, located, _⟩ := Option.map_eq_some_iff.mp first
      rw [List.find?_append, located, Option.some_or, ← located]
      exact first
    · rw [List.mem_singleton.mp new]
      have missing : found.find? (·.1.sameAs entry.1) = none := List.find?_eq_none.mpr unseen
      rw [List.find?_append, missing, Option.none_or]
      simp [sameAs_refl]
  · intro other member
    rcases List.mem_append.mp member with earlier | latest
    · obtain ⟨group, groupMember, same⟩ := gathered.complete other earlier
      exact ⟨group, List.mem_append_left _ groupMember, same⟩
    · rw [List.mem_singleton.mp latest]
      exact ⟨_, List.mem_append_right _ (List.mem_singleton_self _), sameAs_refl _⟩

/-- What is gathered from some findings has one group for each file. -/
theorem gathered_gather (found : List Finding) : Gathered found (gather found) := by
  -- The induction is on the findings from their end, since each is added to what came before.
  induction found using List.reverseRecOn with
  | nil => exact ⟨List.Pairwise.nil, nofun, nofun, nofun⟩
  | append_singleton found entry ih =>
    have last : gather (found ++ [entry]) = add (gather found) entry.1 entry.2 := by
      rw [gather, List.foldl_append]
      rfl
    rw [last]
    by_cases known : (gather found).any (·.1.sameAs entry.1)
    · exact ih.add_known known
    · exact ih.add_unknown known

/-- Groups are the same in whichever way the findings are gathered. -/
theorem Gathered.mem {found : List Finding} {files others : List Group}
    (gathered : Gathered found files) (regathered : Gathered found others) {group : Group}
    (member : group ∈ files) : group ∈ others := by
  obtain ⟨entry, located, spelled⟩ := Option.map_eq_some_iff.mp (gathered.named group member)
  obtain ⟨other, otherMember, same⟩ :=
    regathered.complete entry (List.mem_of_find?_eq_some located)
  rw [spelled] at same
  -- Both groups are named as the file is spelled first, and hold all that points at it.
  have spelling := regathered.named other otherMember
  simp only [sameAs_left same] at spelling
  have name : group.1 = other.1 :=
    Option.some.inj ((gathered.named group member).symm.trans spelling)
  have held : group.2 = other.2 := by
    rw [gathered.contents group member, regathered.contents other otherMember, name]
  rw [Prod.ext name held]
  exact otherMember

/-- No group comes twice. -/
theorem Gathered.nodup {found : List Finding} {files : List Group}
    (gathered : Gathered found files) : files.Nodup := by
  apply gathered.distinct.imp
  rintro left right apart rfl
  exact apart (sameAs_refl _)

/-- In whichever way findings are gathered, the groups are the same up to their order. -/
theorem Gathered.perm {found : List Finding} {files others : List Group}
    (gathered : Gathered found files) (regathered : Gathered found others) :
    files.Perm others := by
  rw [List.perm_ext_iff_of_nodup gathered.nodup regathered.nodup]
  intro group
  exact ⟨gathered.mem regathered, regathered.mem gathered⟩

/-- Groups stay gathered in any order. -/
theorem Gathered.of_perm {found : List Finding} {files others : List Group}
    (gathered : Gathered found files) (same : others.Perm files) : Gathered found others := by
  constructor
  · -- Being different is the same in both directions.
    apply gathered.distinct.perm same.symm
    intro left right apart turned
    exact apart (sameAs_symm turned)
  · exact fun group member => gathered.contents group (same.subset member)
  · exact fun group member => gathered.named group (same.subset member)
  · intro entry member
    obtain ⟨group, groupMember, spelling⟩ := gathered.complete entry member
    exact ⟨group, same.symm.subset groupMember, spelling⟩

/-- Of two groups at least one may come first. -/
theorem notAfter_total (left right : Group) : notAfter left right || notAfter right left := by
  have turned : right.1.compare left.1 = (left.1.compare right.1).swap := Std.OrientedCmp.eq_swap
  unfold notAfter
  rw [turned]
  cases hasErrors left <;> cases hasErrors right <;> cases left.1.compare right.1 <;> rfl

/-- A group that may come before another one may come before all that follow it. -/
theorem notAfter_trans (left middle right : Group) (first : notAfter left middle)
    (second : notAfter middle right) : notAfter left right := by
  have paths : (left.1.compare middle.1).isLE → (middle.1.compare right.1).isLE →
      (left.1.compare right.1).isLE := Std.TransCmp.isLE_trans
  unfold notAfter at first second ⊢
  -- Within one kind the paths decide, and between the kinds the errors do.
  cases one : hasErrors left <;> cases two : hasErrors middle <;> cases three : hasErrors right <;>
    simp_all

/-- A group that may come before that of another file comes before it. -/
theorem before_of_notAfter {left right : Group} (apart : ¬left.1.sameAs right.1)
    (inOrder : notAfter left right) : Before left right := by
  unfold notAfter at inOrder
  unfold Before
  rw [← hasErrors_iff, ← hasErrors_iff]
  by_cases alike : hasErrors left = hasErrors right
  · -- The paths are not the same, so one of them is the lesser.
    rw [if_pos (beq_iff_eq.mpr alike)] at inOrder
    apply Or.inr
    refine ⟨by rw [alike], ?_⟩
    cases order : left.1.compare right.1 with
    | lt => rfl
    | eq => exact absurd (Path.compare_eq_iff.mp order) apart
    | gt =>
      rw [order] at inOrder
      cases inOrder
  · rw [if_neg (mt beq_iff_eq.mp alike)] at inOrder
    exact Or.inl ⟨inOrder, fun errors => alike (inOrder.trans errors.symm)⟩

/-- No group comes before one that comes before it. -/
theorem Before.asymm {left right : Group} (before : Before left right) : ¬Before right left := by
  have turned : right.1.compare left.1 = (left.1.compare right.1).swap := Std.OrientedCmp.eq_swap
  unfold Before at before ⊢
  rw [turned]
  rcases before with ⟨errors, clean⟩ | ⟨alike, less⟩
  · simp [errors, clean]
  · rw [less]
    simp [alike]

/-- Sorting puts the groups of different files into the order that is wanted. -/
theorem Gathered.pairwise_mergeSort {found : List Finding} {files : List Group}
    (gathered : Gathered found files) : (files.mergeSort notAfter).Pairwise Before := by
  have inOrder := List.pairwise_mergeSort notAfter_trans notAfter_total files
  have apart := (gathered.of_perm (List.mergeSort_perm files notAfter)).distinct
  exact (apart.and inOrder).imp fun both => before_of_notAfter both.1 both.2

/-- There is one order of some groups that is wanted, and sorting leads to it from any order. -/
theorem Gathered.mergeSort_eq {found : List Finding} {files sorted : List Group}
    (gathered : Gathered found files) (same : files.Perm sorted)
    (ordered : sorted.Pairwise Before) : files.mergeSort notAfter = sorted := by
  apply ((List.mergeSort_perm files notAfter).trans same).eq_of_pairwise _
    gathered.pairwise_mergeSort ordered
  intro left right _ _ before after
  exact absurd after before.asymm

end FlowService.DiagnosticsReport
