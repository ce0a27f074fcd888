import FlowService.Proofs.Path.Spelling
import FlowService.Project.Locator
import Mathlib.Data.List.Nodup

/-! A table of paths holds one value for all spellings of a path. -/

namespace FlowService.Locator

variable {α : Type}

/-- Some spelling of a path is among the given ones. -/
def Listed (paths : List Path) (path : Path) : Prop := ∃ entry ∈ paths, entry.sameAs path

/-- Being listed only depends on what paths stand for. -/
theorem listed_iff {paths : List Path} {path : Path} :
    Listed paths path ↔ path.trail ∈ paths.map Path.trail := by
  simp [Listed, Path.sameAs_iff]

/-- A path that is not listed is neither the first nor among the others. -/
theorem listed_cons {first path : Path} {others : List Path} :
    Listed (first :: others) path ↔ first.sameAs path ∨ Listed others path := by
  simp [Listed]

/-- A value that is found stands in the table. -/
theorem mem_of_lookup {table : List (Path × α)} {path : Path} {value : α}
    (found : lookup table path = some value) :
    ∃ key, (key, value) ∈ table ∧ key.sameAs path := by
  -- Its key may be another spelling of the path.
  obtain ⟨entry, located, rfl⟩ := Option.map_eq_some_iff.mp found
  have same := List.find?_some located
  exact ⟨entry.1, List.mem_of_find?_eq_some located, same⟩

/-- Looking for a path in a table without another one. -/
theorem lookup_forget (table : List (Path × α)) (gone path : Path) :
    lookup (forget table gone) path = if gone.sameAs path then none else lookup table path := by
  -- An entry under a spelling of the sought path goes exactly if that path is the one to go.
  induction table with
  | nil => simp [lookup, forget]
  | cons entry rest ih =>
    unfold lookup forget at ih ⊢
    have trails : ∀ one other : Path, one.sameAs other = decide (one.trail = other.trail) :=
      fun one other => by rw [Bool.eq_iff_iff, Path.sameAs_iff, decide_eq_true_iff]
    simp only [trails] at ih ⊢
    by_cases here : entry.1.trail = gone.trail
    · by_cases sought : gone.trail = path.trail
      · simp [sought]
      · simpa [here, sought, List.find?_cons] using ih
    · by_cases sought : entry.1.trail = path.trail
      · have other : ¬gone.trail = path.trail := fun same => here (sought.trans same.symm)
        have kept : ¬path.trail = gone.trail := fun same => other same.symm
        simp [sought, other, kept]
      · simpa [here, sought, List.find?_cons] using ih

/-- Looking for a path in a table with a value for another one. -/
theorem lookup_remember (table : List (Path × α)) (set path : Path) (value : α) :
    lookup (remember table set value) path =
      if set.sameAs path then some value else lookup table path := by
  -- The new entry comes behind all others, none of which is under its path any more.
  have rest := lookup_forget table set path
  unfold remember lookup at *
  rw [List.find?_append, Option.map_or, rest]
  by_cases same : set.sameAs path <;> simp [same]

/-- A change that is made for all paths of a list concerns those paths and no others. -/
theorem lookup_foldl {change : List (Path × α) → Path → List (Path × α)} {held : Option α}
    (changes : ∀ table set path, lookup (change table set) path =
      if set.sameAs path then held else lookup table path)
    (table : List (Path × α)) (paths : List Path) (path : Path) :
    (Listed paths path → lookup (paths.foldl change table) path = held) ∧
      (¬Listed paths path → lookup (paths.foldl change table) path = lookup table path) := by
  -- A path that is not listed later on keeps what its last change gave it.
  induction paths generalizing table with
  | nil => simp [Listed]
  | cons first others ih =>
    obtain ⟨set, kept⟩ := ih (change table first)
    rw [listed_cons]
    constructor
    · intro listed
      by_cases later : Listed others path
      · exact set later
      · have here := listed.resolve_right later
        rw [List.foldl_cons, kept later, changes, if_pos here]
    · intro unlisted
      obtain ⟨elsewhere, later⟩ := not_or.mp unlisted
      rw [List.foldl_cons, kept later, changes, if_neg elsewhere]

/-- What is known after a purge was known before and is not among what was purged. -/
theorem lookup_of_purge {cache : List (Path × Option Path)} {paths : List Path} {path : Path}
    {answer : Option Path} (known : lookup (purge cache paths) path = some answer) :
    ¬Listed paths path ∧ lookup cache path = some answer := by
  -- A path that is among what was purged is not known any more.
  obtain ⟨gone, kept⟩ := lookup_foldl lookup_forget cache paths path
  have unlisted : ¬Listed paths path := by
    intro listed
    have none := gone listed
    unfold purge at known
    simp [known] at none
  exact ⟨unlisted, (kept unlisted).symm.trans known⟩

/-- All paths of a list get a value, and all else stays. -/
theorem lookup_rememberAll (table : List (Path × α)) (paths : List Path) (value : α)
    (path : Path) :
    (Listed paths path →
      lookup (paths.foldl (fun table entry => remember table entry value) table) path =
        some value) ∧
      (¬Listed paths path →
        lookup (paths.foldl (fun table entry => remember table entry value) table) path =
          lookup table path) :=
  lookup_foldl (fun table set path => lookup_remember table set path value) table paths path

/-- The value that is found stays when entries with other values are dropped. -/
theorem lookup_filter {table : List (Path × α)} {path : Path} {value : α} (keep : α → Bool)
    (found : lookup table path = some value) (kept : keep value) :
    lookup (table.filter (keep ·.2)) path = some value := by
  -- The entries in front of the one that is found are for other paths, whether kept or dropped.
  obtain ⟨entry, located, rfl⟩ := Option.map_eq_some_iff.mp found
  refine Option.map_eq_some_iff.mpr ⟨entry, ?_, rfl⟩
  rw [List.find?_filter]
  obtain ⟨same, before, behind, rfl, others⟩ := List.find?_eq_some_iff_append.mp located
  refine List.find?_eq_some_iff_append.mpr ⟨by simp [same, kept], before, behind, rfl, ?_⟩
  intro other member
  simp [others other member]

/-- Where no value stands under two paths, paths with one value stand for the same. -/
theorem trail_eq_of_mem {table : List (Path × α)} (distinct : (table.map (·.2)).Nodup)
    {left right : Path} {value : α}
    (leftFound : ∃ key, (key, value) ∈ table ∧ key.sameAs left)
    (rightFound : ∃ key, (key, value) ∈ table ∧ key.sameAs right) : left.trail = right.trail := by
  -- The value stands in the table once, hence under one key.
  obtain ⟨one, oneMember, oneSame⟩ := leftFound
  obtain ⟨other, otherMember, otherSame⟩ := rightFound
  have same := List.inj_on_of_nodup_map distinct oneMember otherMember rfl
  cases same
  exact (Path.sameAs_iff.mp oneSame).symm.trans (Path.sameAs_iff.mp otherSame)

end FlowService.Locator
