import FlowService.Proofs.Project.Covered

/-!
A locator of which nothing but answers is asked gives every directory the answer of the latest
lookup that was made for it or for a directory that shares its answer with it.
-/

namespace FlowService.Locator

variable {disk : Disk} {discover : Path → Option Path}

/-- What happens to a locator that is asked for the binaries of directories, on a disk that stays
as it is; each call is given with the kind of watch that can be made then. -/
def calling (disk : Disk) (discover : Path → Option Path) (calls : List (WatchSource × Path)) :
    History :=
  calls.map fun call => (disk, .resolve call.1 discover call.2)

/-- The answer for a directory after some calls. -/
def answer (disk : Disk) (discover : Path → Option Path) (calls : List (WatchSource × Path))
    (source : WatchSource) (directory : Path) : Option Path :=
  ((after (calling disk discover calls)).resolve source disk discover directory).1

/-- Whether an answer for one directory is written for another one as well. -/
def shares (disk : Disk) (one other : Path) : Bool := (chain disk one).any (·.sameAs other)

/-- The latest of some directories that shares its answer with one. -/
def sharer? (disk : Disk) (looked : List Path) (directory : Path) : Option Path :=
  looked.reverse.find? (shares disk · directory)

/-- The directories for which the binary is really looked for, when these are asked for in turn. -/
def lookups (disk : Disk) (directories : List Path) : List Path :=
  -- A lookup that shares its answer makes a later one for the same directory needless.
  directories.foldl
    (fun looked directory =>
      if (sharer? disk looked directory).isSome then looked else looked ++ [directory]) []

/-- The directory whose lookup gives another one its answer, after some were asked for. -/
def asker (disk : Disk) (directories : List Path) (directory : Path) : Path :=
  (sharer? disk (lookups disk directories) directory).getD directory

/-- Sharing an answer is being listed in a chain. -/
theorem shares_iff {one other : Path} :
    shares disk one other ↔ other.trail ∈ (chain disk one).map Path.trail := by
  simp [shares, Path.sameAs_iff]

/-- A directory that shares its answer is among those that are looked through. -/
theorem sharer?_some {looked : List Path} {directory found : Path}
    (located : sharer? disk looked directory = some found) :
    found ∈ looked ∧ shares disk found directory := by
  refine ⟨List.mem_reverse.mp (List.mem_of_find?_eq_some located), ?_⟩
  simpa using List.find?_some located

/-- The latest lookup goes before all others. -/
theorem sharer?_concat (looked : List Path) (latest directory : Path) :
    sharer? disk (looked ++ [latest]) directory =
      if shares disk latest directory then some latest else sharer? disk looked directory := by
  unfold sharer?
  rw [List.reverse_append, List.reverse_singleton, List.singleton_append, List.find?_cons]
  cases shares disk latest directory <;> rfl

/-- One more call may make one more lookup. -/
theorem lookups_concat (directories : List Path) (directory : Path) :
    lookups disk (directories ++ [directory]) =
      if (sharer? disk (lookups disk directories) directory).isSome then lookups disk directories
      else lookups disk directories ++ [directory] := by
  rw [lookups, List.foldl_append]
  rfl

/-- Only what is asked for is looked for. -/
theorem mem_of_mem_lookups {directories : List Path} {looked : Path}
    (member : looked ∈ lookups disk directories) : looked ∈ directories := by
  induction directories using List.reverseRecOn with
  | nil => cases member
  | append_singleton directories directory ih =>
    rw [lookups_concat] at member
    rw [List.mem_append]
    split at member
    · exact Or.inl (ih member)
    · exact (List.mem_append.mp member).imp_left ih

/-- Making a watch changes no answer. -/
theorem watchFor_cache (source : WatchSource) (locator : Locator) (directory watched : Path)
    (chain : List Path) :
    (locator.watchFor source directory watched chain).cache = locator.cache := by
  cases source with
  | none | failing => rfl
  | manual | closed => exact register_cache ..

/-- What is known after some calls is what the latest lookup found that shares its answer. -/
theorem cached?_calling (calls : List (WatchSource × Path)) (path : Path) :
    (after (calling disk discover calls)).cached? path =
      (sharer? disk (lookups disk (calls.map (·.2))) path).map discover := by
  -- A lookup writes its answer for its whole chain, over all that was known before.
  induction calls using List.reverseRecOn generalizing path with
  | nil => rfl
  | append_singleton calls call ih =>
    have split : calling disk discover (calls ++ [call]) =
        calling disk discover calls ++ [(disk, .resolve call.1 discover call.2)] := by
      simp [calling]
    rw [split, after_concat, List.map_append, List.map_singleton, lookups_concat]
    have known := ih call.2
    cases sharer : sharer? disk (lookups disk (calls.map (·.2))) call.2 with
    | some earlier =>
      rw [sharer] at known
      rw [act_resolve_of_known known, ih path, if_pos (Option.isSome_some)]
    | none =>
      rw [sharer] at known
      rw [act_resolve_of_unknown known, if_neg (by simp), sharer?_concat]
      unfold cached?
      rw [watchFor_cache]
      obtain ⟨written, kept⟩ := lookup_rememberAll (after (calling disk discover calls)).cache
        (chain disk call.2) (discover call.2) path
      by_cases listed : Listed (chain disk call.2) path
      · rw [written listed, if_pos (shares_iff.mpr (listed_iff.mp listed))]
        rfl
      · rw [kept listed, if_neg (mt (fun shared => listed_iff.mpr (shares_iff.mp shared)) listed)]
        exact ih path

/-- Every answer is that of the lookup of the directory which the asker names. -/
theorem answer_eq (calls : List (WatchSource × Path)) (source : WatchSource) (directory : Path) :
    answer disk discover calls source directory =
      discover (asker disk (calls.map (·.2)) directory) := by
  -- Either an earlier lookup is found that shares its answer, or a new one is made.
  have known : (after (calling disk discover calls)).cached? directory = _ :=
    cached?_calling calls directory
  unfold answer asker resolve
  cases sharer : sharer? disk (lookups disk (calls.map (·.2))) directory with
  | some earlier => rw [known, sharer]; rfl
  | none => rw [known, sharer]; rfl

/-- The asker is the directory itself, or it was asked for and shares its answer. -/
theorem asker_cases (disk : Disk) (directories : List Path) (directory : Path) :
    asker disk directories directory = directory ∨
      asker disk directories directory ∈ directories ∧
        shares disk (asker disk directories directory) directory := by
  unfold asker
  cases sharer : sharer? disk (lookups disk directories) directory with
  | none => exact Or.inl rfl
  | some earlier =>
    obtain ⟨member, shared⟩ := sharer?_some sharer
    exact Or.inr ⟨mem_of_mem_lookups member, shared⟩

/-- Two answers stand for the same, whatever their spelling. -/
def SameAnswer (left right : Option Path) : Prop := left.map Path.trail = right.map Path.trail

/-- Whichever directories of a set were asked for before, each of them gets the answer that its own
lookup would give. -/
def Transparent (disk : Disk) (discover : Path → Option Path) (asked : Set Path) : Prop :=
  ∀ calls : List (WatchSource × Path), (∀ call ∈ calls, call.2 ∈ asked) →
    ∀ source, ∀ directory ∈ asked,
      SameAnswer (answer disk discover calls source directory) (discover directory)

/-- Answers are transparent exactly if directories that share them have lookups that agree. -/
theorem transparent_iff (asked : Set Path) :
    Transparent disk discover asked ↔
      ∀ one ∈ asked, ∀ other ∈ asked, shares disk one other →
        SameAnswer (discover one) (discover other) := by
  constructor
  · -- One call writes the answer, and the next one gets it.
    intro transparent one oneAsked other otherAsked shared
    have same := transparent [(.manual, one)] (by simpa using oneAsked) .manual other otherAsked
    rw [answer_eq] at same
    simpa [asker, lookups, sharer?, shared] using same
  · intro agree calls calledAsked source directory directoryAsked
    rw [answer_eq]
    rcases asker_cases disk (calls.map (·.2)) directory with own | ⟨member, shared⟩
    · rw [own]
      rfl
    · obtain ⟨call, called, same⟩ := List.mem_map.mp member
      exact agree _ (same ▸ calledAsked call called) directory directoryAsked shared

end FlowService.Locator
