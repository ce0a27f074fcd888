import FlowService.Proofs.Project.Lookups

/-!
Every answer that a locator knows was written for the chain of a directory, as that chain was when
the directory was searched for.
-/

namespace FlowService.Locator

variable {history : History} {locator : Locator} {disk seen : Disk} {action : Action}
variable {directory path : Path} {answer : Option Path}

/-- A directory was asked for, with the disk as it stood then. -/
def Resolved (history : History) (seen : Disk) (directory : Path) : Prop :=
  ∃ source discover, (seen, .resolve source discover directory) ∈ history

/-- What was resolved before stays resolved. -/
theorem Resolved.concat (resolved : Resolved history seen directory) (moment : Disk × Action) :
    Resolved (history ++ [moment]) seen directory := by
  obtain ⟨source, discover, member⟩ := resolved
  exact ⟨source, discover, List.mem_append_left _ member⟩

/-- What is resolved in the last action is resolved. -/
theorem Resolved.last (history : History) (disk : Disk) (source : WatchSource)
    (discover : Path → Option Path) (directory : Path) :
    Resolved (history ++ [(disk, .resolve source discover directory)]) disk directory :=
  ⟨source, discover, List.mem_append_right _ (List.mem_singleton_self _)⟩

/-- Something else than a resolve asks for nothing. -/
theorem Resolved.of_concat (unasked : action.source? = none)
    (resolved : Resolved (history ++ [(disk, action)]) seen directory) :
    Resolved history seen directory := by
  obtain ⟨source, discover, member⟩ := resolved
  refine ⟨source, discover, (List.mem_append.mp member).resolve_right fun last => ?_⟩
  -- The last action is none of those that resolve a directory.
  rw [← (Prod.mk.inj (List.mem_singleton.mp last)).2] at unasked
  cases unasked

/-- A table has one value for all spellings of a path. -/
theorem lookup_congr {α : Type} (table : List (Path × α)) {left right : Path}
    (same : left.trail = right.trail) : lookup table left = lookup table right := by
  have alike : (fun entry : Path × α => entry.1.sameAs left) = (·.1.sameAs right) :=
    funext fun entry => Path.sameAs_congr rfl same
  unfold lookup
  rw [alike]

/-- An action that resolves nothing writes no answer, so what is known after it was known before. -/
theorem known_before (unasked : action.source? = none)
    (known : (locator.act disk action).cached? path = some answer) :
    locator.cached? path = some answer := by
  cases action with
  | resolve source discover directory => cases unasked
  | invalidate directory => exact (lookup_of_purge known).2
  | fire other event => exact known
  | tell number event => exact known
  | run index =>
    -- A watch that acts on its event purges its chain, and any other leaves the answers alone.
    rcases run_cases locator index with same | ⟨watch, _, ⟨_, stopped⟩ | ⟨_, _, acted⟩⟩
    · rwa [act, same] at known
    · rwa [act, stopped] at known
    · rw [act, acted] at known
      exact (lookup_of_purge known).2

/-- An action that resolves nothing leaves it written down who wrote the answers. -/
theorem writer?_of_unasked (unasked : action.source? = none) :
    writer? (history ++ [(disk, action)]) path = writer? history path := by
  unfold writer?
  rw [recorded_concat]
  cases action with
  | resolve source discover directory => cases unasked
  | _ => rfl

/-- A directory that is known already is answered for without anything being written. -/
theorem writer?_of_known {source : WatchSource} {discover : Path → Option Path}
    (known : ((after history).cached? directory).isSome) :
    writer? (history ++ [(disk, .resolve source discover directory)]) path =
      writer? history path := by
  unfold writer?
  rw [recorded_concat, note, if_pos known]

/-- A search makes its answer known for the whole chain of its directory and for nothing else. -/
theorem cached?_search (disk : Disk) (source : WatchSource) (discover : Path → Option Path)
    (unknown : locator.cached? directory = none) (path : Path) :
    let searched := locator.act disk (.resolve source discover directory)
    (Listed (chain disk directory) path → searched.cached? path = some (discover directory)) ∧
      (¬Listed (chain disk directory) path → searched.cached? path = locator.cached? path) := by
  intro searched
  unfold cached?
  rw [show searched = _ from act_resolve_of_unknown unknown, watchFor_cache]
  exact lookup_rememberAll locator.cache (chain disk directory) (discover directory) path

/-- A search writes the answers of its whole chain and no others. -/
theorem search_writes (disk : Disk) (source : WatchSource) (discover : Path → Option Path)
    (unknown : (after history).cached? directory = none) (path : Path) :
    let searched := history ++ [(disk, .resolve source discover directory)]
    (Listed (chain disk directory) path →
        (after searched).cached? path = some (discover directory) ∧
          writer? searched path = some (disk, directory)) ∧
      (¬Listed (chain disk directory) path →
        (after searched).cached? path = (after history).cached? path ∧
          writer? searched path = writer? history path) := by
  intro searched
  have noted : note disk (after history) (recorded history).2 (.resolve source discover directory) =
      (chain disk directory).foldl
        (fun writers entry => remember writers entry (disk, directory)) (recorded history).2 := by
    simp [note, unknown]
  obtain ⟨set, kept⟩ := cached?_search disk source discover unknown path
  obtain ⟨wrote, stayed⟩ := lookup_rememberAll (recorded history).2 (chain disk directory)
    (disk, directory) path
  unfold writer?
  rw [after_concat, recorded_concat, noted]
  exact ⟨fun listed => ⟨set listed, wrote listed⟩, fun unlisted => ⟨kept unlisted, stayed unlisted⟩⟩

/-- Every answer that is known was written for a directory that was asked for, and its path was in
the chain of that directory then. -/
theorem written_in_chain (known : ((after history).cached? path).isSome) :
    ∃ writer, writer? history path = some writer ∧ Resolved history writer.1 writer.2 ∧
      Listed (chain writer.1 writer.2) path := by
  -- The induction is on the history from its end: the last action either wrote the answer or left
  -- both the answer and its writer as they were.
  induction history using List.reverseRecOn with
  | nil => cases known
  | append_singleton history moment ih =>
    obtain ⟨disk, action⟩ := moment
    have earlier : ((after history).cached? path).isSome →
        writer? (history ++ [(disk, action)]) path = writer? history path →
        ∃ writer, writer? (history ++ [(disk, action)]) path = some writer ∧
          Resolved (history ++ [(disk, action)]) writer.1 writer.2 ∧
          Listed (chain writer.1 writer.2) path := by
      intro knownBefore same
      obtain ⟨writer, wrote, resolved, listed⟩ := ih knownBefore
      exact ⟨writer, same.trans wrote, resolved.concat _, listed⟩
    cases asked : action.source? with
    | none =>
      obtain ⟨answer, found⟩ := Option.isSome_iff_exists.mp known
      rw [after_concat] at found
      apply earlier
      · exact Option.isSome_iff_exists.mpr ⟨answer, known_before asked found⟩
      · exact writer?_of_unasked asked
    | some source =>
      cases action with
      | resolve source discover directory =>
        cases cached : (after history).cached? directory with
        | some answer =>
          rw [after_concat, act_resolve_of_known cached] at known
          apply earlier known
          exact writer?_of_known (Option.isSome_iff_exists.mpr ⟨answer, cached⟩)
        | none =>
          obtain ⟨written, kept⟩ := search_writes disk source discover cached path
          by_cases listed : Listed (chain disk directory) path
          · refine ⟨(disk, directory), (written listed).2, ?_, listed⟩
            exact Resolved.last history disk source discover directory
          · rw [(kept listed).1] at known
            exact earlier known (kept listed).2
      | _ => cases asked

end FlowService.Locator
