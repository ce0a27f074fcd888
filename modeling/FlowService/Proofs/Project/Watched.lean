import FlowService.Proofs.Project.Covered

/-! No answer outlives the watch that keeps it true. -/

namespace FlowService.Locator

variable {locator : Locator} {watch : LocatorWatch} {index : Nat}

/-- A watch that is live after something else than a resolve was the same before, and an event that
had come is still there since the watch did not go on. -/
theorem live_before (tended : Tended locator) {disk : Disk} {action : Action}
    (unasked : action.source? = none)
    (found : (locator.act disk action).watches[index]? = some watch) (live : watch.stage = .live) :
    locator.watches[index]? = some watch ∧
      (Fired locator.watcher watch →
        Fired (locator.act disk action).watcher watch ∧ action ≠ .run index) := by
  -- No action makes a watch live, and only a run of its own takes the event away.
  cases action with
  | resolve source discover directory => cases unasked
  | fire path event => exact ⟨found, fun fired => ⟨fired.fire path event, nofun⟩⟩
  | tell number event => exact ⟨found, fun fired => ⟨fired.tell number event, nofun⟩⟩
  | invalidate directory =>
    have sameWatcher : (locator.invalidate disk directory).watcher = locator.watcher :=
      abortOf_watcher locator directory
    have sameWatches : (locator.invalidate disk directory).watches =
        (locator.abortOf directory).watches := rfl
    refine ⟨?_, fun fired => ⟨by rwa [act, sameWatcher], nofun⟩⟩
    rw [act, sameWatches] at found
    rcases abortOf_cases locator directory with same | ⟨other, _, stopped⟩
    · rwa [same] at found
    · rw [stopped] at found
      exact (live_of_setStage (by decide) found live).2
  | run other =>
    rcases run_cases locator other with same | ⟨ran, ranFound, ⟨_, done⟩ | ⟨_, _, done⟩⟩
    · rw [act, same] at found
      refine ⟨found, fun fired => ⟨by rwa [act, same], ?_⟩⟩
      rintro ⟨⟩
      -- Had its event come, the watch would be done now.
      have done := congrArg (·.watches[index]?) (same.symm.trans (run_of_fired found live fired))
      simp only [setStage_watches, found, Option.map_some, if_true, Option.some.injEq] at done
      rw [done] at live
      cases live
    · -- The watch that went on was told to stop, so it is another one, with a mailbox of its own.
      rw [act, done] at found
      obtain ⟨apart, before⟩ := live_of_setStage (by decide) found live
      refine ⟨before, fun fired => ⟨?_, fun same => apart (by injection same)⟩⟩
      rw [act, done]
      exact fired.close (tended.number_ne before ranFound (Ne.symm apart))
    · -- The watch that went on had its event, so it is done and another one too.
      rw [act, done] at found
      obtain ⟨apart, before⟩ := live_of_setStage (by decide) found live
      refine ⟨before, fun fired => ⟨?_, fun same => apart (by injection same)⟩⟩
      rw [act, done]
      exact fired.close (tended.number_ne before ranFound (Ne.symm apart))

/-- A watch that is live at the end of a time without resolves was live all the time, and did not
go on if its event had come at the beginning. -/
theorem live_through (tended : Tended locator) {work : History}
    (unasked : ∀ moment ∈ work, moment.2.source? = none)
    (found : (work.foldl (fun locator moment => locator.act moment.1 moment.2)
      locator).watches[index]? = some watch) (live : watch.stage = .live) :
    locator.watches[index]? = some watch ∧
      (Fired locator.watcher watch → ∀ disk, (disk, .run index) ∉ work) := by
  -- The induction is on the time from its beginning, since the event is there from then on.
  induction work generalizing locator with
  | nil => exact ⟨found, fun _ _ => List.not_mem_nil⟩
  | cons moment rest ih =>
    obtain ⟨later, idle⟩ := ih (tended.act moment.1 moment.2)
      (fun moment member => unasked moment (.tail _ member)) found
    obtain ⟨before, kept⟩ := live_before tended (unasked moment (.head _)) later live
    refine ⟨before, fun fired disk member => ?_⟩
    obtain ⟨stillFired, other⟩ := kept fired
    rcases List.mem_cons.mp member with rfl | member
    · exact other rfl
    · exact idle stillFired disk member

/-- As long as the layout of the disk stays as it is, every known answer is kept true by a live
watch of the binary, or of the marker of the project for whose directory it was written. Once an
event has come for a binary and all watches went on, no answer is that binary. -/
theorem answers_are_watched {history : History} (steady : Steady history) :
    (∀ path answer, (after history).cached? path = some answer →
      ∃ (disk : Disk) (directory : Path) (index : Nat) (watch : LocatorWatch),
        writer? history path = some (disk, directory) ∧
        (after history).watches[index]? = some watch ∧ watch.stage = .live ∧
        Hears (after history).watcher watch ∧ Listed watch.chain path ∧
        watch.watched = answer.getD ((rootAround disk directory).joinText Project.marker)) ∧
    (∀ (before : History) (disk : Disk) (binary : Path) (event : WatchEvent) (work : History),
      history = before ++ (disk, .fire binary event) :: work →
      (∀ moment ∈ work, moment.2.source? = none) →
      (∀ index < (after before).watches.length, ∃ disk, (disk, .run index) ∈ work) →
        ∀ path found, (after history).cached? path = some (some found) →
          ¬found.sameAs binary) := by
  have tended := tended_after history
  have covered := covered_after steady
  constructor
  · -- The watch that covers the answer is live, and a live watch hears of its event.
    intro path answer known
    obtain ⟨writer, index, watch, wrote, _, cover⟩ := covered path answer known
    have hears := tended.hearing watch (List.mem_of_getElem? cover.found) cover.live
    exact ⟨writer.1, writer.2, index, watch, wrote, cover.found, cover.live, hears, cover.listed,
      cover.target⟩
  · rintro before disk binary event work rfl unasked ran path found known same
    obtain ⟨writer, index, watch, wrote, _, cover⟩ := covered path (some found) known
    have target : watch.watched.sameAs binary := by
      rw [cover.target]
      exact same
    -- The watch that covers the answer had its event when the binary was fired.
    have split : after (before ++ (disk, .fire binary event) :: work) =
        work.foldl (fun locator moment => locator.act moment.1 moment.2)
          ((after before).act disk (.fire binary event)) := by
      simp [after, List.foldl_append]
    have last := cover.found
    rw [split] at last
    have fired := (tended_after before).act disk (.fire binary event)
    obtain ⟨there, idle⟩ := live_through fired unasked last cover.live
    have standing : (after before).watches[index]? = some watch := there
    have hears := (tended_after before).hearing watch (List.mem_of_getElem? standing) cover.live
    obtain ⟨within, _⟩ := List.getElem?_eq_some_iff.mp standing
    obtain ⟨later, goes⟩ := ran index within
    exact idle (hears.fired event target) later goes

/-- A disk with a project in which there is one directory. -/
def projectDisk : Disk :=
  ⟨⟨[(["p"], .directory), (["package.json", "p"], .file ⟨[], false, false⟩),
    (["src", "p"], .directory)]⟩, []⟩

/-- Two directories of a project get different answers, and the first one changes. -/
def overlapping : History :=
  [(projectDisk, .resolve .manual (fun _ => some ⟨true, ["flow"]⟩) ⟨true, ["src", "p"]⟩),
    (projectDisk, .resolve .manual (fun _ => none) ⟨true, ["lib", "p"]⟩),
    (projectDisk, .fire ⟨true, ["flow"]⟩ .changed),
    (projectDisk, .run 0), (projectDisk, .run 1)]

/-- The answer of the second directory is still watched, and the first answer is gone. -/
theorem answers_are_watched_overlapping :
    Steady overlapping ∧
    (∃ (disk : Disk) (directory : Path) (index : Nat) (watch : LocatorWatch),
      writer? overlapping ⟨true, ["lib", "p"]⟩ = some (disk, directory) ∧
      (after overlapping).watches[index]? = some watch ∧ watch.stage = .live ∧
      Hears (after overlapping).watcher watch ∧ Listed watch.chain ⟨true, ["lib", "p"]⟩ ∧
      watch.watched = (rootAround disk directory).joinText Project.marker) ∧
    ∀ path, (after overlapping).cached? path ≠ some (some ⟨true, ["flow"]⟩) := by
  have steady : Steady overlapping := by
    refine ⟨?_, ?_, ?_⟩
    · intro one member other otherMember
      have same : ∀ moment ∈ overlapping, moment.1 = projectDisk := by simp [overlapping]
      rw [same one member, same other otherMember]
      exact Disk.SameLayout.refl _
    · have inner : projectDisk.LeadsToNoFile ⟨true, ["src", "p"]⟩ := fun _ => by decide +kernel
      have absent : projectDisk.LeadsToNoFile ⟨true, ["lib", "p"]⟩ :=
        fun found => absurd found (by decide +kernel)
      simp [overlapping, Action.directory?, inner, absent]
    · simp [overlapping, Action.source?]
  obtain ⟨covered, purged⟩ := answers_are_watched steady
  refine ⟨steady, covered ⟨true, ["lib", "p"]⟩ none (by decide +kernel), fun path known => ?_⟩
  refine purged (overlapping.take 2) projectDisk ⟨true, ["flow"]⟩ .changed
    [(projectDisk, .run 0), (projectDisk, .run 1)] rfl (by simp [Action.source?]) ?_ path _ known ?_
  · intro index within
    have two : (after (overlapping.take 2)).watches.length = 2 := by decide +kernel
    obtain rfl | rfl : index = 0 ∨ index = 1 := by omega
    · exact ⟨projectDisk, by simp⟩
    · exact ⟨projectDisk, by simp⟩
  · decide

end FlowService.Locator
