import FlowService.Proofs.Project.Chain
import FlowService.Proofs.Project.Tended
import Mathlib.Data.List.Induction

/-!
As long as the layout of the disk does not change, every answer that a locator knows is covered by
the watch that was made when the answer was written.
-/

namespace FlowService.Locator

/-- The directory that was asked for when the answer of a path was written, with the disk. -/
abbrev Writers := List (Path × (Disk × Path))

/-- Writes down who writes the answers of an action. -/
def note (disk : Disk) (locator : Locator) (writers : Writers) : Action → Writers
  -- An answer that is known already is given without being written again.
  | .resolve _ _ directory =>
    if (locator.cached? directory).isSome then writers
    else (chain disk directory).foldl
      (fun writers entry => remember writers entry (disk, directory)) writers
  | _ => writers

/-- What a history asks a locator for. -/
def Asked (history : History) (writer : Disk × Path) : Prop :=
  ∃ moment ∈ history, moment.1 = writer.1 ∧ moment.2.directory? = some writer.2

/-- The layout of the disk stays as it is, only directories are asked for, and all that is made is
watched. -/
structure Steady (history : History) : Prop where
  -- Other files may come and go, and links may lead to them.
  layout : ∀ one ∈ history, ∀ other ∈ history, one.1.SameLayout other.1
  directories : ∀ moment ∈ history, ∀ directory ∈ moment.2.directory?,
    moment.1.LeadsToNoFile directory
  watching : ∀ moment ∈ history, ∀ source ∈ moment.2.source?, source = .manual ∨ source = .closed

/-- A watch keeps an answer true that was written for a directory. -/
structure Cover (locator : Locator) (writer : Disk × Path) (path : Path) (answer : Option Path)
    (index : Nat) (watch : LocatorWatch) : Prop where
  -- Only a watch that is still registered can be told to stop by a later action.
  registered : lookup locator.registry writer.2 = some index
  found : locator.watches[index]? = some watch
  live : watch.stage = .live
  chained : watch.chain = chain writer.1 writer.2
  listed : Listed watch.chain path
  target : watch.watched = answer.getD ((rootAround writer.1 writer.2).joinText Project.marker)

/-- Every answer that is known has a watch that keeps it true. -/
def Covered (history : History) (locator : Locator) (writers : Writers) : Prop :=
  ∀ path answer, locator.cached? path = some answer →
    ∃ writer index watch, lookup writers path = some writer ∧ Asked history writer ∧
      Cover locator writer path answer index watch

variable {history : History} {locator : Locator} {writers : Writers}

/-- What was asked for is asked for in a longer history. -/
theorem Asked.concat {writer : Disk × Path} (asked : Asked history writer)
    (moment : Disk × Action) : Asked (history ++ [moment]) writer := by
  obtain ⟨before, member, same⟩ := asked
  exact ⟨before, List.mem_append_left _ member, same⟩

/-- A history is steady as far as it goes. -/
theorem Steady.of_append {later : History} (steady : Steady (history ++ later)) :
    Steady history where
  layout one member other otherMember :=
    steady.layout one (List.mem_append_left _ member) other (List.mem_append_left _ otherMember)
  directories moment member := steady.directories moment (List.mem_append_left _ member)
  watching moment member := steady.watching moment (List.mem_append_left _ member)

/-- In a steady history the chain of a directory is the same whenever it is asked for. -/
theorem Steady.listed_iff (steady : Steady history) {one other : Disk × Path}
    (oneAsked : Asked history one) (otherAsked : Asked history other)
    (spelling : one.2.trail = other.2.trail) (path : Path) :
    Listed (chain one.1 one.2) path ↔ Listed (chain other.1 other.2) path := by
  -- Both disks have the same layout, and neither directory turns out to be a file.
  obtain ⟨first, firstMember, firstDisk, firstDirectory⟩ := oneAsked
  obtain ⟨second, secondMember, secondDisk, secondDirectory⟩ := otherAsked
  have layout := steady.layout first firstMember second secondMember
  have oneBare := steady.directories first firstMember one.2 firstDirectory
  have otherBare := steady.directories second secondMember other.2 secondDirectory
  rw [firstDisk] at layout oneBare
  rw [secondDisk] at layout otherBare
  rw [Locator.listed_iff, Locator.listed_iff, chain_congr layout spelling oneBare otherBare]

namespace Cover

variable {writer : Disk × Path} {path : Path} {answer : Option Path} {index : Nat}
variable {watch : LocatorWatch}

/-- A watch goes on to cover an answer when it stays registered and does not change. -/
theorem keep (cover : Cover locator writer path answer index watch) {next : Locator}
    (registered : lookup next.registry writer.2 = some index)
    (found : next.watches[index]? = some watch) : Cover next writer path answer index watch :=
  ⟨registered, found, cover.live, cover.chained, cover.listed, cover.target⟩

/-- A watch that covers an answer is not done. -/
theorem kept (cover : Cover locator writer path answer index watch) :
    lookup locator.unfinished writer.2 = some index := by
  -- It is live, so it is not among those that are dropped.
  refine lookup_filter (fun index => !locator.isDone index) cover.registered ?_
  simp [isDone, cover.found, cover.live]

/-- A watch goes on to cover an answer when one is registered for another directory. -/
theorem register (cover : Cover locator writer path answer index watch)
    (distinct : (locator.registry.map (·.2)).Nodup) {directory : Path}
    (apart : directory.trail ≠ writer.2.trail) (new : LocatorWatch) :
    Cover (locator.register directory new) writer path answer index watch := by
  -- The watch that makes room is that of the other directory, hence not this one.
  refine cover.keep ?_ (register_watches cover.found fun registered => apart ?_)
  · rw [register_registry, if_neg (mt Path.sameAs_iff.mp apart)]
    exact cover.kept
  · obtain ⟨key, member, same⟩ := mem_of_lookup registered
    exact trail_eq_of_mem distinct ⟨key, List.mem_of_mem_filter member, same⟩
      (mem_of_lookup cover.registered)

/-- A watch that covers an answer is not that of a directory whose chain lacks the answer. -/
theorem apart (cover : Cover locator writer path answer index watch) (steady : Steady history)
    {disk : Disk} {directory : Path} (asked : Asked history (disk, directory))
    (writerAsked : Asked history writer) (unlisted : ¬Listed (chain disk directory) path) :
    directory.trail ≠ writer.2.trail := by
  -- Were it the same directory, it would have the chain that the watch has.
  intro same
  apply unlisted
  rw [steady.listed_iff asked writerAsked same path, ← cover.chained]
  exact cover.listed

/-- The watch that is made for an answer covers it for the whole chain. -/
theorem of_register (locator : Locator) (writer : Disk × Path) {path : Path}
    (listed : Listed (chain writer.1 writer.2) path) (answer : Option Path) (number : Nat) :
    ∃ watch, Cover (locator.register writer.2
      ⟨answer.getD ((rootAround writer.1 writer.2).joinText Project.marker),
        chain writer.1 writer.2, number, .live⟩)
      writer path answer locator.watches.length watch := by
  refine ⟨_, ?_, register_last, rfl, rfl, listed, rfl⟩
  rw [register_registry, if_pos (Path.sameAs_iff.mpr rfl)]

end Cover

namespace Covered

/-- Answers are covered in a longer history when the locator stays as it is. -/
theorem concat (covered : Covered history locator writers) (moment : Disk × Action) :
    Covered (history ++ [moment]) locator writers := by
  intro path answer known
  obtain ⟨writer, index, watch, wrote, asked, cover⟩ := covered path answer known
  exact ⟨writer, index, watch, wrote, asked.concat moment, cover⟩

/-- Answers are covered after a directory was forgotten. -/
theorem invalidate (covered : Covered history locator writers) (tended : Tended locator)
    {disk : Disk} {directory : Path} (steady : Steady history)
    (asked : Asked history (disk, directory)) :
    Covered history (locator.invalidate disk directory) writers := by
  intro path answer known
  -- What is left is not in the chain of the directory, so another watch covers it.
  obtain ⟨unlisted, before⟩ := lookup_of_purge known
  obtain ⟨writer, index, watch, wrote, writerAsked, cover⟩ := covered path answer before
  have apart := cover.apart steady asked writerAsked unlisted
  refine ⟨writer, index, watch, wrote, writerAsked, cover.keep ?_ ?_⟩
  · show lookup (forget locator.registry directory) writer.2 = some index
    rw [lookup_forget, if_neg (mt Path.sameAs_iff.mp apart)]
    exact cover.registered
  · refine (abortOf_watches fun registered => apart ?_).trans cover.found
    exact trail_eq_of_mem tended.distinct (mem_of_lookup registered)
      (mem_of_lookup cover.registered)

/-- Answers are covered when only the watcher changes. -/
theorem rewatch (covered : Covered history locator writers) (watcher : ManualWatcher) :
    Covered history { locator with watcher := watcher } writers := by
  intro path answer known
  obtain ⟨writer, index, watch, wrote, asked, cover⟩ := covered path answer known
  exact ⟨writer, index, watch, wrote, asked, cover.keep cover.registered cover.found⟩

/-- Answers are covered when a watch is done that covers none of those that are left. -/
theorem finish (covered : Covered history locator writers) {index : Nat} {watcher : ManualWatcher}
    {cache : List (Path × Option Path)}
    (left : ∀ path answer, lookup cache path = some answer →
      lookup locator.cache path = some answer ∧
        ∀ writer watch, ¬Cover locator writer path answer index watch) :
    Covered history ({ locator with watcher := watcher, cache := cache }.setStage index .done)
      writers := by
  intro path answer known
  obtain ⟨before, free⟩ := left path answer known
  obtain ⟨writer, other, watch, wrote, asked, cover⟩ := covered path answer before
  have apart : index ≠ other := by
    rintro rfl
    exact free writer watch cover
  refine ⟨writer, other, watch, wrote, asked, cover.keep cover.registered ?_⟩
  exact (setStage_watches_of_ne _ apart _).trans cover.found

/-- Answers are covered after a watch went on. -/
theorem run (covered : Covered history locator writers) (index : Nat) :
    Covered history (locator.run index) writers := by
  rcases run_cases locator index with same | ⟨ran, found, ⟨stopped, done⟩ | ⟨live, _, done⟩⟩
  · rw [same]
    exact covered
  · -- A watch that was told to stop covers nothing.
    rw [done]
    refine covered.finish fun path answer known => ⟨known, fun writer watch cover => ?_⟩
    have live := cover.live
    rw [Option.some.inj (cover.found.symm.trans found), stopped] at live
    cases live
  · -- Whatever is left is not in the chain of the watch that acted on its event.
    rw [done]
    refine covered.finish fun path answer known => ?_
    obtain ⟨unlisted, before⟩ := lookup_of_purge known
    refine ⟨before, fun writer watch cover => unlisted ?_⟩
    rw [Option.some.inj (found.symm.trans cover.found)]
    exact cover.listed

/-- Answers are covered after one was looked for, written and watched. -/
theorem resolve (covered : Covered history locator writers) (tended : Tended locator)
    {disk : Disk} {source : WatchSource} {discover : Path → Option Path} {directory : Path}
    (works : source = .manual ∨ source = .closed) (steady : Steady history)
    (asked : Asked history (disk, directory)) :
    Covered history (locator.act disk (.resolve source discover directory))
      (note disk locator writers (.resolve source discover directory)) := by
  cases answer : locator.cached? directory with
  | some answer =>
    rw [act_resolve_of_known answer]
    simpa [note, answer] using covered
  | none =>
    rw [act_resolve_of_unknown answer]
    obtain ⟨watcher, number, registered⟩ := watchFor_of_works works
      { locator with
        cache := (chain disk directory).foldl
          (fun cache entry => remember cache entry (discover directory)) locator.cache
        asked := locator.asked + 1 }
      directory ((discover directory).getD ((rootAround disk directory).joinText Project.marker))
      (chain disk directory)
    rw [registered]
    intro path found known
    obtain ⟨set, kept⟩ := lookup_rememberAll locator.cache (chain disk directory)
      (discover directory) path
    obtain ⟨wrote, stayed⟩ := lookup_rememberAll writers (chain disk directory) (disk, directory)
      path
    have noted : note disk locator writers (.resolve source discover directory) =
        (chain disk directory).foldl
          (fun writers entry => remember writers entry (disk, directory)) writers := by
      simp [note, answer]
    rw [noted]
    unfold cached? at known
    rw [register_cache] at known
    by_cases listed : Listed (chain disk directory) path
    · obtain rfl := Option.some.inj ((set listed).symm.trans known)
      obtain ⟨watch, cover⟩ :=
        Cover.of_register _ (disk, directory) listed (discover directory) number
      exact ⟨(disk, directory), _, watch, wrote listed, asked, cover⟩
    · obtain ⟨writer, index, watch, before, writerAsked, cover⟩ :=
        covered path found ((kept listed).symm.trans known)
      have apart := cover.apart steady asked writerAsked listed
      refine ⟨writer, index, watch, (stayed listed).trans before, writerAsked, ?_⟩
      refine Cover.register ?_ ?_ apart _
      · exact cover.keep cover.registered cover.found
      · exact tended.distinct

/-- Answers are covered after every action of a steady history. -/
theorem act (covered : Covered history locator writers) (tended : Tended locator)
    {disk : Disk} {action : Action} (steady : Steady (history ++ [(disk, action)])) :
    Covered (history ++ [(disk, action)]) (locator.act disk action)
      (note disk locator writers action) := by
  -- Events only reach mailboxes; all other actions change what is known, what is watched, or both.
  have last : (disk, action) ∈ history ++ [(disk, action)] :=
    List.mem_append_right _ (List.mem_singleton_self _)
  have longer := covered.concat (disk, action)
  cases action with
  | resolve source discover directory =>
    exact longer.resolve tended (steady.watching _ last source rfl) steady ⟨_, last, rfl, rfl⟩
  | invalidate directory => exact longer.invalidate tended steady ⟨_, last, rfl, rfl⟩
  | run index => exact longer.run index
  | fire path event => exact longer.rewatch _
  | tell number event => exact longer.rewatch _

end Covered

/-- A locator and the writers of its answers after a history. -/
def recorded (history : History) : Locator × Writers :=
  history.foldl
    (fun state moment =>
      (state.1.act moment.1 moment.2, note moment.1 state.1 state.2 moment.2))
    (empty, [])

/-- The directory that was asked for when the latest answer of a path was written, with the disk. -/
def writer? (history : History) (path : Path) : Option (Disk × Path) :=
  lookup (recorded history).2 path

/-- One more action happens to the locator that all others led to. -/
theorem after_concat (history : History) (moment : Disk × Action) :
    after (history ++ [moment]) = (after history).act moment.1 moment.2 := by
  simp [after, List.foldl_append]

/-- Writing down who wrote the answers changes nothing of the locator. -/
theorem recorded_locator (history : History) : (recorded history).1 = after history := by
  -- The locator goes its way without a look at the record.
  induction history using List.reverseRecOn with
  | nil => rfl
  | append_singleton history moment ih =>
    rw [after_concat, ← ih]
    simp [recorded, List.foldl_append]

/-- One more action may write answers of its own. -/
theorem recorded_concat (history : History) (moment : Disk × Action) :
    (recorded (history ++ [moment])).2 =
      note moment.1 (after history) (recorded history).2 moment.2 := by
  rw [← recorded_locator]
  simp [recorded, List.foldl_append]

/-- The watches of a locator are tended after every history. -/
theorem tended_after (history : History) : Tended (after history) := by
  -- The induction is on the history from its end, since the last action happens to what came of
  -- those before it.
  induction history using List.reverseRecOn with
  | nil => exact tended_empty
  | append_singleton history moment ih =>
    rw [after_concat]
    exact ih.act moment.1 moment.2

/-- The answers of a locator are covered after every steady history. -/
theorem covered_after (steady : Steady history) :
    Covered history (after history) (recorded history).2 := by
  -- A part of a steady history is steady, and the watches are tended all along.
  induction history using List.reverseRecOn with
  | nil => exact fun path answer known => by cases known
  | append_singleton history moment ih =>
    rw [after_concat, recorded_concat]
    exact (ih steady.of_append).act (tended_after history) steady

end FlowService.Locator
