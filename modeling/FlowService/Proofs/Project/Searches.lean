import FlowService.Proofs.Project.Lookups
import FlowService.Proofs.Project.Plain

/-!
As long as no watch hears of anything, a locator searches for the binary of a directory at most
once, and what it finds is known from then on for the whole chain of the directory.
-/

namespace FlowService.Locator

/-- A time when the binary of a directory was really looked for. -/
structure Search where
  disk : Disk
  directory : Path
  answer : Option Path

/-- Whether the answer of a search is written for a directory. -/
def Search.covers (search : Search) (path : Path) : Bool :=
  (chain search.disk search.directory).any (·.sameAs path)

/-- The latest search whose answer was written for a directory. -/
def latest? (made : List Search) (path : Path) : Option Search :=
  made.reverse.find? (·.covers path)

/-- The search that something which happens to a locator leads to, after some others. -/
def search? (made : List Search) (disk : Disk) : Action → Option Search
  | .resolve _ discover directory =>
    -- A search that covers the directory makes another one needless.
    if made.any (·.covers directory) then none else some ⟨disk, directory, discover directory⟩
  | _ => none

/-- The searches that a history leads to, the first one first. -/
def searches (history : History) : List Search :=
  history.foldl (fun made moment => made ++ (search? made moment.1 moment.2).toList) []

/-- Whether an action forgets no answer and lets no watch hear of anything. -/
def Action.isQuiet : Action → Bool
  -- A watcher that has gone away tells so at once.
  | .resolve source _ _ => source != .closed
  | .run _ => true
  | _ => false

/-- No event waits to be read. -/
def Silent (watcher : ManualWatcher) : Prop := ∀ event, .holding event ∉ watcher.mailboxes

/-- What a locator knows is what some searches found. -/
structure Remembers (locator : Locator) (made : List Search) : Prop where
  silent : Silent locator.watcher
  known : ∀ path, locator.cached? path = (latest? made path).map Search.answer
  counted : locator.asked = made.length

variable {locator : Locator} {made : List Search} {history : History} {disk : Disk}
variable {source : WatchSource} {discover : Path → Option Path} {directory : Path}

/-- A search covers what is listed in the chain of its directory. -/
theorem Search.covers_iff {search : Search} {path : Path} :
    search.covers path ↔ Listed (chain search.disk search.directory) path := by
  simp [Search.covers, Listed]

/-- A directory has a latest search exactly if some search covers it. -/
theorem isSome_latest? {path : Path} :
    (latest? made path).isSome ↔ ∃ search ∈ made, search.covers path := by
  simp [latest?, List.find?_isSome]

/-- The latest search goes before all others. -/
theorem latest?_concat (made : List Search) (search : Search) (path : Path) :
    latest? (made ++ [search]) path =
      if search.covers path then some search else latest? made path := by
  unfold latest?
  rw [List.reverse_append, List.reverse_singleton, List.singleton_append, List.find?_cons]
  cases search.covers path <;> rfl

/-- A search is made for a directory that is asked for and that no other covers. -/
theorem of_search? {action : Action} {search : Search}
    (searched : search? made disk action = some search) :
    ∃ source discover, action = .resolve source discover search.directory ∧
      search.disk = disk ∧ search.answer = discover search.directory ∧
      ∀ earlier ∈ made, ¬earlier.covers search.directory := by
  cases action with
  | resolve source discover directory =>
    simp only [search?] at searched
    split at searched
    · cases searched
    · rename_i uncovered
      obtain rfl := Option.some.inj searched
      refine ⟨source, discover, rfl, rfl, rfl, fun earlier before covered => uncovered ?_⟩
      exact List.any_eq_true.mpr ⟨earlier, before, covered⟩
  | _ => cases searched

/-- One more action may lead to one more search. -/
theorem searches_concat (history : History) (moment : Disk × Action) :
    searches (history ++ [moment]) =
      searches history ++ (search? (searches history) moment.1 moment.2).toList := by
  rw [searches, List.foldl_append]
  rfl

/-- A mailbox in which an event waits is among those that were made. -/
theorem not_fired (silent : Silent locator.watcher) (watch : LocatorWatch) :
    ¬Fired locator.watcher watch := by
  rintro ⟨event, holds⟩
  have made := ManualWatcher.lt_of_mailbox (by rw [holds]; simp)
  refine silent event ?_
  rw [← holds, ManualWatcher.mailbox, List.getD_eq_getElem?_getD, List.getElem?_eq_getElem made]
  exact List.getElem_mem made

/-- Making a watch does not count as a search. -/
theorem watchFor_asked (source : WatchSource) (locator : Locator) (directory watched : Path)
    (chain : List Path) :
    (locator.watchFor source directory watched chain).asked = locator.asked := by
  cases source with
  | none | failing => rfl
  | manual | closed =>
    exact abortOf_keeps (·.asked) (fun _ _ _ => rfl) _ directory

/-- A new watch has nothing to tell unless its watcher has gone away. -/
theorem silent_watchFor (silent : Silent locator.watcher) (working : source ≠ .closed)
    (directory watched : Path) (chain : List Path) :
    Silent (locator.watchFor source directory watched chain).watcher := by
  cases source with
  | none | failing => exact silent
  | closed => exact absurd rfl working
  | manual =>
    have kept : (locator.watchFor .manual directory watched chain).watcher =
        (locator.watcher.watch watched).2 := abortOf_watcher ..
    intro event member
    rw [kept] at member
    exact silent event (by simpa [ManualWatcher.watch] using member)

/-- Closing a mailbox puts no event into any. -/
theorem silent_close (silent : Silent locator.watcher) (number : Nat) :
    Silent (locator.watcher.close number) := by
  intro event member
  rcases List.mem_or_eq_of_mem_set member with before | closed
  · exact silent event before
  · cases closed

namespace Remembers

/-- A directory that is covered by a search is known, and no other is. -/
theorem isSome_cached? (remembers : Remembers locator made) (path : Path) :
    (locator.cached? path).isSome ↔ ∃ search ∈ made, search.covers path := by
  rw [remembers.known, Option.isSome_map, isSome_latest?]

/-- Asking for a directory that no search covers adds its search. -/
theorem resolve (remembers : Remembers locator made) (working : source ≠ .closed)
    (unknown : locator.cached? directory = none) :
    Remembers (locator.act disk (.resolve source discover directory))
      (made ++ [⟨disk, directory, discover directory⟩]) := by
  -- The answer is written for the whole chain, over all that was known before.
  rw [act_resolve_of_unknown unknown]
  constructor
  · exact silent_watchFor (by exact remembers.silent) working _ _ _
  · intro path
    have covers : Search.covers ⟨disk, directory, discover directory⟩ path ↔
        Listed (chain disk directory) path := Search.covers_iff
    obtain ⟨written, kept⟩ := lookup_rememberAll locator.cache (chain disk directory)
      (discover directory) path
    unfold cached?
    rw [watchFor_cache, latest?_concat]
    by_cases listed : Listed (chain disk directory) path
    · rw [written listed, if_pos (covers.mpr listed)]
      rfl
    · rw [kept listed, if_neg (mt covers.mp listed)]
      exact remembers.known path
  · rw [watchFor_asked, List.length_append, ← remembers.counted, List.length_singleton]

/-- A watch that goes on without having heard of anything changes no answer. -/
theorem run (remembers : Remembers locator made) (index : Nat) :
    Remembers (locator.run index) made := by
  rcases run_cases locator index with same | ⟨watch, _, ⟨_, stopped⟩ | ⟨_, fired, _⟩⟩
  · rw [same]
    exact remembers
  · rw [stopped]
    exact ⟨silent_close remembers.silent watch.number, remembers.known, remembers.counted⟩
  · exact absurd fired (not_fired remembers.silent watch)

/-- A quiet action adds the search that it leads to. -/
theorem act (remembers : Remembers locator made) {action : Action} (quiet : action.isQuiet) :
    Remembers (locator.act disk action) (made ++ (search? made disk action).toList) := by
  cases action with
  | resolve source discover directory =>
    have covered : made.any (·.covers directory) = (locator.cached? directory).isSome := by
      rw [Bool.eq_iff_iff, remembers.isSome_cached?, List.any_eq_true]
    simp only [search?, covered]
    cases known : locator.cached? directory with
    | some answer =>
      rw [act_resolve_of_known known]
      simpa using remembers
    | none => exact remembers.resolve (bne_iff_ne.mp quiet) known
  | run index =>
    simpa only [search?, Option.toList_none, List.append_nil, Locator.act] using
      remembers.run index
  | invalidate | fire | tell => cases quiet

end Remembers

/-- A quiet history is remembered by its searches. -/
theorem remembers_after (quiet : ∀ moment ∈ history, moment.2.isQuiet) :
    Remembers (after history) (searches history) := by
  -- The induction is on the history from its end, since the last action finds what was remembered.
  induction history using List.reverseRecOn with
  | nil => exact ⟨fun event => List.not_mem_nil, fun path => rfl, rfl⟩
  | append_singleton history moment ih =>
    rw [after_concat, searches_concat]
    exact (ih fun earlier member => quiet earlier (List.mem_append_left _ member)).act
      (quiet moment (List.mem_append_right _ (List.mem_singleton_self _)))

/-- A search is one of the calls, with what its discovery found. -/
theorem resolve_of_mem_searches {search : Search} (member : search ∈ searches history) :
    ∃ source discover, (search.disk, .resolve source discover search.directory) ∈ history ∧
      search.answer = discover search.directory := by
  induction history using List.reverseRecOn with
  | nil => cases member
  | append_singleton history moment ih =>
    rw [searches_concat] at member
    rcases List.mem_append.mp member with earlier | latest
    · obtain ⟨source, discover, called, found⟩ := ih earlier
      exact ⟨source, discover, List.mem_append_left _ called, found⟩
    · obtain ⟨source, discover, action, seen, found, _⟩ :=
        of_search? (Option.mem_toList.mp latest)
      refine ⟨source, discover, ?_, found⟩
      rw [seen, ← action]
      exact List.mem_append_right _ (List.mem_singleton_self _)

/-- No directory is searched for that an earlier search covers. -/
theorem searches_pairwise (history : History) :
    (searches history).Pairwise fun earlier later => ¬earlier.covers later.directory := by
  induction history using List.reverseRecOn with
  | nil => exact List.Pairwise.nil
  | append_singleton history moment ih =>
    rw [searches_concat, List.pairwise_append]
    refine ⟨ih, ?_, fun earlier before later latest => ?_⟩
    · cases search? (searches history) moment.1 moment.2 with
      | none => exact List.Pairwise.nil
      | some search => exact List.pairwise_singleton ..
    · obtain ⟨_, _, _, _, _, uncovered⟩ := of_search? (Option.mem_toList.mp latest)
      exact uncovered earlier before

end FlowService.Locator
