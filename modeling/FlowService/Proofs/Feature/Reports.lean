import FlowService.Proofs.Feature.Grouping

/-!
A report lists every error that points at a place once, under the file of that place. What it lists
and in which order follows from the errors of each file, so errors of different files may change
places.
-/

namespace FlowService

namespace Diagnostic

/-- The piece of an error that it is shown at: its operation comes before its message, and what
points at no place is passed over. -/
def shownAt? (error : Reply.Error) : Option Reply.MessagePart :=
  (error.operation.toList ++ error.message).find? (·.isBlame)

/-- The text that an error is shown with at some piece of it. -/
def textAt (error : Reply.Error) (part : Reply.MessagePart) : String :=
  -- An operation is named in front of the message, of which it is no part.
  if error.operation.any (·.isBlame) then partText part ++ " error: " ++ messageText error
  else messageText error

/-- An error gives one diagnostic if it is shown anywhere, and none otherwise. -/
theorem ofError?_eq (error : Reply.Error) :
    ofError? error = (shownAt? error).map fun part => (Path.ofText part.path,
      ⟨blameRange part, textAt error part, Severity.ofLevel error.level, "flow"⟩) := by
  unfold ofError? anchor? shownAt? textAt Reply.Error.blamedOperation? Reply.Error.firstBlame?
  cases error.operation with
  | none => simp [Function.comp_def]
  | some operation =>
    by_cases blamed : operation.isBlame
    · simp [blamed, Option.filter]
    · simp [blamed, Option.filter, Function.comp_def]

/-- Whether an error is shown in a file. -/
def pointsAt (path : Path) (error : Reply.Error) : Bool :=
  (shownAt? error).any fun part => (Path.ofText part.path).sameAs path

/-- The errors that are shown in a file, in the order in which the checker names them. -/
def errorsAt (status : Reply.Status) (path : Path) : List Reply.Error :=
  status.errors.filter (pointsAt path)

/-- The diagnostic of an error without its file. -/
def diagnostic? (error : Reply.Error) : Option Diagnostic := (ofError? error).map (·.2)

/-- The file of an error is that of its diagnostic. -/
theorem pointsAt_eq (path : Path) (error : Reply.Error) :
    pointsAt path error = (ofError? error).any (·.1.sameAs path) := by
  rw [ofError?_eq, Option.any_map]
  rfl

/-- What is found of some errors is in a file exactly as far as the errors are. -/
theorem ofFile_filterMap (errors : List Reply.Error) (path : Path) :
    DiagnosticsReport.ofFile (errors.filterMap ofError?) path =
      (errors.filter (pointsAt path)).filterMap diagnostic? := by
  -- The errors are gone through in order, and each gives at most one diagnostic on either side.
  induction errors with
  | nil => rfl
  | cons error rest ih =>
    have here := pointsAt_eq path error
    unfold DiagnosticsReport.ofFile at ih ⊢
    rw [List.filterMap_cons, List.filter_cons, here]
    cases given : ofError? error with
    | none => simpa using ih
    | some entry =>
      have shown : diagnostic? error = some entry.2 := by rw [diagnostic?, given]; rfl
      by_cases same : entry.1.sameAs path
      · simp [same, shown, ih]
      · simp [same, ih]

/-- The first finding in a file is that of the first error in it. -/
theorem find?_filterMap (errors : List Reply.Error) (path : Path) :
    (errors.filterMap ofError?).find? (·.1.sameAs path) =
      (errors.find? (pointsAt path)).bind ofError? := by
  induction errors with
  | nil => rfl
  | cons error rest ih =>
    have here := pointsAt_eq path error
    rw [List.filterMap_cons, List.find?_cons, here]
    cases given : ofError? error with
    | none => simpa using ih
    | some entry =>
      rw [List.find?_cons]
      by_cases same : entry.1.sameAs path
      · simp [same, given]
      · simpa [same] using ih

end Diagnostic

namespace DiagnosticsReport

open Diagnostic

/-- A report lists the errors of a project file by file, those files first that have errors of the
gravest kind, and otherwise by their paths. -/
structure Lists (status : Reply.Status) (report : DiagnosticsReport) : Prop where
  distinct : report.files.Pairwise fun left right => ¬left.1.sameAs right.1
  contents : ∀ group ∈ report.files,
    group.2 = (errorsAt status group.1).filterMap diagnostic?
  -- A file is named as the first error in it spells its path.
  named : ∀ group ∈ report.files,
    ((errorsAt status group.1).head?.bind ofError?).map (·.1) = some group.1
  complete : ∀ error ∈ status.errors, ∀ part ∈ shownAt? error,
    ∃ group ∈ report.files, group.1.sameAs (Path.ofText part.path)
  ordered : report.files.Pairwise Before

variable {status other : Reply.Status} {report : DiagnosticsReport}

/-- A report lists the errors exactly if their findings are gathered and put in order. -/
theorem lists_iff_gathered : Lists status report ↔
    Gathered (status.errors.filterMap ofError?) report.files ∧ report.files.Pairwise Before := by
  have contents : ∀ path, ofFile (status.errors.filterMap ofError?) path =
      (errorsAt status path).filterMap diagnostic? := ofFile_filterMap status.errors
  have first : ∀ path, (status.errors.filterMap ofError?).find? (·.1.sameAs path) =
      (errorsAt status path).head?.bind ofError? := by
    intro path
    rw [find?_filterMap, errorsAt, List.head?_filter]
  constructor
  · intro lists
    refine ⟨⟨lists.distinct, ?_, ?_, ?_⟩, lists.ordered⟩
    · intro group member
      rw [contents]
      exact lists.contents group member
    · intro group member
      rw [first]
      exact lists.named group member
    · intro entry member
      obtain ⟨error, errorMember, given⟩ := List.mem_filterMap.mp member
      -- A finding has the path of the piece that its error is shown at.
      rw [ofError?_eq] at given
      obtain ⟨part, shown, rfl⟩ := Option.map_eq_some_iff.mp given
      exact lists.complete error errorMember part shown
  · rintro ⟨gathered, ordered⟩
    refine ⟨gathered.distinct, ?_, ?_, ?_, ordered⟩
    · intro group member
      rw [← contents]
      exact gathered.contents group member
    · intro group member
      rw [← first]
      exact gathered.named group member
    · intro error member part shown
      obtain ⟨diagnostic, given⟩ :
          ∃ diagnostic, ofError? error = some (Path.ofText part.path, diagnostic) := by
        rw [ofError?_eq, Option.mem_def.mp shown]
        exact ⟨_, rfl⟩
      exact gathered.complete _ (List.mem_filterMap.mpr ⟨error, member, given⟩)

/-- The report of a project lists its errors. -/
theorem lists_ofStatus (status : Reply.Status) : Lists status (ofStatus status) := by
  have gathered := gathered_gather (status.errors.filterMap ofError?)
  apply lists_iff_gathered.mpr
  exact ⟨gathered.of_perm (List.mergeSort_perm _ _), gathered.pairwise_mergeSort⟩

/-- No other report lists them. -/
theorem lists_iff : Lists status report ↔ report = ofStatus status := by
  constructor
  · intro lists
    obtain ⟨gathered, ordered⟩ := lists_iff_gathered.mp lists
    have own := gathered_gather (status.errors.filterMap ofError?)
    -- Both are the same groups, and there is only one order that is wanted.
    have sorted := own.mergeSort_eq (own.perm gathered) ordered
    have files : report.files = (ofStatus status).files := sorted.symm
    cases report
    exact congrArg DiagnosticsReport.mk files
  · rintro rfl
    exact lists_ofStatus status

/-- Adding a diagnostic adds one to all that are listed. -/
theorem flatMap_add {files : List Group}
    (distinct : files.Pairwise fun left right => ¬left.1.sameAs right.1) (path : Path)
    (diagnostic : Diagnostic) :
    ((add files path diagnostic).flatMap (·.2)).Perm (files.flatMap (·.2) ++ [diagnostic]) := by
  by_cases known : files.any (·.1.sameAs path)
  · -- One group has the file, and those around it stay as they are.
    obtain ⟨group, member, same⟩ := List.any_eq_true.mp known
    obtain ⟨before, behind, rfl⟩ := List.append_of_mem member
    obtain ⟨_, late, early⟩ := List.pairwise_append.mp distinct
    have elsewhere : ∀ others : List Group, (∀ one ∈ others, ¬one.1.sameAs path) →
        (others.map fun entry => if entry.1.sameAs path then
          (entry.1, entry.2 ++ [diagnostic]) else entry) = others := by
      intro others apart
      calc
        _ = others.map id := by
          apply List.map_congr_left
          intro one member
          exact if_neg (apart one member)
        _ = others := List.map_id _
    have front : ∀ one ∈ before, ¬one.1.sameAs path := by
      intro one oneMember
      rw [← sameAs_left same]
      exact early one oneMember group List.mem_cons_self
    have back : ∀ one ∈ behind, ¬one.1.sameAs path := by
      intro one oneMember
      rw [← sameAs_left same]
      exact fun turned => (List.pairwise_cons.mp late).1 one oneMember (sameAs_symm turned)
    rw [add, if_pos known, List.map_append, List.map_cons, elsewhere before front,
      elsewhere behind back, if_pos same]
    simp only [List.flatMap_append, List.flatMap_cons, List.append_assoc]
    -- The new diagnostic stands in front of the groups behind and may as well stand at the end.
    exact (List.perm_append_comm.append_left group.2).append_left _
  · rw [add, if_neg known]
    simp

/-- All that is gathered is listed once. -/
theorem flatMap_gather (found : List Finding) :
    ((gather found).flatMap (·.2)).Perm (found.map (·.2)) := by
  induction found using List.reverseRecOn with
  | nil => exact List.Perm.nil
  | append_singleton found entry ih =>
    have last : gather (found ++ [entry]) = add (gather found) entry.1 entry.2 := by
      rw [gather, List.foldl_append]
      rfl
    rw [last, List.map_append]
    exact (flatMap_add (gathered_gather found).distinct _ _).trans (ih.append_right _)

/-- The diagnostics of a report are those of the errors that are shown anywhere. -/
theorem flatMap_ofStatus (status : Reply.Status) :
    ((ofStatus status).files.flatMap (·.2)).Perm (status.errors.filterMap diagnostic?) := by
  have sorted : (ofStatus status).files.Perm (gather (status.errors.filterMap ofError?)) :=
    List.mergeSort_perm _ _
  have found : (status.errors.filterMap ofError?).map (·.2) =
      status.errors.filterMap diagnostic? := List.map_filterMap ..
  rw [← found]
  exact (sorted.flatMap_right _).trans (flatMap_gather _)

/-- A report has a group for a file exactly if an error is shown in it, with all such errors. -/
theorem forFile?_ofStatus (status : Reply.Status) (path : Path) :
    (ofStatus status).forFile? path =
      if errorsAt status path = [] then none
      else some ((errorsAt status path).filterMap diagnostic?) := by
  have lists := lists_ofStatus status
  have gathered := (lists_iff_gathered.mp lists).1
  unfold forFile?
  cases located : (ofStatus status).files.find? (·.1.sameAs path) with
  | some group =>
    have member := List.mem_of_find?_eq_some located
    have same := List.find?_some located
    have contents := lists.contents group member
    have respelled : errorsAt status group.1 = errorsAt status path := by
      unfold errorsAt pointsAt
      simp only [sameAs_left same]
    rw [respelled] at contents
    -- A group is never empty, so there are errors in the file.
    have shown : errorsAt status path ≠ [] := by
      intro nothing
      apply gathered.nonempty member
      rw [contents, nothing]
      rfl
    rw [if_neg shown, Option.map_some, contents]
  | none =>
    have missing := List.find?_eq_none.mp located
    have nothing : errorsAt status path = [] := by
      unfold errorsAt
      rw [List.filter_eq_nil_iff]
      intro error member pointing
      unfold pointsAt at pointing
      cases shown : shownAt? error with
      | none => simp [shown] at pointing
      | some part =>
        obtain ⟨group, groupMember, spelled⟩ := lists.complete error member part shown
        rw [shown, Option.any_some] at pointing
        apply missing group groupMember
        rw [← sameAs_left pointing]
        exact spelled
    rw [if_pos nothing]
    rfl

/-- The errors of a report are those of the gravest level that are shown anywhere. -/
theorem errorCount_ofStatus (status : Reply.Status) :
    (ofStatus status).errorCount =
      status.errors.countP fun error => (shownAt? error).isSome && error.level == "error" := by
  unfold errorCount
  rw [(flatMap_ofStatus status).countP_eq, List.countP_filterMap]
  apply List.countP_congr
  intro error _
  rw [diagnostic?, ofError?_eq]
  cases shownAt? error with
  | none => simp
  | some part =>
    by_cases grave : error.level = "error" <;> simp [Severity.ofLevel, Severity.isError, grave]

/-- The report follows from the errors of each file. -/
theorem ofStatus_congr (same : ∀ path, errorsAt other path = errorsAt status path) :
    ofStatus other = ofStatus status := by
  have lists := lists_ofStatus status
  refine (lists_iff.mp ⟨lists.distinct, ?_, ?_, ?_, lists.ordered⟩).symm
  · intro group member
    rw [same]
    exact lists.contents group member
  · intro group member
    rw [same]
    exact lists.named group member
  · intro error member part shown
    -- An error that is shown somewhere is also among those of the other answer.
    have there : error ∈ errorsAt other (Path.ofText part.path) := by
      apply List.mem_filter.mpr
      refine ⟨member, ?_⟩
      simp [pointsAt, Option.mem_def.mp shown, sameAs_refl]
    rw [same] at there
    exact lists.complete error (List.mem_filter.mp there).1 part shown

/-- The report of a project is the only one that lists its errors file by file in the order that is
wanted. An error that is shown at its operation, or else at the first piece of its message that
points at a place, is listed once and any other not at all. The groups may be sorted from any order;
what is asked of a report tells of the errors of one file, or of their number; and errors of
different files may change places. -/
theorem report_lists_errors_once (status : Reply.Status) :
    (∀ error, ofError? error = (shownAt? error).map fun part => (Path.ofText part.path,
      ⟨blameRange part, textAt error part, Severity.ofLevel error.level, "flow"⟩)) ∧
    (∀ report, Lists status report ↔ report = ofStatus status) ∧
    ((ofStatus status).files.flatMap (·.2)).Perm (status.errors.filterMap diagnostic?) ∧
    (∀ group ∈ (ofStatus status).files, group.2 ≠ []) ∧
    (∀ files : List Group, files.Perm (ofStatus status).files →
      files.mergeSort notAfter = (ofStatus status).files) ∧
    (∀ path, (ofStatus status).forFile? path = if errorsAt status path = [] then none
      else some ((errorsAt status path).filterMap diagnostic?)) ∧
    (ofStatus status).errorCount =
      (status.errors.countP fun error => (shownAt? error).isSome && error.level == "error") ∧
    ∀ other, (∀ path, errorsAt other path = errorsAt status path) →
      ofStatus other = ofStatus status := by
  obtain ⟨gathered, ordered⟩ := lists_iff_gathered.mp (lists_ofStatus status)
  refine ⟨ofError?_eq, fun report => lists_iff, flatMap_ofStatus status, ?_, ?_,
    forFile?_ofStatus status, errorCount_ofStatus status, fun other => ofStatus_congr⟩
  · intro group member
    exact gathered.nonempty member
  · intro files shuffled
    exact (gathered.of_perm shuffled).mergeSort_eq shuffled ordered

/-- Errors that are not shown in one file may change places without a file taking notice. -/
theorem errorsAt_swap {passed : Bool} {one other : Reply.Error} (behind : List Reply.Error)
    (apart : ∀ left ∈ shownAt? one, ∀ right ∈ shownAt? other,
      ¬(Path.ofText left.path).sameAs (Path.ofText right.path)) (path : Path) :
    errorsAt ⟨passed, one :: other :: behind⟩ path =
      errorsAt ⟨passed, other :: one :: behind⟩ path := by
  have never : pointsAt path one → ¬pointsAt path other := by
    intro first second
    unfold pointsAt at first second
    cases left : shownAt? one with
    | none => simp [left] at first
    | some part =>
      cases right : shownAt? other with
      | none => simp [right] at second
      | some piece =>
        rw [left, Option.any_some] at first
        rw [right, Option.any_some] at second
        -- Were both shown in the file, their paths would stand for the same.
        apply apart part left piece right
        rw [sameAs_left second]
        exact first
  unfold errorsAt
  by_cases first : pointsAt path one
  · simp [first, never first]
  · simp [List.filter_cons, first]

/-- An error of some level with a message that points at a file. -/
def errorIn (level path : String) : Reply.Error :=
  ⟨level, [⟨"wrong", "Blame", path, 1, 1, 1, 2⟩], none⟩

/-- A warning and an error of different files in either order make up one report, in which a file
has the warnings of all its spellings. -/
theorem report_lists_errors_once_shuffled :
    let others := [errorIn "warning" "/p//a.js", ⟨"error", [], none⟩]
    let listed : Reply.Status :=
      ⟨false, errorIn "warning" "/p/a.js" :: errorIn "error" "/p/z.js" :: others⟩
    let shuffled : Reply.Status :=
      ⟨false, errorIn "error" "/p/z.js" :: errorIn "warning" "/p/a.js" :: others⟩
    ofStatus shuffled = ofStatus listed ∧ (ofStatus listed).errorCount = 1 ∧
      ((ofStatus listed).forFile? (Path.ofText "/p/./a.js")).map List.length = some 2 := by
  intro others listed shuffled
  obtain ⟨_, _, _, _, _, forFile, count, reordered⟩ := report_lists_errors_once listed
  refine ⟨reordered shuffled ?_, ?_, ?_⟩
  · intro path
    apply errorsAt_swap
    decide +kernel
  · rw [count]
    decide +kernel
  · rw [forFile]
    decide +kernel

end DiagnosticsReport

end FlowService
