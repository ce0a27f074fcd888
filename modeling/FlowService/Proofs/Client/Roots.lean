import FlowService.Proofs.Client.Exclusion
import FlowService.Proofs.Project.Plain

/-!
The root of a question is worked out along the spelling of its file, so it is the root on the disk
only where the spelling leads through no link.
-/

namespace FlowService

variable {platform : Option String}

variable {disk other : Disk} {file : Path}

namespace Locator

/-- The disk knows a directory under the path that is given. -/
def IsCanonical (disk : Disk) (directory : Path) : Prop :=
  ∃ real, disk.canonical? directory = some real ∧ real.sameAs directory

/-- Such a path leads through no link. -/
theorem IsCanonical.plain {directory : Path} (canonical : IsCanonical disk directory) :
    Plain disk directory := by
  obtain ⟨real, found, same⟩ := canonical
  rw [Plain, realPath, found]
  exact Path.sameAs_iff.mp same

/-- Where no link is on the way, the root along the spelling is the root on the disk. -/
theorem rootOf_trail (plain : Plain disk (Project.directoryOf file)) :
    (Project.rootOf disk file).trail = (rootAround disk (Project.directoryOf file)).trail := by
  -- Both are the first marked one of directories that stand for the same.
  have above : (realPath disk (Project.directoryOf file)).ancestors.map Path.trail =
      (Project.directoryOf file).ancestors.map Path.trail := by
    rw [Path.ancestors_trail, Path.ancestors_trail, plain]
  have marked : ∀ left right : Path, left.trail = right.trail →
      Project.isMarked disk left = Project.isMarked disk right :=
    fun _ _ spelling => Disk.isMarked_congr spelling
  have found := find?_trail marked above
  unfold Project.rootOf rootAround Project.root?
  cases spelled : (Project.directoryOf file).ancestors.find? (Project.isMarked disk) with
  | none =>
    rw [spelled] at found
    rw [Option.map_eq_none_iff.mp found]
    exact plain.symm
  | some root =>
    rw [spelled] at found
    obtain ⟨real, located, trail⟩ := Option.map_eq_some_iff.mp found
    rw [located]
    exact trail.symm

end Locator

namespace Session

/-- Two files have one root in the queue if it is one on the disk and no link is on the way. -/
theorem rootKey_eq {one other : Path} (onePlain : Locator.Plain disk (Project.directoryOf one))
    (otherPlain : Locator.Plain disk (Project.directoryOf other)) :
    rootKey disk one = rootKey disk other ↔
      (Locator.rootAround disk (Project.directoryOf one)).sameAs
        (Locator.rootAround disk (Project.directoryOf other)) := by
  rw [Path.sameAs_iff, ← Locator.rootOf_trail onePlain, ← Locator.rootOf_trail otherPlain]
  -- The components of a path are its trail in the other order.
  exact List.reverse_inj

/-- The root of a file depends on the disk only as far as directories are marked. -/
theorem rootKey_congr (marks : ∀ directory, Project.isMarked other directory =
    Project.isMarked disk directory) : rootKey other file = rootKey disk file := by
  have same : Project.isMarked other = Project.isMarked disk := funext marks
  simp only [rootKey, Project.rootOf, Project.root?, same]

end Session

namespace Traffic

variable {client : Client platform} {behaviour : Behaviour}

/-- The disk that comes with an action. -/
def Action.disk? : Action → Option Disk
  | .change disk => some disk
  | _ => none

/-- The marked directories stay the same as on a disk. -/
def KeepMarks (disk : Disk) (actions : List Action) : Prop :=
  ∀ action ∈ actions, ∀ other ∈ action.disk?,
    ∀ directory, Project.isMarked other directory = Project.isMarked disk directory

/-- A checker is at work on a question of the queue. -/
def Works (traffic : Traffic) (asking : Asking) : Prop :=
  ∃ running, (Turn.queued asking.ticket, running) ∈ traffic.session.processes ∧
    running.conversation.ended = none

/-- A step of a client asks a question for the queue, or no question is added to those asked. -/
theorem Step.asked {traffic next : Traffic} {action : Action}
    (step : Step client behaviour traffic action next) :
    next.asked = traffic.asked ∨ ∃ question token ticket,
      next.asked = traffic.asked ++
        [⟨question, token, Session.rootKey traffic.session.disk question.file, ticket⟩] := by
  cases step with
  | ask => exact Or.inr ⟨_, _, _, rfl⟩
  | _ => exact Or.inl rfl

/-- The disk of a session only changes by an action that says so. -/
theorem Step.disk_eq {traffic next : Traffic} {action : Action}
    (step : Step client behaviour traffic action next) :
    next.session.disk = action.disk?.getD traffic.session.disk := by
  cases step with
  | answer _ _ ends => exact ends.disk
  | fail _ _ _ ends => exact ends.disk
  | kill _ _ _ ends => exact ends.disk
  | finish _ _ ends => exact ends.disk
  | _ => rfl

/-- While the marked directories stay the same, every question is asked for the root that its file
had at the start. -/
theorem root_of_run {actions : List Action} {traffic : Traffic}
    (ran : (start disk).run? client behaviour actions = some traffic)
    (keep : KeepMarks disk actions) :
    ∀ asking ∈ traffic.asked, asking.root = Session.rootKey disk asking.question.file := by
  -- All along the disk of the session has the marks of the first one.
  have both : (∀ directory, Project.isMarked traffic.session.disk directory =
        Project.isMarked disk directory) ∧
      ∀ asking ∈ traffic.asked, asking.root = Session.rootKey disk asking.question.file := by
    refine run_induction (motive := fun actions traffic => KeepMarks disk actions →
      (∀ directory, Project.isMarked traffic.session.disk directory =
        Project.isMarked disk directory) ∧
      ∀ asking ∈ traffic.asked, asking.root = Session.rootKey disk asking.question.file)
      ?_ ?_ ran keep
    · exact fun _ => ⟨fun _ => rfl, fun _ member => nomatch member⟩
    · intro actions traffic action next holds step keep
      obtain ⟨marks, roots⟩ := holds fun action member => keep action (by simp [member])
      have last := keep action (by simp)
      refine ⟨fun directory => ?_, fun asking member => ?_⟩
      · rw [step.disk_eq]
        cases changed : action.disk? with
        | none => exact marks directory
        | some other => exact last other changed directory
      · rcases step.asked with same | ⟨question, token, ticket, grown⟩
        · exact roots asking (same ▸ member)
        · rw [grown] at member
          rcases List.mem_append.mp member with old | new
          · exact roots asking old
          · obtain rfl := List.mem_singleton.mp new
            exact Session.rootKey_congr marks
  exact both.2

end Traffic

end FlowService
