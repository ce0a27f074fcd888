import FlowService.Proofs.Queue.Own
import FlowService.Proofs.Queue.Patience
import Mathlib.Data.List.Forall2

/-!
When some tasks of a queue are left out, with all that happens to them, the others do what they did:
each of them waits for the end of the nearest one that is left before it.
-/

namespace FlowService.ProjectQueue

variable {κ α : Type} {keep : Nat → Bool} {queue : ProjectQueue κ α}

/-- What is waited for among the tasks that are left comes before as well among all of them. -/
def Awaits (keep : Nat → Bool) (queue : ProjectQueue κ α) (previous among : Option Nat) : Prop :=
  ∀ earlier, among = some earlier →
    ∃ kept, keep kept ∧ earlier = place keep kept ∧ Behind keep queue previous kept

/-- A task that is left, as it is among all tasks and among those that are left. -/
structure Twin (keep : Nat → Bool) (queue : ProjectQueue κ α) (task other : QueueTask κ α) :
    Prop where
  kept : keep task.ticket
  ticket : other.ticket = place keep task.ticket
  root : other.root = task.root
  stage : other.stage = task.stage
  waits : Awaits keep queue task.previous other.previous

/-- Both go on to the same stage. -/
theorem Twin.restage {task other : QueueTask κ α} (twin : Twin keep queue task other)
    {ticket : Nat} (kept : keep ticket) (stage : Stage α) :
    Twin keep queue (task.restage ticket stage) (other.restage (place keep ticket) stage) := by
  by_cases meant : task.ticket = ticket
  · have alsoMeant : other.ticket = place keep ticket := by rw [twin.ticket, meant]
    exact ⟨by simpa using twin.kept, by simpa using twin.ticket, by simpa using twin.root,
      by rw [QueueTask.restage_stage_same alsoMeant, QueueTask.restage_stage_same meant],
      by simpa using twin.waits⟩
  · have apart : other.ticket ≠ place keep ticket := by
      rw [twin.ticket]
      exact fun same => meant (place_inj twin.kept kept same)
    rwa [QueueTask.restage_of_ne meant, QueueTask.restage_of_ne apart]

/-- A ticket that is left leads to the same task in both, if to any. -/
theorem find?_twin {tasks others : List (QueueTask κ α)}
    (alike : List.Forall₂ (Twin keep queue) tasks others) {ticket : Nat} (kept : keep ticket) :
    (tasks.find? (·.ticket == ticket) = none ∧
      others.find? (·.ticket == place keep ticket) = none) ∨
    ∃ task other, tasks.find? (·.ticket == ticket) = some task ∧
      others.find? (·.ticket == place keep ticket) = some other ∧ Twin keep queue task other := by
  -- Both lists are searched side by side, and twins are met at the same time.
  induction alike with
  | nil => exact Or.inl ⟨rfl, rfl⟩
  | @cons task other tasks others twin rest ih =>
    simp only [List.find?_cons, twin.ticket]
    by_cases same : task.ticket = ticket
    · exact Or.inr ⟨task, other, by simp [same], by simp [same], twin⟩
    · have apart : place keep task.ticket ≠ place keep ticket :=
        fun equal => same (place_inj twin.kept kept equal)
      rwa [beq_false_of_ne same, beq_false_of_ne apart]

/-- What is waited for among the tasks that are left is waited for later on as well. -/
theorem Awaits.mono {next : ProjectQueue κ α} {previous among : Option Nat}
    (awaits : Awaits keep queue previous among)
    (onwards : ∀ earlier, Behind keep queue previous earlier → Behind keep next previous earlier) :
    Awaits keep next previous among := by
  intro earlier same
  obtain ⟨kept, keeps, placed, behind⟩ := awaits earlier same
  exact ⟨kept, keeps, placed, onwards kept behind⟩

/-- Twins stay twins while others go on. -/
theorem Twin.mono {next : ProjectQueue κ α} {task other : QueueTask κ α}
    (twin : Twin keep queue task other) (onwards : ∀ previous earlier,
      Behind keep queue previous earlier → Behind keep next previous earlier) :
    Twin keep next task other :=
  ⟨twin.kept, twin.ticket, twin.root, twin.stage, twin.waits.mono (onwards _)⟩

variable [DecidableEq κ] {whole part next : ProjectQueue κ α}

/-- A queue is what remains of another one when only some of its tickets are kept. -/
structure Remains (keep : Nat → Bool) (whole part : ProjectQueue κ α) : Prop where
  nextTicket : part.nextTicket = place keep whole.nextTicket
  drawn : part.drawn = (whole.drawn.filter keep).map (place keep)
  tail : ∀ root, Awaits keep whole (whole.tail? root) (part.tail? root)
  tasks : List.Forall₂ (Twin keep whole) (whole.tasks.filter (keep ·.ticket)) part.tasks

namespace Remains

/-- Of a queue without tasks such a queue remains. -/
theorem empty (keep : Nat → Bool) :
    Remains keep (ProjectQueue.empty : ProjectQueue κ α) ProjectQueue.empty where
  nextTicket := by simp [ProjectQueue.empty, place]
  drawn := rfl
  tail _ _ marked := nomatch marked
  tasks := .nil

/-- A ticket that is kept leads to the same task in what remains, if to any. -/
theorem task? (remains : Remains keep whole part) {ticket : Nat} (kept : keep ticket) :
    (whole.task? ticket = none ∧ part.task? (place keep ticket) = none) ∨
    ∃ task other, whole.task? ticket = some task ∧
      part.task? (place keep ticket) = some other ∧ Twin keep whole task other := by
  have found := find?_twin remains.tasks kept
  have all : (fun task : QueueTask κ α =>
      decide (keep task.ticket ∧ (task.ticket == ticket) = true)) =
      fun task => task.ticket == ticket := by
    funext task
    by_cases same : task.ticket = ticket <;> simp [same, kept]
  rwa [List.find?_filter, all] at found

/-- A task with a ticket that is kept is there in what remains. -/
theorem twin (remains : Remains keep whole part) {ticket : Nat} (kept : keep ticket)
    {task : QueueTask κ α} (found : whole.task? ticket = some task) :
    ∃ other, part.task? (place keep ticket) = some other ∧ Twin keep whole task other := by
  rcases remains.task? kept with ⟨missing, _⟩ | ⟨own, other, located, otherFound, twin⟩
  · rw [found] at missing
    cases missing
  · obtain rfl := Option.some.inj (located.symm.trans found)
    exact ⟨other, otherFound, twin⟩

/-- Tasks that are kept come as far in what remains. -/
theorem stage? (remains : Remains keep whole part) {ticket : Nat} (kept : keep ticket) :
    part.stage? (place keep ticket) = whole.stage? ticket := by
  unfold ProjectQueue.stage?
  rcases remains.task? kept with ⟨missing, otherMissing⟩ | ⟨task, other, found, otherFound, twin⟩
  · rw [missing, otherMissing]
  · rw [found, otherFound]
    exact congrArg some twin.stage

/-- A task that is kept goes on in what remains as well. -/
theorem goOn (remains : Remains keep whole part) {ticket : Nat} {stage : Stage α}
    (onwards : ∀ previous earlier, Behind keep whole previous earlier →
      Behind keep (whole.setStage ticket stage) previous earlier) (kept : keep ticket) :
    Remains keep (whole.setStage ticket stage) (part.setStage (place keep ticket) stage) where
  nextTicket := remains.nextTicket
  drawn := remains.drawn
  tail root := (remains.tail root).mono (onwards _)
  tasks := by
    show List.Forall₂ _ ((whole.tasks.map _).filter _) (part.tasks.map _)
    rw [List.filter_map, List.forall₂_map_left_iff, List.forall₂_map_right_iff]
    simpa [Function.comp_def] using remains.tasks.imp fun task other twin =>
      (twin.mono onwards).restage kept stage

/-- What remains stays as it was when a task goes on that is not kept. -/
theorem goOn_left (remains : Remains keep whole part) {ticket : Nat} {stage : Stage α}
    (onwards : ∀ previous earlier, Behind keep whole previous earlier →
      Behind keep (whole.setStage ticket stage) previous earlier) (left : keep ticket = false) :
    Remains keep (whole.setStage ticket stage) part where
  nextTicket := remains.nextTicket
  drawn := remains.drawn
  tail root := (remains.tail root).mono (onwards _)
  tasks := by
    have same : (whole.setStage ticket stage).tasks.filter (keep ·.ticket) =
        whole.tasks.filter (keep ·.ticket) := by
      rw [ProjectQueue.setStage, List.filter_map]
      simp only [Function.comp_def, QueueTask.restage_ticket]
      refine (List.map_congr_left fun task member => ?_).trans (List.map_id _)
      refine QueueTask.restage_of_ne (fun meant => ?_) stage
      have kept := (List.mem_filter.mp member).2
      rw [meant, left] at kept
      cases kept
    rw [same]
    exact remains.tasks.imp fun task other twin => twin.mono onwards

/-- A task that is kept has nothing to wait for in what remains when it has nothing to wait for. -/
theorem isReady (remains : Remains keep whole part) (patient : Patient whole)
    {task other : QueueTask κ α} (twin : Twin keep whole task other) (ready : whole.isReady task) :
    part.isReady other := by
  unfold ProjectQueue.isReady
  cases previous : other.previous with
  | none => rfl
  | some earlier =>
    obtain ⟨kept, keeps, rfl, behind⟩ := twin.waits earlier previous
    have settled := behind.isSettled patient ready
    simpa [isSettled, remains.stage? keeps] using settled

/-- When the mark of a root is taken off, all that the last task came after is settled. -/
theorem unmarked (remains : Remains keep whole part) (patient : Patient whole) {ticket : Nat}
    {task : QueueTask κ α} (found : whole.task? ticket = some task) (called : task.stage.Called)
    {root : κ} {mark : Option Nat} (among : ∀ earlier, mark = some earlier →
      part.tail? root = some earlier ∧
        (root = task.root → keep ticket → earlier ≠ place keep ticket)) :
    Awaits keep (whole.clearTail task.root ticket)
      ((whole.clearTail task.root ticket).tail? root) mark := by
  intro earlier marked
  obtain ⟨before, apart⟩ := among earlier marked
  obtain ⟨kept, keeps, rfl, behind⟩ := remains.tail root earlier before
  refine ⟨kept, keeps, rfl, .of_tasks (clearTail_tasks ..) ?_⟩
  -- Either the mark stays, or the ticket was the last one, and what came before it is settled.
  rw [clearTail_tail?]
  split
  · rename_i last
    obtain ⟨rfl, last⟩ := last
    rw [last] at behind
    cases behind with
    | next => exact absurd rfl (apart rfl keeps)
    | settled settled => exact .settled settled
    | past left located behind =>
      obtain rfl := Option.some.inj (located.symm.trans found)
      exact .settled (behind.isSettled patient (patient _ (mem_of_task? found).1 called))
  · exact behind

/-- The mark that a task takes off its root is taken off in what remains as well, if it is there. -/
theorem clearTail (remains : Remains keep whole part) (patient : Patient whole) {ticket : Nat}
    {task : QueueTask κ α} (found : whole.task? ticket = some task) (called : task.stage.Called) :
    (keep ticket → Remains keep (whole.clearTail task.root ticket)
      (part.clearTail task.root (place keep ticket))) ∧
    (keep ticket = false → Remains keep (whole.clearTail task.root ticket) part) := by
  -- Marks have nothing to do with who comes behind whom.
  have onwards : ∀ previous earlier, Behind keep whole previous earlier →
      Behind keep (whole.clearTail task.root ticket) previous earlier :=
    fun _ _ => .of_tasks (clearTail_tasks ..)
  have tasks : List.Forall₂ (Twin keep (whole.clearTail task.root ticket))
      ((whole.clearTail task.root ticket).tasks.filter (keep ·.ticket)) part.tasks := by
    rw [clearTail_tasks]
    exact remains.tasks.imp fun task other twin => twin.mono onwards
  constructor
  · intro kept
    refine ⟨?_, ?_, fun root => remains.unmarked patient found called fun earlier marked => ?_, ?_⟩
    · rw [clearTail_nextTicket, clearTail_nextTicket, remains.nextTicket]
    · rw [clearTail_drawn, clearTail_drawn, remains.drawn]
    · rw [clearTail_tail?] at marked
      split at marked
      · cases marked
      · rename_i stays
        refine ⟨marked, fun rooted _ same => stays ⟨rooted, ?_⟩⟩
        rw [← rooted, marked, same]
    · rw [clearTail_tasks part]
      exact tasks
  · intro left
    refine ⟨?_, ?_, fun root => remains.unmarked patient found called fun earlier marked => ?_,
      tasks⟩
    · rw [clearTail_nextTicket, remains.nextTicket]
    · rw [clearTail_drawn, remains.drawn]
    · exact ⟨marked, fun _ kept => absurd kept (by simp [left])⟩

/-- What remains takes the same step as the whole, when it is about a ticket that is kept. -/
theorem step_kept (remains : Remains keep whole part) (patient : Patient whole)
    {action : Action κ α} (step : Step whole action next)
    (kept : keep (action.ticketAt whole.nextTicket)) :
    ∃ other, part.step? (action.rename (place keep)) = some other ∧ Remains keep next other := by
  -- Whoever came behind somebody does so after the step.
  have onwards : ∀ previous earlier, Behind keep whole previous earlier →
      Behind keep next previous earlier := fun _ _ behind => behind.step step
  cases step with
  | draw =>
    have kept : keep whole.nextTicket := kept
    refine ⟨_, rfl, ?_, ?_, fun root => (remains.tail root).mono (onwards _), ?_⟩
    · simp [ProjectQueue.draw, place_succ, kept, remains.nextTicket]
    · simp [ProjectQueue.draw, kept, remains.nextTicket, remains.drawn]
    · exact remains.tasks.imp fun task other twin => twin.mono onwards
  | @enter ticket root drawn =>
    have kept : keep ticket := kept
    have among : place keep ticket ∈ part.drawn := by
      rw [remains.drawn]
      exact List.mem_map_of_mem (List.mem_filter.mpr ⟨drawn, kept⟩)
    -- Only the ticket itself has its place among those that are kept.
    have apart : ∀ other ∈ whole.drawn.filter keep,
        place keep other = place keep ticket → other = ticket :=
      fun other member => place_inj (List.mem_filter.mp member).2 kept
    refine ⟨part.enter (place keep ticket) root, ?_, remains.nextTicket, ?_, fun other => ?_, ?_⟩
    · simp [Action.rename, step?, among]
    · show part.drawn.erase _ = ((whole.drawn.erase ticket).filter keep).map _
      rw [remains.drawn, ← map_erase_of_inj _ apart, List.erase_filter]
    · rw [enter_tail?, enter_tail?]
      split
      · intro earlier marked
        exact ⟨ticket, kept, (Option.some.inj marked).symm, .next⟩
      · exact (remains.tail other).mono (onwards _)
    · have added : (whole.enter ticket root).tasks.filter (keep ·.ticket) =
          whole.tasks.filter (keep ·.ticket) ++ [⟨ticket, root, whole.tail? root, .waiting⟩] := by
        simp [ProjectQueue.enter, kept]
      rw [added]
      refine List.rel_append (remains.tasks.imp fun task other twin => twin.mono onwards) ?_
      exact .cons ⟨kept, rfl, rfl, rfl, (remains.tail root).mono (onwards _)⟩ .nil
  | @wake ticket task found waits ready =>
    have kept : keep ticket := kept
    obtain ⟨other, otherFound, twin⟩ := remains.twin kept found
    have otherReady := remains.isReady patient twin ready
    refine ⟨part.setStage (place keep ticket) .awake, ?_, remains.goOn onwards kept⟩
    simp [Action.rename, step?, otherFound, twin.stage, waits, otherReady]
  | @start ticket task found awake =>
    have kept : keep ticket := kept
    obtain ⟨other, otherFound, twin⟩ := remains.twin kept found
    refine ⟨part.setStage (place keep ticket) .running, ?_, remains.goOn onwards kept⟩
    simp [Action.rename, step?, otherFound, twin.stage, awake]
  | @finish ticket task bodyEnd found runs =>
    have kept : keep ticket := kept
    obtain ⟨other, otherFound, twin⟩ := remains.twin kept found
    refine ⟨part.setStage (place keep ticket) bodyEnd.stage, ?_, remains.goOn onwards kept⟩
    simp [Action.rename, step?, otherFound, twin.stage, runs]
  | @clear ticket task result found ended =>
    have kept : keep ticket := kept
    obtain ⟨other, otherFound, twin⟩ := remains.twin kept found
    have cleared := (remains.clearTail patient found (by simp [ended])).1 kept
    refine ⟨(part.clearTail task.root (place keep ticket)).setStage (place keep ticket)
      (.cleared result), ?_, cleared.goOn (fun previous earlier behind => ?_) kept⟩
    · simp [Action.rename, step?, otherFound, twin.stage, twin.root, ended]
    · exact onwards previous earlier (.of_tasks (clearTail_tasks ..).symm behind)
  | @settle ticket task result found cleared =>
    have kept : keep ticket := kept
    obtain ⟨other, otherFound, twin⟩ := remains.twin kept found
    refine ⟨part.setStage (place keep ticket) (.settled result), ?_, remains.goOn onwards kept⟩
    simp [Action.rename, step?, otherFound, twin.stage, cleared]

/-- What remains stays as it is when a step is about a ticket that is not kept. -/
theorem step_left (remains : Remains keep whole part) (orderly : Orderly whole)
    (patient : Patient whole) {action : Action κ α} (step : Step whole action next)
    (left : keep (action.ticketAt whole.nextTicket) = false) : Remains keep next part := by
  have onwards : ∀ previous earlier, Behind keep whole previous earlier →
      Behind keep next previous earlier := fun _ _ behind => behind.step step
  cases step with
  | draw =>
    have left : keep whole.nextTicket = false := left
    refine ⟨?_, ?_, fun root => (remains.tail root).mono (onwards _), ?_⟩
    · simp [ProjectQueue.draw, place_succ, left, remains.nextTicket]
    · simp [ProjectQueue.draw, left, remains.drawn]
    · exact remains.tasks.imp fun task other twin => twin.mono onwards
  | @enter ticket root drawn =>
    have left : keep ticket = false := left
    -- Nobody has used the ticket, so the task that is found under it later is the new one.
    have free : whole.task? ticket = none := orderly.task?_drawn drawn
    refine ⟨remains.nextTicket, ?_, fun other => ?_, ?_⟩
    · have apart : ticket ∉ whole.drawn.filter keep :=
        fun member => by simp [left] at member
      show part.drawn = ((whole.drawn.erase ticket).filter keep).map _
      rw [← List.erase_filter, List.erase_of_not_mem apart, remains.drawn]
    · rw [enter_tail?]
      split
      · -- The new last task came after whatever the mark named before.
        rename_i same
        subst same
        intro earlier marked
        obtain ⟨kept, keeps, placed, behind⟩ := remains.tail other earlier marked
        exact ⟨kept, keeps, placed, .past left (enter_task?_self other free) (onwards _ _ behind)⟩
      · exact (remains.tail other).mono (onwards _)
    · have same : (whole.enter ticket root).tasks.filter (keep ·.ticket) =
          whole.tasks.filter (keep ·.ticket) := by
        simp [ProjectQueue.enter, left]
      rw [same]
      exact remains.tasks.imp fun task other twin => twin.mono onwards
  | @clear ticket task result found ended =>
    have cleared := (remains.clearTail patient found (by simp [ended])).2 left
    refine cleared.goOn_left (fun previous earlier behind => ?_) left
    exact onwards previous earlier (.of_tasks (clearTail_tasks ..).symm behind)
  | wake | start | finish | settle => exact remains.goOn_left onwards left

end Remains

end FlowService.ProjectQueue
