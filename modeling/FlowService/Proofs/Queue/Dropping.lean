import FlowService.Proofs.Queue.Callers

/-! What some callers do with their promises is noticed neither by the service nor by the others. -/

namespace FlowService

variable {σ β α : Type}

/-- The promise that an occurrence is about, unless it is an action of the service. -/
def Occurrence.promise? : Occurrence β → Option Nat
  | .act _ => none
  | .collect promise => some promise
  | .drop promise => some promise

/-- Whether an occurrence is about one of the chosen promises. -/
def Occurrence.concerns (chosen : Nat → Bool) (occurrence : Occurrence β) : Bool :=
  occurrence.promise?.any chosen

/-- A schedule without what the holders of the chosen promises do. -/
def Occurrence.without (chosen : Nat → Bool) (schedule : List (Occurrence β)) :
    List (Occurrence β) :=
  schedule.filter (!·.concerns chosen)

/-- Holders of promises take no action, so leaving out what they do leaves all actions. -/
theorem Occurrence.actions_without (chosen : Nat → Bool) (schedule : List (Occurrence β)) :
    actions (without chosen schedule) = actions schedule := by
  unfold actions without
  rw [List.filterMap_filter]
  congr 1
  funext occurrence
  cases occurrence with
  | act action => rfl
  | collect index => exact ite_self none
  | drop index => exact ite_self none

/-- Two states of a service tell each other apart by the chosen promises only. -/
structure Served.Alike (chosen : Nat → Bool) (one other : Served σ α) : Prop where
  states : one.state = other.state
  -- The same promises were made, and only the fate of a chosen one may be another.
  tasks : one.promises.map (·.task) = other.promises.map (·.task)
  others : ∀ index, ¬chosen index → one.promises[index]? = other.promises[index]?

namespace Served

variable {chosen : Nat → Bool} {one other : Served σ α}

/-- A state is like itself. -/
theorem Alike.refl (served : Served σ α) : Alike chosen served served :=
  ⟨rfl, rfl, fun _ _ => rfl⟩

/-- States are alike in either order. -/
theorem Alike.symm (alike : Alike chosen one other) : Alike chosen other one :=
  ⟨alike.states.symm, alike.tasks.symm, fun index free => (alike.others index free).symm⟩

/-- States that are like the same one are alike. -/
theorem Alike.trans (alike : Alike chosen one other) {third : Served σ α}
    (further : Alike chosen other third) : Alike chosen one third :=
  ⟨alike.states.trans further.states, alike.tasks.trans further.tasks,
    fun index free => (alike.others index free).trans (further.others index free)⟩

/-- Settling the fate of a promise keeps its task. -/
theorem setFate_tasks (served : Served σ α) (index : Nat) (fate : Fate α) :
    (served.setFate index fate).promises.map (·.task) = served.promises.map (·.task) := by
  -- Place by place the task is the same, whether or not the promise is the one that is meant.
  refine List.ext_getElem? fun place => ?_
  rw [List.getElem?_map, List.getElem?_map, setFate, List.getElem?_modify]
  cases served.promises[place]? with
  | none => rfl
  | some promise => by_cases same : index = place <;> simp [same]

/-- The fate of a chosen promise does not matter. -/
theorem Alike.setFate_chosen (served : Served σ α) {index : Nat} (isChosen : chosen index)
    (fate : Fate α) : Alike chosen served (served.setFate index fate) := by
  refine ⟨rfl, (setFate_tasks served index fate).symm, fun place free => ?_⟩
  have apart : index ≠ place := by
    rintro rfl
    exact free isChosen
  exact (List.getElem?_modify_ne _ _ apart).symm

/-- States stay alike when a promise comes to the same fate in both. -/
theorem Alike.setFate (alike : Alike chosen one other) (index : Nat) (fate : Fate α) :
    Alike chosen (one.setFate index fate) (other.setFate index fate) := by
  refine ⟨alike.states, ?_, fun place free => ?_⟩
  · rw [setFate_tasks, setFate_tasks, alike.tasks]
  · simp only [Served.setFate, List.getElem?_modify, alike.others place free]

/-- A promise that is not chosen is held in both states or in none. -/
theorem Alike.held? (alike : Alike chosen one other) {index : Nat} (free : ¬chosen index) :
    one.held? index = other.held? index := by
  unfold Served.held?
  rw [alike.others index free]

end Served

namespace Service

variable {service : Service σ β α} {chosen : Nat → Bool} {one other next : Served σ α}

/-- What the holder of a chosen promise does leads to a state that is alike. -/
theorem alike_of_concerns {occurrence : Occurrence β} (about : occurrence.concerns chosen)
    (stepped : service.step? one occurrence = some next) : one.Alike chosen next := by
  -- Collecting and dropping change the fate of that promise, or nothing.
  cases occurrence with
  | act action => cases about
  | collect index =>
    obtain ⟨task, held, rfl⟩ := Option.map_eq_some_iff.mp stepped
    split
    · exact .setFate_chosen one about _
    · exact .refl one
  | drop index =>
    obtain ⟨task, held, rfl⟩ := Option.map_eq_some_iff.mp stepped
    exact .setFate_chosen one about _

/-- What happens otherwise happens in every state that is alike, with the same effect. -/
theorem alike_step (alike : one.Alike chosen other) {occurrence : Occurrence β}
    (apart : ¬occurrence.concerns chosen) (stepped : service.step? one occurrence = some next) :
    ∃ after, service.step? other occurrence = some after ∧ next.Alike chosen after := by
  cases occurrence with
  | act action =>
    obtain ⟨state, acted, rfl⟩ := Option.map_eq_some_iff.mp stepped
    rw [alike.states] at acted
    refine ⟨_, Option.map_eq_some_iff.mpr ⟨state, acted, rfl⟩, rfl, ?_, fun index free => ?_⟩
    · simp [alike.tasks, alike.states]
    · -- As many promises were made before in both, so the new ones come at the same places.
      have length : one.promises.length = other.promises.length := by
        simpa using congrArg List.length alike.tasks
      simp only [List.getElem?_append, length, alike.others index free, alike.states]
  | collect index =>
    have free : ¬chosen index := apart
    obtain ⟨task, held, rfl⟩ := Option.map_eq_some_iff.mp stepped
    rw [alike.held? free] at held
    refine ⟨_, Option.map_eq_some_iff.mpr ⟨task, held, rfl⟩, ?_⟩
    rw [alike.states]
    split
    · exact alike.setFate index _
    · exact alike
  | drop index =>
    have free : ¬chosen index := apart
    obtain ⟨task, held, rfl⟩ := Option.map_eq_some_iff.mp stepped
    rw [alike.held? free] at held
    exact ⟨_, Option.map_eq_some_iff.mpr ⟨task, held, rfl⟩, alike.setFate index _⟩

/-- One more occurrence happens after the run that all others make. -/
theorem run?_concat {start served : Served σ α} {schedule : List (Occurrence β)}
    {occurrence : Occurrence β} :
    service.run? start (schedule ++ [occurrence]) = some served ↔
      ∃ before, service.run? start schedule = some before ∧
        service.step? before occurrence = some served := by
  simp [run?, List.foldlM_append, Option.bind_eq_some_iff]

/-- What the holders of some promises do may be left out, and the rest is a run to the same state. -/
theorem run_without {start served : Served σ α} {schedule : List (Occurrence β)}
    (ran : service.run? start schedule = some served) (chosen : Nat → Bool) :
    ∃ rest, service.run? start (Occurrence.without chosen schedule) = some rest ∧
      served.Alike chosen rest := by
  -- Step by step, what is left out does not matter, and all else happens in the same way.
  refine run_induction (motive := fun schedule served => ∃ rest,
    service.run? start (Occurrence.without chosen schedule) = some rest ∧
      served.Alike chosen rest) ⟨start, rfl, .refl start⟩ ?_ ran
  rintro schedule served occurrence next ⟨rest, ranRest, alike⟩ stepped
  have split : Occurrence.without chosen (schedule ++ [occurrence]) =
      Occurrence.without chosen schedule ++ Occurrence.without chosen [occurrence] :=
    List.filter_append ..
  by_cases about : occurrence.concerns chosen
  · have left : Occurrence.without chosen [occurrence] = [] := by
      simp [Occurrence.without, about]
    rw [split, left, List.append_nil]
    exact ⟨rest, ranRest, (alike_of_concerns about stepped).symm.trans alike⟩
  · have kept : Occurrence.without chosen [occurrence] = [occurrence] := by
      simp [Occurrence.without, about]
    obtain ⟨after, happened, alikeAfter⟩ := alike_step alike about stepped
    rw [split, kept]
    exact ⟨after, run?_concat.mpr ⟨rest, ranRest, happened⟩, alikeAfter⟩

end Service

end FlowService
