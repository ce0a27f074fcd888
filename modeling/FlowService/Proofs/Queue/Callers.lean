import FlowService.Queue.Callers
import Mathlib.Data.List.Induction

/-! What the callers of a service do with their promises has no effect on its state. -/

namespace FlowService

/-- Only the promise that is meant changes, and only what becomes of it. -/
theorem Served.mem_setFate {σ α : Type} {served : Served σ α} {index task : Nat} {fate : Fate α}
    (held : served.held? index = some task) {promise : Promise α}
    (member : promise ∈ (served.setFate index fate).promises) :
    promise ∈ served.promises ∨ promise = ⟨task, fate⟩ := by
  -- Promises are told apart by their places, since two of them may look the same.
  obtain ⟨place, found⟩ := List.mem_iff_getElem?.mp member
  unfold setFate at found
  rw [List.getElem?_modify] at found
  obtain ⟨before, located, same⟩ := Option.map_eq_some_iff.mp found
  by_cases meant : index = place
  · subst place
    rw [held?, located] at held
    split at held
    · rename_i known
      cases known
      cases held
      exact Or.inr (by simpa using same.symm)
    · cases held
  · rw [if_neg meant] at same
    exact Or.inl (same ▸ List.mem_of_getElem? located)

namespace Service

variable {σ β α : Type} {service : Service σ β α} {start served : Served σ α} {begun : σ}
variable {schedule : List (Occurrence β)}

/-- Whatever holds at the start of a run and is kept by every occurrence holds at its end. -/
theorem run_induction {motive : List (Occurrence β) → Served σ α → Prop} (begins : motive [] start)
    (keeps : ∀ schedule served occurrence next, motive schedule served →
      service.step? served occurrence = some next → motive (schedule ++ [occurrence]) next)
    (ran : service.run? start schedule = some served) : motive schedule served := by
  -- The last occurrence of a run happens where the run of those before it ends.
  induction schedule using List.reverseRecOn generalizing served with
  | nil =>
    cases ran
    exact begins
  | append_singleton schedule occurrence ih =>
    simp only [run?, List.foldlM_append, List.foldlM_cons, List.foldlM_nil] at ran
    obtain ⟨before, ranBefore, ran⟩ := Option.bind_eq_some_iff.mp ran
    obtain ⟨after, stepped, same⟩ := Option.bind_eq_some_iff.mp ran
    cases same
    exact keeps schedule before occurrence _ (ih ranBefore) stepped

/-- Callers change no state, whether they collect a result or drop a promise. -/
theorem state_of_step? {occurrence : Occurrence β} {next : Served σ α}
    (stepped : service.step? served occurrence = some next) :
    (∃ action, occurrence = .act action ∧ service.act? served.state action = some next.state) ∨
      Occurrence.actions [occurrence] = [] ∧ next.state = served.state := by
  -- Only an action of the service itself can lead to another state.
  cases occurrence with
  | act action =>
    obtain ⟨state, acted, same⟩ := Option.map_eq_some_iff.mp stepped
    cases same
    exact Or.inl ⟨action, rfl, acted⟩
  | collect promise =>
    obtain ⟨task, _, same⟩ := Option.map_eq_some_iff.mp stepped
    refine Or.inr ⟨rfl, ?_⟩
    subst next
    split <;> rfl
  | drop promise =>
    obtain ⟨task, _, same⟩ := Option.map_eq_some_iff.mp stepped
    cases same
    exact Or.inr ⟨rfl, rfl⟩

/-- Whatever holds at the start and is kept by every action holds of the actions of a run and the
state at its end. -/
theorem actions_induction {motive : List β → σ → Prop} (begins : motive [] start.state)
    (keeps : ∀ actions state action next, motive actions state →
      service.act? state action = some next → motive (actions ++ [action]) next)
    (ran : service.run? start schedule = some served) :
    motive (Occurrence.actions schedule) served.state := by
  -- What callers do is left out of the actions and leaves the state as it is.
  refine run_induction (motive := fun schedule served =>
    motive (Occurrence.actions schedule) served.state) begins ?_ ran
  intro schedule served occurrence next holds stepped
  have split : Occurrence.actions (schedule ++ [occurrence]) =
      Occurrence.actions schedule ++ Occurrence.actions [occurrence] := List.filterMap_append
  rcases state_of_step? stepped with ⟨action, rfl, acted⟩ | ⟨none, same⟩
  · rw [split]
    exact keeps _ _ action _ holds acted
  · rw [split, none, List.append_nil, same]
    exact holds

/-- What callers were given are the results of their tasks, when results do not change. -/
theorem kept_of_run
    (lasting : ∀ state action next, service.act? state action = some next → ∀ task result,
      service.result? state task = some result → service.result? next task = some result)
    (ran : service.run? (.fresh begun) schedule = some served) :
    ∀ promise ∈ served.promises, ∀ result, promise.fate = .kept result →
      service.result? served.state promise.task = some result := by
  refine run_induction (motive := fun _ served => ∀ promise ∈ served.promises, ∀ result,
    promise.fate = .kept result → service.result? served.state promise.task = some result)
    (by simp [Served.fresh]) ?_ ran
  intro _ served occurrence next holds stepped promise member result kept
  cases occurrence with
  | act action =>
    obtain ⟨state, acted, same⟩ := Option.map_eq_some_iff.mp stepped
    cases same
    rcases List.mem_append.mp member with old | new
    · exact lasting _ _ _ acted _ _ (holds promise old result kept)
    · -- A new promise is held.
      obtain ⟨task, _, rfl⟩ := List.mem_map.mp new
      cases kept
  | collect index =>
    obtain ⟨task, held, same⟩ := Option.map_eq_some_iff.mp stepped
    subst next
    split at member
    · -- The promise is kept with the result that the service has just now.
      rename_i known
      rcases Served.mem_setFate held member with old | rfl
      · simpa [Served.setFate, known] using holds promise old result kept
      · cases kept
        simp [Served.setFate, known]
    · rename_i unknown
      simpa [unknown] using holds promise member result kept
  | drop index =>
    obtain ⟨task, held, same⟩ := Option.map_eq_some_iff.mp stepped
    subst next
    rcases Served.mem_setFate held member with old | rfl
    · exact holds promise old result kept
    · cases kept

end Service

end FlowService
