import FlowService.Proofs.Queue.Entries

/-! Whoever polls a root while a poll of it is out shares the one result of that poll. -/

namespace FlowService.StatusGate

variable {κ α : Type} [DecidableEq κ]

/-- The tasks of all polls of a root, in the order in which they were started. -/
def pollsOf (gate : StatusGate κ α) (root : κ) : List Nat :=
  (gate.runs.filter (·.root = root)).map (·.task)

/-- What is seen of the polls of a root. -/
def eventsOf (gate : StatusGate κ α) (root : κ) (actions : List (Action κ α)) :
    List QueueEvent :=
  (events actions).filter fun event => event.ticket ∈ gate.pollsOf root

/-- No action changes a result that is there. -/
theorem Step.result_lasts {gate next : StatusGate κ α} {action : Action κ α}
    (step : Step gate action next) {task : Nat} {result : Except CheckerError α}
    (known : gate.result? task = some result) : next.result? task = some result := by
  -- Results are those of the queue, which a gate only changes by steps of the queue.
  unfold result? at known ⊢
  cases step with
  | join out => exact known
  | begin free =>
    have drawn := ProjectQueue.Step.result_lasts .draw known
    exact ProjectQueue.Step.result_lasts (.enter (by simp [ProjectQueue.draw])) drawn
  | note found unknown runs => exact known
  | wake step | start step | die _ _ step | leave _ _ step | clear step | settle step =>
    exact step.result_lasts known

namespace Sound

variable {actions : List (Action κ α)} {gate : StatusGate κ α}

/-- The polls of a root stand in line as they were started. -/
theorem pollsOf_eq (sound : Sound actions gate) (root : κ) :
    gate.pollsOf root = (gate.queue.line root).map (·.ticket) := by
  -- The polls and the tasks of the queue agree on roots as well as on tickets.
  have rooted := congrArg (fun pairs => (pairs.filter (·.2 = root)).map Prod.fst) sound.lined
  simpa [List.filter_map, Function.comp_def, pollsOf, ProjectQueue.line] using rooted

end Sound

/-- Whatever callers do, a root has at most one poll whose body has not ended; whoever asks
meanwhile joins it, all who joined it get what its body brought at its only end, and the bodies of
a root take turns. -/
theorem polls_are_shared {schedule : List (Occurrence (Action κ α))}
    {served : Served (StatusGate κ α) α}
    (ran : service.run? (.fresh empty) schedule = some served) (root : κ) :
    (∀ one ∈ served.state.runs, ∀ other ∈ served.state.runs,
      one.root = root → other.root = root → ends one.task (Occurrence.actions schedule) = [] →
        ends other.task (Occurrence.actions schedule) = [] → one = other) ∧
    (∀ run ∈ served.state.runs, run.root = root →
      ends run.task (Occurrence.actions schedule) = [] →
        served.state.poll root = (run.task, false, served.state) ∧
        service.step? served (.act (.poll root)) =
          some ⟨served.state, served.promises ++ [⟨run.task, .held⟩]⟩) ∧
    (∀ promise ∈ served.promises, ∀ result, promise.fate = .kept result →
      ∃ bodyEnd, ends promise.task (Occurrence.actions schedule) = [bodyEnd] ∧
        bodyEnd.result = result) ∧
    (∀ index task result, served.held? index = some task →
      served.state.result? task = some result →
        (∃ bodyEnd, ends task (Occurrence.actions schedule) = [bodyEnd] ∧
          bodyEnd.result = result) ∧
        service.step? served (.collect index) = some (served.setFate index (.kept result))) ∧
    (served.state.pollsOf root).Nodup ∧
    served.state.eventsOf root (Occurrence.actions schedule) <+:
      (served.state.pollsOf root).flatMap QueueEvent.turn := by
  -- A poll without an end of its body has the entry of its root, and its line is in order.
  have sound := Sound.of_run ran
  have orderly := sound.orderly
  have lined := sound.pollsOf_eq root
  have lasting : ∀ (gate : StatusGate κ α) action next, service.act? gate action = some next →
      ∀ task result, service.result? gate task = some result →
        service.result? next task = some result := by
    intro gate action next acted task result known
    exact (step_of_step? acted).result_lasts known
  refine ⟨?_, ?_, ?_, ?_, ?_, ?_⟩
  · intro one oneMember other otherMember oneRooted otherRooted oneUnended otherUnended
    exact sound.outstanding_unique oneMember otherMember (oneRooted.trans otherRooted.symm)
      (sound.outstanding_of_unended oneMember oneUnended)
      (sound.outstanding_of_unended otherMember otherUnended)
  · intro run member rooted unended
    -- The entry of the root is that of the poll that is out.
    have entry := (sound.entries root _).mpr
      ⟨run, member, rooted, rfl, sound.outstanding_of_unended member unended⟩
    have joined := poll_of_outstanding entry
    exact ⟨joined, by simp [Service.step?, service, step?, joined]⟩
  · -- What was handed out is still the result of the task, and that is what the body brought.
    intro promise member result kept
    exact sound.end_of_result (Service.kept_of_run lasting ran promise member result kept)
  · intro index task result held known
    have asked : service.result? served.state task = some result := known
    exact ⟨sound.end_of_result known, by simp [Service.step?, held, asked]⟩
  · rw [lined]
    exact orderly.distinct_line root
  · have told := sound.tells.isPrefix orderly root
    rw [eventsOf, lined]
    exact told

/-- Three callers share a poll, one of whom leaves; another poll is started after the entry was
taken away and before the task of the first poll is settled. -/
def joining : List (Occurrence (Action Nat Nat)) :=
  [.act (.poll 7), .act (.poll 7), .act (.wake 0), .act (.start 0), .drop 0,
    .act (.finish 0 (.returned (.ok 5))), .act (.poll 7), .act (.leave 0), .act (.poll 7),
    .act (.clear 0), .act (.settle 0), .collect 1, .collect 2, .act (.wake 1), .act (.start 1)]

/-- Both callers who stayed get the result of the first poll, and the bodies do not overlap. -/
theorem polls_are_shared_joining :
    ∃ served, service.run? (.fresh empty) joining = some served ∧
      served.promises.map (·.task) = [0, 0, 0, 1] ∧
      (∃ bodyEnd, ends 0 (Occurrence.actions joining) = [bodyEnd] ∧ bodyEnd.result = .ok 5) ∧
      [QueueEvent.started 0, .ended 0, .started 1] <+: [0, 1].flatMap QueueEvent.turn := by
  have ran : service.run? (.fresh empty) joining = some _ := rfl
  obtain ⟨_, _, given, _, _, turns⟩ := polls_are_shared ran 7
  exact ⟨_, ran, rfl, given ⟨0, .kept (.ok 5)⟩ (.tail _ (.head _)) (.ok 5) rfl, turns⟩

end FlowService.StatusGate
