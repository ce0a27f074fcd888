import FlowService.Proofs.Queue.Entries

/-!
A poll answers from the past exactly when a body for its root died, since only a body that returns
takes its entry away.
-/

namespace FlowService.StatusGate

variable {κ α : Type} [DecidableEq κ]

/-- The body of a poll died. -/
def Died (actions : List (Action κ α)) (run : PollRun κ α) : Prop :=
  ∃ detail, ends run.task actions = [.panicked detail]

/-- No body of a poll of a root died. -/
def Undied (actions : List (Action κ α)) (gate : StatusGate κ α) (root : κ) : Prop :=
  ∀ run ∈ gate.runs, run.root = root → ¬Died actions run

/-- All polls of a root are over, tasks and all. -/
def Finished (gate : StatusGate κ α) (root : κ) : Prop :=
  -- A task gives a result from the moment on at which it is settled.
  ∀ run ∈ gate.runs, run.root = root → gate.result? run.task ≠ none

namespace Sound

variable {actions : List (Action κ α)} {gate : StatusGate κ α} {run : PollRun κ α} {root : κ}

/-- A poll whose body died keeps its entry for good. -/
theorem outstanding_of_died (sound : Sound actions gate) (member : run ∈ gate.runs)
    (died : Died actions run) : gate.Outstanding run := by
  -- With that end of the body, nothing can be noted of it.
  obtain ⟨detail, ended⟩ := died
  obtain ⟨task, found, course⟩ := sound.courses run member
  refine ⟨task, found, Or.inl ?_⟩
  rw [ended] at course
  generalize run.bodyResult = noted at course
  cases course with
  | closed gives => rfl

/-- A poll that is over and keeps its entry is one whose body died. -/
theorem died_of_outstanding (sound : Sound actions gate) (member : run ∈ gate.runs)
    (out : gate.Outstanding run) (finished : gate.result? run.task ≠ none) : Died actions run := by
  obtain ⟨result, known⟩ := Option.ne_none_iff_exists'.mp finished
  obtain ⟨own, found, settled⟩ := ProjectQueue.result?_eq_some.mp known
  obtain ⟨task, located, may⟩ := out
  rw [found] at located
  obtain rfl := Option.some.inj located
  have passed : own.stage.Over := by simp [settled]
  obtain ⟨bodyEnd, ended, noted, _⟩ := (sound.course member found).done passed
  -- Nothing was noted of the body, as would have been had it returned.
  cases bodyEnd with
  | returned result => simp [PollRun.Out, noted, passed, BodyEnd.returned?] at may
  | panicked detail => exact ⟨detail, ended⟩

/-- A root is being polled exactly while one of its polls may be joined. -/
theorem isPolling_iff (sound : Sound actions gate) :
    gate.isPolling root ↔ ∃ run ∈ gate.runs, run.root = root ∧ gate.Outstanding run := by
  -- The entry of a root and its poll that may be joined name each other.
  rw [isPolling, Option.isSome_iff_exists]
  constructor
  · rintro ⟨entry, out⟩
    obtain ⟨run, member, rooted, _, may⟩ := (sound.entries root entry).mp out
    exact ⟨run, member, rooted, may⟩
  · rintro ⟨run, member, rooted, may⟩
    exact ⟨_, (sound.entries root _).mpr ⟨run, member, rooted, rfl, may⟩⟩

/-- A caller joins the poll that may be joined. -/
theorem poll_of_run (sound : Sound actions gate) (member : run ∈ gate.runs)
    (out : gate.Outstanding run) : gate.poll run.root = (run.task, false, gate) :=
  poll_of_outstanding ((sound.entries run.root _).mpr ⟨run, member, rfl, rfl, out⟩)

/-- Without such a poll a caller gets a task that was not there before. -/
theorem poll_of_none (sound : Sound actions gate) (free : ¬gate.isPolling root) :
    (gate.poll root).1 = gate.queue.nextTicket ∧
      gate.queue.nextTicket ∉ gate.runs.map (·.task) := by
  -- All tickets of tasks are below the one that is drawn next.
  have absent : gate.outstanding? root = none := by simpa [isPolling] using free
  refine ⟨by rw [poll_of_free absent], fun listed => ?_⟩
  rw [sound.tasks] at listed
  exact Nat.lt_irrefl _ (sound.orderly.bounded _ (List.mem_append_left _ listed))

/-- A caller is promised the result of a task that is not over, unless one whose body died is. -/
theorem poll_pending_iff (sound : Sound actions gate) :
    gate.result? (gate.poll root).1 = none ↔
      ∀ run ∈ gate.runs, run.root = root → Died actions run → gate.result? run.task = none := by
  -- Whether the promise is pending is settled by the poll that is joined, if there is one.
  by_cases polling : gate.isPolling root
  · obtain ⟨run, member, rfl, out⟩ := sound.isPolling_iff.mp polling
    rw [sound.poll_of_run member out]
    constructor
    · -- The poll that died is the one that is joined.
      intro pending other otherMember rooted died
      have same := sound.outstanding_unique otherMember member rooted
        (sound.outstanding_of_died otherMember died) out
      rwa [same]
    · -- Were the poll that is joined over, its body would have died.
      intro pending
      by_contra finished
      exact finished (pending run member rfl (sound.died_of_outstanding member out finished))
  · obtain ⟨task, fresh⟩ := sound.poll_of_none polling
    constructor
    · -- A poll that died would have kept the root from being free.
      intro _ run member rooted died
      exact absurd (sound.isPolling_iff.mpr
        ⟨run, member, rooted, sound.outstanding_of_died member died⟩) polling
    · -- A task that was not there before has no result.
      intro _
      rw [task]
      by_contra finished
      obtain ⟨result, known⟩ := Option.ne_none_iff_exists'.mp finished
      obtain ⟨own, found, _⟩ := ProjectQueue.result?_eq_some.mp known
      obtain ⟨run, member, named, _⟩ := sound.run_of_task found
      exact fresh (List.mem_map.mpr ⟨run, member, named⟩)

/-- Once all polls of a root are over, the root is free exactly if none of them died. -/
theorem free_iff_undied (sound : Sound actions gate) (finished : gate.Finished root) :
    gate.isPolling root = false ↔ Undied actions gate root := by
  -- A poll that is over can only be joined if its body died.
  have polling : gate.isPolling root = true ↔ ¬Undied actions gate root := by
    rw [sound.isPolling_iff]
    unfold Undied
    push Not
    refine exists_congr fun run => and_congr_right fun member => and_congr_right fun rooted => ?_
    exact ⟨fun out => sound.died_of_outstanding member out (finished run member rooted),
      sound.outstanding_of_died member⟩
  rw [← Bool.not_eq_true, polling, not_not]

/-- A caller gets a new task exactly when its root is free. -/
theorem fresh_iff_free (sound : Sound actions gate) :
    (gate.poll root).1 ∉ gate.runs.map (·.task) ↔ gate.isPolling root = false := by
  -- Who joins a poll gets a task that is there, and the task of a new poll never is.
  by_cases polling : gate.isPolling root
  · obtain ⟨run, member, rfl, out⟩ := sound.isPolling_iff.mp polling
    rw [sound.poll_of_run member out]
    exact iff_of_false (fun fresh => fresh (List.mem_map_of_mem member)) (by simp [polling])
  · obtain ⟨task, fresh⟩ := sound.poll_of_none polling
    rw [task]
    exact iff_of_true fresh (by simpa using polling)

end Sound

/-- A root is being polled while the body of a poll of it has not ended. A caller is promised the
result of a task that is not over unless a body of the root died before; once all polls are over,
the root is free and the next poll is a new one exactly if none of them died. After a death every
caller is told of it. -/
theorem polls_are_fresh_iff_undied {schedule : List (Occurrence (Action κ α))}
    {served : Served (StatusGate κ α) α}
    (ran : service.run? (.fresh empty) schedule = some served) (root : κ) :
    (∀ run ∈ served.state.runs, run.root = root →
      ends run.task (Occurrence.actions schedule) = [] → served.state.isPolling root) ∧
    (served.state.result? (served.state.poll root).1 = none ↔
      ∀ run ∈ served.state.runs, run.root = root → Died (Occurrence.actions schedule) run →
        served.state.result? run.task = none) ∧
    (served.state.Finished root →
      ((served.state.poll root).1 ∉ served.state.runs.map (·.task) ↔
        Undied (Occurrence.actions schedule) served.state root) ∧
      (served.state.isPolling root = false ↔
        Undied (Occurrence.actions schedule) served.state root)) ∧
    (∀ run ∈ served.state.runs, run.root = root →
      ∀ detail, ends run.task (Occurrence.actions schedule) = [.panicked detail] →
        served.state.poll root = (run.task, false, served.state) ∧
        ∀ result, served.state.result? run.task = some result →
          result = .error (.taskFailed detail)) := by
  -- The gate at the end of the run is sound, and all that is said follows from that.
  have sound := Sound.of_run ran
  refine ⟨?_, sound.poll_pending_iff, ?_, ?_⟩
  · intro run member rooted unended
    exact sound.isPolling_iff.mpr
      ⟨run, member, rooted, sound.outstanding_of_unended member unended⟩
  · intro finished
    have free := sound.free_iff_undied finished
    exact ⟨sound.fresh_iff_free.trans free, free⟩
  · -- The entry of the poll that died is never taken away, and its task tells of the death.
    intro run member rooted detail ended
    subst root
    refine ⟨sound.poll_of_run member (sound.outstanding_of_died member ⟨detail, ended⟩), ?_⟩
    intro result known
    obtain ⟨bodyEnd, same, gives⟩ := sound.end_of_result known
    rw [ended] at same
    cases same
    exact gives.symm

/-- The body of the first poll of a root dies, and its task settles. -/
def dying : List (Occurrence (Action Nat Nat)) :=
  [.act (.poll 7), .act (.wake 0), .act (.start 0), .act (.finish 0 (.panicked "out of memory")),
    .act (.settle 0)]

/-- Although all polls of the root are over it is still being polled, and the next caller is told
of the death. -/
theorem polls_after_death :
    ∃ served, service.run? (.fresh empty) dying = some served ∧
      served.state.runs.map (·.task) = [0] ∧
      served.state.queue.isSettled 0 ∧ served.state.isPolling 7 ∧
      (served.state.poll 7).1 = 0 := by
  have ran : service.run? (.fresh empty) dying = some _ := rfl
  exact ⟨_, ran, rfl, rfl, rfl, rfl⟩

/-- The body of the first poll of a root returns, and its task settles. -/
def returning : List (Occurrence (Action Nat Nat)) :=
  [.act (.poll 7), .act (.wake 0), .act (.start 0), .act (.finish 0 (.returned (.ok 5))),
    .act (.leave 0), .act (.clear 0), .act (.settle 0)]

/-- The gate after that poll. -/
def returned : StatusGate Nat Nat :=
  ⟨1, [], [⟨0, 0, 7, some (.ok 5)⟩], ⟨1, [], [], [⟨0, 7, none, .settled (.ok 5)⟩]⟩⟩

/-- The root is free after a poll that returned, and the next one is new. -/
theorem polls_are_fresh_iff_undied_returning :
    service.run? (.fresh empty) returning = some ⟨returned, [⟨0, .held⟩]⟩ ∧
      returned.Finished 7 ∧ (returned.poll 7).1 ∉ returned.runs.map (·.task) ∧
      returned.isPolling 7 = false := by
  have ran : service.run? (.fresh empty) returning = some ⟨returned, [⟨0, .held⟩]⟩ := rfl
  have finished : returned.Finished 7 := by
    intro run member _
    obtain rfl := List.mem_singleton.mp member
    exact Option.some_ne_none _
  have undied : Undied (Occurrence.actions returning) returned 7 := by
    rintro run member _ ⟨detail, ended⟩
    obtain rfl := List.mem_singleton.mp member
    cases show [BodyEnd.returned (.ok 5)] = [.panicked detail] from ended
  obtain ⟨_, _, afterwards, _⟩ := polls_are_fresh_iff_undied ran 7
  exact ⟨ran, finished, (afterwards finished).1.mpr undied, (afterwards finished).2.mpr undied⟩

end FlowService.StatusGate
