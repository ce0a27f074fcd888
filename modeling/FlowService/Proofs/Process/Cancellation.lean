import FlowService.Proofs.Process.Supervising

/-!
A run is only canceled if the cancellation was noticed and the process died of it. A process that
ends in any other way comes to what it printed, whichever of its end and the cancellation is noticed
first.
-/

namespace FlowService

namespace Conversation

variable {capacity : Nat} {isOpen : String → Bool} {conversation next : Conversation}

/-- A process that is over prints nothing more. -/
theorem Step.silent {move : Move} (step : Step capacity isOpen conversation move next)
    (dead : conversation.ended ≠ none) (channel : Channel) :
    conversation.printed capacity channel move = [] := by
  cases step with
  | exit alive | lose alive | write alive | hear alive | hearEnd alive | hearOn alive
  | pass alive => exact absurd alive dead
  | _ => rfl

/-- Less is left to be done once a process has ended, in whatever way. -/
theorem effort_finish_lt (alive : conversation.ended = none) (exit : ExitReason) :
    (conversation.finish exit).effort < conversation.effort := by
  simp [effort, inside, openEnds, finish, Pipe.closeReader, Pipe.closeWriter, alive]
  omega

/-- An interrupt gives nothing more to do. -/
theorem effort_interrupt_le (conversation : Conversation) :
    conversation.interrupt.effort ≤ conversation.effort := by
  unfold interrupt
  split
  · exact Nat.le_refl _
  · rename_i living
    have alive : conversation.ended = none := by simpa using living
    split
    · split
      · rename_i first
        simp only [effort, continueWith, first, ahead_cons, inside, openEnds]
        omega
      · exact Nat.le_refl _
    · exact Nat.le_of_lt (effort_finish_lt alive _)

/-- As long as a pump of a process that is over has not stopped, it can go on. -/
theorem drain_possible (hungUp : conversation.IsHungUp) (dead : conversation.ended ≠ none)
    (reads : conversation.stdout.readerOpen ∨ conversation.stderr.readerOpen) :
    ∃ move, (move = .drainOutput ∨ move = .drainErrors) ∧
      (conversation.step? capacity isOpen move).isSome := by
  obtain ⟨output, errors⟩ := hungUp dead
  -- A pump that reads takes something out or sees the end.
  rcases reads with reads | reads
  · refine ⟨.drainOutput, Or.inl rfl, ?_⟩
    by_cases empty : conversation.stdout.buffer = []
    · simp [step?, drainOutputStep?, reads, Pipe.atEnd, output, empty]
    · simp [step?, drainOutputStep?, reads, Pipe.atEnd, output, empty]
  · refine ⟨.drainErrors, Or.inr rfl, ?_⟩
    by_cases enough : conversation.stderr.buffer = [] ∨
        CheckerResult.stderrLimit - conversation.errors.length = 0
    · simp [step?, drainErrorsStep?, reads, Pipe.atEnd, errors, enough]
    · obtain ⟨there, wanted⟩ := not_or.mp enough
      simp [step?, drainErrorsStep?, reads, Pipe.atEnd, errors, there, wanted]

end Conversation

namespace Supervision

variable {capacity : Nat} {supervision next : Supervision} {actions more : List Action}
variable {action : Action} {token : Option Bool} {status : WaitStatus} {result : CheckerResult}
variable {wording : Wording}

/-- What comes of a process is a cancellation where it was interrupted and died of that or had to be
given up, and else what it printed comes to. -/
theorem Tracked.outcome (tracked : Tracked token actions supervision)
    (outcome : supervision.outcome? wording = some result)
    (ended : supervision.conversation.ended = some (.ofStatus status)) :
    .heed ∈ actions ∧ (status.isInterrupt ∨ .giveUp ∈ actions) ∧ result = .error .canceled ∨
      ¬(.heed ∈ actions ∧ (status.isInterrupt ∨ .giveUp ∈ actions)) ∧
        result = CheckerResult.verdict wording status supervision.out supervision.err := by
  rw [tracked.heeded, tracked.gaveUp]
  unfold outcome? at outcome
  cases stage : supervision.stage with
  | watching | grace | killing =>
    rw [stage] at outcome
    cases outcome
  | concluded waited =>
    have fits := tracked.fits waited stage
    -- A result that counts is that of everything that was printed.
    have read : ∀ noticed, waited.status? = some noticed →
        ExitReason.ofStatus noticed = .ofStatus status →
        result = CheckerResult.verdict wording status supervision.out supervision.err := by
      intro noticed counts same
      rw [stage] at outcome
      simp only [counts, same] at outcome
      split at outcome
      · cases outcome
      · rename_i closed
        simp only [Bool.or_eq_true, not_or, Bool.not_eq_true] at closed
        have output := tracked.holds.kept .out closed.1
        have errors := tracked.holds.kept .err closed.2
        simp only [Conversation.taken, Channel.keep, said] at output errors
        rw [← Option.some.inj outcome, output, errors, CheckerResult.ofExit_eq_verdict]
    cases waited with
    | exited noticed =>
      right
      have same := Option.some.inj ((show _ = some _ from fits).symm.trans ended)
      exact ⟨by simp [WaitStage.heeded], read noticed rfl same⟩
    | interrupted noticed =>
      have same := Option.some.inj ((show _ = some _ from fits).symm.trans ended)
      have alike : noticed.isInterrupt ↔ status.isInterrupt := by
        rw [WaitStatus.isInterrupt_iff, WaitStatus.isInterrupt_iff, same]
      by_cases died : noticed.isInterrupt
      · left
        rw [stage] at outcome
        simp only [Waited.status?, died, if_true] at outcome
        exact ⟨rfl, Or.inl (alike.mp died), (Option.some.inj outcome).symm⟩
      · right
        refine ⟨?_, read noticed (by simp [Waited.status?, died]) same⟩
        rintro ⟨_, interrupted | gaveUp⟩
        · exact died (alike.mpr interrupted)
        · cases gaveUp
    | killed =>
      left
      rw [stage] at outcome
      exact ⟨rfl, Or.inr rfl, (Option.some.inj outcome).symm⟩

/-- Nothing that happens changes how a process has ended, what it has printed then, and that it was
not given up. -/
theorem Happens.of_ended {exit : ExitReason} (happens : Happens capacity supervision action next)
    (ended : supervision.conversation.ended = some exit) :
    next.conversation.ended = some exit ∧ next.said = supervision.said ∧
      (next.stage.gaveUp → supervision.stage.gaveUp) := by
  have dead : supervision.conversation.ended ≠ none := by
    rw [ended]
    exact Option.some_ne_none _
  cases happens with
  | move step =>
    refine ⟨?_, ?_, id⟩
    · rcases step.ending.2 with same | ⟨alive, _⟩
      · exact same.trans ended
      · exact absurd alive dead
    · funext channel
      cases channel <;> simp [said, step.silent dead]
  | turn alive | giveUp _ alive | kill _ alive => exact absurd alive dead
  | cancel bound => exact ⟨ended, rfl, id⟩
  | notice _ due =>
    refine ⟨ended, rfl, ?_⟩
    rcases due with ⟨_, rfl⟩ | ⟨_, rfl⟩ | ⟨stage, rfl⟩
    · exact nofun
    · exact nofun
    · -- The process had been given up before.
      rw [stage]
      exact fun _ => rfl
  | heed stage canceled =>
    refine ⟨?_, rfl, nofun⟩
    rcases supervision.conversation.interrupt_ending.2 with same | ⟨alive, _⟩
    · exact same.trans ended
    · exact absurd alive dead

/-- However long it takes, an ended process stays as it is. -/
theorem after?_of_ended {exit : ExitReason} (acted : supervision.after? capacity more = some next)
    (ended : supervision.conversation.ended = some exit) :
    next.conversation.ended = some exit ∧ next.said = supervision.said ∧
      (next.stage.gaveUp → supervision.stage.gaveUp) := by
  induction more generalizing supervision with
  | nil =>
    cases acted
    exact ⟨ended, rfl, id⟩
  | cons action rest ih =>
    obtain ⟨middle, first, others⟩ := Option.bind_eq_some_iff.mp acted
    obtain ⟨still, same, before⟩ := (happens_of_act? first).of_ended ended
    obtain ⟨later, all, gaveUp⟩ := ih others still
    exact ⟨later, all.trans same, fun late => before (gaveUp late)⟩

/-- Whether an action is one of those who wait for the process, and not of the process or of those
who call it off. -/
def Action.isOwn : Action → Bool
  | .move _ .drainOutput => true
  | .move _ .drainErrors => true
  | .notice _ => true
  | .heed => true
  | .giveUp => true
  | .kill => true
  | _ => false

/-- How much there is still to wait for. -/
def rank : WaitStage → Nat
  | .watching => 3
  | .grace => 2
  | .killing => 1
  | .concluded _ => 0

/-- What is still to be done before there is an outcome. -/
def left (supervision : Supervision) : Nat :=
  supervision.conversation.effort + rank supervision.stage

/-- A process is over, or it was called off. -/
def Due (supervision : Supervision) : Prop :=
  supervision.conversation.ended ≠ none ∨ supervision.token = some true

/-- Whoever waits has less to do after each action. -/
theorem Happens.left_lt (happens : Happens capacity supervision action next)
    (own : action.isOwn) : next.left < supervision.left := by
  cases happens with
  | turn | cancel => cases own
  | move step => exact Nat.add_lt_add_right step.effort_lt _
  | notice _ due =>
    have waiting : 0 < rank supervision.stage := by
      rcases due with ⟨stage, _⟩ | ⟨stage, _⟩ | ⟨stage, _⟩ <;> rw [stage] <;> decide
    exact Nat.add_lt_add_left waiting _
  | heed stage canceled =>
    have less := supervision.conversation.effort_interrupt_le
    simp only [left, rank, stage]
    omega
  | giveUp stage alive =>
    simp only [left, rank, stage]
    omega
  | kill stage alive => exact Nat.add_lt_add_right (Conversation.effort_finish_lt alive _) _

/-- A process that is over or was called off stays so. -/
theorem Happens.due (happens : Happens capacity supervision action next) (due : supervision.Due) :
    next.Due := by
  rcases due with dead | canceled
  · left
    obtain ⟨exit, ended⟩ := Option.ne_none_iff_exists'.mp dead
    rw [(happens.of_ended ended).1]
    exact Option.some_ne_none _
  · right
    cases happens with
    | cancel => rfl
    | _ => exact canceled

/-- Whoever waits for a process that is over or was called off can go on as long as there is no
outcome. -/
theorem Tracked.own_possible (tracked : Tracked token actions supervision)
    (due : supervision.Due) (waiting : supervision.outcome? wording = none) :
    ∃ action : Action, action.isOwn ∧ (supervision.act? capacity action).isSome := by
  -- The end of a process is noticed at any stage before the wait is over.
  have noticed : ∀ exit, supervision.conversation.ended = some exit →
      (∀ waited, supervision.stage ≠ .concluded waited) →
      ∃ action : Action, action.isOwn ∧ (supervision.act? capacity action).isSome := by
    intro exit ended under
    obtain ⟨status, rfl⟩ := tracked.reported exit ended
    refine ⟨.notice status, rfl, ?_⟩
    cases stage : supervision.stage with
    | concluded waited => exact absurd stage (under waited)
    | _ => simp [act?, ended, stage]
  cases stage : supervision.stage with
  | watching =>
    cases ended : supervision.conversation.ended with
    | some exit => exact noticed exit ended (by simp [stage])
    | none =>
      have canceled := due.resolve_left fun dead => dead ended
      exact ⟨.heed, rfl, by simp [act?, stage, canceled]⟩
  | grace =>
    cases ended : supervision.conversation.ended with
    | some exit => exact noticed exit ended (by simp [stage])
    | none => exact ⟨.giveUp, rfl, by simp [act?, stage, ended]⟩
  | killing =>
    cases ended : supervision.conversation.ended with
    | some exit => exact noticed exit ended (by simp [stage])
    | none => exact ⟨.kill, rfl, by simp [act?, stage, ended]⟩
  | concluded waited =>
    -- What is still to be read is what the outcome waits for.
    have dead := (tracked.fits waited stage).dead
    have reads : supervision.conversation.stdout.readerOpen ∨
        supervision.conversation.stderr.readerOpen := by
      unfold outcome? at waiting
      rw [stage] at waiting
      split at waiting
      · rename_i noticed same
        split at waiting
        · cases waiting
        · split at waiting
          · rename_i reads
            simpa using reads
          · cases waiting
      · rename_i apart
        exact absurd rfl (apart waited)
    obtain ⟨move, drains, possible⟩ := Conversation.drain_possible tracked.holds.hungUp dead reads
    refine ⟨.move (fun _ => false) move, ?_, ?_⟩
    · rcases drains with rfl | rfl <;> rfl
    · simpa [act?] using possible

/-- Those who wait make only so many actions, and the process stays over or called off. -/
theorem left_add_length_le (own : ∀ action ∈ more, action.isOwn)
    (acted : supervision.after? capacity more = some next) :
    next.left + more.length ≤ supervision.left ∧ (supervision.Due → next.Due) := by
  induction more generalizing supervision with
  | nil =>
    cases acted
    exact ⟨Nat.le_refl _, id⟩
  | cons action rest ih =>
    obtain ⟨middle, first, others⟩ := Option.bind_eq_some_iff.mp acted
    have happens := happens_of_act? first
    have less := happens.left_lt (own action (.head _))
    obtain ⟨fewer, due⟩ := ih (fun later member => own later (.tail _ member)) others
    rw [List.length_cons]
    exact ⟨by omega, fun before => due (happens.due before)⟩

/-- What comes of a run is a cancellation exactly if the cancellation was noticed and the process
died of the interrupt or had to be given up, and otherwise it is what the status and all that was
printed tell; so without a token it always is. The reason that is told of a process is the code that
it returned or the signal that it died from, as they stand in the bits of its status. If a process
has ended in another way before the cancellation is noticed, both may be noticed, and the result is
the same. Once the process is over or was called off, those who wait for it make only so many steps
more and are not done before there is a result. -/
theorem cancellation_keeps_finished_runs {instructions : List Instruction} {plan : WaitStatus}
    {catches : Bool} {payload : Bytes} (wording : Wording)
    (acted : (start (programOf instructions plan catches) payload token).after? capacity actions =
      some supervision) :
    (∀ result, supervision.outcome? wording = some result →
      (∃ status : WaitStatus, supervision.conversation.ended = some (.ofStatus status)) ∧
      ∀ status : WaitStatus, supervision.conversation.ended = some (.ofStatus status) →
        (result = .error .canceled ↔
          .heed ∈ actions ∧ (status.isInterrupt ∨ .giveUp ∈ actions)) ∧
        (result ≠ .error .canceled ∨ token = none →
          result = CheckerResult.verdict wording status supervision.out supervision.err)) ∧
    (∀ status : WaitStatus, status.isInterrupt ↔ status % 0x80 = 2) ∧
    (∀ status : WaitStatus, ExitReason.ofStatus status =
      if status % 0x80 = 0 then .code (status / 0x100 % 0x100)
      else if status % 0x80 = 0x7F then .unknown
      else .signal (status % 0x80)) ∧
    -- The choice between an end and a cancellation does not matter.
    (∀ status : WaitStatus, supervision.stage = .watching → supervision.token = some true →
      supervision.conversation.ended = some (.ofStatus status) → ¬status.isInterrupt →
      (supervision.act? capacity (.notice status)).isSome ∧
      (supervision.act? capacity .heed).isSome ∧
      ∀ more next result, supervision.after? capacity more = some next →
        next.outcome? wording = some result →
        result = CheckerResult.verdict wording status supervision.out supervision.err) ∧
    (∀ more next, (∀ action ∈ more, action.isOwn) →
      supervision.after? capacity more = some next →
      more.length ≤ supervision.left ∧
      (supervision.Due → next.outcome? wording = none →
        ∃ action : Action, action.isOwn ∧ (next.act? capacity action).isSome)) ∧
    -- A checker that was asked a question comes to the same.
    (∀ (running : RunningChecker) (status : WaitStatus),
      running.conversation = supervision.conversation →
      supervision.conversation.ended = some (.ofStatus status) →
      supervision.stage =
        .concluded (if running.interrupted then .interrupted status else .exited status) →
      running.outcome? wording = supervision.outcome? wording) := by
  have tracked : Tracked token actions supervision :=
    (Tracked.start instructions plan catches payload token).after? acted
  refine ⟨fun result outcome => ⟨?_, fun status ended => ?_⟩,
    fun status => WaitStatus.isInterrupt_iff_mod, WaitStatus.ofStatus_eq_bits,
    fun status stage canceled ended other => ?_, fun more next own later => ?_,
    fun running status same ended stage =>
      RunningChecker.outcome?_eq_supervised wording same ended stage⟩
  · unfold outcome? at outcome
    cases stage : supervision.stage with
    | concluded waited =>
      obtain ⟨exit, ended⟩ := Option.ne_none_iff_exists'.mp (tracked.fits waited stage).dead
      obtain ⟨status, rfl⟩ := tracked.reported exit ended
      exact ⟨status, ended⟩
    | _ =>
      rw [stage] at outcome
      cases outcome
  · have kept := CheckerResult.verdict_ne_canceled wording status supervision.out supervision.err
    rcases tracked.outcome outcome ended with ⟨heeded, died, rfl⟩ | ⟨spared, rfl⟩
    · refine ⟨iff_of_true rfl ⟨heeded, died⟩, ?_⟩
      rintro (other | unbound)
      · exact absurd rfl other
      · exact absurd heeded (tracked.tokenless unbound).2
    · exact ⟨iff_of_false kept spared, fun _ => rfl⟩
  · refine ⟨by simp [act?, ended, stage], by simp [act?, stage, canceled], ?_⟩
    intro more next result later outcome
    obtain ⟨still, same, gaveUp⟩ := after?_of_ended later ended
    have whole := tracked.after? later
    -- The process was not given up while it was watched, and it is too late for that.
    have patient : .giveUp ∉ actions ++ more := by
      rw [whole.gaveUp]
      intro late
      have before := gaveUp late
      rw [stage] at before
      cases before
    rcases whole.outcome outcome still with ⟨_, died, _⟩ | ⟨_, told⟩
    · exact absurd (died.resolve_right patient) other
    · have out : next.out = supervision.out := congrFun same .out
      have err : next.err = supervision.err := congrFun same .err
      rw [told, out, err]
  · obtain ⟨fewer, due⟩ := left_add_length_le own later
    refine ⟨by omega, fun before waiting => ?_⟩
    exact (tracked.after? later).own_possible (due before) waiting

/-- A checker answers, complains and ends, and is called off after that. -/
def answering : List Action :=
  List.replicate 5 (.move (fun _ => false) .child) ++ [.cancel]

/-- What the checker printed is read to the end. -/
def reading : List Action :=
  List.replicate 2 (.move (fun _ => false) .drainOutput) ++
    List.replicate 2 (.move (fun _ => false) .drainErrors)

/-- A complaint beside an answer that was complete when the checker was called off is told with the
code that the checker returned, whether it is noticed first that the checker ended or that it was
called off. -/
theorem cancellation_keeps_finished_runs_by_either_choice :
    let begun := start (programOf [.write .out [123, 125], .write .err [33]] 0x300 false) []
      (some false)
    ∃ supervision, begun.after? 64 answering = some supervision ∧ supervision.Due ∧
      ∀ choice ∈ [[.notice 0x300], [.heed, .notice 0x300]], ∃ next,
        supervision.after? 64 (choice ++ reading) = some next ∧
          next.outcome? = some (.error (.toolFailure (.code 3) "!")) := by
  intro begun
  obtain ⟨supervision, acted, stage, canceled, ended, out, err, settles⟩ : ∃ supervision,
      begun.after? 64 answering = some supervision ∧ supervision.stage = .watching ∧
      supervision.token = some true ∧
      supervision.conversation.ended = some (.ofStatus 0x300) ∧
      supervision.out = [123, 125] ∧ supervision.err = [33] ∧
      ∀ choice ∈ [[.notice 0x300], [.heed, .notice 0x300]], ∃ next,
        supervision.after? 64 (choice ++ reading) = some next ∧ next.outcome?.isSome := by
    refine ⟨_, rfl, rfl, rfl, rfl, rfl, rfl, fun choice member => ?_⟩
    rcases List.mem_cons.mp member with rfl | member
    · exact ⟨_, rfl, rfl⟩
    · obtain rfl := List.mem_singleton.mp member
      exact ⟨_, rfl, rfl⟩
  obtain ⟨_, _, reason, either, _⟩ := cancellation_keeps_finished_runs .plain acted
  obtain ⟨_, _, told⟩ := either 0x300 stage canceled ended (by decide)
  refine ⟨supervision, acted, Or.inr canceled, fun choice member => ?_⟩
  -- Either way there is a result, which can only be the one that was told.
  obtain ⟨next, later, settled⟩ := settles choice member
  obtain ⟨result, outcome⟩ := Option.isSome_iff_exists.mp settled
  have complaint : Utf8.decodeLossy [33] = "!" := by decide +kernel
  refine ⟨next, later, outcome.trans ?_⟩
  rw [told _ next result later outcome, out, err, CheckerResult.verdict, if_pos (by simp),
    reason 0x300]
  simp [CheckerResult.stderrLimit, complaint]

end Supervision

end FlowService
