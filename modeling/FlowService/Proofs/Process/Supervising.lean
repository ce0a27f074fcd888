import FlowService.Proofs.Process.Printing
import FlowService.Proofs.Process.Verdicts

/-!
Throughout a supervision it is known what the process has printed, whether it was interrupted and
given up, and how it ended.
-/

namespace FlowService

namespace Conversation

variable {capacity : Nat} {isOpen : String → Bool} {conversation next : Conversation}

/-- No move changes how a process will end, and one that is not over only ends that way. -/
theorem Step.ending {move : Move} (step : Step capacity isOpen conversation move next) :
    next.program.exit = conversation.program.exit ∧
      (next.ended = conversation.ended ∨
        conversation.ended = none ∧ next.ended = some conversation.program.exit) := by
  cases step with
  | exit alive done => exact ⟨rfl, Or.inr ⟨alive, rfl⟩⟩
  | write alive first useful reads written =>
    exact ⟨by simp [continueWith], Or.inl (by simp [continueWith])⟩
  | _ => exact ⟨rfl, Or.inl rfl⟩

/-- An interrupt does nothing to a process that is over, and leaves another one as it was or ends
it. -/
theorem interrupt_ending (conversation : Conversation) :
    conversation.interrupt.program.exit = conversation.program.exit ∧
      (conversation.interrupt.ended = conversation.ended ∨
        conversation.ended = none ∧
          conversation.interrupt.ended = some (.signal ExitReason.interrupt)) := by
  unfold interrupt
  split
  · exact ⟨rfl, Or.inl rfl⟩
  · rename_i living
    have alive : conversation.ended = none := by simpa using living
    split
    · split <;> exact ⟨rfl, Or.inl rfl⟩
    · exact ⟨rfl, Or.inr ⟨alive, rfl⟩⟩

end Conversation

/-- How a wait ended fits how the process did. -/
def Waited.Fits (ended : Option ExitReason) : Waited → Prop
  | .exited status => ended = some (.ofStatus status)
  | .interrupted status => ended = some (.ofStatus status)
  -- Nobody looks at the status of a process that had to be killed.
  | .killed => ended ≠ none

/-- A wait only ends with a process that is over. -/
theorem Waited.Fits.dead {waited : Waited} {ended : Option ExitReason}
    (fits : waited.Fits ended) : ended ≠ none := by
  cases waited with
  | exited status | interrupted status =>
    have known : ended = some (.ofStatus status) := fits
    rw [known]
    exact Option.some_ne_none _
  | killed => exact fits

namespace WaitStage

/-- Whether the process was interrupted. -/
def heeded : WaitStage → Bool
  | .watching => false
  | .concluded (.exited _) => false
  | _ => true

/-- Whether the process was given up. -/
def gaveUp : WaitStage → Bool
  | .killing => true
  | .concluded .killed => true
  | _ => false

end WaitStage

namespace Supervision

variable {capacity : Nat} {supervision next : Supervision} {actions : List Action}
variable {action : Action} {token : Option Bool}

/-- What the process has printed to an output. -/
def said (supervision : Supervision) : Channel → Bytes
  | .out => supervision.out
  | .err => supervision.err

/-- What an action makes of a supervision in which it is possible. -/
inductive Happens (capacity : Nat) (supervision : Supervision) : Action → Supervision → Prop
  | move {isOpen : String → Bool} {move : Conversation.Move} {conversation : Conversation}
    (step : supervision.conversation.Step capacity isOpen move conversation) :
    Happens capacity supervision (.move isOpen move) { supervision with
      conversation := conversation
      out := supervision.out ++ supervision.conversation.printed capacity .out move
      err := supervision.err ++ supervision.conversation.printed capacity .err move }
  | turn (alive : supervision.conversation.ended = none) (instructions : List Instruction)
    (status : WaitStatus) (catches : Bool) :
    Happens capacity supervision (.turn instructions status catches) { supervision with
      conversation := { supervision.conversation with
        program := programOf instructions status catches } }
  | cancel (bound : supervision.token ≠ none) :
    Happens capacity supervision .cancel { supervision with token := some true }
  -- How the wait ends depends on how far it had come.
  | notice {status : WaitStatus} {waited : Waited}
    (ended : supervision.conversation.ended = some (.ofStatus status))
    (due : supervision.stage = .watching ∧ waited = .exited status ∨
      supervision.stage = .grace ∧ waited = .interrupted status ∨
      supervision.stage = .killing ∧ waited = .killed) :
    Happens capacity supervision (.notice status) { supervision with stage := .concluded waited }
  | heed (stage : supervision.stage = .watching) (canceled : supervision.token = some true) :
    Happens capacity supervision .heed { supervision with
      conversation := supervision.conversation.interrupt
      stage := .grace }
  | giveUp (stage : supervision.stage = .grace) (alive : supervision.conversation.ended = none) :
    Happens capacity supervision .giveUp { supervision with stage := .killing }
  | kill (stage : supervision.stage = .killing) (alive : supervision.conversation.ended = none) :
    Happens capacity supervision .kill { supervision with
      conversation := supervision.conversation.finish (.ofStatus WaitStatus.killed) }

/-- An action that is possible is one of those that are listed. -/
theorem happens_of_act? (acted : supervision.act? capacity action = some next) :
    Happens capacity supervision action next := by
  cases action with
  | move isOpen move =>
    obtain ⟨conversation, stepped, rfl⟩ := Option.map_eq_some_iff.mp acted
    exact .move (Conversation.step_of_step? stepped)
  | turn instructions status catches =>
    simp only [act?] at acted
    split at acted
    · cases acted
    · rename_i living
      cases acted
      exact .turn (by simpa using living) instructions status catches
  | cancel =>
    simp only [act?] at acted
    split at acted
    · rename_i bound
      cases acted
      exact .cancel (Option.isSome_iff_ne_none.mp bound)
    · cases acted
  | notice status =>
    simp only [act?] at acted
    split at acted
    · cases acted
    · rename_i known
      have ended : supervision.conversation.ended = some (.ofStatus status) :=
        Decidable.not_not.mp known
      -- A wait that is over does not end again.
      split at acted
      · rename_i stage
        cases acted
        exact .notice ended (Or.inl ⟨stage, rfl⟩)
      · rename_i stage
        cases acted
        exact .notice ended (Or.inr (Or.inl ⟨stage, rfl⟩))
      · rename_i stage
        cases acted
        exact .notice ended (Or.inr (Or.inr ⟨stage, rfl⟩))
      · cases acted
  | heed =>
    simp only [act?] at acted
    split at acted
    · rename_i due
      cases acted
      exact .heed due.1 due.2
    · cases acted
  | giveUp =>
    simp only [act?] at acted
    split at acted
    · rename_i due
      cases acted
      exact .giveUp due.1 due.2
    · cases acted
  | kill =>
    simp only [act?] at acted
    split at acted
    · rename_i due
      cases acted
      exact .kill due.1 due.2
    · cases acted

/-- What is known of a supervision after some actions. -/
structure Tracked (token : Option Bool) (actions : List Action) (supervision : Supervision) :
    Prop where
  holds : supervision.conversation.Holds supervision.said
  -- Every ending is one that the system can report.
  planned : ∃ status, supervision.conversation.program.exit = .ofStatus status
  reported : ∀ exit, supervision.conversation.ended = some exit → ∃ status, exit = .ofStatus status
  heeded : .heed ∈ actions ↔ supervision.stage.heeded
  gaveUp : .giveUp ∈ actions ↔ supervision.stage.gaveUp
  fits : ∀ waited, supervision.stage = .concluded waited →
    waited.Fits supervision.conversation.ended
  tokenless : token = none → supervision.token = none ∧ .heed ∉ actions

/-- Another action than the last one has happened before. -/
theorem mem_of_concat {sought last : Action} (apart : sought ≠ last) :
    sought ∈ actions ++ [last] ↔ sought ∈ actions := by
  rw [List.mem_append, List.mem_singleton, or_iff_left apart]

namespace Tracked

/-- Of a supervision that has just begun all is known. -/
theorem start (instructions : List Instruction) (status : WaitStatus) (catches : Bool)
    (payload : Bytes) (token : Option Bool) :
    Tracked token [] (.start (programOf instructions status catches) payload token) where
  holds := by
    have silent : (Supervision.start (programOf instructions status catches) payload token).said =
        fun _ => [] := by
      funext channel
      cases channel <;> rfl
    rw [silent]
    exact .start _ payload
  planned := ⟨status, rfl⟩
  reported _ ended := nomatch ended
  heeded := ⟨nofun, nofun⟩
  gaveUp := ⟨nofun, nofun⟩
  fits _ concluded := nomatch concluded
  tokenless none := ⟨none, List.not_mem_nil⟩

/-- What the process and its pumps do is not about the wait for it. -/
theorem stay (tracked : Tracked token actions supervision) (quiet : action ≠ .heed)
    (patient : action ≠ .giveUp) (holds : next.conversation.Holds next.said)
    (planned : ∃ status, next.conversation.program.exit = .ofStatus status)
    (ended : next.conversation.ended = supervision.conversation.ended ∨
      supervision.conversation.ended = none ∧
        ∃ status, next.conversation.ended = some (.ofStatus status))
    (stage : next.stage = supervision.stage)
    (tokenless : supervision.token = none → next.token = none) :
    Tracked token (actions ++ [action]) next where
  holds := holds
  planned := planned
  reported exit gone := by
    rcases ended with same | ⟨_, status, known⟩
    · exact tracked.reported exit (same ▸ gone)
    · exact ⟨status, Option.some.inj (gone.symm.trans known)⟩
  heeded := by
    rw [mem_of_concat quiet.symm, stage]
    exact tracked.heeded
  gaveUp := by
    rw [mem_of_concat patient.symm, stage]
    exact tracked.gaveUp
  fits waited concluded := by
    rw [stage] at concluded
    have fits := tracked.fits waited concluded
    rcases ended with same | ⟨alive, _⟩
    · exact same ▸ fits
    · exact absurd alive fits.dead
  tokenless none := by
    rw [mem_of_concat quiet.symm]
    exact ⟨tokenless (tracked.tokenless none).1, (tracked.tokenless none).2⟩

/-- Everything that happens is kept track of. -/
theorem happens (tracked : Tracked token actions supervision)
    (happens : Happens capacity supervision action next) :
    Tracked token (actions ++ [action]) next := by
  obtain ⟨planned, plans⟩ := tracked.planned
  cases happens with
  | @move isOpen move conversation step =>
    obtain ⟨sameExit, ended⟩ := step.ending
    -- What is printed in the move comes behind what was printed before.
    have together : said { supervision with
        conversation := conversation
        out := supervision.out ++ supervision.conversation.printed capacity .out move
        err := supervision.err ++ supervision.conversation.printed capacity .err move } =
        fun channel => supervision.said channel ++
          supervision.conversation.printed capacity channel move := by
      funext channel
      cases channel <;> rfl
    have holds := tracked.holds.step step
    rw [← together] at holds
    refine tracked.stay nofun nofun holds ⟨planned, sameExit.trans plans⟩ ?_ rfl id
    rcases ended with same | ⟨alive, gone⟩
    · exact Or.inl same
    · exact Or.inr ⟨alive, planned, gone.trans (congrArg some plans)⟩
  | turn alive instructions status catches =>
    refine tracked.stay nofun nofun ?_ ⟨status, rfl⟩ (Or.inl rfl) rfl id
    exact tracked.holds.of_same rfl (fun channel => by cases channel <;> rfl)
      fun channel => by cases channel <;> rfl
  | cancel bound =>
    refine tracked.stay nofun nofun tracked.holds tracked.planned (Or.inl rfl) rfl fun none => ?_
    exact absurd none bound
  | notice ended due =>
    refine ⟨tracked.holds, tracked.planned, tracked.reported, ?_, ?_, fun waited same => ?_,
      fun none => ?_⟩
    · rw [mem_of_concat (by nofun), tracked.heeded]
      rcases due with ⟨stage, rfl⟩ | ⟨stage, rfl⟩ | ⟨stage, rfl⟩ <;> rw [stage] <;> rfl
    · rw [mem_of_concat (by nofun), tracked.gaveUp]
      rcases due with ⟨stage, rfl⟩ | ⟨stage, rfl⟩ | ⟨stage, rfl⟩ <;> rw [stage] <;> rfl
    · obtain rfl := WaitStage.concluded.inj same
      rcases due with ⟨_, rfl⟩ | ⟨_, rfl⟩ | ⟨_, rfl⟩
      · exact ended
      · exact ended
      · exact fun alive => nomatch alive.symm.trans ended
    · rw [mem_of_concat (by nofun)]
      exact tracked.tokenless none
  | heed stage canceled =>
    obtain ⟨sameExit, ended⟩ := supervision.conversation.interrupt_ending
    refine ⟨tracked.holds.interrupt, ⟨planned, sameExit.trans plans⟩, fun exit gone => ?_, ?_, ?_,
      nofun, fun none => ?_⟩
    · rcases ended with same | ⟨_, died⟩
      · exact tracked.reported exit (same ▸ gone)
      · -- An interrupt is a signal of the system.
        exact ⟨ExitReason.interrupt, Option.some.inj (gone.symm.trans died)⟩
    · simp [WaitStage.heeded]
    · rw [mem_of_concat (by nofun), tracked.gaveUp, stage]
      rfl
    · exact nomatch (tracked.tokenless none).1.symm.trans canceled
  | giveUp stage alive =>
    refine ⟨tracked.holds, tracked.planned, tracked.reported, ?_, ?_, nofun, fun none => ?_⟩
    · rw [mem_of_concat (by nofun), tracked.heeded, stage]
      rfl
    · simp [WaitStage.gaveUp]
    · rw [mem_of_concat (by nofun)]
      exact tracked.tokenless none
  | kill stage alive =>
    exact tracked.stay nofun nofun (tracked.holds.finish _) tracked.planned
      (Or.inr ⟨alive, WaitStatus.killed, rfl⟩) rfl id

/-- Everything that happens in turn is kept track of. -/
theorem after? (tracked : Tracked token actions supervision) {more : List Action}
    (acted : supervision.after? capacity more = some next) :
    Tracked token (actions ++ more) next := by
  -- The induction is on what happens from the first action, which is tracked before the rest.
  induction more generalizing actions supervision with
  | nil =>
    cases acted
    rwa [List.append_nil]
  | cons action rest ih =>
    obtain ⟨middle, first, others⟩ := Option.bind_eq_some_iff.mp acted
    have tail := ih (tracked.happens (happens_of_act? first)) others
    rwa [List.append_assoc, List.singleton_append] at tail

end Tracked

end Supervision

end FlowService
