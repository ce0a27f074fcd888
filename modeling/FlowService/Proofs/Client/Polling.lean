import FlowService.Proofs.Client.Leaders
import FlowService.Proofs.Process.Pumps
import FlowService.Proofs.Queue.Requests

/-!
A question for the state of a project is answered by a poll, which some question for a state leads.
Nobody can cancel such a question, so the checker of a poll is left alone until it ends by itself.
-/

namespace FlowService

variable {platform : Option String}

namespace StatusGate

variable {κ α : Type}

/-- No body of a poll died. -/
def Deathless (actions : List (Action κ α)) : Prop :=
  ∀ task detail, .panicked detail ∉ ends task actions

/-- An action that is no death keeps a gate free of deaths. -/
theorem Deathless.concat {actions : List (Action κ α)} (deathless : Deathless actions)
    {action : Action κ α} (gentle : ∀ task detail, action.endOf? task ≠ some (.panicked detail)) :
    Deathless (actions ++ [action]) := by
  intro task detail member
  rw [ends_concat, List.mem_append, Option.mem_toList] at member
  rcases member with old | new
  · exact deathless task detail old
  · exact gentle task detail new

variable [DecidableEq κ] {actions : List (Action κ α)} {gate next : StatusGate κ α}

/-- The result of a poll is what was noted of its body, unless that died. -/
theorem Sound.noted_of_result (sound : Sound actions gate) (deathless : Deathless actions)
    {task : Nat} {result : Except CheckerError α} (known : gate.result? task = some result) :
    ∃ run ∈ gate.runs, run.task = task ∧ run.bodyResult = some result := by
  obtain ⟨own, found, settled⟩ := ProjectQueue.result?_eq_some.mp known
  obtain ⟨run, member, named, course⟩ := sound.run_of_task found
  obtain ⟨bodyEnd, ended, noted, gives⟩ := course.done (by simp [settled])
  refine ⟨run, member, named, ?_⟩
  -- A body that died would have left nothing noted.
  cases bodyEnd with
  | returned brought =>
    rw [settled] at gives
    rw [noted]
    exact gives.symm
  | panicked detail =>
    have member : .panicked detail ∈ ends task actions := ended ▸ List.mem_singleton_self _
    exact absurd member (deathless task detail)

/-- Something new is noted of a poll when its body ends. -/
theorem Step.noted {action : Action κ α} (step : Step gate action next) {run : PollRun κ α}
    (member : run ∈ next.runs) {result : Except CheckerError α}
    (noted : run.bodyResult = some result) :
    (∃ before ∈ gate.runs, before.task = run.task ∧ before.bodyResult = some result) ∨
      action = .finish run.task (.returned result) := by
  -- All steps but the end of a body leave the polls as they were.
  have same : next.runs = gate.runs →
      ∃ before ∈ gate.runs, before.task = run.task ∧ before.bodyResult = some result :=
    fun same => ⟨run, same ▸ member, rfl, noted⟩
  cases step with
  | begin free =>
    rcases List.mem_append.mp member with old | new
    · exact Or.inl ⟨run, old, rfl, noted⟩
    · obtain rfl := List.mem_singleton.mp new
      cases noted
  | @note task _ brought found unfinished runs =>
    obtain ⟨before, beforeMember, rfl⟩ := List.mem_map.mp member
    by_cases meant : before.task = task
    · subst meant
      right
      rw [PollRun.note, if_pos rfl] at noted
      rw [PollRun.note_task, Option.some.inj noted]
    · rw [PollRun.note_of_ne meant] at noted ⊢
      exact Or.inl ⟨before, beforeMember, rfl, noted⟩
  | leave => exact Or.inl (same (clearEntry_runs ..))
  | _ => exact Or.inl (same rfl)

/-- The first task of a root waits for none, also among the tasks of a gate. -/
theorem Step.headed {action : Action κ α} (step : Step gate action next)
    (orderly : gate.queue.Orderly) (headed : gate.queue.Headed) : next.queue.Headed := by
  -- Who starts a poll draws a ticket and enters with it at once.
  cases step with
  | join | note => exact headed
  | begin =>
    have drawn : gate.queue.nextTicket ∈ gate.queue.draw.drawn :=
      List.mem_append_right _ (List.mem_singleton_self _)
    exact (headed.step orderly .draw).step orderly.draw (.enter drawn)
  | wake step | start step | die _ _ step | leave _ _ step | clear step | settle step =>
    exact headed.step orderly step

/-- No poll is lost. -/
theorem Step.run_lasts {action : Action κ α} (step : Step gate action next) {run : PollRun κ α}
    (member : run ∈ gate.runs) : ∃ later ∈ next.runs, later.task = run.task := by
  have same : next.runs = gate.runs → ∃ later ∈ next.runs, later.task = run.task :=
    fun same => ⟨run, same ▸ member, rfl⟩
  cases step with
  | begin free => exact ⟨run, List.mem_append_left _ member, rfl⟩
  | note => exact ⟨_, List.mem_map_of_mem member, PollRun.note_task ..⟩
  | leave => exact same (clearEntry_runs ..)
  | _ => exact same rfl

/-- A poll is one that was there before, or it has a new task. -/
theorem Step.runs {action : Action κ α} (step : Step gate action next) {run : PollRun κ α}
    (member : run ∈ next.runs) :
    (∃ before ∈ gate.runs, before.task = run.task) ∨
      ∃ root, gate.outstanding? root = none ∧ action = .poll root ∧
        run.task = gate.queue.nextTicket := by
  have same : next.runs = gate.runs → ∃ before ∈ gate.runs, before.task = run.task :=
    fun same => ⟨run, same ▸ member, rfl⟩
  cases step with
  | begin free =>
    rcases List.mem_append.mp member with old | new
    · exact Or.inl ⟨run, old, rfl⟩
    · obtain rfl := List.mem_singleton.mp new
      exact Or.inr ⟨_, free, rfl, rfl⟩
  | note =>
    obtain ⟨before, beforeMember, rfl⟩ := List.mem_map.mp member
    exact Or.inl ⟨before, beforeMember, (PollRun.note_task ..).symm⟩
  | leave => exact Or.inl (same (clearEntry_runs ..))
  | _ => exact Or.inl (same rfl)

end StatusGate

namespace Session

variable {session next : Session}

/-- The end of the body of a turn is a step of the gate, or the gate stays as it was. -/
theorem BodyEnds.gate {turn : Turn} {result : CheckerResult}
    (ends : session.BodyEnds turn result next) :
    next.gate = session.gate ∨ ∃ task, turn = .polled task ∧
      session.gate.Step (.finish task (.returned result)) next.gate := by
  cases ends with
  | queued step => exact Or.inl rfl
  | polled step => exact Or.inr ⟨_, rfl, step⟩

theorem BodyEnds.processes {turn : Turn} {result : CheckerResult}
    (ends : session.BodyEnds turn result next) : next.processes = session.processes := by
  cases ends <;> rfl

theorem BodyEnds.requests {turn : Turn} {result : CheckerResult}
    (ends : session.BodyEnds turn result next) : next.requests = session.requests := by
  cases ends <;> rfl

end Session

namespace Traffic

variable {client : Client platform} {behaviour : Behaviour} {traffic next : Traffic}

/-- What the body of a turn came to, when a step ends it. -/
inductive Ending (client : Client platform) (behaviour : Behaviour) (traffic : Traffic) :
    Action → Turn → CheckerResult → Prop
  | answer {turn : Turn} {request : Request} {result : CheckerResult}
    (undecided : traffic.session.Undecided turn request)
    (decided : (traffic.session.decisionOn client request).1 = .done result) :
    Ending client behaviour traffic (.decide turn) turn result
  | fail {turn : Turn} {request : Request} {invocation : Invocation} {error : CheckerError}
    (undecided : traffic.session.Undecided turn request)
    (decided : (traffic.session.decisionOn client request).1 = .run invocation)
    (failed : traffic.session.launched client behaviour invocation = .error error) :
    Ending client behaviour traffic (.decide turn) turn (.error error)
  | kill {index : Nat} {turn : Turn} {running : RunningChecker} {result : CheckerResult}
    (found : traffic.session.processes[index]? = some (turn, running))
    (told : running.interrupted) : Ending client behaviour traffic (.kill index) turn result
  | finish {index : Nat} {turn : Turn} {running : RunningChecker} {result : CheckerResult}
    (found : traffic.session.processes[index]? = some (turn, running))
    (outcome : running.outcome? = some result) :
    Ending client behaviour traffic (.finish index) turn result

/-- The gate stays as it is, or takes a step of its own, or a question polls, or a body ends. -/
theorem Step.gateStep {action : Action} (step : Step client behaviour traffic action next) :
    next.session.gate = traffic.session.gate ∨
    (∃ own, traffic.session.gate.Step own next.session.gate ∧ own.isOwn) ∨
    (∃ file token, action = .ask (.status file) token ∧
      traffic.session.gate.Step (.poll (Session.rootKey traffic.session.disk file))
        next.session.gate) ∨
    ∃ task result, Ending client behaviour traffic action (.polled task) result ∧
      traffic.session.gate.Step (.finish task (.returned result)) next.session.gate := by
  -- A body that ends is that of a poll, or it is none of the business of the gate.
  have ending : ∀ {session : Session} {turn : Turn} {result : CheckerResult},
      session.BodyEnds turn result next.session → session.gate = traffic.session.gate →
      Ending client behaviour traffic action turn result →
      next.session.gate = traffic.session.gate ∨
        ∃ task result, Ending client behaviour traffic action (.polled task) result ∧
          traffic.session.gate.Step (.finish task (.returned result)) next.session.gate := by
    intro session turn result ends same ending
    rcases ends.gate with kept | ⟨task, rfl, step⟩
    · exact Or.inl (kept.trans same)
    · exact Or.inr ⟨task, result, ending, same ▸ step⟩
  cases step with
  | @poll file token =>
    refine Or.inr (Or.inr (Or.inl ⟨file, token, rfl, ?_⟩))
    exact StatusGate.step_of_step? rfl
  | gate own step => exact Or.inr (Or.inl ⟨_, step, own⟩)
  | answer undecided decided ends =>
    rcases ending ends rfl (.answer undecided (by rw [decided])) with same | ended
    · exact Or.inl same
    · exact Or.inr (Or.inr (Or.inr ended))
  | fail undecided decided failed ends =>
    rcases ending ends rfl (.fail undecided (by rw [decided]) failed) with same | ended
    · exact Or.inl same
    · exact Or.inr (Or.inr (Or.inr ended))
  | kill found alive told ends =>
    rcases ending ends rfl (.kill found told) with same | ended
    · exact Or.inl same
    · exact Or.inr (Or.inr (Or.inr ended))
  | finish found outcome ends =>
    rcases ending ends rfl (.finish found outcome) with same | ended
    · exact Or.inl same
    · exact Or.inr (Or.inr (Or.inr ended))
  | _ => exact Or.inl rfl

/-- A client in which no body of a poll died. -/
def Undying (traffic : Traffic) : Prop :=
  ∃ actions, StatusGate.Sound actions traffic.session.gate ∧ StatusGate.Deathless actions

/-- Bodies of polls end with a result, whatever happens. -/
theorem Undying.step (undying : traffic.Undying) {action : Action}
    (step : Step client behaviour traffic action next) : next.Undying := by
  obtain ⟨actions, sound, deathless⟩ := undying
  -- A step that is no death adds none to those that happened.
  have goOn : ∀ {own}, traffic.session.gate.Step own next.session.gate →
      (∀ task detail, own.endOf? task ≠ some (.panicked detail)) → next.Undying :=
    fun stepped gentle => ⟨_, sound.step stepped, deathless.concat gentle⟩
  rcases step.gateStep with same | ⟨own, stepped, isOwn⟩ | ⟨file, token, _, stepped⟩ |
    ⟨task, result, _, stepped⟩
  · exact ⟨actions, same ▸ sound, deathless⟩
  · refine goOn stepped fun task detail => ?_
    cases own <;> simp [StatusGate.Action.endOf?, StatusGate.Action.isOwn] at isOwn ⊢
  · exact goOn stepped fun task detail => by simp [StatusGate.Action.endOf?]
  · exact goOn stepped fun other detail => by simp [StatusGate.Action.endOf?]

end Traffic

end FlowService
