import FlowService.Proofs.Client.Polling
import FlowService.Proofs.Client.Settling
import FlowService.Proofs.Queue.Patience

/-!
A question that was canceled, that is put to a client that is switched off or whose file is missing
is refused when its turn comes, and nothing but the queue takes notice of it.
-/

namespace FlowService

variable {platform : Option String}

namespace Session

variable {client : Client platform} {behaviour : Behaviour} {session next : Session}
variable {request : Request}

/-- There is a reason not to run the checker for a request. -/
def Refuses (client : Client platform) (session : Session) (request : Request) : Prop :=
  session.isCanceled request ∨ client.options.enabled = false ∨
    session.disk.exists? request.question.file = false

/-- What a request is refused with; that it was canceled goes before every other reason. -/
def refusal (client : Client platform) (session : Session) (request : Request) : CheckerResult :=
  if session.isCanceled request then .error .canceled
  else if !client.options.enabled then .ok (.skipped .disabled)
  else .ok (.skipped .fileMissing)

/-- Whoever is refused is told of the cancellation, or gets no result. -/
theorem refusal_decode {α : Type} (read : Json → Option α) :
    (session.refusal client request).decode read =
      if session.isCanceled request then .error .canceled else .ok none := by
  unfold refusal
  split
  · rfl
  · split <;> rfl

/-- A request that is refused is answered at once, and the locator is not asked. -/
theorem Refuses.decisionOn (refuses : session.Refuses client request) :
    session.decisionOn client request =
      (.done (session.refusal client request), session.locator) := by
  -- The three reasons are looked at in turn, and each comes before the locator is asked.
  unfold Session.decisionOn Client.decide refusal
  cases canceled : session.isCanceled request with
  | true => rfl
  | false =>
    cases enabled : client.options.enabled with
    | false => rfl
    | true =>
      have missing : session.disk.exists? request.question.file = false := by
        simpa [Refuses, canceled, enabled] using refuses
      simp [missing]

/-- Deciding about a request that is refused only ends its body. -/
theorem Refuses.decide? {turn : Turn} (undecided : session.Undecided turn request)
    (refuses : session.Refuses client request) :
    session.decide? client behaviour turn =
      session.endBody? turn (session.refusal client request) := by
  rw [undecided.decide?, refuses.decisionOn]

/-- Whoever decides about a turn finds it undecided. -/
theorem undecided_of_decide? {turn : Turn}
    (decided : session.decide? client behaviour turn = some next) :
    ∃ request, session.Undecided turn request := by
  have step : Traffic.Step client behaviour ⟨session, []⟩ (.decide turn) _ :=
    Traffic.step_of_decide? decided
  cases step with
  | answer undecided | fail undecided | launch undecided => exact ⟨_, undecided⟩

/-- The end of the body of a turn is a step of the queue, or the queue stays as it was. -/
theorem BodyEnds.queue {turn : Turn} {result : CheckerResult}
    (ends : session.BodyEnds turn result next) :
    next.queue = session.queue ∨ ∃ ticket, turn = .queued ticket ∧
      session.queue.Step (.finish ticket (.returned result)) next.queue := by
  cases ends with
  | queued step => exact Or.inr ⟨_, rfl, step⟩
  | polled step => exact Or.inl rfl

end Session

namespace Traffic

variable {client : Client platform} {behaviour : Behaviour} {traffic next : Traffic}

/-- The queue stays as it is, or takes a step that ends no body, or a body ends. -/
theorem Step.queueStep {action : Action} (step : Step client behaviour traffic action next) :
    next.session.queue = traffic.session.queue ∨
    (∃ own, traffic.session.queue.Step own next.session.queue ∧
      ∀ ticket bodyEnd, own ≠ .finish ticket bodyEnd) ∨
    ∃ ticket result, Ending client behaviour traffic action (.queued ticket) result ∧
      traffic.session.queue.Step (.finish ticket (.returned result)) next.session.queue := by
  -- A body that ends is that of a task of the queue, or the queue takes no notice of it.
  have ending : ∀ {session : Session} {turn : Turn} {result : CheckerResult},
      session.BodyEnds turn result next.session → session.queue = traffic.session.queue →
      Ending client behaviour traffic action turn result →
      next.session.queue = traffic.session.queue ∨
        ∃ ticket result, Ending client behaviour traffic action (.queued ticket) result ∧
          traffic.session.queue.Step (.finish ticket (.returned result)) next.session.queue := by
    intro session turn result ends same ending
    rcases ends.queue with kept | ⟨ticket, rfl, step⟩
    · exact Or.inl (kept.trans same)
    · exact Or.inr ⟨ticket, result, ending, same ▸ step⟩
  cases step with
  | ask => exact Or.inr (Or.inl ⟨_, .draw, fun _ _ same => nomatch same⟩)
  | enter _ drawn => exact Or.inr (Or.inl ⟨_, .enter drawn, fun _ _ same => nomatch same⟩)
  | queue own step =>
    refine Or.inr (Or.inl ⟨_, step, ?_⟩)
    rintro ticket bodyEnd rfl
    cases own
  | answer undecided decided ends =>
    exact (ending ends rfl (.answer undecided (by rw [decided]))).imp_right Or.inr
  | fail undecided decided failed ends =>
    exact (ending ends rfl (.fail undecided (by rw [decided]) failed)).imp_right Or.inr
  | kill found alive told ends => exact (ending ends rfl (.kill found told)).imp_right Or.inr
  | finish found outcome ends => exact (ending ends rfl (.finish found outcome)).imp_right Or.inr
  | _ => exact Or.inl rfl

/-- The queue of a client stays patient. -/
theorem Step.patient {action : Action} (step : Step client behaviour traffic action next)
    (orderly : traffic.session.queue.Orderly) (patient : traffic.session.queue.Patient) :
    next.session.queue.Patient := by
  rcases step.queueStep with same | ⟨_, stepped, _⟩ | ⟨_, _, _, stepped⟩
  · rwa [same]
  all_goals exact patient.step orderly.unique stepped

end Traffic

end FlowService
