import FlowService.Proofs.Client.Remainder
import FlowService.Proofs.Client.Roots
import FlowService.Proofs.Client.SharedRuns

/-!
A run from which some questions are left out, with all that is about their tickets, is a run as well.
It comes to what remains of the client, when no checker was run for what was left out.
-/

namespace FlowService

variable {platform : Option String}

open ProjectQueue (place place_inj)

/-- The same question with another ticket. -/
def Asking.rename (rename : Nat → Nat) (asking : Asking) : Asking :=
  { asking with ticket := rename asking.ticket }

/-- An action on another ticket is one that the queue takes by itself when the action is. -/
@[simp] theorem ProjectQueue.Action.isOwn_rename {κ α : Type} (rename : Nat → Nat)
    (action : Action κ α) : (action.rename rename).isOwn = action.isOwn := by
  cases action <;> rfl

namespace Traffic

/-- The ticket that is drawn next after an action. -/
def Action.nextAfter (drawn : Nat) : Action → Nat
  | .ask (.status _) _ => drawn
  | .ask _ _ => drawn + 1
  | _ => drawn

/-- The same action on other tickets. -/
def Action.rename (rename : Nat → Nat) : Action → Action
  | .enter ticket => .enter (rename ticket)
  | .queue action => .queue (action.rename rename)
  | .decide turn => .decide (turn.rename rename)
  | action => action

/-- Whether an action is about nothing that is left out, when the given ticket is drawn next. -/
def Action.isKept (keep : Nat → Bool) (muted : String → Bool) (drawn : Nat) : Action → Bool
  | .ask (.status _) _ => true
  | .ask _ _ => keep drawn
  | .enter ticket => keep ticket
  | .queue action => action.ticket?.all keep
  | .decide turn => turn.isKept keep
  | .cancel token => !muted token
  | _ => true

/-- The actions that are about nothing that is left out, on tickets that are counted anew. -/
def keptActions (keep : Nat → Bool) (muted : String → Bool) : Nat → List Action → List Action
  | _, [] => []
  | drawn, action :: later =>
    let rest := keptActions keep muted (action.nextAfter drawn) later
    if action.isKept keep muted drawn then action.rename (place keep) :: rest else rest

/-- A client is what remains of another one when some questions were never asked. -/
structure Remains (keep : Nat → Bool) (muted : String → Bool) (whole part : Traffic) : Prop where
  session : Session.Remains keep muted whole.session part.session
  asked : part.asked = (whole.asked.filter (keep ·.ticket)).map (Asking.rename (place keep))

variable {client : Client platform} {behaviour : Behaviour} {keep : Nat → Bool}
variable {muted : String → Bool} {whole part next : Traffic}

/-- A question for the queue draws a ticket. -/
theorem ask_of_queued {question : Question} (queued : ∀ file, question ≠ .status file)
    (traffic : Traffic) (token : Option String) :
    traffic.ask question token =
      ⟨{ traffic.session with queue := traffic.session.queue.draw }, traffic.asked ++
        [⟨question, token, Session.rootKey traffic.session.disk question.file,
          traffic.session.queue.nextTicket⟩]⟩ := by
  cases question with
  | status file => exact absurd rfl (queued file)
  | _ => rfl

namespace Remains

/-- A ticket that is kept leads to the same question. -/
theorem asking? (remains : Remains keep muted whole part) {ticket : Nat} (kept : keep ticket) :
    part.asked.find? (·.ticket == place keep ticket) =
      (whole.asked.find? (·.ticket == ticket)).map (Asking.rename (place keep)) := by
  rw [remains.asked]
  refine find?_map_filter (fun asking mine => ?_) (fun asking meant => ?_) _
  · exact beq_eq_beq.mpr ⟨place_inj mine kept, congrArg (place keep)⟩
  · rwa [beq_iff_eq.mp meant]

/-- What remains polls the same gate. -/
theorem poll (remains : Remains keep muted whole part) (file : Path) (token : Option String) :
    Remains keep muted (whole.ask (.status file) token) (part.ask (.status file) token) where
  session :=
    { remains.session with
      gate := by
        show (part.session.gate.poll _).2.2 = (whole.session.gate.poll _).2.2
        rw [remains.session.gate, remains.session.disk]
      requests := by
        show (part.session.ask _ _).2.requests = ((whole.session.ask _ _).2.requests.filter _).map _
        rw [ask_status_requests, ask_status_requests, List.filter_append, List.map_append,
          remains.session.requests, remains.session.gate, remains.session.disk]
        rfl
      unmuted := by
        intro request member
        rcases List.mem_append.mp member with old | new
        · exact remains.session.unmuted request old
        · obtain rfl := List.mem_singleton.mp new
          exact fun _ => rfl }
  asked := remains.asked

/-- A question that is kept is asked in what remains as well. -/
theorem ask (remains : Remains keep muted whole part) (patient : whole.session.queue.Patient)
    {question : Question} (queued : ∀ file, question ≠ .status file) (token : Option String)
    (kept : keep whole.session.queue.nextTicket) :
    Remains keep muted (whole.ask question token) (part.ask question token) := by
  rw [ask_of_queued queued, ask_of_queued queued]
  obtain ⟨other, drawn, queueRemains⟩ := remains.session.queue.step_kept patient .draw kept
  obtain rfl := Option.some.inj drawn
  refine ⟨{ remains.session with queue := queueRemains }, ?_⟩
  simp [remains.asked, remains.session.disk, remains.session.queue.nextTicket, kept, Asking.rename]

/-- A question that is left out changes nothing of what remains. -/
theorem ask_left (remains : Remains keep muted whole part)
    (orderly : whole.session.queue.Orderly) (patient : whole.session.queue.Patient)
    {question : Question} (queued : ∀ file, question ≠ .status file) (token : Option String)
    (left : keep whole.session.queue.nextTicket = false) :
    Remains keep muted (whole.ask question token) part := by
  rw [ask_of_queued queued]
  -- The ticket that is drawn has no place among those that are kept.
  have queueRemains := remains.session.queue.step_left orderly patient .draw left
  refine ⟨{ remains.session with queue := queueRemains }, ?_⟩
  simp [remains.asked, left]

/-- The task of a question that is kept is admitted in what remains as well. -/
theorem enter (remains : Remains keep muted whole part) (patient : whole.session.queue.Patient)
    (unmuted : ∀ asking ∈ whole.asked, keep asking.ticket → asking.token.any muted = false)
    {ticket : Nat} (kept : keep ticket) (entered : whole.enter? ticket = some next) :
    ∃ other, part.enter? (place keep ticket) = some other ∧ Remains keep muted next other := by
  obtain ⟨asking, found, entered⟩ := Option.bind_eq_some_iff.mp entered
  obtain ⟨queue, admitted, same⟩ := Option.bind_eq_some_iff.mp entered
  cases same
  obtain ⟨other, alsoAdmitted, queueRemains⟩ :=
    remains.session.queue.step_kept patient (ProjectQueue.step_of_step? admitted) kept
  -- The question is found again under its new ticket.
  have alsoFound : part.asked.find? (·.ticket == place keep ticket) =
      some (asking.rename (place keep)) := by
    rw [remains.asking? kept, found]
    rfl
  refine ⟨_, Option.bind_eq_some_iff.mpr ⟨_, alsoFound,
    Option.bind_eq_some_iff.mpr ⟨other, alsoAdmitted, rfl⟩⟩, ⟨?_, remains.asked⟩⟩
  refine { remains.session with queue := queueRemains, requests := ?_, unmuted := ?_ }
  · have mine : (Turn.queued ticket).isKept keep = true := kept
    show part.session.requests ++ [_] = ((whole.session.requests ++ [_]).filter _).map _
    rw [List.filter_append, List.map_append, remains.session.requests, List.filter_singleton, mine]
    rfl
  · intro request member mine
    rcases List.mem_append.mp member with old | new
    · exact remains.session.unmuted request old mine
    · obtain rfl := List.mem_singleton.mp new
      have bears : asking.ticket = ticket := by simpa using List.find?_some found
      exact unmuted asking (List.mem_of_find?_eq_some found) (bears ▸ kept)

/-- The admission of a task that is left out changes nothing of what remains. -/
theorem enter_left (remains : Remains keep muted whole part)
    (orderly : whole.session.queue.Orderly) (patient : whole.session.queue.Patient)
    {ticket : Nat} (left : keep ticket = false) (entered : whole.enter? ticket = some next) :
    Remains keep muted next part := by
  obtain ⟨asking, found, entered⟩ := Option.bind_eq_some_iff.mp entered
  obtain ⟨queue, admitted, same⟩ := Option.bind_eq_some_iff.mp entered
  cases same
  have queueRemains :=
    remains.session.queue.step_left orderly patient (ProjectQueue.step_of_step? admitted) left
  refine ⟨?_, remains.asked⟩
  refine { remains.session with queue := queueRemains, requests := ?_, unmuted := ?_ }
  · have other : (Turn.queued ticket).isKept keep = false := left
    show part.session.requests = ((whole.session.requests ++ [_]).filter _).map _
    rw [List.filter_append, List.map_append, remains.session.requests, List.filter_singleton, other]
    exact (List.append_nil _).symm
  · intro request member mine
    rcases List.mem_append.mp member with old | new
    · exact remains.session.unmuted request old mine
    · obtain rfl := List.mem_singleton.mp new
      exact absurd (left.symm.trans mine) (by decide)

/-- What remains takes the same step, when it is about nothing that is left out. -/
theorem step_kept (remains : Remains keep muted whole part)
    (patient : whole.session.queue.Patient)
    (unmuted : ∀ asking ∈ whole.asked, keep asking.ticket → asking.token.any muted = false)
    {action : Action} (kept : action.isKept keep muted whole.session.queue.nextTicket)
    (stepped : whole.step? client behaviour action = some next) :
    ∃ other, part.step? client behaviour (action.rename (place keep)) = some other ∧
      Remains keep muted next other := by
  have session := remains.session
  -- What becomes of the session in both is all that there is to a step but for questions.
  have goOn : ∀ {result : Option Session} {wanted : Option Traffic} {after : Session},
      (∃ other, result = some other ∧ Session.Remains keep muted after other) →
      wanted = result.map part.withSession →
      ∃ other, wanted = some other ∧ Remains keep muted (whole.withSession after) other := by
    rintro result wanted after ⟨other, rfl, after⟩ rfl
    exact ⟨_, rfl, after, remains.asked⟩
  cases action with
  | ask question token =>
    cases stepped
    refine ⟨_, rfl, ?_⟩
    cases question with
    | status file => exact remains.poll file token
    | _ => exact remains.ask patient (by rintro _ ⟨⟩) token kept
  | enter ticket => exact remains.enter patient unmuted kept stepped
  | queue action =>
    simp only [step?] at stepped
    split at stepped
    · rename_i own
      obtain ⟨queue, acted, rfl⟩ := Option.map_eq_some_iff.mp stepped
      have mine : keep (action.ticketAt whole.session.queue.nextTicket) := by
        cases action <;> first | exact kept | cases own
      obtain ⟨other, alsoActed, queueRemains⟩ :=
        session.queue.step_kept patient (ProjectQueue.step_of_step? acted) mine
      refine ⟨part.withSession { part.session with queue := other }, ?_,
        { session with queue := queueRemains }, remains.asked⟩
      simp [Action.rename, step?, own, alsoActed]
    · cases stepped
  | gate action =>
    simp only [step?] at stepped
    split at stepped
    · rename_i own
      obtain ⟨gate, acted, rfl⟩ := Option.map_eq_some_iff.mp stepped
      refine ⟨part.withSession { part.session with gate := gate }, ?_,
        { session with gate := rfl }, remains.asked⟩
      simp [Action.rename, step?, own, session.gate, acted]
    · cases stepped
  | decide turn =>
    obtain ⟨after, decided, rfl⟩ := Option.map_eq_some_iff.mp stepped
    exact goOn (session.decide_kept patient kept decided) rfl
  | move index move =>
    obtain ⟨after, moved, rfl⟩ := Option.map_eq_some_iff.mp stepped
    exact goOn (session.move moved) rfl
  | interrupt index =>
    obtain ⟨after, interrupted, rfl⟩ := Option.map_eq_some_iff.mp stepped
    exact goOn (session.interrupt interrupted) rfl
  | kill index =>
    obtain ⟨after, killed, rfl⟩ := Option.map_eq_some_iff.mp stepped
    exact goOn (session.kill patient killed) rfl
  | finish index =>
    obtain ⟨after, finished, rfl⟩ := Option.map_eq_some_iff.mp stepped
    exact goOn (session.finish patient finished) rfl
  | cancel token =>
    cases stepped
    refine ⟨_, rfl, { session with canceled := fun other heard => ?_ }, remains.asked⟩
    have same := session.canceled other heard
    simp only [List.contains_eq_mem, decide_eq_decide] at same
    simp [withSession, same]
  | openGate gate =>
    cases stepped
    exact ⟨_, rfl, { session with opened := by simp [withSession, session.opened] }, remains.asked⟩
  | change disk =>
    cases stepped
    exact ⟨_, rfl, { session with disk := rfl }, remains.asked⟩
  | locate action =>
    cases stepped
    refine ⟨_, rfl, { session with locator := ?_ }, remains.asked⟩
    simp [withSession, session.locator, session.disk]

/-- A step about something that is left out changes nothing of what remains, if a question that is
left out is refused. -/
theorem step_left (remains : Remains keep muted whole part)
    (orderly : whole.session.queue.Orderly) (patient : whole.session.queue.Patient)
    {action : Action} (left : action.isKept keep muted whole.session.queue.nextTicket = false)
    (refuses : ∀ ticket, action = .decide (.queued ticket) →
      ∀ request, whole.session.leader? (.queued ticket) = some request →
        whole.session.Refuses client request)
    (stepped : whole.step? client behaviour action = some next) : Remains keep muted next part := by
  cases action with
  | ask question token =>
    cases stepped
    cases question with
    | status file => cases left
    | _ => exact remains.ask_left orderly patient (by rintro _ ⟨⟩) token left
  | enter ticket => exact remains.enter_left orderly patient left stepped
  | queue action =>
    simp only [step?] at stepped
    split at stepped
    · rename_i own
      obtain ⟨queue, acted, rfl⟩ := Option.map_eq_some_iff.mp stepped
      have other : keep (action.ticketAt whole.session.queue.nextTicket) = false := by
        cases action <;> first | exact left | cases own
      have queueRemains := remains.session.queue.step_left orderly patient
        (ProjectQueue.step_of_step? acted) other
      exact ⟨{ remains.session with queue := queueRemains }, remains.asked⟩
    · cases stepped
  | decide turn =>
    obtain ⟨after, decided, rfl⟩ := Option.map_eq_some_iff.mp stepped
    cases turn with
    | queued ticket =>
      exact ⟨remains.session.decide_left orderly patient left (refuses ticket rfl) decided,
        remains.asked⟩
    | polled => cases left
  | cancel token =>
    cases stepped
    refine ⟨{ remains.session with canceled := fun other heard => ?_ }, remains.asked⟩
    -- A token that is heard is not the one that is left out.
    have apart : other ≠ token := fun same => by simp [Action.isKept, ← same, heard] at left
    simpa [withSession, apart] using remains.session.canceled other heard
  | gate | move | interrupt | kill | finish | openGate | change | locate => cases left

end Remains

/-- The ticket that is drawn next moves on with every question for the queue. -/
theorem Step.nextTicket {action : Action} (step : Step client behaviour whole action next) :
    next.session.queue.nextTicket = action.nextAfter whole.session.queue.nextTicket := by
  -- The end of a body draws no ticket.
  have ended : ∀ {session after : Session} {turn : Turn} {result : CheckerResult},
      session.BodyEnds turn result after → session.queue = whole.session.queue →
        after.queue.nextTicket = whole.session.queue.nextTicket := by
    intro session after turn result ends before
    rw [← before]
    rcases ends.queue with same | ⟨ticket, _, finished⟩
    · rw [same]
    · exact finished.nextTicket
  cases step with
  | @ask question token queued =>
    cases question with
    | status file => exact absurd rfl (queued file)
    | _ => rfl
  | @queue action queue own step =>
    cases action <;> first | exact step.nextTicket | cases own
  | answer _ _ ends | fail _ _ _ ends | kill _ _ _ ends | finish _ _ ends => exact ended ends rfl
  | _ => rfl

/-- What was asked stays asked in one step. -/
theorem Step.asked_lasts {action : Action} (step : Step client behaviour whole action next)
    {asking : Asking} (asked : asking ∈ whole.asked) : asking ∈ next.asked := by
  rcases step.asked with same | ⟨_, _, _, grown⟩
  · rwa [same]
  · rw [grown]
    exact List.mem_append_left _ asked

/-- What was asked stays asked. -/
theorem asked_lasts {actions : List Action}
    (ran : whole.run? client behaviour actions = some next) {asking : Asking}
    (asked : asking ∈ whole.asked) : asking ∈ next.asked :=
  run_induction (motive := fun _ traffic => asking ∈ traffic.asked) asked
    (fun _ _ _ _ member step => step.asked_lasts member) ran

/-- What is left out of a run is refused when it is decided on. -/
def RefusesLeftOut (client : Client platform) (behaviour : Behaviour) (keep : Nat → Bool)
    (start : Traffic) (actions : List Action) : Prop :=
  ∀ before ticket later, actions = before ++ .decide (.queued ticket) :: later →
    keep ticket = false → ∀ moment, start.run? client behaviour before = some moment →
      ∀ request, moment.session.leader? (.queued ticket) = some request →
        moment.session.Refuses client request

/-- A run without what is left out comes to what remains. -/
theorem Remains.run {actions : List Action} (remains : Remains keep muted whole part)
    (inOrder : whole.InOrder) (patient : whole.session.queue.Patient)
    (ran : whole.run? client behaviour actions = some next)
    (refuses : RefusesLeftOut client behaviour keep whole actions)
    (unmuted : ∀ asking ∈ next.asked, keep asking.ticket → asking.token.any muted = false) :
    ∃ other, part.run? client behaviour
        (keptActions keep muted whole.session.queue.nextTicket actions) = some other ∧
      Remains keep muted next other := by
  -- The induction is on the actions; each is mirrored if it is kept, and is passed over if not.
  induction actions generalizing whole part with
  | nil =>
    cases ran
    exact ⟨part, rfl, remains⟩
  | cons action later ih =>
    have orderly : whole.session.queue.Orderly := inOrder.exclusive.orderly
    have heard := fun asking asked => unmuted asking (asked_lasts ran asked)
    obtain ⟨middle, stepped, ran⟩ := Option.bind_eq_some_iff.mp ran
    have step := step_of_step? stepped
    have ahead : RefusesLeftOut client behaviour keep middle later := by
      intro before ticket after split left moment reached
      refine refuses (action :: before) ticket after (by rw [split]; rfl) left moment ?_
      exact Option.bind_eq_some_iff.mpr ⟨middle, stepped, reached⟩
    have goOn : ∀ {part : Traffic}, Remains keep muted middle part → ∃ other,
        part.run? client behaviour (keptActions keep muted
          (action.nextAfter whole.session.queue.nextTicket) later) = some other ∧
        Remains keep muted next other := by
      intro part remains
      rw [← step.nextTicket]
      exact ih remains (inOrder.step step) (step.patient orderly patient) ran ahead
    rw [keptActions]
    by_cases kept : action.isKept keep muted whole.session.queue.nextTicket
    · obtain ⟨other, alsoStepped, after⟩ := remains.step_kept patient heard kept stepped
      obtain ⟨last, alsoRan, remains⟩ := goOn after
      refine ⟨last, ?_, remains⟩
      rw [if_pos kept]
      exact Option.bind_eq_some_iff.mpr ⟨other, alsoStepped, alsoRan⟩
    · have left : action.isKept keep muted whole.session.queue.nextTicket = false := by
        simpa using kept
      rw [if_neg kept]
      refine goOn (remains.step_left orderly patient left (fun ticket same => ?_) stepped)
      subst same
      exact refuses [] ticket later rfl left whole rfl

end Traffic

end FlowService
