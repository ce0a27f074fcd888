import FlowService.Proofs.Client.Refusals
import FlowService.Proofs.Queue.Remainder

/-!
When some questions are left out of a session that changed nothing in it, the others find the same
disk, the same locator and the same processes.
-/

namespace FlowService

variable {platform : Option String}

open ProjectQueue (place place_inj)

/-- The same turn with another ticket. -/
def Turn.rename (rename : Nat → Nat) : Turn → Turn
  | .queued ticket => .queued (rename ticket)
  | .polled task => .polled task

/-- Whether a turn is one of those that are kept. -/
def Turn.isKept (keep : Nat → Bool) : Turn → Bool
  | .queued ticket => keep ticket
  | .polled _ => true

/-- The same request with another ticket. -/
def Request.rename (rename : Nat → Nat) (request : Request) : Request :=
  { request with turn := request.turn.rename rename }

/-- No two turns that are kept get the same name. -/
theorem Turn.rename_inj {keep : Nat → Bool} {one other : Turn} (oneKept : one.isKept keep)
    (otherKept : other.isKept keep) :
    one.rename (place keep) = other.rename (place keep) ↔ one = other := by
  refine ⟨fun same => ?_, fun same => same ▸ rfl⟩
  cases one with
  | queued ticket =>
    cases other with
    | queued another => exact congrArg _ (place_inj oneKept otherKept (Turn.queued.inj same))
    | polled => cases same
  | polled task =>
    cases other with
    | queued => cases same
    | polled => exact same

namespace Session

/-- A session is what remains of another one when only some tickets are kept, and when some tokens
never fired. -/
structure Remains (keep : Nat → Bool) (muted : String → Bool) (whole part : Session) : Prop where
  disk : part.disk = whole.disk
  locator : part.locator = whole.locator
  gate : part.gate = whole.gate
  opened : part.opened = whole.opened
  canceled : ∀ token, muted token = false →
    part.canceled.contains token = whole.canceled.contains token
  queue : ProjectQueue.Remains keep whole.queue part.queue
  requests : part.requests =
    (whole.requests.filter (·.turn.isKept keep)).map (Request.rename (place keep))
  -- No muted token belongs to a question that is kept.
  unmuted : ∀ request ∈ whole.requests, request.turn.isKept keep → request.token.any muted = false
  processes : part.processes = whole.processes.map (Prod.map (Turn.rename (place keep)) id)
  working : ∀ entry ∈ whole.processes, entry.1.isKept keep

namespace Remains

variable {keep : Nat → Bool} {muted : String → Bool} {whole part next : Session}
variable {client : Client platform} {behaviour : Behaviour}

/-- Of a session in which nothing was asked such a session remains. -/
theorem start (keep : Nat → Bool) (muted : String → Bool) (disk : Disk) :
    Remains keep muted (Session.start disk) (Session.start disk) where
  disk := rfl
  locator := rfl
  gate := rfl
  opened := rfl
  canceled _ _ := rfl
  queue := .empty keep
  requests := rfl
  unmuted _ member := nomatch member
  processes := rfl
  working _ member := nomatch member

/-- A turn that is kept is led by the same request. -/
theorem leader? (remains : Remains keep muted whole part) {turn : Turn}
    (kept : turn.isKept keep) :
    part.leader? (turn.rename (place keep)) =
      (whole.leader? turn).map (Request.rename (place keep)) := by
  unfold Session.leader?
  rw [remains.requests]
  refine find?_map_filter (fun request mine => ?_) (fun request leads => ?_) _
  · exact congrArg (· && request.leads) (beq_eq_beq.mpr (Turn.rename_inj mine kept))
  · simp only [Bool.and_eq_true, beq_iff_eq] at leads
    rw [leads.1, kept]

/-- A request that is kept is canceled in what remains when it is canceled. -/
theorem isCanceled (remains : Remains keep muted whole part) {request : Request}
    (member : request ∈ whole.requests) (kept : request.turn.isKept keep) :
    part.isCanceled (request.rename (place keep)) = whole.isCanceled request := by
  have heard := remains.unmuted request member kept
  unfold Session.isCanceled Request.rename
  -- A request without a token is not canceled, and a token that is not muted fired in both.
  cases bears : request.token with
  | none => rfl
  | some token =>
    rw [bears] at heard
    exact remains.canceled token (by simpa using heard)

/-- The body of a turn that is kept runs in what remains when it runs. -/
theorem isUnderWay (remains : Remains keep muted whole part) {turn : Turn}
    (kept : turn.isKept keep) :
    part.isUnderWay (turn.rename (place keep)) = whole.isUnderWay turn := by
  cases turn with
  | queued ticket =>
    show part.queue.isRunning _ = whole.queue.isRunning ticket
    unfold ProjectQueue.isRunning
    rw [remains.queue.stage? kept]
  | polled task =>
    show part.isUnderWay (.polled task) = whole.isUnderWay (.polled task)
    simp only [Session.isUnderWay, remains.gate]

/-- A turn that is kept is decided on in what remains when it is decided on. -/
theorem undecided (remains : Remains keep muted whole part) {turn : Turn}
    (kept : turn.isKept keep) {request : Request} (undecided : whole.Undecided turn request) :
    part.Undecided (turn.rename (place keep)) (request.rename (place keep)) where
  leader := by rw [remains.leader? kept, undecided.leader]; rfl
  runs := by rw [remains.isUnderWay kept, undecided.runs]
  first member := by
    -- A process of the turn would be one of the whole under the same name.
    rw [remains.processes, List.map_map] at member
    obtain ⟨entry, listed, same⟩ := List.mem_map.mp member
    have named := (Turn.rename_inj (remains.working entry listed) kept).mp same
    exact undecided.first (named ▸ List.mem_map_of_mem listed)

/-- A process stands where it stood. -/
theorem process? (remains : Remains keep muted whole part) (index : Nat) :
    part.processes[index]? =
      (whole.processes[index]?).map (Prod.map (Turn.rename (place keep)) id) := by
  rw [remains.processes, List.getElem?_map]

/-- The same is decided about a question in what remains. -/
theorem decisionOn (remains : Remains keep muted whole part) {request : Request}
    (member : request ∈ whole.requests) (kept : request.turn.isKept keep) :
    part.decisionOn client (request.rename (place keep)) = whole.decisionOn client request := by
  simp only [Session.decisionOn, remains.isCanceled member kept, remains.disk, remains.locator]
  rfl

/-- The same comes of starting a process in what remains. -/
theorem launched (remains : Remains keep muted whole part) (invocation : Invocation) :
    part.launched client behaviour invocation = whole.launched client behaviour invocation := by
  simp only [Session.launched, remains.disk, remains.processes, List.map_map]
  rfl

/-- The locator may change in both. -/
theorem withLocator (remains : Remains keep muted whole part) (locator : Locator) :
    Remains keep muted { whole with locator := locator } { part with locator := locator } :=
  { remains with locator := rfl }

/-- The body of a turn that is kept ends in what remains as well. -/
theorem endBody (remains : Remains keep muted whole part) (patient : whole.queue.Patient)
    {turn : Turn} (kept : turn.isKept keep) {result : CheckerResult}
    (ended : whole.endBody? turn result = some next) :
    ∃ other, part.endBody? (turn.rename (place keep)) result = some other ∧
      Remains keep muted next other := by
  cases turn with
  | queued ticket =>
    obtain ⟨queue, finished, rfl⟩ := Option.map_eq_some_iff.mp ended
    obtain ⟨other, alsoFinished, queueRemains⟩ :=
      remains.queue.step_kept patient (ProjectQueue.step_of_step? finished) kept
    refine ⟨{ part with queue := other }, ?_, { remains with queue := queueRemains }⟩
    exact Option.map_eq_some_iff.mpr ⟨other, alsoFinished, rfl⟩
  | polled task =>
    obtain ⟨gate, finished, rfl⟩ := Option.map_eq_some_iff.mp ended
    refine ⟨{ part with gate := gate }, ?_, { remains with gate := rfl }⟩
    exact Option.map_eq_some_iff.mpr ⟨gate, by rw [remains.gate]; exact finished, rfl⟩

/-- A process goes on in both. -/
theorem setProcess (remains : Remains keep muted whole part) (index : Nat)
    (running : RunningChecker) :
    Remains keep muted (whole.setProcess index running) (part.setProcess index running) where
  __ := remains
  processes := by
    show part.processes.modify index _ = (whole.processes.modify index _).map _
    rw [remains.processes]
    -- The same place is changed in both lists, and renaming leaves processes as they are.
    refine List.ext_getElem? fun place => ?_
    simp only [List.getElem?_modify, List.getElem?_map, Option.map_eq_map, Option.map_map]
    congr 1
    funext entry
    simp only [Function.comp_apply]
    split <;> rfl
  working entry member := by
    rcases mem_modify member with old | ⟨before, located, _⟩
    · exact remains.working entry old
    · exact remains.working (entry.1, before) (List.mem_of_getElem? located)

/-- A process makes the same move in what remains. -/
theorem move (remains : Remains keep muted whole part) {index : Nat} {move : Conversation.Move}
    (moved : whole.move? index move = some next) :
    ∃ other, part.move? index move = some other ∧ Remains keep muted next other := by
  obtain ⟨⟨turn, running⟩, found, moved⟩ := Option.bind_eq_some_iff.mp moved
  obtain ⟨conversation, moves, same⟩ := Option.bind_eq_some_iff.mp moved
  cases same
  refine ⟨_, ?_, remains.setProcess index _⟩
  simp [Session.move?, remains.process?, found, remains.opened, moves]

/-- A process is interrupted in what remains as well. -/
theorem interrupt (remains : Remains keep muted whole part) {index : Nat}
    (interrupted : whole.interrupt? index = some next) :
    ∃ other, part.interrupt? index = some other ∧ Remains keep muted next other := by
  obtain ⟨⟨turn, running⟩, found, interrupted⟩ := Option.bind_eq_some_iff.mp interrupted
  obtain ⟨request, leader, interrupted⟩ := Option.bind_eq_some_iff.mp interrupted
  have kept : turn.isKept keep := remains.working _ (List.mem_of_getElem? found)
  obtain ⟨member, named, _⟩ := Session.mem_of_leader? leader
  have canceled := remains.isCanceled member (named ▸ kept)
  -- The process is told of the cancellation in what remains exactly when it is in the whole.
  split at interrupted
  · rename_i due
    cases interrupted
    refine ⟨_, ?_, remains.setProcess index _⟩
    simpa [Session.interrupt?, remains.process?, found, remains.leader? kept, leader, canceled,
      and_assoc] using due
  · cases interrupted

/-- A process is killed in what remains as well. -/
theorem kill (remains : Remains keep muted whole part) (patient : whole.queue.Patient)
    {index : Nat} (killed : whole.kill? index = some next) :
    ∃ other, part.kill? index = some other ∧ Remains keep muted next other := by
  obtain ⟨⟨turn, running⟩, found, killed⟩ := Option.bind_eq_some_iff.mp killed
  have kept : turn.isKept keep := remains.working _ (List.mem_of_getElem? found)
  dsimp only at killed
  split at killed
  · rename_i heedless
    obtain ⟨other, ended, others⟩ :=
      (remains.setProcess index running.kill).endBody patient kept killed
    refine ⟨other, ?_, others⟩
    simpa [Session.kill?, remains.process?, found, ended] using heedless
  · cases killed

/-- The body of the turn of a process ends in what remains as well. -/
theorem finish (remains : Remains keep muted whole part) (patient : whole.queue.Patient)
    {index : Nat} (finished : whole.finish? index = some next) :
    ∃ other, part.finish? index = some other ∧ Remains keep muted next other := by
  obtain ⟨⟨turn, running⟩, found, finished⟩ := Option.bind_eq_some_iff.mp finished
  obtain ⟨result, outcome, ended⟩ := Option.bind_eq_some_iff.mp finished
  have kept : turn.isKept keep := remains.working _ (List.mem_of_getElem? found)
  obtain ⟨other, alsoEnded, others⟩ := remains.endBody patient kept ended
  refine ⟨other, ?_, others⟩
  simp [Session.finish?, remains.process?, found, outcome, alsoEnded]

/-- The same comes of deciding about a turn that is kept. -/
theorem decide_kept (remains : Remains keep muted whole part) (patient : whole.queue.Patient)
    {turn : Turn} (kept : turn.isKept keep)
    (decided : whole.decide? client behaviour turn = some next) :
    ∃ other, part.decide? client behaviour (turn.rename (place keep)) = some other ∧
      Remains keep muted next other := by
  obtain ⟨request, undecided⟩ := undecided_of_decide? decided
  obtain ⟨member, named, _⟩ := Session.mem_of_leader? undecided.leader
  have mine : request.turn.isKept keep := named ▸ kept
  -- Both decide alike, so they end the body alike or start the same process.
  rw [undecided.decide?] at decided
  rw [(remains.undecided kept undecided).decide?, remains.decisionOn member mine]
  have located := remains.withLocator (whole.decisionOn client request).2
  cases decision : (whole.decisionOn client request).1 with
  | done result =>
    simp only [decision] at decided ⊢
    exact located.endBody patient kept decided
  | run invocation =>
    simp only [decision, remains.launched] at decided ⊢
    cases started : whole.launched client behaviour invocation with
    | error error =>
      simp only [started] at decided ⊢
      exact located.endBody patient kept decided
    | ok running =>
      simp only [started, Option.some.injEq] at decided ⊢
      subst decided
      refine ⟨_, rfl, { located with processes := ?_, working := ?_ }⟩
      · simp [remains.processes]
      · intro entry member
        rcases List.mem_append.mp member with old | new
        · exact remains.working entry old
        · obtain rfl := List.mem_singleton.mp new
          exact kept

/-- A refusal in a turn that is not kept changes nothing of what remains. -/
theorem decide_left (remains : Remains keep muted whole part) (orderly : whole.queue.Orderly)
    (patient : whole.queue.Patient) {ticket : Nat} (left : keep ticket = false)
    (refuses : ∀ request, whole.leader? (.queued ticket) = some request →
      whole.Refuses client request)
    (decided : whole.decide? client behaviour (.queued ticket) = some next) :
    Remains keep muted next part := by
  obtain ⟨request, undecided⟩ := undecided_of_decide? decided
  -- A refusal ends the body of its turn and does nothing else.
  rw [(refuses request undecided.leader).decide? undecided] at decided
  obtain ⟨queue, finished, rfl⟩ := Option.map_eq_some_iff.mp decided
  exact { remains with
    queue := remains.queue.step_left orderly patient (ProjectQueue.step_of_step? finished) left }

end Remains

end Session

end FlowService
