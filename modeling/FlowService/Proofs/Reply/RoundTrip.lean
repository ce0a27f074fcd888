import FlowService.Checker.Output
import FlowService.Checker.Reply.Fields
import FlowService.Proofs.Json.Records

/-! Every reply of the checker that is written with all its fields is decoded as it was. -/

namespace FlowService.Reply

open Json (Faithful)

-- Each shape lists the values of its fields in the order of their names; those of inner records
-- read back by the lemmas on the shapes above.

theorem Parameter.faithful : Faithful Parameter.fields Parameter.ofJson? Parameter.toJson :=
  .of_fields (fun parameter => [.string parameter.name, .string parameter.type])
    (fun _ => rfl) (fun _ => rfl) (fun _ => rfl)
    (by simp [fields, Json.text?])

theorem Function.faithful : Faithful Function.fields Function.ofJson? Function.toJson :=
  .of_fields (fun function => [.string function.returnType,
      Json.ofList Parameter.toJson function.parameters])
    (fun _ => rfl) (fun _ => rfl) (fun _ => rfl)
    (by simp [fields, Json.text?, Parameter.faithful.list])

theorem Candidate.faithful : Faithful Candidate.fields Candidate.ofJson? Candidate.toJson :=
  .of_fields (fun candidate => [.string candidate.name, .string candidate.type,
      Json.ofOption Function.toJson candidate.function, .string candidate.path])
    (fun _ => rfl) (fun _ => rfl) (fun _ => rfl)
    (fun candidate => by
      -- The details of a function may be null, which no function is written as.
      rw [Function.faithful.nullable candidate.function (by simp [fields])]
      simp [fields, Json.text?])

theorem Completions.faithful :
    Faithful Completions.fields Completions.ofJson? Completions.toJson :=
  .of_fields (fun reply => [Json.ofList Candidate.toJson reply.candidates])
    (fun _ => rfl) (fun _ => rfl) (fun _ => rfl)
    (by simp [fields, Candidate.faithful.list])

theorem TypeAt.faithful : Faithful TypeAt.fields TypeAt.ofJson? TypeAt.toJson :=
  .of_fields (fun reply => [.string reply.type])
    (fun _ => rfl) (fun _ => rfl) (fun _ => rfl)
    (by simp [fields, Json.text?])

theorem Definition.faithful : Faithful Definition.fields Definition.ofJson? Definition.toJson :=
  .of_fields (fun reply => [.string reply.path, Json.ofCount reply.line,
      Json.ofCount reply.endLine, Json.ofCount reply.start, Json.ofCount reply.stop])
    (fun _ => rfl) (fun _ => rfl) (fun _ => rfl)
    (by simp [fields, Json.text?])

theorem Point.faithful : Faithful Point.fields Point.ofJson? Point.toJson :=
  .of_fields (fun point => [Json.ofCount point.line, Json.ofCount point.column])
    (fun _ => rfl) (fun _ => rfl) (fun _ => rfl)
    (by simp [fields])

theorem Stretch.faithful : Faithful Stretch.fields Stretch.ofJson? Stretch.toJson :=
  .of_fields (fun stretch => [stretch.start.toJson, stretch.stop.toJson])
    (fun _ => rfl) (fun _ => rfl) (fun _ => rfl)
    (by simp [fields, Point.faithful.named])

theorem Expressions.faithful :
    Faithful Expressions.fields Expressions.ofJson? Expressions.toJson :=
  .of_fields (fun expressions => [Json.ofCount expressions.covered,
      Json.ofCount expressions.uncovered,
      Json.ofList Stretch.toJson expressions.uncoveredStretches])
    (fun _ => rfl) (fun _ => rfl) (fun _ => rfl)
    (by simp [fields, Stretch.faithful.list])

theorem Coverage.faithful : Faithful Coverage.fields Coverage.ofJson? Coverage.toJson :=
  .of_fields (fun reply => [reply.expressions.toJson])
    (fun _ => rfl) (fun _ => rfl) (fun _ => rfl)
    (by simp [fields, Expressions.faithful.named])

theorem MessagePart.faithful :
    Faithful MessagePart.fields MessagePart.ofJson? MessagePart.toJson :=
  .of_fields (fun part => [.string part.description, .string part.kind, .string part.path,
      Json.ofCount part.line, Json.ofCount part.endLine, Json.ofCount part.start,
      Json.ofCount part.stop])
    (fun _ => rfl) (fun _ => rfl) (fun _ => rfl)
    (by simp [fields, Json.text?])

theorem Error.faithful : Faithful Error.fields Error.ofJson? Error.toJson :=
  .of_fields (fun error => [.string error.level,
      Json.ofList MessagePart.toJson error.message,
      Json.ofOption MessagePart.toJson error.operation])
    (fun _ => rfl) (fun _ => rfl) (fun _ => rfl)
    (fun error => by
      -- The operation may be null, which no piece of a message is written as.
      rw [MessagePart.faithful.nullable error.operation (by simp [fields])]
      simp [fields, Json.text?, MessagePart.faithful.list])

theorem Status.faithful : Faithful Status.fields Status.ofJson? Status.toJson :=
  .of_fields (fun reply => [.bool reply.passed, Json.ofList Error.toJson reply.errors])
    (fun _ => rfl) (fun _ => rfl) (fun _ => rfl)
    (by simp [fields, Json.bool?, Error.faithful.list])

/-- Replies of a shape are written with all their fields in order, and both what is written and the
array of the fields alone are decoded as the reply, which the reader has no words about. -/
def Survives {α : Type} (fields : List String) (read : Json → Option α) (write : α → Json) : Prop :=
  ∀ reply, ∃ items, items.length = fields.length ∧ write reply = .object (fields.zip items) ∧
    ∀ wording : Wording,
      CheckerResult.decode read (.ok (.json (write reply))) wording = .ok (some reply) ∧
      CheckerResult.decode read (.ok (.json (.array items))) wording = .ok (some reply)

/-- Decoding a value that was printed is reading it. -/
theorem survives_of_faithful {α : Type} {fields : List String} {read : Json → Option α}
    {write : α → Json} (faithful : Faithful fields read write) : Survives fields read write := by
  intro reply
  obtain ⟨items, full, written⟩ := faithful.complete reply
  refine ⟨items, full, written, fun wording => ⟨?_, ?_⟩⟩
  · simp [CheckerResult.decode, faithful.named]
  · simp [CheckerResult.decode, faithful.placed reply items full written]

/-- Every reply to each of the five questions is decoded as it was written. -/
theorem replies_survive_writing :
    Survives Completions.fields Completions.ofJson? Completions.toJson ∧
    Survives TypeAt.fields TypeAt.ofJson? TypeAt.toJson ∧
    Survives Definition.fields Definition.ofJson? Definition.toJson ∧
    Survives Coverage.fields Coverage.ofJson? Coverage.toJson ∧
    Survives Status.fields Status.ofJson? Status.toJson :=
  ⟨survives_of_faithful Completions.faithful, survives_of_faithful TypeAt.faithful,
    survives_of_faithful Definition.faithful, survives_of_faithful Coverage.faithful,
    survives_of_faithful Status.faithful⟩

end FlowService.Reply
