import FlowService.Proofs.Json.Leniency
import FlowService.Proofs.Reply.RoundTrip
import Mathlib.Logic.Relation

/-!
The checker may say more than is used, leave out what has a default, and order the fields as it
likes. A null is taken for nothing where a field may be missing, and for a mistake everywhere else.
-/

namespace FlowService.Reply

open Json (Shape Lenient Faithful Edit HasNull)

-- The shape of each record tells of every field what leaving it out means and where the records in
-- it are.

def Parameter.shape : Shape :=
  .record [("name", .required, .plain), ("type", .defaulted (.string ""), .plain)]

def Function.shape : Shape :=
  .record [("return_type", .defaulted (.string ""), .plain),
    ("params", .defaulted (.array []), .list Parameter.shape)]

def Candidate.shape : Shape :=
  .record [("name", .required, .plain), ("type", .defaulted (.string ""), .plain),
    ("func_details", .nullable, Function.shape), ("path", .defaulted (.string ""), .plain)]

def Completions.shape : Shape :=
  .record [("result", .defaulted (.array []), .list Candidate.shape)]

def TypeAt.shape : Shape := .record [("type", .defaulted (.string ""), .plain)]

def Definition.shape : Shape :=
  .record [("path", .defaulted (.string ""), .plain), ("line", .defaulted (.integer 0), .plain),
    ("endline", .defaulted (.integer 0), .plain), ("start", .defaulted (.integer 0), .plain),
    ("end", .defaulted (.integer 0), .plain)]

def Point.shape : Shape := .record [("line", .required, .plain), ("column", .required, .plain)]

def Stretch.shape : Shape :=
  .record [("start", .required, Point.shape), ("end", .required, Point.shape)]

def Expressions.shape : Shape :=
  .record [("covered_count", .required, .plain), ("uncovered_count", .required, .plain),
    ("uncovered_locs", .defaulted (.array []), .list Stretch.shape)]

def Coverage.shape : Shape := .record [("expressions", .required, Expressions.shape)]

def MessagePart.shape : Shape :=
  .record [("descr", .defaulted (.string ""), .plain), ("type", .defaulted (.string ""), .plain),
    ("path", .defaulted (.string ""), .plain), ("line", .defaulted (.integer 0), .plain),
    ("endline", .defaulted (.integer 0), .plain), ("start", .defaulted (.integer 0), .plain),
    ("end", .defaulted (.integer 0), .plain)]

def Error.shape : Shape :=
  .record [("level", .defaulted (.string ""), .plain),
    ("message", .defaulted (.array []), .list MessagePart.shape),
    ("operation", .nullable, MessagePart.shape)]

def Status.shape : Shape :=
  .record [("passed", .defaulted (.bool false), .plain),
    ("errors", .defaulted (.array []), .list Error.shape)]

-- Each record is read field by field, in the order of its shape.

theorem lenient_text : Lenient .plain Json.text? := .plain rfl

theorem lenient_count : Lenient .plain Json.count? := .plain rfl

theorem lenient_bool : Lenient .plain Json.bool? := .plain rfl

theorem Parameter.lenient : Lenient Parameter.shape Parameter.ofJson? :=
  .record
    (lenient_text.required.andThen fun _ => (lenient_text.defaulted rfl).andThen fun _ => .done _)
    (by decide) fun _ => rfl

theorem Function.lenient : Lenient Function.shape Function.ofJson? :=
  .record
    ((lenient_text.defaulted rfl).andThen fun _ =>
      (Parameter.lenient.list.defaulted rfl).andThen fun _ => .done _)
    (by decide) fun _ => rfl

theorem Candidate.lenient : Lenient Candidate.shape Candidate.ofJson? :=
  .record
    (lenient_text.required.andThen fun _ => (lenient_text.defaulted rfl).andThen fun _ =>
      Function.lenient.nullable.andThen fun _ => (lenient_text.defaulted rfl).andThen fun _ =>
      .done _)
    (by decide) fun _ => rfl

theorem Completions.lenient : Lenient Completions.shape Completions.ofJson? :=
  .record ((Candidate.lenient.list.defaulted rfl).andThen fun _ => .done _) (by decide) fun _ => rfl

theorem TypeAt.lenient : Lenient TypeAt.shape TypeAt.ofJson? :=
  .record ((lenient_text.defaulted rfl).andThen fun _ => .done _) (by decide) fun _ => rfl

theorem Definition.lenient : Lenient Definition.shape Definition.ofJson? :=
  .record
    ((lenient_text.defaulted rfl).andThen fun _ => (lenient_count.defaulted rfl).andThen fun _ =>
      (lenient_count.defaulted rfl).andThen fun _ => (lenient_count.defaulted rfl).andThen fun _ =>
      (lenient_count.defaulted rfl).andThen fun _ => .done _)
    (by decide) fun _ => rfl

theorem Point.lenient : Lenient Point.shape Point.ofJson? :=
  .record
    (lenient_count.required.andThen fun _ => lenient_count.required.andThen fun _ => .done _)
    (by decide) fun _ => rfl

theorem Stretch.lenient : Lenient Stretch.shape Stretch.ofJson? :=
  .record
    (Point.lenient.required.andThen fun _ => Point.lenient.required.andThen fun _ => .done _)
    (by decide) fun _ => rfl

theorem Expressions.lenient : Lenient Expressions.shape Expressions.ofJson? :=
  .record
    (lenient_count.required.andThen fun _ => lenient_count.required.andThen fun _ =>
      (Stretch.lenient.list.defaulted rfl).andThen fun _ => .done _)
    (by decide) fun _ => rfl

theorem Coverage.lenient : Lenient Coverage.shape Coverage.ofJson? :=
  .record (Expressions.lenient.required.andThen fun _ => .done _) (by decide) fun _ => rfl

theorem MessagePart.lenient : Lenient MessagePart.shape MessagePart.ofJson? :=
  .record
    ((lenient_text.defaulted rfl).andThen fun _ => (lenient_text.defaulted rfl).andThen fun _ =>
      (lenient_text.defaulted rfl).andThen fun _ => (lenient_count.defaulted rfl).andThen fun _ =>
      (lenient_count.defaulted rfl).andThen fun _ => (lenient_count.defaulted rfl).andThen fun _ =>
      (lenient_count.defaulted rfl).andThen fun _ => .done _)
    (by decide) fun _ => rfl

theorem Error.lenient : Lenient Error.shape Error.ofJson? :=
  .record
    ((lenient_text.defaulted rfl).andThen fun _ =>
      (MessagePart.lenient.list.defaulted rfl).andThen fun _ =>
      MessagePart.lenient.nullable.andThen fun _ => .done _)
    (by decide) fun _ => rfl

theorem Status.lenient : Lenient Status.shape Status.ofJson? :=
  .record
    ((lenient_bool.defaulted rfl).andThen fun _ =>
      (Error.lenient.list.defaulted rfl).andThen fun _ => .done _)
    (by decide) fun _ => rfl

/-- Two values are decoded to the same reply, or both are refused in the words of the reader. -/
inductive DecodedAlike {α : Type} (read : Json → Option α) (wording : Wording)
    (value other : Json) : Prop
  | replies (reply : α)
    (first : CheckerResult.decode read (.ok (.json value)) wording = .ok (some reply))
    (second : CheckerResult.decode read (.ok (.json other)) wording = .ok (some reply))
  | refused
    (first : CheckerResult.decode read (.ok (.json value)) wording =
      .error (.malformedOutput (wording.value value)))
    (second : CheckerResult.decode read (.ok (.json other)) wording =
      .error (.malformedOutput (wording.value other)))

/-- Decoding is reading: values that are read alike are decoded alike. -/
theorem decodedAlike_of_read {α : Type} {read : Json → Option α} {value other : Json}
    (same : read value = read other) (wording : Wording) :
    DecodedAlike read wording value other := by
  cases known : read other with
  | none =>
    rw [known] at same
    exact .refused (by simp only [CheckerResult.decode, same])
      (by simp only [CheckerResult.decode, known])
  | some reply =>
    rw [known] at same
    exact .replies reply (by simp only [CheckerResult.decode, same])
      (by simp only [CheckerResult.decode, known])

/-- Whatever the words of the reader are, values of a shape are decoded alike however often they are
edited, and refused where there is a null that cannot be. What comes of a reply that was written is
decoded to that reply. -/
def Tolerated {α : Type} (shape : Shape) (read : Json → Option α) (write : α → Json) : Prop :=
  ∀ wording : Wording,
    (∀ value other, Relation.EqvGen (Edit shape) value other →
      DecodedAlike read wording value other) ∧
    (∀ value, HasNull shape value → CheckerResult.decode read (.ok (.json value)) wording =
      .error (.malformedOutput (wording.value value))) ∧
    ∀ reply value, Relation.EqvGen (Edit shape) (write reply) value →
      CheckerResult.decode read (.ok (.json value)) wording = .ok (some reply)

/-- What is read leniently is tolerated. -/
theorem tolerated_of_lenient {α : Type} {shape : Shape} {fields : List String}
    {read : Json → Option α} {write : α → Json} (lenient : Lenient shape read)
    (faithful : Faithful fields read write) : Tolerated shape read write := by
  have same : ∀ value other, Relation.EqvGen (Edit shape) value other →
      read value = read other := by
    intro value other edits
    -- The edits are made one after the other, some of them backwards.
    induction edits with
    | rel value other edit => exact lenient.edited _ _ edit
    | refl => rfl
    | symm _ _ _ ih => exact ih.symm
    | trans _ _ _ _ _ first second => exact first.trans second
  intro wording
  refine ⟨fun value other edits => decodedAlike_of_read (same _ _ edits) wording,
    fun value hasNull => ?_, fun reply value edits => ?_⟩
  · simp only [CheckerResult.decode, lenient.refused _ hasNull]
  · have written : read value = some reply := (same _ _ edits).symm.trans (faithful.named reply)
    simp only [CheckerResult.decode, written]

/-- The replies to each of the five questions are tolerated in every spelling, and in what is read
from a text all members can be put in another order. -/
theorem replies_are_tolerated :
    Tolerated Completions.shape Completions.ofJson? Completions.toJson ∧
    Tolerated TypeAt.shape TypeAt.ofJson? TypeAt.toJson ∧
    Tolerated Definition.shape Definition.ofJson? Definition.toJson ∧
    Tolerated Coverage.shape Coverage.ofJson? Coverage.toJson ∧
    Tolerated Status.shape Status.ofJson? Status.toJson ∧
    ∀ text value, Json.parse? text = some value → value.Distinct :=
  ⟨tolerated_of_lenient Completions.lenient Completions.faithful,
    tolerated_of_lenient TypeAt.lenient TypeAt.faithful,
    tolerated_of_lenient Definition.lenient Definition.faithful,
    tolerated_of_lenient Coverage.lenient Coverage.faithful,
    tolerated_of_lenient Status.lenient Status.faithful, fun _ _ => Json.distinct_of_parse⟩

/-- A reply with one proposal. -/
def proposing (candidate : Json) : Json := .object [("result", .array [candidate])]

/-- A proposal with one parameter, some fields of which are left out or given by their places. -/
theorem replies_are_tolerated_respelled :
    let terse := proposing (.object [("name", .string "f"), ("func_details",
      .object [("params", .array [.array [.string "x"]]), ("return_type", .string "")])])
    let full := proposing (.object [("func_details", .array [.string "", .array [.array
      [.string "x", .string ""]]]), ("pos", .integer 3), ("name", .string "f"),
      ("path", .string "")])
    let faulty := proposing (.object [("name", .string "f"), ("path", .null)])
    ∀ wording : Wording, DecodedAlike Completions.ofJson? wording terse full ∧
      CheckerResult.decode Completions.ofJson? (.ok (.json terse)) wording =
        .ok (some ⟨[⟨"f", "", some ⟨"", [⟨"x", ""⟩]⟩, ""⟩]⟩) ∧
      CheckerResult.decode Completions.ofJson? (.ok (.json faulty)) wording =
        .error (.malformedOutput (wording.value faulty)) := by
  intro terse full faulty wording
  obtain ⟨tolerated, _⟩ := replies_are_tolerated
  obtain ⟨edited, refused, _⟩ := tolerated wording
  have edit : ∀ {candidate other}, Edit Candidate.shape candidate other →
      Relation.EqvGen (Edit Completions.shape) (proposing candidate) (proposing other) :=
    fun edit => .rel _ _ (@Edit.inMember _ [] [] "result" _ _ _ _ (.head _)
      (@Edit.inItem _ [] [] _ _ edit))
  -- The parameter gets its second field, and the function becomes an array.
  have extended := edit (@Edit.inMember _ [("name", .string "f")] [] "func_details" _ _ _ _
    (.tail _ (.tail _ (.head _))) (@Edit.inMember _ [] [("return_type", .string "")] "params"
      _ _ _ _ (.tail _ (.head _)) (@Edit.inItem Parameter.shape [] [] _ _
        (@Edit.standLast _ [.string "x"] "type" _ _ _ rfl rfl))))
  have placed := edit (@Edit.inMember _ [("name", .string "f")] [] "func_details" _ _ _ _
    (.tail _ (.tail _ (.head _))) (@Edit.place _
      [("params", .array [.array [.string "x", .string ""]]), ("return_type", .string "")]
      [.string "", .array [.array [.string "x", .string ""]]] rfl))
  -- Then the path is written out, the name is put behind it, and a member is added between them.
  let function : String × Json := ("func_details", .array [.string "", .array [.array
    [.string "x", .string ""]]])
  have filled := edit (@Edit.stand _ [("name", .string "f"), function] [] "path" _ _ _
    (.tail _ (.tail _ (.tail _ (.head _)))) rfl (by decide))
  have moved := edit (@Edit.reorder _ [("name", .string "f"), function, ("path", .string "")] _
    (by decide) (.swap ..))
  have added := edit (@Edit.foreign _ [function] [("name", .string "f"), ("path", .string "")] "pos"
    (.integer 3) (by decide))
  have all := extended.trans _ _ _ (placed.trans _ _ _ (filled.trans _ _ _
    (moved.trans _ _ _ added)))
  refine ⟨edited terse full all, rfl, refused faulty ?_⟩
  refine .inMember (.head _) rfl (.inItem (.head _) ?_)
  exact .member (.tail _ (.tail _ (.tail _ (.head _)))) nofun rfl

end FlowService.Reply
