import FlowService.Cli.Run
import FlowService.Proofs.Json.Printing
import Mathlib.Data.List.Basic

/-!
A command has a value to print whatever the checker says, and everybody who reads what is printed
gets that value back.
-/

namespace FlowService

namespace Plan

variable {α β : Type}

/-- Every result of a plan has a property, whatever comes of its question. -/
def Always (holds : α → Prop) : Plan α → Prop
  | .answer result => holds result
  | .ask _ read => ∀ result, holds (read result)

/-- What all values have in common, the results of a plan have in common. -/
theorem Always.of_forall {holds : α → Prop} (each : ∀ result, holds result) (plan : Plan α) :
    plan.Always holds := by
  cases plan with
  | answer result => exact each result
  | ask question read => exact fun result => each (read result)

/-- A property of all results gives every property that follows from it. -/
theorem Always.mono {holds also : α → Prop} {plan : Plan α} (always : plan.Always holds)
    (follows : ∀ result, holds result → also result) : plan.Always also := by
  cases plan with
  | answer result => exact follows result always
  | ask question read => exact fun result => follows _ (always result)

/-- The results of a plan that is changed are those of the plan, each changed. -/
theorem Always.map {holds : β → Prop} {change : α → β} {plan : Plan α}
    (always : plan.Always fun result => holds (change result)) :
    (plan.map change).Always holds := by
  cases plan <;> exact always

end Plan

namespace Json.Printable

/-- A number that fits in 32 bits is printable. -/
theorem ofIndex (depth : Nat) {index : Nat} (small : index < UInt32.size) :
    Printable depth (.integer index) := by
  have bound : index < 0x100000000 := small
  exact .integer depth (by omega) (by omega)

theorem ofCount (depth : Nat) (count : UInt32) : Printable depth (Json.ofCount count) :=
  ofIndex depth count.toNat_lt

theorem ofOption {α : Type} {depth : Nat} {write : α → Json} {value : Option α}
    (each : ∀ item ∈ value, Printable depth (write item)) :
    Printable depth (Json.ofOption write value) := by
  cases value with
  | none => exact .null depth
  | some item => exact each item rfl

theorem ofList {α : Type} {depth : Nat} {write : α → Json} {items : List α}
    (each : ∀ item ∈ items, Printable depth (write item)) :
    Printable (depth + 1) (Json.ofList write items) := by
  refine .array fun value listed => ?_
  obtain ⟨item, member, rfl⟩ := List.mem_map.mp listed
  exact each item member

end Json.Printable

section Printable

open Json (Printable)

variable (depth : Nat)

-- A record nests one deeper than the deepest of its fields, and so does a list.

theorem Position.printable (position : Position) : Printable (depth + 1) position.toJson :=
  .record (by simp) ⟨.ofCount depth _, .ofCount depth _⟩

theorem Range.printable (range : Range) : Printable (depth + 2) range.toJson :=
  .record (by simp) ⟨range.start.printable depth, range.stop.printable depth⟩

theorem CompletionItem.printable (item : CompletionItem) : Printable (depth + 1) item.toJson :=
  .record (by simp) ⟨.string depth _, .string depth _, .string depth _, .string depth _⟩

theorem Hover.printable (hover : Hover) : Printable (depth + 1) hover.toJson :=
  .record (by simp) ⟨.string depth _, .string depth _, .string depth _⟩

theorem SourceLocation.printable (location : SourceLocation) :
    Printable (depth + 3) location.toJson :=
  .record (by simp) ⟨.string _ _, location.range.printable depth⟩

theorem CoverageReport.printable (report : CoverageReport) :
    Printable (depth + 4) report.toJson :=
  .record (by simp) ⟨.ofCount _ _, .ofCount _ _, .ofCount _ _,
    .ofList fun range _ => range.printable depth⟩

theorem Diagnostic.printable (diagnostic : Diagnostic) :
    Printable (depth + 3) diagnostic.toJson :=
  .record (by simp) ⟨diagnostic.range.printable depth, .string _ _, .string _ _, .string _ _⟩

theorem DiagnosticsReport.printable (report : DiagnosticsReport) :
    Printable (depth + 6) report.filesToJson := by
  refine .ofList fun entry _ => .array ?_
  have listed : Printable (depth + 4) (Json.ofList Diagnostic.toJson entry.2) :=
    .ofList fun diagnostic _ => diagnostic.printable depth
  simpa using ⟨.string _ _, listed⟩

theorem DiagnosticsUpdate.printable (update : DiagnosticsUpdate) :
    Printable (depth + 7) update.toJson := by
  cases update with
  | report groups => exact .record (by simp) ⟨.string _ _, groups.printable depth⟩
  | checkFailed message => exact .record (by simp) ⟨.string _ _, .string _ _⟩

/-- Help is printable when the numbers of what is active in it fit in 32 bits. -/
theorem SignatureHelp.printable {help : SignatureHelp}
    (signature : help.activeSignature < UInt32.size)
    (parameter : ∀ index ∈ help.activeParameter, index < UInt32.size) :
    Printable (depth + 5) help.toJson := by
  refine .record (by simp) ⟨.ofList fun information _ => ?_, .ofIndex _ signature,
    .ofOption fun index active => .ofIndex _ (parameter index active)⟩
  exact .record (by simp) ⟨.string _ _,
    .ofList fun label _ => .record (by simp) (Printable.string depth label)⟩

end Printable

/-- There are no more commas behind a parenthesis than characters. -/
theorem OpenCall.scanBack_commas_le {text : List Char} {depth commas index total : Nat}
    (found : scanBack text depth commas = some (index, total)) : total ≤ commas + text.length := by
  -- Each character that the scan goes past adds one comma at most.
  induction text, depth, commas using scanBack.induct with
  | case1 => cases found
  | case2 before commas =>
    cases found
    exact Nat.le_add_right ..
  | case3 before depth commas ih | case4 before depth commas ih =>
    exact Nat.le_trans (ih found) (by simp)
  | case5 before commas ih =>
    have fewer := ih found
    simp only [List.length_cons]
    omega
  | case6 head before depth commas _ _ _ _ ih =>
    rw [scanBack] at found <;> try assumption
    exact Nat.le_trans (ih found) (by simp)

namespace Document

/-- The commas of an open call stand in front of the cursor. -/
theorem enclosingCall?_commas_le {document : Document} {position : Position} {call : OpenCall}
    (found : document.enclosingCall? position = some call) :
    call.commas ≤ position.character.toNat := by
  -- The scan sees nothing of the line but what is in front of the cursor.
  obtain ⟨line, -, found⟩ := Option.bind_eq_some_iff.mp found
  obtain ⟨⟨index, commas⟩, scanned, made⟩ := Option.bind_eq_some_iff.mp found
  obtain rfl := Option.some.inj made
  calc
    commas ≤ 0 + (line.take position.character.toNat).reverse.length :=
      OpenCall.scanBack_commas_le scanned
    _ ≤ position.character.toNat := by
      rw [Nat.zero_add, List.length_reverse]
      exact List.length_take_le ..

/-- The call that the checker is asked about is the one that is open at the cursor. -/
theorem enclosingCall?_of_callSite? {document : Document} {position : Position} {site : CallSite}
    (found : document.callSite? position = some site) :
    document.enclosingCall? position = some site.call := by
  obtain ⟨call, enclosing, found⟩ := Option.bind_eq_some_iff.mp found
  obtain ⟨_, -, found⟩ := Option.bind_eq_some_iff.mp found
  obtain ⟨_, -, found⟩ := Option.bind_eq_some_iff.mp found
  obtain ⟨_, -, made⟩ := Option.bind_eq_some_iff.mp found
  obtain rfl := Option.some.inj made
  exact enclosing

/-- The numbers of what is active in the help for a call fit in 32 bits. -/
theorem signature_always (document : Document) (position : Position) :
    (document.signature position).Always fun result => ∀ help ∈ result,
      help.activeSignature < UInt32.size ∧
        ∀ index ∈ help.activeParameter, index < UInt32.size := by
  unfold signature
  split
  · simp [Plan.Always]
  · rename_i site found
    intro result help shown
    obtain ⟨reply, -, shown⟩ := Option.bind_eq_some_iff.mp shown
    obtain ⟨candidate, -, rfl⟩ := Option.map_eq_some_iff.mp shown
    refine ⟨by simp [SignatureHelp.ofCandidate], fun index active => ?_⟩
    -- A parameter is active only as far as there are commas.
    have fewer : site.call.commas ≤ position.character.toNat := by
      split at found
      · exact enclosingCall?_commas_le (enclosingCall?_of_callSite? found)
      · cases found
    simp only [SignatureHelp.ofCandidate, SignatureHelp.activeOf, Option.mem_def,
      Option.ite_none_left_eq_some, Option.some.injEq] at active
    obtain ⟨-, rfl⟩ := active
    calc
      min site.call.commas _ ≤ site.call.commas := Nat.min_le_left ..
      _ ≤ position.character.toNat := fewer
      _ < UInt32.size := position.character.toNat_lt

end Document

namespace Cli

variable {platform : Option String}

/-- What a query about a buffer may print: nothing, or what the feature shows. -/
def BufferQuery.IsAnswer (value : Json) : BufferQuery → Prop
  | .complete _ => ∃ items, value = Json.ofOption (Json.ofList CompletionItem.toJson) items
  | .hover _ => ∃ hover, value = Json.ofOption Hover.toJson hover
  | .definition _ => ∃ location, value = Json.ofOption SourceLocation.toJson location
  | .coverage => ∃ report, value = Json.ofOption CoverageReport.toJson report
  | .signature _ => ∃ help, value = Json.ofOption SignatureHelp.toJson help

/-- What a command may print: nothing, what its feature shows, or that the check has failed. -/
def Command.IsAnswer (value : Json) : Command → Prop
  | .status _ => ∃ update, value = Json.ofOption DiagnosticsUpdate.toJson update
  | .buffer _ query => query.IsAnswer value

/-- What was taken in two steps was taken in each of them. -/
theorem bind_eq_ok {α β : Type} {first : Except Failure α} {next : α → Except Failure β}
    {result : β} : first >>= next = .ok result ↔
      ∃ value, first = .ok value ∧ next value = .ok result := by
  cases first <;> simp [Bind.bind, Except.bind]

/-- What is planned for a place is planned for some position. -/
theorem Place.exists_position {place : Place} {make : Position → Plan Json} {plan : Plan Json}
    (planned : (do
      let position ← place.position
      return make position) = Except.ok plan) :
    ∃ position, make position = plan := by
  obtain ⟨position, -, made⟩ := bind_eq_ok.mp planned
  exact ⟨position, Except.ok.inj made⟩

/-- Whatever comes of the question, a query about a buffer has an answer that can be printed. -/
theorem BufferQuery.plan_always {settings : FeatureSettings} {document : Document}
    {query : BufferQuery} {plan : Plan Json} (planned : query.plan settings document = .ok plan) :
    plan.Always fun value =>
      query.IsAnswer value ∧ Json.Printable Json.Written.depthLimit value := by
  cases query with
  | complete place =>
    obtain ⟨position, rfl⟩ := Place.exists_position planned
    exact .map <| .of_forall (fun items => ⟨⟨items, rfl⟩, .ofOption fun items _ =>
      .ofList fun item _ => item.printable _⟩) _
  | hover place =>
    obtain ⟨position, rfl⟩ := Place.exists_position planned
    exact .map <| .of_forall (fun hover =>
      ⟨⟨hover, rfl⟩, .ofOption fun hover _ => hover.printable _⟩) _
  | definition place =>
    obtain ⟨position, rfl⟩ := Place.exists_position planned
    exact .map <| .of_forall (fun location =>
      ⟨⟨location, rfl⟩, .ofOption fun location _ => location.printable _⟩) _
  | coverage =>
    obtain rfl := Except.ok.inj planned
    exact .map <| .of_forall (fun report =>
      ⟨⟨report, rfl⟩, .ofOption fun report _ => report.printable _⟩) _
  | signature place =>
    obtain ⟨position, rfl⟩ := Place.exists_position planned
    -- Here the numbers that are printed have to be bounded first.
    exact .map <| (document.signature_always position).mono fun help bounded =>
      ⟨⟨help, rfl⟩, .ofOption fun help shown =>
        SignatureHelp.printable _ (bounded help shown).1 (bounded help shown).2⟩

/-- Whatever the checker says, a command that is planned has an answer that can be printed. -/
theorem Command.plan_always {surroundings : Surroundings platform} {settings : FeatureSettings}
    {command : Command} {plan : Plan Json}
    (planned : command.plan surroundings settings = .ok plan) :
    plan.Always fun value =>
      command.IsAnswer value ∧ Json.Printable Json.Written.depthLimit value := by
  cases command with
  | status target =>
    simp only [Command.plan] at planned
    split at planned
    · cases planned
    · obtain ⟨path, -, made⟩ := bind_eq_ok.mp planned
      obtain rfl := Except.ok.inj made
      exact .map <| .of_forall (fun update =>
        ⟨⟨update, rfl⟩, .ofOption fun update _ => update.printable _⟩) _
  | buffer target query =>
    obtain ⟨path, -, planned⟩ := bind_eq_ok.mp planned
    obtain ⟨text, -, planned⟩ := bind_eq_ok.mp planned
    exact query.plan_always planned

end Cli

end FlowService
