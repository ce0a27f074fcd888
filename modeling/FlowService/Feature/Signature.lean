import FlowService.Checker.Question
import FlowService.Checker.Reply.Fields
import FlowService.Text.Document

/-!
Signature help finds the call around the cursor, asks for completions right behind the callee with
the arguments cut out of the buffer, and reads the parameters off the function of that name.
-/

namespace FlowService

/-- The call that is open at the cursor. -/
structure OpenCall where
  /-- Where its parenthesis stands. -/
  parenthesis : Position
  /-- How many commas separate its arguments up to the cursor. -/
  commas : Nat
  deriving DecidableEq, Repr, Inhabited

/-- A function and its parameters as they are shown. -/
structure SignatureInformation where
  label : String
  parameters : List String
  deriving DecidableEq, Repr, Inhabited

/-- What is shown for the call around the cursor. -/
structure SignatureHelp where
  signatures : List SignatureInformation
  activeSignature : Nat
  /-- The parameter under the cursor; none when there are no parameters. -/
  activeParameter : Option Nat
  deriving DecidableEq, Repr, Inhabited

namespace OpenCall

/-- Looks through characters from the last one back for a parenthesis that is not closed, and gives
the number of characters in front of it and of the commas behind it at its own depth. -/
def scanBack : List Char → (depth commas : Nat) → Option (Nat × Nat)
  | [], _, _ => none
  | '(' :: before, 0, commas => some (before.length, commas)
  | '(' :: before, depth + 1, commas => scanBack before depth commas
  | ')' :: before, depth, commas => scanBack before (depth + 1) commas
  | ',' :: before, 0, commas => scanBack before 0 (commas + 1)
  | _ :: before, depth, commas => scanBack before depth commas

end OpenCall

namespace Document

/-- The call that is open at a position, on its line. -/
def enclosingCall? (document : Document) (position : Position) : Option OpenCall := do
  let line ← document.line? position.line
  let (index, commas) ← OpenCall.scanBack (line.take position.character.toNat).reverse 0 0
  return ⟨⟨position.line, index.toUInt32⟩, commas⟩

/-- The nearest word that ends at or before a position on its line. -/
def previousWord? (document : Document) (position : Position) : Option Range := do
  let line ← document.line? position.line
  let columns ← Text.wordBefore? line position.character.toNat
  return onLine position.line columns

/-- The text without the bytes between two offsets; none when one of them is not between two
characters. -/
def without? (document : Document) (start stop : Nat) : Option String := do
  let first ← Text.charactersIn? start document.characters
  let last ← Text.charactersIn? stop document.characters
  return String.ofList (document.characters.take first ++ document.characters.drop last)

end Document

/-- The callee of a call, and the buffer without what stands between it and the cursor. -/
structure CallSite where
  call : OpenCall
  callee : Range
  name : String
  contents : String
  deriving DecidableEq, Repr, Inhabited

/-- The call at a position as the checker is asked about it. -/
def Document.callSite? (document : Document) (position : Position) : Option CallSite := do
  let call ← document.enclosingCall? position
  let callee ← document.previousWord? call.parenthesis
  let name ← document.slice? callee
  let start := document.offsetAt callee.stop
  let contents ← document.without? start (max (document.offsetAt position) start)
  return ⟨call, callee, name, contents⟩

namespace SignatureHelp

/-- The parameter that so many commas lead to, or the last one; they are counted in 32 bits. -/
def activeOf (parameters commas : Nat) : Option Nat :=
  let count := parameters.toUInt32
  if count = 0 then none else some (min commas (count - 1).toNat)

/-- What is shown for a call with so many commas before the cursor; the last parameter stays active
behind it. -/
def ofCandidate (name : String) (candidate : Reply.Candidate) (commas : Nat) : SignatureHelp :=
  let parameters := match candidate.function with
    | none => []
    | some function =>
      function.parameters.map fun parameter => parameter.name ++ ":" ++ parameter.type
  ⟨[⟨name ++ candidate.type, parameters⟩], 0, activeOf parameters.length commas⟩

/-- The function of a name among the candidates. -/
def candidate? (name : String) (reply : Reply.Completions) : Option Reply.Candidate :=
  reply.candidates.find? fun candidate => candidate.function.isSome && candidate.name == name

/-- What is shown, as a value. -/
def toJson (help : SignatureHelp) : Json :=
  .object [
    ("signatures", Json.ofList (fun signature => .object [
      ("label", .string signature.label),
      ("parameters", Json.ofList (fun label => .object [("label", .string label)])
        signature.parameters)]) help.signatures),
    ("active_signature", .integer help.activeSignature),
    ("active_parameter", Json.ofOption (fun index => .integer (index : Nat)) help.activeParameter)]

end SignatureHelp

/-- Shows the parameters of the call around a position, for a buffer with an absolute path. -/
def Document.signature (document : Document) (position : Position) : Plan (Option SignatureHelp) :=
  match if document.path.absolute then document.callSite? position else none with
  | none => .answer none
  | some site => .ask (.completions document.path site.contents site.callee.stop) fun result =>
      (result.settle Reply.Completions.ofJson?).bind fun reply =>
        (SignatureHelp.candidate? site.name reply).map fun candidate =>
          SignatureHelp.ofCandidate site.name candidate site.call.commas

end FlowService
