import FlowService.Proofs.Feature.Asking
import Mathlib.Algebra.GroupWithZero.Nat

/-!
The commas of a call that are counted are those in front of the position that stand within no
parentheses of its arguments. So the parameter that is shown as active is the one whose argument the
position is in, unless an argument has commas within square or curly brackets alone.
-/

namespace FlowService

/-- A pair of brackets. -/
inductive Bracket
  | round
  | square
  | curly
  deriving DecidableEq, Repr

namespace Bracket

/-- The pair that a character opens. -/
def openedBy? : Char → Option Bracket
  | '(' => some .round
  | '[' => some .square
  | '\x7b' => some .curly
  | _ => none

/-- The pair that a character closes. -/
def closedBy? : Char → Option Bracket
  | ')' => some .round
  | ']' => some .square
  | '\x7d' => some .curly
  | _ => none

/-- The pairs that are open behind a character, the innermost first; none if it closes another one
than the innermost. -/
def behind? (opened : List Bracket) (char : Char) : Option (List Bracket) :=
  match openedBy? char, closedBy? char, opened with
  | some bracket, _, _ => some (bracket :: opened)
  | none, none, _ => some opened
  | none, some _, [] => none
  | none, some bracket, innermost :: outer => if innermost = bracket then some outer else none

/-- Whether a text closes the pairs that are open in front of it and all that it opens, each one
when it is the innermost. -/
def areClosed : List Bracket → List Char → Bool
  | opened, [] => opened.isEmpty
  | opened, char :: rest =>
    match behind? opened char with
    | none => false
    | some opened => areClosed opened rest

/-- How many commas of a text stand within such pairs as are wanted. -/
def commasWithin (wanted : List Bracket → Bool) : List Bracket → List Char → Nat
  | _, [] => 0
  | opened, char :: rest =>
    (if char = ',' && wanted opened then 1 else 0) +
      commasWithin wanted ((behind? opened char).getD []) rest

/-- How many commas of a text stand within no brackets. -/
def separators (text : List Char) : Nat := commasWithin (·.isEmpty) [] text

/-- How many commas of a text stand within brackets but within no parentheses. -/
def exposed (text : List Char) : Nat :=
  commasWithin (fun opened => !opened.isEmpty && !opened.contains .round) [] text

/-- A comma within no parentheses is within no brackets or within others. -/
theorem commasWithin_eq (opened : List Bracket) (text : List Char) :
    commasWithin (fun opened => !opened.contains .round) opened text =
      commasWithin (·.isEmpty) opened text +
        commasWithin (fun opened => !opened.isEmpty && !opened.contains .round) opened text := by
  induction text generalizing opened with
  | nil => rfl
  | cons char rest ih =>
    simp only [commasWithin]
    rw [ih]
    cases opened with
    | nil => simp [Nat.add_assoc]
    | cons innermost outer => simp [Nat.add_left_comm]

/-- Only one character opens parentheses. -/
theorem openedBy?_round {char : Char} : openedBy? char = some .round ↔ char = '(' := by
  unfold openedBy?
  split <;> simp_all

/-- Only one character closes parentheses. -/
theorem closedBy?_round {char : Char} : closedBy? char = some .round ↔ char = ')' := by
  unfold closedBy?
  split <;> simp_all

/-- Any other character leaves as many parentheses open as there are. -/
theorem count_behind? {opened next : List Bracket} {char : Char} (opening : char ≠ '(')
    (closing : char ≠ ')') (stepped : behind? opened char = some next) :
    next.count .round = opened.count .round := by
  have opens := mt openedBy?_round.mp opening
  have closes := mt closedBy?_round.mp closing
  unfold behind? at stepped
  split at stepped
  · obtain rfl := Option.some.inj stepped
    apply List.count_cons_of_ne
    rintro rfl
    contradiction
  · obtain rfl := Option.some.inj stepped
    rfl
  · cases stepped
  · split at stepped
    · rename_i innermost
      obtain rfl := Option.some.inj stepped
      symm
      apply List.count_cons_of_ne
      rintro rfl
      rw [innermost] at closes
      contradiction
    · cases stepped

/-- The scan goes back over a character to the depth in front of it. -/
theorem scanBack_behind? {opened next : List Bracket} {char : Char}
    (stepped : behind? opened char = some next) (before : List Char) (commas : Nat) :
    OpenCall.scanBack (char :: before) (next.count .round) commas =
      OpenCall.scanBack before (opened.count .round)
        (commas + if char = ',' && !opened.contains .round then 1 else 0) := by
  -- Only parentheses move the depth: going back, it is one less in front of an opening one, and
  -- one more in front of a closing one.
  by_cases opening : char = '('
  · subst opening
    obtain rfl := Option.some.inj stepped
    rw [List.count_cons_self]
    rfl
  · by_cases closing : char = ')'
    · subst closing
      cases opened with
      | nil => cases stepped
      | cons innermost outer =>
        have step : behind? (innermost :: outer) ')' =
            if innermost = .round then some outer else none := rfl
        rw [step] at stepped
        split at stepped
        · rename_i round
          obtain rfl := Option.some.inj stepped
          rw [round, List.count_cons_self]
          rfl
        · cases stepped
    · rw [count_behind? opening closing stepped]
      by_cases comma : char = ','
      · subst comma
        rw [OpenCall.scanBack_comma]
        congr 2
        simp [List.count_eq_zero]
      · rw [OpenCall.scanBack_other opening closing comma]
        simp [comma]

/-- The scan goes back over a text that closes some pairs to a depth at which their parentheses are
still to be opened, and counts the commas within no parentheses. -/
theorem scanBack_areClosed {opened : List Bracket} {text : List Char}
    (closed : areClosed opened text) (before : List Char) (commas : Nat) :
    OpenCall.scanBack (text.reverse ++ before) 0 commas =
      OpenCall.scanBack before (opened.count .round)
        (commas + commasWithin (fun opened => !opened.contains .round) opened text) := by
  -- The first character of the text is the last one that the scan comes to, at the depth that the
  -- rest of the text leaves.
  induction text generalizing opened before with
  | nil =>
    have none : opened = [] := List.isEmpty_iff.mp closed
    rw [none]
    rfl
  | cons char rest ih =>
    rw [areClosed] at closed
    cases stepped : behind? opened char with
    | none => simp [stepped] at closed
    | some next =>
      rw [stepped] at closed
      rw [List.reverse_cons, List.append_assoc, List.singleton_append, ih closed,
        scanBack_behind? stepped, commasWithin, stepped, Option.getD_some]
      congr 1
      omega

/-- What may stand as an argument: it closes all brackets that it opens, each one when it is the
innermost, and has no comma outside of them. -/
structure IsArgument (text : List Char) : Prop where
  closed : areClosed [] text
  single : separators text = 0

instance (text : List Char) : Decidable (IsArgument text) :=
  decidable_of_iff (areClosed [] text ∧ separators text = 0)
    ⟨fun ⟨closed, single⟩ => ⟨closed, single⟩, fun ⟨closed, single⟩ => ⟨closed, single⟩⟩

/-- The scan goes back over an argument and counts the commas that are exposed in it. -/
theorem IsArgument.scanBack {argument : List Char} (text : IsArgument argument)
    (before : List Char) (commas : Nat) :
    OpenCall.scanBack (argument.reverse ++ before) 0 commas =
      OpenCall.scanBack before 0 (commas + exposed argument) := by
  have inner := commasWithin_eq [] argument
  have none : commasWithin (·.isEmpty) [] argument = 0 := text.single
  rw [none, Nat.zero_add] at inner
  rw [scanBack_areClosed text.closed, inner]
  rfl

/-- The scan goes back over arguments and counts the commas between them and those that are exposed
in them. -/
theorem scanBack_arguments {arguments : List (List Char)}
    (texts : ∀ argument ∈ arguments, IsArgument argument) (before : List Char) (commas : Nat) :
    OpenCall.scanBack (([','].intercalate arguments).reverse ++ before) 0 commas =
      OpenCall.scanBack before 0
        (commas + (arguments.length - 1 + (arguments.map exposed).sum)) := by
  induction arguments generalizing before commas with
  | nil => rfl
  | cons argument later ih =>
    have first : IsArgument argument := texts argument List.mem_cons_self
    cases later with
    | nil =>
      rw [List.intercalate_singleton, first.scanBack]
      simp
    | cons second rest =>
      -- The later arguments are gone back over, then the comma in front of them, then the first.
      rw [List.intercalate_cons_cons, List.reverse_append, List.reverse_append, List.append_assoc,
        List.append_assoc, ih fun other member => texts other (List.mem_cons_of_mem _ member)]
      have comma : [','].reverse ++ (argument.reverse ++ before) =
          ',' :: (argument.reverse ++ before) := rfl
      rw [comma, OpenCall.scanBack_comma, first.scanBack]
      congr 1
      simp
      omega

end Bracket

/-- A text ends in a call of an identifier with some arguments that goes on behind it. -/
structure EndsInCall (text front name : List Char) (arguments : List (List Char)) : Prop where
  split : text = front ++ name ++ '(' :: [','].intercalate arguments
  nonempty : name ≠ []
  whole : ∀ char ∈ name, Text.isWordChar char
  apart : ∀ char ∈ front.getLast?, ¬Text.isWordChar char
  given : arguments ≠ []
  texts : ∀ argument ∈ arguments, Bracket.IsArgument argument

/-- The commas that are counted for the arguments of a call. -/
def countedCommas (arguments : List (List Char)) : Nat :=
  arguments.length - 1 + (arguments.map Bracket.exposed).sum

/-- As many commas are counted as stand between arguments exactly if none is exposed in one. -/
theorem countedCommas_eq {arguments : List (List Char)} :
    countedCommas arguments = arguments.length - 1 ↔
      ∀ argument ∈ arguments, Bracket.exposed argument = 0 := by
  unfold countedCommas
  rw [Nat.add_eq_left, List.sum_eq_zero_iff_forall_eq_nat]
  simp

/-- The parts of the line that ends in a call. -/
theorem EndsInCall.around {document : Document} {position : Position}
    {line front name : List Char} {arguments : List (List Char)}
    (there : document.line? position.line = some line)
    (ends : EndsInCall (line.take position.character.toNat) front name arguments) :
    CallLine.Around ⟨front, name, [], [','].intercalate arguments,
      line.drop position.character.toNat, countedCommas arguments⟩ document position := by
  have seen : CallLine.seen ⟨front, name, [], [','].intercalate arguments,
      line.drop position.character.toNat, countedCommas arguments⟩ =
        line.take position.character.toNat := by
    rw [ends.split]
    simp [CallLine.seen, CallLine.opening]
  constructor
  case there =>
    rw [CallLine.line, seen, List.take_append_drop]
    exact there
  case column => rw [CallLine.line, seen, List.take_append_drop]
  case named =>
    refine ⟨rfl, ends.nonempty, ends.whole, ends.apart, ?_⟩
    exact fun char member => absurd member List.not_mem_nil
  case scanned =>
    rw [CallLine.seen, List.reverse_append, List.reverse_cons, List.append_assoc,
      List.singleton_append, Bracket.scanBack_arguments ends.texts, Nat.zero_add, OpenCall.scanBack,
      List.length_reverse]
    rfl

/-- Among parameters that can be counted in 32 bits, the last one stays active behind all others. -/
theorem SignatureHelp.activeOf_eq {parameters : Nat} (commas : Nat) (given : 0 < parameters)
    (counted : parameters < UInt32.size) :
    activeOf parameters commas = some (min commas (parameters - 1)) := by
  have size : parameters.toUInt32.toNat = parameters := UInt32.toNat_ofNat_of_lt counted
  have least : 1 ≤ parameters.toUInt32 := by
    rw [UInt32.le_iff_toNat_le, size]
    exact given
  have some : parameters.toUInt32 ≠ 0 := by
    intro none
    rw [none] at least
    exact absurd least (by decide)
  rw [activeOf, if_neg some, UInt32.toNat_sub_of_le _ _ least, size]
  rfl

/-- The parameter of a function that is shown as active is the one that the commas lead to, or the
last one. -/
theorem CallSite.exists_help {site : CallSite} {result : CheckerResult}
    {reply : Reply.Completions} {candidate : Reply.Candidate} {function : Reply.Function}
    (settled : result.settle Reply.Completions.ofJson? = some reply)
    (named : SignatureHelp.candidate? site.name reply = some candidate)
    (callable : candidate.function = some function) (given : 0 < function.parameters.length)
    (counted : function.parameters.length < UInt32.size) :
    ∃ help, site.help? result = some help ∧
      help.activeParameter = some (min site.call.commas (function.parameters.length - 1)) := by
  refine ⟨SignatureHelp.ofCandidate site.name candidate site.call.commas, ?_, ?_⟩
  · rw [CallSite.help?, settled, Option.bind_some, named]
    rfl
  · unfold SignatureHelp.ofCandidate
    simp [callable, SignatureHelp.activeOf_eq _ given counted]

namespace Document

/-- For a text that ends in a call, the parenthesis behind its identifier is found, and the commas
that are counted are those between its arguments and those that are within square or curly brackets
of an argument but within no parentheses. So the parameter that is shown as active is the one of the
last argument exactly if there are none of these, or if there is no later parameter, as long as the
parameters can be counted in 32 bits. -/
theorem active_parameter_counts_exposed_commas {document : Document} {position : Position}
    {line front name : List Char} {arguments : List (List Char)}
    (there : document.line? position.line = some line)
    (ends : EndsInCall (line.take position.character.toNat) front name arguments) :
    ∃ site, document.callSite? position = some site ∧
      document.enclosingCall? position = some site.call ∧
      site.name = String.ofList name ∧
      site.call.parenthesis.line = position.line ∧
      site.call.parenthesis.character.toNat = (front ++ name).length ∧
      site.call.commas = arguments.length - 1 + (arguments.map Bracket.exposed).sum ∧
      (site.call.commas = arguments.length - 1 ↔
        ∀ argument ∈ arguments, Bracket.exposed argument = 0) ∧
      (document.path.absolute → document.signature position =
        .ask (.completions document.path site.contents site.callee.stop) site.help?) ∧
      ∀ result reply candidate function,
        CheckerResult.settle Reply.Completions.ofJson? result = some reply →
        SignatureHelp.candidate? site.name reply = some candidate →
        candidate.function = some function → arguments.length ≤ function.parameters.length →
        function.parameters.length < UInt32.size →
        ∃ help, site.help? result = some help ∧
          help.activeParameter =
            some (min site.call.commas (function.parameters.length - 1)) ∧
          (help.activeParameter = some (arguments.length - 1) ↔
            (∀ argument ∈ arguments, Bracket.exposed argument = 0) ∨
              function.parameters.length = arguments.length) := by
  have around := ends.around there
  have positive : 0 < arguments.length := List.length_pos_iff.mpr ends.given
  refine ⟨_, around.callSite?, around.found.1, rfl, rfl, ?_, rfl, countedCommas_eq, ?_, ?_⟩
  · rw [around.columns.2.2]
    simp [CallLine.opening]
  · intro absolute
    exact signature_eq absolute around.callSite?
  · intro result reply candidate function settled named callable enough counted
    have given : 0 < function.parameters.length := by omega
    obtain ⟨help, shown, active⟩ := CallSite.exists_help settled named callable given counted
    refine ⟨help, shown, active, ?_⟩
    rw [active, Option.some_inj, ← countedCommas_eq]
    show min (countedCommas arguments) _ = _ ↔ _
    -- Commas that are exposed move the parameter on, unless it already is the last one.
    have least : arguments.length - 1 ≤ countedCommas arguments := Nat.le_add_right ..
    omega

/-- Calls, lists and records within the arguments of a call do not count. -/
theorem active_parameter_counts_exposed_commas_nested :
    let text := "x = größe(f(a, [b, c]), \x7bd: [e]\x7d, ä)"
    let document : Document := ⟨Path.ofText "/p/a.js", text⟩
    let function : Reply.Function := ⟨"void", [⟨"a", "A"⟩, ⟨"b", "B"⟩, ⟨"c", "C"⟩]⟩
    let reply : Reply.Completions := ⟨[⟨"größe", "(a, b, c) => void", some function, ""⟩]⟩
    ∃ site, document.callSite? ⟨0, 35⟩ = some site ∧ site.call = ⟨⟨0, 9⟩, 2⟩ ∧
      ∃ help, site.help? (.ok (.json reply.toJson)) = some help ∧
        help.activeParameter = some 2 := by
  intro text document function reply
  have there : document.line? 0 = some text.toList := by decide +kernel
  have ends : EndsInCall (text.toList.take 35) "x = ".toList "größe".toList
      ["f(a, [b, c])".toList, " \x7bd: [e]\x7d".toList, " ä".toList] := by
    constructor
    case whole => exact List.all_eq_true.mp (by decide +kernel)
    case apart =>
      intro char member
      obtain rfl : ' ' = char := Option.some.inj member
      decide +kernel
    all_goals decide +kernel
  obtain ⟨site, found, opened, name, -, -, -, -, -, active⟩ :=
    @active_parameter_counts_exposed_commas document ⟨0, 35⟩ _ _ _ _ there ends
  have call : document.enclosingCall? ⟨0, 35⟩ = some ⟨⟨0, 9⟩, 2⟩ := by decide +kernel
  have settled : CheckerResult.settle Reply.Completions.ofJson? (.ok (.json reply.toJson)) =
      some reply := by
    decide +kernel
  have named : SignatureHelp.candidate? site.name reply = reply.candidates.head? := by
    rw [name]
    decide +kernel
  obtain ⟨help, shown, -, which⟩ :=
    active _ reply _ function settled named rfl (by decide) (by decide)
  exact ⟨site, found, Option.some.inj (opened.symm.trans call), help, shown,
    which.mpr (.inl (by decide +kernel))⟩

/-- A comma in a list that is the only argument of a call leads to the second parameter. -/
theorem comma_of_list_leads_to_later_parameter :
    let document : Document := ⟨Path.ofText "/p/a.js", "f([1,2]"⟩
    let function : Reply.Function := ⟨"void", [⟨"a", "A"⟩, ⟨"b", "B"⟩]⟩
    let reply : Reply.Completions := ⟨[⟨"f", "(a, b) => void", some function, ""⟩]⟩
    Bracket.IsArgument "[1,2]".toList ∧
      document.enclosingCall? ⟨0, 7⟩ = some ⟨⟨0, 1⟩, 1⟩ ∧
      ∃ site : CallSite, document.signature ⟨0, 7⟩ =
          .ask (.completions document.path site.contents site.callee.stop) site.help? ∧
        (site.help? (.ok (.json reply.toJson))).map (·.activeParameter) = some (some 1) := by
  intro document function reply
  have found : document.callSite? ⟨0, 7⟩ =
      some ⟨⟨⟨0, 1⟩, 1⟩, ⟨⟨0, 0⟩, ⟨0, 1⟩⟩, "f", "f"⟩ := by decide +kernel
  have absolute : document.path.absolute := by decide +kernel
  exact ⟨by decide +kernel, by decide +kernel, _, signature_eq absolute found, by decide +kernel⟩

end Document

end FlowService
