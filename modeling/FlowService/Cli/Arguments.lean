import FlowService.Text.Position

/-! The arguments on the command line name a command, a file, and mostly a place in it. -/

namespace FlowService.Cli

/-- The file that a command is about. -/
structure Target where
  file : String
  /-- Whether the buffer is read from the standard input. -/
  stdin : Bool
  deriving DecidableEq, Repr, Inhabited

/-- A place as it is typed, counted from one. -/
structure Place where
  line : UInt32
  column : UInt32
  deriving DecidableEq, Repr, Inhabited

/-- A command that asks about a buffer. -/
inductive BufferQuery
  | complete (place : Place)
  | hover (place : Place)
  | definition (place : Place)
  | coverage
  | signature (place : Place)
  deriving DecidableEq, Repr, Inhabited

/-- What is asked for on the command line. -/
inductive Command
  /-- The diagnostics of the project of a file. -/
  | status (target : Target)
  | buffer (target : Target) (query : BufferQuery)
  deriving DecidableEq, Repr, Inhabited

/-- The arguments behind the name of a command. -/
structure Words where
  /-- Those that are no options, in order. -/
  positional : List String
  /-- How often the buffer was asked to be read from the standard input. -/
  stdin : Nat
  deriving DecidableEq, Repr, Inhabited

namespace Words

/-- Adds an argument that is no option in front. -/
def addPositional (words : Words) (text : String) : Words :=
  { words with positional := text :: words.positional }

/-- Whether an argument looks like an option; a single dash does not. -/
def looksLikeOption (argument : String) : Bool :=
  match argument.toList with
  | '-' :: _ :: _ => true
  | _ => false

/-- Tells options from other arguments; behind two dashes there are no options. -/
def ofArguments? : List String → Option Words
  | [] => some ⟨[], 0⟩
  | argument :: later =>
    if argument = "--" then some ⟨later, 0⟩
    else if argument = "--stdin" then
      (ofArguments? later).map fun words => { words with stdin := words.stdin + 1 }
    else if looksLikeOption argument then none
    else (ofArguments? later).map (·.addPositional argument)

end Words

/-- Reads the digits of a number. -/
def digits? (text : List Char) : Option Nat :=
  if !text.isEmpty && text.all Char.isDigit then
    some (text.foldl (fun value digit => value * 10 + (digit.toNat - '0'.toNat)) 0)
  else none

/-- Reads a number of 32 bits with an optional sign. -/
def number? (text : String) : Option UInt32 :=
  let inRange (value : Nat) : Option UInt32 :=
    if value < UInt32.size then some value.toUInt32 else none
  match text.toList with
  | '+' :: rest => (digits? rest).bind inRange
  | '-' :: rest => (digits? rest).bind fun value => if value = 0 then some 0 else none
  | rest => (digits? rest).bind inRange

/-- Reads the arguments of a command that takes only a file. -/
def target? (words : Words) : Option (Target × List String) :=
  match words.positional with
  | [] => none
  | file :: later =>
    if file = "" ∨ 1 < words.stdin then none else some (⟨file, words.stdin = 1⟩, later)

/-- Reads a place from two arguments. -/
def place? : List String → Option Place
  | [line, column] => do
    let line ← number? line
    let column ← number? column
    return ⟨line, column⟩
  | _ => none

/-- Reads what is asked for; nothing when the command line is not understood. -/
def Command.ofArguments? : List String → Option Command
  | [] => none
  | name :: later => do
    let words ← Words.ofArguments? later
    let (target, rest) ← target? words
    match name with
    | "status" => if rest.isEmpty then some (.status target) else none
    | "coverage" => if rest.isEmpty then some (.buffer target .coverage) else none
    | "complete" => (place? rest).map fun place => .buffer target (.complete place)
    | "hover" => (place? rest).map fun place => .buffer target (.hover place)
    | "definition" => (place? rest).map fun place => .buffer target (.definition place)
    | "signature" => (place? rest).map fun place => .buffer target (.signature place)
    | _ => none

end FlowService.Cli
