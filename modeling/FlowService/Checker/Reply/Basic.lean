/-!
The checker answers each kind of question with a record of its own, of which only the fields that
are used are kept.
-/

namespace FlowService.Reply

/-- A parameter of a function that completion proposes. -/
structure Parameter where
  name : String
  type : String
  deriving DecidableEq, Repr, Inhabited

/-- What completion knows about a function. -/
structure Function where
  returnType : String
  parameters : List Parameter
  deriving DecidableEq, Repr, Inhabited

/-- One proposal of completion. -/
structure Candidate where
  name : String
  type : String
  /-- Nothing for what cannot be called. -/
  function : Option Function
  path : String
  deriving DecidableEq, Repr, Inhabited

/-- The answer to a question for completions. -/
structure Completions where
  candidates : List Candidate
  deriving DecidableEq, Repr, Inhabited

/-- The answer to a question for a type. -/
structure TypeAt where
  type : String
  deriving DecidableEq, Repr, Inhabited

/-- The answer to a question for a definition; an empty path stands for none. -/
structure Definition where
  path : String
  line : UInt32
  endLine : UInt32
  start : UInt32
  stop : UInt32
  deriving DecidableEq, Repr, Inhabited

/-- A place in a file, counted from one. -/
structure Point where
  line : UInt32
  column : UInt32
  deriving DecidableEq, Repr, Inhabited

/-- A stretch of a file. -/
structure Stretch where
  start : Point
  stop : Point
  deriving DecidableEq, Repr, Inhabited

/-- How many expressions have a type, and where those are that have none. -/
structure Expressions where
  covered : UInt32
  uncovered : UInt32
  uncoveredStretches : List Stretch
  deriving DecidableEq, Repr, Inhabited

/-- The answer to a question for coverage. -/
structure Coverage where
  expressions : Expressions
  deriving DecidableEq, Repr, Inhabited

/-- One piece of an error message, which may point at a place. -/
structure MessagePart where
  description : String
  kind : String
  path : String
  line : UInt32
  endLine : UInt32
  start : UInt32
  stop : UInt32
  deriving DecidableEq, Repr, Inhabited

/-- One error that the checker found in the project. -/
structure Error where
  level : String
  message : List MessagePart
  operation : Option MessagePart
  deriving DecidableEq, Repr, Inhabited

/-- The answer to a question for the state of the project. -/
structure Status where
  passed : Bool
  errors : List Error
  deriving DecidableEq, Repr, Inhabited

/-- Whether a piece of a message points at a place. -/
def MessagePart.isBlame (part : MessagePart) : Bool := part.kind == "Blame"

/-- The operation of an error, when it points at a place. -/
def Error.blamedOperation? (error : Error) : Option MessagePart :=
  error.operation.filter MessagePart.isBlame

/-- The first piece of the message that points at a place. -/
def Error.firstBlame? (error : Error) : Option MessagePart :=
  error.message.find? MessagePart.isBlame

end FlowService.Reply
