/-! The environment of a process is a list of texts that each give a name and a value. -/

namespace FlowService

/-- The variables of a process, each with a name and a value. A variable whose value is not text has
no value that could be read and is left out. -/
structure Environment where
  bindings : List (String × String)
  deriving Repr, Inhabited

namespace Environment

/-- The value that follows a name and an equals sign at the front of an entry. -/
def valueAfter? (name : List Char) (entry : List Char) : Option (List Char) :=
  if (name ++ ['=']).isPrefixOf entry then some (entry.drop (name.length + 1)) else none

/-- The value of a variable; an equals sign in the name is matched against the entry's own text. -/
def value? (environment : Environment) (name : String) : Option String :=
  environment.bindings.findSome? fun entry =>
    (valueAfter? name.toList (entry.1 ++ "=" ++ entry.2).toList).map String.ofList

/-- The value of a variable that is set to something other than the empty text. -/
def nonEmpty? (environment : Environment) (name : String) : Option String :=
  (environment.value? name).filter (· != "")

end Environment

end FlowService
