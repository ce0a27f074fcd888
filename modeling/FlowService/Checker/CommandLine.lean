/-! A command line is shown the way a POSIX shell would need it. -/

namespace FlowService.CommandLine

/-- Whether a character stands for itself in every shell. -/
def isPlain (char : Char) : Bool := char.isAlphanum || ['-', '_', '=', '.', '/'].contains char

/-- What stands for a character between single quotes; a quote leaves them and comes back. -/
def escape (char : Char) : List Char :=
  if char = '\'' then ['\'', '\\', '\'', '\''] else [char]

/-- Puts a text between single quotes. -/
def quote (argument : List Char) : List Char := '\'' :: (argument.flatMap escape ++ ['\''])

/-- The text of one argument, quoted only where that is needed. -/
def word (argument : List Char) : List Char :=
  if argument.all isPlain && !argument.isEmpty then argument else quote argument

/-- The name under which the checker is shown. -/
def program : List Char := "flow".toList

/-- The characters of a command line. -/
def characters (arguments : List String) : List Char :=
  program ++ arguments.flatMap fun argument => ' ' :: word argument.toList

/-- The command line that runs the checker with the given arguments. -/
def text (arguments : List String) : String := String.ofList (characters arguments)

end FlowService.CommandLine
