import FlowService.Checker.CommandLine
import FlowService.Disk.Tree
import FlowService.Path.Basic
import FlowService.Project.SearchPath

/-! An invocation says all that is needed to start the checker, and starting it may fail. -/

namespace FlowService

/-- One run of the checker that is asked for. -/
structure Invocation where
  binary : Path
  arguments : List String
  cwd : Path
  /-- The text to write to its input. -/
  stdin : Option String
  deriving DecidableEq, Repr, Inhabited

/-- Why a program cannot be started. -/
inductive SpawnFailure
  | nulCharacter
  | argumentTooLong
  | noSuchFile
  | notExecutable
  | noDirectory
  /-- The system does not know how to run the file. -/
  | unknownFormat
  deriving DecidableEq, Repr, Inhabited

/-- The text shown for a program that cannot be started. -/
def SpawnFailure.message : SpawnFailure → String
  | .nulCharacter => "an argument holds a character of value zero"
  | .argumentTooLong => "an argument is too long"
  | .noSuchFile => "no such file"
  | .notExecutable => "the file may not be run"
  | .noDirectory => "the working directory does not exist"
  | .unknownFormat => "the file is no program"

/-- What a file turns out to be when it is run. -/
inductive Executable
  | checker
  /-- A script of the shell that does nothing. -/
  | emptyScript
  deriving DecidableEq, Repr, Inhabited

namespace Executable

/-- Whether a line of a script holds nothing, or only a comment. -/
def isIdle (line : List Char) : Bool :=
  match line.dropWhile fun char => char == ' ' || char == '\t' with
  | [] => true
  | char :: _ => char == '#'

/-- What a file that may be run turns out to be; scripts are known when they do nothing. -/
def ofFile? (file : File) : Option Executable :=
  if file.checker then some .checker
  else match Text.splitAt '\n' (Utf8.decodeLossy file.contents).toList with
    | first :: later =>
      if first == "#!/bin/sh".toList && later.all isIdle then some .emptyScript else none
    | [] => none

end Executable

namespace Invocation

/-- The command line as it is shown. -/
def commandLine (invocation : Invocation) : String := CommandLine.text invocation.arguments

/-- Whether a text can be handed to the system. -/
def isPassable (text : String) : Bool := !text.toList.contains '\x00'

/-- The longest text that the system hands to a program as one argument, in bytes. -/
def argumentLimit : Nat := 128 * 1024 - 1

/-- The file that runs when a program is asked for by a path or by its name alone. -/
def program (disk : Disk) (environment : Environment) (binary : Path) : Except SpawnFailure File :=
  let runnable (path : Path) : Except SpawnFailure File :=
    match disk.lookup? path with
    | none => .error .noSuchFile
    | some (.file file) => if file.executable then .ok file else .error .notExecutable
    | some _ => .error .notExecutable
  if binary.text.toList.contains '/' then runnable binary
  else if binary == Path.empty then .error .noSuchFile
  else
    match ((SearchPath.entries environment).map (·.join binary)).find?
        (SearchPath.isProgram disk) with
    | some path => runnable path
    | none => .error .noSuchFile

/-- What an invocation runs, and where; relative paths begin in the directory of the invocation. -/
def spawn (disk : Disk) (environment : Environment) (invocation : Invocation) :
    Except SpawnFailure (Executable × Location) :=
  let texts := invocation.binary.text :: invocation.cwd.text :: invocation.arguments
  if !texts.all isPassable then .error .nulCharacter
  else if invocation.arguments.any fun text => argumentLimit < text.utf8ByteSize then
    .error .argumentTooLong
  else match disk.locate? invocation.cwd with
    | none => .error .noDirectory
    | some directory =>
      if !disk.tree.isDirectoryAt directory then .error .noDirectory
      else
        match program { disk with workingDirectory := directory } environment invocation.binary with
        | .error failure => .error failure
        | .ok file => match Executable.ofFile? file with
          | some executable => .ok (executable, directory)
          | none => .error .unknownFormat

end Invocation

end FlowService
