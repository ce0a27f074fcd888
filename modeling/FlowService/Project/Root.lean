import FlowService.Disk.Tree

/-! The project of a file is marked by a file at the top of it. -/

namespace FlowService.Project

/-- The name of the file that marks the top of a project. -/
def marker : String := "package.json"

/-- Whether a directory is marked as the top of a project. -/
def isMarked (disk : Disk) (directory : Path) : Bool := disk.isFile (directory.joinText marker)

/-- The nearest marked directory at or above a path, along its spelling. -/
def root? (disk : Disk) (start : Path) : Option Path := start.ancestors.find? (isMarked disk)

/-- The directory around a file, or the file itself where there is none. -/
def directoryOf (file : Path) : Path := file.parent?.getD file

/-- The root of the project of a file; a file outside of every project has its own directory. -/
def rootOf (disk : Disk) (file : Path) : Path :=
  (root? disk (directoryOf file)).getD (directoryOf file)

end FlowService.Project
