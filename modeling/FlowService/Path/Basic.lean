import FlowService.Text.Split

/-!
Paths keep their spelling and list their segments from the innermost outwards, so that the directory
above a path is found by dropping from the front.
-/

namespace FlowService

/-- A path as it was spelled. -/
structure Path where
  /-- Whether the spelling begins at the root. -/
  absolute : Bool
  /-- The stretches between slashes, the last one first; a root slash is not among them. -/
  segments : List String
  deriving DecidableEq, Repr, Inhabited

/-- What a segment stands for once spelling no longer matters. -/
inductive Component
  | root
  | here
  | above
  | name (text : String)
  deriving DecidableEq, Repr, Inhabited

namespace Component

/-- The segment that spells a component; the root is spelled by the slash itself. -/
def text : Component → String
  | .root => "/"
  | .here => "."
  | .above => ".."
  | .name text => text

end Component

namespace Path

/-- The path with nothing in it. -/
def empty : Path := ⟨false, []⟩

/-- The root directory. -/
def root : Path := ⟨true, []⟩

/-- Reads a path, keeping its spelling. -/
def ofText (text : String) : Path :=
  match text.toList with
  | [] => empty
  -- A lone slash has no segment behind it, not even an empty one.
  | ['/'] => root
  | '/' :: rest => ⟨true, ((Text.splitAt '/' rest).map String.ofList).reverse⟩
  | chars => ⟨false, ((Text.splitAt '/' chars).map String.ofList).reverse⟩

/-- The spelling of a path. -/
def text (path : Path) : String :=
  -- The slash of the root is not among the segments, so it comes in front of them.
  let body := "/".intercalate path.segments.reverse
  if path.absolute then "/" ++ body else body

instance : ToString Path := ⟨text⟩

/-- Whether a segment names nothing: it is empty, or a dot that does not begin a relative path. -/
def isSilent (absolute : Bool) (segment : String) (outer : List String) : Bool :=
  -- A dot at the front of a relative path is kept, since it says where the path begins.
  segment == "" || (segment == "." && (absolute || !outer.isEmpty))

/-- Drops the segments at the inner end that name nothing. -/
def trim (absolute : Bool) : List String → List String
  | [] => []
  | segment :: outer =>
    if isSilent absolute segment outer then trim absolute outer else segment :: outer

/-- The directory that a path lies in; the root and the empty path have none. -/
def parent? (path : Path) : Option Path :=
  match trim path.absolute path.segments with
  | [] => none
  -- What is left may end in segments that name nothing, which are dropped as well.
  | _ :: outer => some ⟨path.absolute, trim path.absolute outer⟩

/-- The segments of every directory above the given ones, nearest first. -/
def segmentsAbove (absolute : Bool) : List String → List (List String)
  | [] => []
  | segment :: outer =>
    if isSilent absolute segment outer then segmentsAbove absolute outer
    else trim absolute outer :: segmentsAbove absolute outer

/-- A path and every directory above it along its spelling, nearest first. -/
def ancestors (path : Path) : List Path :=
  -- The path itself keeps its spelling, the directories above it are trimmed.
  path :: (segmentsAbove path.absolute path.segments).map fun segments => ⟨path.absolute, segments⟩

/-- What one segment of a path stands for. -/
def componentOf (segment : String) : Component :=
  -- Nothing is looked up on a disk, so two dots do not undo a name.
  if segment == "." then .here else if segment == ".." then .above else .name segment

/-- What the segments stand for, from the innermost outwards, without those that name nothing. -/
def innerComponents (absolute : Bool) : List String → List Component
  | [] => if absolute then [.root] else []
  | segment :: outer =>
    if isSilent absolute segment outer then innerComponents absolute outer
    else componentOf segment :: innerComponents absolute outer

/-- What a path stands for once spelling no longer matters, from the outside in. -/
def components (path : Path) : List Component :=
  -- The root, if there is one, comes first.
  (innerComponents path.absolute path.segments).reverse

/-- The last component, when it is a name. -/
def fileName? (path : Path) : Option String :=
  match trim path.absolute path.segments with
  | [] => none
  -- Dots at the inner end are no name, even if they lead to a place that has one.
  | segment :: _ => match componentOf segment with
    | .name text => some text
    | _ => none

/-- The last name of a path that is given as text, or the whole text when there is none. -/
def baseName (text : String) : String := (ofText text).fileName?.getD text

/-- Splits a name at its last dot; a dot in front of the whole name does not count. -/
def splitAtLastDot (name : List Char) : Option (List Char × List Char) :=
  -- The name is gone through from its end, as far as the first dot met.
  let after := name.reverse.takeWhile (· != '.')
  match name.reverse.dropWhile (· != '.') with
  | [] => none
  | _ :: before => if before.isEmpty then none else some (before.reverse, after.reverse)

/-- The part of the last name after its last dot. -/
def extension? (path : Path) : Option String := do
  -- A name without a dot has no extension, and neither has one that only begins with a dot.
  let name ← path.fileName?
  let (_, extension) ← splitAtLastDot name.toList
  return String.ofList extension

/-- Puts a path behind another one; an absolute path takes its place. -/
def join (base next : Path) : Path :=
  -- A base is of no use to a path that begins at the root.
  if next.absolute then next
  else match next.segments, base.segments with
    -- A single slash separates the two, unless the base already ends in one.
    | [], [] => base
    | [], "" :: _ => base
    | [], outer => ⟨base.absolute, "" :: outer⟩
    | inner, "" :: outer => ⟨base.absolute, inner ++ outer⟩
    | inner, outer => ⟨base.absolute, inner ++ outer⟩

/-- Puts the spelling of a path behind another one. -/
def joinText (base : Path) (text : String) : Path := base.join (ofText text)

/-- Whether two paths stand for the same thing, whatever their spelling. -/
def sameAs (left right : Path) : Bool := left.components == right.components

end Path

end FlowService
