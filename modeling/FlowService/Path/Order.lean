import FlowService.Path.Basic

/-! Paths are ordered component by component and not by their spelling. -/

namespace FlowService

namespace Component

/-- The place of each kind of component in the order. -/
def rank : Component → Nat
  | .root => 0
  | .here => 1
  | .above => 2
  | .name _ => 3

/-- Compares two components: by kind first, and names by their characters. -/
def compare : Component → Component → Ordering
  | .name left, .name right => compareOfLessAndEq left right
  | left, right => Ord.compare left.rank right.rank

end Component

namespace Path

/-- Compares two lists of components like words in a dictionary. -/
def compareComponents : List Component → List Component → Ordering
  | [], [] => .eq
  | [], _ :: _ => .lt
  | _ :: _, [] => .gt
  | left :: lefts, right :: rights =>
    match left.compare right with
    | .eq => compareComponents lefts rights
    | order => order

/-- Compares two paths by what they stand for. -/
def compare (left right : Path) : Ordering := compareComponents left.components right.components

end Path

end FlowService
