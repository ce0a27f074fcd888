/-! A text is split at every occurrence of a mark, which leaves at least one stretch. -/

namespace FlowService.Text

/-- The stretches of a text between the marks, in order; the marks themselves are left out. -/
def splitAt (mark : Char) (text : List Char) : List (List Char) :=
  text.foldr (fun char stretches =>
    if char = mark then [] :: stretches
    else match stretches with
      | [] => [[char]]
      | stretch :: later => (char :: stretch) :: later) [[]]

end FlowService.Text
