/-! A text holds another one when the other stands somewhere in it without a gap. -/

namespace FlowService.Text

/-- Whether a text holds the wanted one. -/
def holds (wanted : List Char) : List Char → Bool
  | [] => wanted.isEmpty
  | char :: rest => wanted.isPrefixOf (char :: rest) || holds wanted rest

end FlowService.Text
