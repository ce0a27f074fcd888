/-! Blank characters are those that Unicode counts as white space. -/

namespace FlowService.Text

/-- Whether a character has the Unicode property of white space. -/
def isBlank (char : Char) : Bool :=
  let code := char.toNat
  (0x09 ≤ code && code ≤ 0x0D) || code == 0x20 || code == 0x85 || code == 0xA0 || code == 0x1680 ||
    (0x2000 ≤ code && code ≤ 0x200A) || code == 0x2028 || code == 0x2029 || code == 0x202F ||
    code == 0x205F || code == 0x3000

/-- Whether a text holds nothing but blank characters. -/
def isAllBlank (text : String) : Bool := text.toList.all isBlank

end FlowService.Text
