import FlowService.Text.Split

/-! Numbers and times in TOML are recognized by their form. -/

namespace FlowService.Toml.Scalar

/-- Whether a text is made of groups of digits with single underscores between them. -/
def isDigits (isDigit : Char → Bool) (text : List Char) : Bool :=
  (Text.splitAt '_' text).all fun group => !group.isEmpty && group.all isDigit

/-- Whether a character is a hexadecimal digit. -/
def isHexDigit (char : Char) : Bool :=
  char.isDigit || ('a' ≤ char && char ≤ 'f') || ('A' ≤ char && char ≤ 'F')

/-- Whether a text is the whole part of a number, which has no zero in front. -/
def isWhole (text : List Char) : Bool :=
  isDigits Char.isDigit text && (text.length == 1 || text.head? != some '0')

/-- A text without a sign in front. -/
def withoutSign : List Char → List Char
  | '+' :: rest => rest
  | '-' :: rest => rest
  | text => text

/-- Whether a text is a number without its exponent. -/
def isMantissa (text : List Char) : Bool :=
  match Text.splitAt '.' text with
  | [whole] => isWhole whole
  | [whole, fraction] => isWhole whole && isDigits Char.isDigit fraction
  | _ => false

/-- Whether a text is a decimal number without its sign. -/
def isDecimal (text : List Char) : Bool :=
  let front := text.takeWhile fun char => char != 'e' && char != 'E'
  match text.drop front.length with
  | [] => isMantissa front
  | _ :: exponent => isMantissa front && isDigits Char.isDigit (withoutSign exponent)

/-- Whether a text is a number. -/
def isNumber : List Char → Bool
  | '0' :: 'x' :: digits => isDigits isHexDigit digits
  | '0' :: 'o' :: digits => isDigits (fun char => '0' ≤ char && char ≤ '7') digits
  | '0' :: 'b' :: digits => isDigits (fun char => char == '0' || char == '1') digits
  | text =>
    let unsigned := withoutSign text
    unsigned == "inf".toList || unsigned == "nan".toList || isDecimal unsigned

/-- The number that two digits spell. -/
def pair? (first second : Char) : Option Nat :=
  if first.isDigit && second.isDigit then
    some ((first.toNat - '0'.toNat) * 10 + (second.toNat - '0'.toNat))
  else none

/-- Whether two digits spell a number up to a bound. -/
def isPairUpTo (bound : Nat) (first second : Char) : Bool := (pair? first second).any (· ≤ bound)

/-- How many days a month has. -/
def daysIn (century year month : Nat) : Nat :=
  let leap := if year = 0 then century % 4 = 0 else year % 4 = 0
  if month = 2 then if leap then 29 else 28
  else if month = 4 ∨ month = 6 ∨ month = 9 ∨ month = 11 then 30 else 31

/-- Whether a text is a date. -/
def isDate : List Char → Bool
  | [c, d, y, z, '-', m, n, '-', a, b] =>
    match pair? c d, pair? y z, pair? m n, pair? a b with
    | some century, some year, some month, some day =>
      1 ≤ month && month ≤ 12 && 1 ≤ day && day ≤ daysIn century year month
    | _, _, _, _ => false
  | _ => false

/-- Whether a text is a time of day; seconds may be left out. -/
def isTime : List Char → Bool
  | h :: i :: ':' :: m :: n :: rest =>
    isPairUpTo 23 h i && isPairUpTo 59 m n &&
      match rest with
      | [] => true
      | [':', s, t] => isPairUpTo 60 s t
      | ':' :: s :: t :: '.' :: fraction =>
        isPairUpTo 60 s t && !fraction.isEmpty && fraction.all Char.isDigit
      | _ => false
  | _ => false

/-- Whether a text is the distance of a time zone from the common time. -/
def isOffset : List Char → Bool
  | ['Z'] => true
  | ['z'] => true
  | [sign, h, i, ':', m, n] =>
    (sign == '+' || sign == '-') && isPairUpTo 23 h i && isPairUpTo 59 m n
  | _ => false

/-- Whether a text is a time of day with or without a time zone. -/
def isZonedTime (text : List Char) : Bool :=
  let time := text.takeWhile fun char => char.isDigit || char == ':' || char == '.'
  let offset := text.drop time.length
  isTime time && (offset.isEmpty || isOffset offset)

/-- Whether a text is a date, a time of day, or both. -/
def isMoment (text : List Char) : Bool :=
  let date := text.take 10
  match text.drop 10 with
  | [] => isDate text || isTime text
  | mark :: time =>
    isTime text || (isDate date && (mark == 'T' || mark == 't' || mark == ' ') && isZonedTime time)

/-- Whether a text is a number or a time. -/
def isScalar (text : List Char) : Bool := isNumber text || isMoment text

end FlowService.Toml.Scalar
