import FlowService.Feature.Signature
import Mathlib.Data.Nat.Find
import Mathlib.Order.Bounds.Basic

/-!
The call around a position begins at the last parenthesis from which on more are opened than closed
in front of it. The scan finds it in one pass, as its depth always is the number of parentheses that
were closed but not yet opened, which never falls below zero nor grows beyond 32 bits.
-/

namespace FlowService

namespace OpenCall

/-- How many more parentheses a text opens than it closes. -/
def balance (text : List Char) : Int := text.count '(' - text.count ')'

/-- How many commas of a text have so many more parentheses opened than closed behind them. -/
def commasAt (depth : Nat) (text : List Char) : Nat :=
  (List.range text.length).countP fun index =>
    text[index]? = some ',' ∧ balance (text.drop index) = depth

/-- A parenthesis in front of a text changes its balance by one. -/
theorem balance_cons (char : Char) (rest : List Char) :
    balance (char :: rest) =
      (if char = '(' then 1 else if char = ')' then -1 else 0) + balance rest := by
  unfold balance
  rw [List.count_cons, List.count_cons]
  by_cases opened : char = '('
  · simp [opened]
    omega
  · by_cases closed : char = ')'
    · simp [closed]
      omega
    · simp [opened, closed]

/-- A comma in front of a text counts if it is at the wanted depth. -/
theorem commasAt_cons (depth : Nat) (char : Char) (rest : List Char) :
    commasAt depth (char :: rest) =
      commasAt depth rest + if char = ',' ∧ balance rest = depth then 1 else 0 := by
  have same : char = ',' → balance (char :: rest) = balance rest := by
    rintro rfl
    rw [balance_cons]
    simp
  have here : (char = ',' ∧ balance (char :: rest) = depth) ↔
      (char = ',' ∧ balance rest = depth) := by
    constructor <;> rintro ⟨comma, level⟩ <;> simp_all
  unfold commasAt
  rw [List.length_cons, List.range_succ_eq_map, List.countP_cons, List.countP_map]
  congr 1
  simp [here]

/-- The scan counts a comma at depth zero. -/
theorem scanBack_comma (before : List Char) (depth commas : Nat) :
    scanBack (',' :: before) depth commas =
      scanBack before depth (commas + if depth = 0 then 1 else 0) := by
  cases depth <;> rfl

/-- The scan passes over a character that is no comma and no parenthesis. -/
theorem scanBack_other {char : Char} (opening : char ≠ '(') (closing : char ≠ ')')
    (comma : char ≠ ',') (before : List Char) (depth commas : Nat) :
    scanBack (char :: before) depth commas = scanBack before depth commas := by
  rw [scanBack] <;> simp_all

/-- Going back over a text that opens no more than there is to open, the scan has as its depth what
is left to be opened, and has counted the commas at depth zero. -/
theorem scanBack_closed {text : List Char} (depth : Nat)
    (closed : ∀ index, balance (text.drop index) ≤ depth) (before : List Char) (commas : Nat) :
    scanBack (text.reverse ++ before) depth commas =
      scanBack before (depth - balance text).toNat (commas + commasAt depth text) := by
  induction text generalizing before with
  | nil => simp [balance, commasAt]
  | cons char rest ih =>
    have whole : balance (char :: rest) ≤ depth := closed 0
    have part : balance rest ≤ depth := closed 1
    obtain ⟨level, left⟩ := Int.eq_ofNat_of_zero_le (Int.sub_nonneg.mpr part)
    have passed := ih (fun index => closed (index + 1)) (char :: before)
    rw [left] at passed
    rw [List.reverse_cons, List.append_assoc, List.singleton_append, passed, Int.toNat_natCast,
      balance_cons, commasAt_cons, ← Nat.add_assoc]
    rw [balance_cons] at whole
    by_cases opening : char = '('
    · -- There is one left to be opened, as the whole text opens no more than that.
      subst opening
      obtain ⟨more, rfl⟩ : ∃ more, level = more + 1 := ⟨level - 1, by simp at whole; omega⟩
      have after : (depth - (1 + balance rest)).toNat = more := by omega
      simp [scanBack, after]
    · by_cases closing : char = ')'
      · subst closing
        have after : (depth - (-1 + balance rest)).toNat = level + 1 := by omega
        simp [scanBack, after]
      · have same : (depth - (0 + balance rest)).toNat = level := by omega
        rw [if_neg opening, if_neg closing, same]
        by_cases comma : char = ','
        · subst comma
          have atLevel : level = 0 ↔ balance rest = depth := by omega
          simp [scanBack_comma, atLevel]
        · simp [scanBack_other opening closing comma, comma]

/-- The scan finds no parenthesis in a text that opens no more than it closes from anywhere on. -/
theorem scanBack_eq_none {text : List Char} (closed : ∀ index, balance (text.drop index) ≤ 0) :
    scanBack text.reverse 0 0 = none := by
  have passed := scanBack_closed 0 closed [] 0
  rw [List.append_nil] at passed
  exact passed

/-- The scan stops at the parenthesis that is open behind a text. -/
theorem scanBack_open {behind : List Char} (closed : ∀ index, balance (behind.drop index) ≤ 0)
    (level : balance behind = 0) (front : List Char) :
    scanBack (front ++ '(' :: behind).reverse 0 0 = some (front.length, commasAt 0 behind) := by
  have passed := scanBack_closed 0 closed ('(' :: front.reverse) 0
  rw [level, Nat.zero_add] at passed
  rw [List.reverse_append, List.reverse_cons, List.append_assoc, List.singleton_append, passed]
  exact congrArg (fun length => some (length, commasAt 0 behind)) List.length_reverse

/-- The parenthesis at which a text opens a call that it does not close. -/
def IsInnermost (text : List Char) (index : Nat) : Prop :=
  IsGreatest {index | 0 < balance (text.drop index)} index

/-- A text opens a call exactly if from somewhere on it opens more than it closes. -/
theorem exists_isInnermost_iff {text : List Char} :
    (∃ index, IsInnermost text index) ↔ ∃ index, 0 < balance (text.drop index) := by
  constructor
  · rintro ⟨index, opened, _⟩
    exact ⟨index, opened⟩
  · rintro ⟨index, opened⟩
    -- Beyond the end of the text nothing is opened.
    have bounded : ∀ later, 0 < balance (text.drop later) → later ≤ text.length := by
      intro later more
      by_contra beyond
      rw [List.drop_of_length_le (Nat.le_of_not_le beyond)] at more
      exact absurd more (by decide)
    refine ⟨Nat.findGreatest (fun later => 0 < balance (text.drop later)) text.length, ?_, ?_⟩
    · exact Nat.findGreatest_spec (P := fun later => 0 < balance (text.drop later))
        (bounded index opened) opened
    · intro later more
      exact Nat.le_findGreatest (bounded later more) more

/-- What a text is around the parenthesis at which it opens a call. -/
theorem IsInnermost.split {text : List Char} {index : Nat} (innermost : IsInnermost text index) :
    text = text.take index ++ '(' :: text.drop (index + 1) ∧ index < text.length ∧
      balance (text.drop (index + 1)) = 0 ∧
      ∀ later, balance ((text.drop (index + 1)).drop later) ≤ 0 := by
  obtain ⟨opened, last⟩ := innermost
  have opened : 0 < balance (text.drop index) := opened
  have closed : ∀ later, index < later → balance (text.drop later) ≤ 0 := by
    intro later behind
    by_contra more
    exact absurd (last (Int.not_le.mp more)) (Nat.not_le.mpr behind)
  have inside : index < text.length := by
    by_contra beyond
    rw [List.drop_of_length_le (Nat.le_of_not_lt beyond)] at opened
    exact absurd opened (by decide)
  have next := closed (index + 1) (Nat.lt_succ_self index)
  have parted := List.drop_eq_getElem_cons inside
  -- The one character more opens what is not closed behind it.
  rw [parted, balance_cons] at opened
  have opening : text[index] = '(' := by
    by_contra other
    rw [if_neg other] at opened
    split at opened <;> omega
  rw [opening, if_pos rfl] at opened
  rw [opening] at parted
  refine ⟨?_, inside, by omega, ?_⟩
  · rw [← parted, List.take_append_drop]
  · intro later
    rw [List.drop_drop]
    exact closed _ (by omega)

/-- A call is open at a parenthesis. -/
theorem IsInnermost.parenthesis {text : List Char} {index : Nat}
    (innermost : IsInnermost text index) : text[index]? = some '(' := by
  obtain ⟨split, inside, _⟩ := innermost.split
  have size : (text.take index).length = index := List.length_take_of_le (Nat.le_of_lt inside)
  calc
    text[index]? = (text.take index ++ '(' :: text.drop (index + 1))[index]? := by rw [← split]
    _ = some '(' := by
      rw [List.getElem?_append_right (Nat.le_of_eq size), size, Nat.sub_self]
      rfl

/-- The scan of a text finds the parenthesis at which a call is open, and the commas behind it that
are closed off by no parenthesis. -/
theorem scanBack_eq_some_iff {text : List Char} {index commas : Nat} :
    scanBack text.reverse 0 0 = some (index, commas) ↔
      IsInnermost text index ∧ commas = commasAt 0 (text.drop (index + 1)) := by
  have found : ∀ index, IsInnermost text index →
      scanBack text.reverse 0 0 = some (index, commasAt 0 (text.drop (index + 1))) := by
    intro index innermost
    obtain ⟨split, inside, level, closed⟩ := innermost.split
    have opened := scanBack_open closed level (text.take index)
    rwa [← split, List.length_take_of_le (Nat.le_of_lt inside)] at opened
  constructor
  · intro scanned
    by_cases some : ∃ index, 0 < balance (text.drop index)
    · obtain ⟨other, innermost⟩ := exists_isInnermost_iff.mpr some
      have same := Option.some.inj ((found other innermost).symm.trans scanned)
      obtain ⟨rfl, rfl⟩ := Prod.mk.inj same
      exact ⟨innermost, rfl⟩
    · push Not at some
      rw [scanBack_eq_none some] at scanned
      cases scanned
  · rintro ⟨innermost, rfl⟩
    exact found index innermost

/-- The commas of a text from some place on are those of the whole text that stand there. -/
theorem commasAt_drop (text : List Char) (start : Nat) :
    commasAt 0 (text.drop start) = (List.range text.length).countP fun index =>
      start ≤ index ∧ text[index]? = some ',' ∧ balance (text.drop index) = 0 := by
  unfold commasAt
  rcases Nat.lt_or_ge text.length start with beyond | inside
  · rw [List.length_drop, Nat.sub_eq_zero_of_le (Nat.le_of_lt beyond)]
    symm
    rw [List.range_zero, List.countP_nil, List.countP_eq_zero]
    intro index member
    have small := List.mem_range.mp member
    simp
    omega
  · obtain ⟨length, size⟩ := Nat.exists_eq_add_of_le inside
    have none : (List.range start).countP (fun index =>
        start ≤ index ∧ text[index]? = some ',' ∧ balance (text.drop index) = 0) = 0 := by
      rw [List.countP_eq_zero]
      intro index member
      have small := List.mem_range.mp member
      simp
      omega
    rw [List.length_drop, size, Nat.add_sub_cancel_left, List.range_add, List.countP_append, none,
      Nat.zero_add, List.countP_map]
    apply List.countP_congr
    intro index _
    simp [List.getElem?_drop, List.drop_drop]

/-- How a counter leaves the range of 32 bits. -/
inductive CounterFault
  | underflow
  | overflow
  deriving DecidableEq, Repr

/-- Counts one more. -/
def increment (counter : UInt32) : Except CounterFault UInt32 :=
  if counter.toNat + 1 < UInt32.size then .ok (counter + 1) else .error .overflow

/-- Counts one less. -/
def decrement (counter : UInt32) : Except CounterFault UInt32 :=
  if counter = 0 then .error .underflow else .ok (counter - 1)

/-- The scan with counters of 32 bits, each of which may fail to be changed. -/
def scanBackCounted : List Char → (depth commas : UInt32) →
    Except CounterFault (Option (Nat × UInt32))
  | [], _, _ => .ok none
  | char :: before, depth, commas =>
    if char = '(' then
      if depth = 0 then .ok (some (before.length, commas))
      else (decrement depth).bind fun depth => scanBackCounted before depth commas
    else if char = ')' then (increment depth).bind fun depth => scanBackCounted before depth commas
    else if char = ',' ∧ depth = 0 then
      (increment commas).bind fun commas => scanBackCounted before depth commas
    else scanBackCounted before depth commas

/-- A count that fits in 32 bits is counted. -/
theorem increment_eq (counter : UInt32) (room : counter.toNat + 1 < UInt32.size) :
    increment counter = .ok (counter + 1) ∧ (counter + 1).toNat = counter.toNat + 1 := by
  refine ⟨if_pos room, ?_⟩
  have one : (1 : UInt32).toNat = 1 := rfl
  rw [UInt32.toNat_add, one]
  exact Nat.mod_eq_of_lt room

/-- A count of something can be taken back. -/
theorem decrement_eq {counter : UInt32} (positive : counter ≠ 0) :
    decrement counter = .ok (counter - 1) ∧ (counter - 1).toNat + 1 = counter.toNat := by
  refine ⟨if_neg positive, ?_⟩
  have one : (1 : UInt32).toNat = 1 := rfl
  have some : counter.toNat ≠ 0 := fun none => positive (UInt32.toNat_inj.mp none)
  have least : 1 ≤ counter := UInt32.le_iff_toNat_le.mpr (Nat.one_le_iff_ne_zero.mpr some)
  rw [UInt32.toNat_sub_of_le _ _ least, one]
  omega

/-- The scan with counters of 32 bits is the scan, as long as there are fewer characters. -/
theorem scanBackCounted_eq {text : List Char} {depth commas : UInt32}
    (depths : depth.toNat + text.length < UInt32.size)
    (counts : commas.toNat + text.length < UInt32.size) :
    ∃ found, scanBackCounted text depth commas = .ok found ∧
      found.map (fun place => (place.1, place.2.toNat)) =
        scanBack text depth.toNat commas.toNat := by
  induction text generalizing depth commas with
  | nil => exact ⟨none, rfl, rfl⟩
  | cons char before ih =>
    rw [List.length_cons] at depths counts
    unfold scanBackCounted
    by_cases opening : char = '('
    · subst opening
      rw [if_pos rfl]
      by_cases bottom : depth = 0
      · subst bottom
        exact ⟨_, if_pos rfl, rfl⟩
      · obtain ⟨counted, less⟩ := decrement_eq bottom
        obtain ⟨found, same, scanned⟩ := @ih (depth - 1) commas (by omega) (by omega)
        rw [if_neg bottom, counted, ← less]
        exact ⟨found, same, scanned⟩
    · rw [if_neg opening]
      by_cases closing : char = ')'
      · subst closing
        obtain ⟨counted, more⟩ := increment_eq depth (by omega)
        obtain ⟨found, same, scanned⟩ := @ih (depth + 1) commas (by omega) (by omega)
        rw [more] at scanned
        rw [if_pos rfl, counted]
        exact ⟨found, same, scanned⟩
      · rw [if_neg closing]
        by_cases comma : char = ','
        · subst comma
          rw [scanBack_comma]
          by_cases bottom : depth = 0
          · subst bottom
            obtain ⟨counted, more⟩ := increment_eq commas (by omega)
            obtain ⟨found, same, scanned⟩ := @ih 0 (commas + 1) (by omega) (by omega)
            rw [more] at scanned
            rw [if_pos ⟨rfl, rfl⟩, counted]
            exact ⟨found, same, scanned⟩
          · have some : depth.toNat ≠ 0 := fun none => bottom (UInt32.toNat_inj.mp none)
            rw [if_neg fun both => bottom both.2, if_neg some]
            exact ih (by omega) (by omega)
        · rw [if_neg fun both => comma both.1, scanBack_other opening closing comma]
          exact ih (by omega) (by omega)

/-- A call is the innermost one of a text on some line: it begins at the last place from which on
more parentheses are opened than closed, and counts the commas behind it from which on as many are
opened as closed. -/
structure Innermost (text : List Char) (line : UInt32) (call : OpenCall) : Prop where
  line : call.parenthesis.line = line
  place : IsInnermost text call.parenthesis.character.toNat
  parenthesis : text[call.parenthesis.character.toNat]? = some '('
  commas : call.commas = (List.range text.length).countP fun index =>
    call.parenthesis.character.toNat < index ∧ text[index]? = some ',' ∧
      balance (text.drop index) = 0

end OpenCall

namespace Document

open OpenCall

variable {document : Document} {position : Position}

/-- The call at a position is what the scan of its line finds in front of it. -/
theorem enclosingCall?_eq_some {call : OpenCall} :
    document.enclosingCall? position = some call ↔
      ∃ line ∈ document.line? position.line, ∃ index commas,
        scanBack (line.take position.character.toNat).reverse 0 0 = some (index, commas) ∧
          call = ⟨⟨position.line, index.toUInt32⟩, commas⟩ := by
  unfold enclosingCall?
  simp only [Option.bind_eq_bind, Option.bind_eq_some_iff, Option.mem_def, Prod.exists]
  constructor
  · rintro ⟨line, there, index, commas, scanned, made⟩
    exact ⟨line, there, index, commas, scanned, (Option.some.inj made).symm⟩
  · rintro ⟨line, there, index, commas, scanned, rfl⟩
    exact ⟨line, there, index, commas, scanned, rfl⟩

/-- A column in front of a position is kept as it is. -/
theorem toNat_toUInt32_of_lt {line : List Char} {index : Nat}
    (inside : index < (line.take position.character.toNat).length) :
    index.toUInt32.toNat = index := by
  apply UInt32.toNat_ofNat_of_lt
  calc
    index < (line.take position.character.toNat).length := inside
    _ ≤ position.character.toNat := List.length_take_le ..
    _ < UInt32.size := position.character.toNat_lt

/-- The scan finds the innermost call of what is in front of a position. -/
theorem enclosingCall?_eq_some_iff {call : OpenCall} :
    document.enclosingCall? position = some call ↔ ∃ line ∈ document.line? position.line,
      Innermost (line.take position.character.toNat) position.line call := by
  rw [enclosingCall?_eq_some]
  constructor
  · rintro ⟨line, there, index, commas, scanned, rfl⟩
    obtain ⟨innermost, counted⟩ := scanBack_eq_some_iff.mp scanned
    obtain ⟨-, inside, -⟩ := innermost.split
    have same := toNat_toUInt32_of_lt inside
    refine ⟨line, there, rfl, ?_, ?_, ?_⟩
    · rw [same]
      exact innermost
    · rw [same]
      exact innermost.parenthesis
    · rw [same, counted, commasAt_drop]
      rfl
  · rintro ⟨line, there, sameLine, innermost, -, counted⟩
    refine ⟨line, there, call.parenthesis.character.toNat, call.commas, ?_, ?_⟩
    · apply scanBack_eq_some_iff.mpr
      refine ⟨innermost, ?_⟩
      rw [counted, commasAt_drop]
      rfl
    · have same : call.parenthesis.character.toNat.toUInt32 = call.parenthesis.character :=
        UInt32.ofNat_toNat
      rw [same, ← sameLine]

/-- The call around a position is the innermost one of what stands in front of it on its line. There
is none exactly if the line is not there or nowhere in front of the position more parentheses are
opened than closed from there on. No counter of the scan leaves its range, neither below zero nor
beyond 32 bits, whatever the parentheses. -/
theorem enclosing_call_is_innermost (document : Document) (position : Position) :
    (∀ call, document.enclosingCall? position = some call ↔
      ∃ line ∈ document.line? position.line,
        Innermost (line.take position.character.toNat) position.line call) ∧
    (document.enclosingCall? position = none ↔ ∀ line ∈ document.line? position.line,
      ∀ index, balance ((line.take position.character.toNat).drop index) ≤ 0) ∧
    ∀ line : List Char, ∃ found,
      scanBackCounted (line.take position.character.toNat).reverse 0 0 = .ok found ∧
        found.map (fun place => (place.1, place.2.toNat)) =
          scanBack (line.take position.character.toNat).reverse 0 0 := by
  refine ⟨fun call => enclosingCall?_eq_some_iff, ?_, ?_⟩
  · constructor
    · intro none line there index
      by_contra more
      obtain ⟨place, innermost⟩ := exists_isInnermost_iff.mpr ⟨index, Int.not_le.mp more⟩
      have scanned := scanBack_eq_some_iff.mpr ⟨innermost, rfl⟩
      have some := enclosingCall?_eq_some.mpr ⟨line, there, place, _, scanned, rfl⟩
      rw [none] at some
      cases some
    · intro closed
      rw [Option.eq_none_iff_forall_ne_some]
      intro call some
      obtain ⟨line, there, innermost⟩ := enclosingCall?_eq_some_iff.mp some
      exact absurd (closed line there _) (Int.not_le.mpr innermost.place.1)
  · intro line
    have room : (line.take position.character.toNat).reverse.length < UInt32.size := by
      rw [List.length_reverse]
      exact Nat.lt_of_le_of_lt (List.length_take_le ..) position.character.toNat_lt
    exact scanBackCounted_eq (by simpa using room) (by simpa using room)

end Document

end FlowService
