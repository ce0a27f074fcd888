import FlowService.Checker.Invocation

/-!
A shell takes the command line that is shown apart into the program's name and the arguments: what is
quoted is taken as it stands, and what is not quoted means nothing else to a shell.
-/

namespace FlowService

namespace Shell

/-- Where a shell is in a line, with what it has read of the word that it is in. -/
inductive Place
  | between
  | bare (word : List Char)
  | quoted (word : List Char)
  /-- Behind a backslash. -/
  | escaped (word : List Char)
  deriving DecidableEq, Repr

/-- The characters that separate words. -/
def blanks : List Char := [' ', '\t']

/-- The characters that may mean something else to a shell when they are not quoted: they end or join
commands, redirect them, begin a comment or other quotes, or are expanded. -/
def specials : List Char :=
  ['\n', '|', '&', ';', '<', '>', '(', ')', '$', '\x60', '"', '*', '?', '[', ']', '#', '~', '%', '!',
    '^', ',', '\x7b', '\x7d']

/-- Where a character that is no blank leads from outside of quotes; nowhere if it is refused. -/
def enter? (refused : Char → Bool) (word : List Char) (char : Char) : Option Place :=
  if char = '\'' then some (.quoted word)
  else if char = '\\' then some (.escaped word)
  else if refused char then none
  else some (.bare (word ++ [char]))

/-- Splits the rest of a line into words. Blanks separate them, what is between single quotes and
what is behind a backslash is taken as it stands, and so is everything else that is not refused. -/
def words? (refused : Char → Bool) : Place → List Char → Option (List (List Char))
  | .between, [] => some []
  | .bare word, [] => some [word]
  -- A line ends neither within quotes nor behind a backslash.
  | .quoted _, [] => none
  | .escaped _, [] => none
  | .between, char :: rest =>
    if char ∈ blanks then words? refused .between rest
    else (enter? refused [] char).bind fun place => words? refused place rest
  | .bare word, char :: rest =>
    if char ∈ blanks then (words? refused .between rest).map (word :: ·)
    else (enter? refused word char).bind fun place => words? refused place rest
  | .quoted word, char :: rest =>
    if char = '\'' then words? refused (.bare word) rest
    else words? refused (.quoted (word ++ [char])) rest
  | .escaped word, char :: rest => words? refused (.bare (word ++ [char])) rest

/-- Splits a line into words by the rules of quoting; none when a quote is not closed or a character
that is refused stands outside of quotes. -/
def split? (refused : Char → Bool) (line : String) : Option (List String) :=
  (words? refused .between line.toList).map fun words => words.map String.ofList

end Shell

namespace CommandLine

open Shell

/-- Nothing that means something to a shell is a plain character. -/
theorem isPlain_eq_false {char : Char} (special : char ∈ blanks ++ specials ++ ['\'', '\\']) :
    isPlain char = false := by
  have refused : (blanks ++ specials ++ ['\'', '\\']).all (!isPlain ·) := by decide
  simpa using List.all_eq_true.mp refused char special

/-- A plain character is none that means something to a shell. -/
theorem not_mem_of_isPlain {char : Char} (plain : isPlain char) :
    char ∉ blanks ∧ char ∉ specials ∧ char ≠ '\'' ∧ char ≠ '\\' := by
  have outside : char ∉ blanks ++ specials ++ ['\'', '\\'] := by
    intro member
    rw [isPlain_eq_false member] at plain
    cases plain
  simpa [not_or, and_assoc] using outside

/-- Within quotes, an escaped text adds to the word and the quote behind it ends them. -/
theorem words?_quoted (refused : Char → Bool) (text word rest : List Char) :
    words? refused (.quoted word) (text.flatMap escape ++ '\'' :: rest) =
      words? refused (.bare (word ++ text)) rest := by
  induction text generalizing word with
  | nil => simp [words?]
  | cons char later ih =>
    rw [List.flatMap_cons, List.append_assoc]
    by_cases quote : char = '\''
    · -- The quotes are left, a quote is read behind a backslash, and they are entered again.
      subst quote
      let tail := later.flatMap escape ++ '\'' :: rest
      calc
        words? refused (.quoted word) (escape '\'' ++ tail)
        _ = words? refused (.bare word) ('\\' :: '\'' :: '\'' :: tail) := rfl
        _ = words? refused (.escaped word) ('\'' :: '\'' :: tail) := rfl
        _ = words? refused (.bare (word ++ ['\''])) ('\'' :: tail) := rfl
        _ = words? refused (.quoted (word ++ ['\''])) tail := rfl
        _ = words? refused (.bare (word ++ '\'' :: later)) rest := by
          rw [ih, List.append_assoc, List.singleton_append]
    · rw [escape, if_neg quote, List.singleton_append, words?, if_neg quote, ih, List.append_assoc,
        List.singleton_append]

variable {refused : Char → Bool} (allowed : ∀ char, isPlain char → refused char = false)
include allowed

/-- A plain character adds to the word that it is read in. -/
theorem enter?_plain {char : Char} (plain : isPlain char) (word : List Char) :
    enter? refused word char = some (.bare (word ++ [char])) := by
  obtain ⟨-, -, quote, backslash⟩ := not_mem_of_isPlain plain
  have kept : ¬refused char = true := by simp [allowed char plain]
  rw [enter?, if_neg quote, if_neg backslash, if_neg kept]

/-- Plain characters add to the word that they are read in. -/
theorem words?_plain {text : List Char} (plain : ∀ char ∈ text, isPlain char) (word rest : List Char) :
    words? refused (.bare word) (text ++ rest) = words? refused (.bare (word ++ text)) rest := by
  induction text generalizing word with
  | nil => rw [List.nil_append, List.append_nil]
  | cons char later ih =>
    have first := plain char List.mem_cons_self
    have others := ih (fun other member => plain other (List.mem_cons_of_mem _ member))
    rw [List.cons_append, words?, if_neg (not_mem_of_isPlain first).1, enter?_plain allowed first,
      Option.bind_some, others, List.append_assoc, List.singleton_append]

/-- Between words, plain characters begin one. -/
theorem words?_between {text : List Char} (plain : ∀ char ∈ text, isPlain char)
    (nonempty : text ≠ []) (rest : List Char) :
    words? refused .between (text ++ rest) = words? refused (.bare text) rest := by
  obtain ⟨char, later, rfl⟩ := List.exists_cons_of_ne_nil nonempty
  have first := plain char List.mem_cons_self
  have others : ∀ other ∈ later, isPlain other :=
    fun other member => plain other (List.mem_cons_of_mem _ member)
  rw [List.cons_append, words?, if_neg (not_mem_of_isPlain first).1, enter?_plain allowed first,
    Option.bind_some, List.nil_append, words?_plain allowed others, List.singleton_append]

/-- An argument as it is shown is read as the argument. -/
theorem words?_word (argument rest : List Char) :
    words? refused .between (word argument ++ rest) = words? refused (.bare argument) rest := by
  unfold word
  split
  · rename_i plain
    simp only [Bool.and_eq_true, List.all_eq_true, Bool.not_eq_true', List.isEmpty_eq_false_iff]
      at plain
    exact words?_between allowed plain.1 plain.2 rest
  · -- The quotes begin a word, which may stay empty.
    have quoted := words?_quoted refused argument [] rest
    rw [List.nil_append] at quoted
    rw [← quoted, quote, List.cons_append, List.append_assoc, List.singleton_append]
    rfl

/-- Behind a word, the arguments as they are shown are read as one word each. -/
theorem words?_arguments (arguments : List String) (first : List Char) :
    words? refused (.bare first) (arguments.flatMap fun argument => ' ' :: word argument.toList) =
      some (first :: arguments.map String.toList) := by
  induction arguments generalizing first with
  | nil => rfl
  | cons argument later ih =>
    let tail := later.flatMap fun argument => ' ' :: word argument.toList
    calc
      words? refused (.bare first) (' ' :: word argument.toList ++ tail)
      _ = (words? refused .between (word argument.toList ++ tail)).map (first :: ·) := rfl
      _ = (words? refused (.bare argument.toList) tail).map (first :: ·) := by
        rw [words?_word allowed]
      _ = some (first :: argument.toList :: later.map String.toList) := by
        rw [ih]
        rfl

/-- A command line is read as the program's name and the arguments. -/
theorem split?_text (arguments : List String) :
    split? refused (text arguments) = some ("flow" :: arguments) := by
  have name : program.all isPlain := by decide
  have words : words? refused .between (characters arguments) =
      some (program :: arguments.map String.toList) := by
    rw [characters, words?_between allowed (List.all_eq_true.mp name) (by decide), words?_arguments allowed]
  have back : (arguments.map String.toList).map String.ofList = arguments := by
    rw [List.map_map]
    exact List.map_id'' (fun argument => String.ofList_toList) arguments
  unfold split? text
  rw [String.toList_ofList, words, Option.map_some, List.map_cons, back]
  rfl

example : text ["it's", "", "a.js"] = "flow 'it'\\''s' '' a.js" := by decide +kernel

end CommandLine

namespace Invocation

open Shell

/-- A shell splits the command line that is shown into the program's name and the arguments, and does
so too if it refuses all that could mean something else outside of quotes. So two invocations are
shown in the same way only if their arguments are the same. -/
theorem command_line_splits_into_arguments (invocation other : Invocation) :
    split? (fun _ => false) invocation.commandLine = some ("flow" :: invocation.arguments) ∧
      split? specials.contains invocation.commandLine = some ("flow" :: invocation.arguments) ∧
      (invocation.commandLine = other.commandLine ↔ invocation.arguments = other.arguments) := by
  have read : ∀ invocation : Invocation, split? (fun _ => false) invocation.commandLine =
      some ("flow" :: invocation.arguments) :=
    fun invocation => CommandLine.split?_text (fun _ _ => rfl) invocation.arguments
  refine ⟨read invocation, ?_, ?_⟩
  · apply CommandLine.split?_text
    intro char plain
    show specials.contains char = false
    simpa using (CommandLine.not_mem_of_isPlain plain).2.1
  · constructor
    · intro same
      have words := read invocation
      rw [same, read other] at words
      exact (List.cons.inj (Option.some.inj words)).2.symm
    · exact congrArg CommandLine.text

end Invocation

end FlowService
