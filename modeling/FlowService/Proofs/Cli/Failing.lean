import FlowService.Proofs.Cli.Answers
import FlowService.Proofs.Client.Alone

/-!
A command fails only for a reason that lies in front of the checker: its configuration, its file,
its buffer, or its place. All that comes of the checker is printed.
-/

namespace FlowService

variable {platform : Option String}

/-- A text that is split leaves a stretch. -/
theorem Text.splitAt_ne_nil (mark : Char) (text : List Char) : splitAt mark text ≠ [] := by
  unfold splitAt
  cases text with
  | nil => simp
  | cons char later =>
    rw [List.foldr_cons]
    split
    · simp
    · split <;> simp

/-- Only a text with nothing in it spells the empty path. -/
theorem Path.ofText_ne_empty {text : String} (there : text ≠ "") : ofText text ≠ empty := by
  unfold ofText
  split
  · rename_i nothing
    exact absurd (String.toList_eq_nil_iff.mp nothing) there
  · simp [root, empty]
  · simp [empty]
  · simp [empty, Text.splitAt_ne_nil]

namespace Cli

/-- The file that a command is about. -/
def Command.target : Command → Target
  | .status target => target
  | .buffer target _ => target

/-- The place that a query asks about. -/
def BufferQuery.place? : BufferQuery → Option Place
  | .complete place => some place
  | .hover place => some place
  | .definition place => some place
  | .coverage => none
  | .signature place => some place

namespace Surroundings

/-- The configuration file is there, but it does not hold a configuration. -/
def ConfigBroken (surroundings : Surroundings platform) : Prop :=
  ∃ path, Config.location? surroundings.environment surroundings.accountHome = some path ∧
    surroundings.disk.exists? path ∧
    (surroundings.disk.readText? path).bind Config.ofText? = none

/-- A file is named as seen from a working directory that is gone. -/
def Unresolvable (surroundings : Surroundings platform) (target : Target) : Prop :=
  (Path.ofText target.file).absolute = false ∧
    surroundings.disk.tree.isDirectoryAt surroundings.disk.workingDirectory = false

/-- Where the file of a command stands, seen from the root. -/
def fileOf (surroundings : Surroundings platform) (target : Target) : Path :=
  absolutePath surroundings.disk.workingDirectory (Path.ofText target.file)

/-- What the buffer is read from is there, but it does not hold text. -/
def Unreadable (surroundings : Surroundings platform) (target : Target) : Prop :=
  if target.stdin then Utf8.decode? surroundings.stdin = none
  else surroundings.disk.exists? (surroundings.fileOf target) ∧
    surroundings.disk.readText? (surroundings.fileOf target) = none

/-- A command cannot be turned into a question. -/
inductive Refuses (surroundings : Surroundings platform) : Command → Prop
  | statusFromStdin {target : Target} (stdin : target.stdin) : Refuses surroundings (.status target)
  | unresolvable {command : Command} (lost : surroundings.Unresolvable command.target) :
    Refuses surroundings command
  | unreadable {target : Target} {query : BufferQuery} (garbled : surroundings.Unreadable target) :
    Refuses surroundings (.buffer target query)
  | place {target : Target} {query : BufferQuery} {place : Place}
    (asked : query.place? = some place) (zero : place.line = 0 ∨ place.column = 0) :
    Refuses surroundings (.buffer target query)

end Surroundings

/-- Something failed. -/
def Fails {α : Type} (result : Except Failure α) : Prop := ∃ failure, result = .error failure

namespace Fails

variable {α β : Type}

@[simp] theorem error (failure : Failure) : Fails (.error failure : Except Failure α) :=
  ⟨failure, rfl⟩

@[simp] theorem not_ok (value : α) : ¬Fails (.ok value) := by
  rintro ⟨_, failed⟩
  cases failed

/-- One of two steps fails when the first one does, or the second one behind it. -/
theorem bind_iff {first : Except Failure α} {next : α → Except Failure β} :
    Fails (first >>= next) ↔ Fails first ∨ ∃ value, first = .ok value ∧ Fails (next value) := by
  cases first <;> simp [Bind.bind, Except.bind]

end Fails

/-- The configuration fails to load when its file is there but broken. -/
theorem fails_loadConfig_iff (surroundings : Surroundings platform) :
    Fails (loadConfig surroundings) ↔ surroundings.ConfigBroken := by
  -- A file that is missing cannot be broken: the defaults are taken in its place.
  unfold loadConfig Surroundings.ConfigBroken
  cases Config.location? surroundings.environment surroundings.accountHome with
  | none => simp
  | some path =>
    by_cases there : surroundings.disk.exists? path
    · cases read : surroundings.disk.readText? path with
      | none => simp [Config.load, there, read]
      | some text => cases config : Config.ofText? text <;> simp [Config.load, there, read, config]
    · simp [Config.load, there]

/-- A command line that names no file is not understood. -/
theorem file_ne_empty_of_target? {words : Words} {target : Target} {rest : List String}
    (aimed : target? words = some (target, rest)) : target.file ≠ "" := by
  unfold target? at aimed
  split at aimed
  · cases aimed
  · simp only [Option.ite_none_left_eq_some, not_or, Option.some.injEq, Prod.mk.injEq] at aimed
    obtain ⟨⟨named, -⟩, rfl, -⟩ := aimed
    exact named

/-- The file of a command that was understood has a name. -/
theorem file_ne_empty {arguments : List String} {command : Command}
    (understood : Command.ofArguments? arguments = some command) : command.target.file ≠ "" := by
  unfold Command.ofArguments? at understood
  split at understood
  · cases understood
  · obtain ⟨words, -, understood⟩ := Option.bind_eq_some_iff.mp understood
    obtain ⟨⟨target, rest⟩, aimed, understood⟩ := Option.bind_eq_some_iff.mp understood
    -- Every command takes the file over as it was given.
    have same : command.target = target := by
      dsimp only at understood
      split at understood
      case h_1 | h_2 =>
        obtain ⟨-, made⟩ := Option.ite_none_right_eq_some.mp understood
        cases made
        rfl
      case h_7 => cases understood
      all_goals
        obtain ⟨place, -, rfl⟩ := Option.map_eq_some_iff.mp understood
        rfl
    exact same ▸ file_ne_empty_of_target? aimed

/-- The path of a file that has a name is only lost with the working directory. -/
theorem path_cases (surroundings : Surroundings platform) (target : Target)
    (named : target.file ≠ "") :
    (surroundings.Unresolvable target ∧
        target.path surroundings.disk = .error (.pathUnresolved target.file)) ∨
      ¬surroundings.Unresolvable target ∧
        target.path surroundings.disk = .ok (surroundings.fileOf target) := by
  -- A path that is not empty is absolute already, or it begins in the working directory.
  unfold Target.path absolutePath? Surroundings.Unresolvable
  rw [if_neg (Path.ofText_ne_empty named)]
  cases (Path.ofText target.file).absolute <;>
    cases surroundings.disk.tree.isDirectoryAt surroundings.disk.workingDirectory <;>
    simp [Surroundings.fileOf]

/-- The buffer cannot be had when what it is read from does not hold text. -/
theorem fails_contents_iff (surroundings : Surroundings platform) (target : Target) :
    Fails (contents surroundings target (surroundings.fileOf target)) ↔
      surroundings.Unreadable target := by
  -- A file that is missing reads as empty, so only what is there can fail to be text.
  unfold contents Surroundings.Unreadable
  split
  · cases Utf8.decode? surroundings.stdin <;> simp
  · split
    · rename_i there
      cases surroundings.disk.readText? (surroundings.fileOf target) <;> simp [there]
    · rename_i missing
      simp [missing]

/-- A place is refused when its line or its column is zero. -/
theorem fails_position_iff (place : Place) :
    Fails place.position ↔ place.line = 0 ∨ place.column = 0 := by
  unfold Place.position Position.ofOneBased
  by_cases zero : place.line = 0 ∨ place.column = 0 <;> simp [zero]

/-- A query about a buffer that could be read fails only by its place. -/
theorem fails_query_iff (settings : FeatureSettings) (document : Document) (query : BufferQuery) :
    Fails (query.plan settings document) ↔
      ∃ place, query.place? = some place ∧ (place.line = 0 ∨ place.column = 0) := by
  cases query <;>
    simp [BufferQuery.plan, BufferQuery.place?, Fails.bind_iff, fails_position_iff, pure,
      Except.pure]

/-- A command cannot be planned when it is refused, whatever the settings. -/
theorem fails_plan_iff (surroundings : Surroundings platform) (settings : FeatureSettings)
    {command : Command} (named : command.target.file ≠ "") :
    Fails (command.plan surroundings settings) ↔ surroundings.Refuses command := by
  -- The checks come one after the other, and each that fails is one of the reasons to refuse.
  cases command with
  | status target =>
    by_cases stdin : target.stdin
    · refine iff_of_true ?_ (.statusFromStdin stdin)
      simp [Command.plan, stdin]
    · rcases path_cases surroundings target named with ⟨lost, failed⟩ | ⟨found, resolved⟩
      · refine iff_of_true ?_ (.unresolvable lost)
        simp [Command.plan, stdin, failed]
      · refine iff_of_false ?_ fun refused => ?_
        · simp [Command.plan, stdin, Fails.bind_iff, resolved, pure, Except.pure]
        · cases refused with
          | statusFromStdin also => exact stdin also
          | unresolvable lost => exact found lost
  | buffer target query =>
    rcases path_cases surroundings target named with ⟨lost, failed⟩ | ⟨found, resolved⟩
    · refine iff_of_true ?_ (.unresolvable lost)
      simp [Command.plan, Fails.bind_iff, failed]
    · cases read : contents surroundings target (surroundings.fileOf target) with
      | error failure =>
        have garbled : surroundings.Unreadable target :=
          (fails_contents_iff surroundings target).mp ⟨failure, read⟩
        refine iff_of_true ?_ (.unreadable garbled)
        simp [Command.plan, Fails.bind_iff, resolved, read]
      | ok text =>
        have clear : ¬surroundings.Unreadable target := by
          rw [← fails_contents_iff, read]
          exact Fails.not_ok text
        have same : (Command.buffer target query).plan surroundings settings =
            query.plan settings ⟨surroundings.fileOf target, text⟩ := by
          simp [Command.plan, resolved, read, Bind.bind, Except.bind]
        -- Only the place is left to be checked.
        rw [same, fails_query_iff]
        constructor
        · rintro ⟨place, asked, zero⟩
          exact .place asked zero
        · intro refused
          cases refused with
          | unresolvable lost => exact absurd lost found
          | unreadable garbled => exact absurd garbled clear
          | place asked zero => exact ⟨_, asked, zero⟩

/-- Something stands in the way of a command that has nothing to do with the checker. -/
def Surroundings.Faulty (surroundings : Surroundings platform) (command : Command) : Prop :=
  surroundings.ConfigBroken ∨ surroundings.Refuses command

/-- What a command is to print: what its plan comes to when its question is carried out by
itself. -/
def answer (behaviour : Behaviour) (surroundings : Surroundings platform) (command : Command) :
    Except Failure Json := do
  let config ← loadConfig surroundings
  let plan ← command.plan surroundings config.featureSettings
  return (Session.start surroundings.disk).ownWork (clientOf surroundings config) behaviour plan

/-- What comes out of a plan that is worked out. -/
def outcomeOf (worked : Option Json × Session) : Outcome × Session :=
  match worked with
  | (some value, session) => (.printed (value.pretty ++ "\n"), session)
  | (none, session) => (.waiting, session)

/-- What all results of a plan have in common, the one that it comes to has. -/
theorem ownWork_of_always {α : Type} {holds : α → Prop} {plan : Plan α}
    (always : plan.Always holds) (client : Client platform) (behaviour : Behaviour)
    (session : Session) : holds (session.ownWork client behaviour plan) := by
  cases plan with
  | answer result => exact always
  | ask question read => exact always _

/-- A command that is not faulty is planned and worked out, and a faulty one is left alone. -/
theorem execute_cases (behaviour : Behaviour) (surroundings : Surroundings platform)
    {command : Command} (named : command.target.file ≠ "") :
    (surroundings.Faulty command ∧ ∃ failure, execute behaviour surroundings command =
      (.failed failure, .start surroundings.disk)) ∨
    ¬surroundings.Faulty command ∧ ∃ (client : Client platform) (plan : Plan Json),
      (plan.Always fun value =>
        command.IsAnswer value ∧ Json.Printable Json.Written.depthLimit value) ∧
      answer behaviour surroundings command =
        .ok ((Session.start surroundings.disk).ownWork client behaviour plan) ∧
      execute behaviour surroundings command =
        outcomeOf ((Session.start surroundings.disk).workOut client behaviour plan none) := by
  -- The configuration is loaded first, then the command is planned, and the checker comes last.
  unfold execute answer Surroundings.Faulty
  cases loaded : loadConfig surroundings with
  | error failure =>
    exact Or.inl ⟨.inl ((fails_loadConfig_iff surroundings).mp ⟨failure, loaded⟩), failure, rfl⟩
  | ok config =>
    have whole : ¬surroundings.ConfigBroken := by
      rw [← fails_loadConfig_iff, loaded]
      exact Fails.not_ok config
    have refused := fails_plan_iff surroundings config.featureSettings named
    cases planned : command.plan surroundings config.featureSettings with
    | error failure =>
      exact Or.inl ⟨.inr (refused.mp ⟨failure, planned⟩), failure, by simp only [planned]⟩
    | ok plan =>
      rw [planned] at refused
      have accepted : ¬surroundings.Refuses command :=
        fun refuses => Fails.not_ok plan (refused.mpr refuses)
      refine Or.inr ⟨not_or.mpr ⟨whole, accepted⟩, clientOf surroundings config, plan,
        command.plan_always planned, ?_, ?_⟩
      · simp [planned, Bind.bind, Except.bind, pure, Except.pure]
      · simp only [planned]
        rfl

/-- A command fails just when it is faulty, whatever the checker does. -/
theorem execute_fails_iff (behaviour : Behaviour) (surroundings : Surroundings platform)
    {command : Command} (named : command.target.file ≠ "") :
    (∃ failure, (execute behaviour surroundings command).1 = .failed failure) ↔
      surroundings.Faulty command := by
  -- What is not faulty was planned, and a plan that is worked out is printed or waits.
  rcases execute_cases behaviour surroundings named with
    ⟨faulty, failure, failed⟩ | ⟨right, client, plan, -, -, worked⟩
  · exact iff_of_true ⟨failure, by rw [failed]⟩ faulty
  · refine iff_of_false ?_ right
    rintro ⟨failure, failed⟩
    rw [worked] at failed
    unfold outcomeOf at failed
    split at failed <;> cases failed

/-- A command fails cleanly. Its run ends unless it waits for a checker that is made to wait. Either
it ends well, having printed the one value that it is to print, which is read back from what was
printed, or it fails, having printed nothing and run no checker. It fails just when it is faulty. -/
theorem commands_fail_cleanly (behaviour : Behaviour) (surroundings : Surroundings platform)
    {arguments : List String} {command : Command}
    (understood : Command.ofArguments? arguments = some command) :
    let ran := run behaviour surroundings arguments
    (ran.1.exitCode? = none ↔ ran.2.Waits) ∧ (ran.2.Waits → behaviour.Pauses) ∧
    (¬ran.2.Waits →
      (ran.1.exitCode? = some 0 ∧ ∃ value,
        answer behaviour surroundings.logged command = .ok value ∧
        command.IsAnswer value ∧ ran.1.stdout = value.pretty ++ "\n" ∧
        Json.parse? ran.1.stdout = some value) ∨
      ((∃ code ≠ 0, ran.1.exitCode? = some code) ∧ ran.1.stdout = "" ∧ ran.2.processes = [])) ∧
    ((∃ code ≠ 0, ran.1.exitCode? = some code) ↔ surroundings.logged.Faulty command) := by
  intro ran
  have executed : ran = execute behaviour surroundings.logged command := by
    simp only [ran, run, understood]
  clear_value ran
  rcases execute_cases behaviour surroundings.logged (file_ne_empty understood) with
    ⟨faulty, failure, failed⟩ | ⟨right, client, plan, always, answered, worked⟩
  · -- Nothing was begun in the session of a command that failed.
    have ended : ran = (.failed failure, .start surroundings.logged.disk) := executed.trans failed
    have code : ∃ code ≠ 0, ran.1.exitCode? = some code := ⟨1, by decide, by rw [ended]; rfl⟩
    have idle : ran.2.processes = [] := by rw [ended]; rfl
    have ends : ¬ran.2.Waits := by simp [Session.Waits, idle]
    refine ⟨iff_of_false ?_ ends, fun waits => absurd waits ends,
      fun _ => Or.inr ⟨code, by rw [ended]; rfl, idle⟩, iff_of_true code faulty⟩
    simp [ended, Outcome.exitCode?]
  · obtain ⟨waits, pauses, own⟩ :=
      Session.workOut_or_waits client behaviour surroundings.logged.disk plan
    obtain ⟨answers, printable⟩ := ownWork_of_always always client behaviour
      (.start surroundings.logged.disk)
    rw [worked] at executed
    generalize (Session.start surroundings.logged.disk).workOut client behaviour plan none =
      result at waits pauses own executed
    -- Either something was worked out, which is printed, or it waits.
    rcases result with ⟨_ | value, session⟩
    · obtain rfl : ran = (.waiting, session) := executed
      have waiting : session.Waits := waits.mp rfl
      refine ⟨iff_of_true rfl waiting, pauses, fun ends => absurd waiting ends,
        iff_of_false ?_ right⟩
      simp [Outcome.exitCode?]
    · obtain rfl : ran = (.printed (value.pretty ++ "\n"), session) := executed
      rw [← own value rfl] at answered answers printable
      have ends : ¬session.Waits := by simp [← waits]
      refine ⟨iff_of_false (by simp [Outcome.exitCode?]) ends, pauses, fun _ => Or.inl ⟨rfl, value,
        answered, answers, rfl, Json.parse?_pretty printable⟩, iff_of_false ?_ right⟩
      simp [Outcome.exitCode?]

/-- A checker that tells a type for every place, and that complains about every project. -/
def tellingChecker : Behaviour := fun _ invocation =>
  if invocation.arguments.head? = some "status" then
    ⟨[.readAll, .write .err (Utf8.encode "out of memory\n")], .code 2, false⟩
  else ⟨[.readAll, .write .out (Utf8.encode "\x7b\"type\":\"number\"\x7d")], .code 0, false⟩

/-- A project whose checker is named by the configuration. -/
def projectSurroundings : Surroundings :=
  ⟨⟨⟨[(["home"], .directory), ([".flowide", "home"], .directory),
      (["config.toml", ".flowide", "home"],
        .file ⟨Utf8.encode "[checker]\npath_to_flow = \"/bin/flow\"\n", false, false⟩),
      (["bin"], .directory), (["flow", "bin"], .file ⟨[], true, true⟩),
      (["proj"], .directory),
      (["package.json", "proj"], .file ⟨Utf8.encode "\x7b\x7d", false, false⟩),
      (["a.js", "proj"], .file ⟨Utf8.encode "let x", false, false⟩)]⟩, []⟩,
    ⟨[("HOME", "/home")]⟩, none, []⟩

/-- What the checker tells and what it complains about is printed, nothing is said about a file that
is not there, and a column of number zero is refused before the checker is run. -/
theorem commands_fail_cleanly_project :
    let hovered := run tellingChecker projectSurroundings ["hover", "/proj/a.js", "1", "5"]
    let checked := run tellingChecker projectSurroundings ["status", "/proj/a.js"]
    let covered := run tellingChecker projectSurroundings ["coverage", "/proj/gone.js"]
    let refused := run tellingChecker projectSurroundings ["hover", "/proj/a.js", "1", "0"]
    (hovered.1.stdout = "\x7b\n  \"title\": \"Flow-IDE\",\n" ++
        "  \"language\": \"javascriptreact\",\n  \"value\": \"x: number\"\n\x7d\n" ∧
      hovered.2.processes.length = 1 ∧
      ∃ hover, Json.parse? hovered.1.stdout = some (Json.ofOption Hover.toJson hover)) ∧
    (checked.1.stdout = "\x7b\n  \"status\": \"check_failed\",\n" ++
        "  \"message\": \"flow exited with code 2: out of memory\\n\"\n\x7d\n" ∧
      checked.2.processes.length = 1 ∧
      ∃ update,
        Json.parse? checked.1.stdout = some (Json.ofOption DiagnosticsUpdate.toJson update)) ∧
    (covered.1.stdout = "null\n" ∧ covered.2.processes = [] ∧
      ∃ report, Json.parse? covered.1.stdout = some (Json.ofOption CoverageReport.toJson report)) ∧
    (∃ code ≠ 0, refused.1.exitCode? = some code) ∧ refused.1.stdout = "" ∧
      refused.2.processes = [] := by
  -- Each run is evaluated once, for its outcome and for the number of its processes.
  let told (arguments : List String) : Outcome × Nat :=
    let ran := run tellingChecker projectSurroundings arguments
    (ran.1, ran.2.processes.length)
  have printed {arguments : List String} {command : Command} {text : String} {count : Nat}
      (understood : Command.ofArguments? arguments = some command)
      (ran : told arguments = (.printed text, count)) :
      (run tellingChecker projectSurroundings arguments).1.stdout = text ∧
        (run tellingChecker projectSurroundings arguments).2.processes.length = count ∧
        ∃ value, command.IsAnswer value ∧
          Json.parse? (run tellingChecker projectSurroundings arguments).1.stdout = some value := by
    obtain ⟨outcome, counted⟩ := Prod.mk.inj ran
    obtain ⟨ended, -, cleanly, -⟩ :=
      commands_fail_cleanly tellingChecker projectSurroundings understood
    rw [outcome] at ended cleanly ⊢
    refine ⟨rfl, counted, ?_⟩
    rcases cleanly (by simp [← ended, Outcome.exitCode?]) with fine | ⟨⟨code, wrong, exited⟩, -⟩
    · obtain ⟨-, value, -, answers, -, read⟩ := fine
      exact ⟨value, answers, read⟩
    · exact absurd (Option.some.inj exited).symm wrong
  dsimp only
  refine ⟨?_, ?_, ?_, ?_⟩
  · refine And.imp_right (And.imp_right ?_) (printed (show
      Command.ofArguments? ["hover", "/proj/a.js", "1", "5"] =
        some (.buffer ⟨"/proj/a.js", false⟩ (.hover ⟨1, 5⟩)) by decide +kernel) (by decide +kernel))
    rintro ⟨_, ⟨hover, rfl⟩, read⟩
    exact ⟨hover, read⟩
  · refine And.imp_right (And.imp_right ?_) (printed (show
      Command.ofArguments? ["status", "/proj/a.js"] =
        some (.status ⟨"/proj/a.js", false⟩) by decide +kernel) (by decide +kernel))
    rintro ⟨_, ⟨update, rfl⟩, read⟩
    exact ⟨update, read⟩
  · refine And.imp_right (And.imp List.length_eq_zero_iff.mp ?_) (printed (show
      Command.ofArguments? ["coverage", "/proj/gone.js"] =
        some (.buffer ⟨"/proj/gone.js", false⟩ .coverage) by decide +kernel) (by decide +kernel))
    rintro ⟨_, ⟨report, rfl⟩, read⟩
    exact ⟨report, read⟩
  · obtain ⟨stopped, -, cleanly, faulty⟩ := commands_fail_cleanly tellingChecker projectSurroundings
      (show Command.ofArguments? ["hover", "/proj/a.js", "1", "0"] =
        some (.buffer ⟨"/proj/a.js", false⟩ (.hover ⟨1, 0⟩)) by decide +kernel)
    -- The column of the place is zero, which is one of the reasons to refuse.
    obtain ⟨number, wrong, exited⟩ := faulty.mpr (.inr (.place rfl (Or.inr rfl)))
    rcases cleanly (by simp [← stopped, exited]) with ⟨fine, -⟩ | failed
    · exact absurd (Option.some.inj (exited.symm.trans fine)) wrong
    · exact failed

/-- A disk with nothing on it, where the configuration is looked for in the directory of the log. -/
def astraySurroundings : Surroundings :=
  ⟨⟨⟨[]⟩, []⟩, ⟨[("FLOWIDE_CONFIG", "/home/.flowide/logs")]⟩, none, []⟩

/-- A command that is not faulty need not end well: it never ends when the checker never does, and
it fails when a directory is made for the log where there was no configuration before. -/
theorem commands_fail_uncleanly :
    let endless : Behaviour := fun _ _ => ⟨[.pause "never"], .code 0, false⟩
    let status : Command := .status ⟨"/proj/a.js", false⟩
    let coverage : Command := .buffer ⟨"/a.js", false⟩ .coverage
    let checked := run endless projectSurroundings ["status", "/proj/a.js"]
    let covered := run endless astraySurroundings ["coverage", "/a.js"]
    (Command.ofArguments? ["status", "/proj/a.js"] = some status ∧
      ¬projectSurroundings.Faulty status ∧ ¬projectSurroundings.logged.Faulty status ∧
      checked.1.exitCode? = none ∧ checked.1.stdout = "" ∧ checked.2.processes.length = 1) ∧
    Command.ofArguments? ["coverage", "/a.js"] = some coverage ∧
      ¬astraySurroundings.Faulty coverage ∧ covered.1.exitCode? = some 1 := by
  intro endless status coverage
  -- A faulty command would have failed before it came to the checker.
  have sound {surroundings : Surroundings} {command : Command} (named : command.target.file ≠ "")
      (code : (execute endless surroundings command).1.exitCode? ≠ some 1) :
      ¬surroundings.Faulty command := by
    rw [← execute_fails_iff endless surroundings named]
    rintro ⟨failure, failed⟩
    exact code (by rw [failed]; rfl)
  dsimp only
  have waits : (fun ran : Outcome × Session => (ran.1, ran.2.processes.length))
      (run endless projectSurroundings ["status", "/proj/a.js"]) = (.waiting, 1) := by
    decide +kernel
  obtain ⟨outcome, started⟩ := Prod.mk.inj waits
  refine ⟨⟨by decide +kernel, sound (by decide) (by decide +kernel),
    sound (by decide) (by decide +kernel), ?_, ?_, started⟩,
    by decide +kernel, sound (by decide) (by decide +kernel), by decide +kernel⟩
  · rw [outcome]
    rfl
  · rw [outcome]
    rfl

end Cli

end FlowService
