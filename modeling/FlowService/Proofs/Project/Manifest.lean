import FlowService.Project.Manifest
import FlowService.Proofs.Json.Printing
import FlowService.Proofs.Json.Keys

/-!
A text is a manifest when it tells the version of a package at most once, and as a text. A printed
object is a manifest unless its version is something else.
-/

namespace FlowService.Manifest

open Json

/-- The keys of some members are texts, none of which is that of the version. -/
def Silent (members : List (List Piece × Written)) : Prop :=
  ∀ member ∈ members, ∃ key, Written.text? member.1 = some key ∧ key ≠ "version"

/-- Among some members the version is told once, or not at all. -/
inductive TellsAmong : List (List Piece × Written) → Option String → Prop
  | nowhere {members : List (List Piece × Written)} (silent : Silent members) :
    TellsAmong members none
  | once {before after : List (List Piece × Written)} {key pieces : List Piece} {version : String}
    (earlier : Silent before) (named : Written.text? key = some "version")
    (spelled : Written.text? pieces = some version) (later : Silent after) :
    TellsAmong (before ++ (key, .string pieces) :: after) (some version)

/-- A written value tells a version, which is empty when it is left out. -/
inductive Tells : Written → String → Prop
  | object {members : List (List Piece × Written)} {version? : Option String}
    (among : TellsAmong members version?) : Tells (.object members) (version?.getD "")
  | empty : Tells (.array []) ""
  | alone {pieces : List Piece} {version : String}
    (spelled : Written.text? pieces = some version) : Tells (.array [.string pieces]) version

/-- A text is a manifest that gives a version. -/
def Gives (text version : String) : Prop :=
  ∃ written, Written.ofText? text = some written ∧ Tells written version

variable {members before after : List (List Piece × Written)} {found result : Option String}
variable {version : String}

/-- A version is a text. -/
theorem versionOf?_eq_some_iff {value : Written} :
    versionOf? value = some version ↔
      ∃ pieces, value = .string pieces ∧ Written.text? pieces = some version := by
  cases value <;> simp [versionOf?]

/-- A member with another key is passed. -/
theorem versionAmong?_cons_of_ne {member : List Piece × Written} {key : String}
    (named : Written.text? member.1 = some key) (other : key ≠ "version") :
    versionAmong? found (member :: members) = versionAmong? found members := by
  obtain ⟨pieces, value⟩ := member
  dsimp only at named
  cases found <;> simp [versionAmong?, named, other]

/-- The first member with the key of the version tells it, if its value does. -/
theorem versionAmong?_cons_version {key : List Piece} {value : Written}
    (named : Written.text? key = some "version") :
    versionAmong? none ((key, value) :: members) =
      (versionOf? value).bind fun version => versionAmong? (some version) members := by
  simp [versionAmong?, named]

/-- Members that are silent about the version are passed. -/
theorem Silent.versionAmong?_append (silent : Silent before) :
    versionAmong? found (before ++ after) = versionAmong? found after := by
  induction before with
  | nil => rfl
  | cons member later ih =>
    obtain ⟨⟨key, named, other⟩, rest⟩ := List.forall_mem_cons.mp silent
    rw [List.cons_append, versionAmong?_cons_of_ne named other, ih rest]

/-- Behind a version that was told, only members that are silent about it are read. -/
theorem versionAmong?_some_iff :
    versionAmong? (some version) members = some result ↔
      Silent members ∧ result = some version := by
  -- A member is passed, or it puts an end to the reading, since the version was told before.
  induction members with
  | nil => simp [versionAmong?, Silent, eq_comm]
  | cons member later ih =>
    obtain ⟨key, value⟩ := member
    rw [versionAmong?]
    cases named : Written.text? key with
    | none => simp [Silent, named]
    | some name =>
      by_cases again : name = "version"
      · simp [Silent, named, again]
      · simpa [Silent, named, again] using ih

/-- A member that is silent about the version tells nothing else. -/
theorem TellsAmong.cons {member : List Piece × Written} {key : String}
    (named : Written.text? member.1 = some key) (other : key ≠ "version")
    (tells : TellsAmong members result) : TellsAmong (member :: members) result := by
  have passed {rest : List (List Piece × Written)} (silent : Silent rest) :
      Silent (member :: rest) :=
    List.forall_mem_cons.mpr ⟨⟨key, named, other⟩, silent⟩
  -- Wherever the version is told, the member joins those in front of it.
  cases tells with
  | nowhere silent => exact .nowhere (passed silent)
  | once earlier told spelled later => exact .once (passed earlier) told spelled later

/-- What is read among members is told there. -/
theorem tellsAmong_of_versionAmong? (read : versionAmong? none members = some result) :
    TellsAmong members result := by
  induction members with
  | nil =>
    obtain rfl := Option.some.inj read
    exact .nowhere (List.forall_mem_nil _)
  | cons member later ih =>
    obtain ⟨key, value⟩ := member
    obtain ⟨name, named, -⟩ := Option.bind_eq_some_iff.mp read
    by_cases here : name = "version"
    · -- The version is told here, so the members behind it are silent.
      subst here
      rw [versionAmong?_cons_version named] at read
      obtain ⟨version, told, behind⟩ := Option.bind_eq_some_iff.mp read
      obtain ⟨pieces, rfl, spelled⟩ := versionOf?_eq_some_iff.mp told
      obtain ⟨silent, rfl⟩ := versionAmong?_some_iff.mp behind
      exact .once (List.forall_mem_nil _) named spelled silent
    · rw [versionAmong?_cons_of_ne named here] at read
      exact .cons named here (ih read)

/-- What is told among members is read there. -/
theorem TellsAmong.versionAmong?_eq (tells : TellsAmong members result) :
    versionAmong? none members = some result := by
  cases tells with
  | nowhere silent =>
    have passed : versionAmong? none (members ++ []) = some none := silent.versionAmong?_append
    rwa [List.append_nil] at passed
  | once earlier named spelled later =>
    rw [earlier.versionAmong?_append, versionAmong?_cons_version named,
      versionOf?_eq_some_iff.mpr ⟨_, rfl, spelled⟩]
    exact versionAmong?_some_iff.mpr ⟨later, rfl⟩

/-- The version that is read is the one that the manifest gives. -/
theorem version?_eq_some_iff {text : String} :
    version? text = some version ↔ Gives text version := by
  constructor
  · intro read
    obtain ⟨written, spelled, read⟩ := Option.bind_eq_some_iff.mp read
    refine ⟨written, spelled, ?_⟩
    -- Each form of a manifest that is read is one that tells a version.
    split at read
    case h_1 members =>
      obtain ⟨found, among, rfl⟩ := Option.map_eq_some_iff.mp read
      exact .object (tellsAmong_of_versionAmong? among)
    case h_2 =>
      obtain rfl := Option.some.inj read
      exact .empty
    case h_3 value =>
      obtain ⟨pieces, rfl, told⟩ := versionOf?_eq_some_iff.mp read
      exact .alone told
    case h_4 => cases read
  · rintro ⟨written, spelled, tells⟩
    cases tells with
    | object among => simp [version?, spelled, among.versionAmong?_eq]
    | empty => simp [version?, spelled]
    | alone told => simp [version?, spelled, versionOf?, told]

/-- No version is read from a text that is not a manifest. -/
theorem version?_eq_none_iff {text : String} :
    version? text = none ↔ ∀ version, ¬Gives text version := by
  simp only [Option.eq_none_iff_forall_ne_some, ne_eq, version?_eq_some_iff]

/-- A written value is a version when it means a text. -/
theorem versionOf?_of_meaning? {depth : Nat} {written : Written} {value : Json}
    (meant : written.meaning? depth = some value) : versionOf? written = value.text? := by
  -- Nothing but a string means a text.
  cases written with
  | null | bool =>
    obtain rfl := Option.some.inj meant
    rfl
  | number numeral =>
    simp only [Written.meaning?, Numeral.value?] at meant
    split at meant
    · obtain rfl := Option.some.inj meant
      rfl
    · obtain ⟨_, _, rfl⟩ := Option.map_eq_some_iff.mp meant
      rfl
  | string pieces =>
    obtain ⟨text, spelled, rfl⟩ := Option.map_eq_some_iff.mp meant
    exact spelled
  | array items | object members =>
    cases depth with
    | zero => cases meant
    | succ depth =>
      obtain ⟨_, _, rfl⟩ := Option.map_eq_some_iff.mp meant
      rfl

/-- Members that were written without the key of the version are silent about it. -/
theorem silent_of_spelled {depth : Nat} {written : List (List Piece × Written)}
    {members : List (String × Json)} (spelled : List.Forall₂ (Spells depth) written members)
    (absent : "version" ∉ members.map (·.1)) : Silent written := by
  induction spelled with
  | nil => exact List.forall_mem_nil _
  | cons spells _ ih =>
    obtain ⟨other, rest⟩ := not_or.mp (List.mem_cons.not.mp absent)
    exact List.forall_mem_cons.mpr ⟨⟨_, spells.key, fun same => other same.symm⟩, ih rest⟩

/-- What an object tells the version to be is read where it is written. -/
theorem versionAmong?_of_spelled {depth : Nat} {written : List (List Piece × Written)}
    {members : List (String × Json)} (spelled : List.Forall₂ (Spells depth) written members)
    (distinct : (members.map (·.1)).Nodup) :
    versionAmong? none written =
      match member? members "version" with
      | none => some none
      | some value => value.text?.map some := by
  induction spelled with
  | nil => rfl
  | @cons first member _ later spells spelled ih =>
    obtain ⟨fresh, others⟩ := List.nodup_cons.mp distinct
    obtain ⟨key, value⟩ := member
    by_cases here : key = "version"
    · subst here
      obtain ⟨pieces, written⟩ := first
      rw [versionAmong?_cons_version spells.key, versionOf?_of_meaning? spells.value,
        member?_cons, if_pos rfl]
      -- No other member has this key, so what is told here stands.
      have kept : ∀ version, versionAmong? (some version) _ = some (some version) :=
        fun version => versionAmong?_some_iff.mpr ⟨silent_of_spelled spelled fresh, rfl⟩
      simp only [kept]
      cases value.text? <;> rfl
    · rw [versionAmong?_cons_of_ne spells.key here, member?_cons, if_neg here, ih others]

/-- A printed object gives its version when that is a text, and the empty one when it has none;
otherwise it is no manifest. -/
theorem version?_pretty {depth : Nat} {members : List (String × Json)}
    (printable : Printable depth (.object members)) :
    version? (Json.object members).pretty =
      match member? members "version" with
      | none => some ""
      | some value => value.text? := by
  cases printable with
  | object distinct each =>
    -- The text is read as an object that is written member by member.
    obtain ⟨tokens, written, reads, spelled⟩ :=
      Readable.objectReads distinct fun member among => (each member among).readable
    have read : Written.ofText? ((Json.object members).pretty ++ "") = some (.object written) :=
      reads.ofText? (by simp [Delimited]) fun done => by simp [Token.readAll?]
    rw [String.append_empty] at read
    simp only [version?, read, Option.bind_eq_bind, Option.bind_some,
      versionAmong?_of_spelled spelled distinct]
    cases member? members "version" with
    | none => rfl
    | some value => simp [Function.comp_def]

end FlowService.Manifest
