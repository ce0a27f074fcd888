import FlowService.Json.Written
import FlowService.Proofs.Json.Records
import Mathlib.Data.List.Nodup

/-!
A member of an object is found by its key. No value that is read from a text has two members with
one key in one object, so it does not matter in what order they are.
-/

namespace FlowService.Json

variable {members before after : List (String × Json)} {name key : String} {value : Json}

/-- The first members are looked through before the others. -/
theorem member?_append (members others : List (String × Json)) (name : String) :
    member? (members ++ others) name = (member? members name).or (member? others name) := by
  unfold member?
  rw [List.find?_append, Option.map_or]

/-- A key without a member is none of those that are listed. -/
theorem member?_eq_none : member? members name = none ↔ name ∉ members.map (·.1) := by
  simp only [member?, Option.map_eq_none_iff, List.find?_eq_none, beq_iff_eq, List.mem_map,
    not_exists, not_and]

/-- The value of a key stands among the members. -/
theorem mem_of_member? (found : member? members name = some value) : (name, value) ∈ members := by
  obtain ⟨entry, located, rfl⟩ := Option.map_eq_some_iff.mp found
  have same : entry.1 = name := by simpa using List.find?_some located
  exact same ▸ List.mem_of_find?_eq_some located

/-- Where no two members have one key, each is found by its key. -/
theorem member?_of_mem (distinct : (members.map (·.1)).Nodup) (member : (name, value) ∈ members) :
    member? members name = some value := by
  cases found : member? members name with
  | none => exact absurd (List.mem_map_of_mem member) (member?_eq_none.mp found)
  | some other =>
    have one := List.inj_on_of_nodup_map distinct (mem_of_member? found) member rfl
    rw [(Prod.mk.inj one).2]

/-- The order of members does not matter where no two have one key. -/
theorem member?_perm {others : List (String × Json)} (distinct : (members.map (·.1)).Nodup)
    (same : members.Perm others) (name : String) : member? members name = member? others name := by
  cases found : member? members name with
  | none =>
    rw [member?_eq_none, (same.map _).mem_iff] at found
    exact (member?_eq_none.mpr found).symm
  | some value =>
    have member := same.mem_iff.mp (mem_of_member? found)
    exact (member?_of_mem ((same.map _).nodup_iff.mp distinct) member).symm

/-- A member that is put between others is seen by its own key alone. -/
theorem member?_insert_of_ne (apart : key ≠ name) :
    member? (before ++ (key, value) :: after) name = member? (before ++ after) name := by
  rw [member?_append, member?_cons, if_neg apart, ← member?_append]

/-- No object in a value has two members with one key. -/
inductive Distinct : Json → Prop
  | null : Distinct .null
  | bool (value : Bool) : Distinct (.bool value)
  | integer (value : Int) : Distinct (.integer value)
  | double (value : Double) : Distinct (.double value)
  | string (value : String) : Distinct (.string value)
  | array {items : List Json} (within : ∀ item ∈ items, Distinct item) : Distinct (.array items)
  | object {members : List (String × Json)} (once : (members.map (·.1)).Nodup)
      (within : ∀ entry ∈ members, Distinct entry.2) : Distinct (.object members)

/-- Setting a value leaves no two members with one key. -/
theorem nodup_setMember (distinct : (members.map (·.1)).Nodup) (key : String) (value : Json) :
    ((setMember members key value).map (·.1)).Nodup := by
  unfold setMember
  split
  · -- The keys stay as they were.
    have keys :
        (members.map fun entry => if entry.1 == key then (key, value) else entry).map (·.1) =
          members.map (·.1) := by
      rw [List.map_map]
      refine List.map_congr_left fun entry _ => ?_
      by_cases same : entry.1 = key
      · simp [same]
      · simp [same]
    rwa [keys]
  · rename_i unknown
    have fresh : key ∉ members.map (·.1) := by simpa using unknown
    rw [List.map_append, List.map_cons, List.map_nil, ← List.concat_eq_append]
    exact distinct.concat fresh

/-- Setting a value brings nothing else among the members. -/
theorem mem_setMember {entry : String × Json} (member : entry ∈ setMember members key value) :
    entry ∈ members ∨ entry = (key, value) := by
  unfold setMember at member
  split at member
  · obtain ⟨before, listed, same⟩ := List.mem_map.mp member
    split at same
    · exact Or.inr same.symm
    · exact Or.inl (same ▸ listed)
  · simpa using member

mutual

/-- What a text means has no object with two members of one key. -/
theorem distinct_of_meaning {depth : Nat} {written : Written} {value : Json}
    (meant : written.meaning? depth = some value) : Distinct value := by
  -- The cases are those of the reader, which counts down how deep arrays and objects may nest.
  match depth, written with
  | _, .null =>
    rw [Written.meaning?] at meant
    exact Option.some.inj meant ▸ .null
  | _, .bool flag =>
    rw [Written.meaning?] at meant
    exact Option.some.inj meant ▸ .bool flag
  | _, .number numeral =>
    rw [Written.meaning?, Numeral.value?] at meant
    split at meant
    · exact Option.some.inj meant ▸ .integer _
    · obtain ⟨double, _, rfl⟩ := Option.map_eq_some_iff.mp meant
      exact .double double
  | _, .string pieces =>
    rw [Written.meaning?] at meant
    obtain ⟨text, _, rfl⟩ := Option.map_eq_some_iff.mp meant
    exact .string text
  | 0, .array _ => simp [Written.meaning?] at meant
  | depth + 1, .array items =>
    rw [Written.meaning?] at meant
    obtain ⟨items, itemsMeant, rfl⟩ := Option.map_eq_some_iff.mp meant
    exact .array (distinct_of_items itemsMeant)
  | 0, .object _ => simp [Written.meaning?] at meant
  | depth + 1, .object members =>
    rw [Written.meaning?] at meant
    obtain ⟨members, membersMeant, rfl⟩ := Option.map_eq_some_iff.mp meant
    obtain ⟨once, within⟩ := distinct_of_members (by simp) (by simp) membersMeant
    exact .object once within

/-- So it is for the items of an array. -/
theorem distinct_of_items {depth : Nat} {written : List Written} {items : List Json}
    (meant : Written.itemsMeaning? depth written = some items) : ∀ item ∈ items, Distinct item := by
  match written with
  | [] =>
    rw [Written.itemsMeaning?] at meant
    obtain rfl := Option.some.inj meant
    exact fun _ member => nomatch member
  | first :: later =>
    rw [Written.itemsMeaning?] at meant
    obtain ⟨item, itemMeant, rest⟩ := Option.bind_eq_some_iff.mp meant
    obtain ⟨others, othersMeant, same⟩ := Option.bind_eq_some_iff.mp rest
    obtain rfl := Option.some.inj same
    intro looked member
    rcases List.mem_cons.mp member with rfl | member
    · exact distinct_of_meaning itemMeant
    · exact distinct_of_items othersMeant looked member

/-- Members are set one after the other, so no key comes twice. -/
theorem distinct_of_members {depth : Nat} {done : List (String × Json)}
    {written : List (List Piece × Written)} {members : List (String × Json)}
    (once : (done.map (·.1)).Nodup) (within : ∀ entry ∈ done, Distinct entry.2)
    (meant : Written.membersMeaning? depth done written = some members) :
    (members.map (·.1)).Nodup ∧ ∀ entry ∈ members, Distinct entry.2 := by
  match written with
  | [] =>
    rw [Written.membersMeaning?] at meant
    obtain rfl := Option.some.inj meant
    exact ⟨once, within⟩
  | (pieces, first) :: later =>
    rw [Written.membersMeaning?] at meant
    obtain ⟨key, _, rest⟩ := Option.bind_eq_some_iff.mp meant
    obtain ⟨value, valueMeant, rest⟩ := Option.bind_eq_some_iff.mp rest
    refine distinct_of_members (nodup_setMember once key value) (fun entry member => ?_) rest
    rcases mem_setMember member with old | rfl
    · exact within entry old
    · exact distinct_of_meaning valueMeant

end

/-- No value that is read from a text has an object with two members of one key. -/
theorem distinct_of_parse {text : String} (parsed : parse? text = some value) : Distinct value := by
  obtain ⟨written, _, meant⟩ := Option.bind_eq_some_iff.mp parsed
  exact distinct_of_meaning meant

end FlowService.Json
