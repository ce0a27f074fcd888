import FlowService.Json.Record
import FlowService.Proofs.Json.Keys

/-!
A record can be spelled in many ways. Whoever reads it field by field reads the same from all of
them, and nothing at all where a field is null that cannot be.
-/

namespace FlowService.Json

/-- What it means that a field of a record is left out. -/
inductive Presence
  /-- The field must be there. -/
  | required
  /-- A value stands in for it. -/
  | defaulted (default : Json)
  /-- It has no value, and a null says so as well. -/
  | nullable

/-- The value that says of a field what leaving it out says. -/
def Presence.stand? : Presence → Option Json
  | .required => none
  | .defaulted default => some default
  | .nullable => some .null

/-- Where the records in a value are. -/
inductive Shape
  /-- There are none. -/
  | plain
  | list (item : Shape)
  /-- The value itself is one, with these fields in order. -/
  | record (fields : List (String × Presence × Shape))

/-- One edit of a value, at some depth, that changes its spelling alone. -/
inductive Edit : Shape → Json → Json → Prop
  /-- A member that is no field of the record is added. -/
  | foreign {fields : List (String × Presence × Shape)} {before after : List (String × Json)}
      {key : String} {value : Json} (unknown : key ∉ fields.map (·.1)) :
      Edit (.record fields) (.object (before ++ after)) (.object (before ++ (key, value) :: after))
  /-- The members of an object, of which no two have one key, are put in another order. -/
  | reorder {fields : List (String × Presence × Shape)} {members others : List (String × Json)}
      (distinct : (members.map (·.1)).Nodup) (same : members.Perm others) :
      Edit (.record fields) (.object members) (.object others)
  /-- A field that was left out gets the value that says the same. -/
  | stand {fields : List (String × Presence × Shape)} {before after : List (String × Json)}
      {name : String} {presence : Presence} {shape : Shape} {value : Json}
      (field : (name, presence, shape) ∈ fields) (stands : presence.stand? = some value)
      (absent : name ∉ (before ++ after).map (·.1)) :
      Edit (.record fields) (.object (before ++ after)) (.object (before ++ (name, value) :: after))
  /-- The first field that was left out at the end of an array gets the value that says the same. -/
  | standLast {fields : List (String × Presence × Shape)} {items : List Json} {name : String}
      {presence : Presence} {shape : Shape} {value : Json}
      (field : fields[items.length]? = some (name, presence, shape))
      (stands : presence.stand? = some value) :
      Edit (.record fields) (.array items) (.array (items ++ [value]))
  /-- An object with all fields becomes the array of them. -/
  | place {fields : List (String × Presence × Shape)} {members : List (String × Json)}
      {items : List Json}
      (complete : fields.map (fun field => member? members field.1) = items.map some) :
      Edit (.record fields) (.object members) (.array items)
  /-- A field of an object is edited. -/
  | inMember {fields : List (String × Presence × Shape)} {before after : List (String × Json)}
      {name : String} {presence : Presence} {shape : Shape} {value other : Json}
      (field : (name, presence, shape) ∈ fields) (edit : Edit shape value other) :
      Edit (.record fields) (.object (before ++ (name, value) :: after))
        (.object (before ++ (name, other) :: after))
  /-- A field in an array of the fields is edited. -/
  | inPlace {fields : List (String × Presence × Shape)} {before after : List Json} {name : String}
      {presence : Presence} {shape : Shape} {value other : Json}
      (field : fields[before.length]? = some (name, presence, shape))
      (edit : Edit shape value other) :
      Edit (.record fields) (.array (before ++ value :: after)) (.array (before ++ other :: after))
  /-- An item of a list is edited. -/
  | inItem {item : Shape} {before after : List Json} {value other : Json}
      (edit : Edit item value other) :
      Edit (.list item) (.array (before ++ value :: after)) (.array (before ++ other :: after))

/-- A field of a record in a value, at some depth, is null although it cannot be. -/
inductive HasNull : Shape → Json → Prop
  | member {fields : List (String × Presence × Shape)} {members : List (String × Json)}
      {name : String} {presence : Presence} {shape : Shape}
      (field : (name, presence, shape) ∈ fields) (demanded : presence ≠ .nullable)
      (found : member? members name = some .null) : HasNull (.record fields) (.object members)
  | place {fields : List (String × Presence × Shape)} {items : List Json} {index : Nat}
      {name : String} {presence : Presence} {shape : Shape}
      (field : fields[index]? = some (name, presence, shape)) (demanded : presence ≠ .nullable)
      (found : items[index]? = some .null) : HasNull (.record fields) (.array items)
  | inMember {fields : List (String × Presence × Shape)} {members : List (String × Json)}
      {name : String} {presence : Presence} {shape : Shape} {value : Json}
      (field : (name, presence, shape) ∈ fields) (found : member? members name = some value)
      (within : HasNull shape value) : HasNull (.record fields) (.object members)
  | inPlace {fields : List (String × Presence × Shape)} {items : List Json} {index : Nat}
      {name : String} {presence : Presence} {shape : Shape} {value : Json}
      (field : fields[index]? = some (name, presence, shape)) (found : items[index]? = some value)
      (within : HasNull shape value) : HasNull (.record fields) (.array items)
  | inItem {item : Shape} {items : List Json} {value : Json} (listed : value ∈ items)
      (within : HasNull item value) : HasNull (.list item) (.array items)

/-- Values of a shape are read without regard to how they are spelled, and not at all where there is
a null that cannot be. -/
structure Lenient {α : Type} (shape : Shape) (read : Json → Option α) : Prop where
  edited : ∀ value other, Edit shape value other → read value = read other
  refused : ∀ value, HasNull shape value → read value = none
  null : read .null = none

/-- How what a record holds for a field may change with an edit. -/
inductive Alike (presence : Presence) (shape : Shape) : Option Json → Option Json → Prop
  | same {value : Option Json} : Alike presence shape value value
  | stand {value : Json} (stands : presence.stand? = some value) :
      Alike presence shape none (some value)
  | edited {value other : Json} (edit : Edit shape value other) :
      Alike presence shape (some value) (some other)

/-- A field is null although it cannot be, or something in it is. -/
inductive Refused (presence : Presence) (shape : Shape) : Option Json → Prop
  | null (demanded : presence ≠ .nullable) : Refused presence shape (some .null)
  | within {value : Json} (within : HasNull shape value) : Refused presence shape (some value)

/-- Two records hold alike values for all fields. -/
def AllAlike (fields : List (String × Presence × Shape)) (members others : List (String × Json)) :
    Prop :=
  ∀ name presence shape, (name, presence, shape) ∈ fields →
    Alike presence shape (member? members name) (member? others name)

variable {fields : List (String × Presence × Shape)} {members before after : List (String × Json)}
variable {name key : String} {presence : Presence} {shape : Shape} {value other : Json}
variable {α : Type} {read : Json → Option α}

/-- A field that stands at a place is found there by its name. -/
theorem member?_zip (distinct : (fields.map (·.1)).Nodup) {index : Nat}
    (field : fields[index]? = some (name, presence, shape)) {items : List Json} :
    member? ((fields.map (·.1)).zip items) name = items[index]? := by
  -- The induction is on the fields, each of which goes with the item at its place.
  induction fields generalizing index items with
  | nil => cases field
  | cons first rest ih =>
    obtain ⟨new, distinct⟩ := List.nodup_cons.mp distinct
    cases items with
    | nil => rfl
    | cons item items =>
      rw [List.map_cons, List.zip_cons_cons, member?_cons]
      cases index with
      | zero =>
        rw [List.getElem?_cons_zero] at field
        obtain rfl := Option.some.inj field
        rw [if_pos rfl, List.getElem?_cons_zero]
      | succ index =>
        rw [List.getElem?_cons_succ] at field ⊢
        have apart : first.1 ≠ name := by
          intro same
          exact new (List.mem_map.mpr ⟨_, List.mem_of_getElem? field, same.symm⟩)
        rw [if_neg apart, ih distinct field]

/-- No two fields of a record have one name. -/
theorem eq_of_field (distinct : (fields.map (·.1)).Nodup)
    (field : (name, presence, shape) ∈ fields) {otherPresence : Presence} {otherShape : Shape}
    (otherField : (name, otherPresence, otherShape) ∈ fields) :
    presence = otherPresence ∧ shape = otherShape := by
  have same := List.inj_on_of_nodup_map distinct field otherField rfl
  exact Prod.mk.inj (Prod.mk.inj same).2

/-- Records that hold the same for each name are alike. -/
theorem alike_of_same {others : List (String × Json)}
    (same : ∀ name presence shape, (name, presence, shape) ∈ fields →
      member? members name = member? others name) : AllAlike fields members others := by
  intro name presence shape field
  rw [same name presence shape field]
  exact .same

/-- A member that stands for a field only matters where it is the first one for it. -/
theorem alike_inMember (distinct : (fields.map (·.1)).Nodup)
    (field : (name, presence, shape) ∈ fields) (edit : Edit shape value other) :
    AllAlike fields (before ++ (name, value) :: after) (before ++ (name, other) :: after) := by
  intro looked lookedPresence lookedShape lookedField
  rw [member?_append, member?_append, member?_cons, member?_cons]
  by_cases same : name = looked
  · subst same
    obtain ⟨rfl, rfl⟩ := eq_of_field distinct field lookedField
    rw [if_pos rfl, if_pos rfl]
    cases member? before name with
    | none => exact .edited edit
    | some earlier => exact .same
  · rw [if_neg same, if_neg same]
    exact .same

/-- A field that was left out is there afterwards, and all others are as they were. -/
theorem alike_stand (distinct : (fields.map (·.1)).Nodup)
    (field : (name, presence, shape) ∈ fields) (stands : presence.stand? = some value)
    (absent : name ∉ (before ++ after).map (·.1)) :
    AllAlike fields (before ++ after) (before ++ (name, value) :: after) := by
  intro looked lookedPresence lookedShape lookedField
  by_cases same : name = looked
  · subst same
    obtain ⟨rfl, rfl⟩ := eq_of_field distinct field lookedField
    have missing := member?_eq_none.mpr absent
    have before := (Option.or_eq_none_iff.mp ((member?_append ..).symm.trans missing)).1
    rw [missing, member?_append, before, member?_cons, if_pos rfl]
    exact .stand stands
  · rw [member?_insert_of_ne same]
    exact .same

/-- Records that are given as arrays are alike if their items are, place by place. -/
theorem alike_zip (distinct : (fields.map (·.1)).Nodup) {items others : List Json}
    (alike : ∀ (index : Nat) name presence shape, fields[index]? = some (name, presence, shape) →
      Alike presence shape items[index]? others[index]?) :
    AllAlike fields ((fields.map (·.1)).zip items) ((fields.map (·.1)).zip others) := by
  intro name presence shape field
  obtain ⟨index, found⟩ := List.mem_iff_getElem?.mp field
  rw [member?_zip distinct found, member?_zip distinct found]
  exact alike index name presence shape found

/-- A record is alike whether its last field is left out or written at the end of its array. -/
theorem alike_standLast (distinct : (fields.map (·.1)).Nodup) {items : List Json}
    (field : fields[items.length]? = some (name, presence, shape))
    (stands : presence.stand? = some value) :
    AllAlike fields ((fields.map (·.1)).zip items) ((fields.map (·.1)).zip (items ++ [value])) := by
  refine alike_zip distinct fun index looked lookedPresence lookedShape found => ?_
  rcases Nat.lt_trichotomy index items.length with earlier | rfl | later
  · rw [List.getElem?_append_left earlier]
    exact .same
  · obtain ⟨rfl, rfl, rfl⟩ : name = looked ∧ presence = lookedPresence ∧ shape = lookedShape := by
      simpa using field.symm.trans found
    rw [List.getElem?_eq_none (Nat.le_refl _), List.getElem?_concat_length]
    exact .stand stands
  · -- There is nothing behind the last field in either array.
    have beyond : (items ++ [value]).length ≤ index := by
      rw [List.length_append]
      exact later
    rw [List.getElem?_eq_none (Nat.le_of_lt later), List.getElem?_eq_none beyond]
    exact .same

/-- An edit of an item of an array concerns the field at its place. -/
theorem alike_inPlace (distinct : (fields.map (·.1)).Nodup) {before after : List Json}
    (field : fields[before.length]? = some (name, presence, shape))
    (edit : Edit shape value other) :
    AllAlike fields ((fields.map (·.1)).zip (before ++ value :: after))
      ((fields.map (·.1)).zip (before ++ other :: after)) := by
  refine alike_zip distinct fun index looked lookedPresence lookedShape found => ?_
  rcases Nat.lt_trichotomy index before.length with earlier | rfl | later
  · rw [List.getElem?_append_left earlier, List.getElem?_append_left earlier]
    exact .same
  · obtain ⟨rfl, rfl, rfl⟩ : name = looked ∧ presence = lookedPresence ∧ shape = lookedShape := by
      simpa using field.symm.trans found
    simpa using Alike.edited edit
  · obtain ⟨distance, rfl⟩ := Nat.exists_eq_add_of_lt later
    rw [List.getElem?_append_right (by omega), List.getElem?_append_right (by omega),
      show before.length + distance + 1 - before.length = distance + 1 by omega]
    exact .same

/-- The array of all fields of an object holds the same for each of them. -/
theorem alike_place (distinct : (fields.map (·.1)).Nodup) {items : List Json}
    (complete : fields.map (fun field => member? members field.1) = items.map some) :
    AllAlike fields members ((fields.map (·.1)).zip items) := by
  refine alike_of_same fun name presence shape field => ?_
  obtain ⟨index, found⟩ := List.mem_iff_getElem?.mp field
  have here := congrArg (·[index]?) complete
  simp only [List.getElem?_map, found, Option.map_some] at here
  obtain ⟨item, listed, same⟩ := Option.map_eq_some_iff.mp here.symm
  rw [member?_zip distinct found, listed, same]

/-- An edit of a record changes what it holds for its fields to something alike. -/
theorem alike_of_edit (distinct : (fields.map (·.1)).Nodup)
    (edit : Edit (.record fields) value other) :
    Option.Rel (AllAlike fields) (value.record? (fields.map (·.1)))
      (other.record? (fields.map (·.1))) := by
  cases edit with
  | @foreign _ _ _ key _ unknown =>
    refine .some (alike_of_same fun name presence shape field => ?_)
    have apart : key ≠ name := fun same => unknown (same ▸ List.mem_map.mpr ⟨_, field, rfl⟩)
    exact (member?_insert_of_ne apart).symm
  | reorder once same => exact .some (alike_of_same fun name _ _ _ => member?_perm once same name)
  | stand field stands absent => exact .some (alike_stand distinct field stands absent)
  | standLast field stands =>
    -- There is a field for the new item, so the array does not become too long.
    obtain ⟨within, _⟩ := List.getElem?_eq_some_iff.mp field
    rw [record?, record?, if_pos (by simpa using Nat.le_of_lt within),
      if_pos (by simpa using Nat.succ_le_of_lt within)]
    exact .some (alike_standLast distinct field stands)
  | @place _ members items complete =>
    have lengths : fields.length = items.length := by simpa using congrArg List.length complete
    rw [record?, record?, if_pos (by simp [lengths])]
    exact .some (alike_place distinct complete)
  | inMember field edit => exact .some (alike_inMember distinct field edit)
  | inPlace field edit =>
    -- An array with too many items is none of a record before the edit and after it.
    simp only [record?, List.length_append, List.length_cons]
    split
    · exact .some (alike_inPlace distinct field edit)
    · exact .none

/-- A record with a null that cannot be holds it for one of its fields, or in one. -/
theorem refused_of_hasNull (distinct : (fields.map (·.1)).Nodup)
    (hasNull : HasNull (.record fields) value)
    (given : value.record? (fields.map (·.1)) = some members) :
    ∃ name presence shape, (name, presence, shape) ∈ fields ∧
      Refused presence shape (member? members name) := by
  cases hasNull with
  | member field demanded found =>
    obtain rfl := Option.some.inj given
    exact ⟨_, _, _, field, found ▸ .null demanded⟩
  | place field demanded found =>
    obtain ⟨_, given⟩ := Option.ite_none_right_eq_some.mp given
    obtain rfl := Option.some.inj given
    refine ⟨_, _, _, List.mem_of_getElem? field, ?_⟩
    rw [member?_zip distinct field, found]
    exact .null demanded
  | inMember field found within =>
    obtain rfl := Option.some.inj given
    exact ⟨_, _, _, field, found ▸ .within within⟩
  | inPlace field found within =>
    obtain ⟨_, given⟩ := Option.ite_none_right_eq_some.mp given
    obtain rfl := Option.some.inj given
    refine ⟨_, _, _, List.mem_of_getElem? field, ?_⟩
    rw [member?_zip distinct field, found]
    exact .within within

/-- What is read from a record comes from its fields, each of which is read leniently. -/
structure Heeds {α : Type} (fields : List (String × Presence × Shape))
    (body : List (String × Json) → Option α) : Prop where
  alike : ∀ members others, AllAlike fields members others → body members = body others
  refused : ∀ members name presence shape, (name, presence, shape) ∈ fields →
    Refused presence shape (member? members name) → body members = none

namespace Heeds

/-- Nothing is read for no fields. -/
theorem done (result : α) : Heeds [] fun _ => some result where
  alike _ _ _ := rfl
  refused _ _ _ _ field := nomatch field

/-- One field is read leniently if the same comes of alike values and nothing of a null. -/
theorem one {look : List (String × Json) → Option α}
    (alike : ∀ members others,
      Alike presence shape (member? members name) (member? others name) →
        look members = look others)
    (refused : ∀ members, Refused presence shape (member? members name) → look members = none) :
    Heeds [(name, presence, shape)] look where
  alike members others same := alike _ _ (same name presence shape (.head _))
  refused members found foundPresence foundShape field := by
    obtain ⟨rfl, rfl, rfl⟩ : found = name ∧ foundPresence = presence ∧ foundShape = shape := by
      simpa using field
    exact refused members

/-- The same is read from alike records. -/
theorem bind_eq {body : List (String × Json) → Option α} (heeds : Heeds fields body)
    {given edited : Option (List (String × Json))}
    (alike : Option.Rel (AllAlike fields) given edited) : given.bind body = edited.bind body := by
  cases alike with
  | some alike => exact heeds.alike _ _ alike
  | none => rfl

/-- The fields of a record are read one after the other. -/
theorem andThen {β : Type} {field : String × Presence × Shape}
    {look : List (String × Json) → Option α} {next : α → List (String × Json) → Option β}
    (first : Heeds [field] look) (later : ∀ result, Heeds fields (next result)) :
    Heeds (field :: fields) fun members =>
      (look members).bind fun result => next result members where
  alike members others alike := by
    have here : look members = look others := first.alike _ _ fun name presence shape listed =>
      alike _ _ _ (List.mem_singleton.mp listed ▸ .head _)
    rw [here]
    refine congrArg _ (funext fun result => (later result).alike members others ?_)
    exact fun name presence shape listed => alike _ _ _ (.tail _ listed)
  refused members name presence shape listed refused := by
    rcases List.mem_cons.mp listed with rfl | listed
    · rw [first.refused members _ _ _ (.head _) refused, Option.bind_none]
    · -- Whatever the first field holds, a later one is not read.
      refine Option.bind_eq_none_iff.mpr fun result _ => ?_
      exact (later result).refused members name presence shape listed refused

end Heeds

namespace Lenient

/-- A field that must be there is read leniently. -/
theorem required (lenient : Lenient shape read) :
    Heeds [(name, .required, shape)] fun members => required? read members name := by
  refine .one (fun members others alike => ?_) fun members refused => ?_
  · unfold required?
    generalize member? members name = value, member? others name = other at alike
    cases alike with
    | same => rfl
    | stand stands => cases stands
    | edited edit => exact lenient.edited _ _ edit
  · unfold required?
    generalize member? members name = value at refused
    cases refused with
    | null => exact lenient.null
    | within within => exact lenient.refused _ within

/-- A field with a default is read leniently if the default is what is read from its stand-in. -/
theorem defaulted {default : Json} {result : α} (lenient : Lenient shape read)
    (stands : read default = some result) :
    Heeds [(name, .defaulted default, shape)] fun members =>
      defaulted? result read members name := by
  refine .one (fun members others alike => ?_) fun members refused => ?_
  · unfold defaulted?
    generalize member? members name = value, member? others name = other at alike
    cases alike with
    | same => rfl
    | stand same =>
      obtain rfl := Option.some.inj same
      exact stands.symm
    | edited edit => exact lenient.edited _ _ edit
  · unfold defaulted?
    generalize member? members name = value at refused
    cases refused with
    | null => exact lenient.null
    | within within => exact lenient.refused _ within

/-- A field that may be null is read leniently if it is a record. -/
theorem nullable (lenient : Lenient (.record fields) read) :
    Heeds [(name, .nullable, .record fields)] fun members => nullable? read members name := by
  refine .one (fun members others alike => ?_) fun members refused => ?_
  · unfold nullable?
    generalize member? members name = value, member? others name = other at alike
    cases alike with
    | same => rfl
    | stand same =>
      obtain rfl := Option.some.inj same
      rfl
    | edited edit =>
      -- No edit of a record leads to a null or away from one.
      have same := congrArg (Option.map some) (lenient.edited _ _ edit)
      cases edit <;> exact same
  · unfold nullable?
    generalize member? members name = value at refused
    cases refused with
    | null demanded => exact absurd rfl demanded
    | within within =>
      have none := congrArg (Option.map some) (lenient.refused _ within)
      cases within <;> exact none

/-- A record whose fields are read leniently is, too. -/
theorem record {body : List (String × Json) → Option α} (heeds : Heeds fields body)
    (distinct : (fields.map (·.1)).Nodup)
    (reads : ∀ json, read json = (json.record? (fields.map (·.1))).bind body) :
    Lenient (.record fields) read where
  edited value other edit := by
    rw [reads, reads]
    exact heeds.bind_eq (alike_of_edit distinct edit)
  refused value hasNull := by
    rw [reads]
    refine Option.bind_eq_none_iff.mpr fun members given => ?_
    obtain ⟨name, presence, shape, field, refused⟩ := refused_of_hasNull distinct hasNull given
    exact heeds.refused members name presence shape field refused
  null := reads .null

/-- What holds no record is read leniently as long as no null is read. -/
theorem plain (null : read .null = none) : Lenient .plain read where
  edited _ _ edit := nomatch edit
  refused _ hasNull := nomatch hasNull
  null := null

/-- A list of values that are read leniently is, too. -/
theorem list (lenient : Lenient shape read) : Lenient (.list shape) (list? read) where
  edited value other edit := by
    cases edit with
    | inItem edit => simp [list?, List.mapM_append, lenient.edited _ _ edit]
  refused value hasNull := by
    cases hasNull with
    | @inItem _ items value listed within =>
      -- One item that is not read is enough.
      obtain ⟨before, after, rfl⟩ := List.append_of_mem listed
      simp [list?, List.mapM_append, lenient.refused _ within]
  null := rfl

end Lenient

end FlowService.Json
