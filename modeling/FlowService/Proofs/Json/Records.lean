import FlowService.Json.Record

/-! A record that is written with all its fields reads back as itself, by name and by place. -/

namespace FlowService.Json

variable {α : Type} {fields : List String} {read : Json → Option α} {write : α → Json}

/-- Values are written as records with all their fields, and each record reads back as the value
that it was written for. -/
structure Faithful (fields : List String) (read : Json → Option α) (write : α → Json) : Prop where
  /-- No field is left out, and none is out of order. -/
  complete : ∀ value, ∃ items,
    items.length = fields.length ∧ write value = .object (fields.zip items)
  /-- The fields are found by their names. -/
  named : ∀ value, read (write value) = some value
  /-- The fields are found by their places as well. -/
  placed : ∀ value items, items.length = fields.length →
    write value = .object (fields.zip items) → read (.array items) = some value

/-- The value of a key is that of the first member, or else it is among the others. -/
@[simp] theorem member?_cons (name key : String) (value : Json) (later : List (String × Json)) :
    member? ((name, value) :: later) key =
      if name = key then some value else member? later key := by
  unfold member?
  rw [List.find?_cons]
  by_cases here : name = key
  · simp [here]
  · simp [here, beq_eq_false_iff_ne.mpr here]

@[simp] theorem required?_cons (name key : String) (value : Json)
    (later : List (String × Json)) : required? read ((name, value) :: later) key =
      if name = key then read value else required? read later key := by
  unfold required?
  by_cases here : name = key
  · rw [member?_cons, if_pos here, if_pos here, Option.bind_some]
  · rw [member?_cons, if_neg here, if_neg here]

@[simp] theorem defaulted?_cons (default : α) (name key : String) (value : Json)
    (later : List (String × Json)) : defaulted? default read ((name, value) :: later) key =
      if name = key then read value else defaulted? default read later key := by
  unfold defaulted?
  by_cases here : name = key <;> simp [here]

/-- A number of 32 bits reads back as itself. -/
@[simp] theorem count?_ofCount (count : UInt32) : count? (ofCount count) = some count := by
  -- The number is in range, so nothing is cut off when it becomes one of 32 bits again.
  have small : (count.toNat : Int) < UInt32.size := Int.ofNat_lt.mpr count.toNat_lt_size
  simp only [count?, ofCount, Int.natCast_nonneg, small, and_self, if_true, Int.toNat_natCast,
    Nat.toUInt32_eq, UInt32.ofNat_toNat]

namespace Faithful

/-- A list of records reads back as itself. -/
theorem list (faithful : Faithful fields read write) (items : List α) :
    list? read (ofList write items) = some items := by
  induction items with
  | nil => rfl
  | cons item later ih =>
    have rest : (later.map write).mapM read = some later := ih
    simp [list?, ofList, List.mapM_cons, faithful.named, rest]

/-- A record reads back as itself where it may also be left out: it is never written as null. -/
theorem nullable (faithful : Faithful fields read write) (value : Option α)
    {members : List (String × Json)} {field : String}
    (found : member? members field = some (ofOption write value)) :
    nullable? read members field = some value := by
  cases value with
  | none => simp [nullable?, found, ofOption]
  | some value =>
    obtain ⟨items, -, written⟩ := faithful.complete value
    have back := faithful.named value
    rw [written] at back
    simp [nullable?, found, ofOption, written, back]

/-- A shape is faithful when its fields, put side by side, read back as the value. -/
theorem of_fields {body : List (String × Json) → Option α} (items : α → List Json)
    (reads : ∀ json, read json = (json.record? fields).bind body)
    (full : ∀ value, (items value).length = fields.length)
    (writes : ∀ value, write value = .object (fields.zip (items value)))
    (back : ∀ value, body (fields.zip (items value)) = some value) :
    Faithful fields read write where
  complete value := ⟨items value, full value, writes value⟩
  named value := by rw [writes, reads]; exact back value
  placed value given sameLength written := by
    -- The given items are those that were written, since both are as many as there are fields.
    have pairs : fields.zip given = fields.zip (items value) := by
      rw [writes] at written
      exact (Json.object.inj written).symm
    rw [reads, record?, if_pos (Nat.le_of_eq sameLength), Option.bind_some, pairs]
    exact back value

end Faithful

end FlowService.Json
