/-!
A TOML document is a tree of tables, and each table remembers how it was made, because that decides
which later lines may add to it.
-/

namespace FlowService

namespace Toml

/-- How a table came to be. -/
inductive TableKind
  /-- It was written between braces and is complete. -/
  | inline
  /-- A header of its own opened it. -/
  | header
  /-- It only lies on the way to the table of a header. -/
  | between
  /-- Dotted keys opened it. -/
  | dotted
  deriving DecidableEq, Repr, Inhabited

end Toml

/-- A TOML value. -/
inductive Toml
  | string (value : String)
  | bool (value : Bool)
  /-- A number or a time, of which only the form is known. -/
  | scalar
  | array (items : List Toml)
  | table (kind : Toml.TableKind) (entries : List (String × Toml))
  deriving Repr, Inhabited

namespace Toml

/-- The keys of a table with their values, in order. -/
abbrev Entries := List (String × Toml)

namespace Entries

/-- The value of a key. -/
def value? (entries : Entries) (key : String) : Option Toml :=
  (entries.find? (·.1 == key)).map (·.2)

/-- Gives a key that is there another value. -/
def replace (entries : Entries) (key : String) (value : Toml) : Entries :=
  entries.map fun entry => if entry.1 == key then (key, value) else entry

/-- Sets the value of a dotted key; a key that has a value and a table that is complete refuse. -/
def insert? (entries : Entries) : List String → Toml → Option Entries
  | [], _ => none
  | [key], value =>
    if (entries.value? key).isSome then none else some (entries ++ [(key, value)])
  | step :: next :: later, value =>
    match entries.value? step with
    | none => do
      let inner ← insert? [] (next :: later) value
      return entries ++ [(step, .table .dotted inner)]
    | some (.table kind inner) =>
      -- The last table on the way must be one of dotted keys.
      if kind = .dotted ∨ (kind = .between ∧ !later.isEmpty) then do
        let inner ← insert? inner (next :: later) value
        return entries.replace step (.table kind inner)
      else none
    | some _ => none

/-- Opens the table of a header; a table can be opened by a header only once. -/
def open? (entries : Entries) : List String → Option Entries
  | [] => none
  | [key] =>
    match entries.value? key with
    | none => some (entries ++ [(key, .table .header [])])
    | some (.table .between inner) => some (entries.replace key (.table .header inner))
    | some _ => none
  | step :: next :: later =>
    match entries.value? step with
    | none => do
      let inner ← open? [] (next :: later)
      return entries ++ [(step, .table .between inner)]
    | some (.table kind inner) =>
      if kind = .inline then none
      else do
        let inner ← open? inner (next :: later)
        return entries.replace step (.table kind inner)
    | some _ => none

/-- Changes the table that a header has opened. -/
def change? (entries : Entries) (change : Entries → Option Entries) :
    List String → Option Entries
  | [] => change entries
  | step :: later =>
    match entries.value? step with
    | some (.table kind inner) => do
      let inner ← change? inner change later
      return entries.replace step (.table kind inner)
    | _ => none

end Entries

end Toml

end FlowService
