import FlowService.Json.Written

/-! The manifest of a package gives its version; all else in it is only checked for its form. -/

namespace FlowService.Manifest

open Json

/-- Reads a version, which is a text. -/
def versionOf? : Written → Option String
  | .string pieces => Written.text? pieces
  | _ => none

/-- Looks through members for the version; every key must be a text, and the version comes once. -/
def versionAmong? : Option String → List (List Piece × Written) → Option (Option String)
  | found, [] => some found
  | found, (key, value) :: later => do
    let key ← Written.text? key
    if key = "version" then
      match found with
      | some _ => none
      | none =>
        let version ← versionOf? value
        versionAmong? (some version) later
    else versionAmong? found later

/-- The version in a manifest, which is empty when it is left out; a manifest may also be an array
with the version alone. -/
def version? (text : String) : Option String := do
  match ← Written.ofText? text with
  | .object members => (versionAmong? none members).map (·.getD "")
  | .array [] => some ""
  | .array [value] => versionOf? value
  | _ => none

end FlowService.Manifest
