/-
The condition language: dot-separated paths into the run registry.
-/

import Wardian.Json
import Wardian.Lib.Text

set_option autoImplicit false

namespace Wardian.Automation

/-- Whether a path segment is an identifier: a letter or underscore, then letters, digits,
underscores and hyphens. -/
def isIdentifier : List Char → Bool
  | [] => false
  | first :: rest =>
    (Text.isAsciiAlphabetic first || first == '_') &&
      rest.all fun c => Text.isAsciiAlphanumeric c || c == '_' || c == '-'

/-- Check the segments of a path in order. -/
def validateSegments : List (List Char) → Except String Unit
  | [] => .ok ()
  | [] :: _ => .error "expected a dot-separated registry path"
  | segment :: rest =>
    if isIdentifier segment then validateSegments rest
    else .error
      "expected a dot-separated registry path; operators and comparisons are not supported"

/-- Validate and normalize a registry path. -/
def validatePath (condition : String) : Except String String :=
  let path := Text.trim condition.toList
  if path.isEmpty then .error "expected a non-empty dot-separated registry path"
  else
    match validateSegments (Text.split '.' path) with
    | .ok () => .ok (String.ofList path)
    | .error message => .error message

/-- The value that a list of path segments leads to. -/
def lookupPath (registry : Value) : List (List Char) → Option Value
  | [] => some registry
  | segment :: rest =>
    match registry.get? (String.ofList segment) with
    | some v => lookupPath v rest
    | none => none

/-- The truth value of a JSON value. -/
def truthy : Value → Bool
  | .bool b => b
  | .null => false
  | .string s => !s.isEmpty
  | .number (.posInt n) => n != 0
  | .number (.negInt n) => n != 0
  | .number (.float _ nonzero) => nonzero
  | .array _ => true
  | .object _ => true

/-- Resolve a validated path and apply the truthiness rules; a missing path is false. -/
def lookupTruthy (registry : Value) (path : String) : Bool :=
  match lookupPath registry (Text.split '.' path.toList) with
  | some v => truthy v
  | none => false

end Wardian.Automation
