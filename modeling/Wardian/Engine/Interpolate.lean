/-
Interpolation of registry values into templates.

A placeholder is a dotted path between double braces.  A template with a placeholder that does not
lead to a string, a number or a truth value cannot be resolved; the error is the path.
-/

import Wardian.Automation.Validate

set_option autoImplicit false

namespace Wardian.Engine

open Automation (openBraces closeBraces lookupPath)

/-- The text of a number. -/
def numberText : Number → String
  | .posInt n => toString n
  | .negInt n => toString n
  | .float text _ => text

/-- The text of a value that a template may hold. -/
def scalarText : Value → Option String
  | .string s => some s
  | .bool true => some "true"
  | .bool false => some "false"
  | .number n => some (numberText n)
  | .null | .object _ | .array _ => none

/-- The text of the value at a dotted path. -/
def lookup (path : List Char) (registry : Value) : Option String :=
  (lookupPath registry (Text.split '.' path)).bind scalarText

/-- The scan of a template, with `fuel` bounding the placeholders that are left and `out` the text
so far. -/
def resolveScan (registry : Value) : Nat → List Char → List Char → Except String (List Char)
  | 0, out, rest => .ok (out ++ rest)
  | fuel + 1, out, rest =>
    match Text.splitOnce openBraces rest with
    | none => .ok (out ++ rest)
    | some (before, after) =>
      match Text.splitOnce closeBraces after with
      | none => .error "unterminated \x7b\x7b"
      | some (inner, rest') =>
        let path := Text.trim inner
        match lookup path registry with
        | none => .error (String.ofList path)
        | some text => resolveScan registry fuel (out ++ before ++ text.toList) rest'

/-- Replace the placeholders of a template.  Each placeholder takes at least one character, so the
length of the template bounds their number. -/
def resolve (template : String) (registry : Value) : Except String String :=
  (resolveScan registry (template.toList.length + 1) [] template.toList).map String.ofList

end Wardian.Engine
