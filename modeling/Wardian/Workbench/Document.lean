/-
The workbench document of the backend, and its validation.

A document arranges groups of tabs in a split tree, describes the surface behind each tab, and
remembers the surfaces closed last.  The backend validates the whole graph and reports every
violation with its path; it normalizes nothing.

The byte limits are about serialized JSON.  The writer is generated code over `serde_json`, so the
bytes come from a parameter, `SerdeJson`, which also carries the reader.
-/

import Wardian.Json
import Wardian.Lib.Table
import Mathlib.Data.Rat.Defs

set_option autoImplicit false

namespace Wardian.Workbench

def workbenchSchemaVersion : Nat := 1

/-- The largest integer that JavaScript represents exactly. -/
def maxSafeInteger : Nat := 9007199254740991

def maxWorkbenchDocumentBytes : Nat := 2 * 1024 * 1024
def maxWorkbenchSurfaceStateBytes : Nat := 64 * 1024
def maxWorkbenchTreeDepth : Nat := 64
def maxRecentlyClosedSurfaces : Nat := 20

/-! ### Numbers -/

/-- A double-precision number; a finite one is given by its exact value, negative zero apart. -/
inductive F64
  | nan
  | infinity (negative : Bool)
  | negativeZero
  | finite (value : Rat)
deriving DecidableEq

namespace F64

def isFinite : F64 → Bool
  | nan | infinity _ => false
  | negativeZero | finite _ => true

/-- The double nearest to one tenth. -/
def oneTenth : Rat := 3602879701896397 / 2 ^ 55

/-- The double nearest to nine tenths. -/
def nineTenths : Rat := 8106479329266893 / 2 ^ 53

/-- Membership in the closed interval from 0.1 to 0.9. -/
def inRatioRange : F64 → Bool
  | finite value => decide (oneTenth ≤ value ∧ value ≤ nineTenths)
  | nan | infinity _ | negativeZero => false

/-- Below zero; negative zero is not. -/
def isNegative : F64 → Bool
  | finite value => decide (value < 0)
  | infinity negative => negative
  | nan | negativeZero => false

end F64

/-- Negative zero among the JSON numbers; every other number of `serde_json` is finite and keeps
its sign. -/
def isNegativeZero : Number → Bool
  | .float text nonzero => !nonzero && text.startsWith "-"
  | .posInt _ | .negInt _ => false

/-! ### The document -/

inductive WorkbenchSplitDirection
  | horizontal
  | vertical
deriving DecidableEq

inductive WorkbenchNodeV1
  | group (groupId : String)
  | split (nodeId : String) (direction : WorkbenchSplitDirection) (ratio : F64)
      (first second : WorkbenchNodeV1)
deriving DecidableEq

structure WorkbenchGroupV1 where
  groupId : String
  surfaceIds : List String
  activeSurfaceId : Option String
deriving DecidableEq

/-- The provenance of an explicit duplicate, the only kind there is. -/
structure WorkbenchPresentationProvenanceV1 where
  duplicateSurfaceId : String
  partnerSurfaceId : Option String
  provisionalResourceKey : String
deriving DecidableEq

structure WorkbenchSurfaceV1 where
  surfaceId : String
  surfaceType : String
  resourceKey : Option String
  presentationProvenance : Option WorkbenchPresentationProvenanceV1
  stateSchemaVersion : Nat
  state : Value
deriving DecidableEq

structure ClosedSurfaceV1 where
  surface : WorkbenchSurfaceV1
  previousGroupId : String
  previousIndex : Nat
deriving DecidableEq

structure WorkbenchShellV1 where
  leftSidebarCollapsed : Bool
  leftSidebarWidth : F64
  rightSidebarCollapsed : Bool
  rightSidebarWidth : F64
  bottomTerminalOpen : Bool
  bottomTerminalHeight : F64
deriving DecidableEq

structure WorkbenchDocumentV1 where
  schemaVersion : Nat
  revision : Nat
  savedAt : String
  root : WorkbenchNodeV1
  groups : Table WorkbenchGroupV1
  surfaces : Table WorkbenchSurfaceV1
  activeGroupId : String
  recentlyClosed : List ClosedSurfaceV1
  shell : WorkbenchShellV1
deriving DecidableEq

/-- The document of a first launch. -/
def defaultDocument : WorkbenchDocumentV1 where
  schemaVersion := workbenchSchemaVersion
  revision := 0
  savedAt := "1970-01-01T00:00:00.000Z"
  root := .group "group-1"
  groups := (∅ : Table WorkbenchGroupV1).insert "group-1" ⟨"group-1", [], none⟩
  surfaces := ∅
  activeGroupId := "group-1"
  recentlyClosed := []
  shell := ⟨false, .finite 240, false, .finite 240, false, .finite 360⟩

/-! ### The writer and the reader of JSON -/

/-- The bytes of a file. -/
abbrev Bytes : Type := List UInt8

/-- What `serde_json` and the code that `serde` derives do.  The reader gives the text's value with
the members of every object as they stand there, repeated keys included. -/
structure SerdeJson where
  toVec : WorkbenchDocumentV1 → Bytes
  valueToVec : Value → Bytes
  parse : Bytes → Option Value
  fromValue : Value → Option WorkbenchDocumentV1

/-! ### Validation -/

structure WorkbenchValidationError where
  path : String
  message : String

/-- The violation, if there is one. -/
def errorIf (violated : Bool) (path message : String) : List WorkbenchValidationError :=
  if violated then [⟨path, message⟩] else []

def validateSafeInteger (value : Nat) (path : String) : List WorkbenchValidationError :=
  errorIf (maxSafeInteger < value) path "must be a non-negative safe integer"

/-- The digits of a range of characters as a number, if they are all digits. -/
def parseDigits (chars : List Char) : Option Nat :=
  if chars.all Char.isDigit then
    some (chars.foldl (fun n c => 10 * n + (c.toNat - '0'.toNat)) 0)
  else none

/-- The number of days of a month of the proleptic Gregorian calendar. -/
def daysInMonth (year month : Nat) : Nat :=
  match month with
  | 1 | 3 | 5 | 7 | 8 | 10 | 12 => 31
  | 4 | 6 | 9 | 11 => 30
  | 2 => if (year % 4 = 0 ∧ year % 100 ≠ 0) ∨ year % 400 = 0 then 29 else 28
  | _ => 0

/-- A date and a time of day in UTC with three digits of milliseconds. -/
def isCanonicalTimestamp (value : String) : Bool :=
  match value.toList with
  | [y1, y2, y3, y4, '-', mo1, mo2, '-', d1, d2, 'T', h1, h2, ':', mi1, mi2, ':', s1, s2, '.',
      ms1, ms2, ms3, 'Z'] =>
      match parseDigits [y1, y2, y3, y4], parseDigits [mo1, mo2], parseDigits [d1, d2],
        parseDigits [h1, h2], parseDigits [mi1, mi2], parseDigits [s1, s2],
        parseDigits [ms1, ms2, ms3] with
      | some year, some month, some day, some hour, some minute, some second, some _ =>
        decide (1 ≤ day ∧ day ≤ daysInMonth year month ∧ hour < 24 ∧ minute < 60 ∧ second < 60)
      | _, _, _, _, _, _, _ => false
  | _ => false

/-- What the walk through the tree has collected. -/
structure NodeScan where
  groupReferences : List String
  splitIds : List String
  errors : List WorkbenchValidationError

def NodeScan.addErrors (scan : NodeScan) (errors : List WorkbenchValidationError) : NodeScan :=
  { scan with errors := scan.errors ++ errors }

def validateNode (node : WorkbenchNodeV1) (depth : Nat) (path : String) (scan : NodeScan) :
    NodeScan :=
  if maxWorkbenchTreeDepth < depth then
    scan.addErrors [⟨path, "exceeds the 64-node tree depth limit"⟩]
  else
    match node with
    | .group groupId =>
      if groupId = "" then
        scan.addErrors [⟨path ++ ".group_id", "must be a non-empty string"⟩]
      else { scan with groupReferences := scan.groupReferences ++ [groupId] }
    | .split nodeId _ ratio first second =>
      let scan :=
        if nodeId = "" then
          scan.addErrors [⟨path ++ ".node_id", "must be a non-empty string"⟩]
        else if nodeId ∈ scan.splitIds then
          scan.addErrors [⟨path ++ ".node_id", "must be unique"⟩]
        else { scan with splitIds := nodeId :: scan.splitIds }
      let scan := scan.addErrors
        (errorIf (!(ratio.isFinite && ratio.inRatioRange)) (path ++ ".ratio")
          "must be a finite number in 0.1..0.9")
      let scan := validateNode first (depth + 1) (path ++ ".first") scan
      validateNode second (depth + 1) (path ++ ".second") scan

mutual

/-- The violations inside a JSON value, in the order of its text. -/
def validateJsonValue : Value → String → List WorkbenchValidationError
  | .number number, path =>
    errorIf (isNegativeZero number) path "must contain only round-trippable finite JSON numbers"
  | .array values, path => validateJsonList values path 0
  | .object members, path => validateJsonMembers members path
  | .null, _ | .bool _, _ | .string _, _ => []

def validateJsonList : List Value → String → Nat → List WorkbenchValidationError
  | [], _, _ => []
  | value :: values, path, index =>
    validateJsonValue value (path ++ "[" ++ toString index ++ "]") ++
      validateJsonList values path (index + 1)

def validateJsonMembers : List (String × Value) → String → List WorkbenchValidationError
  | [], _ => []
  | (key, value) :: members, path =>
    validateJsonValue value (path ++ "." ++ key) ++ validateJsonMembers members path

end

def validateProvenance (provenance : WorkbenchPresentationProvenanceV1) (surfaceId path : String) :
    List WorkbenchValidationError :=
  errorIf (provenance.duplicateSurfaceId ≠ surfaceId) (path ++ ".duplicate_surface_id")
      "must match the owning surface_id" ++
    errorIf (provenance.partnerSurfaceId = some "") (path ++ ".partner_surface_id")
      "must be a non-empty string or null" ++
    errorIf (provenance.partnerSurfaceId = some surfaceId) (path ++ ".partner_surface_id")
      "must not reference the duplicate surface itself" ++
    errorIf (provenance.provisionalResourceKey = "") (path ++ ".provisional_resource_key")
      "must be a non-empty string"

variable (serde : SerdeJson)

def validateSurface (surface : WorkbenchSurfaceV1) (path : String) :
    List WorkbenchValidationError :=
  errorIf (surface.surfaceId = "") (path ++ ".surface_id") "must be a non-empty string" ++
    errorIf (surface.surfaceType = "") (path ++ ".surface_type") "must be a non-empty string" ++
    (match surface.presentationProvenance with
    | some provenance =>
      validateProvenance provenance surface.surfaceId (path ++ ".presentation_provenance")
    | none => []) ++
    validateSafeInteger surface.stateSchemaVersion (path ++ ".state_schema_version") ++
    validateJsonValue surface.state (path ++ ".state") ++
    errorIf (maxWorkbenchSurfaceStateBytes < (serde.valueToVec surface.state).length)
      (path ++ ".state") "exceeds the 64 KiB UTF-8 limit"

/-- What the walk through a group's tabs has collected. -/
structure TabScan where
  localIds : List String
  references : List String
  errors : List WorkbenchValidationError

def validateTab (path : String) (scan : TabScan) (tab : String × Nat) : TabScan :=
  let tabPath := path ++ ".surface_ids[" ++ toString tab.2 ++ "]"
  if tab.1 = "" then
    { scan with errors := scan.errors ++ [⟨tabPath, "must be a non-empty string"⟩] }
  else
    { localIds := tab.1 :: scan.localIds
      references := scan.references ++ [tab.1]
      errors := scan.errors ++
        errorIf (tab.1 ∈ scan.localIds) tabPath "must not be duplicated in a group" }

/-- The violations of a group, and the surfaces that its tabs refer to. -/
def validateGroup (groupKey : String) (group : WorkbenchGroupV1) :
    List String × List WorkbenchValidationError :=
  let path := "$.groups." ++ groupKey
  let tabs := group.surfaceIds.zipIdx.foldl (validateTab path) ⟨[], [], []⟩
  let active :=
    if group.surfaceIds = [] then
      errorIf group.activeSurfaceId.isSome (path ++ ".active_surface_id")
        "must be null for an empty group"
    else
      errorIf (!(group.activeSurfaceId.any fun active => active ∈ tabs.localIds))
        (path ++ ".active_surface_id") "must reference a tab in the group"
  (tabs.references,
    errorIf (group.groupId ≠ groupKey) (path ++ ".group_id") "must match its record key" ++
      tabs.errors ++ active)

/-- The violations of a record whose keys must be referenced exactly once: a record that is not, and
a reference to no record. -/
def validateReferences (keys references : List String) (path missingPath once missing : String) :
    List WorkbenchValidationError :=
  (keys.flatMap fun key => errorIf (references.count key ≠ 1) (path ++ key) once) ++
    references.flatMap fun reference =>
      errorIf (reference ∉ keys) missingPath (missing ++ reference)

def validateShell (shell : WorkbenchShellV1) : List WorkbenchValidationError :=
  [("$.shell.left_sidebar_width", shell.leftSidebarWidth),
    ("$.shell.right_sidebar_width", shell.rightSidebarWidth),
    ("$.shell.bottom_terminal_height", shell.bottomTerminalHeight)].flatMap fun entry =>
      errorIf (!entry.2.isFinite || entry.2.isNegative || entry.2 = .negativeZero) entry.1
        "must be a finite non-negative number"

def validateClosed (closed : ClosedSurfaceV1) (index : Nat) : List WorkbenchValidationError :=
  let path := "$.recently_closed[" ++ toString index ++ "]"
  validateSurface serde closed.surface (path ++ ".surface") ++
    errorIf (closed.previousGroupId = "") (path ++ ".previous_group_id")
      "must be a non-empty string" ++
    validateSafeInteger closed.previousIndex (path ++ ".previous_index")

/-- The violations of the graph, the size of the document apart. -/
def WorkbenchDocumentV1.violations (document : WorkbenchDocumentV1) :
    List WorkbenchValidationError :=
  let tree := validateNode document.root 1 "$.root" ⟨[], [], []⟩
  let groups := document.groups.toList.map fun entry => validateGroup entry.1 entry.2
  let groupKeys := document.groups.toList.map Prod.fst
  let surfaceKeys := document.surfaces.toList.map Prod.fst
  errorIf (document.schemaVersion ≠ workbenchSchemaVersion) "$.schema_version" "must equal 1" ++
    validateSafeInteger document.revision "$.revision" ++
    errorIf (!isCanonicalTimestamp document.savedAt) "$.saved_at"
      "must be a canonical UTC millisecond timestamp" ++
    tree.errors ++
    groups.flatMap Prod.snd ++
    validateReferences groupKeys tree.groupReferences "$.groups." "$.root"
      "must be referenced exactly once by the tree" "references missing group " ++
    (document.surfaces.toList.flatMap fun entry =>
      validateSurface serde entry.2 ("$.surfaces." ++ entry.1) ++
        errorIf (entry.2.surfaceId ≠ entry.1) ("$.surfaces." ++ entry.1 ++ ".surface_id")
          "must match its record key") ++
    validateReferences surfaceKeys (groups.flatMap Prod.fst) "$.surfaces." "$.groups"
      "must be referenced exactly once by a group" "references missing surface " ++
    errorIf (document.activeGroupId = "" ∨ document.activeGroupId ∉ groupKeys ∨
        document.activeGroupId ∉ tree.groupReferences) "$.active_group_id"
      "must reference a tree group" ++
    errorIf (maxRecentlyClosedSurfaces < document.recentlyClosed.length) "$.recently_closed"
      "must contain at most 20 surfaces" ++
    (document.recentlyClosed.zipIdx.flatMap fun entry => validateClosed serde entry.1 entry.2) ++
    validateShell document.shell

/-- The violations of a document; it is valid when there are none.  Its size is only looked at when
nothing else is wrong. -/
def WorkbenchDocumentV1.validate (document : WorkbenchDocumentV1) :
    List WorkbenchValidationError :=
  let errors := document.violations serde
  if errors = [] then
    errorIf (maxWorkbenchDocumentBytes < (serde.toVec document).length) "$"
      "exceeds the 2 MiB UTF-8 document limit"
  else errors

end Wardian.Workbench
