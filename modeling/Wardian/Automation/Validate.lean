/-
Validation of blueprints.

`validate` returns every finding; a blueprint is valid when none of them is an error.  The findings
come in the order of the source, except that the source reports the unreachable nodes of one loop
body in the order of a hash set and the model in the order of the nodes.
-/

import Wardian.Automation.Blueprint
import Wardian.Automation.Condition
import Wardian.Automation.Registry
import Wardian.Lib.Kahn

set_option autoImplicit false

namespace Wardian.Automation

open Text

inductive Severity
  | error
  | warning
  deriving DecidableEq

/-- One finding; `code` is stable and `message` is for humans. -/
structure Diagnostic where
  severity : Severity
  code : String
  message : String
  node : Option String

def Diagnostic.err (code message : String) (node : Option String) : Diagnostic :=
  ⟨.error, code, message, node⟩

def Diagnostic.warning (code message : String) (node : Option String) : Diagnostic :=
  ⟨.warning, code, message, node⟩

structure ValidationReport where
  diagnostics : List Diagnostic

def ValidationReport.isValid (r : ValidationReport) : Bool :=
  !r.diagnostics.any fun d => d.severity = .error

def ValidationReport.errors (r : ValidationReport) : List Diagnostic :=
  r.diagnostics.filter fun d => d.severity = .error

/-! ### Delivery templates -/

/-- The two characters that open an interpolation. -/
def openBraces : List Char := ['\x7b', '\x7b']

/-- The two characters that close an interpolation. -/
def closeBraces : List Char := ['\x7d', '\x7d']

/-- Whether a path may be interpolated into a delivery field. -/
def isDeliveryPath (path : List Char) : Bool :=
  path == "run.id".toList || "trigger.output.".toList.isPrefixOf path

/-- The scan of a delivery template, with `fuel` bounding the interpolations that are left. -/
def validateDeliveryScan : Nat → List Char → Except String Unit
  | 0, _ => .ok ()
  | fuel + 1, rest =>
    match splitOnce openBraces rest with
    | none => .ok ()
    | some (_, after) =>
      match splitOnce closeBraces after with
      | none => .error "unterminated interpolation"
      | some (inner, rest') =>
        let path := trim inner
        match validatePath (String.ofList path) with
        | .error message => .error message
        | .ok _ =>
          if isDeliveryPath path then validateDeliveryScan fuel rest'
          else .error
            "delivery fields only support trigger.output values and reserved run.id"

/-- Delivery inputs come from the invocation or the run identity only. -/
def validateDeliveryTemplate (value : String) : Except String Unit :=
  if (trim value.toList).isEmpty then .error "expected a nonempty delivery field"
  else validateDeliveryScan (value.toList.length + 1) value.toList

/-! ### Field values -/

/-- The debug rendering of a list of strings. -/
def debugStrings (options : List String) : String :=
  "[" ++ ", ".intercalate (options.map fun o => "\"" ++ o ++ "\"") ++ "]"

/-- A message when `value` cannot be of the field type. -/
def checkValueKind (fieldType : FieldType) (value : Value) : Option String :=
  match fieldType with
  | .bool =>
    match value with
    | .bool _ => none
    | _ => some "expected a boolean"
  | .number =>
    match value with
    | .number _ => none
    | _ => some "expected a number"
  | .kvMap =>
    match value with
    | .object _ => none
    | _ => some "expected an object"
  | .branchPort =>
    match value with
    | .array values =>
      if values.all fun v => v.asStr.isSome then none else some "expected an array of strings"
    | _ => some "expected an array of strings"
  | .enum options =>
    match value with
    | .string s =>
      if options.contains s then none
      else some s!"`{s}` is not one of {debugStrings options}"
    | _ => some "expected a string"
  | _ =>
    match value with
    | .string _ => none
    | _ => some "expected a string"

/-- Whether a value is a single interpolation. -/
def isSingleTemplate (value : String) : Bool :=
  let trimmed := trim value.toList
  if !openBraces.isPrefixOf trimmed || !closeBraces.isSuffixOf trimmed then false
  else
    let inner := trim ((trimmed.drop 2).take (trimmed.length - 4))
    !inner.isEmpty && (splitOnce openBraces inner).isNone &&
      (splitOnce closeBraces inner).isNone

def checkLoopMaxIterations (value : Value) : Option String :=
  match value.asU64 with
  | some n =>
    if n = 0 then some "expected a positive integer or a \x7b\x7b...\x7d\x7d template" else none
  | none =>
    match value.asStr with
    | some template =>
      if isSingleTemplate template then none
      else some "expected a positive integer or a single \x7b\x7b...\x7d\x7d template"
    | none => some "expected a positive integer or a \x7b\x7b...\x7d\x7d template"

/-! ### Ports -/

def declaresOutputPort (d : NodeTypeDef) (node : Node) (port : String) : Bool :=
  match d.outputsFromField with
  | some field =>
    match (JsonMap.get? node.fields field).bind Value.asArray with
    | some values => values.any fun v => v.asStr == some port
    | none => false
  | none => d.outputs.contains port

def isValidPortId (port : String) : Bool := isIdentifier port.toList

/-- The findings about the choices of a decision, with `seen` the earlier ones. -/
def decisionChoiceDiagnostics (bp : Blueprint) (node : Node) (seen : List String) :
    List Value → List Diagnostic
  | [] => []
  | .string choice :: rest =>
    (if isValidPortId choice then [] else
      [.err "invalid_decision_choice"
        s!"decision node `{node.id}` choice `{choice}` is not a valid output port id"
        (some node.id)]) ++
    (if seen.contains choice then
      [.err "duplicate_decision_choice"
        s!"decision node `{node.id}` declares choice `{choice}` more than once" (some node.id)]
      else []) ++
    (if isValidPortId choice &&
        !bp.edges.any (fun e => e.fromNode == node.id && e.fromPort == choice) then
      [.err "unconnected_decision_choice"
        s!"decision node `{node.id}` choice `{choice}` has no outgoing edge" (some node.id)]
      else []) ++
    decisionChoiceDiagnostics bp node (choice :: seen) rest
  | _ :: rest => decisionChoiceDiagnostics bp node seen rest

def validateDecisionChoices (bp : Blueprint) (node : Node) : List Diagnostic :=
  match (JsonMap.get? node.fields "choices").bind Value.asArray with
  | none => []
  | some choices =>
    if choices.isEmpty then
      [.err "empty_decision_choices"
        s!"decision node `{node.id}` must declare at least one choice" (some node.id)]
    else decisionChoiceDiagnostics bp node [] choices

/-! ### Nodes -/

/-- The findings about the ids, with `seen` the earlier ones. -/
def duplicateIdDiagnostics (seen : List String) : List Node → List Diagnostic
  | [] => []
  | node :: rest =>
    (if seen.contains node.id then
      [.err "duplicate_node_id" s!"duplicate node id `{node.id}`" (some node.id)] else []) ++
    duplicateIdDiagnostics (node.id :: seen) rest

/-- The findings about a branch or loop condition. -/
def conditionDiagnostics (node : Node) (field : FieldDef) (value : Value) : List Diagnostic :=
  if (node.type == "branch" && field.id == "condition") ||
      (node.type == "loop" && field.id == "until") then
    match value.asStr.map validatePath with
    | some (.error message) =>
      [.err "invalid_condition" s!"node `{node.id}` field `{field.id}`: {message}"
        (some node.id)]
    | _ => []
  else []

/-- The findings about one field of a node. -/
def fieldDiagnostics (node : Node) (field : FieldDef) : List Diagnostic :=
  match JsonMap.get? node.fields field.id with
  | none =>
    if field.required then
      [.err "missing_required_field"
        s!"node `{node.id}` is missing required field `{field.id}`" (some node.id)]
    else []
  | some value =>
    if node.type == "loop" && field.id == "max_iterations" then
      match checkLoopMaxIterations value with
      | some msg =>
        [.warning "invalid_loop_max_iterations"
          s!"node `{node.id}` field `max_iterations`: {msg}" (some node.id)]
      | none => []
    else
      conditionDiagnostics node field value ++
      match checkValueKind field.fieldType value with
      | some msg =>
        [.err "invalid_field_value" s!"node `{node.id}` field `{field.id}`: {msg}"
          (some node.id)]
      | none => []

/-- The findings about one delivery field of a `message_send` node. -/
def deliveryDiagnostics (node : Node) (key : String) : List Diagnostic :=
  match (JsonMap.get? node.fields key).bind Value.asStr with
  | none => []
  | some value =>
    match validateDeliveryTemplate value with
    | .ok () => []
    | .error message =>
      [.err "invalid_delivery_template" s!"node `{node.id}` field `{key}`: {message}"
        (some node.id)]

/-- The findings about the container of a node. -/
def parentDiagnostics (bp : Blueprint) (node : Node) : List Diagnostic :=
  match node.parent with
  | none => []
  | some parentId =>
    let parentIsLoop := ((bp.findNode parentId).map fun p => p.type == "loop").getD false
    (if parentIsLoop then [] else
      [.err "invalid_parent" s!"node `{node.id}` parent `{parentId}` is not a loop node"
        (some node.id)]) ++
    (if node.type == "loop" && parentIsLoop then
      [.err "nested_loop_unsupported"
        s!"loop node `{node.id}` cannot be nested inside loop `{parentId}` until nested-loop replay is supported"
        (some node.id)]
      else [])

/-- The findings about one node. -/
def nodeDiagnostics (bp : Blueprint) (node : Node) : List Diagnostic :=
  match findNodeType node.type with
  | none =>
    [.err "unknown_node_type"
      s!"unknown node type `{node.type}` (see `wardian automation node-types`)" (some node.id)]
  | some d =>
    if !d.supported then
      [.err "unsupported_node_type"
        s!"node type `{node.type}` is registered but not supported by the automation runtime"
        (some node.id)]
    else
      d.fields.flatMap (fieldDiagnostics node) ++
      (if node.type == "decision" then validateDecisionChoices bp node else []) ++
      (if node.type == "message_send" then
        ["recipient", "artifact_path"].flatMap (deliveryDiagnostics node) else []) ++
      parentDiagnostics bp node

/-! ### Edges -/

/-- The findings about one edge. -/
def edgeDiagnostics (bp : Blueprint) (edge : Edge) : List Diagnostic :=
  match bp.findNode edge.fromNode, bp.findNode edge.toNode with
  | some fromNode, some toNode =>
    (match findNodeType fromNode.type with
      | some d =>
        if d.supported && !declaresOutputPort d fromNode edge.fromPort then
          [.err "unknown_output_port"
            s!"edge `{edge.fromNode}` -> `{edge.toNode}` uses unknown output port `{edge.fromPort}` on node `{edge.fromNode}`"
            (some edge.fromNode)]
        else []
      | none => []) ++
    (match findNodeType toNode.type with
      | some d =>
        if d.supported && !d.inputs.contains edge.toPort then
          [.err "unknown_input_port"
            s!"edge `{edge.fromNode}` -> `{edge.toNode}` uses unknown input port `{edge.toPort}` on node `{edge.toNode}`"
            (some edge.toNode)]
        else []
      | none => [])
  | _, _ =>
    [.err "dangling_edge"
      s!"edge `{edge.fromNode}` -> `{edge.toNode}` references a missing node" none]

/-! ### Loop bodies -/

/-- The nodes of a loop's body. -/
def loopBody (bp : Blueprint) (loopId : String) : List String :=
  (bp.nodes.filter fun n => n.parent == some loopId).map (·.id)

/-- The search for the reachable body nodes; the frontier is a stack with its top first, and
`fuel` bounds the number of nodes taken from it. -/
def bodySearch (bp : Blueprint) (body : List String) :
    Nat → List String → List String → List String
  | 0, _, reachable => reachable
  | _ + 1, [], reachable => reachable
  | fuel + 1, nodeId :: frontier, reachable =>
    if reachable.contains nodeId then bodySearch bp body fuel frontier reachable
    else
      let next := (bp.edges.filter fun e =>
        e.fromNode == nodeId && body.contains e.toNode).map (·.toNode)
      bodySearch bp body fuel (next.reverse ++ frontier) (nodeId :: reachable)

/-- The body nodes reachable from the loop's `body` port.  Every edge is followed at most once, so
the number of edges bounds the search. -/
def bodyReachable (bp : Blueprint) (loopId : String) : List String :=
  let body := loopBody bp loopId
  let frontier := (bp.edges.filter fun e =>
    e.fromNode == loopId && e.fromPort == "body" && body.contains e.toNode).map (·.toNode)
  bodySearch bp body (bp.edges.length + 1) frontier.reverse []

/-- The findings about the body of one loop. -/
def loopBodyDiagnostics (bp : Blueprint) (loopNode : Node) : List Diagnostic :=
  let body := loopBody bp loopNode.id
  if body.isEmpty then []
  else
    let reachable := bodyReachable bp loopNode.id
    (if reachable.isEmpty then
      [.err "missing_loop_body_entry"
        s!"loop node `{loopNode.id}` must connect its `body` port to a body node"
        (some loopNode.id)] else []) ++
    ((body.filter fun id => !reachable.contains id).map fun nodeId =>
      .err "unreachable_loop_body"
        s!"loop body node `{nodeId}` is not reachable from loop `{loopNode.id}` body port"
        (some nodeId)) ++
    ((bp.edges.filter fun e => body.contains e.toNode &&
        e.fromNode != loopNode.id && !body.contains e.fromNode).map fun edge =>
      .err "loop_body_external_input"
        s!"loop body node `{edge.toNode}` cannot receive an inbound edge from outside loop `{loopNode.id}`"
        (some edge.toNode))

/-! ### Cycles -/

/-- The edges between declared nodes, as pairs. -/
def declaredEdges (bp : Blueprint) : List (String × String) :=
  (bp.edges.filter fun e =>
    (bp.nodes.map (·.id)).contains e.fromNode && (bp.nodes.map (·.id)).contains e.toNode).map
      fun e => (e.fromNode, e.toNode)

/-- Whether the visits of Kahn's algorithm, started from the stack `ready`, miss a node. -/
def hasCycleFrom (bp : Blueprint) (ready : List String) : Bool :=
  (Kahn.run (declaredEdges bp) bp.nodes.length
    (Kahn.start (declaredEdges bp) ready)).visited.length != bp.nodes.length

/-- The declared nodes without an inbound edge, each once. -/
def entryVertices (bp : Blueprint) : List String :=
  (bp.nodes.map (·.id)).dedup.filter fun v => Kahn.pending (declaredEdges bp) [] v = 0

/-- Kahn's algorithm over the edges between declared nodes.  The source takes the first vertices
from a hash map in an unspecified order; here they are in the order of the nodes. -/
def hasCycle (bp : Blueprint) : Bool := hasCycleFrom bp (entryVertices bp)

/-! ### The whole validation -/

/-- The findings about a loop without body nodes. -/
def emptyLoopDiagnostics (bp : Blueprint) (node : Node) : List Diagnostic :=
  if bp.nodes.any fun child => child.parent == some node.id then []
  else
    [.err "empty_loop_body" s!"loop node `{node.id}` must contain at least one body node"
      (some node.id)]

/-- Validate a blueprint against the registry and the structural rules. -/
def validate (bp : Blueprint) : ValidationReport :=
  { diagnostics :=
      duplicateIdDiagnostics [] bp.nodes ++
      bp.nodes.flatMap (nodeDiagnostics bp) ++
      (bp.nodes.filter fun n => n.type == "loop").flatMap (emptyLoopDiagnostics bp) ++
      bp.edges.flatMap (edgeDiagnostics bp) ++
      (bp.nodes.filter fun n => n.type == "loop").flatMap (loopBodyDiagnostics bp) ++
      (if hasCycle bp then
        [.err "cycle_detected"
          "graph contains a cycle; use a loop container instead of a back-edge" none] else []) }

end Wardian.Automation
