/-
The node types of the automation taxonomy.

Of each type the model keeps what validation and the engine read: whether it is supported, its
fields with their kinds, and its ports.  Labels, icons, help texts, defaults and versions are
authoring metadata and are left out.
-/

import Wardian.Json

set_option autoImplicit false

namespace Wardian.Automation

/-- The kinds of field values. -/
inductive FieldType
  | text
  | longText
  | prompt
  | code (language : String)
  | enum (options : List String)
  | bool
  | number
  | duration
  | path
  | agentRef
  | roleRef
  | classRef
  | mcpRef
  | automationRef
  | jsonSchema
  | kvMap
  | branchPort
  | cron
  | secretRef
  deriving DecidableEq

/-- A field of a node type. -/
structure FieldDef where
  id : String
  fieldType : FieldType
  required : Bool := false
  deriving DecidableEq

/-- The contract of a node type. -/
structure NodeTypeDef where
  id : String
  supported : Bool := true
  fields : List FieldDef
  /-- The ids of the input ports. -/
  inputs : List String
  /-- The ids of the output ports. -/
  outputs : List String
  /-- When set, the output ports are the strings of this field instead of `outputs`. -/
  outputsFromField : Option String := none

/-- All node types. -/
def nodeTypes : List NodeTypeDef :=
  [ { id := "task"
      fields := [⟨"agent", .agentRef, true⟩, ⟨"prompt", .prompt, true⟩,
        ⟨"output_schema", .jsonSchema, false⟩]
      inputs := ["in"]
      outputs := ["out"] },
    { id := "decision"
      fields := [⟨"agent", .agentRef, true⟩, ⟨"prompt", .prompt, true⟩,
        ⟨"choices", .branchPort, true⟩]
      inputs := ["in"]
      outputs := []
      outputsFromField := some "choices" },
    { id := "branch"
      fields := [⟨"condition", .text, true⟩]
      inputs := ["in"]
      outputs := ["on_true", "on_false"] },
    { id := "loop"
      fields := [⟨"max_iterations", .number, false⟩, ⟨"until", .text, false⟩]
      inputs := ["in"]
      outputs := ["body", "done"] },
    { id := "join"
      fields := []
      inputs := ["in"]
      outputs := ["out"] },
    { id := "approval"
      fields := [⟨"prompt", .prompt, false⟩]
      inputs := ["in"]
      outputs := ["out"] },
    { id := "shell"
      fields := [⟨"command", .longText, true⟩, ⟨"cwd", .path, false⟩]
      inputs := ["in"]
      outputs := ["out"] },
    { id := "script"
      fields := [⟨"runtime", .enum ["python", "node", "sh"], true⟩, ⟨"path", .path, true⟩]
      inputs := ["in"]
      outputs := ["out"] },
    { id := "state"
      fields := [⟨"op", .enum ["get", "set", "merge", "delete"], true⟩,
        ⟨"entries", .kvMap, false⟩]
      inputs := ["in"]
      outputs := ["out"] },
    { id := "memory_commit"
      fields := [⟨"source_node", .text, true⟩, ⟨"agent_id", .text, true⟩]
      inputs := ["in"]
      outputs := ["out"] },
    { id := "message_send"
      fields := [⟨"recipient", .text, true⟩, ⟨"artifact_path", .text, true⟩]
      inputs := ["in"]
      outputs := ["out"] },
    { id := "notify"
      fields := [⟨"message", .prompt, true⟩]
      inputs := ["in"]
      outputs := ["out"] },
    { id := "sub_automation"
      supported := false
      fields := [⟨"automation", .automationRef, true⟩]
      inputs := ["in"]
      outputs := ["out"] },
    { id := "manual_trigger"
      fields := [⟨"input_schema", .jsonSchema, false⟩]
      inputs := []
      outputs := ["out"] } ]

/-- Look up a node type by its id. -/
def findNodeType (id : String) : Option NodeTypeDef := nodeTypes.find? fun n => n.id == id

end Wardian.Automation
