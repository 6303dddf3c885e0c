/-
What validation guarantees.

A blueprint without errors is well formed: its ids are distinct, its edges join declared nodes, loops
are not nested and nothing enters a loop body but from the loop, and the graph has no cycle.  The
engine runs only such blueprints, and what follows about runs rests on these facts alone.

Main results:

* `Automation.wellFormed_of_isValid` — a valid blueprint is well formed;
* `Automation.WellFormed.exists_rank` — its nodes have a rank that grows along every edge.
-/

import Wardian.Automation.Validate

set_option autoImplicit false

namespace Wardian.Automation

open List

/-- A node is a loop. -/
def IsLoop (bp : Blueprint) (id : String) : Prop :=
  ∃ nd, bp.findNode id = some nd ∧ nd.type = "loop"

/-- A node is in the body of a loop. -/
def InBody (bp : Blueprint) (id loopId : String) : Prop :=
  ∃ nd ∈ bp.nodes, nd.id = id ∧ nd.parent = some loopId

instance (bp : Blueprint) (id : String) : Decidable (IsLoop bp id) :=
  decidable_of_iff ((bp.findNode id).any fun nd => nd.type == "loop") (by
    cases h : bp.findNode id <;> simp [IsLoop, h])

instance (bp : Blueprint) (id loopId : String) : Decidable (InBody bp id loopId) :=
  inferInstanceAs (Decidable (∃ nd ∈ bp.nodes, nd.id = id ∧ nd.parent = some loopId))

/-- What validation guarantees of a blueprint. -/
structure WellFormed (bp : Blueprint) : Prop where
  nodup : (bp.nodes.map (·.id)).Nodup
  supported : ∀ nd ∈ bp.nodes, ∃ d, findNodeType nd.type = some d ∧ d.supported = true
  parent_loop : ∀ nd ∈ bp.nodes, ∀ p, nd.parent = some p → IsLoop bp p
  loop_top : ∀ nd ∈ bp.nodes, nd.type = "loop" → nd.parent = none
  loop_body : ∀ nd ∈ bp.nodes, nd.type = "loop" → ∃ b, InBody bp b nd.id
  edge_ends : ∀ e ∈ bp.edges, (∃ nd, bp.findNode e.fromNode = some nd) ∧
    ∃ nd, bp.findNode e.toNode = some nd
  /-- A port is one that the node declares. -/
  edge_port : ∀ e ∈ bp.edges, ∀ nd d, bp.findNode e.fromNode = some nd →
    findNodeType nd.type = some d → declaresOutputPort d nd e.fromPort = true
  /-- Nothing enters a body but from its loop and from the body itself. -/
  body_input : ∀ e ∈ bp.edges, ∀ p, InBody bp e.toNode p → e.fromNode = p ∨ InBody bp e.fromNode p
  /-- Every body node has an inbound edge. -/
  body_reached : ∀ b p, InBody bp b p → ∃ e ∈ bp.edges, e.toNode = b
  exists_rank : ∃ rank : String → Nat, ∀ e ∈ bp.edges, rank e.fromNode < rank e.toNode
  /-- The condition of a branch is a registry path. -/
  branch_condition : ∀ nd ∈ bp.nodes, nd.type = "branch" →
    ∃ text path, JsonMap.get? nd.fields "condition" = some (.string text) ∧
      validatePath text = .ok path
  /-- The condition that ends a loop is a registry path. -/
  loop_until : ∀ nd ∈ bp.nodes, nd.type = "loop" → ∀ v, JsonMap.get? nd.fields "until" = some v →
    ∃ text path, v = .string text ∧ validatePath text = .ok path
  /-- The delivery fields refer to the invocation and to the run only. -/
  delivery : ∀ nd ∈ bp.nodes, nd.type = "message_send" →
    ∀ key ∈ ["recipient", "artifact_path"],
      ∃ text, JsonMap.get? nd.fields key = some (.string text) ∧
        validateDeliveryTemplate text = .ok ()

/-! ### Findings without errors -/

/-- None of the findings is an error. -/
def Clean (ds : List Diagnostic) : Prop := ∀ d ∈ ds, d.severity ≠ .error

variable {ds : List Diagnostic}

theorem clean_append {ds' : List Diagnostic} : Clean (ds ++ ds') ↔ Clean ds ∧ Clean ds' := by
  simp only [Clean, mem_append, or_imp, forall_and]

theorem clean_flatMap {α : Type} {xs : List α} {f : α → List Diagnostic} :
    Clean (xs.flatMap f) ↔ ∀ x ∈ xs, Clean (f x) := by
  simp only [Clean, mem_flatMap, forall_exists_index, and_imp]
  exact ⟨fun h x hx d hd => h d x hx hd, fun h d x hx hd => h x hx d hd⟩

variable {code : String} {node : Option String}

theorem clean_err {message : String} :
    ¬Clean (.err code message node :: ds) := fun h => h _ mem_cons_self rfl

theorem clean_map_err {α : Type} {xs : List α} {message : α → String} {node : α → Option String}
    (h : Clean (xs.map fun x => .err code (message x) (node x))) : xs = [] := by
  cases xs with
  | nil => rfl
  | cons x xs => exact absurd h clean_err

theorem clean_ite_err {c : Prop} [Decidable c] {code message : String} {node : Option String}
    (h : Clean (if c then [.err code message node] else [])) : ¬c := by
  intro hc
  rw [if_pos hc] at h
  exact clean_err h

theorem clean_ite_not_err {c : Prop} [Decidable c] {message : String}
    (h : Clean (if c then [] else [.err code message node])) : c := by
  by_contra hc
  rw [if_neg hc] at h
  exact clean_err h

variable {bp : Blueprint}

/-- What a valid blueprint has no errors about. -/
theorem clean_of_isValid (h : (validate bp).isValid = true) :
    Clean (duplicateIdDiagnostics [] bp.nodes) ∧
    (∀ nd ∈ bp.nodes, Clean (nodeDiagnostics bp nd)) ∧
    (∀ nd ∈ bp.nodes, nd.type = "loop" → Clean (emptyLoopDiagnostics bp nd)) ∧
    (∀ e ∈ bp.edges, Clean (edgeDiagnostics bp e)) ∧
    (∀ nd ∈ bp.nodes, nd.type = "loop" → Clean (loopBodyDiagnostics bp nd)) ∧
    hasCycle bp = false := by
  have hcln : Clean (validate bp).diagnostics := by
    intro d hd hsev
    simp only [ValidationReport.isValid, Bool.not_eq_true', any_eq_false] at h
    exact h d hd (by simp [hsev])
  simp only [validate, clean_append, clean_flatMap, mem_filter, beq_iff_eq, and_imp] at hcln
  obtain ⟨⟨⟨⟨⟨hdup, hnds⟩, hemp⟩, hedges⟩, hbods⟩, hcycle⟩ := hcln
  refine ⟨hdup, hnds, hemp, hedges, hbods, ?_⟩
  simpa using clean_ite_err hcycle

/-! ### Ids and edges -/

/-- Identifiers differ from each other and from those seen before. -/
theorem nodup_of_clean : ∀ (nodes : List Node) (seen : List String),
    Clean (duplicateIdDiagnostics seen nodes) →
      (nodes.map (·.id)).Nodup ∧ ∀ nd ∈ nodes, nd.id ∉ seen := by
  intro nodes
  induction nodes with
  | nil => intro seen _; simp
  | cons nd nodes ih =>
    intro seen h
    rw [duplicateIdDiagnostics, clean_append] at h
    have hseen : nd.id ∉ seen := by simpa using clean_ite_err h.1
    obtain ⟨hndp, hrest⟩ := ih _ h.2
    refine ⟨?_, ?_⟩
    · rw [map_cons, nodup_cons]
      refine ⟨fun hmem => ?_, hndp⟩
      obtain ⟨nd', hnd', heq⟩ := mem_map.1 hmem
      exact hrest nd' hnd' (heq ▸ mem_cons_self)
    · intro nd' hnd'
      rcases mem_cons.1 hnd' with rfl | hnd'
      · exact hseen
      · exact fun hmem => hrest nd' hnd' (mem_cons_of_mem _ hmem)

/-- Both ends of an edge are nodes. -/
theorem edge_ends_of_clean {e : Edge} (h : Clean (edgeDiagnostics bp e)) :
    (∃ nd, bp.findNode e.fromNode = some nd) ∧ ∃ nd, bp.findNode e.toNode = some nd := by
  unfold edgeDiagnostics at h
  split at h
  · exact ⟨⟨_, ‹_›⟩, _, ‹_›⟩
  · exact absurd h clean_err

variable {nd : Node} {d : NodeTypeDef}

/-- An edge leaves by a port that its node declares. -/
theorem edge_port_of_clean {e : Edge}
    (hnd : bp.findNode e.fromNode = some nd) (hd : findNodeType nd.type = some d)
    (hspd : d.supported = true) (h : Clean (edgeDiagnostics bp e)) :
    declaresOutputPort d nd e.fromPort = true := by
  obtain ⟨nd', hnd'⟩ := (edge_ends_of_clean h).2
  rw [edgeDiagnostics, hnd, hnd', clean_append] at h
  have hport := h.1
  simp only [hd] at hport
  simpa [hspd] using clean_ite_err hport

/-! ### Nodes -/

/-- The type of a node is supported, and its fields are in order. -/
theorem supported_of_clean (h : Clean (nodeDiagnostics bp nd)) :
    ∃ d, findNodeType nd.type = some d ∧ d.supported = true ∧
      (∀ f ∈ d.fields, Clean (fieldDiagnostics nd f)) ∧
      (nd.type = "message_send" → ∀ key ∈ ["recipient", "artifact_path"],
        Clean (deliveryDiagnostics nd key)) ∧
      Clean (parentDiagnostics bp nd) := by
  unfold nodeDiagnostics at h
  split at h
  · exact absurd h clean_err
  · rename_i d hd
    split at h
    · exact absurd h clean_err
    · rename_i hspd
      simp only [clean_append, clean_flatMap] at h
      obtain ⟨⟨⟨hflds, -⟩, hdel⟩, hpar⟩ := h
      refine ⟨d, hd, by simpa using hspd, hflds, fun htype key hkey => ?_, hpar⟩
      rw [if_pos (by simpa using htype), clean_flatMap] at hdel
      exact hdel key hkey

/-- A parent is a loop, and a loop has none. -/
theorem parent_of_clean {p : String} (hp : nd.parent = some p)
    (h : Clean (parentDiagnostics bp nd)) : IsLoop bp p ∧ nd.type ≠ "loop" := by
  rw [parentDiagnostics, hp] at h
  dsimp only at h
  rw [clean_append] at h
  have hloop := clean_ite_not_err h.1
  refine ⟨?_, fun htype => ?_⟩
  · cases hfind : bp.findNode p with
    | none => simp [hfind] at hloop
    | some l => exact ⟨l, hfind, by simpa [hfind] using hloop⟩
  · have := clean_ite_err h.2
    simp [htype, hloop] at this

variable {f : FieldDef}

/-- A required text is there, and its condition is in order. -/
theorem string_of_clean (hrequ : f.required = true) (hfield : f.fieldType = .text)
    (hloop : nd.type ≠ "loop") (h : Clean (fieldDiagnostics nd f)) :
    ∃ text, JsonMap.get? nd.fields f.id = some (.string text) ∧
      Clean (conditionDiagnostics nd f (.string text)) := by
  unfold fieldDiagnostics at h
  split at h
  · rw [if_pos hrequ] at h
    exact absurd h clean_err
  · rename_i v hv
    rw [if_neg (by simp [hloop]), clean_append] at h
    obtain ⟨hcond, hkind⟩ := h
    rw [hfield] at hkind
    cases v with
    | string text => exact ⟨text, hv, hcond⟩
    | null | bool | number | array | object => exact absurd hkind clean_err

/-- The condition of a branch or of a loop is a path. -/
theorem condition_of_clean {text : String}
    (hcond : nd.type = "branch" ∧ f.id = "condition" ∨ nd.type = "loop" ∧ f.id = "until")
    (h : Clean (conditionDiagnostics nd f (.string text))) : ∃ path, validatePath text = .ok path := by
  rw [conditionDiagnostics, if_pos (by simpa using hcond)] at h
  simp only [Value.asStr, Option.map_some] at h
  cases hpath : validatePath text with
  | ok path => exact ⟨path, rfl⟩
  | error message =>
    rw [hpath] at h
    exact absurd h clean_err

theorem until_of_clean (htype : nd.type = "loop") {v : Value} (hv : JsonMap.get? nd.fields "until" = some v)
    (h : Clean (fieldDiagnostics nd ⟨"until", .text, false⟩)) :
    ∃ text path, v = .string text ∧ validatePath text = .ok path := by
  unfold fieldDiagnostics at h
  simp only [hv] at h
  rw [if_neg (by simp [htype]), clean_append] at h
  obtain ⟨hcond, hkind⟩ := h
  cases v with
  | string text =>
    obtain ⟨path, hpath⟩ := condition_of_clean (.inr ⟨htype, rfl⟩) hcond
    exact ⟨text, path, rfl, hpath⟩
  | null | bool | number | array | object => exact absurd hkind clean_err

theorem delivery_of_clean {key text : String} (htext : JsonMap.get? nd.fields key = some (.string text))
    (h : Clean (deliveryDiagnostics nd key)) : validateDeliveryTemplate text = .ok () := by
  simp only [deliveryDiagnostics, htext, Option.bind_some, Value.asStr] at h
  cases hval : validateDeliveryTemplate text with
  | ok u => rfl
  | error message =>
    rw [hval] at h
    exact absurd h clean_err

/-! ### Loop bodies -/

/-- The diagnostics look at the body of the loop. -/
theorem mem_loopBody {id loopId : String} : id ∈ loopBody bp loopId ↔ InBody bp id loopId := by
  simp only [loopBody, mem_map, mem_filter, beq_iff_eq, InBody]
  constructor
  · rintro ⟨nd, ⟨hnd, hp⟩, rfl⟩
    exact ⟨nd, hnd, rfl, hp⟩
  · rintro ⟨nd, hnd, rfl, hp⟩
    exact ⟨nd, ⟨hnd, hp⟩, rfl⟩

/-- The search only comes to ends of edges; by induction on its fuel. -/
theorem bodySearch_target {body : List String} :
    ∀ (fuel : Nat) (frontier reachable : List String),
      (∀ n ∈ frontier, ∃ e ∈ bp.edges, e.toNode = n) →
      (∀ n ∈ reachable, ∃ e ∈ bp.edges, e.toNode = n) →
      ∀ n ∈ bodySearch bp body fuel frontier reachable, ∃ e ∈ bp.edges, e.toNode = n := by
  intro fuel
  induction fuel with
  | zero => intro frontier reachable _ hr; exact hr
  | succ fuel ih =>
    intro frontier reachable hf hr
    cases frontier with
    | nil => exact hr
    | cons nodeId frontier =>
      have hrest : ∀ n ∈ frontier, ∃ e ∈ bp.edges, e.toNode = n :=
        fun n hn => hf n (mem_cons_of_mem _ hn)
      rw [bodySearch]
      split
      · exact ih _ _ hrest hr
      · refine ih _ _ (fun n hn => ?_) (fun n hn => ?_)
        · rcases mem_append.1 hn with hn | hn
          · obtain ⟨e, he, rfl⟩ := mem_map.1 (mem_reverse.1 hn)
            exact ⟨e, mem_of_mem_filter he, rfl⟩
          · exact hrest n hn
        · rcases mem_cons.1 hn with rfl | hn
          · exact hf _ mem_cons_self
          · exact hr n hn

theorem bodyReachable_target {loopId n : String}
    (h : n ∈ bodyReachable bp loopId) : ∃ e ∈ bp.edges, e.toNode = n := by
  refine bodySearch_target _ _ _ (fun n hn => ?_) (fun n hn => ?_) n h
  · obtain ⟨e, he, rfl⟩ := mem_map.1 (mem_reverse.1 hn)
    exact ⟨e, mem_of_mem_filter he, rfl⟩
  · simp at hn

/-- Every node of a body is the end of an edge, and all edges into it come from its loop or from
within. -/
theorem body_of_clean {l : Node} (h : Clean (loopBodyDiagnostics bp l)) :
    (∀ b, InBody bp b l.id → ∃ e ∈ bp.edges, e.toNode = b) ∧
    ∀ e ∈ bp.edges, InBody bp e.toNode l.id → e.fromNode = l.id ∨ InBody bp e.fromNode l.id := by
  unfold loopBodyDiagnostics at h
  dsimp only at h
  split at h
  · rename_i hemp
    have hno : ∀ b, ¬InBody bp b l.id := by
      intro b hb
      have hmem := mem_loopBody.2 hb
      rw [List.isEmpty_iff.1 hemp] at hmem
      cases hmem
    exact ⟨fun b hb => absurd hb (hno b), fun e _ he => absurd he (hno _)⟩
  · simp only [clean_append] at h
    obtain ⟨⟨-, hunre⟩, hexte⟩ := h
    refine ⟨fun b hb => ?_, fun e he hb => ?_⟩
    · have hnil := clean_map_err hunre
      have hmem : b ∈ bodyReachable bp l.id := by
        have := filter_eq_nil_iff.1 hnil b (mem_loopBody.2 hb)
        simpa using this
      exact bodyReachable_target hmem
    · have hnil := clean_map_err hexte
      have := filter_eq_nil_iff.1 hnil e he
      have hto : (loopBody bp l.id).contains e.toNode = true := by
        simpa using mem_loopBody.2 hb
      rw [hto, Bool.true_and] at this
      by_contra hne
      rw [not_or] at hne
      have hfrom : e.fromNode ∉ loopBody bp l.id := fun h => hne.2 (mem_loopBody.1 h)
      simp [hne.1, hfrom] at this

/-- A loop has an edge into its body. -/
theorem exists_body_entry (h : (validate bp).isValid = true) {l : Node}
    (hl : l ∈ bp.nodes) (htype : l.type = "loop") :
    ∃ e ∈ bp.edges, e.fromNode = l.id ∧ e.fromPort = "body" ∧ InBody bp e.toNode l.id := by
  obtain ⟨-, -, hemp, -, hbods, -⟩ := clean_of_isValid h
  have hbody := hemp l hl htype
  rw [emptyLoopDiagnostics] at hbody
  obtain ⟨b, hb, hp⟩ := any_eq_true.1 (clean_ite_not_err hbody)
  have hcln := hbods l hl htype
  unfold loopBodyDiagnostics at hcln
  dsimp only at hcln
  split at hcln
  · rename_i hnone
    have hmem := mem_loopBody.2 ⟨b, hb, rfl, by simpa using hp⟩
    rw [List.isEmpty_iff.1 hnone] at hmem
    cases hmem
  · simp only [clean_append] at hcln
    have hrchd := clean_ite_err hcln.1.1
    unfold bodyReachable at hrchd
    dsimp only at hrchd
    cases hents : bp.edges.filter fun e =>
        e.fromNode == l.id && e.fromPort == "body" && (loopBody bp l.id).contains e.toNode with
    | nil =>
      rw [hents] at hrchd
      exact absurd rfl hrchd
    | cons e rest =>
      have hmem : e ∈ bp.edges.filter fun e =>
          e.fromNode == l.id && e.fromPort == "body" && (loopBody bp l.id).contains e.toNode := by
        rw [hents]
        exact mem_cons_self
      obtain ⟨he, hport⟩ := mem_filter.1 hmem
      simp only [Bool.and_eq_true, beq_iff_eq, contains_iff_mem] at hport
      exact ⟨e, he, hport.1.1, hport.1.2, mem_loopBody.1 hport.2⟩

/-! ### Cycles -/

theorem entryVertices_spec (bp : Blueprint) :
    (entryVertices bp).Nodup ∧ (∀ v ∈ entryVertices bp, Kahn.pending (declaredEdges bp) [] v = 0) ∧
      ∀ v ∈ entryVertices bp, v ∈ bp.nodes.map (·.id) := by
  unfold entryVertices
  refine ⟨(nodup_dedup _).filter _, fun v hv => ?_, fun v hv => ?_⟩
  · simpa using (mem_filter.1 hv).2
  · exact mem_dedup.1 (mem_filter.1 hv).1

/-- Without a cycle the nodes can be ranked along the edges. -/
theorem exists_rank_of_acyclic
    (hends : ∀ e ∈ bp.edges, (∃ nd, bp.findNode e.fromNode = some nd) ∧ ∃ nd, bp.findNode e.toNode = some nd)
    (h : hasCycle bp = false) : ∃ rank : String → Nat, ∀ e ∈ bp.edges, rank e.fromNode < rank e.toNode := by
  obtain ⟨hndp, hzero, hsub⟩ := entryVertices_spec bp
  have hall : (Kahn.run (declaredEdges bp) bp.nodes.length
      (Kahn.start (declaredEdges bp) (entryVertices bp))).visited.length =
        (bp.nodes.map (·.id)).length := by
    simpa [hasCycle, hasCycleFrom] using h
  obtain ⟨rank, hrank⟩ := Kahn.exists_rank hndp hzero hsub (fun e he => by
    obtain ⟨e', he', rfl⟩ := mem_map.1 he
    have := (mem_filter.1 he').2
    simpa using (Bool.and_eq_true_iff.1 this).2) hall
  refine ⟨rank, fun e he => hrank (e.fromNode, e.toNode) ?_⟩
  have hmem : ∀ id nd, bp.findNode id = some nd → (bp.nodes.map (·.id)).contains id = true := by
    intro id nd hnd
    obtain ⟨hin, rfl⟩ := Blueprint.findNode_some hnd
    simpa using ⟨nd, hin, rfl⟩
  obtain ⟨⟨nd, hnd⟩, nd', hnd'⟩ := hends e he
  refine mem_map.2 ⟨e, mem_filter.2 ⟨he, ?_⟩, rfl⟩
  rw [hmem _ _ hnd, hmem _ _ hnd']
  rfl

/-! ### A valid blueprint is well formed -/

theorem mem_fields {type : String} (hd : findNodeType type = some d)
    (hf : ((findNodeType type).map fun d => d.fields.contains f) = some true) : f ∈ d.fields := by
  rw [hd] at hf
  simpa using hf

/-- **A valid blueprint is well formed.** -/
theorem wellFormed_of_isValid (h : (validate bp).isValid = true) : WellFormed bp := by
  obtain ⟨hdup, hnds, hemp, hedges, hbods, hcycle⟩ := clean_of_isValid h
  have hndp : (bp.nodes.map (·.id)).Nodup := (nodup_of_clean _ _ hdup).1
  have hends : ∀ e ∈ bp.edges, (∃ nd, bp.findNode e.fromNode = some nd) ∧
      ∃ nd, bp.findNode e.toNode = some nd := fun e he => edge_ends_of_clean (hedges e he)
  have hloop : ∀ b p, InBody bp b p → ∃ l ∈ bp.nodes, l.id = p ∧ l.type = "loop" := by
    rintro b p ⟨nd, hnd, -, hp⟩
    obtain ⟨d, -, -, -, -, hpar⟩ := supported_of_clean (hnds nd hnd)
    obtain ⟨l, hl, htype⟩ := (parent_of_clean hp hpar).1
    obtain ⟨hin, hid⟩ := Blueprint.findNode_some hl
    exact ⟨l, hin, hid, htype⟩
  refine
    { nodup := hndp
      supported := fun nd hnd => ?_
      parent_loop := fun nd hnd p hp => ?_
      loop_top := fun nd hnd htype => ?_
      loop_body := fun nd hnd htype => ?_
      edge_ends := hends
      edge_port := fun e he nd d hnd hd => ?_
      body_input := fun e he p hb => ?_
      body_reached := fun b p hb => ?_
      exists_rank := exists_rank_of_acyclic hends hcycle
      branch_condition := fun nd hnd htype => ?_
      loop_until := fun nd hnd htype v hv => ?_
      delivery := fun nd hnd htype key hkey => ?_ }
  · obtain ⟨d, hd, hspd, -⟩ := supported_of_clean (hnds nd hnd)
    exact ⟨d, hd, hspd⟩
  · obtain ⟨d, -, -, -, -, hpar⟩ := supported_of_clean (hnds nd hnd)
    exact (parent_of_clean hp hpar).1
  · obtain ⟨d, -, -, -, -, hpar⟩ := supported_of_clean (hnds nd hnd)
    cases hp : nd.parent with
    | none => rfl
    | some p => exact absurd htype (parent_of_clean hp hpar).2
  · have := hemp nd hnd htype
    rw [emptyLoopDiagnostics] at this
    obtain ⟨b, hb, hp⟩ := any_eq_true.1 (clean_ite_not_err this)
    exact ⟨b.id, b, hb, rfl, by simpa using hp⟩
  · obtain ⟨hin, -⟩ := Blueprint.findNode_some hnd
    obtain ⟨d', hd', hspd, -⟩ := supported_of_clean (hnds nd hin)
    rw [hd] at hd'
    obtain rfl := Option.some.inj hd'
    exact edge_port_of_clean hnd hd hspd (hedges e he)
  · obtain ⟨l, hl, rfl, htype⟩ := hloop _ _ hb
    exact (body_of_clean (hbods l hl htype)).2 e he hb
  · obtain ⟨l, hl, rfl, htype⟩ := hloop _ _ hb
    exact (body_of_clean (hbods l hl htype)).1 b hb
  · obtain ⟨d, hd, -, hflds, -⟩ := supported_of_clean (hnds nd hnd)
    have hf : (⟨"condition", .text, true⟩ : FieldDef) ∈ d.fields :=
      mem_fields hd (by rw [htype]; decide)
    obtain ⟨text, htext, hcln⟩ := string_of_clean rfl rfl (by rw [htype]; decide)
      (hflds _ hf)
    obtain ⟨path, hpath⟩ := condition_of_clean (.inl ⟨htype, rfl⟩) hcln
    exact ⟨text, path, htext, hpath⟩
  · obtain ⟨d, hd, -, hflds, -⟩ := supported_of_clean (hnds nd hnd)
    have hf : (⟨"until", .text, false⟩ : FieldDef) ∈ d.fields :=
      mem_fields hd (by rw [htype]; decide)
    exact until_of_clean htype hv (hflds _ hf)
  · obtain ⟨d, hd, -, hflds, hdel, -⟩ := supported_of_clean (hnds nd hnd)
    have hf : (⟨key, .text, true⟩ : FieldDef) ∈ d.fields := by
      refine mem_fields hd ?_
      rw [htype]
      simp only [mem_cons, not_mem_nil, or_false] at hkey
      rcases hkey with rfl | rfl <;> decide
    obtain ⟨text, htext, -⟩ := string_of_clean rfl rfl (by rw [htype]; decide) (hflds _ hf)
    exact ⟨text, htext, delivery_of_clean htext (hdel htype key hkey)⟩

/-! ### Loops and bodies -/

namespace WellFormed

variable {bp : Blueprint}

theorem findNode_of_mem (h : WellFormed bp) {nd : Node} (hnd : nd ∈ bp.nodes) :
    bp.findNode nd.id = some nd := Blueprint.findNode_of_mem h.nodup hnd

theorem isLoop_of_mem (h : WellFormed bp) {nd : Node} (hnd : nd ∈ bp.nodes)
    (htype : nd.type = "loop") : IsLoop bp nd.id := ⟨nd, h.findNode_of_mem hnd, htype⟩

variable {p : String}

theorem isLoop_of_inBody (h : WellFormed bp) {b : String} (hb : InBody bp b p) : IsLoop bp p := by
  obtain ⟨nd, hnd, -, hp⟩ := hb
  exact h.parent_loop nd hnd p hp

/-- Loops are not nested. -/
theorem not_inBody_of_isLoop (h : WellFormed bp) {l : String} (hl : IsLoop bp l) : ¬InBody bp l p := by
  rintro ⟨nd, hnd, rfl, hp⟩
  obtain ⟨nd', hnd', htype⟩ := hl
  rw [h.findNode_of_mem hnd] at hnd'
  obtain rfl := Option.some.inj hnd'
  rw [h.loop_top nd hnd htype] at hp
  cases hp

/-- A node is in the body of one loop. -/
theorem inBody_unique (h : WellFormed bp) {b q : String} (hp : InBody bp b p)
    (hq : InBody bp b q) : p = q := by
  obtain ⟨nd, hnd, rfl, hp⟩ := hp
  obtain ⟨nd', hnd', hid, hq⟩ := hq
  have hfind := h.findNode_of_mem hnd
  rw [← hid, h.findNode_of_mem hnd'] at hfind
  obtain rfl := Option.some.inj hfind
  rw [hp] at hq
  exact Option.some.inj hq

end WellFormed

end Wardian.Automation
