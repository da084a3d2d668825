import VerilogTree.Store.View

/-!
# Summaries

A summary of a node says what can be worked out about it beyond its fields: the forms of its parts,
what stands in its growing list, and what has to be looked up behind a handle. Nodes in it are
references.
-/

namespace VerilogTree.Store

/-- The id of the first of some handles, if there is one. -/
def firstId (s : Store) (handles : List AnyHandle) : Shape NodeRef :=
  handles.head?.elim .absent fun h => .number (s.idAt h.slot)

/-- What the accessors of an expression say. -/
def expressionSummary (s : Store) (e : Expression) : List (String × Shape NodeRef) :=
  [("id", .number (s.idAt e.slot)), ("expression_type", s.shown e.form),
    ("is_constant", .flag (s.isConstant e))]

/-- What the accessors of a body say. Most kinds have none. -/
def bodySummary (s : Store) : Body → List (String × Shape NodeRef)
  | .expression (.identifier name) => [("display", .word name)]
  | .expression (.attributeList attributes) => [("entries", s.shown attributes)]
  | .expression (.lvalue target) =>
    [("lvalue_type", s.shown target.form), ("identifier", s.shown target.identifier?),
      ("concatenation", s.shown target.concatenation?), ("target_id", s.firstId (held target))]
  | .expression (.primary role value) =>
    [("is_constant", .flag role.isConstant), ("value_type", s.shown value.form),
      ("value_id", s.firstId (held value))]
  | .expression (.concatenation _ _ items) => [("items", s.shown items)]
  | .path (.declaration condition path) =>
    [("path_type", s.shown path.form), ("is_state_dependent", .flag condition.isStateDependent)]
  | .timing (.eventExpression trigger) =>
    [("event_type", s.shown trigger.form), ("expression", s.shown trigger.expression?)]
  | .statement (.loop head _) =>
    [("loop_type", s.shown head.form), ("condition", s.shown head.condition?)]
  | .statement (.caseStatement _ cases _ _ defaultItem) =>
    [("non_default_items", s.shown (nonDefaultItems cases defaultItem))]
  | .statement (.ifElse branches _) => [("branches", s.shown branches)]
  | .statement (.assignment body) => [("assignment_type", s.shown body.form)]
  | .statement (.statement _ _ _ data) =>
    [("statement_type", s.shown (StatementForm.ofData data)), ("is_null", .flag data.isNone)]
  | .primitive (.body table) => [("body_type", s.shown table.form)]
  | .primitive (.declaration _ _ _ body) => [("body_type", s.shown (s.udpForm? body))]
  | .primitive (.sequentialEntry inputs _ _) => [("prefix", s.shown inputs.form)]
  | .gate (.instantiation group) => [("gate_type", s.shown (s.gateForm? group))]
  | .design (.sourceText descriptions) =>
    [("modules", s.shown (descriptions.filterMap Description.module?)),
      ("udps", s.shown (descriptions.filterMap Description.udp?))]
  | _ => []

/-- The summary of a node. -/
def summary (s : Store) (h : AnyHandle) : Shape NodeRef :=
  .record <| match h.expression? with
    | some e => s.expressionSummary e
    | none => (s.body? h.slot).elim [] s.bodySummary

end VerilogTree.Store
