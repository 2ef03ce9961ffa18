import SmallScheme.Node.Basic
import SmallScheme.Outline.Datum

namespace SmallScheme

/-! Outlines of node trees. -/

private def clauseOutline (test body : Outline) : Outline :=
  .record "CondClause" [("test", test), ("body", body)]

mutual

def Node.outline : Node → Outline
  | .literal value => .tuple "Literal" [value.outline]
  | .variable name => .tuple "LoadVar" [name.outline]
  | .quote value => .tuple "Quote" [value.outline]
  | .branch test consequent none =>
      .record "If" [("test", test.outline), ("consequent", consequent.outline),
        ("alternate", .option none)]
  | .branch test consequent (some alternate) =>
      .record "If" [("test", test.outline), ("consequent", consequent.outline),
        ("alternate", .option (some alternate.outline))]
  | .sequence parts => .tuple "Begin" [.list (nodeOutlines parts)]
  | .lambda name formals body =>
      .tuple "Lambda" [.record "Lambda" [("name", .option (name.map Symbol.outline)),
        ("formals", formals.outline), ("body", body.outline)]]
  | .define name value => .tuple "Define" [name.outline, value.outline]
  | .assign name value => .tuple "SetVar" [name.outline, value.outline]
  | .call operator operands tail =>
      .record "Call" [("operator", operator.outline),
        ("operands", .list (nodeOutlines operands)), ("tail", .flag tail)]
  | .letIn bindings body =>
      .record "Let" [("bindings", .list (bindingOutlines bindings)), ("body", body.outline)]
  | .letrec bindings body =>
      .record "Letrec" [("bindings", .list (bindingOutlines bindings)), ("body", body.outline)]
  | .loop varying test none commands =>
      .tuple "Do" [.record "DoLoop" [("variables", .list (variableOutlines varying)),
        ("test", test.outline), ("result", .option none),
        ("commands", .list (nodeOutlines commands))]]
  | .loop varying test (some result) commands =>
      .tuple "Do" [.record "DoLoop" [("variables", .list (variableOutlines varying)),
        ("test", test.outline), ("result", .option (some result.outline)),
        ("commands", .list (nodeOutlines commands))]]
  | .cond clauses => .tuple "Cond" [.list (clauseOutlines clauses)]
  | .conjunction tests => .tuple "And" [.list (nodeOutlines tests)]
  | .disjunction tests => .tuple "Or" [.list (nodeOutlines tests)]

def nodeOutlines : List Node → List Outline
  | [] => []
  | node :: nodes => node.outline :: nodeOutlines nodes

def bindingOutlines : List (Symbol × Node) → List Outline
  | [] => []
  | (name, init) :: bindings =>
      .tuple "" [name.outline, init.outline] :: bindingOutlines bindings

def variableOutlines : List LoopVariable → List Outline
  | [] => []
  | .mk name init none :: varying =>
      .record "DoVariable" [("name", name.outline), ("init", init.outline),
        ("step", .option none)] :: variableOutlines varying
  | .mk name init (some step) :: varying =>
      .record "DoVariable" [("name", name.outline), ("init", init.outline),
        ("step", .option (some step.outline))] :: variableOutlines varying

def clauseOutlines : List Clause → List Outline
  | [] => []
  | .test test :: clauses =>
      clauseOutline (.option (some test.outline)) (.leaf "TestValue") :: clauseOutlines clauses
  | .arrow test receiver tail :: clauses =>
      clauseOutline (.option (some test.outline))
        (.record "Arrow" [("receiver", receiver.outline), ("tail", .flag tail)]) ::
        clauseOutlines clauses
  | .body test body :: clauses =>
      clauseOutline (.option (some test.outline)) (.tuple "Sequence" [body.outline]) ::
        clauseOutlines clauses
  | .otherwise body :: clauses =>
      clauseOutline (.option none) (.tuple "Sequence" [body.outline]) :: clauseOutlines clauses

end

end SmallScheme
