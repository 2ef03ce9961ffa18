import SmallScheme.Node.Basic

namespace SmallScheme

/-! # Nodes inside nodes

The nodes right below a node, and from them all that lie somewhere inside of it. A
property that holds everywhere in a node is shown from its parts. -/

def LoopVariable.parts : LoopVariable → List Node
  | .mk _ init step => init :: step.toList

def Clause.parts : Clause → List Node
  | .test condition => [condition]
  | .arrow condition receiver _ => [condition, receiver]
  | .body condition result => [condition, result]
  | .otherwise result => [result]

namespace Node

/-- The nodes right below a node. -/
def parts : Node → List Node
  | .literal _ => []
  | .variable _ => []
  | .quote _ => []
  | .branch test consequent alternate => test :: consequent :: alternate.toList
  | .sequence parts => parts
  | .lambda _ _ body => [body]
  | .define _ value => [value]
  | .assign _ value => [value]
  | .call operator operands _ => operator :: operands
  | .letIn bindings body => body :: bindings.map (·.2)
  | .letrec bindings body => body :: bindings.map (·.2)
  | .loop varying test result commands =>
      test :: (varying.flatMap LoopVariable.parts ++ (result.toList ++ commands))
  | .cond clauses => clauses.flatMap Clause.parts
  | .conjunction tests => tests
  | .disjunction tests => tests

/-- One node is another one or lies somewhere below it. -/
inductive Within (inner : Node) : Node → Prop
  | self : Within inner inner
  | part {outer part : Node} : part ∈ outer.parts → Within inner part → Within inner outer

theorem Within.deeper {inner outer part : Node} (within : Within inner outer)
    (member : part ∈ inner.parts) : Within part outer := by
  induction within with
  | self => exact .part member .self
  | part inOuter _ induction => exact .part inOuter induction

/-- A node and all nodes below it have a property. -/
def Everywhere (property : Node → Prop) (node : Node) : Prop :=
  ∀ inner, Within inner node → property inner

theorem everywhere_iff {property : Node → Prop} {node : Node} :
    node.Everywhere property ↔
      property node ∧ ∀ part ∈ node.parts, part.Everywhere property := by
  constructor
  · intro all
    exact ⟨all node .self, fun part member inner within => all inner (.part member within)⟩
  · rintro ⟨here, below⟩ inner within
    cases within with
    | self => exact here
    | part member within => exact below _ member inner within

end Node

end SmallScheme
