import SmallScheme.Proofs.Parts

namespace SmallScheme

/-! # Marks of tail calls

Which calls of a node are in tail position, and what it means that all marks inside
of a node fit: what starts a tail position of its own is marked so, and what stands
out of tail position is not marked.

Marks that fit are put together from those of the parts. What the compiler makes of
the parts comes as a list of which only the last is in tail position, so that lists
are taken apart at their ends. -/

/-! ## Setting the marks -/

mutual

/-- Marks the calls in tail position of a node. -/
def Node.setTail (tail : Bool) : Node → Node
  | .call operator operands _ => .call operator operands tail
  | .branch test consequent none => .branch test (consequent.setTail tail) none
  | .branch test consequent (some alternate) =>
      .branch test (consequent.setTail tail) (some (alternate.setTail tail))
  | .sequence parts => .sequence (Node.setLastTail tail parts)
  | .cond clauses => .cond (Clause.setTails tail clauses)
  | .conjunction tests => .conjunction (Node.setLastTail tail tests)
  | .disjunction tests => .disjunction (Node.setLastTail tail tests)
  | node => node

def Node.setLastTail (tail : Bool) : List Node → List Node
  | [] => []
  | [last] => [last.setTail tail]
  | first :: second :: rest => first :: Node.setLastTail tail (second :: rest)

def Clause.setTail (tail : Bool) : Clause → Clause
  | .test condition => .test condition
  | .arrow condition receiver _ => .arrow condition receiver tail
  | .body condition result => .body condition (result.setTail tail)
  | .otherwise result => .otherwise (result.setTail tail)

def Clause.setTails (tail : Bool) : List Clause → List Clause
  | [] => []
  | clause :: rest => clause.setTail tail :: Clause.setTails tail rest

end

/-! ## Marks that fit -/

/-- Every call in tail position has the given mark. -/
def Node.TailIs (tail : Bool) (node : Node) : Prop :=
  node.setTail tail = node

/-- Tests and receivers are out of tail position. -/
def Clause.MarksFit : Clause → Prop
  | .test condition => condition.TailIs false
  | .arrow condition receiver _ => condition.TailIs false ∧ receiver.TailIs false
  | .body condition _ => condition.TailIs false
  | .otherwise _ => True

namespace Node

/-- What has to stand out of tail position below a node does, and what starts a
tail position of its own does that. -/
def MarksFit : Node → Prop
  | .literal _ => True
  | .variable _ => True
  | .quote _ => True
  | .branch test _ _ => test.TailIs false
  | .sequence parts => ∀ part ∈ parts.dropLast, part.TailIs false
  | .lambda _ _ body => body.TailIs true
  | .define _ value => value.TailIs false
  | .assign _ value => value.TailIs false
  | .call operator operands _ =>
      operator.TailIs false ∧ ∀ operand ∈ operands, operand.TailIs false
  | .letIn bindings body => body.TailIs true ∧ ∀ binding ∈ bindings, binding.2.TailIs false
  | .letrec bindings body => body.TailIs true ∧ ∀ binding ∈ bindings, binding.2.TailIs false
  | .loop varying test result commands =>
      (∀ item ∈ varying, ∀ part ∈ item.parts, part.TailIs false) ∧ test.TailIs false ∧
        (∀ node ∈ result, node.TailIs true) ∧ ∀ command ∈ commands, command.TailIs false
  | .cond clauses => ∀ clause ∈ clauses, clause.MarksFit
  | .conjunction tests => ∀ test ∈ tests.dropLast, test.TailIs false
  | .disjunction tests => ∀ test ∈ tests.dropLast, test.TailIs false

/-- A node with a given mark, all of whose marks fit. -/
structure Marked (tail : Bool) (node : Node) : Prop where
  tailIs : node.TailIs tail
  everywhere : node.Everywhere MarksFit

/-- Nodes of which only the last one is in tail position. -/
structure LastMarked (tail : Bool) (nodes : List Node) : Prop where
  lastIs : setLastTail tail nodes = nodes
  others : ∀ node ∈ nodes.dropLast, node.TailIs false
  everywhere : ∀ node ∈ nodes, node.Everywhere MarksFit

theorem Marked.of_parts {tail : Bool} {node : Node} (tailIs : node.TailIs tail)
    (fit : node.MarksFit) (below : ∀ part ∈ node.parts, part.Everywhere MarksFit) :
    node.Marked tail :=
  ⟨tailIs, everywhere_iff.mpr ⟨fit, below⟩⟩

theorem literal_marked (tail : Bool) (value : Value) : (Node.literal value).Marked tail :=
  .of_parts rfl trivial (by simp [parts])

theorem setLastTail_concat (tail : Bool) (nodes : List Node) (last : Node) :
    setLastTail tail (nodes ++ [last]) = nodes ++ [last.setTail tail] := by
  induction nodes with
  | nil => rfl
  | cons first rest induction =>
      cases rest with
      | nil => rfl
      | cons second rest => exact congrArg (first :: ·) induction

theorem LastMarked.concat {tail : Bool} {nodes : List Node} {last : Node}
    (others : ∀ node ∈ nodes, node.Marked false) (marked : last.Marked tail) :
    LastMarked tail (nodes ++ [last]) where
  lastIs := by rw [setLastTail_concat, marked.tailIs]
  others := by
    rw [List.dropLast_concat]
    exact fun node member => (others node member).tailIs
  everywhere := by
    intro node member
    rcases List.mem_append.mp member with found | found
    · exact (others node found).everywhere
    · rw [List.mem_singleton.mp found]
      exact marked.everywhere

theorem LastMarked.conjunction {tail : Bool} {nodes : List Node}
    (marked : LastMarked tail nodes) : (Node.conjunction nodes).Marked tail :=
  .of_parts (congrArg Node.conjunction marked.lastIs) marked.others marked.everywhere

theorem LastMarked.disjunction {tail : Bool} {nodes : List Node}
    (marked : LastMarked tail nodes) : (Node.disjunction nodes).Marked tail :=
  .of_parts (congrArg Node.disjunction marked.lastIs) marked.others marked.everywhere

theorem LastMarked.sequence {tail : Bool} {nodes : List Node} (marked : LastMarked tail nodes) :
    (Node.sequence nodes).Marked tail :=
  .of_parts (congrArg Node.sequence marked.lastIs) marked.others marked.everywhere

end Node

/-- A clause with a given mark, all of whose marks fit. -/
structure Clause.Marked (tail : Bool) (clause : Clause) : Prop where
  tailIs : clause.setTail tail = clause
  fit : clause.MarksFit
  everywhere : ∀ part ∈ clause.parts, part.Everywhere Node.MarksFit

theorem Clause.setTails_eq_self {tail : Bool} {clauses : List Clause}
    (marked : ∀ clause ∈ clauses, clause.Marked tail) : setTails tail clauses = clauses := by
  induction clauses with
  | nil => rfl
  | cons clause rest induction =>
      rcases List.forall_mem_cons.mp marked with ⟨first, others⟩
      rw [setTails, first.tailIs, induction others]

end SmallScheme
