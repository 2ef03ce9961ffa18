import SmallScheme.Machine.Run
import SmallScheme.Node.Compile
import SmallScheme.Source.Document

namespace SmallScheme

/-! Sessions: texts are read, compiled and run one after the other over one root
frame. -/

/-- Why the evaluation of a text failed. -/
inductive EvalError where
  | read (error : ReadError)
  | compile (error : CompileError)
  | run (error : RunError)

namespace EvalError

/-- The message of the part that failed. -/
def cause : EvalError → String
  | .read error => error.message
  | .compile error => error.message
  | .run error => error.message

def message (error : EvalError) : String :=
  let kind :=
    match error with
    | .read _ => "parse error: "
    | .compile _ => "syntax error: "
    | .run _ => "error: "
  kind ++ error.cause

/-- The messages of the errors behind this one, the outermost first. -/
def chain : EvalError → List String
  | .run (.primitive operation fault) =>
      [(RunError.primitive operation fault).message, fault.message]
  | error => [error.cause]

end EvalError

structure Session where
  world : World
  root : FrameId
  /-- How deep evaluations may be nested. -/
  limit : Nat

namespace Session

/-- The limit of a session that sets none. -/
def standardLimit : Nat := 10000

/-- More steps than a run takes in a lifetime. -/
def lifetime : Nat := Nat.pow 2 62

/-- A session over a frame of a store. -/
def ofStore (store : Store) (root : FrameId) : Session :=
  ⟨World.ofStore store, root, standardLimit⟩

/-- A session over the primitives. -/
def standard : Session := ofStore Store.standard Store.root

/-- A session over nothing. -/
def bare : Session := ofStore Store.empty Store.root

def withStore (session : Session) (store : Store) : Session :=
  { session with world := { session.world with store := store } }

/-! ## Evaluation -/

/-- Compiles and runs a datum. As for all evaluations, there is no result if a
run does not end within `fuel` steps. -/
def evalDatum (session : Session) (fuel : Nat) (datum : Source) :
    Option (Except EvalError Value × Session) :=
  let (value, store) := session.world.store.place datum
  let session := session.withStore store
  match Node.ofDatum value with
  | .error error => some (.error (.compile error), session)
  | .ok code =>
      let world := session.world.record (.compiled value code)
      match world.run session.limit fuel code session.root with
      | none => none
      | some (outcome, world) =>
          let session := { session with world := world.record (.finished outcome) }
          some (outcome.mapError .run, session)

/-- Evaluates data up to the first failure. The value is that of the last datum,
or `value` if there is none. -/
def evalData (session : Session) (fuel : Nat) (value : Value) :
    List Source → Option (Except EvalError Value × Session)
  | [] => some (.ok value, session)
  | datum :: data =>
      match session.evalDatum fuel datum with
      | none => none
      | some (.error error, session) => some (.error error, session)
      | some (.ok value, session) => session.evalData fuel value data

/-- Evaluates all data of a document. A fault in the text counts once everything
before it has been evaluated. -/
def eval (session : Session) (fuel : Nat) (document : Document) :
    Option (Except EvalError Value × Session) :=
  match session.evalData fuel .nil document.data, document.failure with
  | some (.ok _, session), some failure => some (.error (.read failure), session)
  | result, _ => result

/-- Evaluates data one by one, also after failures. -/
def evalEachDatum (session : Session) (fuel : Nat) :
    List Source → Option (List (Except EvalError Value) × Session)
  | [] => some ([], session)
  | datum :: data => do
      let (result, session) ← session.evalDatum fuel datum
      let (results, session) ← session.evalEachDatum fuel data
      return (result :: results, session)

/-- The results of all data of a document. A fault in the text is the last. -/
def evalEach (session : Session) (fuel : Nat) (document : Document) :
    Option (List (Except EvalError Value) × Session) := do
  let (results, session) ← session.evalEachDatum fuel document.data
  let failures := document.failure.toList.map fun failure => .error (.read failure)
  return (results ++ failures, session)

/-- A new session over the same root, whose output and records come after those
of this one. It has the standard limit and counts no steps. -/
def evalAfresh (session : Session) (fuel : Nat) (document : Document) :
    Option (Except EvalError Value × Session) := do
  let world := { session.world with tally := none }
  let fresh : Session := ⟨world, session.root, standardLimit⟩
  let (result, fresh) ← fresh.eval fuel document
  return (result, { session with world := { fresh.world with tally := session.world.tally } })

/-! ## The root frame -/

def get? (session : Session) (name : Symbol) : Option Value :=
  session.world.store.get? session.root name

/-- Binds a name to a datum as it stands. -/
def define (session : Session) (name : Symbol) (datum : Source) : Session :=
  let (value, store) := session.world.store.place datum
  session.withStore (store.define session.root name value)

/-- Gives a datum as it stands to a name that is bound already. -/
def assign (session : Session) (name : Symbol) (datum : Source) : Bool × Session :=
  let (value, store) := session.world.store.place datum
  match store.assign? session.root name value with
  | some store => (true, session.withStore store)
  | none => (false, session.withStore store)

/-! ## Observation -/

/-- Starts to count steps. -/
def counting (session : Session) : Session :=
  { session with world := { session.world with tally := some [] } }

/-- Records what the session does from now on. -/
def watching (session : Session) (watch : Watch) : Session :=
  { session with world := { session.world with watch := watch } }

/-- The output and the records so far, in order, which then start anew. -/
def collect (session : Session) : String × List Record × Session :=
  let world := session.world
  (world.output, world.records.reverse,
    { session with world := { world with output := "", records := [] } })

end Session

end SmallScheme
