import SmallScheme.Machine.Call
import SmallScheme.Machine.Record
import SmallScheme.Machine.Tally
import SmallScheme.Store

namespace SmallScheme

/-! All that a program can change, and all that is observed of it. -/

structure World where
  store : Store
  /-- The text written so far. -/
  output : String
  /-- Counts of executed steps, if they are wanted. -/
  tally : Option Tally
  watch : Watch
  /-- The records so far, the last one first. -/
  records : List Record

namespace World

/-- A world over a store in which nothing has happened yet. -/
def ofStore (store : Store) : World :=
  ⟨store, "", none, .nothing, []⟩

/-- Keeps a record that is asked for. -/
def record (world : World) (record : Record) : World :=
  match world.watch, record.detail with
  | .nothing, _ => world
  | .programs, .steps => world
  | _, _ => { world with records := record :: world.records }

/-- Notes a step on a node. -/
def observe (world : World) (depth : Nat) (kind : Kind) : World :=
  let counted := { world with tally := world.tally.map (Tally.add kind) }
  counted.record (.step depth kind)

def write (world : World) (text : String) : World :=
  { world with output := world.output ++ text }

/-! ## The store -/

def child (world : World) (parent : FrameId) : FrameId × World :=
  let (frame, store) := world.store.child parent
  (frame, { world with store := store })

def define (world : World) (frame : FrameId) (name : Symbol) (value : Value) : World :=
  { world with store := world.store.define frame name value }

def close (world : World) (name : Option Symbol) (formals : Formals) (body : Node)
    (frame : FrameId) : Value × World :=
  let (value, store) := world.store.close name formals body frame
  (value, { world with store := store })

def bindArguments (world : World) (formals : Formals) (parent : FrameId)
    (arguments : List Value) : FrameId × World :=
  let (frame, store) := world.store.bindArguments formals parent arguments
  (frame, { world with store := store })

end World

end SmallScheme
