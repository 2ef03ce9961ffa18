import SmallScheme.Node.Basic
import SmallScheme.Datum.Basic

namespace SmallScheme

/-! The store: frames with their bindings, the code of compound procedures, and
the first place that is left. Frames are numbered in the order of their
creation, and the parent of a frame is older than the frame. -/

abbrev FrameId := Nat

/-- The bindings of one frame. -/
abbrev Bindings := List (Symbol × Value)

namespace Bindings

def get? (bindings : Bindings) (name : Symbol) : Option Value :=
  bindings.lookup name

def binds (bindings : Bindings) (name : Symbol) : Bool :=
  (bindings.get? name).isSome

/-- Binds a name, in place of an earlier binding of it. -/
def insert (bindings : Bindings) (name : Symbol) (value : Value) : Bindings :=
  if bindings.binds name then
    bindings.map fun (bound, old) => if bound = name then (bound, value) else (bound, old)
  else (name, value) :: bindings

end Bindings

/-- A frame and the frame that it extends. -/
structure Frame where
  parent : Option FrameId
  bindings : Bindings

/-- The code of a compound procedure and the frame in which it was made. -/
structure Closure where
  body : Node
  frame : FrameId

structure Store where
  frames : Array Frame
  closures : Array Closure
  /-- No string or pair lives here or further on. -/
  next : Place

namespace Store

/-- A store with one frame, the root, that binds nothing. -/
def empty : Store :=
  ⟨#[⟨none, []⟩], #[], 0⟩

/-- The root of a store that has nothing else in it. -/
def root : FrameId := 0

/-- A store whose root binds every primitive to its name. -/
def standard : Store :=
  let bindings := Primitive.all.map fun operation =>
    (⟨operation.name⟩, .procedure (.primitive operation))
  { empty with frames := #[⟨none, bindings⟩] }

/-! ## Frames -/

/-- A new frame that extends `parent` and binds nothing. -/
def child (store : Store) (parent : FrameId) : FrameId × Store :=
  (store.frames.size, { store with frames := store.frames.push ⟨some parent, []⟩ })

/-- Binds a name in the frame itself. -/
def define (store : Store) (frame : FrameId) (name : Symbol) (value : Value) : Store :=
  { store with
    frames := store.frames.modify frame fun found =>
      { found with bindings := found.bindings.insert name value } }

/-- The nearest frame that binds a name, on the chain from `frame` to the root. -/
def nearest? (store : Store) (name : Symbol) (frame : FrameId) : Option FrameId :=
  match store.frames[frame]? with
  | none => none
  | some found =>
      if found.bindings.binds name then some frame
      else
        match found.parent with
        | none => none
        | some parent => if parent < frame then store.nearest? name parent else none
termination_by frame

/-- The value of a name as a frame sees it. -/
def get? (store : Store) (frame : FrameId) (name : Symbol) : Option Value := do
  let nearest ← store.nearest? name frame
  let found ← store.frames[nearest]?
  found.bindings.get? name

/-- Gives a new value to a name in the nearest frame that binds it. -/
def assign? (store : Store) (frame : FrameId) (name : Symbol) (value : Value) : Option Store :=
  match store.nearest? name frame with
  | some nearest => some (store.define nearest name value)
  | none => none

/-! ## Procedures and places -/

/-- Makes a compound procedure. -/
def close (store : Store) (name : Option Symbol) (formals : Formals) (body : Node)
    (frame : FrameId) : Value × Store :=
  (.procedure (.compound store.closures.size name formals),
    { store with closures := store.closures.push ⟨body, frame⟩ })

/-- Brings a datum into the store: its strings and pairs get places. -/
def place (store : Store) (datum : Source) : Value × Store :=
  let (value, next) := Value.place store.next datum
  (value, { store with next := next })

/-- Makes a list. -/
def newList (store : Store) (items : List Value) : Value × Store :=
  let (list, next) := Value.newList store.next items
  (list, { store with next := next })

end Store

end SmallScheme
