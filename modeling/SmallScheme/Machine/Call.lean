import SmallScheme.Store

namespace SmallScheme

/-! Binding of arguments to parameters. -/

/-- Binds each name to the value beside it, a later binding replacing an earlier
one of the same name. -/
def Bindings.ofPairs (pairs : List (Symbol × Value)) : Bindings :=
  pairs.foldl (fun bindings (name, value) => bindings.insert name value) []

namespace Store

/-- A new frame that extends `parent` with the given bindings. -/
def enter (store : Store) (parent : FrameId) (bindings : Bindings) : FrameId × Store :=
  (store.frames.size, { store with frames := store.frames.push ⟨some parent, bindings⟩ })

/-- The frame of a call: it extends the frame in which the procedure was made,
binds the required parameters to the first arguments and the rest parameter to
the list of the others. The number of arguments has been checked. -/
def bindArguments (store : Store) (formals : Formals) (parent : FrameId)
    (arguments : List Value) : FrameId × Store :=
  let required := formals.required.length
  let bindings := Bindings.ofPairs (formals.required.zip (arguments.take required))
  match formals.rest with
  | none => store.enter parent bindings
  | some name =>
      let (list, store) := store.newList (arguments.drop required)
      store.enter parent (bindings.insert name list)

end Store

end SmallScheme
