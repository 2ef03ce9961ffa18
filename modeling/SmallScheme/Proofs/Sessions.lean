import SmallScheme.Proofs.Courses
import SmallScheme.Proofs.Procedures
import SmallScheme.Proofs.Readable
import SmallScheme.Session

namespace SmallScheme

/-! # Evaluations in a session

What a session does with a datum: it gives the datum places, compiles it, and runs the
program from its root frame. -/

namespace Session

variable (session : Session) (datum : Source)

/-- A datum with the places that it gets in the session. -/
def placed : Value :=
  (session.world.store.place datum).1

/-- The session after a datum has got its places. -/
def holding : Session :=
  session.withStore (session.world.store.place datum).2

/-- Where the run of a datum starts that has been compiled. -/
def start (code : Node) : Progress :=
  ((session.holding datum).world.record (.compiled (session.placed datum) code)).start
    session.limit code session.root

variable {session : Session} {datum : Source} {fuel : Nat}

theorem evalDatum_of_error {failure : CompileError}
    (failed : Node.ofDatum (session.placed datum) = .error failure) :
    session.evalDatum fuel datum = some (.error (.compile failure), session.holding datum) := by
  have failed : Node.ofDatum (session.world.store.place datum).1 = .error failure := failed
  simp only [evalDatum, failed]
  rfl

theorem evalDatum_of_ok {code : Node}
    (compiled : Node.ofDatum (session.placed datum) = .ok code) :
    session.evalDatum fuel datum =
      ((session.start datum code).finish session.limit fuel).map fun (outcome, world) =>
        (outcome.mapError .run, { session with world := world.record (.finished outcome) }) := by
  have compiled : Node.ofDatum (session.world.store.place datum).1 = .ok code := compiled
  simp only [evalDatum, compiled, start, holding, placed, withStore, ← World.run_eq_finish]
  cases World.run _ _ _ _ _ <;> rfl

end Session

/-! ## What is read -/

/-- All data of a document can be read. -/
theorem Document.read_readable (cursor : Cursor) :
    ∀ datum ∈ (read cursor).data, datum.Readable := by
  fun_induction read cursor with
  | case1 => simp
  | case2 => simp
  | case3 cursor datum behind found further induction =>
      exact List.forall_mem_cons.mpr ⟨Cursor.next_readable found, induction⟩

/-- One datum of a document, and all that is behind it. -/
theorem Document.read_of_next {cursor behind : Cursor} {datum : Source}
    (found : cursor.next = (.ok (some datum), behind)) :
    read cursor =
      ⟨datum :: (read behind).data, (read behind).failure, (read behind).final⟩ := by
  rw [read]
  split <;> rename_i same <;> rw [found] at same <;> cases same
  rfl

theorem Document.read_of_end {cursor : Cursor} (ended : cursor.rest = []) :
    read cursor = ⟨[], none, cursor⟩ := by
  have skipped : cursor.skipBlanks = cursor := by
    simp only [Cursor.skipBlanks, ended, Cursor.skip]
    rw [← ended]
  have last : cursor.next = (.ok none, cursor) := by simp [Cursor.next, skipped, ended]
  rw [read]
  split <;> rename_i same <;> rw [last] at same <;> cases same
  rfl

/-- A text with one datum in it is evaluated as that datum. -/
theorem Session.eval_of_next {source text : String} {datum : Source} {behind : Cursor}
    (found : (Cursor.start source text).next = (.ok (some datum), behind))
    (ended : behind.rest = []) (session : Session) (fuel : Nat) :
    session.eval fuel (.ofText source text) = session.evalDatum fuel datum := by
  have document : Document.ofText source text = ⟨[datum], none, behind⟩ := by
    rw [Document.ofText, Document.read_of_next found, Document.read_of_end ended]
  rw [document]
  simp only [Session.eval, Session.evalData]
  rcases session.evalDatum fuel datum with _ | ⟨_ | _, _⟩ <;> rfl

/-- Data that were read have no procedures in them. -/
theorem Datum.Readable.procedures {datum : Source} (readable : datum.Readable) (next : Place)
    (known : Procedure → Prop) : (Value.place next datum).1.Procedures known := by
  induction datum generalizing next with
  | pair place car cdr carInduction cdrInduction =>
      exact ⟨carInduction readable.1 _, cdrInduction readable.2 _⟩
  | procedure callee => exact readable.elim
  | _ => trivial

/-! ## What texts come to -/

open Progress

namespace Session

/-- A text is evaluated to a value and leaves a session behind, given enough fuel. -/
def Evaluates (session : Session) (text : String) (value : Value) (after : Session) : Prop :=
  ∃ least, ∀ fuel ≥ least,
    session.eval fuel (.ofText Document.unnamed text) = some (.ok value, after)

/-- Texts are evaluated one after the other, and the last one has the value. -/
inductive Returns : Session → List String → Value → Prop
  | last {session after : Session} {text : String} {value : Value} :
      session.Evaluates text value after → Returns session [text] value
  | next {session after : Session} {text : String} {texts : List String} {first value : Value} :
      session.Evaluates text first after → Returns after texts value →
        Returns session (text :: texts) value

/-- What the run of a datum comes to is the result of its evaluation. -/
theorem evalDatum_of_leads {session : Session} {datum : Source} {code : Node}
    {outcome : Except RunError Value} {final : World}
    (compiled : Node.ofDatum (session.placed datum) = .ok code)
    (leads : Leads session.limit (session.start datum code) (.ended outcome final)) :
    ∃ least, ∀ fuel ≥ least, session.evalDatum fuel datum =
      some (outcome.mapError .run, { session with world := final.record (.finished outcome) }) := by
  rcases leads.finish_ended with ⟨least, finished⟩
  refine ⟨least, fun fuel enough => ?_⟩
  rw [evalDatum_of_ok compiled, Progress.finish_of_le finished enough]
  rfl

/-- If the program of a datum comes to a value with some levels, and the limit leaves room
for them, the datum is evaluated to that value. -/
theorem evalDatum_of_passes {session : Session} {datum : Source} {code : Node} {room : Nat}
    {scene : Scene} {value : Value}
    (compiled : Node.ofDatum (session.placed datum) = .ok code)
    (passes : Passes room (session.holding datum).world.scene (.run code session.root) scene
      (.give value))
    (fits : room < session.limit) :
    ∃ world : World, world.scene = scene ∧ ∃ least, ∀ fuel ≥ least,
      session.evalDatum fuel datum = some (.ok value, { session with world := world }) := by
  let world := (session.holding datum).world.record (.compiled (session.placed datum) code)
  have start : session.start datum code = Machine.proceed ⟨world, [], 1⟩ code session.root :=
    if_pos (Nat.zero_lt_of_lt fits)
  have room : 1 + room ≤ session.limit := by omega
  rcases passes session.limit ⟨world, [], 1⟩ (World.scene_record _ _) room with
    ⟨final, atEnd, leads⟩
  have ends : Leads session.limit (session.start datum code) (.ended (.ok value) final) := by
    rw [start]
    exact leads.trans (.step session.limit _ _)
  exact ⟨final.record (.finished (.ok value)), (World.scene_record _ _).trans atEnd,
    evalDatum_of_leads compiled ends⟩

theorem evaluates_of_passes {session : Session} {text : String} {datum : Source} {code : Node}
    {room : Nat} {scene : Scene} {value : Value} {behind : Cursor}
    (found : (Cursor.start Document.unnamed text).next = (.ok (some datum), behind))
    (ended : behind.rest = []) (compiled : Node.ofDatum (session.placed datum) = .ok code)
    (passes : Passes room (session.holding datum).world.scene (.run code session.root) scene
      (.give value))
    (fits : room < session.limit) :
    ∃ world : World, world.scene = scene ∧
      session.Evaluates text value { session with world := world } := by
  rcases evalDatum_of_passes compiled passes fits with ⟨world, atEnd, least, evaluated⟩
  refine ⟨world, atEnd, least, fun fuel enough => ?_⟩
  rw [eval_of_next found ended]
  exact evaluated fuel enough

end Session

/-- A text holds one datum, and that is a program with the given code, wherever it gets its
places. -/
def Denotes (text : String) (code : Node) : Prop :=
  ∃ datum, (Cursor.start Document.unnamed text).next =
      (.ok (some datum), ⟨Document.unnamed, 1, []⟩) ∧
    ∀ next, Node.ofDatum (Value.place next datum).1 = .ok code

/-- What the code of a text comes to in the frames of a session, the text does. -/
theorem Denotes.evaluates {session : Session} {text : String} {code : Node}
    (denotes : Denotes text code) {room : Nat} {value : Value} (holds : Scene → Prop)
    (passes : ∀ scene : Scene, scene.store.frames = session.world.store.frames →
      scene.store.closures = session.world.store.closures →
        ∃ after, holds after ∧ Passes room scene (.run code session.root) after (.give value))
    (fits : room < session.limit) :
    ∃ world : World, holds world.scene ∧
      session.Evaluates text value { session with world := world } := by
  rcases denotes with ⟨datum, found, compiled⟩
  rcases passes (session.holding datum).world.scene rfl rfl with ⟨after, held, comes⟩
  rcases Session.evaluates_of_passes found rfl (compiled _) comes fits with
    ⟨world, rfl, evaluates⟩
  exact ⟨world, held, evaluates⟩

theorem Denotes.returns {session : Session} {text : String} {code : Node}
    (denotes : Denotes text code) {room : Nat} {value : Value}
    (passes : ∀ scene : Scene, scene.store.frames = session.world.store.frames →
      scene.store.closures = session.world.store.closures →
        ∃ after, Passes room scene (.run code session.root) after (.give value))
    (fits : room < session.limit) : session.Returns [text] value := by
  have comes (scene : Scene) (frames : scene.store.frames = session.world.store.frames)
      (closures : scene.store.closures = session.world.store.closures) :
      ∃ after, True ∧ Passes room scene (.run code session.root) after (.give value) := by
    rcases passes scene frames closures with ⟨after, comes⟩
    exact ⟨after, trivial, comes⟩
  rcases denotes.evaluates (fun _ => True) comes fits with ⟨world, _, evaluates⟩
  exact .last evaluates

end SmallScheme
