import SmallScheme.Proofs.Frames.Licence
import SmallScheme.Proofs.Runs

namespace SmallScheme

/-! # Licensed steps

Each part of a step keeps states sound, and so does every run all whose definitions are
licensed. -/

variable {base : Store} {licence : Licence base} {binds : FrameId → Symbol → Prop}
  {limit : Nat} {frame : FrameId}

namespace Machine

variable {machine : Machine} (sound : machine.Sound licence binds)

include sound

/-! ## Moves -/

/-- The levels stay sound while the store grows. -/
theorem Sound.change {world : World} (allows : licence.Allows binds world.store)
    (grows : machine.world.store.Grows world.store) :
    Sound licence binds { machine with world := world } :=
  ⟨allows, fun level member => (sound.levels level member).mono grows⟩

theorem Sound.of_store_eq {world : World} (same : world.store = machine.world.store) :
    Sound licence binds { machine with world := world } :=
  sound.change (same ▸ sound.store) (same ▸ .refl _)

theorem give_sound {value : Value} (known : value.Known licence.formals machine.world.store) :
    (machine.give value).Sound licence binds :=
  ⟨sound, known⟩

theorem proceed_sound {code : Node} (licensed : licence.code code)
    (inStore : frame < machine.world.store.frames.size) :
    (machine.proceed code frame).Sound licence binds :=
  ⟨sound, licensed, inStore⟩

theorem suspend_sound {level : Level} (levelSound : level.Sound licence machine.world.store)
    {code : Node} (licensed : licence.code code)
    (inStore : frame < machine.world.store.frames.size) :
    (machine.suspend limit level code frame).Sound licence binds := by
  unfold suspend
  split
  · have levels := List.forall_mem_cons.mpr ⟨levelSound, sound.levels⟩
    exact ⟨⟨sound.store, levels⟩, licensed, inStore⟩
  · exact ⟨sound.store, List.forall_mem_nil _⟩

theorem fail_sound {error : RunError}
    (known : ∀ value ∈ error.values, value.Known licence.formals machine.world.store) :
    (machine.fail error).Sound licence binds :=
  ⟨sound.store, known⟩

/-! ## Sequences and tests -/

theorem runSequence_sound (inStore : frame < machine.world.store.frames.size) {parts : List Node}
    (licensed : ∀ part ∈ parts, licence.code part) :
    (machine.runSequence limit frame parts).Sound licence binds := by
  rcases parts with _ | ⟨first, _ | ⟨second, rest⟩⟩
  · exact give_sound sound trivial
  · exact proceed_sound sound (licensed first (by simp)) inStore
  · have ⟨here, others⟩ := List.forall_mem_cons.mp licensed
    exact suspend_sound sound (.sequence others inStore) here inStore

theorem runConjunction_sound (inStore : frame < machine.world.store.frames.size)
    {tests : List Node} (licensed : ∀ test ∈ tests, licence.code test) :
    (machine.runConjunction limit frame tests).Sound licence binds := by
  rcases tests with _ | ⟨first, _ | ⟨second, rest⟩⟩
  · exact give_sound sound trivial
  · exact proceed_sound sound (licensed first (by simp)) inStore
  · have ⟨here, others⟩ := List.forall_mem_cons.mp licensed
    exact suspend_sound sound (.conjunction others inStore) here inStore

theorem runDisjunction_sound (inStore : frame < machine.world.store.frames.size)
    {tests : List Node} (licensed : ∀ test ∈ tests, licence.code test) :
    (machine.runDisjunction limit frame tests).Sound licence binds := by
  rcases tests with _ | ⟨first, _ | ⟨second, rest⟩⟩
  · exact give_sound sound trivial
  · exact proceed_sound sound (licensed first (by simp)) inStore
  · have ⟨here, others⟩ := List.forall_mem_cons.mp licensed
    exact suspend_sound sound (.disjunction others inStore) here inStore

theorem runClauses_sound (inStore : frame < machine.world.store.frames.size)
    {items : List Clause} (licensed : ∀ item ∈ items, ∀ part ∈ item.parts, licence.code part) :
    (machine.runClauses limit frame items).Sound licence binds := by
  rcases items with _ | ⟨item, rest⟩
  · exact give_sound sound trivial
  · have here := licensed item (by simp)
    cases item with
    | otherwise body => exact proceed_sound sound (here body (.head _)) inStore
    | _ => exact suspend_sound sound (.clause licensed inStore) (here _ (.head _)) inStore

/-! ## Calls -/

theorem callPrimitive_sound (operation : Primitive) {arguments : List Value}
    (known : ∀ argument ∈ arguments, argument.Known licence.formals machine.world.store) :
    (machine.callPrimitive operation arguments).Sound licence binds := by
  have keeps := operation.operation_keeps
    (Procedure.Known licence.formals machine.world.store) machine.world.store.next arguments
  unfold callPrimitive
  dsimp only
  split
  · exact fail_sound sound (List.forall_mem_singleton.mpr trivial)
  · rename_i found
    exact fail_sound sound (keeps _ known found)
  · rename_i answer found
    have answered := keeps _ known found
    exact give_sound (sound.change (sound.store.next answer.next)
      (machine.world.store.next_grows answer.next)) answered

theorem callCompound_sound {place : Place} {name : Option Symbol} {formals : Formals}
    (callable : Procedure.Known licence.formals machine.world.store (.compound place name formals))
    {arguments : List Value}
    (known : ∀ argument ∈ arguments, argument.Known licence.formals machine.world.store)
    (tail : Bool) :
    (machine.callCompound limit place name formals arguments tail).Sound licence binds := by
  unfold callCompound
  dsimp only
  split
  · exact fail_sound sound (List.forall_mem_singleton.mpr callable)
  · rename_i closure found
    split
    · have ⟨inStore, licensed⟩ := sound.store.closure closure (Array.mem_of_getElem? found)
      have allows := sound.store.bindArguments callable.2 inStore known
      have grows := machine.world.store.bindArguments_grows formals closure.frame arguments
      have entered := machine.world.store.bindArguments_lt_size formals closure.frame arguments
      have bound : Sound licence binds
          { machine with
            world := (machine.world.bindArguments formals closure.frame arguments).2 } :=
        sound.change allows grows
      split
      · refine proceed_sound (bound.of_store_eq (World.store_record _ _)) licensed ?_
        rw [World.store_record]
        exact entered
      · exact suspend_sound bound .body licensed entered
    · exact fail_sound sound (List.forall_mem_singleton.mpr callable)

theorem call_sound {procedure : Value}
    (callable : procedure.Known licence.formals machine.world.store) {arguments : List Value}
    (known : ∀ argument ∈ arguments, argument.Known licence.formals machine.world.store)
    (tail : Bool) : (machine.call limit procedure arguments tail).Sound licence binds := by
  unfold call
  split
  · exact callPrimitive_sound sound _ known
  · exact callCompound_sound sound callable known tail
  · exact fail_sound sound (List.forall_mem_singleton.mpr callable)

theorem runOperands_sound {procedure : Value}
    (callable : procedure.Known licence.formals machine.world.store) {reversed : List Value}
    (known : ∀ value ∈ reversed, value.Known licence.formals machine.world.store) (tail : Bool)
    (inStore : frame < machine.world.store.frames.size) {operands : List Node}
    (licensed : ∀ operand ∈ operands, licence.code operand) :
    (machine.runOperands limit procedure reversed tail frame operands).Sound licence binds := by
  cases operands with
  | nil => exact call_sound sound callable (by simpa using known) tail
  | cons operand rest =>
      have ⟨here, others⟩ := List.forall_mem_cons.mp licensed
      exact suspend_sound sound (.operand callable known others inStore) here inStore

/-! ## Bindings and loops -/

theorem Sound.define {name : Symbol} (free : binds frame name) {value : Value}
    (known : value.Known licence.formals machine.world.store) :
    Sound licence binds { machine with world := machine.world.define frame name value } :=
  sound.change (sound.store.define free known) (machine.world.store.define_grows frame name value)

/-- A licensed name gets a value in a new frame. -/
theorem Sound.bind (new : base.frames.size ≤ frame) {name : Symbol} (licensed : licence.names name)
    {value : Value} (known : value.Known licence.formals machine.world.store) :
    Sound licence binds { machine with world := machine.world.define frame name value } :=
  sound.define (sound.store.fresh frame new name licensed) known

theorem Sound.child (inStore : frame < machine.world.store.frames.size) :
    Sound licence binds { machine with world := (machine.world.child frame).2 } :=
  sound.change (sound.store.enter inStore nofun) (machine.world.store.enter_grows frame [])

theorem runBindings_sound {body : Node} (bodyLicensed : licence.code body) {scope inner : FrameId}
    (scopeInStore : scope < machine.world.store.frames.size)
    (innerInStore : inner < machine.world.store.frames.size) (new : base.frames.size ≤ inner)
    {bindings : List (Symbol × Node)} (licensed : ∀ binding ∈ bindings, licence.code binding.2)
    (names : ∀ name ∈ bindings.map (·.1), licence.names name) :
    (machine.runBindings limit body scope inner bindings).Sound licence binds := by
  cases bindings with
  | nil => exact proceed_sound sound bodyLicensed innerInStore
  | cons binding rest =>
      have ⟨here, others⟩ := List.forall_mem_cons.mp licensed
      exact suspend_sound sound (.binding bodyLicensed others names new scopeInStore innerInStore)
        here scopeInStore

theorem predefine_sound (new : base.frames.size ≤ frame) {bindings : List (Symbol × Node)}
    (names : ∀ name ∈ bindings.map (·.1), licence.names name) :
    Sound licence binds { machine with world := predefine machine.world frame bindings } := by
  induction bindings generalizing machine with
  | nil => exact sound
  | cons binding rest induction =>
      have ⟨here, others⟩ := List.forall_mem_cons.mp names
      have known : Datum.Known licence.formals machine.world.store .nil := trivial
      exact induction (sound.bind new here known) others

theorem runLoopInits_sound {loop : Loop} (loopSound : loop.Sound licence machine.world.store)
    (inStore : frame < machine.world.store.frames.size) (new : base.frames.size ≤ frame)
    {varying : List LoopVariable}
    (licensed : ∀ item ∈ varying, ∀ part ∈ item.parts, licence.code part)
    (names : ∀ name ∈ varying.map (·.name), licence.names name) :
    (machine.runLoopInits limit loop frame varying).Sound licence binds := by
  rcases varying with _ | ⟨⟨name, init, step⟩, rest⟩
  · exact suspend_sound sound (.loopTest loopSound inStore) loopSound.test inStore
  · have ⟨here, others⟩ := List.forall_mem_cons.mp licensed
    exact suspend_sound sound (.loopInit loopSound others names new inStore)
      (here init (by simp [LoopVariable.parts])) loopSound.outer

theorem runLoopSteps_sound {loop : Loop} (loopSound : loop.Sound licence machine.world.store)
    {next : FrameId} (inStore : frame < machine.world.store.frames.size)
    (nextInStore : next < machine.world.store.frames.size) (new : base.frames.size ≤ next)
    {varying : List LoopVariable}
    (licensed : ∀ item ∈ varying, ∀ part ∈ item.parts, licence.code part)
    (names : ∀ name ∈ varying.map (·.name), licence.names name) :
    (machine.runLoopSteps limit loop frame next varying).Sound licence binds := by
  induction varying generalizing machine with
  | nil =>
      have same := World.store_record machine.world .nextRound
      refine suspend_sound (sound.of_store_eq same) (.loopTest ?_ ?_) loopSound.test ?_
      · rwa [same]
      · rwa [same]
      · rwa [same]
  | cons item rest induction =>
      obtain ⟨name, init, step⟩ := item
      have ⟨here, others⟩ := List.forall_mem_cons.mp licensed
      cases step with
      | some step =>
          exact suspend_sound sound (.loopStep loopSound others names new inStore nextInStore)
            (here step (by simp [LoopVariable.parts])) inStore
      | none =>
          have ⟨bound, names⟩ := List.forall_mem_cons.mp names
          unfold runLoopSteps
          split
          · exact fail_sound sound (List.forall_mem_nil _)
          · rename_i value found
            have grows := machine.world.store.define_grows next name value
            have known := sound.store.get?_known found
            exact induction (sound.bind new bound known) (loopSound.mono grows)
              (grows.inStore inStore) (grows.inStore nextInStore) others names

theorem runLoopCommands_sound {loop : Loop} (loopSound : loop.Sound licence machine.world.store)
    (inStore : frame < machine.world.store.frames.size) {commands : List Node}
    (licensed : ∀ command ∈ commands, licence.code command) :
    (machine.runLoopCommands limit loop frame commands).Sound licence binds := by
  cases commands with
  | nil =>
      have grows := machine.world.store.enter_grows loop.outer []
      have entered := machine.world.store.child_lt_size loop.outer
      exact runLoopSteps_sound (sound.child loopSound.outer) (loopSound.mono grows)
        (grows.inStore inStore) entered sound.store.grows.frames loopSound.varying
        (licence.locals loopSound.code)
  | cons command rest =>
      have ⟨here, others⟩ := List.forall_mem_cons.mp licensed
      exact suspend_sound sound (.loopCommand loopSound others inStore) here inStore

/-! ## Whole steps -/

theorem execute_sound (inStore : frame < machine.world.store.frames.size) {code : Node}
    (licensed : licence.code code) : (machine.execute limit frame code).Sound licence binds := by
  have part {inner : Node} (member : inner ∈ code.parts) : licence.code inner :=
    licence.part licensed member
  have names := licence.locals licensed
  have new := sound.store.grows.frames
  cases code with
  | literal value => exact give_sound sound (sound.store.constant licensed value (.head _))
  | quote value => exact give_sound sound (sound.store.constant licensed value (.head _))
  | «variable» name =>
      simp only [execute]
      split
      · rename_i found
        exact give_sound sound (sound.store.get?_known found)
      · exact fail_sound sound (List.forall_mem_nil _)
  | branch test consequent alternate =>
      have alternates : ∀ node ∈ alternate, licence.code node :=
        fun node member => part (.tail _ (.tail _ (Option.mem_toList.mpr member)))
      exact suspend_sound sound (.branch (part (.tail _ (.head _))) alternates inStore)
        (part (.head _)) inStore
  | sequence parts => exact runSequence_sound sound inStore fun _ => part
  | lambda name formals body =>
      have grows := machine.world.store.close_grows name formals body frame
      have allows := sound.store.close inStore (part (.head _)) name formals
      have made : machine.world.store.closures.size <
          (machine.world.store.close name formals body frame).2.closures.size := by
        simp [Store.close]
      exact give_sound (sound.change allows grows) ⟨made, licence.lambda licensed⟩
  | define name value =>
      exact suspend_sound sound (.define ⟨value, licensed⟩) (part (.head _)) inStore
  | assign name value =>
      exact suspend_sound sound (.assign name frame) (part (.head _)) inStore
  | call operator operands tail =>
      have licensed : ∀ operand ∈ operands, licence.code operand :=
        fun operand member => part (.tail _ member)
      exact suspend_sound sound (.operator licensed inStore) (part (.head _)) inStore
  | letIn bindings body =>
      have grows := machine.world.store.enter_grows frame []
      have entered := machine.world.store.child_lt_size frame
      have inits : ∀ binding ∈ bindings, licence.code binding.2 := fun binding member =>
        part (List.mem_cons_of_mem _ (List.mem_map_of_mem member))
      exact runBindings_sound (sound.child inStore) (part (.head _)) (grows.inStore inStore) entered
        new inits names
  | letrec bindings body =>
      have entered := machine.world.store.child_lt_size frame
      have inits : ∀ binding ∈ bindings, licence.code binding.2 := fun binding member =>
        part (List.mem_cons_of_mem _ (List.mem_map_of_mem member))
      have sound := predefine_sound (sound.child inStore) new names
      have predefined : (machine.world.child frame).1 <
          (predefine (machine.world.child frame).2 (machine.world.child frame).1
            bindings).store.frames.size :=
        (predefine_grows _ _ bindings).inStore entered
      exact runBindings_sound sound (part (.head _)) predefined predefined new inits names
  | loop varying test result commands =>
      have grows := machine.world.store.enter_grows frame []
      have entered := machine.world.store.child_lt_size frame
      let loop : Loop := ⟨varying, test, result, commands, frame⟩
      have loopSound : loop.Sound licence machine.world.store := ⟨licensed, inStore⟩
      exact runLoopInits_sound (sound.child inStore) (loopSound.mono grows) entered new
        loopSound.varying names
  | cond clauses =>
      refine runClauses_sound sound inStore fun item member inner inItem => part ?_
      exact List.mem_flatMap.mpr ⟨item, member, inItem⟩
  | conjunction tests => exact runConjunction_sound sound inStore fun _ => part
  | disjunction tests => exact runDisjunction_sound sound inStore fun _ => part

theorem resume_sound {value : Value}
    (known : value.Known licence.formals machine.world.store) {level : Level}
    (levelSound : level.Sound licence machine.world.store)
    (defines : ∀ name frame, level = .define name frame → licence.Defines name →
      binds frame name) :
    (machine.resume limit value level).Sound licence binds := by
  cases levelSound with
  | branch consequent alternate inStore =>
      simp only [resume]
      split
      · exact proceed_sound sound consequent inStore
      · split
        · exact proceed_sound sound (alternate _ rfl) inStore
        · exact give_sound sound trivial
  | sequence rest inStore => exact runSequence_sound sound inStore rest
  | define licensed =>
      exact give_sound (sound.define (defines _ _ rfl licensed) known) trivial
  | assign name frame =>
      simp only [resume]
      split
      · rename_i nearest found
        have free := sound.store.names (Store.binds_of_nearest? found)
        have grows := machine.world.store.define_grows nearest name value
        exact give_sound (sound.define free known) (grows.known known)
      · exact fail_sound sound (List.forall_mem_nil _)
  | operator operands inStore =>
      exact runOperands_sound sound known (List.forall_mem_nil _) _ inStore operands
  | operand procedure reversed rest inStore =>
      have values := List.forall_mem_cons.mpr ⟨known, reversed⟩
      exact runOperands_sound sound procedure values _ inStore rest
  | @binding name rest body scope inner bodyLicensed licensed names new scopeInStore
      innerInStore =>
      have ⟨here, others⟩ := List.forall_mem_cons.mp names
      have grows := machine.world.store.define_grows inner name value
      exact runBindings_sound (sound.bind new here known) bodyLicensed
        (grows.inStore scopeInStore) (grows.inStore innerInStore) new licensed others
  | @loopInit name rest loop frame loopSound licensed names new inStore =>
      have ⟨here, others⟩ := List.forall_mem_cons.mp names
      have grows := machine.world.store.define_grows frame name value
      exact runLoopInits_sound (sound.bind new here known) (loopSound.mono grows)
        (grows.inStore inStore) new licensed others
  | loopTest loopSound inStore =>
      simp only [resume]
      split
      · split
        · rename_i result
          exact proceed_sound sound (loopSound.result _ result) inStore
        · exact give_sound sound trivial
      · exact runLoopCommands_sound sound loopSound inStore loopSound.commands
  | loopCommand loopSound rest inStore =>
      exact runLoopCommands_sound sound loopSound inStore rest
  | @loopStep name rest loop frame next loopSound licensed names new inStore nextInStore =>
      have ⟨here, others⟩ := List.forall_mem_cons.mp names
      have grows := machine.world.store.define_grows next name value
      exact runLoopSteps_sound (sound.bind new here known) (loopSound.mono grows)
        (grows.inStore inStore) (grows.inStore nextInStore) new licensed others
  | @clause item rest frame licensed inStore =>
      have ⟨here, others⟩ := List.forall_mem_cons.mp licensed
      simp only [resume]
      split
      · cases item with
        | test test => exact give_sound sound known
        | arrow test receiver tail =>
            have licensed := here receiver (.tail _ (.head _))
            exact suspend_sound sound (.receiver known) licensed inStore
        | body test body => exact proceed_sound sound (here body (.tail _ (.head _))) inStore
        | otherwise body => exact proceed_sound sound (here body (.head _)) inStore
      · exact runClauses_sound sound inStore others
  | receiver argument =>
      exact call_sound sound known (List.forall_mem_singleton.mpr argument) _
  | conjunction rest inStore =>
      simp only [resume]
      split
      · exact runConjunction_sound sound inStore rest
      · exact give_sound sound known
  | disjunction rest inStore =>
      simp only [resume]
      split
      · exact give_sound sound known
      · exact runDisjunction_sound sound inStore rest
  | body => exact give_sound sound known

omit sound in
/-- A step keeps a state sound, if a definition that it makes is licensed. -/
theorem step_sound {control : Control}
    (sound : (Progress.running control machine).Sound licence binds)
    (defines : ∀ frame name, (Progress.running control machine).Defines frame name →
      licence.Defines name → binds frame name) :
    (machine.step limit control).Sound licence binds := by
  obtain ⟨machineSound, controlSound⟩ := sound
  cases control with
  | run code frame =>
      have same := World.store_observe machine.world machine.depth code.kind
      have observed := machineSound.of_store_eq same
      refine execute_sound observed ?_ controlSound.1
      rw [same]
      exact controlSound.2
  | give value =>
      unfold step
      dsimp only
      split
      · exact ⟨machineSound.store, List.forall_mem_singleton.mpr controlSound⟩
      · rename_i level levels same
        have ⟨here, others⟩ := List.forall_mem_cons.mp (same ▸ machineSound.levels)
        have outer : Sound licence binds
            { machine with levels := levels, depth := machine.depth - 1 } :=
          ⟨machineSound.store, others⟩
        refine resume_sound outer controlSound here ?_
        rintro name frame rfl licensed
        exact defines frame name ⟨value, machine, levels, rfl, same⟩ licensed

omit sound in
/-- A name that a step adds to a frame is a licensed one in a new frame, or is bound there
by a definition. -/
theorem step_adds {control : Control}
    (sound : (Progress.running control machine).Sound licence binds) {name : Symbol}
    (unbound : machine.world.store.binds frame name = false)
    (bound : (machine.step limit control).store.binds frame name = true) :
    (base.frames.size ≤ frame ∧ licence.names name) ∨
      (Progress.running control machine).Defines frame name ∧ licence.Defines name := by
  let others (frame : FrameId) (name : Symbol) : Prop :=
    machine.world.store.binds frame name = true ∨
      (base.frames.size ≤ frame ∧ licence.names name) ∨
      (Progress.running control machine).Defines frame name ∧ licence.Defines name
  have allows : licence.Allows others machine.world.store :=
    sound.1.store.rebind (fun _ new _ licensed => .inr (.inl ⟨new, licensed⟩)) .inl
  have rebound : (Progress.running control machine).Sound licence others :=
    ⟨⟨allows, sound.1.levels⟩, sound.2⟩
  have stepped : (machine.step limit control).Sound licence others :=
    step_sound rebound fun _ _ defines licensed => .inr (.inr ⟨defines, licensed⟩)
  rcases stepped.allows.names bound with before | added
  · rw [unbound] at before
    cases before
  · exact added

end Machine

/-- All that a run reaches is sound, if the definitions that it makes are licensed. -/
theorem Progress.Reaches.sound {start progress : Progress}
    (reaches : Reaches limit start progress) (sound : start.Sound licence binds)
    (defines : ∀ middle frame name, Reaches limit start middle → middle.Defines frame name →
      licence.Defines name → binds frame name) :
    progress.Sound licence binds := by
  induction reaches with
  | refl => exact sound
  | @tail middle progress reached step induction =>
      cases middle with
      | running control machine =>
          cases step
          exact machine.step_sound induction fun frame name => defines _ frame name reached
      | ended outcome world => exact step.elim

end SmallScheme
