import SmallScheme.Proofs.Expansion
import SmallScheme.Proofs.Loops

namespace SmallScheme

/-! # Counters

A procedure that makes counters gives each of them a frame of its own, where the counter
keeps how often it was called. The counts never mix: whatever counters are called in
between, each call of a counter is answered with the number of its own calls. -/

/-! ## Procedures without parameters -/

/-- At the root, a name stands for a procedure without parameters, in whose home one can
add. -/
def Store.Thunk (store : Store) (root : FrameId) (name : String) (body : Node)
    (home : FrameId) : Prop :=
  ∃ place own,
    store.Sees root [(⟨name⟩, .procedure (.compound place own ⟨[], none⟩))] ∧
      store.Keeps place body home [(⟨"+"⟩, .procedure (.primitive .add))]

namespace Store.Thunk

variable {store other : Store} {root home : FrameId} {name : String} {body : Node}

theorem of_store (thunk : store.Thunk root name body home) (frames : other.frames = store.frames)
    (closures : other.closures = store.closures) : other.Thunk root name body home := by
  rcases thunk with ⟨place, own, sees, keeps⟩
  exact ⟨place, own, sees.of_frames frames, keeps.of_store frames closures⟩

theorem enter (thunk : store.Thunk root name body home) (parent : FrameId)
    (bindings : Bindings) : (store.enter parent bindings).2.Thunk root name body home := by
  rcases thunk with ⟨place, own, sees, keeps⟩
  exact ⟨place, own, sees.enter_old parent bindings, keeps.enter parent bindings⟩

theorem define (thunk : store.Thunk root name body home) {bound : String}
    (notName : name ≠ bound) (notPlus : "+" ≠ bound) (holder : FrameId) (value : Value) :
    (store.define holder ⟨bound⟩ value).Thunk root name body home := by
  rcases thunk with ⟨place, own, sees, keeps⟩
  have others {known : String} {callee : Value} (different : known ≠ bound) :
      Bindings.get? [(⟨known⟩, callee)] ⟨bound⟩ = none := by
    rw [Bindings.get?_cons, if_neg (mt Symbol.mk.inj different.symm)]
    rfl
  exact ⟨place, own, sees.define_of_ne (others notName) holder value, keeps.closure,
    keeps.sees.define_of_ne (others notPlus) holder value⟩

theorem close (thunk : store.Thunk root name body home) (own : Option Symbol)
    (formals : Formals) (other : Node) (frame : FrameId) :
    (store.close own formals other frame).2.Thunk root name body home := by
  rcases thunk with ⟨place, known, sees, keeps⟩
  exact ⟨place, known, sees.of_frames rfl,
    .of_push_old rfl keeps.closure (keeps.sees.of_frames rfl)⟩

end Store.Thunk

/-! ## Counting calls -/

/-- `(begin (set! n (+ n 1)) n)` -/
def counterBody : Node :=
  .sequence [.assign ⟨"n"⟩ (.named "+" [.variable ⟨"n"⟩, .natural 1] false), .variable ⟨"n"⟩]

/-- `(let ((n 0)) (lambda () (set! n (+ n 1)) n))` -/
def makerBody : Node :=
  .letIn [(⟨"n"⟩, .natural 0)] (.lambda none ⟨[], none⟩ counterBody)

namespace Store

/-- A call of a counter has a frame, and the home of the counter gets the next number. -/
def count (store : Store) (home : FrameId) (number : Nat) : Store :=
  (store.enter home []).2.define home ⟨"n"⟩ (.natural number)

/-- A new counter has a home inside of the frame of the call that makes it. -/
def counter (store : Store) (root : FrameId) : Value × Store :=
  let called := (store.enter root []).2
  let home := (called.enter store.frames.size [(⟨"n"⟩, .natural 0)]).2
  home.close none ⟨[], none⟩ counterBody called.frames.size

/-- The name of a new counter is defined at the root. -/
def makeCounter (store : Store) (root : FrameId) (name : String) : Store :=
  (store.counter root).2.define root ⟨name⟩ (store.counter root).1

variable {scene : Scene} {root home : FrameId} {name : String}

/-- The frame of the call sees the next number. -/
theorem get?_count {store : Store} (old : home < store.frames.size) (number : Nat) :
    (store.count home number).get? store.frames.size ⟨"n"⟩ = some (.natural number) := by
  have unbound : (store.count home number).bound? store.frames.size ⟨"n"⟩ = none := by
    rw [count, bound?_define, if_neg fun same => Nat.ne_of_gt old same.1, bound?_enter, if_pos rfl]
    rfl
  have parent : (store.count home number).parent? store.frames.size = some home := by
    rw [count, parent?_define, parent?_enter, if_pos rfl]
  rw [get?_eq_bound?_or, unbound, parent, Option.none_or, Option.bind_some, if_pos old, count,
    get?_define_self (lt_size_enter old home []), if_pos rfl]

theorem Thunk.count_passes {number : Nat}
    (thunk : scene.store.Thunk root name counterBody home)
    (bound : scene.store.bound? home ⟨"n"⟩ = some (.natural number))
    (small : number + 1 < 2 ^ 63) :
    Passes 3 scene (.run (.named name [] true) root)
      { scene with store := scene.store.count home (number + 1) }
      (.give (.natural (number + 1))) := by
  rcases thunk with ⟨place, own, sees, keeps⟩
  have old := keeps.sees.inStore
  have called := keeps.named (sees.value List.lookup_cons_self) .nil rfl
  let inside : Scene := { scene with store := (scene.store.enter home []).2 }
  have adds : inside.store.get? scene.store.frames.size ⟨"+"⟩ =
      some (.procedure (.primitive .add)) := by
    rw [get?_enter_new old]
    exact keeps.sees.value List.lookup_cons_self
  have before : inside.store.get? scene.store.frames.size ⟨"n"⟩ = some (.natural number) := by
    rw [get?_enter_new old]
    exact get?_of_bound? bound
  have nearest : inside.store.nearest? ⟨"n"⟩ scene.store.frames.size = some home :=
    (nearest?_enter_new old rfl).trans (nearest?_of_bound? bound)
  have added := (Passes.name 0 before).add_one adds small
  have body := (added.assign nearest).sequence (.variable ⟨"n"⟩)
  exact (called.mono (by omega)).trans (body.trans (Passes.name 3 (get?_count old _)))

theorem Thunk.makeCounter_passes (maker : scene.store.Thunk root "make-counter" makerBody root)
    (name : String) :
    Passes 3 scene (.run (.define ⟨name⟩ (.named "make-counter" [] false)) root)
      { scene with store := scene.store.makeCounter root name } (.give .nil) := by
  rcases maker with ⟨place, own, sees, keeps⟩
  let inner := scene.store.frames.size
  let called : Scene := { scene with store := (scene.store.enter root []).2 }
  let waiting : Scene := { scene with store := (called.store.child inner).2 }
  let bound : Scene :=
    { scene with store := (called.store.enter inner [(⟨"n"⟩, .natural 0)]).2 }
  have zero : Computes 0 waiting inner (.natural 0) (.natural 0) :=
    Passes.literal 0 waiting inner (.natural 0)
  have home : waiting.store.define called.store.frames.size ⟨"n"⟩ (.natural 0) = bound.store :=
    define_enter [] ⟨"n"⟩ (.natural 0)
  have binds : Passes 1 called (.run makerBody inner) bound
      (.run (.lambda none ⟨[], none⟩ counterBody) called.store.frames.size) := by
    have binds := Passes.letIn zero ⟨"n"⟩ (.lambda none ⟨[], none⟩ counterBody)
    rw [home] at binds
    exact binds
  have makes := binds.trans (Passes.lambda 1 bound none ⟨[], none⟩ counterBody _)
  have calls := Passes.call (Passes.name 1 (sees.value List.lookup_cons_self)) .nil false
  exact (calls.trans (Passes.bodyCall keeps.closure rfl makes)).define ⟨name⟩

end Store

/-! ## Names of counters -/

/-- The name of a counter: `c1`, `c2` and so on. -/
def counterName (number : Nat) : String :=
  "c" ++ toString number

theorem toList_counterName (number : Nat) :
    (counterName number).toList = 'c' :: Nat.toDigits 10 number := by
  rw [counterName, String.toList_append]
  exact congrArg ('c' :: ·) (Nat.toList_repr)

theorem counterName_inj {left right : Nat} (same : counterName left = counterName right) :
    left = right := by
  have digits : 'c' :: Nat.toDigits 10 left = 'c' :: Nat.toDigits 10 right := by
    rw [← toList_counterName, ← toList_counterName, same]
  rw [← Numeral.digitsValue_toDigits left, (List.cons.inj digits).2,
    Numeral.digitsValue_toDigits]

/-- Other names start with other letters. -/
theorem ne_counterName {text : String} (other : text.toList.head? ≠ some 'c') (number : Nat) :
    text ≠ counterName number := by
  rintro rfl
  rw [toList_counterName] at other
  exact other rfl

theorem counterName_isVariable (number : Nat) : Grammar.IsVariable ⟨counterName number⟩ := by
  intro member
  have letters : Grammar.reserved.all (·.toList.tail.head?.all (!·.isDigit)) = true := by decide
  obtain ⟨first, rest, same, digit⟩ := Numeral.toDigits_eq_cons number
  have letter := List.all_eq_true.mp letters _ member
  rw [toList_counterName, same, List.tail_cons, List.head?_cons, Option.all_some, digit] at letter
  cases letter

theorem counterName_isSymbolName (number : Nat) :
    IsSymbolName (counterName number).toList := by
  rw [toList_counterName]
  obtain ⟨first, rest, same, digit⟩ := Numeral.toDigits_eq_cons number
  refine ⟨by decide, by decide, ⟨by decide, fun hash => absurd hash (by decide)⟩, ?_, ?_⟩
  · rw [same]
    rfl
  · intro character member
    have digit := Numeral.isDigit_of_mem_toDigits number character member
    have notBlank := Datum.isBlank_of_isDigit digit
    have marks : ['(', ')', '\'', ',', '@', '.', '"', ';'].all (!·.isDigit) = true := by decide
    have notMark : character ∉ ['(', ')', '\'', ',', '@', '.', '"', ';'] := by
      intro mark
      have notDigit := List.all_eq_true.mp marks character mark
      rw [digit] at notDigit
      cases notDigit
    simpa [Cursor.isDelimiter, notBlank] using notMark

/-! ## Texts -/

section

variable {name : Symbol} (free : Grammar.IsVariable name)

include free

theorem Compiler.formOf?_of_isVariable : formOf? (.symbol name) = none := by
  apply Option.eq_none_iff_forall_ne_some.mpr
  intro form found
  cases (formOf?_eq_some_iff _ form).mp found
  apply free
  cases form <;> decide

theorem Node.compile_variable (tail : Bool) :
    compile tail (.symbol name) = .ok (.variable name) := by
  rw [compile_eq, Compiler.compileWith, Compiler.variableName_symbol free]
  rfl

end

open Source

theorem maker_denotes :
    Denotes "(define (make-counter) (let ((n 0)) (lambda () (set! n (+ n 1)) n)))"
      (.definition "make-counter" [] makerBody) := by
  refine .of_written
    (list [name "define", list [name "make-counter"],
      list [name "let", list [list [name "n", .natural 0]],
        list [name "lambda", .nil,
          list [name "set!", name "n", list [name "+", name "n", .natural 1]], name "n"]]])
    ?_ rfl ?_ fun next => rfl
  · simp +decide [list, name, Datum.Readable, Datum.zero_readable, Datum.one_readable]
  · simp [list, name, Datum.written, Datum.writtenRest, Datum.atomText, Datum.written_zero,
      Datum.written_one]

theorem counter_denotes (number : Nat) :
    Denotes ("(define " ++ counterName number ++ " (make-counter))")
      (.define ⟨counterName number⟩ (.named "make-counter" [] false)) := by
  have free := counterName_isVariable number
  refine .of_written (list [name "define", name (counterName number), list [name "make-counter"]])
    ?_ rfl ?_ fun next => ?_
  · simp +decide [list, name, Datum.Readable, counterName_isSymbolName]
  · simp [list, name, Datum.written, Datum.writtenRest, Datum.atomText]
  · rw [Node.ofDatum, Node.compile_form .define rfl]
    simp only [Compiler.compileForm, Compiler.compileDefine, Compiler.variableName_symbol free]
    rfl

theorem counterCall_denotes (number : Nat) :
    Denotes ("(" ++ counterName number ++ ")") (.named (counterName number) [] true) := by
  have free := counterName_isVariable number
  refine .of_written (list [name (counterName number)]) ?_ rfl ?_ fun next => ?_
  · simp +decide [list, name, Datum.Readable, counterName_isSymbolName]
  · simp [list, name, Datum.written, Datum.writtenRest, Datum.atomText]
  · rw [Node.ofDatum, Node.compile_call rfl (Compiler.formOf?_of_isVariable free),
      Node.compile_variable free]
    rfl

/-! ## Counters in a store -/

namespace Store

variable {store other : Store} {root home : FrameId} {name : String}

section

variable {body : Node}

theorem Thunk.count (thunk : store.Thunk root name body home) (different : name ≠ "n")
    (holder : FrameId) (number : Nat) :
    (store.count holder number).Thunk root name body home :=
  (thunk.enter holder []).define different (by decide) holder _

theorem Thunk.makeCounter (thunk : store.Thunk root name body home) {made : Nat}
    (different : name ≠ counterName made) :
    (store.makeCounter root (counterName made)).Thunk root name body home := by
  have inside : (store.counter root).2.Thunk root name body home :=
    ((thunk.enter root []).enter store.frames.size _).close none ⟨[], none⟩ counterBody _
  exact inside.define different (ne_counterName (by decide) made) root _

end

theorem bound?_counter (store : Store) (root frame : FrameId) (name : Symbol) :
    (store.counter root).2.bound? frame name =
      ((store.enter root []).2.enter store.frames.size [(⟨"n"⟩, .natural 0)]).2.bound? frame
        name := rfl

/-- A counter with its home, where it keeps the number of its calls. -/
structure Counter (store : Store) (root : FrameId) (name : String) (home : FrameId)
    (calls : Nat) : Prop where
  thunk : store.Thunk root name counterBody home
  bound : store.bound? home ⟨"n"⟩ = some (.natural calls)

namespace Counter

variable {calls : Nat}

theorem of_store (counter : store.Counter root name home calls)
    (frames : other.frames = store.frames) (closures : other.closures = store.closures) :
    other.Counter root name home calls where
  thunk := counter.thunk.of_store frames closures
  bound := by
    rw [bound?, frames]
    exact counter.bound

theorem inStore (counter : store.Counter root name home calls) : home < store.frames.size :=
  lt_size_of_binds (binds_of_bound? counter.bound)

/-- A call counts for the counter that is called. -/
theorem count_self (counter : store.Counter root name home calls) (different : name ≠ "n")
    (number : Nat) : (store.count home number).Counter root name home number where
  thunk := counter.thunk.count different home number
  bound := by
    rw [Store.count, bound?_define, if_pos ⟨rfl, rfl, lt_size_enter counter.inStore home []⟩]

/-- A call does not count for a counter with another home. -/
theorem count_other (counter : store.Counter root name home calls) (different : name ≠ "n")
    {holder : FrameId} (apart : home ≠ holder) (number : Nat) :
    (store.count holder number).Counter root name home calls where
  thunk := counter.thunk.count different holder number
  bound := by
    rw [Store.count, bound?_define, if_neg fun same => apart same.1,
      bound?_enter_old counter.inStore]
    exact counter.bound

theorem makeCounter_other (counter : store.Counter root name home calls) {made : Nat}
    (different : name ≠ counterName made) :
    (store.makeCounter root (counterName made)).Counter root name home calls where
  thunk := counter.thunk.makeCounter different
  bound := by
    have old := counter.inStore
    have letter : (⟨"n"⟩ : Symbol) ≠ ⟨counterName made⟩ :=
      mt Symbol.mk.inj (ne_counterName (by decide) made)
    rw [makeCounter, bound?_define_of_ne letter, bound?_counter,
      bound?_enter_old (lt_size_enter old root []), bound?_enter_old old]
    exact counter.bound

end Counter

/-- A new counter was not called yet. -/
theorem Thunk.counter (maker : store.Thunk root "make-counter" makerBody root) (made : Nat) :
    (store.makeCounter root (counterName made)).Counter root (counterName made)
      (store.frames.size + 1) 0 := by
  rcases maker with ⟨_, _, sees, keeps⟩
  let called := (store.enter root []).2
  let adds : Bindings := [(⟨"+"⟩, .procedure (.primitive .add))]
  have size : called.frames.size = store.frames.size + 1 := store.size_enter root []
  rw [← size]
  have plus : (⟨"+"⟩ : Symbol) ≠ ⟨counterName made⟩ :=
    mt Symbol.mk.inj (ne_counterName (by decide) made)
  have letter : (⟨"n"⟩ : Symbol) ≠ ⟨counterName made⟩ :=
    mt Symbol.mk.inj (ne_counterName (by decide) made)
  have inner : called.Sees store.frames.size adds := keeps.sees.enter []
  have bound : (store.counter root).2.Sees called.frames.size ((⟨"n"⟩, .natural 0) :: adds) :=
    (inner.enter [(⟨"n"⟩, .natural 0)]).of_frames rfl
  have home : (store.counter root).2.Sees called.frames.size adds := bound.single rfl
  have nothing : (store.counter root).2.Sees root [] :=
    ⟨((sees.enter_old root []).enter_old store.frames.size _).inStore, nofun⟩
  have unknown : adds.get? ⟨counterName made⟩ = none := by
    rw [Bindings.get?_cons, if_neg plus.symm]
    rfl
  refine ⟨⟨_, none, nothing.define ⟨counterName made⟩ _, ?_⟩, ?_⟩
  · exact .of_push rfl (home.define_of_ne unknown root _)
  · rw [Store.makeCounter, bound?_define_of_ne letter, bound?_counter, bound?_enter, if_pos rfl]
    rfl

/-- The counters that were made, the first one first, with the calls of all of them. -/
structure Counters (store : Store) (root : FrameId) (homes : List FrameId) (calls : List Nat) :
    Prop where
  maker : store.Thunk root "make-counter" makerBody root
  counter : ∀ {index home}, homes[index]? = some home →
    store.Counter root (counterName (index + 1)) home (calls.count (index + 1))
  apart : homes.Nodup

namespace Counters

variable {homes : List FrameId} {calls : List Nat}

theorem of_store (counters : store.Counters root homes calls)
    (frames : other.frames = store.frames) (closures : other.closures = store.closures) :
    other.Counters root homes calls where
  maker := counters.maker.of_store frames closures
  counter found := (counters.counter found).of_store frames closures
  apart := counters.apart

theorem makeCounter (counters : store.Counters root homes []) :
    (store.makeCounter root (counterName (homes.length + 1))).Counters root
      (homes ++ [store.frames.size + 1]) [] where
  maker := counters.maker.makeCounter (ne_counterName (by decide) _)
  counter {index home} found := by
    rcases Nat.lt_trichotomy index homes.length with old | rfl | beyond
    · rw [List.getElem?_append_left old] at found
      apply (counters.counter found).makeCounter_other
      intro same
      have := counterName_inj same
      omega
    · rw [List.getElem?_concat_length] at found
      cases found
      exact counters.maker.counter (homes.length + 1)
    · rw [List.getElem?_eq_none (by simp; omega)] at found
      cases found
  apart := by
    rw [List.nodup_append]
    refine ⟨counters.apart, List.pairwise_singleton _ _, ?_⟩
    rintro home member new isNew rfl
    obtain ⟨index, found⟩ := List.getElem?_of_mem member
    have old := (counters.counter found).inStore
    rw [List.mem_singleton.mp isNew] at old
    exact Nat.not_succ_lt_self old

theorem count (counters : store.Counters root homes calls) {index : Nat}
    (called : homes[index]? = some home) :
    (store.count home (calls.count (index + 1) + 1)).Counters root homes
      (calls ++ [index + 1]) where
  maker := counters.maker.count (by decide) home _
  counter {other holder} found := by
    have different : counterName (other + 1) ≠ "n" := (ne_counterName (by decide) _).symm
    by_cases same : other = index
    · subst same
      rw [called] at found
      cases found
      have counted := (counters.counter called).count_self different (calls.count (other + 1) + 1)
      rwa [List.count_append, List.count_singleton_self]
    · have apart : holder ≠ home := by
        rintro rfl
        have inside := (List.getElem?_eq_some_iff.mp found).1
        exact same ((List.getElem?_inj inside counters.apart).mp (found.trans called.symm))
      have kept := (counters.counter found).count_other different apart
        (calls.count (index + 1) + 1)
      have notCounted : List.count (other + 1) [index + 1] = 0 := by
        rw [List.count_singleton]
        simp [Ne.symm same]
      rwa [List.count_append, notCounted, Nat.add_zero]
  apart := counters.apart

end Counters

end Store

/-! ## Sessions -/

namespace Session

/-- Texts are evaluated one after the other, each of them to its value. -/
inductive Answers : Session → List (String × Value) → Session → Prop
  | nil (session : Session) : Answers session [] session
  | cons {session middle after : Session} {text : String} {value : Value}
      {answers : List (String × Value)} :
      session.Evaluates text value middle → Answers middle answers after →
        Answers session ((text, value) :: answers) after

theorem Answers.append {first second third : Session} {answers more : List (String × Value)}
    (one : first.Answers answers second) (two : second.Answers more third) :
    first.Answers (answers ++ more) third := by
  induction one with
  | nil => exact two
  | cons evaluates _ induction => exact .cons evaluates (induction two)

/-- There are counters at the root of the session, and its limit leaves room for them. -/
structure Counters (session : Session) (homes : List FrameId) (calls : List Nat) : Prop where
  store : session.world.store.Counters session.root homes calls
  room : 3 < session.limit

namespace Counters

variable {session : Session} {homes : List FrameId}

theorem makeCounter (counters : session.Counters homes []) :
    ∃ after home, after.Counters (homes ++ [home]) [] ∧
      session.Evaluates ("(define " ++ counterName (homes.length + 1) ++ " (make-counter))") .nil
        after := by
  have passes (scene : Scene) (frames : scene.store.frames = session.world.store.frames)
      (closures : scene.store.closures = session.world.store.closures) :
      ∃ after : Scene, (∃ home, after.store.Counters session.root (homes ++ [home]) []) ∧
        Passes 3 scene (.run (.define ⟨counterName (homes.length + 1)⟩
          (.named "make-counter" [] false)) session.root) after (.give .nil) := by
    have here := counters.store.of_store frames closures
    exact ⟨_, ⟨_, here.makeCounter⟩, here.maker.makeCounter_passes _⟩
  rcases (counter_denotes (homes.length + 1)).evaluates _ passes counters.room with
    ⟨world, ⟨home, store⟩, evaluates⟩
  exact ⟨{ session with world := world }, home, ⟨store, counters.room⟩, evaluates⟩

theorem count {calls : List Nat} {index : Nat} {home : FrameId}
    (counters : session.Counters homes calls) (called : homes[index]? = some home)
    (few : calls.count (index + 1) + 1 < 2 ^ 63) :
    ∃ after, after.Counters homes (calls ++ [index + 1]) ∧
      session.Evaluates ("(" ++ counterName (index + 1) ++ ")")
        (.natural (calls.count (index + 1) + 1)) after := by
  have passes (scene : Scene) (frames : scene.store.frames = session.world.store.frames)
      (closures : scene.store.closures = session.world.store.closures) :
      ∃ after : Scene, after.store.Counters session.root homes (calls ++ [index + 1]) ∧
        Passes 3 scene (.run (.named (counterName (index + 1)) [] true) session.root) after
          (.give (.natural (calls.count (index + 1) + 1))) := by
    have here := counters.store.of_store frames closures
    have counter := here.counter called
    exact ⟨_, here.count called, counter.thunk.count_passes counter.bound few⟩
  rcases (counterCall_denotes (index + 1)).evaluates _ passes counters.room with
    ⟨world, store, evaluates⟩
  exact ⟨{ session with world := world }, ⟨store, counters.room⟩, evaluates⟩

/-- So many counters more are made. -/
theorem makeCounters (counters : session.Counters homes []) (more : Nat) :
    ∃ after all, all.length = homes.length + more ∧ after.Counters all [] ∧
      session.Answers ((List.range' (homes.length + 1) more).map fun number =>
        ("(define " ++ counterName number ++ " (make-counter))", .nil)) after := by
  induction more generalizing session homes with
  | zero => exact ⟨session, homes, rfl, counters, .nil session⟩
  | succ more induction =>
      rcases counters.makeCounter with ⟨middle, home, made, evaluates⟩
      rcases induction made with ⟨after, all, length, others, answers⟩
      rw [List.length_append, List.length_singleton] at length answers
      refine ⟨after, all, by omega, others, ?_⟩
      rw [List.range'_succ, List.map_cons]
      exact .cons evaluates answers

/-- Counters are called in some order, and every call is answered with the number of calls
of the same counter so far. -/
theorem counts {before calls : List Nat} (counters : session.Counters homes before)
    (numbered : ∀ number ∈ calls, 1 ≤ number ∧ number ≤ homes.length)
    (few : before.length + calls.length < 2 ^ 63) :
    ∃ after, session.Answers
      (calls.mapIdx fun index number =>
        ("(" ++ counterName number ++ ")",
          .natural ((before ++ calls.take (index + 1)).count number))) after := by
  induction calls generalizing session before with
  | nil => exact ⟨session, .nil session⟩
  | cons number calls induction =>
      have ⟨⟨positive, known⟩, others⟩ := List.forall_mem_cons.mp numbered
      obtain ⟨index, rfl⟩ := Nat.exists_eq_add_of_le' positive
      have called : homes[index]? = some homes[index] := List.getElem?_eq_getElem known
      have earlier : before.count (index + 1) ≤ before.length := List.count_le_length
      rw [List.length_cons] at few
      rcases counters.count called (by omega) with ⟨middle, counted, evaluates⟩
      have fewer : (before ++ [index + 1]).length + calls.length < 2 ^ 63 := by
        rw [List.length_append, List.length_singleton]
        omega
      rcases induction counted others fewer with ⟨after, answers⟩
      have moved (later : Nat) : before ++ (index + 1) :: calls.take (later + 1) =
          before ++ [index + 1] ++ calls.take (later + 1) :=
        List.append_cons before (index + 1) _
      refine ⟨after, ?_⟩
      simp only [List.mapIdx_cons, List.take_succ_cons, List.take_zero, moved]
      rw [List.count_append, List.count_singleton_self]
      exact .cons evaluates answers

end Counters

end Session

/-- Counters do not share their counts: after `(define (make-counter) ...)` and any number of
`(define c1 (make-counter))`, `(define c2 (make-counter))` and so on, the counters may be
called in any order, and each call has as its value how often that counter has been called
so far. -/
theorem counters_keep_apart {made : Nat} {calls : List Nat}
    (numbered : ∀ number ∈ calls, 1 ≤ number ∧ number ≤ made)
    (few : calls.length < 2 ^ 63) :
    ∃ after, Session.standard.Answers
      (("(define (make-counter) (let ((n 0)) (lambda () (set! n (+ n 1)) n)))", .nil) ::
        (List.range' 1 made).map (fun number =>
          ("(define " ++ counterName number ++ " (make-counter))", .nil)) ++
        calls.mapIdx fun index number =>
          ("(" ++ counterName number ++ ")",
            .natural ((calls.take (index + 1)).count number))) after := by
  have known : Session.standard.world.store.Sees Session.standard.root arithmetic :=
    Store.standard_sees
  rcases maker_denotes.defines Session.standard known (by decide) with
    ⟨world, ⟨sees, closures⟩, defined⟩
  let place := Session.standard.world.store.closures.size
  let maker : Value := .procedure (.compound place (some ⟨"make-counter"⟩) ⟨[], none⟩)
  have callee : world.store.Sees Session.standard.root [(⟨"make-counter"⟩, maker)] :=
    sees.single rfl
  have adds : world.store.Sees Session.standard.root [(⟨"+"⟩, .procedure (.primitive .add))] :=
    sees.single rfl
  have room : 3 < Session.standard.limit := by decide
  have none : ({ Session.standard with world := world } : Session).Counters [] [] :=
    ⟨⟨⟨place, _, callee, .of_push closures adds⟩, nofun, .nil⟩, room⟩
  rcases none.makeCounters made with ⟨middle, homes, length, counters, definitions⟩
  rw [List.length_nil, Nat.zero_add] at length
  rcases counters.counts (by rwa [length]) (by simpa using few) with ⟨after, answers⟩
  exact ⟨after, .cons defined (definitions.append answers)⟩

/-- Two counters that are called in turns. -/
theorem counters_keep_apart_turns :
    ∃ after, Session.standard.Answers
      [("(define (make-counter) (let ((n 0)) (lambda () (set! n (+ n 1)) n)))", .nil),
        ("(define c1 (make-counter))", .nil), ("(define c2 (make-counter))", .nil),
        ("(c1)", .number (.integer 1)), ("(c2)", .number (.integer 1)),
        ("(c1)", .number (.integer 2)), ("(c1)", .number (.integer 3)),
        ("(c2)", .number (.integer 2))] after :=
  @counters_keep_apart 2 [1, 2, 1, 1, 2] (by decide) (by decide)

end SmallScheme
