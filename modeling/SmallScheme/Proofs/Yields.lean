import Mathlib.Data.List.Forall2

namespace SmallScheme

/-! # Computations that may fail

What is known of the result of a computation follows from what is known of the
results of its parts: that every result has a property, or that there is one that
has it. -/

variable {ε α β : Type}

theorem forall_of_forall₂ {holds : α → Prop} {items : List α} {results : List β}
    (related : List.Forall₂ (fun item _ => holds item) items results) :
    ∀ item ∈ items, holds item := by
  have both := related.imp fun _ _ first => And.intro first True.intro
  exact ((List.forall₂_and_left items results).mp both).1

/-- A computation has no result without the property. It may fail. -/
def Yields (computation : Except ε α) (property : α → Prop) : Prop :=
  ∀ result, computation = .ok result → property result

namespace Yields

variable {property : α → Prop} {goal : β → Prop} {computation : Except ε α}

theorem ok {result : α} (holds : property result) :
    Yields (.ok result : Except ε α) property := by
  intro other equal
  cases equal
  exact holds

theorem error (failure : ε) : Yields (.error failure) property :=
  fun _ equal => nomatch equal

theorem trivial (computation : Except ε α) : Yields computation fun _ => True :=
  fun _ _ => True.intro

theorem mono {weaker : α → Prop} (yields : Yields computation property)
    (implies : ∀ result, property result → weaker result) : Yields computation weaker :=
  fun result equal => implies result (yields result equal)

theorem bind {next : α → Except ε β} (yields : Yields computation property)
    (continues : ∀ result, property result → Yields (next result) goal) :
    Yields (computation >>= next) goal := by
  cases computation with
  | error failure => exact .error failure
  | ok result => exact continues result (yields result rfl)

/-- Nothing has to be known of the first result. -/
theorem skip {next : α → Except ε β} (continues : ∀ result, Yields (next result) goal) :
    Yields (computation >>= next) goal :=
  (trivial computation).bind fun result _ => continues result

theorem map {action : α → β} (yields : Yields computation fun result => goal (action result)) :
    Yields (action <$> computation) goal := by
  cases computation with
  | error failure => exact .error failure
  | ok result => exact .ok (yields result rfl)

theorem mapM {relation : α → β → Prop} {items : List α} {action : α → Except ε β}
    (each : ∀ item ∈ items, Yields (action item) (relation item)) :
    Yields (items.mapM action) (List.Forall₂ relation items) := by
  induction items with
  | nil => exact .ok .nil
  | cons item items induction =>
      rw [List.mapM_cons]
      refine (each item (by simp)).bind fun first holds => ?_
      have rest := induction fun other member => each other (by simp [member])
      exact rest.bind fun results all => .ok (.cons holds all)

theorem items_mapM {holds : α → Prop} {items : List α} {action : α → Except ε β}
    (each : ∀ item ∈ items, Yields (action item) fun _ => holds item) :
    Yields (items.mapM action) fun _ => ∀ item ∈ items, holds item :=
  (mapM each).mono fun _ related => forall_of_forall₂ related

theorem forall_mapM {items : List α} {action : α → Except ε β}
    (each : ∀ item ∈ items, Yields (action item) goal) :
    Yields (items.mapM action) fun results => ∀ result ∈ results, goal result :=
  (mapM each).mono fun _ related => forall_of_forall₂ related.flip

end Yields

/-- A computation has a result, with the property. -/
def Gives (computation : Except ε α) (property : α → Prop) : Prop :=
  ∃ result, computation = .ok result ∧ property result

namespace Gives

variable {property : α → Prop} {goal : β → Prop} {computation : Except ε α}

theorem ok {result : α} (holds : property result) :
    Gives (.ok result : Except ε α) property :=
  ⟨result, rfl, holds⟩

theorem mono {weaker : α → Prop} (gives : Gives computation property)
    (implies : ∀ result, property result → weaker result) : Gives computation weaker := by
  rcases gives with ⟨result, equal, holds⟩
  exact ⟨result, equal, implies result holds⟩

theorem bind {next : α → Except ε β} (gives : Gives computation property)
    (continues : ∀ result, property result → Gives (next result) goal) :
    Gives (computation >>= next) goal := by
  rcases gives with ⟨result, rfl, holds⟩
  exact continues result holds

theorem map {action : α → β} (gives : Gives computation fun result => goal (action result)) :
    Gives (action <$> computation) goal := by
  rcases gives with ⟨result, rfl, holds⟩
  exact ⟨action result, rfl, holds⟩

/-- A fact is known of each item, and the results are about the same facts. -/
theorem mapM {γ : Type} {known : α → γ → Prop} {relation : β → γ → Prop} {items : List α}
    {facts : List γ} {action : α → Except ε β} (related : List.Forall₂ known items facts)
    (each : ∀ item, ∀ fact ∈ facts, known item fact →
      Gives (action item) fun result => relation result fact) :
    Gives (items.mapM action) fun results => List.Forall₂ relation results facts := by
  induction related with
  | nil => exact .ok .nil
  | cons first _ induction =>
      rw [List.mapM_cons]
      refine (each _ _ List.mem_cons_self first).bind fun result holds => ?_
      have rest := induction fun item fact member => each item fact (List.mem_cons_of_mem _ member)
      exact rest.bind fun results all => .ok (.cons holds all)

end Gives

end SmallScheme
