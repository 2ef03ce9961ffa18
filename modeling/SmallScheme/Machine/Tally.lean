import SmallScheme.Node.Basic
import SmallScheme.Number.Nearest
import SmallScheme.Number.Layout

namespace SmallScheme

/-! Counts of executed steps by the kind of the node, and the report on them. -/

/-- The kinds met so far, each with its count. -/
abbrev Tally := List (Kind × Nat)

namespace Tally

def count (tally : Tally) (kind : Kind) : Nat :=
  (tally.lookup kind).getD 0

/-- One more step on a node of the given kind. -/
def add (kind : Kind) : Tally → Tally
  | [] => [(kind, 1)]
  | (counted, count) :: tally =>
      if counted = kind then (counted, count + 1) :: tally
      else (counted, count) :: add kind tally

def total (tally : Tally) : Nat :=
  tally.foldr (fun entry total => entry.2 + total) 0

@[simp] theorem count_add_self (kind : Kind) (tally : Tally) :
    (add kind tally).count kind = tally.count kind + 1 := by
  induction tally with
  | nil => simp [add, count]
  | cons entry tally induction =>
      obtain ⟨counted, amount⟩ := entry
      by_cases equal : counted = kind
      · simp [add, count, equal]
      · have different : (kind == counted) = false := by simpa using Ne.symm equal
        simpa [add, count, equal, List.lookup_cons, different] using induction

theorem count_add_of_ne {kind other : Kind} (different : other ≠ kind) (tally : Tally) :
    (add kind tally).count other = tally.count other := by
  induction tally with
  | nil =>
      have unequal : (other == kind) = false := by simpa using different
      simp [add, count, List.lookup_cons, unequal]
  | cons entry tally induction =>
      obtain ⟨counted, amount⟩ := entry
      by_cases equal : counted = kind
      · have unequal : (other == kind) = false := by simpa using different
        simp [add, count, equal, List.lookup_cons, unequal]
      · by_cases met : other = counted
        · simp [add, count, equal, met]
        · have unequal : (other == counted) = false := by simpa using met
          simpa [add, count, equal, List.lookup_cons, unequal] using induction

@[simp] theorem total_add (kind : Kind) (tally : Tally) :
    (add kind tally).total = tally.total + 1 := by
  induction tally with
  | nil => rfl
  | cons entry tally induction =>
      obtain ⟨counted, amount⟩ := entry
      by_cases equal : counted = kind
      · simp only [add, equal, if_true, total, List.foldr_cons]
        omega
      · simp only [add, equal, if_false, total, List.foldr_cons] at induction ⊢
        omega

/-! ## The report -/

private def padded (width : Nat) (text : String) : String :=
  String.ofList (List.replicate (width - text.length) ' ') ++ text

/-- The share of `count` in `total` in whole percent; a half goes to the even
neighbour. -/
def percent (count total : Nat) : Nat :=
  let share := Number.Binary.ofBits (Number.nearestBits (100 * count) total)
  Number.roundHalfEven (share.units * Nat.pow 2 share.exponent.toNat)
    (Nat.pow 2 (-share.exponent).toNat)

def line (total : Nat) (kind : Kind) (count : Nat) : String :=
  kind.name ++ ": " ++ padded 10 (Number.digitsText count) ++ " steps,  " ++
    padded 2 (Number.digitsText (percent count total)) ++ "% of total steps\n"

/-- A line for each kind that was met, the largest count first; lines with the
same count are in the order of their text. -/
def report (tally : Tally) : String :=
  let lines := tally.map fun (kind, count) => (count, line tally.total kind count)
  let sorted := lines.mergeSort fun (leftCount, left) (rightCount, right) =>
    rightCount < leftCount || (leftCount = rightCount && left ≤ right)
  String.join (sorted.map (·.2))

example : line 3 .literal 2 = "Literal:          2 steps,  67% of total steps\n" := by
  decide +kernel
example : percent 1 8 = 12 := by decide +kernel

end Tally

end SmallScheme
