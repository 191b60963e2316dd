import Lexicon.Decision.Preorder
import Mathlib.Data.List.Basic

/-!
# The parts of a decision in order

A decision laid out as the list of its parts, one for every node: the decision that begins there,
with all that comes after it. A part stands before those it goes on with, and the cases of a branch
follow each other in order, as in the list of heads (`heads_eq_map_parts`).
-/

namespace Lexicon.Decision

universe u

variable {V : Type u}

mutual

/-- The parts of a decision, itself first. -/
def parts : Decision V → List (Decision V)
  | guard check next => guard check next :: next.parts
  | spell tests next => spell tests next :: next.parts
  | dispatch offset onEnd cases => dispatch offset onEnd cases :: partsAll cases
  | accept payload => [accept payload]
  | miss => [miss]

/-- The parts of all cases. -/
def partsAll : List (Char × Decision V) → List (Decision V)
  | [] => []
  | (_, d) :: rest => d.parts ++ partsAll rest

end

@[simp] theorem parts_guard (check : LengthCheck) (next : Decision V) :
    (guard check next).parts = guard check next :: next.parts := rfl

@[simp] theorem parts_spell (tests : List CharTest) (next : Decision V) :
    (spell tests next).parts = spell tests next :: next.parts := rfl

@[simp] theorem parts_dispatch (offset : Nat) (onEnd : Option V)
    (cases : List (Char × Decision V)) :
    (dispatch offset onEnd cases).parts =
      dispatch offset onEnd cases :: cases.flatMap (·.2.parts) := by
  rw [parts]
  congr 1
  induction cases with
  | nil => rfl
  | cons entry rest ih => rw [partsAll, ih, List.flatMap_cons]

/-- The node with which a decision begins. -/
def head : Decision V → Head V
  | guard check _ => .guard check
  | spell tests _ => .spell tests
  | dispatch offset onEnd cases => .dispatch offset onEnd (cases.map Prod.fst)
  | accept payload => .accept payload
  | miss => .miss

/-- There is a part for every node, in the same order. -/
theorem heads_eq_map_parts (d : Decision V) : d.heads = d.parts.map head := by
  induction d using Decision.induction with
  | guard check next ih => rw [heads_guard, parts_guard, List.map_cons, ih]; rfl
  | spell tests next ih => rw [heads_spell, parts_spell, List.map_cons, ih]; rfl
  | dispatch offset onEnd cases ih =>
    rw [heads_dispatch, parts_dispatch, List.map_cons, List.map_flatMap, List.flatMap_congr ih]
    rfl
  | accept payload => rfl
  | miss => rfl

/-! ### Runs -/

/-- Whether a decision begins with a run. -/
def isRun : Decision V → Bool
  | spell _ _ => true
  | _ => false

/-- The parts that begin with a run, in order. -/
def runs (d : Decision V) : List (Decision V) := d.parts.filter isRun

/-- Whether a decision answers at once, whatever the input. -/
def isReturn : Decision V → Bool
  | accept _ => true
  | miss => true
  | _ => false

@[simp] theorem runs_guarded (check : Option LengthCheck) (next : Decision V) :
    (guarded check next).runs = next.runs := by
  cases check <;> rfl

@[simp] theorem runs_spell (tests : List CharTest) (next : Decision V) :
    (spell tests next).runs = spell tests next :: next.runs := rfl

@[simp] theorem runs_dispatch (offset : Nat) (onEnd : Option V)
    (cases : List (Char × Decision V)) :
    (dispatch offset onEnd cases).runs = cases.flatMap (·.2.runs) := by
  rw [runs, parts_dispatch, List.filter_cons_of_neg (by simp [isRun]), List.filter_flatMap]
  rfl

@[simp] theorem runs_ofPayload (payload : Option V) : (ofPayload payload).runs = [] := by
  cases payload <;> rfl

@[simp] theorem isReturn_ofPayload (payload : Option V) : (ofPayload payload).isReturn := by
  cases payload <;> rfl

/-- Nothing is answered before a guard. -/
theorem isReturn_guarded {next : Decision V} (h : next.isReturn = false)
    (check : Option LengthCheck) : (guarded check next).isReturn = false := by
  cases check with
  | none => exact h
  | some check => rfl

/-- Where no node is a run, no part begins with one. -/
theorem runs_eq_nil {d : Decision V} (h : ∀ tests, .spell tests ∉ d.heads) : d.runs = [] := by
  refine List.filter_eq_nil_iff.2 fun part hpart hrun => ?_
  have hhead : part.head ∈ d.heads := by
    rw [heads_eq_map_parts]
    exact List.mem_map_of_mem hpart
  cases part with
  | spell tests next => exact h tests hhead
  | _ => simp [isRun] at hrun

end Lexicon.Decision
