import Lexicon.Decision.Basic

/-!
# The nodes of a decision in order

A decision laid out as the list of its nodes, each before what follows it and the cases of a branch
in order. A node is given as a head, which holds what the node says itself.
-/

namespace Lexicon

universe u

/-- A node of a decision without what comes after it. -/
inductive Head (V : Type u) where
  | guard (check : LengthCheck)
  | spell (tests : List CharTest)
  | dispatch (offset : Nat) (onEnd : Option V) (chars : List Char)
  | accept (payload : V)
  | miss
deriving DecidableEq

namespace Decision

variable {V : Type u}

mutual

/-- The heads of a decision in front of those in `tail`. -/
def headsOnto : Decision V → List (Head V) → List (Head V)
  | guard check next, tail => .guard check :: next.headsOnto tail
  | spell tests next, tail => .spell tests :: next.headsOnto tail
  | dispatch offset onEnd cases, tail =>
    .dispatch offset onEnd (cases.map Prod.fst) :: headsOntoAll cases tail
  | accept payload, tail => .accept payload :: tail
  | miss, tail => .miss :: tail

/-- The heads of all cases in front of those in `tail`. -/
def headsOntoAll : List (Char × Decision V) → List (Head V) → List (Head V)
  | [], tail => tail
  | (_, d) :: rest, tail => d.headsOnto (headsOntoAll rest tail)

end

/-- The heads of all nodes, each before those of what follows it. -/
def heads (d : Decision V) : List (Head V) := d.headsOnto []

theorem headsOnto_eq (d : Decision V) (tail : List (Head V)) :
    d.headsOnto tail = d.heads ++ tail := by
  induction d using Decision.induction generalizing tail with
  | guard check next ih => rw [heads, headsOnto, headsOnto, ih tail, ih []]; simp
  | spell tests next ih => rw [heads, headsOnto, headsOnto, ih tail, ih []]; simp
  | dispatch offset onEnd cases ih =>
    have hall : ∀ tail, headsOntoAll cases tail = headsOntoAll cases [] ++ tail := by
      induction cases with
      | nil => intro tail; rfl
      | cons entry rest ihr =>
        intro tail
        obtain ⟨c, d⟩ := entry
        have hd := ih (c, d) (by simp)
        have hrest := ihr fun e he => ih e (by simp [he])
        rw [headsOntoAll, headsOntoAll, hd, hd (headsOntoAll rest []), hrest tail,
          List.append_assoc]
    rw [heads, headsOnto, headsOnto, hall tail]; simp
  | accept payload => rfl
  | miss => rfl

@[simp] theorem heads_guard (check : LengthCheck) (next : Decision V) :
    (guard check next).heads = .guard check :: next.heads := rfl

@[simp] theorem heads_spell (tests : List CharTest) (next : Decision V) :
    (spell tests next).heads = .spell tests :: next.heads := rfl

@[simp] theorem heads_dispatch (offset : Nat) (onEnd : Option V)
    (cases : List (Char × Decision V)) :
    (dispatch offset onEnd cases).heads =
      .dispatch offset onEnd (cases.map Prod.fst) :: cases.flatMap (·.2.heads) := by
  rw [heads, headsOnto]
  congr 1
  induction cases with
  | nil => rfl
  | cons entry rest ih => rw [headsOntoAll, headsOnto_eq, ih, List.flatMap_cons]

@[simp] theorem heads_accept (payload : V) :
    (accept payload).heads = [.accept payload] := rfl

@[simp] theorem heads_miss : (miss : Decision V).heads = [.miss] := rfl

end Decision

end Lexicon
