import Lexicon.Bisection
import Lexicon.CharTest
import Lexicon.LengthCheck

/-!
# Decisions

A decision is a procedure that reads an input from left to right and ends with a payload or a miss:
a tree of length guards, runs of character tests and branches on single characters. Every failed
test is a miss; nothing is tried twice.

Nothing in the type says that offsets grow or that cases are in order. What a compiled decision
satisfies beyond its type is stated of compilation.
-/

namespace Lexicon

universe u

/-- A procedure that finds the payload of an input. -/
inductive Decision (V : Type u) where
  /-- A miss unless the length passes; then `next`. -/
  | guard (check : LengthCheck) (next : Decision V)
  /-- A miss unless every test passes; then `next`. -/
  | spell (tests : List CharTest) (next : Decision V)
  /-- On an input that ends at `offset` the result is `onEnd`; else the case of the character at
  `offset` decides, and a character without a case is a miss. Cases are searched by bisection. -/
  | dispatch (offset : Nat) (onEnd : Option V) (cases : List (Char × Decision V))
  /-- The input stands for the payload. -/
  | accept (payload : V)
  /-- The input stands for nothing. -/
  | miss

namespace Decision

variable {V : Type u}

/-- What holds of a decision whenever it holds of its parts holds of every decision. -/
theorem induction {motive : Decision V → Prop}
    (guard : ∀ check next, motive next → motive (guard check next))
    (spell : ∀ tests next, motive next → motive (spell tests next))
    (dispatch : ∀ offset onEnd cases, (∀ entry ∈ cases, motive entry.2) →
      motive (dispatch offset onEnd cases))
    (accept : ∀ payload, motive (accept payload)) (miss : motive miss) (d : Decision V) :
    motive d := by
  refine Decision.rec (motive_1 := motive) (motive_2 := fun cases => ∀ entry ∈ cases, motive entry.2)
    (motive_3 := fun entry => motive entry.2) guard spell dispatch accept miss ?_ ?_ ?_ d
  · simp
  · intro entry rest hentry hrest e he
    rcases List.mem_cons.1 he with rfl | he
    · exact hentry
    · exact hrest e he
  · exact fun _ _ h => h

/-! ### Building -/

/-- The decision behind a guard, if there is one. -/
def guarded (check : Option LengthCheck) (next : Decision V) : Decision V :=
  match check with
  | some check => guard check next
  | none => next

/-- The decision of an input that is read to its end. -/
def ofPayload : Option V → Decision V
  | some payload => accept payload
  | none => miss

@[simp] theorem guarded_none (next : Decision V) : guarded none next = next := rfl

@[simp] theorem guarded_some (check : LengthCheck) (next : Decision V) :
    guarded (some check) next = guard check next := rfl

/-! ### Looking inside -/

/-- The position of the case for a character. -/
def casePosition? (cases : List (Char × Decision V)) (c : Char) : Option Nat :=
  Bisection.position? c (cases.map Prod.fst)

/-- The decision for a character, if the decision branches and has a case for it. -/
def case? (d : Decision V) (c : Char) : Option (Decision V) :=
  match d with
  | dispatch _ _ cases => (casePosition? cases c).bind fun i => cases[i]?.map Prod.snd
  | _ => none

/-- What is found is the decision of some case. -/
theorem exists_mem_of_case?_eq_some {offset : Nat} {onEnd : Option V}
    {cases : List (Char × Decision V)} {c : Char} {d : Decision V}
    (h : (dispatch offset onEnd cases).case? c = some d) : ∃ entry ∈ cases, entry.2 = d := by
  obtain ⟨i, -, hi⟩ := Option.bind_eq_some_iff.1 h
  obtain ⟨entry, hentry, rfl⟩ := Option.map_eq_some_iff.1 hi
  exact ⟨entry, List.mem_of_getElem? hentry, rfl⟩

/-- In a branch whose characters ascend every case is found. -/
theorem case?_dispatch_eq_some_iff {offset : Nat} {onEnd : Option V}
    {cases : List (Char × Decision V)} (hasc : (cases.map Prod.fst).Pairwise (· < ·))
    {c : Char} {d : Decision V} :
    (dispatch offset onEnd cases).case? c = some d ↔ (c, d) ∈ cases := by
  simp only [case?, casePosition?, Option.bind_eq_some_iff, Option.map_eq_some_iff,
    Bisection.position?_eq_some_iff hasc, List.getElem?_map, List.mem_iff_getElem?]
  constructor
  · rintro ⟨i, ⟨entry, hi, rfl⟩, entry', hi', rfl⟩
    obtain rfl := Option.some.inj (hi.symm.trans hi')
    exact ⟨i, hi⟩
  · rintro ⟨i, hi⟩
    exact ⟨i, ⟨_, hi, rfl⟩, _, hi, rfl⟩

/-- What is left of a decision once all tests in front have passed. -/
def body : Decision V → Decision V
  | guard _ next => next.body
  | spell _ next => next.body
  | d => d

/-- The decision that a sequence of cases leads to, tests in front of each branch set aside. -/
def follow? (d : Decision V) : List Char → Option (Decision V)
  | [] => some d
  | c :: rest => (d.body.case? c).bind fun next => follow? next rest

/-! ### Equality -/

variable [DecidableEq V]

mutual

/-- Whether two decisions have the same structure. -/
def same : Decision V → Decision V → Bool
  | guard check next, guard check' next' => check = check' && next.same next'
  | spell tests next, spell tests' next' => tests = tests' && next.same next'
  | dispatch offset onEnd cases, dispatch offset' onEnd' cases' =>
    offset = offset' && (onEnd = onEnd' && sameCases cases cases')
  | accept payload, accept payload' => payload = payload'
  | miss, miss => true
  | _, _ => false

/-- Whether two lists of cases have the same characters and decisions. -/
def sameCases : List (Char × Decision V) → List (Char × Decision V) → Bool
  | [], [] => true
  | (c, d) :: rest, (c', d') :: rest' => c = c' && (d.same d' && sameCases rest rest')
  | _, _ => false

end

private theorem sameCases_iff {cases : List (Char × Decision V)}
    (h : ∀ entry ∈ cases, ∀ d, entry.2.same d ↔ entry.2 = d) (cases' : List (Char × Decision V)) :
    sameCases cases cases' ↔ cases = cases' := by
  induction cases generalizing cases' with
  | nil => cases cases' <;> simp [sameCases]
  | cons entry rest ih =>
    obtain ⟨c, d⟩ := entry
    cases cases' with
    | nil => simp [sameCases]
    | cons entry' rest' =>
      obtain ⟨c', d'⟩ := entry'
      have hd : d.same d' ↔ d = d' := h (c, d) (by simp) d'
      have hrest := ih (fun e he => h e (by simp [he])) rest'
      simp [sameCases, hd, hrest, and_assoc]

theorem same_iff (d e : Decision V) : d.same e ↔ d = e := by
  induction d using Decision.induction generalizing e with
  | guard check next ih => cases e <;> simp [same, ih]
  | spell tests next ih => cases e <;> simp [same, ih]
  | dispatch offset onEnd cases ih =>
    cases e with
    | dispatch offset' onEnd' cases' => simp [same, sameCases_iff ih]
    | _ => simp [same]
  | accept payload => cases e <;> simp [same]
  | miss => cases e <;> simp [same]

instance : DecidableEq (Decision V) :=
  fun d e => decidable_of_iff _ (same_iff d e)

end Decision

end Lexicon
