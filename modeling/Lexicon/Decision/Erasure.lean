import Lexicon.Decision.Preorder

/-!
# Decisions without guards and runs

What is left of a decision when it asks for nothing but characters, one at a time: `erase` drops
every length guard and spells out every run of tests as branches with a single case each, behind
which the decision goes on.
-/

namespace Lexicon.Decision

universe u

variable {V : Type u}

/-- The decision behind branches on the characters of the tests, one within the other. -/
def spellOut (tests : List CharTest) (next : Decision V) : Decision V :=
  tests.foldr (fun test d => dispatch test.offset none [(test.char, d)]) next

@[simp] theorem spellOut_nil (next : Decision V) : spellOut [] next = next := rfl

theorem spellOut_cons (test : CharTest) (tests : List CharTest) (next : Decision V) :
    spellOut (test :: tests) next =
      dispatch test.offset none [(test.char, spellOut tests next)] := rfl

mutual

/-- The decision without guards, and with runs spelled out. -/
def erase : Decision V → Decision V
  | guard _ next => next.erase
  | spell tests next => spellOut tests next.erase
  | dispatch offset onEnd cases => dispatch offset onEnd (eraseCases cases)
  | accept payload => accept payload
  | miss => miss

/-- The cases with their decisions erased. -/
def eraseCases : List (Char × Decision V) → List (Char × Decision V)
  | [] => []
  | (c, d) :: rest => (c, d.erase) :: eraseCases rest

end

theorem eraseCases_eq_map (cases : List (Char × Decision V)) :
    eraseCases cases = cases.map fun entry => (entry.1, entry.2.erase) := by
  induction cases with
  | nil => rfl
  | cons entry rest ih => rw [eraseCases, ih, List.map_cons]

@[simp] theorem erase_guarded (check : Option LengthCheck) (next : Decision V) :
    (guarded check next).erase = next.erase := by
  cases check <;> rfl

@[simp] theorem erase_ofPayload (payload : Option V) :
    (ofPayload payload).erase = ofPayload payload := by
  cases payload <;> rfl

end Lexicon.Decision
