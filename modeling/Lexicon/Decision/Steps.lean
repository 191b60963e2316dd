import Lexicon.Decision.Eval
import Mathlib.Logic.Relation

/-!
# Evaluation step by step

An evaluation stands at a part of the decision with a cursor into the input. From there it takes
steps: past a guard, past one test of a run, or into the case of a branch. Every step is taken only
if what stands there passes, and reads at most one character. Where it can take no step the
evaluation ends, with a payload or a miss.
-/

namespace Lexicon.Decision

universe u

variable {V : Type u}

/-- Where an evaluation stands. -/
abbrev Place (V : Type u) := Decision V × Cursor

/-- One step of an evaluation on an input of the given length. -/
inductive Step (fold : CaseFold) (length : Nat) : Place V → Place V → Prop
  | guard {check : LengthCheck} {next : Decision V} {cursor : Cursor}
      (admits : check.admits length) : Step fold length (guard check next, cursor) (next, cursor)
  | test {test : CharTest} {tests : List CharTest} {next : Decision V} {cursor : Cursor}
      {read : Char × Cursor} (read_eq : cursor.read test.offset = some read)
      (passes : fold.apply read.1 = test.char) :
      Step fold length (spell (test :: tests) next, cursor) (spell tests next, read.2)
  | spelled {next : Decision V} {cursor : Cursor} :
      Step fold length (spell [] next, cursor) (next, cursor)
  | choose {offset : Nat} {onEnd : Option V} {cases : List (Char × Decision V)} {cursor : Cursor}
      {read : Char × Cursor} {d : Decision V} (goesOn : length ≠ offset)
      (read_eq : cursor.read offset = some read)
      (case_eq : (dispatch offset onEnd cases).case? (fold.apply read.1) = some d) :
      Step fold length (dispatch offset onEnd cases, cursor) (d, read.2)

/-- The evaluation of a decision for an input comes to the place. -/
def Arrives {α : Type} [Subject α] (d : Decision V) (fold : CaseFold) (input : α)
    (place : Place V) : Prop :=
  Relation.ReflTransGen (Step fold (Subject.length input)) (d, .start (Subject.chars input)) place

/-- The offset that is read next, if a character is read at all. -/
def nextOffset? (length : Nat) : Decision V → Option Nat
  | spell (test :: _) _ => some test.offset
  | dispatch offset _ _ => if length = offset then none else some offset
  | _ => none

/-- The payload with which the evaluation ends at once. -/
def answer? (length : Nat) : Decision V → Option V
  | dispatch offset onEnd _ => if length = offset then onEnd else none
  | accept payload => some payload
  | _ => none

/-- Beginning at the place, an evaluation inspects the characters at the offsets, one after the
other, until it is left off or comes to an end. A character is inspected also if its test fails. -/
inductive Inspects (fold : CaseFold) (length : Nat) : Place V → List Nat → Prop
  | here (place : Place V) : Inspects fold length place []
  | last {place : Place V} {offset : Nat} (next_eq : place.1.nextOffset? length = some offset) :
      Inspects fold length place [offset]
  | onward {s t : Place V} {offsets : List Nat} (step : Step fold length s t)
      (inspects : Inspects fold length t offsets) :
      Inspects fold length s ((s.1.nextOffset? length).toList ++ offsets)

end Lexicon.Decision
