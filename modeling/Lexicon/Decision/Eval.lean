import Lexicon.CaseFold
import Lexicon.Decision.Basic
import Lexicon.Subject

/-!
# Evaluation

An input is read through a cursor that only moves forward: reading an offset skips everything
before it, and an offset that has been passed cannot be read again. The length of the input is
known from the start.
-/

namespace Lexicon

universe u

/-- The part of an input that has not been read. -/
structure Cursor where
  /-- The characters still to be read. -/
  rest : List Char
  /-- The offset of the first of them. -/
  position : Nat
deriving DecidableEq

namespace Cursor

/-- The cursor in front of the first character. -/
def start (cs : List Char) : Cursor := ⟨cs, 0⟩

/-- The character at an offset, and the cursor behind it; none if the offset has been passed or
lies beyond the end. -/
def read (cursor : Cursor) (offset : Nat) : Option (Char × Cursor) :=
  if offset < cursor.position then none
  else
    match cursor.rest.drop (offset - cursor.position) with
    | [] => none
    | c :: rest => some (c, ⟨rest, offset + 1⟩)

/-- The cursor behind the characters tested, if every test passes. -/
def passAll (fold : CaseFold) (cursor : Cursor) : List CharTest → Option Cursor
  | [] => some cursor
  | test :: tests =>
    match cursor.read test.offset with
    | none => none
    | some (c, cursor) => if fold.apply c = test.char then passAll fold cursor tests else none

end Cursor

namespace Decision

variable {V : Type u}

mutual

/-- The result for an input of the given length whose unread part is at the cursor. -/
def run (fold : CaseFold) (length : Nat) : Decision V → Cursor → Option V
  | guard check next, cursor =>
    if check.admits length then next.run fold length cursor else none
  | spell tests next, cursor =>
    match cursor.passAll fold tests with
    | none => none
    | some cursor => next.run fold length cursor
  | dispatch offset onEnd cases, cursor =>
    if length = offset then onEnd
    else
      match cursor.read offset with
      | none => none
      | some (c, cursor) =>
        match casePosition? cases (fold.apply c) with
        | none => none
        | some i => runCase fold length cases i cursor
  | accept payload, _ => some payload
  | miss, _ => none

/-- The result of the case at a position. -/
def runCase (fold : CaseFold) (length : Nat) :
    List (Char × Decision V) → Nat → Cursor → Option V
  | [], _, _ => none
  | (_, d) :: _, 0, cursor => d.run fold length cursor
  | _ :: rest, i + 1, cursor => runCase fold length rest i cursor

end

theorem runCase_eq (fold : CaseFold) (length : Nat) (cases : List (Char × Decision V)) (i : Nat)
    (cursor : Cursor) :
    runCase fold length cases i cursor =
      cases[i]?.bind fun entry => entry.2.run fold length cursor := by
  induction cases generalizing i with
  | nil => rfl
  | cons entry rest ih =>
    cases i with
    | zero => rfl
    | succ i => rw [runCase, ih, List.getElem?_cons_succ]

/-- A branch goes on with the case of the folded character it reads. -/
theorem run_dispatch (fold : CaseFold) (length offset : Nat) (onEnd : Option V)
    (cases : List (Char × Decision V)) (cursor : Cursor) :
    (dispatch offset onEnd cases).run fold length cursor =
      if length = offset then onEnd
      else (cursor.read offset).bind fun read =>
        ((dispatch offset onEnd cases).case? (fold.apply read.1)).bind fun d =>
          d.run fold length read.2 := by
  rw [run]
  split
  · rfl
  · cases cursor.read offset with
    | none => rfl
    | some read =>
      simp only [case?, Option.bind_some]
      cases casePosition? cases (fold.apply read.1) with
      | none => rfl
      | some i =>
        simp only [Option.bind_some, runCase_eq]
        cases cases[i]? <;> rfl

/-- The payload that the decision finds for an input under a fold. -/
def eval {α : Type} [Subject α] (d : Decision V) (fold : CaseFold) (input : α) : Option V :=
  d.run fold (Subject.length input) (.start (Subject.chars input))

end Decision

end Lexicon
