import Lexicon.Decision.Basic

/-!
# Decisions over readers

A decision asks of its input only the length and the characters at the offsets it reads. `runOn`
walks a decision over anything that answers these questions, a `Reader`, and looks for the case of a
character from the front. So what the cursor of an evaluation is good for can be said by comparing
readers: one that may not go back (`Reader.forward`), and one that may read any offset at any time
(`Reader.anywhere`). Both are readers of a text whose characters are folded already.
-/

namespace Lexicon

universe u

/-- A way to read an input. Reading an offset in a state gives the character there and the state
behind it, or nothing. -/
structure Reader (σ : Type) where
  read : σ → Nat → Option (Char × σ)

namespace Reader

variable {σ : Type}

/-- The reader of a text whose state is the offset behind the last character read. What lies in
front of that offset, or beyond the end, is not read. -/
def forward (text : List Char) : Reader Nat where
  read position offset :=
    if h : position ≤ offset ∧ offset < text.length then some (text[offset], offset + 1) else none

/-- The reader of a text that reads every offset, whatever has been read before. -/
def anywhere (text : List Char) : Reader Unit where
  read _ offset := if h : offset < text.length then some (text[offset], ()) else none

/-- The state behind the characters tested, if every test passes. -/
def passAll (reader : Reader σ) (state : σ) : List CharTest → Option σ
  | [] => some state
  | test :: tests =>
    (reader.read state test.offset).bind fun read =>
      if read.1 = test.char then reader.passAll read.2 tests else none

end Reader

namespace Decision

variable {V : Type u} {σ : Type}

mutual

/-- The result for an input of the given length, as it is read from a state on. -/
def runOn (reader : Reader σ) (length : Nat) : Decision V → σ → Option V
  | guard check next, state =>
    if check.admits length then next.runOn reader length state else none
  | spell tests next, state =>
    (reader.passAll state tests).bind fun state => next.runOn reader length state
  | dispatch offset onEnd cases, state =>
    if length = offset then onEnd
    else
      (reader.read state offset).bind fun read =>
        runOnCase reader length cases read.1 read.2
  | accept payload, _ => some payload
  | miss, _ => none

/-- The result of the first case for a character. -/
def runOnCase (reader : Reader σ) (length : Nat) :
    List (Char × Decision V) → Char → σ → Option V
  | [], _, _ => none
  | (c', d) :: rest, c, state =>
    if c' = c then d.runOn reader length state else runOnCase reader length rest c state

end

/-- What the decision finds for a text that it reads without going back. -/
def evalForward (d : Decision V) (text : List Char) : Option V :=
  d.runOn (.forward text) text.length 0

/-- What the decision finds for a text that it reads at random. -/
def evalAnywhere (d : Decision V) (text : List Char) : Option V :=
  d.runOn (.anywhere text) text.length ()

theorem runOnCase_eq (reader : Reader σ) (length : Nat) (cases : List (Char × Decision V))
    (c : Char) (state : σ) :
    runOnCase reader length cases c state =
      (cases.find? (·.1 = c)).bind fun entry => entry.2.runOn reader length state := by
  induction cases with
  | nil => rfl
  | cons entry rest ih =>
    rw [runOnCase, ih]
    by_cases hc : entry.1 = c
    · rw [if_pos hc, List.find?_cons_of_pos (by simpa using hc), Option.bind_some]
    · rw [if_neg hc, List.find?_cons_of_neg (by simpa using hc)]

/-- A run reads the character of its first test, and goes on behind it if the test passes. -/
theorem runOn_spell_cons (reader : Reader σ) (length : Nat) (test : CharTest)
    (tests : List CharTest) (next : Decision V) (state : σ) :
    (spell (test :: tests) next).runOn reader length state =
      (reader.read state test.offset).bind fun read =>
        if read.1 = test.char then (spell tests next).runOn reader length read.2 else none := by
  rw [runOn, Reader.passAll, Option.bind_assoc]
  refine congrArg _ (funext fun read => ?_)
  split
  · rw [runOn]
  · rfl

end Decision

end Lexicon
