import Lexicon.Decision.Eval
import Mathlib.Data.Set.Defs

/-!
# Routes through a decision

A route leads from the root of a decision to one of its nodes, turn by turn: past a guard, past a
run, or into a case of a branch. It names the node also where equal decisions stand at several
places, since no two nodes have the same route.

A route says what is known of the inputs that take it: the characters they go on with
(`Route.chars`) and the lengths that its guards and branches leave (`Route.lengths`). The route of
an input is the one that its evaluation takes (`Decision.route`), so a node is visited if its route
is the beginning of that one.
-/

namespace Lexicon

universe u

/-- How a decision goes on behind a node. -/
inductive Turn where
  /-- Past a guard. -/
  | pass (check : LengthCheck)
  /-- Past a run. -/
  | spelled (tests : List CharTest)
  /-- Into the case for a character, which stands at `position` among the cases of a branch. -/
  | choose (offset position : Nat) (char : Char)
deriving DecidableEq

namespace Turn

/-- The characters that are read on the turn. -/
def chars : Turn → List Char
  | pass _ => []
  | spelled tests => tests.map CharTest.char
  | choose _ _ c => [c]

/-- Whether the turn leaves inputs of a length: guards say so themselves, and a case is for inputs
that do not end at its branch. -/
def admits (turn : Turn) (length : Nat) : Bool :=
  match turn with
  | pass check => check.admits length
  | spelled _ => true
  | choose offset _ _ => offset < length

end Turn

/-- Turns, one after the other. -/
abbrev Route := List Turn

namespace Route

/-- The characters that are read along the route. -/
def chars (route : Route) : List Char := route.flatMap Turn.chars

/-- The lengths of input that all turns leave. -/
def lengths (route : Route) : Set Nat := {length | ∀ turn ∈ route, turn.admits length}

@[simp] theorem chars_nil : chars [] = [] := rfl

@[simp] theorem chars_cons (turn : Turn) (route : Route) :
    chars (turn :: route) = turn.chars ++ route.chars := rfl

theorem mem_lengths_nil (length : Nat) : length ∈ lengths [] :=
  fun _ h => absurd h List.not_mem_nil

theorem mem_lengths_cons {turn : Turn} {route : Route} {length : Nat} :
    length ∈ lengths (turn :: route) ↔ turn.admits length ∧ length ∈ route.lengths :=
  List.forall_mem_cons

end Route

namespace Decision

variable {V : Type u}

/-! ### Nodes and their routes -/

/-- Behind its first node the decision goes on with `next`. -/
inductive Turns : Decision V → Turn → Decision V → Prop
  | pass {check : LengthCheck} {next : Decision V} : Turns (guard check next) (.pass check) next
  | spelled {tests : List CharTest} {next : Decision V} :
      Turns (spell tests next) (.spelled tests) next
  | choose {offset position : Nat} {onEnd : Option V} {cases : List (Char × Decision V)} {c : Char}
      {next : Decision V} (case_eq : cases[position]? = some (c, next)) :
      Turns (dispatch offset onEnd cases) (.choose offset position c) next

/-- The route leads to the node with which `part` begins. -/
inductive LeadsTo : Decision V → Route → Decision V → Prop
  | here (d : Decision V) : LeadsTo d [] d
  | onward {d next part : Decision V} {turn : Turn} {route : Route} (turns : d.Turns turn next)
      (leadsTo : next.LeadsTo route part) : LeadsTo d (turn :: route) part

/-- What is behind a turn is determined by the turn. -/
theorem Turns.eq {d next next' : Decision V} {turn : Turn} (h : d.Turns turn next)
    (h' : d.Turns turn next') : next = next' := by
  cases h with
  | pass => cases h'; rfl
  | spelled => cases h'; rfl
  | choose hcase =>
    cases h' with
    | choose hcase' => simpa [hcase] using hcase'

/-- A route leads to one node. -/
theorem LeadsTo.eq {d part part' : Decision V} {route : Route} (h : d.LeadsTo route part)
    (h' : d.LeadsTo route part') : part = part' := by
  induction h with
  | here => cases h'; rfl
  | onward hturn _ ih =>
    obtain _ | ⟨hturn', hrest'⟩ := h'
    rw [hturn.eq hturn'] at ih
    exact ih hrest'

/-! ### The route of an input -/

mutual

/-- The route of an input of the given length whose unread part is at the cursor. It ends where the
evaluation does, with a payload or a miss. -/
def routeFrom (fold : CaseFold) (length : Nat) : Decision V → Cursor → Route
  | guard check next, cursor =>
    if check.admits length then .pass check :: next.routeFrom fold length cursor else []
  | spell tests next, cursor =>
    match cursor.passAll fold tests with
    | none => []
    | some cursor => .spelled tests :: next.routeFrom fold length cursor
  | dispatch offset _ cases, cursor =>
    if length = offset then []
    else
      match cursor.read offset with
      | none => []
      | some (c, cursor) =>
        match casePosition? cases (fold.apply c) with
        | none => []
        | some i => .choose offset i (fold.apply c) :: routeFromCase fold length cases i cursor
  | accept _, _ => []
  | miss, _ => []

/-- The route behind the turn into the case at a position. -/
def routeFromCase (fold : CaseFold) (length : Nat) :
    List (Char × Decision V) → Nat → Cursor → Route
  | [], _, _ => []
  | (_, d) :: _, 0, cursor => d.routeFrom fold length cursor
  | _ :: rest, i + 1, cursor => routeFromCase fold length rest i cursor

end

theorem routeFromCase_eq {fold : CaseFold} {length : Nat} {cases : List (Char × Decision V)}
    {i : Nat} {entry : Char × Decision V} (h : cases[i]? = some entry) (cursor : Cursor) :
    routeFromCase fold length cases i cursor = entry.2.routeFrom fold length cursor := by
  induction cases generalizing i with
  | nil => simp at h
  | cons first rest ih =>
    cases i with
    | zero =>
      obtain rfl := Option.some.inj h
      rfl
    | succ i => exact ih h

/-- The route that the evaluation of the decision takes for an input. -/
def route {α : Type} [Subject α] (d : Decision V) (fold : CaseFold) (input : α) : Route :=
  d.routeFrom fold (Subject.length input) (.start (Subject.chars input))

end Decision

end Lexicon
