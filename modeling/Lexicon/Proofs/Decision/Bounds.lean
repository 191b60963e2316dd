import Lexicon.Proofs.Decision.Steps

/-!
# Decisions that stay within the input

`InBounds length d` is a property of the decision alone: an evaluation on an input of the given
length that comes to a run finds all its offsets in the input, and one that comes to a branch finds
its offset there or the input at its end, with a payload for that.

It says nothing of how the evaluation gets there, and every step keeps it (`Step.inBounds`), so it
holds wherever an evaluation arrives (`Arrives.inBounds`).
-/

namespace Lexicon.Decision

universe u

variable {V : Type u}

/-- On an input of the length no offset that is come to lies beyond the end. -/
inductive InBounds (length : Nat) : Decision V → Prop
  | guard {check : LengthCheck} {next : Decision V}
      (inBounds : check.admits length → InBounds length next) : InBounds length (guard check next)
  | spell {tests : List CharTest} {next : Decision V}
      (offset_lt : ∀ test ∈ tests, test.offset < length) (inBounds : InBounds length next) :
      InBounds length (spell tests next)
  | ends {offset : Nat} {onEnd : Option V} {cases : List (Char × Decision V)}
      (length_eq : length = offset) (isSome : onEnd.isSome) :
      InBounds length (dispatch offset onEnd cases)
  | goesOn {offset : Nat} {onEnd : Option V} {cases : List (Char × Decision V)}
      (offset_lt : offset < length) (inBounds : ∀ entry ∈ cases, InBounds length entry.2) :
      InBounds length (dispatch offset onEnd cases)
  | accept (payload : V) : InBounds length (accept payload)
  | miss : InBounds length miss

variable {length : Nat}

theorem inBounds_guarded {check : Option LengthCheck} {next : Decision V}
    (h : LengthCheck.admitsAll check length → InBounds length next) :
    InBounds length (guarded check next) := by
  cases check with
  | none => exact h rfl
  | some check => exact .guard h

theorem inBounds_ofPayload (payload : Option V) : InBounds length (ofPayload payload) := by
  cases payload with
  | none => exact .miss
  | some v => exact .accept v

theorem Step.inBounds {fold : CaseFold} {s t : Place V} (h : Step fold length s t)
    (hs : InBounds length s.1) : InBounds length t.1 := by
  cases h with
  | guard hadmits =>
    obtain ⟨hnext⟩ := hs
    exact hnext hadmits
  | test =>
    rcases hs with _ | ⟨htests, hnext⟩
    exact .spell (fun test htest => htests test (List.mem_cons_of_mem _ htest)) hnext
  | spelled =>
    rcases hs with _ | ⟨-, hnext⟩
    exact hnext
  | choose hne _ hcase =>
    rcases hs with _ | _ | ⟨hlen, -⟩ | ⟨-, hcases⟩
    · exact absurd hlen hne
    · obtain ⟨entry, hentry, rfl⟩ := exists_mem_of_case?_eq_some hcase
      exact hcases entry hentry

theorem Arrives.inBounds {α : Type} [Subject α] {d : Decision V} {fold : CaseFold} {input : α}
    (hd : InBounds (Subject.length input) d) {place : Place V} (h : d.Arrives fold input place) :
    InBounds (Subject.length input) place.1 :=
  h.invariant hd fun _ _ hstep hs => hstep.inBounds hs

/-! ### What is read -/

theorem InBounds.offset_lt_of_spell {tests : List CharTest} {next : Decision V}
    (h : InBounds length (Decision.spell tests next)) : ∀ test ∈ tests, test.offset < length := by
  rcases h with _ | ⟨htests, -⟩
  exact htests

theorem InBounds.offset_lt_or_of_dispatch {offset : Nat} {onEnd : Option V}
    {cases : List (Char × Decision V)} (h : InBounds length (dispatch offset onEnd cases)) :
    offset < length ∨ length = offset ∧ onEnd.isSome := by
  rcases h with _ | _ | ⟨hlen, hend⟩ | ⟨hlt, -⟩
  · exact .inr ⟨hlen, hend⟩
  · exact .inl hlt

/-- What is read next lies within the input. -/
theorem InBounds.nextOffset?_lt {d : Decision V} (h : InBounds length d) {offset : Nat}
    (hnext : d.nextOffset? length = some offset) : offset < length := by
  cases h with
  | @spell tests next htests hinner =>
    cases tests with
    | nil => simp [nextOffset?] at hnext
    | cons test tests =>
      obtain rfl := Option.some.inj hnext
      exact htests test List.mem_cons_self
  | ends hlen => simp [nextOffset?, hlen] at hnext
  | goesOn hlt =>
    rw [nextOffset?, if_neg (Nat.ne_of_gt hlt)] at hnext
    obtain rfl := Option.some.inj hnext
    exact hlt
  | _ => simp [nextOffset?] at hnext

end Lexicon.Decision
