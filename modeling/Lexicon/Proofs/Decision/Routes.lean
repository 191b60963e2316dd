import Lexicon.Decision.Routes
import Lexicon.Proofs.Decision.Steps

/-!
# The end of a route

The route of an input leads to the node that answers the evaluation (`exists_leadsTo_route`), past
nodes to all of which the evaluation comes step by step (`exists_arrives`).
-/

namespace Lexicon.Decision

universe u

variable {V : Type u} {fold : CaseFold} {length : Nat}

/-- The case of a character that a branch reads is the next turn. -/
theorem routeFrom_dispatch {offset : Nat} {onEnd : Option V} {cases : List (Char × Decision V)}
    (hne : length ≠ offset) {cursor : Cursor} {read : Char × Cursor}
    (hread : cursor.read offset = some read) {i : Nat} {next : Decision V}
    (hposition : casePosition? cases (fold.apply read.1) = some i)
    (hcase : cases[i]? = some (fold.apply read.1, next)) :
    (dispatch offset onEnd cases).routeFrom fold length cursor =
      .choose offset i (fold.apply read.1) :: next.routeFrom fold length read.2 := by
  rw [routeFrom, if_neg hne, hread]
  dsimp only
  rw [hposition]
  dsimp only
  rw [routeFromCase_eq hcase]

/-- **The route ends where the evaluation does**: it leads to a node, and what that node answers is
the result. -/
theorem exists_leadsTo_routeFrom (d : Decision V) (cursor : Cursor) :
    ∃ part, d.LeadsTo (d.routeFrom fold length cursor) part ∧
      d.run fold length cursor = part.answer? length := by
  induction d using Decision.induction generalizing cursor with
  | guard check next ih =>
    rw [routeFrom, run]
    by_cases hadmits : check.admits length
    · obtain ⟨part, hleads, hanswer⟩ := ih cursor
      rw [if_pos hadmits, if_pos hadmits]
      exact ⟨part, .onward .pass hleads, hanswer⟩
    · rw [if_neg hadmits, if_neg hadmits]
      exact ⟨_, .here _, rfl⟩
  | spell tests next ih =>
    rw [routeFrom, run]
    cases cursor.passAll fold tests with
    | none => exact ⟨_, .here _, rfl⟩
    | some behind =>
      obtain ⟨part, hleads, hanswer⟩ := ih behind
      exact ⟨part, .onward .spelled hleads, hanswer⟩
  | dispatch offset onEnd cases ih =>
    -- a branch where the input ends, or that finds no case, is the last node
    have hstays : ∀ result, (if length = offset then onEnd else none) = result →
        ∃ part, (dispatch offset onEnd cases).LeadsTo [] part ∧ result = part.answer? length :=
      fun result h => ⟨_, .here _, h.symm⟩
    rw [routeFrom, run]
    by_cases hlen : length = offset
    · rw [if_pos hlen, if_pos hlen]
      exact hstays _ (if_pos hlen)
    · rw [if_neg hlen, if_neg hlen]
      cases cursor.read offset with
      | none => exact hstays _ (if_neg hlen)
      | some read =>
        dsimp only
        cases hposition : casePosition? cases (fold.apply read.1) with
        | none => exact hstays _ (if_neg hlen)
        | some i =>
          have hkey := Bisection.getElem?_position? hposition
          rw [List.getElem?_map, Option.map_eq_some_iff] at hkey
          obtain ⟨⟨c, next⟩, hcase, rfl⟩ := hkey
          obtain ⟨part, hleads, hanswer⟩ := ih _ (List.mem_of_getElem? hcase) read.2
          dsimp only
          rw [routeFromCase_eq hcase, runCase_eq, hcase]
          exact ⟨part, .onward (.choose hcase) hleads, hanswer⟩
  | accept payload => exact ⟨_, .here _, rfl⟩
  | miss => exact ⟨_, .here _, rfl⟩

theorem exists_leadsTo_route {α : Type} [Subject α] (d : Decision V) (fold : CaseFold)
    (input : α) : ∃ part, d.LeadsTo (d.route fold input) part ∧
      d.eval fold input = part.answer? (Subject.length input) :=
  d.exists_leadsTo_routeFrom (.start (Subject.chars input))

/-! ### Routes and steps -/

/-- A run whose tests all pass is passed test by test. -/
private theorem steps_spell {tests : List CharTest} {next : Decision V} {cursor behind : Cursor}
    (h : cursor.passAll fold tests = some behind) :
    Relation.ReflTransGen (Step fold length) (spell tests next, cursor) (next, behind) := by
  induction tests generalizing cursor with
  | nil =>
    obtain rfl := Option.some.inj h
    exact .single .spelled
  | cons test tests ih =>
    rw [Cursor.passAll] at h
    cases hread : cursor.read test.offset with
    | none => simp [hread] at h
    | some read =>
      rw [hread] at h
      dsimp only at h
      split at h
      · rename_i hpasses
        exact .head (.test hread hpasses) (ih h)
      · simp at h

/-- The nodes on the route of an input are those to which its evaluation comes. -/
theorem steps_of_prefix_routeFrom {d part : Decision V} {route : Route} {cursor : Cursor}
    (hleads : d.LeadsTo route part) (hbegins : route <+: d.routeFrom fold length cursor) :
    ∃ behind, Relation.ReflTransGen (Step fold length) (d, cursor) (part, behind) := by
  induction hleads generalizing cursor with
  | here => exact ⟨cursor, .refl⟩
  | @onward d next part turn route hturn _ ih =>
    cases hturn with
    | pass =>
      rw [routeFrom] at hbegins
      split at hbegins
      · rename_i hadmits
        obtain ⟨behind, hsteps⟩ := ih (List.cons_prefix_cons.1 hbegins).2
        exact ⟨behind, .head (.guard hadmits) hsteps⟩
      · simp at hbegins
    | @spelled tests =>
      rw [routeFrom] at hbegins
      cases hpass : cursor.passAll fold tests with
      | none => simp [hpass] at hbegins
      | some passed =>
        rw [hpass] at hbegins
        obtain ⟨behind, hsteps⟩ := ih (List.cons_prefix_cons.1 hbegins).2
        exact ⟨behind, (steps_spell hpass).trans hsteps⟩
    | @choose offset i onEnd cases c _ hcase =>
      rw [routeFrom] at hbegins
      split at hbegins
      · simp at hbegins
      · rename_i hne
        cases hread : cursor.read offset with
        | none => simp [hread] at hbegins
        | some read =>
          rw [hread] at hbegins
          dsimp only at hbegins
          cases hposition : casePosition? cases (fold.apply read.1) with
          | none => simp [hposition] at hbegins
          | some j =>
            rw [hposition] at hbegins
            obtain ⟨heq, hrest⟩ := List.cons_prefix_cons.1 hbegins
            obtain ⟨-, rfl, rfl⟩ := Turn.choose.inj heq
            rw [routeFromCase_eq hcase] at hrest
            have hfound : (dispatch offset onEnd cases).case? (fold.apply read.1) = some next := by
              rw [case?, hposition, Option.bind_some, hcase, Option.map_some]
            obtain ⟨behind, hsteps⟩ := ih hrest
            exact ⟨behind, .head (.choose hne hread hfound) hsteps⟩

/-- An evaluation arrives at every node on the route of its input. -/
theorem exists_arrives {α : Type} [Subject α] {d part : Decision V} {route : Route} {input : α}
    (hleads : d.LeadsTo route part) (hbegins : route <+: d.route fold input) :
    ∃ cursor, d.Arrives fold input (part, cursor) :=
  steps_of_prefix_routeFrom hleads hbegins

/-! ### Answers -/

/-- A node that answers is a return, or a branch at the end of the input that has a payload for
it. -/
theorem eq_of_answer?_eq_some {d : Decision V} {payload : V}
    (h : d.answer? length = some payload) :
    d = .accept payload ∨ ∃ cases, d = .dispatch length (some payload) cases := by
  cases d with
  | dispatch offset onEnd cases =>
    rw [answer?] at h
    split at h
    · rename_i hlength
      exact .inr ⟨cases, by rw [hlength, h]⟩
    · simp at h
  | accept v => exact .inl (congrArg accept (Option.some.inj h))
  | _ => simp [answer?] at h

end Lexicon.Decision
