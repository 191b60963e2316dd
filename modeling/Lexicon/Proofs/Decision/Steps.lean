import Lexicon.Decision.Steps
import Lexicon.Proofs.Decision.Cursor
import Lexicon.Proofs.Decision.Forward

/-!
# Steps and evaluation

The steps are those of the evaluation: a decision finds a payload for an input exactly if it comes
to a place that answers it (`eval_eq_some_iff`).

A decision that reads forward keeps its cursor behind what it has read (`Aligned`), so that along
the way a character is read exactly if the input has one at that offset.
-/

namespace Lexicon.Decision

universe u

variable {V : Type u} {fold : CaseFold} {length : Nat}

/-! ### Steps are those of the evaluation -/

/-- A step changes nothing about the result. -/
theorem Step.run_eq {s t : Place V} (h : Step fold length s t) :
    s.1.run fold length s.2 = t.1.run fold length t.2 := by
  cases h with
  | guard hadmits => rw [run, if_pos hadmits]
  | test hread hpasses =>
    rw [run_spell_cons, hread, Option.bind_some, if_pos hpasses]
  | spelled => rw [run_spell_nil]
  | choose hne hread hcase =>
    rw [run_dispatch, if_neg hne, hread, Option.bind_some, hcase, Option.bind_some]

theorem run_eq_of_steps {s t : Place V} (h : Relation.ReflTransGen (Step fold length) s t) :
    s.1.run fold length s.2 = t.1.run fold length t.2 := by
  induction h with
  | refl => rfl
  | tail _ hstep ih => rw [ih, hstep.run_eq]

/-- A place that answers ends the evaluation with its answer. -/
theorem run_of_answer? {d : Decision V} {payload : V} (h : d.answer? length = some payload)
    (cursor : Cursor) : d.run fold length cursor = some payload := by
  cases d with
  | dispatch offset onEnd cases =>
    rw [answer?] at h
    split at h
    · rename_i hlen
      rw [run, if_pos hlen, h]
    · simp at h
  | accept v => rw [run, ← h, answer?]
  | _ => simp [answer?] at h

/-- A run of tests that ends with a payload has passed its tests one by one. -/
private theorem exists_steps_spell {next : Decision V} {payload : V}
    (hnext : ∀ cursor, next.run fold length cursor = some payload →
      ∃ place, Relation.ReflTransGen (Step fold length) (next, cursor) place ∧
        place.1.answer? length = some payload)
    (tests : List CharTest) {cursor : Cursor}
    (h : (spell tests next).run fold length cursor = some payload) :
    ∃ place, Relation.ReflTransGen (Step fold length) (spell tests next, cursor) place ∧
      place.1.answer? length = some payload := by
  induction tests generalizing cursor with
  | nil =>
    rw [run_spell_nil] at h
    obtain ⟨place, hsteps, hanswer⟩ := hnext cursor h
    exact ⟨place, .head .spelled hsteps, hanswer⟩
  | cons test tests ih =>
    rw [run_spell_cons, Option.bind_eq_some_iff] at h
    obtain ⟨read, hread, hrest⟩ := h
    split at hrest
    · rename_i hpasses
      obtain ⟨place, hsteps, hanswer⟩ := ih hrest
      exact ⟨place, .head (.test hread hpasses) hsteps, hanswer⟩
    · simp at hrest

/-- A result is reached in steps. -/
theorem exists_steps {d : Decision V} {cursor : Cursor} {payload : V}
    (h : d.run fold length cursor = some payload) :
    ∃ place, Relation.ReflTransGen (Step fold length) (d, cursor) place ∧
      place.1.answer? length = some payload := by
  induction d using Decision.induction generalizing cursor with
  | guard check next ih =>
    rw [run] at h
    split at h
    · rename_i hadmits
      obtain ⟨place, hsteps, hanswer⟩ := ih h
      exact ⟨place, .head (.guard hadmits) hsteps, hanswer⟩
    · simp at h
  | spell tests next ih => exact exists_steps_spell (fun _ => ih) tests h
  | dispatch offset onEnd cases ih =>
    rw [run_dispatch] at h
    split at h
    · rename_i hlen
      exact ⟨_, .refl, by rw [answer?, if_pos hlen, h]⟩
    · rename_i hlen
      obtain ⟨read, hread, hrest⟩ := Option.bind_eq_some_iff.1 h
      obtain ⟨d, hcase, hd⟩ := Option.bind_eq_some_iff.1 hrest
      obtain ⟨entry, hentry, rfl⟩ := exists_mem_of_case?_eq_some hcase
      obtain ⟨place, hsteps, hanswer⟩ := ih entry hentry hd
      exact ⟨place, .head (.choose hlen hread hcase) hsteps, hanswer⟩
  | accept v => exact ⟨_, .refl, by simpa [run, answer?] using h⟩
  | miss => simp [run] at h

/-- **Evaluation goes step by step**: it finds a payload exactly if it arrives where that payload is
the answer. -/
theorem eval_eq_some_iff {α : Type} [Subject α] {d : Decision V} {input : α} {payload : V} :
    d.eval fold input = some payload ↔
      ∃ place, d.Arrives fold input place ∧
        place.1.answer? (Subject.length input) = some payload := by
  constructor
  · exact fun h => exists_steps h
  · rintro ⟨place, harrives, hanswer⟩
    rw [eval, run_eq_of_steps harrives, run_of_answer? hanswer]

/-- What holds at the start and is kept by every step holds wherever the evaluation arrives. -/
theorem Arrives.invariant {α : Type} [Subject α] {d : Decision V} {input : α} {place : Place V}
    (h : d.Arrives fold input place) {p : Place V → Prop}
    (start : p (d, .start (Subject.chars input)))
    (step : ∀ s t, Step fold (Subject.length input) s t → p s → p t) : p place := by
  induction h with
  | refl => exact start
  | tail _ hstep ih => exact step _ _ hstep ih

/-! ### Places of a decision that reads forward -/

/-- The cursor stands in the input where the decision goes on reading, or in front of it. -/
def Aligned (cs : List Char) (place : Place V) : Prop :=
  ∃ position, place.2 = cursorAt cs position ∧ ReadsFrom position place.1

theorem Step.aligned {cs : List Char} {s t : Place V} (h : Step fold length s t)
    (hs : Aligned cs s) : Aligned cs t := by
  obtain ⟨position, hcursor, hreads⟩ := hs
  -- the character read, if there is one, lies at or behind the cursor
  have hbehind : ∀ {offset : Nat} {read : Char × Cursor}, position ≤ offset →
      s.2.read offset = some read → read.2 = cursorAt cs (offset + 1) := by
    intro offset read hle hread
    rw [hcursor, read_cursorAt hle] at hread
    obtain ⟨c, -, rfl⟩ := Option.map_eq_some_iff.1 hread
    rfl
  cases h with
  | guard =>
    rcases hreads with hnext | _
    exact ⟨position, hcursor, hnext⟩
  | test hread =>
    rcases hreads with _ | _ | ⟨hle, hnext⟩
    exact ⟨_, hbehind hle hread, hnext⟩
  | spelled =>
    rcases hreads with _ | hnext
    exact ⟨position, hcursor, hnext⟩
  | choose _ hread hcase =>
    rcases hreads with _ | _ | _ | ⟨hle, hcases⟩
    obtain ⟨entry, hentry, rfl⟩ := exists_mem_of_case?_eq_some hcase
    exact ⟨_, hbehind hle hread, hcases entry hentry⟩

/-- Wherever the evaluation of a well-formed decision comes, it can read on. -/
theorem Arrives.aligned {α : Type} [Subject α] {d : Decision V} (hd : d.WellFormed) {input : α}
    {place : Place V} (h : d.Arrives fold input place) : Aligned (Subject.chars input) place :=
  h.invariant ⟨0, start_eq_cursorAt _, hd.readsFrom_zero⟩ fun _ _ hstep hs => hstep.aligned hs

/-- Where the cursor can read on, the next character is there if the input is long enough. -/
theorem Aligned.isSome_read {cs : List Char} {place : Place V} (h : Aligned cs place) {offset : Nat}
    (hnext : place.1.nextOffset? cs.length = some offset) (hlt : offset < cs.length) :
    (place.2.read offset).isSome := by
  obtain ⟨d, cursor⟩ := place
  obtain ⟨position, rfl, hreads⟩ := h
  have hle : position ≤ offset := by
    cases hreads with
    | spell_cons hle =>
      obtain rfl := Option.some.inj hnext
      exact hle
    | dispatch hle =>
      dsimp only [nextOffset?] at hnext
      split at hnext
      · simp at hnext
      · obtain rfl := Option.some.inj hnext
        exact hle
    | _ => simp [nextOffset?] at hnext
  dsimp only
  rw [read_cursorAt hle, List.getElem?_eq_getElem hlt]
  rfl

/-! ### What is inspected -/

/-- **What an evaluation inspects is the beginning of a path**, in the order of the path. -/
theorem Inspects.exists_isPath {place : Place V} {offsets : List Nat}
    (h : Inspects fold length place offsets) :
    ∃ path, place.1.IsPath path ∧ offsets <+: path := by
  induction h with
  | here place =>
    obtain ⟨path, hpath⟩ := Decision.exists_isPath place.1
    exact ⟨path, hpath, List.nil_prefix⟩
  | @last place offset hnext =>
    obtain ⟨d, cursor⟩ := place
    cases d with
    | spell tests next =>
      cases tests with
      | nil => simp [nextOffset?] at hnext
      | cons test tests =>
        obtain ⟨path, hpath⟩ := Decision.exists_isPath (spell tests next)
        obtain rfl := Option.some.inj hnext
        exact ⟨_, hpath.cons_test test, path, rfl⟩
    | dispatch o onEnd cases =>
      dsimp only [nextOffset?] at hnext
      split at hnext
      · simp at hnext
      · obtain rfl := Option.some.inj hnext
        exact ⟨_, .ends o onEnd cases, List.prefix_refl _⟩
    | _ => simp [nextOffset?] at hnext
  | @onward s t offsets hstep _ ih =>
    obtain ⟨path, hpath, hbegins⟩ := ih
    cases hstep with
    | guard => exact ⟨path, .guard hpath, hbegins⟩
    | @test test => exact ⟨_, hpath.cons_test test, List.cons_prefix_cons.2 ⟨rfl, hbegins⟩⟩
    | spelled => exact ⟨path, .spell hpath, hbegins⟩
    | choose hne _ hcase =>
      obtain ⟨entry, hentry, rfl⟩ := exists_mem_of_case?_eq_some hcase
      dsimp only [nextOffset?]
      rw [if_neg hne]
      exact ⟨_, .goesOn hentry hpath, List.cons_prefix_cons.2 ⟨rfl, hbegins⟩⟩

end Lexicon.Decision
