import Lexicon.Decision.Paths
import Lexicon.Proofs.Source.Reading
import Lexicon.Source.Lowering

/-!
# Emitted source is a program

What is emitted for a decision defines the names that its body refers to (`isScoped_toFunction`),
because the statistics that decide about the definitions count the nodes that need them. Where no
run is empty no condition is. So the source is read as the function that the decision was lowered
to (`read_emitSource`).
-/

namespace Lexicon

open Source

universe u

variable {V : Type u}

/-! ### Names -/

theorem Source.Block.isScopedArms_eq_all (scope : Scope) (arms : List (Char × Block)) :
    isScopedArms scope arms = arms.all (·.2.isScoped scope) := by
  induction arms with
  | nil => rfl
  | cons arm rest ih => rw [isScopedArms, ih, List.all_cons]

namespace Decision

/-- The heads of a case are among those of its branch. -/
theorem mem_heads_dispatch {offset : Nat} {onEnd : Option V} {cases : List (Char × Decision V)}
    {entry : Char × Decision V} (hentry : entry ∈ cases) {head : Head V}
    (hhead : head ∈ entry.2.heads) : head ∈ (dispatch offset onEnd cases).heads := by
  rw [heads_dispatch]
  exact List.mem_cons_of_mem _ (List.mem_flatMap.2 ⟨entry, hentry, hhead⟩)

/-- A character can be read where the input is defined, and `fold` if it is to be folded. -/
private theorem isScoped_charRead {fold : CaseFold} {scope : Scope} (hinput : scope.input)
    (hfold : !fold.isOrdinal → scope.fold) (offset : Nat) :
    (⟨offset, !fold.isOrdinal⟩ : CharRead).isScoped scope := by
  rw [CharRead.isScoped, hinput, Bool.true_and]
  cases h : fold.isOrdinal with
  | false => simp [hfold (by simp [h])]
  | true => rfl

/-- The block of a decision refers to the input where the decision reads it, to `fold` if that is
done folded, and to the length where the decision asks for it. -/
theorem isScoped_toBlock {fold : CaseFold} {render : V → String} {scope : Scope} {d : Decision V}
    (hinput : d.readsInput → scope.input ∧ (!fold.isOrdinal → scope.fold))
    (hlength : d.readsLength → scope.length) : (d.toBlock fold render).isScoped scope := by
  induction d using Decision.induction with
  | guard check next ih =>
    have hlen : scope.length := hlength (readsLength_guard check next)
    have hfailure : check.failure.all (·.isScoped scope) := by
      cases check <;> simp [LengthCheck.failure, Source.Test.isScoped, hlen]
    rw [toBlock, Block.isScoped, hfailure, Bool.true_and]
    exact ih (fun h => hinput ((readsInput_guard check next).2 h)) fun _ => hlen
  | spell tests next ih =>
    obtain ⟨hin, hfold⟩ := hinput (readsInput_spell tests next)
    have hfailure : (tests.map (CharTest.failure fold)).all (·.isScoped scope) := by
      rw [List.all_map, List.all_eq_true]
      exact fun test _ => isScoped_charRead hin hfold test.offset
    rw [toBlock, Block.isScoped, hfailure, Bool.true_and]
    exact ih (fun _ => ⟨hin, hfold⟩) fun h => hlength ((readsLength_spell tests next).2 h)
  | dispatch offset onEnd cases ih =>
    have hasks := readsLength_dispatch offset onEnd cases
    -- a branch reads the input itself, so its cases may
    obtain ⟨hin, hfold⟩ := hinput (readsInput_dispatch offset onEnd cases)
    have hread := isScoped_charRead hin hfold offset
    have harms : Block.isScopedArms scope (armsOfCases fold render cases) := by
      rw [Block.isScopedArms_eq_all, armsOfCases_eq_map, List.all_map, List.all_eq_true]
      intro entry hentry
      exact ih entry hentry (fun _ => ⟨hin, hfold⟩)
        fun h => hlength (hasks.2 (.inr ⟨entry, hentry, h⟩))
    have hchoice : (Block.select ⟨offset, !fold.isOrdinal⟩
        (armsOfCases fold render cases)).isScoped scope := by
      rw [Block.isScoped, hread, harms]
      rfl
    cases onEnd with
    | none => exact hchoice
    | some payload =>
      have hlen : scope.length := hlength (hasks.2 (.inl rfl))
      simp only [toBlock, Block.isScoped, List.all_cons, List.all_nil, Source.Test.isScoped, hlen,
        Bool.true_and]
      exact hchoice
  | accept payload => rfl
  | miss => rfl

theorem isScoped_toFunction (signature : Signature) (render : V → String) (d : Decision V) :
    (d.toFunction signature render).isScoped := by
  have hbody : (d.toBlock signature.fold render).isScoped
      (d.toFunction signature render).scope := by
    refine isScoped_toBlock (fun h => ⟨?_, fun hfold => ?_⟩) fun h => h
    · simp [toFunction, h]
    · simp [toFunction, h, hfold]
  have hlength : (!(d.toFunction signature render).scope.length ||
      (d.toFunction signature render).scope.input) = true := by
    cases h : d.readsLength <;> simp [toFunction, h]
  rw [Function.isScoped, hlength, Bool.true_and]
  exact hbody

/-! ### Conditions -/

/-- A decision without empty runs is lowered to a block without empty conditions. -/
theorem hasTests_toBlock {fold : CaseFold} {render : V → String} {d : Decision V}
    (h : ∀ tests, .spell tests ∈ d.heads → tests ≠ []) : (d.toBlock fold render).HasTests := by
  induction d using Decision.induction with
  | guard check next ih =>
    refine .exitIf ?_ (ih fun tests htests => h tests (by simp [htests]))
    cases check <;> simp [LengthCheck.failure]
  | spell tests next ih =>
    refine .exitIf ?_ (ih fun tests htests => h tests (by simp [htests]))
    simpa using h tests (by simp)
  | dispatch offset onEnd cases ih =>
    have hchoice : (Block.select ⟨offset, !fold.isOrdinal⟩
        (armsOfCases fold render cases)).HasTests := by
      refine .select fun arm harm => ?_
      rw [armsOfCases_eq_map] at harm
      obtain ⟨entry, hentry, rfl⟩ := List.mem_map.1 harm
      exact ih entry hentry fun tests htests => h tests (mem_heads_dispatch hentry htests)
    cases onEnd with
    | none => exact hchoice
    | some payload => exact .exitIf (by simp) hchoice
  | accept payload => exact .result _
  | miss => exact .result _

/-- The source that is emitted for a decision is read as the function it was lowered to. -/
theorem read_emitSource {d : Decision V} (h : ∀ tests, .spell tests ∈ d.heads → tests ≠ [])
    (signature : Signature) (render : V → String) :
    Source.read (d.emitSource signature render) = some (d.toFunction signature render) :=
  read_source (hasTests_toBlock h) (isScoped_toFunction signature render d)

end Decision

end Lexicon
