import Lexicon.Proofs.Decision.Cursor
import Lexicon.Proofs.Decision.Forward
import Lexicon.Proofs.Source.Lowering
import Lexicon.Source.Run

/-!
# Emitted source and evaluation agree

The function that a decision is emitted as reads the input at any offset, the evaluation through a
cursor that only goes forward. On a decision that reads forward the cursor stands, wherever a block
is entered, at or before all that is still to be read, so both see the same characters
(`agrees_toBlock`). They differ only where the input ends: there the function may panic, and the
evaluation finds nothing.
-/

namespace Lexicon

open Source

universe u

variable {V : Type u}

/-- What a run of source code says about an answer: a value is the answer, and a panic happens only
where there is none. -/
def Source.Outcome.Agrees : Outcome → Value → Prop
  | .panic, answer => answer = none
  | .value result, answer => result = answer

/-! ### Expressions -/

/-- The `fold` of the source folds as the fold does. -/
theorem Source.CharRead.run_eq (fold : CaseFold) (cs : List Char) (offset : Nat) :
    (⟨offset, !fold.isOrdinal⟩ : CharRead).run cs = cs[offset]?.map fold.apply := by
  cases fold with
  | ordinal => rfl
  | ignoreCase =>
    have happly : CaseFold.ignoreCase.apply = Text.simpleUppercase :=
      funext CaseFold.apply_ignoreCase
    rw [happly]
    rfl

/-- The condition in front of an exit holds of the lengths that the check rejects. -/
theorem LengthCheck.run_failure (check : LengthCheck) (cs : List Char) :
    Condition.run cs check.failure = some (!check.admits cs.length) := by
  have hsingle : ∀ comparison n, Condition.run cs [.length comparison n] =
      some (comparison.holds cs.length n) := by
    intro comparison n
    rw [Condition.run, Test.run]
    cases comparison.holds cs.length n <;> rfl
  cases check with
  | exact n => simp [failure, hsingle, Comparison.holds, admits]
  | min n => simp [failure, hsingle, Comparison.holds, admits, ← decide_not]
  | max n => simp [failure, hsingle, Comparison.holds, admits, ← decide_not]
  | range lo hi =>
    rw [failure, Condition.run, Test.run, hsingle]
    by_cases hlo : cs.length < lo
    · simp [Comparison.holds, admits, hlo]
    · simp [Comparison.holds, admits, hlo, Nat.not_lt.1 hlo, ← decide_not]

namespace Source.Block

/-- A conditional exit tries its first alternative, then the others. -/
theorem run_exitIf_cons (cs : List Char) (test : Test) (rest : Condition) (value : Value)
    (next : Block) :
    (exitIf (test :: rest) value next).run cs =
      match test.run cs with
      | none => .panic
      | some true => .value value
      | some false => (exitIf rest value next).run cs := by
  rw [run, Condition.run]
  rcases test.run cs with _ | _ | _
  · rfl
  · rw [run]
  · rfl

/-- Among arms that differ in their characters the one for a character is found. -/
theorem runArms_of_mem {cs : List Char} {arms : List (Char × Block)}
    (hasc : (arms.map Prod.fst).Pairwise (· < ·)) {c : Char} {block : Block}
    (hmem : (c, block) ∈ arms) : runArms cs c arms = block.run cs := by
  induction arms with
  | nil => simp at hmem
  | cons arm rest ih =>
    obtain ⟨key, first⟩ := arm
    rw [List.map_cons, List.pairwise_cons] at hasc
    rw [runArms]
    rcases List.mem_cons.1 hmem with heq | hmem
    · obtain ⟨rfl, rfl⟩ := Prod.mk.inj heq
      rw [if_pos rfl]
    · have hlt : key < c := hasc.1 c (List.mem_map.2 ⟨(c, block), hmem, rfl⟩)
      rw [if_neg (Char.ne_of_lt hlt).symm]
      exact ih hasc.2 hmem

theorem runArms_of_notMem {cs : List Char} {arms : List (Char × Block)} {c : Char}
    (h : c ∉ arms.map Prod.fst) : runArms cs c arms = .value none := by
  induction arms with
  | nil => rfl
  | cons arm rest ih =>
    obtain ⟨key, first⟩ := arm
    rw [List.map_cons, List.mem_cons, not_or] at h
    rw [runArms, if_neg h.1]
    exact ih h.2

end Source.Block

/-! ### Decisions -/

namespace Decision

variable {fold : CaseFold} {render : V → String} {cs : List Char}

/-- A branch and its match agree if the cases and their blocks do. -/
private theorem agrees_select {position offset : Nat} (hle : position ≤ offset) {onEnd : Option V}
    {cases : List (Char × Decision V)} (hasc : (cases.map Prod.fst).Pairwise (· < ·))
    (h : ∀ entry ∈ cases, ((entry.2.toBlock fold render).run cs).Agrees
      ((entry.2.run fold cs.length (cursorAt cs (offset + 1))).map render))
    (hend : cs.length = offset → onEnd = none) :
    ((Block.select ⟨offset, !fold.isOrdinal⟩ (armsOfCases fold render cases)).run cs).Agrees
      (((dispatch offset onEnd cases).run fold cs.length (cursorAt cs position)).map render) := by
  have hkeys : (armsOfCases fold render cases).map Prod.fst = cases.map Prod.fst := by
    rw [armsOfCases_eq_map, List.map_map]
    rfl
  rw [Block.run, CharRead.run_eq, run_dispatch, read_cursorAt hle]
  cases hread : cs[offset]? with
  | none =>
    -- the match panics; the evaluation has nothing at the end and reads nothing beyond it
    by_cases hlen : cs.length = offset
    · rw [if_pos hlen, hend hlen]
      exact rfl
    · rw [if_neg hlen]
      exact rfl
  | some c =>
    have hlt : offset < cs.length := (List.getElem?_eq_some_iff.1 hread).1
    rw [if_neg (Nat.ne_of_gt hlt)]
    dsimp only [Option.map_some, Option.bind_some]
    by_cases hcase : fold.apply c ∈ cases.map Prod.fst
    · obtain ⟨entry, hentry, hc⟩ := List.mem_map.1 hcase
      have harm : (fold.apply c, entry.2.toBlock fold render) ∈ armsOfCases fold render cases := by
        rw [armsOfCases_eq_map, ← hc]
        exact List.mem_map.2 ⟨entry, hentry, rfl⟩
      have hfound : (dispatch offset onEnd cases).case? (fold.apply c) = some entry.2 :=
        (case?_dispatch_eq_some_iff hasc).2 (hc ▸ hentry)
      rw [Block.runArms_of_mem (hkeys ▸ hasc) harm, hfound]
      exact h entry hentry
    · have hmissing : (dispatch offset onEnd cases).case? (fold.apply c) = none := by
        rw [Option.eq_none_iff_forall_ne_some]
        intro d hd
        exact hcase (List.mem_map.2 ⟨_, (case?_dispatch_eq_some_iff hasc).1 hd, rfl⟩)
      rw [Block.runArms_of_notMem (hkeys ▸ hcase), hmissing]
      exact rfl

theorem agrees_toBlock {position : Nat} {d : Decision V} (h : ReadsFrom position d)
    (hasc : ∀ offset onEnd chars, .dispatch offset onEnd chars ∈ d.heads →
      chars.Pairwise (· < ·)) :
    ((d.toBlock fold render).run cs).Agrees
      ((d.run fold cs.length (cursorAt cs position)).map render) := by
  induction h with
  | @guard position check next _ ih =>
    rw [toBlock, Block.run, LengthCheck.run_failure, run]
    cases check.admits cs.length with
    | true => exact ih fun offset onEnd chars hmem => hasc offset onEnd chars (by simp [hmem])
    | false => exact rfl
  | @spell_nil position next _ ih =>
    rw [toBlock, List.map_nil, Block.run, Condition.run, run_spell_nil]
    exact ih fun offset onEnd chars hmem => hasc offset onEnd chars (by simp [hmem])
  | @spell_cons position test tests next hle _ ih =>
    have htests := ih fun offset onEnd chars hmem => hasc offset onEnd chars (by simpa using hmem)
    rw [toBlock, List.map_cons, Block.run_exitIf_cons, CharTest.failure, Source.Test.run,
      CharRead.run_eq, run_spell_cons, read_cursorAt hle]
    cases cs[test.offset]? with
    | none => exact rfl
    | some c =>
      -- both look at the folded character: the one leaves where the other misses
      dsimp only [Option.map_some, Option.bind_some]
      by_cases hc : fold.apply c = test.char
      · simpa [hc, toBlock] using htests
      · have hne : (fold.apply c != test.char) = true := by simpa using hc
        rw [hne, if_neg hc]
        exact rfl
  | @dispatch position offset onEnd cases hle _ ih =>
    have hcases : ∀ entry ∈ cases, ((entry.2.toBlock fold render).run cs).Agrees
        ((entry.2.run fold cs.length (cursorAt cs (offset + 1))).map render) := by
      intro entry hentry
      exact ih entry hentry fun o e chars hmem => hasc o e chars (mem_heads_dispatch hentry hmem)
    have hkeys : (cases.map Prod.fst).Pairwise (· < ·) :=
      hasc offset onEnd _ (by rw [heads_dispatch]; exact List.mem_cons_self)
    -- the length is compared only where a payload is at stake
    cases onEnd with
    | none => exact agrees_select hle hkeys hcases fun _ => rfl
    | some payload =>
      rw [toBlock, Block.run_exitIf_cons, Source.Test.run, Comparison.holds]
      by_cases hlen : cs.length = offset
      · rw [decide_eq_true hlen, run, if_pos hlen]
        exact rfl
      · rw [decide_eq_false hlen]
        exact agrees_select hle hkeys hcases fun h => absurd h hlen
  | accept => exact rfl
  | miss => exact rfl

end Decision

/-- **Emitted source and evaluation agree.** The text that is emitted for a well-formed decision
consists of pieces, some of them written by the emission and some of them, such as the payload
expressions, given to it. Read as a program that takes the given pieces as they are, it is a
function. Run on any characters, the function either returns exactly what evaluation under the same
fold finds, as the expression for it, or panics on an input for which evaluation finds nothing. -/
theorem emitted_agrees {d : Decision V} (h : d.WellFormed) (signature : Signature)
    (render : V → String) :
    ((d.emit signature render).toList = (d.emitSource signature render).flatMap fun
        | .written text => text.toList
        | .given text => text.toList) ∧
      ∃ f, Source.read (d.emitSource signature render) = some f ∧ ∀ cs : List Char,
        (∀ result, f.run cs = .value result → result = (d.eval signature.fold cs).map render) ∧
          (f.run cs = .panic → d.eval signature.fold cs = none) := by
  refine ⟨toList_textOf _, _, Decision.read_emitSource h.tests_ne_nil signature render,
    fun cs => ?_⟩
  have hagrees : ((d.toFunction signature render).run cs).Agrees
      ((d.eval signature.fold cs).map render) :=
    Decision.agrees_toBlock h.readsFrom_zero h.chars_ascending
  constructor
  · intro result hresult
    rw [hresult] at hagrees
    exact hagrees
  · intro hpanic
    rw [hpanic] at hagrees
    exact Option.map_eq_none_iff.1 hagrees

/-- A decision that leaves characters unread, folds, and tests for a quote. -/
theorem emitted_agrees_gap :
    let d : Decision Nat :=
      .dispatch 1 (some 7) [('\x27', .spell [⟨3, 'B'⟩] (.accept 1)), ('A', .miss)]
    let signature := Signature.withFold (.new "find" "u8") .ignoreCase
    d.WellFormed ∧
      d.emit signature toString = "\n".intercalate [
        "fn find(s: &[char]) -> Option<u8> \x7b",
        "    let fold = |c: char| -> char \x7b",
        "        let mut upper = c.to_uppercase();",
        "        match (upper.next(), upper.next()) \x7b",
        "            (Some(u), None) => u,",
        "            _ => c,",
        "        \x7d",
        "    \x7d;",
        "    let len = s.len();",
        "    if len == 1 \x7b",
        "        return Some(7);",
        "    \x7d",
        "    match fold(s[1]) \x7b",
        "        '\\'' => \x7b",
        "            if fold(s[3]) != 'B' \x7b",
        "                return None;",
        "            \x7d",
        "            Some(1)",
        "        \x7d",
        "        'A' => \x7b",
        "            None",
        "        \x7d",
        "        _ => None,",
        "    \x7d",
        "\x7d",
        ""] ∧
      ∃ f, Source.read (d.emitSource signature toString) = some f ∧
        (∀ result, f.run ['x', '\x27', 'x', 'b'] = .value result → result = some "1") ∧
          ∀ result, f.run ['x'] = .value result → result = some "7" := by
  intro d signature
  have hwell : d.WellFormed := by
    refine ⟨fun offsets h => ?_, by simp [d], fun offset onEnd chars h => ?_⟩
    · rcases Decision.isPath_dispatch.1 h with rfl | ⟨entry, hentry, rest, hrest, rfl⟩
      · simp
      · rcases List.mem_pair.1 hentry with rfl | rfl
        · obtain ⟨tail, htail, rfl⟩ := Decision.isPath_spell.1 hrest
          simp [Decision.isPath_accept.1 htail]
        · simp [Decision.isPath_miss.1 hrest]
    · obtain rfl : chars = ['\x27', 'A'] := by simp [d] at h; exact h.2.2
      decide
  obtain ⟨htext, f, hread, hrun⟩ := emitted_agrees hwell signature toString
  refine ⟨hwell, String.toList_inj.1 (htext.trans ?_), f, hread, fun result hresult => ?_,
    fun result hresult => ?_⟩
  · rw [String.toList_intercalate]
    decide +kernel
  · rw [(hrun _).1 result hresult]
    decide +kernel
  · rw [(hrun _).1 result hresult]
    decide +kernel

end Lexicon
