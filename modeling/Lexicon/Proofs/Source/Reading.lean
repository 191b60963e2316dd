import Lexicon.Proofs.Source.Scanning

/-!
# Functions are read back from their source

The reader takes the tokens of every construct, whatever follows them, and gives the construct back.
So the source of a function is read as that function (`read_source`), provided that no condition is
empty and every name is defined: source text cannot say otherwise.
-/

namespace Lexicon.Source

/-- No condition of the block is empty. -/
inductive Block.HasTests : Block → Prop
  | exitIf {condition : Condition} {value : Value} {next : Block} (ne_nil : condition ≠ [])
      (hasTests : next.HasTests) : (exitIf condition value next).HasTests
  | select {read : CharRead} {arms : List (Char × Block)}
      (hasTests : ∀ arm ∈ arms, arm.2.HasTests) : (select read arms).HasTests
  | result (value : Value) : (result value).HasTests

namespace Reading

/-! ### Expected tokens -/

@[simp] theorem expect_append (expected rest : List Token) :
    expect expected (expected ++ rest) = some rest := by
  induction expected with
  | nil => rfl
  | cons t expected ih => rw [List.cons_append, expect, if_pos rfl, ih]

theorem expect_cons_of_ne {expected t : Token} (h : t ≠ expected) (rest ts : List Token) :
    expect (expected :: rest) (t :: ts) = none := by
  rw [expect, if_neg h]

/-- An optional part is found if it is there, and what follows does not look like it. -/
theorem accept_ite {expected rest : List Token} (h : expect expected rest = none) (b : Bool) :
    accept expected ((if b then expected else []) ++ rest) = (b, rest) := by
  cases b with
  | false => rw [if_neg Bool.false_ne_true, List.nil_append, accept, h]
  | true => rw [if_pos rfl, accept, expect_append]

/-! ### Expressions -/

theorem readCharRead_tokens (read : CharRead) (rest : List Token) :
    readCharRead (read.tokens ++ rest) = some (read, rest) := by
  obtain ⟨offset, _ | _⟩ := read <;> rfl

theorem readValue_tokens (value : Value) (rest : List Token) :
    readValue (value.tokens ++ rest) = some (value, rest) := by
  cases value <;> rfl

theorem readTest_tokens (test : Test) (rest : List Token) :
    readTest (test.tokens ++ rest) = some (test, rest) := by
  cases test with
  | length comparison n => cases comparison <;> rfl
  | differs read c =>
    have haccept : accept [.word "len"] (read.tokens ++ ([.sign "!=", .char c] ++ rest)) =
        (false, read.tokens ++ ([.sign "!=", .char c] ++ rest)) := by
      obtain ⟨offset, _ | _⟩ := read <;> rfl
    rw [readTest, Test.tokens, List.append_assoc, haccept]
    simp only [Bool.false_eq_true, if_false, readCharRead_tokens]
    rfl

private theorem length_le_length_tokens (condition : Condition) :
    condition.length ≤ condition.tokens.length := by
  have htest : ∀ test : Test, 1 ≤ test.tokens.length := by
    rintro (_ | _) <;> simp [Test.tokens]
  induction condition using Condition.tokens.induct with
  | case1 => exact Nat.zero_le _
  | case2 test => exact htest test
  | case3 test rest hne ih =>
    have := htest test
    rw [Condition.tokens]
    · simp only [List.length_append, List.length_cons]
      omega
    · exact hne

/-- A condition is followed by a brace. -/
theorem readCondition_tokens {condition : Condition} (hne : condition ≠ []) {fuel : Nat}
    (hfuel : condition.length ≤ fuel) (rest : List Token) :
    readCondition fuel (condition.tokens ++ .sign "\x7b" :: rest) =
      some (condition, .sign "\x7b" :: rest) := by
  induction condition using Condition.tokens.induct generalizing fuel with
  | case1 => exact absurd rfl hne
  | case2 test =>
    rw [List.length_cons] at hfuel
    obtain ⟨fuel, rfl⟩ := Nat.exists_eq_add_one_of_ne_zero (show fuel ≠ 0 by omega)
    rw [readCondition, Condition.tokens, readTest_tokens]
    rfl
  | case3 test tests hcons ih =>
    -- one alternative is taken, so one less is enough for the others
    rw [List.length_cons] at hfuel
    obtain ⟨fuel, rfl⟩ := Nat.exists_eq_add_one_of_ne_zero (show fuel ≠ 0 by omega)
    have htests := ih (by simpa using hcons) (Nat.le_of_succ_le_succ hfuel)
    rw [readCondition, Condition.tokens, List.append_assoc, readTest_tokens]
    · simp only [List.cons_append, accept, expect, if_true, htests, Option.bind_eq_bind,
        Option.bind_some]
      rfl
    · exact hcons

/-! ### Blocks -/

/-- A block begins with a token that begins no definition. -/
private theorem exists_tokens_eq_cons (block : Block) :
    ∃ t ts, block.tokens = t :: ts ∧ t ≠ .word "let" := by
  rcases block with _ | _ | (_ | _)
  · exact ⟨_, _, rfl, by decide⟩
  · exact ⟨_, _, rfl, by decide⟩
  · exact ⟨_, _, rfl, by decide⟩
  · exact ⟨_, _, rfl, by decide⟩

/-- The arms of a match, if the block of each is read back. -/
private theorem readArms_tokens {arms : List (Char × Block)}
    (h : ∀ arm ∈ arms, ∀ fuel rest, arm.2.tokens.length ≤ fuel →
      readBlock fuel (arm.2.tokens ++ rest) = some (arm.2, rest)) {fuel : Nat}
    (hfuel : (Block.tokensArms arms).length ≤ fuel) (rest : List Token) :
    readArms fuel (Block.tokensArms arms ++ rest) = some (arms, rest) := by
  induction arms generalizing fuel with
  | nil =>
    simp only [Block.tokensArms, List.length_cons] at hfuel
    obtain ⟨fuel, rfl⟩ := Nat.exists_eq_add_one_of_ne_zero (show fuel ≠ 0 by omega)
    simp only [Block.tokensArms, List.cons_append, List.nil_append, readArms, expect, if_true,
      Option.bind_eq_bind, Option.bind_some]
    rfl
  | cons arm arms ih =>
    obtain ⟨c, block⟩ := arm
    simp only [Block.tokensArms, List.length_cons, List.length_append] at hfuel
    obtain ⟨fuel, rfl⟩ := Nat.exists_eq_add_one_of_ne_zero (show fuel ≠ 0 by omega)
    have hblock : ∀ rest, readBlock fuel (block.tokens ++ rest) = some (block, rest) := fun rest =>
      h (c, block) (by simp) fuel rest (by dsimp only; omega)
    have hrest : readArms fuel (Block.tokensArms arms ++ rest) = some (arms, rest) :=
      ih (fun a ha => h a (by simp [ha])) (by omega)
    simp only [Block.tokensArms, List.cons_append, List.append_assoc, readArms, expect, if_true,
      hblock, hrest, Option.bind_eq_bind, Option.bind_some]
    rfl

theorem readBlock_tokens {block : Block} (h : block.HasTests) {fuel : Nat}
    (hfuel : block.tokens.length ≤ fuel) (rest : List Token) :
    readBlock fuel (block.tokens ++ rest) = some (block, rest) := by
  -- every construct has tokens of its own, so what is left of the fuel is enough for its parts
  induction h generalizing fuel rest with
  | @exitIf condition value next hne _ ih =>
    simp only [Block.tokens, List.length_cons, List.length_append] at hfuel
    obtain ⟨fuel, rfl⟩ := Nat.exists_eq_add_one_of_ne_zero (show fuel ≠ 0 by omega)
    have hlength : condition.length ≤ fuel :=
      Nat.le_trans (length_le_length_tokens condition) (by omega)
    have hnext : readBlock fuel (next.tokens ++ rest) = some (next, rest) := ih (by omega) rest
    simp only [Block.tokens, List.cons_append, List.append_assoc, readBlock,
      readCondition_tokens hne hlength, readValue_tokens, hnext, expect, if_true,
      Option.bind_eq_bind, Option.bind_some]
    rfl
  | @select read arms _ ih =>
    simp only [Block.tokens, List.length_cons, List.length_append] at hfuel
    obtain ⟨fuel, rfl⟩ := Nat.exists_eq_add_one_of_ne_zero (show fuel ≠ 0 by omega)
    have harms : readArms fuel (Block.tokensArms arms ++ rest) = some (arms, rest) :=
      readArms_tokens (fun arm harm fuel rest hfuel => ih arm harm hfuel rest) (by omega) rest
    simp only [Block.tokens, List.cons_append, List.append_assoc, readBlock, readCharRead_tokens,
      harms, expect, if_true, Option.bind_eq_bind, Option.bind_some]
    rfl
  | result value =>
    have hpos : 1 ≤ value.tokens.length := by cases value <;> simp [Value.tokens]
    rw [Block.tokens] at hfuel
    obtain ⟨fuel, rfl⟩ := Nat.exists_eq_add_one_of_ne_zero (show fuel ≠ 0 by omega)
    cases value <;> rfl

/-! ### Functions -/

/-- What follows the definition of `fold` does not look like it. -/
private theorem expect_foldTokens (length : Bool) (body : Block) (rest : List Token) :
    expect foldTokens ((if length then lengthTokens else []) ++ (body.tokens ++ rest)) = none := by
  have hfold : foldTokens = .word "let" :: .word "fold" :: foldTokens.drop 2 := by decide +kernel
  have hlength : lengthTokens = .word "let" :: .word "len" :: lengthTokens.drop 2 := by
    decide +kernel
  obtain ⟨t, ts, hbody, hne⟩ := exists_tokens_eq_cons body
  rw [hfold]
  cases length with
  | true =>
    -- both definitions begin with `let` and part at the name
    rw [if_pos rfl, hlength, List.cons_append, List.cons_append, expect, if_pos rfl]
    exact expect_cons_of_ne (by decide) _ _
  | false =>
    rw [if_neg Bool.false_ne_true, List.nil_append, hbody, List.cons_append]
    exact expect_cons_of_ne hne _ _

/-- What follows the definition of `len` does not look like it. -/
private theorem expect_lengthTokens (body : Block) (rest : List Token) :
    expect lengthTokens (body.tokens ++ rest) = none := by
  have hlength : lengthTokens = .word "let" :: lengthTokens.drop 1 := by decide +kernel
  obtain ⟨t, ts, hbody, hne⟩ := exists_tokens_eq_cons body
  rw [hlength, hbody, List.cons_append]
  exact expect_cons_of_ne hne _ _

theorem readFunction_tokens {f : Function} (h : f.body.HasTests) :
    readFunction f.tokens = some (f, []) := by
  obtain ⟨name, returnType, isPublic, ⟨input, fold, length⟩, body⟩ := f
  have hpublic : ∀ ts, accept [.word "pub"]
      ((if isPublic then [.word "pub"] else []) ++ .word "fn" :: ts) =
        (isPublic, .word "fn" :: ts) := fun ts =>
    accept_ite (expect_cons_of_ne (by decide) _ _) isPublic
  have hparameter : ∀ ts, readParameter (.word (if input then "s" else "_s") :: ts) =
      some (input, ts) := by
    intro ts
    cases input <;> rfl
  have hbody : ∀ rest, readBlock (body.tokens ++ rest).length (body.tokens ++ rest) =
      some (body, rest) := fun rest =>
    readBlock_tokens h (by rw [List.length_append]; exact Nat.le_add_right _ _) rest
  have hfold := fun rest => accept_ite (expect_foldTokens length body rest) fold
  have hlength := fun rest => accept_ite (expect_lengthTokens body rest) length
  simp only [readFunction, Function.tokens, hpublic, hparameter, hfold, hlength, hbody, readGiven,
    expect, if_true, Option.bind_eq_bind, Option.bind_some]
  rfl

end Reading

/-- **A function is read back from its source**, white space and escapes notwithstanding. -/
theorem read_source {f : Function} (htests : f.body.HasTests) (hscoped : f.isScoped) :
    read f.source = some f := by
  rw [read, tokensOf_source, Reading.readFunction_tokens htests]
  simp [hscoped]

end Lexicon.Source
