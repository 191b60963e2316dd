import Lexicon.Proofs.Source.Lowering
import Lexicon.Proofs.Source.Names

/-!
# Emitted source binds what it uses

Whether a function names its parameter and defines `fold` and `len` is decided from the statistics
of the decision; what the body refers to comes from the nodes it is lowered from, one by one. The
two agree (`word_mem_tokens_toBlock`): a node counts for a statistic if it is lowered to a line that
refers to the name. A function whose scope fits its body (`Scope.Fits`) binds what it uses and
nothing else (`Function.binds`), and its lines are spelled that way (`Function.spells`).
-/

namespace Lexicon

open Source

universe u

variable {V : Type u}

/-! ### The words of a lowered decision -/

theorem Source.CharRead.word_mem_tokens {name : String} {read : CharRead} :
    .word name ∈ read.tokens ↔ name = "s" ∨ name = "fold" ∧ read.folded := by
  obtain ⟨offset, _ | _⟩ := read <;> simp [tokens, or_comm]

theorem Source.Condition.word_mem_tokens {name : String} {condition : Condition} :
    .word name ∈ Condition.tokens condition ↔ ∃ test ∈ condition, .word name ∈ test.tokens := by
  induction condition using Condition.tokens.induct with
  | case1 => simp [tokens]
  | case2 test => simp [tokens]
  | case3 test rest hne ih =>
    rw [tokens]
    · simp [ih]
    · exact hne

namespace Source.Block

/-- The words that blocks are built with, whatever they refer to. -/
def keywords : List String := ["if", "return", "match", "Some", "None", "_"]

section Words

variable {name : String} (hname : name ∉ keywords)
include hname

theorem word_notMem_tokens_value (value : Value) : .word name ∉ value.tokens := by
  cases value <;> simp_all [keywords, Value.tokens]

theorem word_mem_tokens_exitIf {condition : Condition} {value : Value} {next : Block} :
    .word name ∈ (exitIf condition value next).tokens ↔
      .word name ∈ Condition.tokens condition ∨ .word name ∈ next.tokens := by
  have hvalue := word_notMem_tokens_value hname value
  simp_all [keywords, tokens]

theorem word_mem_tokensArms {arms : List (Char × Block)} :
    .word name ∈ tokensArms arms ↔ ∃ arm ∈ arms, .word name ∈ arm.2.tokens := by
  induction arms with
  | nil => simp_all [keywords, tokensArms]
  | cons arm rest ih => simp [tokensArms, ih]

theorem word_mem_tokens_select {read : CharRead} {arms : List (Char × Block)} :
    .word name ∈ (select read arms).tokens ↔
      .word name ∈ read.tokens ∨ ∃ arm ∈ arms, .word name ∈ arm.2.tokens := by
  have harms : .word name ∈ tokensArms arms ↔ _ := word_mem_tokensArms hname
  simp_all [keywords, tokens]

end Words

end Source.Block

/-- A check refers to nothing but the length. -/
theorem LengthCheck.word_mem_tokens_failure {name : String} (check : LengthCheck) :
    .word name ∈ Condition.tokens check.failure ↔ name = "len" := by
  cases check <;> simp [failure, Condition.tokens, Source.Test.tokens]

/-- A run of tests refers to the input, and to `fold` if it is read folded. -/
theorem CharTest.word_mem_tokens_failure {name : String} {fold : CaseFold} {tests : List CharTest}
    (h : tests ≠ []) :
    .word name ∈ Condition.tokens (tests.map (failure fold)) ↔
      name = "s" ∨ name = "fold" ∧ !fold.isOrdinal := by
  have htest : ∀ test, .word name ∈ (failure fold test).tokens ↔
      name = "s" ∨ name = "fold" ∧ !fold.isOrdinal := by
    intro test
    simp [failure, Source.Test.tokens, CharRead.word_mem_tokens]
  rw [Condition.word_mem_tokens]
  constructor
  · rintro ⟨_, hmem, hword⟩
    obtain ⟨test, -, rfl⟩ := List.mem_map.1 hmem
    exact (htest test).1 hword
  · intro hword
    obtain ⟨test, hmem⟩ := List.exists_mem_of_ne_nil tests h
    exact ⟨_, List.mem_map_of_mem hmem, (htest test).2 hword⟩

namespace Decision

/-- A lowered decision refers to the length where the decision asks for it, and to the input, with
`fold` if that is read folded, where the decision reads it. -/
theorem word_mem_tokens_toBlock {name : String} (hname : name ∉ Block.keywords) {fold : CaseFold}
    {render : V → String} {d : Decision V} (h : ∀ tests, .spell tests ∈ d.heads → tests ≠ []) :
    .word name ∈ (d.toBlock fold render).tokens ↔
      name = "len" ∧ d.readsLength ∨
        (name = "s" ∨ name = "fold" ∧ !fold.isOrdinal) ∧ d.readsInput := by
  induction d using Decision.induction with
  | guard check next ih =>
    have hnext := ih fun tests htests => h tests (by simp [htests])
    rw [toBlock, Block.word_mem_tokens_exitIf hname, check.word_mem_tokens_failure, hnext,
      readsInput_guard, and_iff_left (readsLength_guard check next), ← or_assoc,
      or_iff_left_of_imp And.left]
  | spell tests next ih =>
    have hnext := ih fun tests htests => h tests (by simp [htests])
    have htests : tests ≠ [] := h tests (by simp)
    rw [toBlock, Block.word_mem_tokens_exitIf hname, CharTest.word_mem_tokens_failure htests, hnext,
      readsLength_spell, and_iff_left (readsInput_spell tests next), or_left_comm,
      or_iff_left_of_imp And.left]
  | dispatch offset onEnd cases ih =>
    have hcases : ∀ entry ∈ cases, .word name ∈ (entry.2.toBlock fold render).tokens ↔
        name = "len" ∧ entry.2.readsLength ∨
          (name = "s" ∨ name = "fold" ∧ !fold.isOrdinal) ∧ entry.2.readsInput :=
      fun entry hentry => ih entry hentry fun tests htests =>
        h tests (mem_heads_dispatch hentry htests)
    have hchoice : .word name ∈ (Block.select ⟨offset, !fold.isOrdinal⟩
        (armsOfCases fold render cases)).tokens ↔
          name = "len" ∧ (∃ entry ∈ cases, entry.2.readsLength) ∨
            (name = "s" ∨ name = "fold" ∧ !fold.isOrdinal) := by
      rw [Block.word_mem_tokens_select hname, CharRead.word_mem_tokens, armsOfCases_eq_map]
      constructor
      · rintro (hread | ⟨_, hmem, hword⟩)
        · exact .inr hread
        · obtain ⟨entry, hentry, rfl⟩ := List.mem_map.1 hmem
          exact ((hcases entry hentry).1 hword).imp
            (fun hlen => ⟨hlen.1, entry, hentry, hlen.2⟩) And.left
      · rintro (⟨hlen, entry, hentry, hreads⟩ | hread)
        · exact .inr ⟨_, List.mem_map_of_mem hentry, (hcases entry hentry).2 (.inl ⟨hlen, hreads⟩)⟩
        · exact .inl hread
    rw [readsLength_dispatch, and_iff_left (readsInput_dispatch offset onEnd cases)]
    cases onEnd with
    | none => simpa [toBlock] using hchoice
    | some payload =>
      have hlength : .word name ∈ Condition.tokens [.length .eq offset] ↔ name = "len" := by
        simp [Condition.tokens, Source.Test.tokens]
      rw [toBlock, Block.word_mem_tokens_exitIf hname, hlength, hchoice, ← or_assoc,
        or_iff_left_of_imp And.left]
      simp
  | accept payload =>
    have hvalue := Block.word_notMem_tokens_value hname (some (render payload))
    refine iff_of_false hvalue ?_
    rintro (⟨-, hlength⟩ | ⟨-, hinput⟩)
    · exact not_readsLength_accept payload hlength
    · exact not_readsInput_accept payload hinput
  | miss =>
    have hvalue := Block.word_notMem_tokens_value hname none
    refine iff_of_false hvalue ?_
    rintro (⟨-, hlength⟩ | ⟨-, hinput⟩)
    · exact not_readsLength_miss hlength
    · exact not_readsInput_miss hinput

end Decision

/-! ### Functions that define what they use -/

namespace Source

/-- What is in a list on a condition is found there on that condition, if part of it is nowhere
else. -/
theorem infix_ite_iff {α : Type u} {own before after : List α} {p : Prop} [Decidable p] {x : α}
    (hown : x ∈ own) (hbefore : x ∉ before) (hafter : x ∉ after) :
    own <:+: before ++ ((if p then own else []) ++ after) ↔ p := by
  constructor
  · intro hcontains
    by_contra hp
    have hmem : x ∈ before ++ ((if p then own else []) ++ after) := hcontains.subset hown
    rw [if_neg hp, List.nil_append] at hmem
    exact (List.mem_append.1 hmem).elim hbefore hafter
  · intro hp
    rw [if_pos hp, ← List.append_assoc]
    exact ⟨before, after, rfl⟩

namespace Binds

variable {name : String} {header : List Piece} {closure definition body : List (List Piece)}

/-- A function contains the definition of `fold` if its body calls it. -/
theorem closure_infix_iff (h : Binds name header closure definition body) :
    Function.foldLines.map Line.indented <:+: header :: (closure ++ definition ++ body) ↔
      ∃ line ∈ body, Calls "fold" line := by
  obtain ⟨first, hfirst, hlet, hother⟩ : ∃ line ∈ Function.foldLines.map Line.indented,
      Refers "let" line ∧ line ∉ Function.lengthLines.map Line.indented := by decide +kernel
  have hdefinition : first ∉ definition := by
    rw [h.definition_eq]
    split
    · exact hother
    · exact List.not_mem_nil
  have hheader : first ∉ [header] := fun hmem =>
    h.let_free first (List.mem_cons.2 (.inl (List.mem_singleton.1 hmem))) hlet
  have hbehind : first ∉ definition ++ body := fun hmem =>
    (List.mem_append.1 hmem).elim hdefinition fun hbody =>
      h.let_free first (List.mem_cons_of_mem _ hbody) hlet
  rw [List.append_assoc, ← List.singleton_append, h.closure_eq]
  exact infix_ite_iff hfirst hheader hbehind

/-- A function contains the definition of `len` if its body refers to it. -/
theorem definition_infix_iff (h : Binds name header closure definition body) :
    Function.lengthLines.map Line.indented <:+: header :: (closure ++ definition ++ body) ↔
      ∃ line ∈ body, Refers "len" line := by
  obtain ⟨only, honly, hlet, hother⟩ : ∃ line ∈ Function.lengthLines.map Line.indented,
      Refers "let" line ∧ line ∉ Function.foldLines.map Line.indented := by decide +kernel
  have hclosure : only ∉ closure := by
    rw [h.closure_eq]
    split
    · exact hother
    · exact List.not_mem_nil
  have hfront : only ∉ header :: closure := fun hmem =>
    (List.mem_cons.1 hmem).elim (fun heq => h.let_free only (List.mem_cons.2 (.inl heq)) hlet)
      hclosure
  have hbody : only ∉ body := fun hmem => h.let_free only (List.mem_cons_of_mem _ hmem) hlet
  rw [List.append_assoc, ← List.cons_append, h.definition_eq]
  exact infix_ite_iff honly hfront hbody

end Binds

/-- A scope fits a body if it defines what the body has the names of. The definition of `len` takes
the input itself. -/
structure Scope.Fits (scope : Scope) (body : Block) : Prop where
  input_iff : scope.input ↔ .word "s" ∈ body.tokens ∨ scope.length
  fold_iff : scope.fold ↔ .word "fold" ∈ body.tokens
  length_iff : scope.length ↔ .word "len" ∈ body.tokens

namespace Function

variable {f : Function}

theorem not_refers_closureLines {line : List Piece} (h : line ∈ f.closureLines) :
    ¬ Refers "s" line ∧ ¬ Refers "len" line ∧ ¬ Calls "fold" line := by
  revert line
  rw [closureLines]
  split <;> decide +kernel

/-- The definition of `len` is what refers to the input in front of the body. -/
theorem exists_refers_definitionLines_iff :
    (∃ line ∈ f.definitionLines, Refers "s" line) ↔ f.scope.length := by
  rw [definitionLines]
  cases f.scope.length <;> decide +kernel

end Function

namespace Scope.Fits

section Lines

variable {f : Function} (h : f.scope.Fits f.body)
include h

/-- The parameter has a name if something refers to it. -/
theorem input_iff_exists_refers :
    f.scope.input ↔
      ∃ line ∈ f.closureLines ++ f.definitionLines ++ f.body.bodyLines, Refers "s" line := by
  rw [h.input_iff, ← Block.exists_refers_bodyLines_iff,
    ← Function.exists_refers_definitionLines_iff]
  constructor
  · rintro (⟨line, hline, hrefers⟩ | ⟨line, hline, hrefers⟩)
    · exact ⟨line, List.mem_append_right _ hline, hrefers⟩
    · exact ⟨line, List.mem_append_left _ (List.mem_append_right _ hline), hrefers⟩
  · rintro ⟨line, hline, hrefers⟩
    rcases List.mem_append.1 hline with hline | hbody
    · rcases List.mem_append.1 hline with hline | hline
      · exact absurd hrefers (Function.not_refers_closureLines hline).1
      · exact .inr ⟨line, hline, hrefers⟩
    · exact .inl ⟨line, hbody, hrefers⟩

/-- There is a definition of `fold` if the body calls it. -/
theorem fold_iff_exists_calls : f.scope.fold ↔ ∃ line ∈ f.body.bodyLines, Calls "fold" line :=
  h.fold_iff.trans Block.exists_calls_bodyLines_iff.symm

/-- There is a definition of `len` if the body refers to it. -/
theorem length_iff_exists_refers : f.scope.length ↔ ∃ line ∈ f.body.bodyLines, Refers "len" line :=
  h.length_iff.trans Block.exists_refers_bodyLines_iff.symm

end Lines

end Scope.Fits

namespace Function

variable {f : Function}

/-- A function whose scope fits its body binds what it uses. -/
theorem binds (h : f.scope.Fits f.body) (hlet : .word "let" ∉ f.body.tokens) :
    Binds f.name f.header.indented f.closureLines f.definitionLines f.body.bodyLines where
  parameter := by
    rw [← if_congr h.input_iff_exists_refers rfl rfl]
    exact f.parameter_infix_header
  closure_eq := if_congr h.fold_iff_exists_calls rfl rfl
  definition_eq := if_congr h.length_iff_exists_refers rfl rfl
  let_free := by
    refine List.forall_mem_cons.2 ⟨f.not_refers_header (by decide), fun line hline hrefers => ?_⟩
    exact hlet (Block.exists_refers_bodyLines_iff.1 ⟨line, hline, hrefers⟩)
  fold_free := by
    have hheader : ¬ Calls "fold" f.header.indented := fun hcalls =>
      f.not_refers_header (by decide) hcalls.refers
    have hdefinition : ∀ line ∈ f.definitionLines, ¬ Calls "fold" line := by
      rw [definitionLines]
      split <;> decide +kernel
    exact List.forall_mem_cons.2 ⟨hheader, List.forall_mem_append.2
      ⟨fun line hline => (not_refers_closureLines hline).2.2, hdefinition⟩⟩
  length_free := List.forall_mem_cons.2 ⟨f.not_refers_header (by decide),
    fun line hline => (not_refers_closureLines hline).2.1⟩

/-- A function whose scope fits its body spells out what it uses. -/
theorem spells (h : f.scope.Fits f.body) (fold : CaseFold) :
    Spells ⟨f.name, f.returnType, fold, f.isPublic⟩ f.header.indented f.closureLines
      f.definitionLines f.body.bodyLines where
  header_text := by
    rw [← if_congr h.input_iff_exists_refers rfl rfl]
    exact f.textOf_header
  closure_text := by
    rw [← if_congr h.fold_iff_exists_calls rfl rfl, closureLines, apply_ite (List.map textOf),
      map_textOf_foldLines]
    rfl
  definition_text := by
    rw [← if_congr h.length_iff_exists_refers rfl rfl, definitionLines,
      apply_ite (List.map textOf), map_textOf_lengthLines]
    rfl

end Function

end Source

namespace Decision

section Emitted

variable {d : Decision V} (h : ∀ tests, .spell tests ∈ d.heads → tests ≠ [])
  (signature : Signature) (render : V → String)
include h

/-- The decision is asked for the same things when the scope of its function is made and when the
body is. -/
theorem fits_toFunction :
    (d.toFunction signature render).scope.Fits (d.toFunction signature render).body := by
  have hwords : ∀ name ∉ Block.keywords,
      .word name ∈ (d.toFunction signature render).body.tokens ↔
        name = "len" ∧ d.readsLength ∨
          (name = "s" ∨ name = "fold" ∧ !signature.fold.isOrdinal) ∧ d.readsInput :=
    fun name hname => word_mem_tokens_toBlock hname h
  refine ⟨?_, ?_, ?_⟩
  · rw [hwords "s" (by decide)]
    simp [toFunction]
  · rw [hwords "fold" (by decide)]
    simp [toFunction, and_comm]
  · rw [hwords "len" (by decide)]
    simp [toFunction]

theorem let_notMem_tokens_toFunction :
    .word "let" ∉ (d.toFunction signature render).body.tokens := fun hmem => by
  have hwords := (word_mem_tokens_toBlock (by decide) h).1 hmem
  simp at hwords

end Emitted

end Decision

/-- **Emitted source binds what it uses.** The text that is emitted for a decision without empty
runs consists of a header, the definitions and a body, line by line. It defines `len` exactly if
some line of the body refers to `len`, and `fold` exactly if some line of the body calls `fold`,
which happens only where case is ignored. Its parameter is `s` exactly if something refers to `s`,
and else `_s`. There are no other definitions, and no name is used in front of its own. The texts of
payloads are not looked into. -/
theorem emitted_bindings {d : Decision V} (h : ∀ tests, .spell tests ∈ d.heads → tests ≠ [])
    (signature : Signature) (render : V → String) :
    ∃ header closure definition body,
      d.emit signature render =
          "\n".intercalate ((header :: (closure ++ definition ++ body)).map textOf) ∧
        (∀ line ∈ header :: (closure ++ definition ++ body), (textOf line).toList =
          line.flatMap fun
            | .written text => text.toList
            | .given text => text.toList) ∧
        linesOf (d.emitSource signature render) = header :: (closure ++ definition ++ body) ∧
        Binds signature.name header closure definition body ∧
        Spells signature header closure definition body ∧
        ((∃ line ∈ body, Calls "fold" line) → signature.fold = .ignoreCase) ∧
        (Function.foldLines.map Line.indented <:+: linesOf (d.emitSource signature render) ↔
          ∃ line ∈ body, Calls "fold" line) ∧
        (Function.lengthLines.map Line.indented <:+: linesOf (d.emitSource signature render) ↔
          ∃ line ∈ body, Refers "len" line) := by
  have hfits := Decision.fits_toFunction h signature render
  have hbinds := Function.binds hfits (Decision.let_notMem_tokens_toFunction h signature render)
  have hspells := Function.spells hfits signature.fold
  have hlines : linesOf (d.emitSource signature render) = _ := Function.linesOf_source _
  refine ⟨_, _, _, _, ?_, fun line _ => toList_textOf line, hlines, hbinds, hspells, ?_, ?_, ?_⟩
  · rw [← hlines]
    exact textOf_eq_intercalate _
  · intro hcalls
    have hword := Block.exists_calls_bodyLines_iff.1 hcalls
    have hfold := (Decision.word_mem_tokens_toBlock (by decide) h).1 hword
    cases hordinal : signature.fold with
    | ordinal => simp [hordinal, CaseFold.isOrdinal] at hfold
    | ignoreCase => rfl
  · rw [hlines]
    exact hbinds.closure_infix_iff
  · rw [hlines]
    exact hbinds.definition_infix_iff

/-- A payload that is spelled `len` is no reason to define it. -/
theorem emitted_bindings_spelled_len : ∃ d : Decision Nat,
    (∀ tests, .spell tests ∈ d.heads → tests ≠ []) ∧
      ∃ header closure definition body,
        linesOf (d.emitSource (.withFold (.new "find" "usize") .ignoreCase) fun _ => "len") =
            header :: (closure ++ definition ++ body) ∧
          Binds "find" header closure definition body ∧
          (∃ line ∈ body, Calls "fold" line) ∧ ¬ (∃ line ∈ body, Refers "len" line) ∧
          textOf header = "fn find(s: &[char]) -> Option<usize> \x7b" ∧
          definition.map textOf = [] := by
  have htests : ∀ tests, .spell tests ∈ (Decision.dispatch 0 none
      [('A', .spell [⟨1, 'B'⟩] (.accept 1)), ('C', .miss)]).heads → tests ≠ [] := by
    simp
  obtain ⟨header, closure, definition, body, -, -, hlines, hbinds, hspells, -, hfold, hlength⟩ :=
    emitted_bindings htests (.withFold (.new "find" "usize") .ignoreCase) fun _ => "len"
  have hfree : ¬ ∃ line ∈ body, Refers "len" line := fun hlen =>
    absurd (hlength.2 hlen) (by decide +kernel)
  have hreads : ∃ line ∈ closure ++ definition ++ body, Refers "s" line := by
    have hbehind := congrArg List.tail hlines
    rw [List.tail_cons] at hbehind
    rw [← hbehind]
    decide +kernel
  have hheader := hspells.header_text
  have hdefinition := hspells.definition_text
  rw [if_pos hreads] at hheader
  rw [if_neg hfree] at hdefinition
  refine ⟨_, htests, header, closure, definition, body, hlines, hbinds, hfold.1 ?_, hfree,
    hheader.trans ?_, hdefinition⟩
  · decide +kernel
  · decide +kernel

end Lexicon
