import Lexicon.Proofs.Matching

/-!
# Positions of labels

A list of labels is compiled with each label standing for its position, so that the payload found for
an input is the position of the label that the input matches
(`IndexMatcher.position?_eq_some_iff`). Positions that are not too large are answered as they are, and
none of them is taken for `notFound` (`positions_faithful`).
-/

namespace Lexicon

open LengthRange (limit)

/-- The label at the position is, once folded, the given text. -/
def IsPosition (fold : CaseFold) (labels : List String) (text : List Char) (i : Nat) : Prop :=
  ∃ label, labels[i]? = some label ∧ (fold.applyText label).toList = text

/-- Labels with their positions for payloads have an entry for a text where a label is this text. -/
theorem hasEntry_zipIdx_iff {fold : CaseFold} {labels : List String} {text : List Char} {i : Nat} :
    HasEntry fold labels.zipIdx text i ↔ IsPosition fold labels text i := by
  constructor
  · rintro ⟨⟨label, i⟩, hentry, htext, rfl⟩
    exact ⟨label, List.mem_zipIdx_iff_getElem?.1 hentry, htext⟩
  · rintro ⟨label, hlabel, htext⟩
    exact ⟨(label, i), List.mem_zipIdx_iff_getElem?.2 hlabel, htext, rfl⟩

theorem IsPosition.lt_length {fold : CaseFold} {labels : List String} {text : List Char} {i : Nat}
    (h : IsPosition fold labels text i) : i < labels.length := by
  obtain ⟨label, hlabel, -⟩ := h
  obtain ⟨hlt, -⟩ := List.getElem?_eq_some_iff.1 hlabel
  exact hlt

namespace IndexMatcher

variable {options : Options} {labels : List String} {m : IndexMatcher} {α : Type} [Subject α]

/-- The position found for an input is that of the label with the same folded form. -/
theorem position?_eq_some_iff (hcompile : compileIndexed options labels = .ok m)
    (hshort : ∀ label ∈ labels, label.length < limit) (input : α) (i : Nat) :
    m.position? input = some i ↔
      IsPosition options.fold labels (options.fold.applyInput input) i := by
  cases hbuild : Table.build options.fold labels.zipIdx with
  | error e => simp [compileIndexed, Table.indexed, hbuild, Except.map] at hcompile
  | ok table =>
    have hmatcher : m = ⟨Matcher.ofTable table options⟩ := by
      simpa [compileIndexed, Table.indexed, hbuild, Except.map, eq_comm] using hcompile
    have hzip : ∀ entry ∈ labels.zipIdx, entry.1.length < limit := fun entry hentry =>
      hshort entry.1 (List.fst_mem_of_mem_zipIdx hentry)
    have hfold : table.fold = options.fold := Table.fold_of_build_eq_ok hbuild
    have hanswer := Trie.isAnswer_lookup?_root hbuild (options.fold.applyInput input)
    rw [hmatcher, position?, Matcher.get?_eq_lookup? (Table.length_label_lt hbuild hzip), hfold,
      hanswer.1, hasEntry_zipIdx_iff]

/-- A position that is not too large is answered as it is, and nothing else is. -/
theorem indexOf_eq_iff {input : α} (h : ∀ i, m.position? input = some i → i ≤ greatest) (i : Nat) :
    m.indexOf input = i ↔ m.position? input = some i := by
  rw [indexOf]
  cases hposition : m.position? input with
  | none =>
    have hne : notFound ≠ i := by rw [notFound]; omega
    exact iff_of_false hne (by simp)
  | some j =>
    dsimp only
    rw [if_pos (h j hposition), Option.some.injEq, Int.natCast_inj]

/-- If positions are not too large, `notFound` says that there is none. -/
theorem indexOf_eq_notFound_iff {input : α}
    (h : ∀ i, m.position? input = some i → i ≤ greatest) :
    m.indexOf input = notFound ↔ m.position? input = none := by
  cases hposition : m.position? input with
  | none => simp [indexOf, hposition]
  | some i =>
    have hindex : m.indexOf input = i := (indexOf_eq_iff h i).2 hposition
    have hne : (i : Int) ≠ notFound := by rw [notFound]; omega
    rw [hindex]
    exact iff_of_false hne (by simp)

end IndexMatcher

/-- **Positions are reported faithfully.** For fewer than `2 ^ 63` labels that can be compiled, each
shorter than `limit`, as every text in memory is, the position found for an input is the only one
whose label has the folded form of the input, and `indexOf` answers this position, or `-1` where
there is none. So `-1` is answered exactly where no position is found, and every label is found at
its own position. -/
theorem positions_faithful {options : Options} {labels : List String} {m : IndexMatcher}
    (hcompile : compileIndexed options labels = .ok m) (hcount : labels.length < 2 ^ 63)
    (hshort : ∀ label ∈ labels, label.length < limit) :
    (∀ (α : Type) [Subject α] (input : α),
      let Matches := IsPosition options.fold labels (options.fold.applyInput input)
      (∀ i j, Matches i → Matches j → i = j) ∧
        (∀ i, m.position? input = some i ↔ Matches i) ∧
        (∀ i : Nat, m.indexOf input = i ↔ Matches i) ∧
        (m.position? input = none ↔ ∀ i, ¬ Matches i) ∧
        (m.indexOf input = -1 ↔ ∀ i, ¬ Matches i) ∧
        (m.indexOf input = -1 ↔ m.position? input = none)) ∧
      ∀ (i : Nat) (label : String), labels[i]? = some label → m.indexOf label = i := by
  have hsome : ∀ (α : Type) [Subject α] (input : α) (i : Nat), m.position? input = some i ↔
      IsPosition options.fold labels (options.fold.applyInput input) i := fun _ _ input =>
    IndexMatcher.position?_eq_some_iff hcompile hshort input
  have hle : ∀ (α : Type) [Subject α] (input : α) (i : Nat), m.position? input = some i →
      i ≤ IndexMatcher.greatest := fun α _ input i hi => by
    have hlt := ((hsome α input i).1 hi).lt_length
    rw [IndexMatcher.greatest]
    omega
  refine ⟨fun α _ input => ?_, fun i label hlabel => ?_⟩
  · have hnone : m.position? input = none ↔
        ∀ i, ¬ IsPosition options.fold labels (options.fold.applyInput input) i := by
      rw [Option.eq_none_iff_forall_ne_some]
      exact forall_congr' fun i => not_congr (hsome α input i)
    have hindex : m.indexOf input = -1 ↔ m.position? input = none :=
      IndexMatcher.indexOf_eq_notFound_iff (hle α input)
    refine ⟨fun i j hi hj => ?_, hsome α input, fun i => ?_, hnone, hindex.trans hnone, hindex⟩
    · exact Option.some.inj (((hsome α input i).2 hi).symm.trans ((hsome α input j).2 hj))
    · exact (IndexMatcher.indexOf_eq_iff (hle α input) i).trans (hsome α input i)
  · refine (IndexMatcher.indexOf_eq_iff (hle String label) i).2 ((hsome String label i).2 ?_)
    exact ⟨label, hlabel, options.fold.toList_applyText label⟩

/-- Three labels, the first a prefix of the last, whose order in the trie is another one: an input in
another case is found at its position, a longer one is not found. -/
theorem positions_faithful_rust : ∃ m : IndexMatcher,
    compileIndexed .ignoreCase ["ru", "go", "Rust"] = .ok m ∧
    (∀ label ∈ ["ru", "go", "Rust"], label.length < limit) ∧
    m.indexOf "RUST" = 2 ∧ m.position? "rusty" = none ∧ m.indexOf "rusty" = -1 ∧
    m.indexOf "ru" = 0 := by
  have hok : (Table.build .ignoreCase ["ru", "go", "Rust"].zipIdx).isOk := by decide +kernel
  obtain ⟨table, hbuild⟩ := Table.exists_of_isOk hok
  have hcompile : compileIndexed .ignoreCase ["ru", "go", "Rust"] =
      .ok ⟨Matcher.ofTable table .ignoreCase⟩ := by
    rw [compileIndexed, Table.indexed]
    exact congrArg (Except.map _) hbuild
  have hshort : ∀ label ∈ ["ru", "go", "Rust"], label.length < limit := by decide
  obtain ⟨hinputs, hlabels⟩ := positions_faithful hcompile (by decide) hshort
  obtain ⟨-, -, hrust, -⟩ := hinputs String "RUST"
  obtain ⟨-, -, -, hposition, hindex, -⟩ := hinputs String "rusty"
  have hnone : ∀ i, ¬ IsPosition .ignoreCase ["ru", "go", "Rust"]
      (CaseFold.ignoreCase.applyInput "rusty") i := by
    intro i hi
    have hlt : i < 3 := hi.lt_length
    obtain ⟨label, hlabel, htext⟩ := hi
    have hall : ∀ label ∈ ["ru", "go", "Rust"], (CaseFold.ignoreCase.applyText label).toList ≠
        CaseFold.ignoreCase.applyInput "rusty" := by decide +kernel
    exact hall label (List.mem_of_getElem? hlabel) htext
  refine ⟨_, hcompile, hshort, ?_, hposition.2 hnone, hindex.2 hnone, hlabels 0 "ru" rfl⟩
  exact (hrust 2).2 ⟨"Rust", rfl, by decide +kernel⟩

end Lexicon
