import Lexicon.Proofs.Duplicates
import Lexicon.Proofs.ForwardReading
import Lexicon.Proofs.Synthesis.Shape
import Lexicon.Proofs.Text.Uppercase

/-!
# Folding once is enough

The labels of a table that was built are folded, and a folded text stays as it is under its fold
(`CaseFold.applyText_applyText`). So a table can be built from its own entries, and is the same table
(`Table.build_source`). A matcher sees of its input only the folded characters, and answers inputs
that are equal once folded alike (`Matcher.get?_eq_of_applyInput_eq`).
-/

namespace Lexicon

open LengthRange (limit)

universe u

variable {V : Type u}

/-! ### Folded inputs -/

namespace CaseFold

theorem applyInput_applyText (fold : CaseFold) (s : String) :
    fold.applyInput (fold.applyText s) = fold.applyInput s := by
  rw [applyInput, applyInput, Subject.chars_string, ← toList_applyText, applyText_applyText,
    toList_applyText, Subject.chars_string]

theorem applyInput_applyInput {α : Type} [Subject α] (fold : CaseFold) (input : α) :
    fold.applyInput (fold.applyInput input) = fold.applyInput input := by
  rw [applyInput, Subject.chars_list, applyInput, List.map_map]
  exact List.map_congr_left fun c _ => apply_apply fold c

end CaseFold

/-- Inputs that are equal once folded are answered alike, also if they are given in different
ways. -/
theorem Matcher.get?_eq_of_applyInput_eq {α β : Type} [Subject α] [Subject β] (table : Table V)
    (options : Options) {input : α} {other : β}
    (h : table.fold.applyInput input = table.fold.applyInput other) :
    (ofTable table options).get? input = (ofTable table options).get? other := by
  have hasc : (ofTable table options).decision.CasesAscend :=
    (Trie.wellFormed_synthesize table options.condense).chars_ascending
  have hfold : (ofTable table options).fold = table.fold := Trie.fold_ofTable table
  rw [get?, get?, hfold, Decision.eval_eq_evalForward hasc, Decision.eval_eq_evalForward hasc, h]

/-! ### Folded tables -/

namespace Table

/-- The labels of a table that was built are folded. -/
theorem applyText_label {fold : CaseFold} {source : List (String × V)} {table : Table V}
    (hbuild : build fold source = .ok table) {entry : Entry V} (hentry : entry ∈ table.entries) :
    fold.applyText entry.label = entry.label := by
  rw [← Array.mem_toList_iff, entries_of_build_eq_ok hbuild] at hentry
  obtain ⟨unfolded, -, rfl⟩ := List.mem_map.1 hentry
  exact fold.applyText_applyText unfolded.1

/-- Tables with the same entries under the same fold are equal. -/
theorem eq_of_entries_eq {table other : Table V} (hfold : table.fold = other.fold)
    (hentries : table.entries.toList = other.entries.toList) : table = other := by
  obtain ⟨fold, entries, hnodup⟩ := table
  obtain ⟨fold', entries', hnodup'⟩ := other
  obtain rfl : fold = fold' := hfold
  obtain rfl : entries = entries' := Array.toList_inj.1 hentries
  rfl

/-- The labels of a table with their payloads. -/
def source (table : Table V) : List (String × V) :=
  table.entries.toList.map fun entry => (entry.label, entry.payload)

/-- A table whose labels are folded is the table of its own entries. -/
theorem build_source {table : Table V}
    (h : ∀ entry ∈ table.entries, table.fold.applyText entry.label = entry.label) :
    build table.fold table.source = .ok table := by
  have hfolded : table.source.map (foldedEntry table.fold) = table.entries.toList := by
    rw [source, List.map_map]
    refine (List.map_congr_left fun entry hentry => ?_).trans (List.map_id _)
    rw [Function.comp_apply, foldedEntry, h entry (by simpa using hentry)]
    rfl
  have hlabels : (table.source.map fun entry => table.fold.applyText entry.1).Nodup := by
    have hnodup := table.nodup
    rw [← hfolded, List.map_map] at hnodup
    exact hnodup
  obtain ⟨rebuilt, hrebuilt⟩ := (detects_build table.fold table.source).isOk_iff.2 hlabels
  have hentries := entries_of_build_eq_ok hrebuilt
  rw [hrebuilt, eq_of_entries_eq (fold_of_build_eq_ok hrebuilt) (hentries.trans hfolded)]

end Table

/-- Every entry of a table with short, folded labels is found by its label. -/
theorem Matcher.get?_label {table : Table V}
    (hshort : ∀ entry ∈ table.entries, entry.label.length < limit) (options : Options)
    {entry : Entry V} (hentry : entry ∈ table.entries)
    (hfolded : table.fold.applyText entry.label = entry.label) :
    (ofTable table options).get? entry.label = some entry.payload := by
  have hinput : table.fold.applyInput entry.label = entry.label.toList := by
    rw [CaseFold.applyInput, Subject.chars_string, ← CaseFold.toList_applyText, hfolded]
  rw [get?_eq_lookup? hshort, hinput]
  exact Trie.lookup?_root_ofTable.2 ⟨entry, hentry, rfl, rfl⟩

/-- **A table is a fixed point of its fold.** Built again from its own entries under the same fold,
a table that was built comes out as it is, and its matcher answers every label in it, if labels are
counted in full, with the payload of that label. Texts that are folded stay as they are when they
are folded again, and folding an input beforehand changes nothing about its answer. -/
theorem fold_fixed {fold : CaseFold} {source : List (String × V)} {table : Table V}
    (hbuild : Table.build fold source = .ok table) :
    Table.build fold table.source = .ok table ∧
      (∀ options : Options, (∀ entry ∈ source, entry.1.length < limit) →
        ∀ entry ∈ table.entries,
          (Matcher.ofTable table options).get? entry.label = some entry.payload) ∧
      (∀ s, fold.applyText (fold.applyText s) = fold.applyText s) ∧
      (∀ (options : Options) (input : String),
        (Matcher.ofTable table options).get? (fold.applyText input) =
          (Matcher.ofTable table options).get? input) ∧
      ∀ (options : Options) (α : Type) [Subject α] (input : α),
        (Matcher.ofTable table options).get? (fold.applyInput input) =
          (Matcher.ofTable table options).get? input := by
  obtain rfl : table.fold = fold := Table.fold_of_build_eq_ok hbuild
  have hfolded : ∀ entry ∈ table.entries, table.fold.applyText entry.label = entry.label :=
    fun entry hentry => Table.applyText_label hbuild hentry
  refine ⟨Table.build_source hfolded, fun options hshort entry hentry => ?_,
    table.fold.applyText_applyText, fun options input => ?_, fun options α _ input => ?_⟩
  · exact Matcher.get?_label (Table.length_label_lt hbuild hshort) options hentry
      (hfolded entry hentry)
  · exact Matcher.get?_eq_of_applyInput_eq table options (table.fold.applyInput_applyText input)
  · exact Matcher.get?_eq_of_applyInput_eq table options (table.fold.applyInput_applyInput input)

/-- A titlecase digraph, a final sigma, a dotless i and a letter whose uppercase form is longer: the
labels of the table are what these letters are folded to, and are found as they stand in it. -/
theorem fold_fixed_digraph : ∃ table : Table Nat,
    Table.build .ignoreCase [("ǅ", 0), ("ς", 1), ("ı", 2), ("ß", 3)] = .ok table ∧
    (∀ entry ∈ [("ǅ", 0), ("ς", 1), ("ı", 2), ("ß", 3)], entry.1.length < limit) ∧
    table.source = [("Ǆ", 0), ("Σ", 1), ("I", 2), ("ß", 3)] ∧
    Table.build .ignoreCase table.source = .ok table ∧
    (Matcher.ofTable table .ordinal).get? "Ǆ" = some 0 ∧
    (Matcher.ofTable table .ordinal).get? "σ" = some 1 := by
  have hok : (Table.build .ignoreCase
      [("ǅ", 0), ("ς", 1), ("ı", 2), ("ß", 3)]).isOk := by decide +kernel
  obtain ⟨table, hbuild⟩ := Table.exists_of_isOk hok
  have hshort : ∀ entry ∈ [("ǅ", 0), ("ς", 1), ("ı", 2), ("ß", 3)],
      entry.1.length < limit := by decide
  have hentries : table.entries.toList = [⟨"Ǆ", 0⟩, ⟨"Σ", 1⟩, ⟨"I", 2⟩, ⟨"ß", 3⟩] := by
    rw [Table.entries_of_build_eq_ok hbuild]
    decide +kernel
  have hmem : ∀ entry ∈ [⟨"Ǆ", 0⟩, ⟨"Σ", 1⟩], entry ∈ table.entries := by
    simp [← Array.mem_toList_iff, hentries]
  obtain ⟨hrebuilt, hlabels, -, hinput, -⟩ := fold_fixed hbuild
  refine ⟨table, hbuild, hshort, by rw [Table.source, hentries]; rfl, hrebuilt, ?_, ?_⟩
  · exact hlabels .ordinal hshort ⟨"Ǆ", 0⟩ (hmem _ (by simp))
  · have hfold : CaseFold.ignoreCase.applyText "σ" = "Σ" := by decide +kernel
    rw [← hinput .ordinal "σ", hfold]
    exact hlabels .ordinal hshort ⟨"Σ", 1⟩ (hmem _ (by simp))

end Lexicon
