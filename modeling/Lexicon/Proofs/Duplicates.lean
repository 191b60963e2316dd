import Lexicon.Matcher
import Lexicon.Proofs.Table
import Mathlib.Data.List.Nodup

/-!
# Duplicate labels

An attempt to compile labels fails exactly if two of them are the same once folded. The error then
names the first label that repeats one before it, and where that one stands. This is said of labels
alone, by their positions (`IsFirstDuplicate`), so it is the same for every way to compile them
(`duplicates_detected`).

The table is built label by label, and the labels that are in the table are those at the positions
in front (`Table.detects_foldlM_insert`).
-/

namespace Lexicon

universe u v

/-! ### The first duplicate -/

/-- The label at position `duplicate` is the first that repeats one before it, and `first` is the
first position of this label. -/
structure IsFirstDuplicate (labels : List String) (label : String) (first duplicate : Nat) :
    Prop where
  /-- The label occurs before it is repeated. -/
  first_lt : first < duplicate
  getElem?_duplicate : labels[duplicate]? = some label
  getElem?_first : labels[first]? = some label
  /-- In front of `first` the label does not occur. -/
  first_le : ∀ i < first, labels[i]? ≠ some label
  /-- In front of `duplicate` no label occurs again. -/
  duplicate_le : ∀ j < duplicate, ∀ i < j, labels[i]? ≠ labels[j]?

/-- The attempt succeeds if the labels are pairwise distinct, and otherwise fails with the first
duplicate. -/
structure Detects {α : Type u} (attempt : Except BuildError α) (labels : List String) : Prop where
  isOk_iff : (∃ a, attempt = .ok a) ↔ labels.Nodup
  exists_error : ¬ labels.Nodup →
    ∃ label first duplicate, attempt = .error (.duplicateKey label first duplicate)
  error_iff : ∀ label first duplicate, attempt = .error (.duplicateKey label first duplicate) ↔
    IsFirstDuplicate labels label first duplicate

namespace IsFirstDuplicate

variable {labels : List String} {label label' : String} {first first' duplicate duplicate' : Nat}

theorem not_nodup (h : IsFirstDuplicate labels label first duplicate) : ¬ labels.Nodup := by
  intro hnodup
  obtain ⟨hlt, -⟩ := List.getElem?_eq_some_iff.1 h.getElem?_duplicate
  exact List.nodup_iff_getElem?_ne_getElem?.1 hnodup first duplicate h.first_lt hlt
    (h.getElem?_first.trans h.getElem?_duplicate.symm)

/-- There is only one first duplicate. -/
theorem unique (h : IsFirstDuplicate labels label first duplicate)
    (h' : IsFirstDuplicate labels label' first' duplicate') :
    label = label' ∧ first = first' ∧ duplicate = duplicate' := by
  -- the earlier of two duplicates is none for the later one
  have hle : ∀ {l l' f f' d d'}, IsFirstDuplicate labels l f d → IsFirstDuplicate labels l' f' d' →
      d ≤ d' := fun {l l' f f' d d'} hd hd' => by
    by_contra hlt
    exact hd.duplicate_le d' (Nat.not_le.1 hlt) f' hd'.first_lt
      (hd'.getElem?_first.trans hd'.getElem?_duplicate.symm)
  obtain rfl := Nat.le_antisymm (hle h h') (hle h' h)
  obtain rfl := Option.some.inj (h.getElem?_duplicate.symm.trans h'.getElem?_duplicate)
  refine ⟨rfl, Nat.le_antisymm ?_ ?_, rfl⟩
  · exact Nat.not_lt.1 fun hlt => h.first_le first' hlt h'.getElem?_first
  · exact Nat.not_lt.1 fun hlt => h'.first_le first hlt h.getElem?_first

/-- Labels behind the duplicate are of no importance. -/
theorem of_take_eq (h : IsFirstDuplicate labels label first duplicate) {other : List String}
    (htake : other.take (duplicate + 1) = labels.take (duplicate + 1)) :
    IsFirstDuplicate other label first duplicate := by
  have hget : ∀ i ≤ duplicate, other[i]? = labels[i]? := by
    intro i hi
    have heq := congrArg (·[i]?) htake
    simpa only [List.getElem?_take, if_pos (Nat.lt_succ_of_le hi)] using heq
  have hfirst := h.first_lt
  refine ⟨hfirst, ?_, ?_, fun i hi => ?_, fun j hj i hi => ?_⟩
  · rw [hget _ (Nat.le_refl _), h.getElem?_duplicate]
  · rw [hget _ (Nat.le_of_lt hfirst), h.getElem?_first]
  · rw [hget i (by omega)]
    exact h.first_le i hi
  · rw [hget i (by omega), hget j (by omega)]
    exact h.duplicate_le j hj i hi

/-- Behind distinct labels one of them is a duplicate, if it comes next. -/
theorem of_nodup (hnodup : labels.Nodup) (hfirst : labels[first]? = some label)
    (hbefore : ∀ i < first, labels[i]? ≠ some label) (rest : List String) :
    IsFirstDuplicate (labels ++ label :: rest) label first labels.length := by
  obtain ⟨hlt, -⟩ := List.getElem?_eq_some_iff.1 hfirst
  refine ⟨hlt, ?_, ?_, fun i hi => ?_, fun j hj i hi => ?_⟩
  · rw [List.getElem?_append_right (Nat.le_refl _), Nat.sub_self]
    rfl
  · rwa [List.getElem?_append_left hlt]
  · rw [List.getElem?_append_left (by omega)]
    exact hbefore i hi
  · rw [List.getElem?_append_left (by omega), List.getElem?_append_left hj]
    exact List.nodup_iff_getElem?_ne_getElem?.1 hnodup i j hi hj

end IsFirstDuplicate

namespace Detects

variable {α : Type u} {β : Type v} {labels : List String}

theorem ok (hnodup : labels.Nodup) (a : α) : Detects (.ok a) labels where
  isOk_iff := iff_of_true ⟨a, rfl⟩ hnodup
  exists_error h := absurd hnodup h
  error_iff _ _ _ := iff_of_false (by simp) fun h => h.not_nodup hnodup

theorem error {label : String} {first duplicate : Nat}
    (h : IsFirstDuplicate labels label first duplicate) :
    Detects (.error (.duplicateKey label first duplicate) : Except BuildError α) labels where
  isOk_iff := iff_of_false (by simp) h.not_nodup
  exists_error _ := ⟨label, first, duplicate, rfl⟩
  error_iff label' first' duplicate' := by
    constructor
    · intro heq
      cases heq
      exact h
    · intro h'
      obtain ⟨rfl, rfl, rfl⟩ := h.unique h'
      rfl

/-- What is made of a success has no part in the failure. -/
theorem map {attempt : Except BuildError α} (h : Detects attempt labels) (f : α → β) :
    Detects (attempt.map f) labels := by
  cases hattempt : attempt with
  | ok a => exact .ok (h.isOk_iff.1 ⟨a, hattempt⟩) (f a)
  | error e =>
    obtain ⟨label, first, duplicate⟩ := e
    exact .error ((h.error_iff label first duplicate).1 hattempt)

end Detects

/-! ### Building a table -/

namespace Table

variable {V : Type u}

/-- A label is found where it stands in the table first. -/
theorem position?_eq_some_iff {t : Table V} {label : String} {i : Nat} :
    t.position? label = some i ↔
      t.labels[i]? = some label ∧ ∀ j < i, t.labels[j]? ≠ some label := by
  have hindex : t.position? label = t.labels.findIdx? (· = label) := by
    rw [position?, labels, List.findIdx?_map, ← t.entries.toArray_toList, List.findIdx?_toArray]
    rfl
  rw [hindex, List.findIdx?_eq_some_iff_getElem]
  constructor
  · rintro ⟨hlt, hlabel, hbefore⟩
    refine ⟨by simpa [List.getElem?_eq_getElem hlt] using hlabel, fun j hj heq => ?_⟩
    rw [List.getElem?_eq_getElem (by omega), Option.some.injEq] at heq
    exact hbefore j hj (by simpa using heq)
  · rintro ⟨hlabel, hbefore⟩
    obtain ⟨hlt, rfl⟩ := List.getElem?_eq_some_iff.1 hlabel
    refine ⟨hlt, by simp, fun j hj heq => hbefore j hj ?_⟩
    rw [List.getElem?_eq_getElem (by omega)]
    simpa using heq

theorem insert_of_position?_eq_some {t : Table V} {label : String} {first : Nat}
    (h : t.position? (t.fold.applyText label) = some first) (payload : V) :
    t.insert label payload =
      .error (.duplicateKey (t.fold.applyText label) first t.labels.length) := by
  rw [length_labels]
  unfold insert
  dsimp only
  split
  · rename_i first' h'
    obtain rfl := Option.some.inj (h.symm.trans h')
    rfl
  · rename_i h'
    simp [h] at h'

theorem exists_insert_eq_ok {t : Table V} {label : String}
    (h : t.position? (t.fold.applyText label) = none) (payload : V) :
    ∃ t', t.insert label payload = .ok t' := by
  unfold insert
  dsimp only
  split
  · rename_i h'
    simp [h] at h'
  · exact ⟨_, rfl⟩

/-- Going on from a table, what counts is the labels in the table and those still to come. -/
theorem detects_foldlM_insert (source : List (String × V)) (t : Table V) :
    Detects (source.foldlM (fun t entry => t.insert entry.1 entry.2) t)
      (t.labels ++ source.map fun entry => t.fold.applyText entry.1) := by
  induction source generalizing t with
  | nil =>
    rw [List.map_nil, List.append_nil]
    exact .ok t.nodup t
  | cons entry rest ih =>
    rw [List.foldlM_cons, List.map_cons]
    cases hposition : t.position? (t.fold.applyText entry.1) with
    | some first =>
      obtain ⟨hfirst, hbefore⟩ := position?_eq_some_iff.1 hposition
      rw [insert_of_position?_eq_some hposition]
      exact .error (.of_nodup t.nodup hfirst hbefore _)
    | none =>
      obtain ⟨t', hinsert⟩ := exists_insert_eq_ok hposition entry.2
      obtain ⟨hfold, hentries⟩ := of_insert_eq_ok hinsert
      have hlabels : t'.labels = t.labels ++ [t.fold.applyText entry.1] := by
        rw [labels, hentries, List.map_append, List.map_singleton]
        rfl
      have hrest := ih t'
      rw [hlabels, hfold, List.append_assoc] at hrest
      rw [hinsert]
      exact hrest

theorem detects_build (fold : CaseFold) (source : List (String × V)) :
    Detects (build fold source) (source.map fun entry => fold.applyText entry.1) :=
  detects_foldlM_insert source (empty fold)

end Table

/-- **Duplicates are detected exactly.** A table can be built of labels that are pairwise distinct
once folded, and then holds them folded, in order and with their payloads. Otherwise the error names
the first duplicate; neither payloads nor what comes behind the duplicate have a part in it. Labels,
members of an enumeration and lists of labels are compiled exactly where the table can be built, and
fail with the same error. -/
theorem duplicates_detected {V : Type u} {W : Type v} (fold : CaseFold)
    (source : List (String × V)) :
    Detects (Table.build fold source) (source.map fun entry => fold.applyText entry.1) ∧
    (∀ table, Table.build fold source = .ok table → table.fold = fold ∧
      table.entries.toList = source.map fun entry => ⟨fold.applyText entry.1, entry.2⟩) ∧
    (∀ label first duplicate,
      Table.build fold source = .error (.duplicateKey label first duplicate) →
        ∀ other : List (String × W),
          (other.map Prod.fst).take (duplicate + 1) = (source.map Prod.fst).take (duplicate + 1) →
          Table.build fold other = .error (.duplicateKey label first duplicate)) ∧
    (∀ options : Options, Detects (compile options source)
      (source.map fun entry => options.fold.applyText entry.1)) ∧
    (∀ (options : Options) (variants : List (Variant × V)),
      Detects (compileVariants options variants) (variants.map fun entry =>
        options.fold.applyText (entry.1.description.getD entry.1.name))) ∧
    ∀ (options : Options) (labels : List String),
      Detects (compileIndexed options labels) (labels.map options.fold.applyText) := by
  refine ⟨Table.detects_build fold source, fun table hbuild => ?_, ?_, fun options => ?_,
    fun options variants => ?_, fun options labels => ?_⟩
  · exact ⟨Table.fold_of_build_eq_ok hbuild, Table.entries_of_build_eq_ok hbuild⟩
  · intro label first duplicate herror other htake
    have hfirst := ((Table.detects_build fold source).error_iff label first duplicate).1 herror
    refine ((Table.detects_build fold other).error_iff label first duplicate).2
      (hfirst.of_take_eq ?_)
    have hfolded := congrArg (List.map fold.applyText) htake
    rwa [List.map_take, List.map_take, List.map_map, List.map_map] at hfolded
  · exact (Table.detects_build options.fold source).map _
  · have hbuild := Table.detects_build options.fold
      (variants.map fun entry => (entry.1.label, entry.2))
    rw [List.map_map] at hbuild
    exact hbuild.map _
  · have hbuild := Table.detects_build options.fold labels.zipIdx
    have hlabels : (labels.zipIdx.map fun entry => options.fold.applyText entry.1) =
        labels.map options.fold.applyText := by
      conv_rhs => rw [← List.zipIdx_map_fst 0 labels, List.map_map]
      rfl
    rw [hlabels] at hbuild
    exact hbuild.map _

/-- Of two labels that occur twice the one that is repeated first is named, though it is not the
first in the list; other payloads and another end of the list change nothing. -/
theorem duplicates_detected_interleaved :
    Table.build .ignoreCase [("a", 0), ("b", 1), ("B", 2), ("A", 3)] =
      .error (.duplicateKey "B" 1 2) ∧
    Table.build .ignoreCase [("a", true), ("b", true), ("B", false)] =
      .error (.duplicateKey "B" 1 2) := by
  let source : List (String × Nat) := [("a", 0), ("b", 1), ("B", 2), ("A", 3)]
  obtain ⟨hdetects, -, hsame, -⟩ := duplicates_detected (W := Bool) .ignoreCase source
  have hfirst : IsFirstDuplicate
      (source.map fun entry => CaseFold.ignoreCase.applyText entry.1) "B" 1 2 :=
    ⟨by decide +kernel, by decide +kernel, by decide +kernel, by decide +kernel,
      by decide +kernel⟩
  have herror := (hdetects.error_iff "B" 1 2).2 hfirst
  exact ⟨herror, hsame _ _ _ herror _ rfl⟩

end Lexicon
