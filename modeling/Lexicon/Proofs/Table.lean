import Lexicon.Table
import Mathlib.Data.List.Basic

/-!
# The contents of a table

An attempt to build a table that succeeds keeps every entry, folded and in order
(`entries_of_build_eq_ok`).
-/

namespace Lexicon.Table

universe u

variable {V : Type u}

/-- The entry of a label that comes with its payload, once folded. -/
def foldedEntry (fold : CaseFold) (entry : String × V) : Entry V :=
  ⟨fold.applyText entry.1, entry.2⟩

/-- Where the attempt to build a table succeeds there is a table. -/
theorem exists_of_isOk {fold : CaseFold} {source : List (String × V)}
    (h : (build fold source).isOk) : ∃ table, build fold source = .ok table := by
  cases hbuild : build fold source with
  | error e =>
    rw [hbuild] at h
    exact absurd h Bool.false_ne_true
  | ok table => exact ⟨table, rfl⟩

/-- One more entry leaves the table as it was in front. -/
theorem of_insert_eq_ok {t t' : Table V} {label : String} {payload : V}
    (h : t.insert label payload = .ok t') :
    t'.fold = t.fold ∧
      t'.entries.toList = t.entries.toList ++ [foldedEntry t.fold (label, payload)] := by
  unfold insert at h
  dsimp only at h
  split at h
  · simp at h
  · obtain rfl := Except.ok.inj h
    exact ⟨rfl, Array.toList_push⟩

private theorem of_foldlM_insert_eq_ok {source : List (String × V)} {t t' : Table V}
    (h : source.foldlM (fun t entry => t.insert entry.1 entry.2) t = .ok t') :
    t'.fold = t.fold ∧ t'.entries.toList = t.entries.toList ++ source.map (foldedEntry t.fold) := by
  induction source generalizing t with
  | nil =>
    obtain rfl := Except.ok.inj h
    simp
  | cons entry rest ih =>
    rw [List.foldlM_cons] at h
    cases hinsert : t.insert entry.1 entry.2 with
    | error e =>
      rw [hinsert] at h
      exact absurd h (by simp [bind, Except.bind])
    | ok t₁ =>
      rw [hinsert] at h
      obtain ⟨hfold, hentries⟩ := of_insert_eq_ok hinsert
      obtain ⟨hfold', hentries'⟩ := ih h
      rw [hfold', hentries', hentries, hfold, List.map_cons, List.append_assoc]
      exact ⟨rfl, rfl⟩

theorem fold_of_build_eq_ok {fold : CaseFold} {source : List (String × V)} {table : Table V}
    (h : build fold source = .ok table) : table.fold = fold :=
  (of_foldlM_insert_eq_ok h).1

/-- A table that was built holds the entries it was built from, with their labels folded. -/
theorem entries_of_build_eq_ok {fold : CaseFold} {source : List (String × V)} {table : Table V}
    (h : build fold source = .ok table) :
    table.entries.toList = source.map (foldedEntry fold) :=
  (of_foldlM_insert_eq_ok h).2

end Lexicon.Table
