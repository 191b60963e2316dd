import Lexicon.CaseFold

/-!
# Label tables

A table holds the labels of a set with what each stands for, folded, in input order, and no label
twice. It is filled entry by entry; the first entry whose folded label is already there ends the
attempt with an error that names both positions.
-/

namespace Lexicon

universe u

variable {V : Type u}

/-- Why no table could be built. -/
inductive BuildError where
  /-- The entry at position `duplicate` has the same folded `label` as the one at `first`. -/
  | duplicateKey (label : String) (first duplicate : Nat)
deriving DecidableEq

/-- The wording of the error. -/
def BuildError.message : BuildError → String
  | duplicateKey label first duplicate =>
    s!"duplicate key '{label}': entry {duplicate} collides with entry {first}"

/-- A member of an enumeration: its name, and a description that may take the name's place. -/
structure Variant where
  name : String
  description : Option String
deriving DecidableEq

/-- What the member is matched by: its description if it has one, else its name. -/
def Variant.label (variant : Variant) : String :=
  variant.description.getD variant.name

/-- A folded label and what it stands for. -/
structure Entry (V : Type u) where
  label : String
  payload : V
deriving DecidableEq

/-- Labels with their payloads, folded and pairwise distinct. -/
structure Table (V : Type u) where
  /-- The fold under which the labels are distinct. -/
  fold : CaseFold
  /-- The entries, in input order. -/
  entries : Array (Entry V)
  nodup : (entries.toList.map Entry.label).Nodup

namespace Table

/-- A table without entries. -/
def empty (fold : CaseFold) : Table V := ⟨fold, #[], by simp⟩

/-- The number of entries. -/
def size (t : Table V) : Nat := t.entries.size

/-- Whether there are no entries. -/
def isEmpty (t : Table V) : Bool := t.entries.isEmpty

/-- The folded labels, in input order. -/
def labels (t : Table V) : List String := t.entries.toList.map Entry.label

/-- The position of a folded label. -/
def position? (t : Table V) (label : String) : Option Nat :=
  t.entries.findIdx? (·.label = label)

theorem not_mem_labels_of_position? {t : Table V} {label : String}
    (h : t.position? label = none) : label ∉ t.labels := by
  simp only [position?, Array.findIdx?_eq_none_iff, decide_eq_false_iff_not] at h
  simp only [labels, List.mem_map, not_exists, not_and]
  intro entry hmem
  exact h entry (by simpa using hmem)

/-- The table with one more entry at its end, unless its folded label is taken. -/
def insert (t : Table V) (label : String) (payload : V) : Except BuildError (Table V) :=
  let folded := t.fold.applyText label
  match h : t.position? folded with
  | some first => .error (.duplicateKey folded first t.size)
  | none => .ok {
      t with
      entries := t.entries.push ⟨folded, payload⟩
      nodup := by
        have hnew := not_mem_labels_of_position? h
        rw [Array.toList_push, List.map_append, List.nodup_append]
        refine ⟨t.nodup, by simp, ?_⟩
        rintro a ha b hb rfl
        simp only [List.map_cons, List.map_nil, List.mem_singleton] at hb
        exact hnew (hb ▸ ha) }

/-- The table of a list of labels with their payloads. -/
def build (fold : CaseFold) (source : List (String × V)) : Except BuildError (Table V) :=
  source.foldlM (fun t entry => t.insert entry.1 entry.2) (empty fold)

/-- The table of the members of an enumeration. -/
def ofVariants (fold : CaseFold) (source : List (Variant × V)) : Except BuildError (Table V) :=
  build fold (source.map fun entry => (entry.1.label, entry.2))

/-- The table of a list of labels, each standing for its position. -/
def indexed (fold : CaseFold) (source : List String) : Except BuildError (Table Nat) :=
  build fold source.zipIdx

@[simp] theorem length_labels (t : Table V) : t.labels.length = t.size := by
  simp [labels, size]

end Table

end Lexicon
