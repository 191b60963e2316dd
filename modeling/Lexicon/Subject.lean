/-!
# Subjects

What can be matched: anything that is a finite sequence of characters. Lengths and offsets count
characters, whatever the representation.
-/

namespace Lexicon

/-- A type whose values are sequences of characters. -/
class Subject (α : Type) where
  /-- The characters, from offset 0 on. -/
  chars : α → List Char

namespace Subject

/-- The number of characters. -/
def length {α : Type} [Subject α] (input : α) : Nat :=
  (chars input).length

instance : Subject String := ⟨String.toList⟩

instance : Subject (List Char) := ⟨id⟩

instance : Subject (Array Char) := ⟨Array.toList⟩

@[simp] theorem chars_string (s : String) : chars s = s.toList := rfl

@[simp] theorem chars_list (cs : List Char) : chars cs = cs := rfl

@[simp] theorem chars_array (cs : Array Char) : chars cs = cs.toList := rfl

end Subject

end Lexicon
