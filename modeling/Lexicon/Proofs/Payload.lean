import Lexicon.Payload
import Lexicon.Proofs.Text.Quoted

/-!
# Payloads are told apart by their quoted form

Numbers are written with digits and a sign, texts between quotation marks and truth values as words,
so that the forms of different kinds differ (`Payload.quotedBy_injective`). All of them stay on one
line (`Payload.oneLine_quotedBy`). Both hold whichever characters are written as themselves.
-/

namespace Lexicon.Payload

private theorem isDigit_of_mem_repr {n : Nat} {c : Char} (h : c ∈ n.repr.toList) : c.isDigit := by
  rw [Nat.toList_repr] at h
  exact Nat.isDigit_of_mem_toDigits (by decide) (by decide) h

/-- Numbers are written with digits and a sign. -/
private theorem isDigit_or_of_mem_toString {n : Int} {c : Char} (h : c ∈ (toString n).toList) :
    c.isDigit ∨ c = '-' := by
  rw [Int.toString_eq_repr] at h
  cases n with
  | ofNat m => exact .inl (isDigit_of_mem_repr h)
  | negSucc m =>
    rw [Int.repr, String.toList_append, List.mem_append] at h
    exact h.elim (fun hsign => .inr (by simpa using hsign)) fun h => .inl (isDigit_of_mem_repr h)

/-- The digits of a number give it back. -/
private theorem eq_of_repr_eq {m n : Nat} (h : m.repr = n.repr) : m = n := by
  have hdigits : Nat.toDigits 10 m = Nat.toDigits 10 n := by
    rw [← Nat.toList_repr, ← Nat.toList_repr, h]
  calc
    m = Nat.ofDigitChars 10 (Nat.toDigits 10 m) 0 := Nat.ofDigitChars_ten_toDigits.symm
    _ = Nat.ofDigitChars 10 (Nat.toDigits 10 n) 0 := by rw [hdigits]
    _ = n := Nat.ofDigitChars_ten_toDigits

/-- What has a sign is not what has none. -/
private theorem repr_ne_append (m n : Nat) : m.repr ≠ "-" ++ n.repr := fun heq => by
  have hmem : '-' ∈ m.repr.toList := by
    rw [heq, String.toList_append]
    exact List.mem_append_left _ (by decide)
  exact absurd (isDigit_of_mem_repr hmem) (by decide)

/-- Numbers are told apart by their digits and sign. The library says so of `Int.repr`, but not in a
module that can be imported by itself. -/
private theorem eq_of_toString_eq {m n : Int} (h : toString m = toString n) : m = n := by
  rw [Int.toString_eq_repr, Int.toString_eq_repr] at h
  cases m with
  | ofNat m =>
    cases n with
    | ofNat n => exact congrArg Int.ofNat (eq_of_repr_eq h)
    | negSucc n => exact absurd h (repr_ne_append _ _)
  | negSucc m =>
    cases n with
    | ofNat n => exact absurd h.symm (repr_ne_append _ _)
    | negSucc n =>
      have hdigits : (m + 1).repr = (n + 1).repr := (String.append_right_inj "-").1 h
      exact congrArg Int.negSucc (Nat.succ.inj (eq_of_repr_eq hdigits))

theorem quotedBy_int_ne_text (alone : Char → Bool) (n : Int) (s : String) :
    (int n).quotedBy alone ≠ (text s).quotedBy alone := fun heq => by
  have hmem : '\x22' ∈ (toString n).toList := by
    change '\x22' ∈ ((int n).quotedBy alone).toList
    rw [heq, quotedBy, Text.quoteStringBy, String.toList_ofList]
    exact List.mem_cons_self
  exact absurd (isDigit_or_of_mem_toString hmem) (by decide)

theorem quotedBy_int_ne_bool (alone : Char → Bool) (n : Int) (b : Bool) :
    (int n).quotedBy alone ≠ (bool b).quotedBy alone := fun heq => by
  have hmem : 'e' ∈ (toString n).toList := by
    change 'e' ∈ ((int n).quotedBy alone).toList
    rw [heq]
    change 'e' ∈ (toString b).toList
    cases b <;> decide
  exact absurd (isDigit_or_of_mem_toString hmem) (by decide)

theorem quotedBy_text_ne_bool (alone : Char → Bool) (s : String) (b : Bool) :
    (text s).quotedBy alone ≠ (bool b).quotedBy alone := fun heq => by
  have hhead : ((text s).quotedBy alone).toList.head? = some '\x22' := by
    rw [quotedBy, Text.quoteStringBy, String.toList_ofList]
    rfl
  rw [heq] at hhead
  change (toString b).toList.head? = some '\x22' at hhead
  cases b <;> exact absurd hhead (by decide)

/-- Payloads are told apart by their written form. -/
theorem quotedBy_injective (alone : Char → Bool) : Function.Injective (quotedBy alone) := by
  rintro (n | s | b) (m | t | d) heq
  · rw [eq_of_toString_eq heq]
  · exact absurd heq (quotedBy_int_ne_text _ _ _)
  · exact absurd heq (quotedBy_int_ne_bool _ _ _)
  · exact absurd heq.symm (quotedBy_int_ne_text _ _ _)
  · rw [Text.quoteStringBy_injective alone heq]
  · exact absurd heq (quotedBy_text_ne_bool _ _ _)
  · exact absurd heq.symm (quotedBy_int_ne_bool _ _ _)
  · exact absurd heq.symm (quotedBy_text_ne_bool _ _ _)
  · change toString b = toString d at heq
    cases b <;> cases d
    · rfl
    · exact absurd heq (by decide)
    · exact absurd heq (by decide)
    · rfl

theorem oneLine_quotedBy (alone : Char → Bool) (payload : Payload) :
    Text.OneLine (payload.quotedBy alone) := by
  cases payload with
  | int n =>
    intro hmem
    exact absurd (isDigit_or_of_mem_toString hmem) (by decide)
  | text s => exact Text.oneLine_quoteStringBy alone s
  | bool b =>
    change Text.OneLine (toString b)
    cases b <;> decide

end Lexicon.Payload
