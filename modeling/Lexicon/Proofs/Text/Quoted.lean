import Lexicon.Proofs.Source.Scanning
import Lexicon.Proofs.Text.Layout
import Lexicon.Text.Quoted
import Mathlib.Logic.Function.Basic

/-!
# Literals can be read back

Whichever characters are written as themselves, the form of a character in a literal tells where it
ends and which character it stands for: `decode` reads it off what begins with it
(`decode_encode_append`). So no two texts have the same literal. All literals stay on one line.
-/

namespace Lexicon

open Source (Scan)

namespace Text.Quoted

variable {alone : Char → Bool} {delimiter : Char}

/-! ### Characters -/

/-- The character that stands behind `\u`, and what follows it. -/
def decodeCodePoint : List Char → Option (Char × List Char)
  | '\x7b' :: cs =>
    match (Scan.code none).scanChars (cs.takeWhile (· ≠ '\x7d')), cs.dropWhile (· ≠ '\x7d') with
    | ([], .code (some n)), _ :: rest => some (Char.ofNat n, rest)
    | _, _ => none
  | _ => none

/-- The first character of the content of a literal, and what follows it. -/
def decode : List Char → Option (Char × List Char)
  | '\\' :: 'u' :: rest => decodeCodePoint rest
  | '\\' :: c :: rest => (Scan.escaped? c).map fun d => (d, rest)
  | c :: rest => some (c, rest)
  | [] => none

/-- Neither a brace nor a line break is a hexadecimal digit. -/
private theorem ne_of_mem_toDigits {n : Nat} {c : Char} (h : c ∈ Nat.toDigits 16 n) :
    c ≠ '\x7d' ∧ c ≠ '\n' := by
  have hall : ∀ k : Fin 16, Nat.digitChar k ≠ '\x7d' ∧ Nat.digitChar k ≠ '\n' := by decide
  obtain ⟨k, hk, rfl⟩ := Scan.exists_digitChar_of_mem_toDigits (by decide) h
  exact hall ⟨k, hk⟩

private theorem decode_codePoint_append (c : Char) (rest : List Char) :
    decode (codePoint c ++ rest) = some (c, rest) := by
  have hdigits : ∀ d ∈ Nat.toDigits 16 c.toNat, decide (d ≠ '\x7d') = true := fun d hd => by
    simpa using (ne_of_mem_toDigits hd).1
  change decodeCodePoint ('\x7b' :: (Nat.toDigits 16 c.toNat ++ ['\x7d'] ++ rest)) = _
  rw [List.append_assoc, decodeCodePoint, List.takeWhile_append_of_pos hdigits,
    List.dropWhile_append_of_pos hdigits]
  simp [Scan.scanChars_code_toDigits]

/-- The form of a character is read as the character, whatever follows it. -/
theorem decode_encode_append (h : Scan.escaped? delimiter = some delimiter) (c : Char)
    (rest : List Char) : decode (encode alone delimiter c ++ rest) = some (c, rest) := by
  have hu : delimiter ≠ 'u' := by
    rintro rfl
    exact absurd h (by decide)
  unfold encode
  split_ifs with hzero htab hreturn hline hbackslash hdelimiter halone
  · rw [hzero]; rfl
  · rw [htab]; rfl
  · rw [hreturn]; rfl
  · rw [hline]; rfl
  · rw [hbackslash]; rfl
  · rw [hdelimiter]
    change decode ('\\' :: delimiter :: rest) = _
    rw [decode, h]
    · rfl
    · exact hu
  · change decode (c :: rest) = _
    rw [decode]
    · rintro _ heq
      exact absurd heq hbackslash
    · rintro _ _ heq
      exact absurd heq hbackslash
  · exact decode_codePoint_append c rest

/-- No form of a character has a line break. -/
theorem newline_notMem_encode (h : delimiter ≠ '\n') (c : Char) :
    '\n' ∉ encode alone delimiter c := by
  unfold encode
  split_ifs with hzero htab hreturn hline hbackslash hdelimiter halone
  · decide
  · decide
  · decide
  · decide
  · decide
  · simpa using h.symm
  · simpa using Ne.symm hline
  · have hdigits : '\n' ∉ Nat.toDigits 16 c.toNat := fun hmem => (ne_of_mem_toDigits hmem).2 rfl
    simp [codePoint, hdigits]

/-! ### Literals -/

/-- Literals with the same content are literals of the same text. -/
theorem flatMap_encode_injective (h : Scan.escaped? delimiter = some delimiter) :
    Function.Injective (List.flatMap (encode alone delimiter)) := by
  have hne : ∀ c rest, encode alone delimiter c ++ rest ≠ [] := fun c rest hnil => by
    have hread : decode (encode alone delimiter c ++ rest) = some (c, rest) :=
      decode_encode_append h c rest
    rw [hnil] at hread
    exact Option.some_ne_none _ hread.symm
  intro cs
  induction cs with
  | nil =>
    rintro (_ | ⟨d, ds⟩) heq
    · rfl
    · exact absurd heq.symm (hne d _)
  | cons c cs ih =>
    rintro (_ | ⟨d, ds⟩) heq
    · exact absurd heq (hne c _)
    · -- what is read off both is the first character and the rest of the content
      have hread := congrArg decode heq
      rw [List.flatMap_cons, List.flatMap_cons, decode_encode_append h, decode_encode_append h,
        Option.some.injEq, Prod.mk.injEq] at hread
      rw [hread.1, ih hread.2]

theorem literal_injective (h : Scan.escaped? delimiter = some delimiter) :
    Function.Injective (literal alone delimiter) := fun _ _ heq =>
  flatMap_encode_injective h (List.append_cancel_right (List.cons.inj heq).2)

theorem oneLine_literal (h : delimiter ≠ '\n') (cs : List Char) :
    OneLine (String.ofList (literal alone delimiter cs)) := by
  simp [OneLine, literal, h.symm, newline_notMem_encode h]

end Text.Quoted

namespace Text

theorem oneLine_quoteCharBy (alone : Char → Bool) (c : Char) : OneLine (quoteCharBy alone c) :=
  Quoted.oneLine_literal (by decide) _

theorem oneLine_quoteStringBy (alone : Char → Bool) (s : String) :
    OneLine (quoteStringBy alone s) :=
  Quoted.oneLine_literal (by decide) _

theorem quoteStringBy_injective (alone : Char → Bool) :
    Function.Injective (quoteStringBy alone) := fun _ _ heq =>
  String.toList_inj.1 (Quoted.literal_injective rfl (String.ofList_injective heq))

end Text

end Lexicon
