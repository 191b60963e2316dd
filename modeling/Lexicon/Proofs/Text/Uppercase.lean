import Lexicon.CaseFold
import Mathlib.Data.Nat.ModEq

/-!
# Uppercase forms are their own uppercase forms

The code points to which a span leads are spaced as those of the span, from `image` on. They are told
apart from the code points of any span by where both lie, or by their remainders, so that pairs of
spans are compared and not pairs of characters (`CaseSpan.avoids`). No span leads into any other, nor
into itself, so simple uppercase forms and folded texts stay as they are when they are taken again
(`CaseFold.applyText_applyText`).
-/

namespace Lexicon

namespace Text

namespace CaseSpan

/-- Whether the code points of the span lie whole multiples of `n` apart. -/
def isSpacedBy (s : CaseSpan) (n : Nat) : Bool :=
  s.step % n == 0 || s.last == s.first

/-- Whether no uppercase form that the span gives is covered by `t`: all of them lie in front of `t`
or behind it, or they leave another remainder. -/
def avoids (s t : CaseSpan) : Bool :=
  (s.shift s.last).blt t.first || t.last.blt s.image ||
    s.isSpacedBy t.step && s.image % t.step != t.first % t.step

/-- The uppercase forms are characters: they lie on one side of the surrogates. -/
def HasCharImages (s : CaseSpan) : Prop :=
  s.shift s.last < 0xd800 ∨ 0xdfff < s.image ∧ s.shift s.last < 0x110000

instance (s : CaseSpan) : Decidable s.HasCharImages :=
  inferInstanceAs (Decidable (_ ∨ _ ∧ _))

variable {s t : CaseSpan} {code : Nat}

theorem covers_iff : s.covers code ↔ s.first ≤ code ∧ code ≤ s.last ∧ s.step ∣ code - s.first := by
  simp [covers, Nat.dvd_iff_mod_eq_zero, and_assoc]

theorem image_le_shift (s : CaseSpan) (code : Nat) : s.image ≤ s.shift code :=
  Nat.le_add_right _ _

theorem shift_le_shift_last (h : s.covers code) : s.shift code ≤ s.shift s.last := by
  obtain ⟨-, hlast, -⟩ := covers_iff.1 h
  exact Nat.add_le_add_left (Nat.sub_le_sub_right hlast _) _

theorem dvd_of_isSpacedBy {n : Nat} (h : s.isSpacedBy n) (hs : s.covers code) :
    n ∣ code - s.first := by
  obtain ⟨hfirst, hlast, hstep⟩ := covers_iff.1 hs
  rw [isSpacedBy, Bool.or_eq_true, beq_iff_eq, beq_iff_eq] at h
  rcases h with hmod | hsingle
  · exact (Nat.dvd_of_mod_eq_zero hmod).trans hstep
  · have hzero : code - s.first = 0 := by omega
    rw [hzero]
    exact Nat.dvd_zero n

theorem not_covers_shift (hs : s.covers code) (h : s.avoids t) : ¬ t.covers (s.shift code) := by
  intro ht
  obtain ⟨hfirst, hlast, hstep⟩ := covers_iff.1 ht
  have himage := s.image_le_shift code
  have hshift := shift_le_shift_last hs
  simp only [avoids, Bool.or_eq_true, Bool.and_eq_true, Nat.blt_eq, bne_iff_ne] at h
  rcases h with (hfront | hbehind) | ⟨hspaced, hne⟩
  · omega
  · omega
  · -- whole steps lead from the image of `s` and from the first of `t` to the same code point
    have himage_mod : s.image ≡ s.shift code [MOD t.step] :=
      (Nat.modEq_iff_dvd' himage).2 (by simpa [shift] using dvd_of_isSpacedBy hspaced hs)
    have hfirst_mod : t.first ≡ s.shift code [MOD t.step] := (Nat.modEq_iff_dvd' hfirst).2 hstep
    exact hne (himage_mod.trans hfirst_mod.symm)

theorem toNat_ofNat_shift (hs : s.covers code) (h : s.HasCharImages) :
    (Char.ofNat (s.shift code)).toNat = s.shift code := by
  have himage := s.image_le_shift code
  have hshift := shift_le_shift_last hs
  have hvalid : (s.shift code).isValidChar := by
    rcases h with hlow | ⟨hhigh, hlast⟩
    · exact .inl (by omega)
    · exact .inr ⟨by omega, by omega⟩
  rw [Char.ofNat, dif_pos hvalid]
  rfl

end CaseSpan

namespace Uppercase

/-- An uppercase form that is looked up is longer than one character. -/
theorem length_ne_one_of_lookup_eq_some {code : Nat} {form : List Nat}
    (h : expansions.lookup code = some form) : form.length ≠ 1 := by
  obtain ⟨front, back, hexpansions, -⟩ := List.lookup_eq_some_iff.1 h
  have hmem : (code, form) ∈ expansions := by
    rw [hexpansions]
    exact List.mem_append_right front List.mem_cons_self
  rcases length_of_mem_expansions _ hmem with htwo | hthree
  · rw [htwo]; decide
  · rw [hthree]; decide

theorem all_spans_avoids : (spans.all fun s => spans.all s.avoids) = true := by decide +kernel

/-- No character that has an uppercase form is the uppercase form of one. -/
theorem avoids_of_mem_spans {s t : CaseSpan} (hs : s ∈ spans) (ht : t ∈ spans) : s.avoids t :=
  List.all_eq_true.1 (List.all_eq_true.1 all_spans_avoids s hs) t ht

theorem hasCharImages_of_mem_spans : ∀ s ∈ spans, s.HasCharImages := by decide +kernel

end Uppercase

/-- A character stands for itself unless a span gives it its form. -/
theorem simpleUppercase_eq_or (c : Char) :
    simpleUppercase c = c ∨
      ∃ s ∈ Uppercase.spans, s.covers c.toNat ∧
        simpleUppercase c = Char.ofNat (s.shift c.toNat) := by
  unfold simpleUppercase
  split
  · rename_i u huppercase
    rw [uppercase] at huppercase
    split at huppercase
    · rename_i form hform
      have hlength : form.length = 1 := by simpa using congrArg List.length huppercase
      exact absurd hlength (Uppercase.length_ne_one_of_lookup_eq_some hform)
    · split at huppercase
      · rename_i s hs
        refine .inr ⟨s, List.mem_of_find?_eq_some hs, ?_, ?_⟩
        · simpa using List.find?_some hs
        · exact (List.cons.inj huppercase).1.symm
      · exact .inl (List.cons.inj huppercase).1.symm
  · exact .inl rfl

/-- What no span covers stands for itself. -/
theorem simpleUppercase_of_not_covers {c : Char}
    (h : ∀ s ∈ Uppercase.spans, ¬ s.covers c.toNat) : simpleUppercase c = c := by
  rcases simpleUppercase_eq_or c with heq | ⟨s, hmem, hcovers, -⟩
  · exact heq
  · exact absurd hcovers (h s hmem)

/-- The simple uppercase form is its own. -/
@[simp] theorem simpleUppercase_simpleUppercase (c : Char) :
    simpleUppercase (simpleUppercase c) = simpleUppercase c := by
  rcases simpleUppercase_eq_or c with heq | ⟨s, hmem, hcovers, heq⟩
  · rw [heq, heq]
  · rw [heq]
    refine simpleUppercase_of_not_covers fun t ht => ?_
    rw [CaseSpan.toNat_ofNat_shift hcovers (Uppercase.hasCharImages_of_mem_spans s hmem)]
    exact CaseSpan.not_covers_shift hcovers (Uppercase.avoids_of_mem_spans hmem ht)

end Text

namespace CaseFold

@[simp] theorem apply_apply (fold : CaseFold) (c : Char) :
    fold.apply (fold.apply c) = fold.apply c := by
  cases fold with
  | ordinal => rfl
  | ignoreCase => simp only [apply_ignoreCase, Text.simpleUppercase_simpleUppercase]

/-- A folded text is folded. -/
@[simp] theorem applyText_applyText (fold : CaseFold) (s : String) :
    fold.applyText (fold.applyText s) = fold.applyText s := by
  rw [← String.toList_inj, toList_applyText, toList_applyText, List.map_map]
  exact List.map_congr_left fun c _ => apply_apply fold c

end CaseFold

end Lexicon
