import Lexicon.Text.Layout
import Mathlib.Data.List.Basic

/-!
# Lines of a listing

Texts without a line break stay on their line, and are what a listing is made of: taken apart at its
line breaks it gives back its lines (`Line.splitOn_renderAll`).
-/

namespace Lexicon.Text

universe u v w

/-- There is no line break in the text. -/
def OneLine (s : String) : Prop := '\n' ∉ s.toList

instance (s : String) : Decidable (OneLine s) := inferInstanceAs (Decidable ('\n' ∉ s.toList))

namespace OneLine

theorem append {s t : String} (hs : OneLine s) (ht : OneLine t) : OneLine (s ++ t) := by
  rw [OneLine, String.toList_append, List.mem_append]
  exact not_or.2 ⟨hs, ht⟩

theorem intercalate {separator : String} {texts : List String} (hseparator : OneLine separator)
    (h : ∀ s ∈ texts, OneLine s) : OneLine (separator.intercalate texts) := by
  induction texts with
  | nil => exact List.not_mem_nil
  | cons s rest ih =>
    cases rest with
    | nil => exact h s (by simp)
    | cons t rest =>
      rw [String.intercalate_cons_cons]
      exact ((h s (by simp)).append hseparator).append (ih fun u hu => h u (by simp [hu]))

theorem toString (n : Nat) : OneLine (toString n) := by
  rw [OneLine, Nat.toString_eq_repr, Nat.toList_repr]
  exact fun hmem => absurd (Nat.isDigit_of_mem_toDigits (by decide) (by decide) hmem) (by decide)

end OneLine

/-- Texts that are closed by a mark that none of them has are what stands between the marks. -/
theorem splitOn_flatMap_concat {α : Type u} {β : Type v} [BEq β] [LawfulBEq β] {mark : β}
    {xs : List α} {text : α → List β} (h : ∀ x ∈ xs, mark ∉ text x) :
    (xs.flatMap fun x => text x ++ [mark]).splitOn mark = xs.map text ++ [[]] := by
  induction xs with
  | nil => rfl
  | cons x rest ih =>
    rw [List.flatMap_cons, List.append_assoc, List.singleton_append,
      List.splitOn_append_cons_self_of_not_mem (h x (by simp)), ih fun y hy => h y (by simp [hy])]
    rfl

namespace Line

theorem toList_renderAll_cons (width : Nat) (line : Line) (rest : List Line) :
    (renderAll width (line :: rest)).toList =
      (List.replicate (width * line.depth) ' ' ++ line.text.toList) ++
        '\n' :: (renderAll width rest).toList := by
  rw [renderAll, List.map_cons, String.join_cons, String.toList_append, render,
    String.toList_append, String.toList_append, String.toList_ofList, List.append_assoc]
  rfl

/-- A line has no line break in front of the one that ends it. -/
theorem newline_notMem {line : Line} (h : OneLine line.text) (width : Nat) :
    '\n' ∉ List.replicate (width * line.depth) ' ' ++ line.text.toList := by
  rw [List.mem_append]
  exact not_or.2 ⟨by simp, h⟩

theorem toList_renderAll (width : Nat) (lines : List Line) :
    (renderAll width lines).toList = lines.flatMap fun line =>
      (List.replicate (width * line.depth) ' ' ++ line.text.toList) ++ ['\n'] := by
  induction lines with
  | nil => rfl
  | cons line rest ih =>
    rw [toList_renderAll_cons, ih, List.flatMap_cons, List.append_assoc _ ['\n']]
    rfl

/-- Lines are what stands between line breaks; the last one is closed as well. -/
theorem splitOn_renderAll {lines : List Line} (h : ∀ line ∈ lines, OneLine line.text)
    (width : Nat) : (renderAll width lines).toList.splitOn '\n' =
      (lines.map fun line => List.replicate (width * line.depth) ' ' ++ line.text.toList) ++
        [[]] := by
  rw [toList_renderAll]
  exact splitOn_flatMap_concat fun line hline => newline_notMem (h line hline) width

/-- There are as many line breaks as lines. -/
theorem count_renderAll {lines : List Line} (h : ∀ line ∈ lines, OneLine line.text) (width : Nat) :
    (renderAll width lines).toList.count '\n' = lines.length := by
  induction lines with
  | nil => rfl
  | cons line rest ih =>
    have hline := List.count_eq_zero.2 (newline_notMem (h line (by simp)) width)
    rw [toList_renderAll_cons, List.count_append, hline, List.count_cons_self,
      ih fun l hl => h l (by simp [hl]), Nat.zero_add, List.length_cons]

/-- Behind the last line there is nothing. -/
theorem getLast?_renderAll {lines : List Line} (h : lines ≠ []) (width : Nat) :
    (renderAll width lines).toList.getLast? = some '\n' := by
  induction lines with
  | nil => exact absurd rfl h
  | cons line rest ih =>
    rw [toList_renderAll_cons, List.getLast?_append]
    cases rest with
    | nil => rfl
    | cons next rest =>
      have hrest := ih (List.cons_ne_nil next rest)
      rw [List.getLast?_cons, hrest]
      rfl

end Line

/-- What is read off each of some texts is read off all of them. -/
theorem mapM_map_eq_some {α : Type u} {β : Type v} {γ : Type w} {xs : List α}
    {text : α → β} {read : β → Option γ} (value : α → γ)
    (h : ∀ x ∈ xs, read (text x) = some (value x)) :
    (xs.map text).mapM read = some (xs.map value) := by
  induction xs with
  | nil => rfl
  | cons x rest ih =>
    rw [List.map_cons, List.mapM_cons, h x (by simp), ih fun y hy => h y (by simp [hy])]
    rfl

end Lexicon.Text
