/-!
# Bisection

The search for a character in a list of characters by halving. `position? c keys` compares `c` with
the character in the middle. If that one is above `c`, as many of the first characters are kept as
the second half has, else the second half is; so the list shrinks to a single character, which is
`c` or not.

A position that is found always holds the character (`getElem?_position?`). In an ascending list
every character of the list is found (`position?_eq_some_iff`); in others a character may be missed.
-/

namespace Lexicon.Bisection

/-- The position of a character, with the first of the list at position `base`. -/
def positionFrom? (c : Char) (base : Nat) (keys : List Char) : Option Nat :=
  if _h : keys.length < 2 then
    if keys.head? = some c then some base else none
  else if c < keys[keys.length / 2] then
    positionFrom? c base (keys.take (keys.length - keys.length / 2))
  else
    positionFrom? c (base + keys.length / 2) (keys.drop (keys.length / 2))
termination_by keys.length
decreasing_by
  all_goals simp only [List.length_take, List.length_drop]
  all_goals omega

/-- The position of a character. -/
def position? (c : Char) (keys : List Char) : Option Nat :=
  positionFrom? c 0 keys

private theorem getElem?_positionFrom? {c : Char} {base : Nat} {keys : List Char} {i : Nat}
    (h : positionFrom? c base keys = some i) : base ≤ i ∧ keys[i - base]? = some c := by
  fun_induction positionFrom? c base keys with
  | case1 base keys hlen hhead =>
    obtain rfl := Option.some.inj h
    simpa [List.head?_eq_getElem?] using hhead
  | case2 => simp at h
  | case3 base keys hlen habove ih =>
    obtain ⟨hle, hget⟩ := ih h
    rw [List.getElem?_take] at hget
    split at hget
    · exact ⟨hle, hget⟩
    · simp at hget
  | case4 base keys hlen hbelow ih =>
    obtain ⟨hle, hget⟩ := ih h
    rw [List.getElem?_drop] at hget
    exact ⟨by omega, by rw [← hget]; congr 1; omega⟩

/-- What is found is there. -/
theorem getElem?_position? {c : Char} {keys : List Char} {i : Nat}
    (h : position? c keys = some i) : keys[i]? = some c := by
  simpa using (getElem?_positionFrom? h).2

private theorem isSome_positionFrom? {c : Char} {base : Nat} {keys : List Char}
    (hasc : keys.Pairwise (· < ·)) (hc : c ∈ keys) : (positionFrom? c base keys).isSome := by
  fun_induction positionFrom? c base keys with
  | case1 => rfl
  | case2 base keys hlen hhead =>
    match keys, hlen with
    | [], _ => simp at hc
    | [key], _ => simp at hc hhead; exact absurd hc.symm hhead
  | case3 base keys hlen habove ih =>
    refine ih (hasc.sublist (List.take_sublist ..)) ?_
    obtain ⟨i, hi, rfl⟩ := List.mem_iff_getElem.1 hc
    have hlt : i < keys.length / 2 := by
      rcases Nat.lt_trichotomy i (keys.length / 2) with h | h | h
      · exact h
      · subst h; exact absurd habove (Char.lt_irrefl _)
      · exact absurd habove (Char.lt_asymm (List.pairwise_iff_getElem.1 hasc _ _ (by omega) hi h))
    exact List.mem_take_iff_getElem.2 ⟨i, by omega, rfl⟩
  | case4 base keys hlen hbelow ih =>
    refine ih (hasc.sublist (List.drop_sublist ..)) ?_
    obtain ⟨i, hi, rfl⟩ := List.mem_iff_getElem.1 hc
    have hle : keys.length / 2 ≤ i := by
      rcases Nat.lt_or_ge i (keys.length / 2) with h | h
      · exact absurd (List.pairwise_iff_getElem.1 hasc _ _ hi (by omega) h) hbelow
      · exact h
    exact List.mem_drop_iff_getElem.2 ⟨i - keys.length / 2, by omega, by congr 1; omega⟩

/-- In an ascending list exactly the characters of the list are found, each where it is. -/
theorem position?_eq_some_iff {c : Char} {keys : List Char} (hasc : keys.Pairwise (· < ·))
    {i : Nat} : position? c keys = some i ↔ keys[i]? = some c := by
  refine ⟨getElem?_position?, fun h => ?_⟩
  obtain ⟨j, hj⟩ := Option.isSome_iff_exists.1
    (isSome_positionFrom? hasc (List.mem_of_getElem? h) : (position? c keys).isSome)
  obtain ⟨hi, hci⟩ := List.getElem?_eq_some_iff.1 h
  obtain ⟨hj', hcj⟩ := List.getElem?_eq_some_iff.1 (getElem?_position? hj)
  rw [List.pairwise_iff_getElem] at hasc
  rcases Nat.lt_trichotomy i j with hlt | rfl | hlt
  · exact absurd (hasc i j hi hj' hlt) (by rw [hci, hcj]; exact Char.lt_irrefl c)
  · exact hj
  · exact absurd (hasc j i hj' hi hlt) (by rw [hci, hcj]; exact Char.lt_irrefl c)

end Lexicon.Bisection
