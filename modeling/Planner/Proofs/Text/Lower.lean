import Mathlib.Tactic
import Planner.Text.Fold
import Planner.Text.LowerCase

/-! The lower case of a text that stands in another one. It is the same as that of the text alone
but for the capital sigmas, whose form hangs on whether they end a word. -/
namespace Planner.Text

variable {before after before' after' x y s t text : List Char} {c d : Char}

theorem occursIn_iff : occursIn s text = true ↔ s <:+: text := by
  induction text with
  | nil => simp [occursIn]
  | cons c rest ih => simp [occursIn, ih, List.infix_cons_iff]

/-- Whether a sigma is the last letter of its word, `before` being the text in front of it, nearest
character first. -/
def endsWord (before after : List Char) : Bool := meetsCased before && !meetsCased after

/-- The lower case of a character that stands between two texts. -/
def lowerBetween (before after : List Char) (c : Char) : List Char :=
  if c = 'Σ' then [if endsWord before after then 'ς' else 'σ'] else lowerChar c

/-- The lower case of a text that stands between two others. -/
def lowerWithin (before after : List Char) : List Char → List Char
  | [] => []
  | c :: rest => lowerBetween before (rest ++ after) c ++ lowerWithin (c :: before) after rest

theorem lowerAfter_append (before s t : List Char) : lowerAfter before (s ++ t) =
    lowerWithin before t s ++ lowerAfter (s.reverse ++ before) t := by
  induction s generalizing before with
  | nil => rfl
  | cons c rest ih =>
    rw [List.cons_append, lowerAfter, ih, lowerWithin, List.append_assoc, List.reverse_cons,
      List.append_assoc]
    rfl

theorem lower_eq (s : List Char) : lower s = lowerWithin [] [] s := by
  have happend := lowerAfter_append [] s []
  rwa [List.append_nil, lowerAfter, List.append_nil] at happend

theorem length_lowerBetween : (lowerBetween before after c).length =
    (lowerBetween before' after' c).length := by
  unfold lowerBetween
  split_ifs <;> rfl

theorem lowerBetween_sigma_eq_iff : lowerBetween before after 'Σ' = lowerBetween before' after' 'Σ' ↔
    endsWord before after = endsWord before' after' := by
  simp only [lowerBetween, if_true]
  cases endsWord before after <;> cases endsWord before' after' <;> decide

/-- Between other texts the lower case is the same exactly when every sigma has the same form. -/
theorem lowerWithin_eq_iff : lowerWithin before after s = lowerWithin before' after' s ↔
    ∀ x y, s = x ++ 'Σ' :: y →
      endsWord (x.reverse ++ before) (y ++ after) = endsWord (x.reverse ++ before') (y ++ after') := by
  induction s generalizing before before' with
  | nil => simp [lowerWithin]
  | cons c rest ih =>
    have hsplit : lowerWithin before after (c :: rest) = lowerWithin before' after' (c :: rest) ↔
        lowerBetween before (rest ++ after) c = lowerBetween before' (rest ++ after') c ∧
          lowerWithin (c :: before) after rest = lowerWithin (c :: before') after' rest :=
      ⟨fun h => List.append_inj h length_lowerBetween, fun ⟨hc, hrest⟩ => by
        rw [lowerWithin, hc, hrest, lowerWithin]⟩
    rw [hsplit, ih]
    constructor
    · rintro ⟨hc, hrest⟩ x y hxy
      cases x with
      | nil =>
        obtain ⟨rfl, rfl⟩ := List.cons.inj hxy
        exact lowerBetween_sigma_eq_iff.mp hc
      | cons d x =>
        obtain ⟨rfl, rfl⟩ := List.cons.inj hxy
        simpa using hrest x y rfl
    · intro h
      refine ⟨?_, fun x y hxy => ?_⟩
      · by_cases hc : c = 'Σ'
        · subst hc
          exact lowerBetween_sigma_eq_iff.mpr (h [] rest rfl)
        · simp [lowerBetween, hc]
      · simpa using h (c :: x) y (by rw [hxy, List.cons_append])

/-- Whether the sigmas of a text have the same forms where it stands between two others as where it
stands alone. -/
def KeepsForms (before after s : List Char) : Prop :=
  ∀ x y, s = x ++ 'Σ' :: y →
    endsWord (x.reverse ++ before) (y ++ after) = endsWord x.reverse y

theorem keepsForms_iff : KeepsForms before after s ↔ lowerWithin before after s = lower s := by
  rw [lower_eq, lowerWithin_eq_iff]
  simp [KeepsForms]

theorem lower_append (before s after : List Char) : lower (before ++ s ++ after) =
    lowerWithin [] (s ++ after) before ++ lowerWithin before.reverse after s ++
      lowerAfter (s.reverse ++ before.reverse) after := by
  rw [List.append_assoc before, lower, lowerAfter_append, lowerAfter_append, List.append_nil,
    List.append_assoc]

/-- A text whose sigmas keep their forms is found when both texts are in lower case. -/
theorem KeepsForms.infix_lower (h : KeepsForms before.reverse after s) :
    lower s <:+: lower (before ++ s ++ after) := by
  rw [lower_append, keepsForms_iff.mp h]
  exact ⟨_, _, rfl⟩

/-! ### ASCII -/

def IsAscii (s : List Char) : Prop := ∀ c ∈ s, c.toNat < 128

instance (s : List Char) : Decidable (IsAscii s) :=
  List.decidableBAll (fun c : Char => c.toNat < 128) s

/-- A property of the characters of ASCII, checked one by one. -/
theorem forall_ascii {P : Char → Prop} (h : ∀ n < 128, P (Char.ofNat n)) :
    ∀ c : Char, c.toNat < 128 → P c := by
  intro c hc
  rw [← Char.ofNat_toNat c]
  exact h c.toNat hc

theorem ascii_toLower : ∀ c : Char, c.toNat < 128 →
    c.toLower.toNat < 128 ∧ c.toLower.toLower = c.toLower :=
  forall_ascii (by decide +kernel)

/-- ASCII goes to lower case letter by letter. -/
theorem IsAscii.lower_eq (h : IsAscii s) : lower s = s.map Char.toLower := by
  have hwithin : ∀ before after, lowerWithin before after s = s.map Char.toLower := by
    induction s with
    | nil => exact fun _ _ => rfl
    | cons c rest ih =>
      obtain ⟨hc, hrest⟩ := List.forall_mem_cons.mp h
      intro before after
      have hsigma : c ≠ 'Σ' := by
        rintro rfl
        exact absurd hc (by decide)
      rw [lowerWithin, ih hrest, lowerBetween, if_neg hsigma, lowerChar, if_pos hc]
      rfl
  rw [Text.lower_eq, hwithin]

/-! ### Forms that a text fixes by itself -/

/-- Whether the nearest character that counts has a case, if there is such a character. -/
def nearestCase (s : List Char) : Option Bool := (s.dropWhile isUncounted).head?.map isCased

theorem nearestCase_append (s t : List Char) :
    nearestCase (s ++ t) = (nearestCase s).or (nearestCase t) := by
  unfold nearestCase
  rw [List.dropWhile_append]
  cases s.dropWhile isUncounted <;> rfl

theorem endsWord_iff : endsWord before after = true ↔
    nearestCase before = some true ∧ nearestCase after ≠ some true := by
  have hmeets : ∀ s, meetsCased s = true ↔ nearestCase s = some true := by
    intro s
    unfold meetsCased nearestCase
    cases s.dropWhile isUncounted <;> simp
  simp [endsWord, hmeets, ← Bool.not_eq_true]

/-- Whether the form of a sigma is the same whatever stands in front of the text before it and behind
the text after it: there is no word before it, or it goes on, or both of its sides are known. -/
def Settled (before after : List Char) : Prop :=
  nearestCase before = some false ∨ nearestCase after = some true ∨
    (nearestCase before).isSome ∧ (nearestCase after).isSome

/-- Whether a text fixes the forms of its sigmas, wherever it stands. -/
def FixesForms (s : List Char) : Prop := ∀ x y, s = x ++ 'Σ' :: y → Settled x.reverse y

theorem fixesForms_of_notMem (h : 'Σ' ∉ s) : FixesForms s := by
  rintro x y rfl
  simp at h

theorem Settled.endsWord_eq (h : Settled x y) (before after : List Char) :
    endsWord (x ++ before) (y ++ after) = endsWord x y := by
  rw [Bool.eq_iff_iff, endsWord_iff, endsWord_iff, nearestCase_append, nearestCase_append]
  unfold Settled at h
  cases hx : nearestCase x <;> cases hy : nearestCase y <;> simp_all

theorem FixesForms.keepsForms (h : FixesForms s) (before after : List Char) :
    KeepsForms before after s := fun x y hxy => (h x y hxy).endsWord_eq before after

/-- A letter that a text in lower case neither begins nor ends with, if it begins or ends with the
given one. -/
theorem exists_letter (first : Option Char) : ∃ c, c ≠ 'Σ' ∧ lowerChar c = [c.toLower] ∧
    nearestCase [c] = some true ∧ first ≠ some c.toLower := by
  by_cases h : first = some 'a'
  · exact ⟨'B', by decide, by decide, by decide, by simp [h]⟩
  · exact ⟨'A', by decide, by decide, by decide, h⟩

theorem length_lowerWithin (before before' after after' s : List Char) :
    (lowerWithin before after s).length = (lowerWithin before' after' s).length := by
  induction s generalizing before before' with
  | nil => rfl
  | cons c rest ih =>
    rw [lowerWithin, lowerWithin, List.length_append, List.length_append, ih, length_lowerBetween]

/-- A sigma that is not settled gets another form from a letter in front or from one behind. -/
theorem endsWord_ne_of_not_settled (h : ¬ Settled x y) (hc : nearestCase [c] = some true)
    (hd : nearestCase [d] = some true) :
    endsWord (x ++ [c]) y ≠ endsWord x y ∨ endsWord x (y ++ [d]) ≠ endsWord x y := by
  unfold Settled at h
  by_contra hsame
  push Not at hsame
  obtain ⟨hfront, hbehind⟩ := hsame
  rw [Bool.eq_iff_iff, endsWord_iff, endsWord_iff, nearestCase_append] at hfront hbehind
  rw [hc] at hfront
  rw [hd] at hbehind
  cases hx : nearestCase x <;> cases hy : nearestCase y <;> simp_all

section Lost

variable (hs : s = x ++ 'Σ' :: y) (hc : c ≠ 'Σ') (hlower : lowerChar c = [c.toLower])
include hs hc hlower

theorem lost_behind_letter (hform : endsWord (x.reverse ++ [c]) y ≠ endsWord x.reverse y)
    (hfirst : (lower s).head? ≠ some c.toLower) : ¬ lower s <:+: lower (c :: s) := by
  have hcons : lower (c :: s) = c.toLower :: lowerWithin [c] [] s := by
    have happend := lower_append [c] s []
    simpa [lowerWithin, lowerBetween, hc, hlower, lowerAfter] using happend
  have hlength : (lower s).length = (lowerWithin [c] [] s).length := by
    rw [lower_eq, length_lowerWithin]
  have hne : lower s ≠ lowerWithin [c] [] s := by
    intro heq
    have hforms := keepsForms_iff.mpr heq.symm x y hs
    exact hform (by simpa using hforms)
  rw [hcons, List.infix_cons_iff, List.prefix_cons_iff]
  rintro ((hnil | ⟨rest, hrest, -⟩) | hpart)
  · rw [hnil] at hlength hne
    exact hne (List.length_eq_zero_iff.mp hlength.symm).symm
  · exact hfirst (by rw [hrest]; rfl)
  · exact hne (hpart.eq_of_length hlength)

theorem lost_before_letter (hform : endsWord x.reverse (y ++ [c]) ≠ endsWord x.reverse y)
    (hlast : (lower s).getLast? ≠ some c.toLower) : ¬ lower s <:+: lower (s ++ [c]) := by
  have hconcat : lower (s ++ [c]) = lowerWithin [] [c] s ++ [c.toLower] := by
    have happend := lower_append [] s [c]
    simpa [lowerWithin, lowerBetween, hc, hlower, lowerAfter] using happend
  have hlength : (lower s).length = (lowerWithin [] [c] s).length := by
    rw [lower_eq, length_lowerWithin]
  have hne : lower s ≠ lowerWithin [] [c] s := by
    intro heq
    have hforms := keepsForms_iff.mpr heq.symm x y hs
    exact hform (by simpa using hforms)
  rw [hconcat, List.infix_concat_iff, List.suffix_concat_iff]
  rintro ((hnil | ⟨rest, hrest, -⟩) | hpart)
  · rw [hnil] at hlength hne
    exact hne (List.length_eq_zero_iff.mp hlength.symm).symm
  · exact hlast (by rw [hrest, List.getLast?_concat])
  · exact hne (hpart.eq_of_length hlength)

end Lost

/-- A text that does not fix the forms of its sigmas stands somewhere where it is not found when both
texts are in lower case. -/
theorem exists_lost (h : ¬ FixesForms s) : ∃ text, s <:+: text ∧ ¬ lower s <:+: lower text := by
  unfold FixesForms at h
  push Not at h
  obtain ⟨x, y, hs, hsettled⟩ := h
  obtain ⟨c, hc, hlower, hcase, hfirst⟩ := exists_letter (lower s).head?
  obtain ⟨d, hd, hlower', hcase', hlast⟩ := exists_letter (lower s).getLast?
  rcases endsWord_ne_of_not_settled hsettled hcase hcase' with hform | hform
  · exact ⟨c :: s, (List.suffix_cons c s).isInfix, lost_behind_letter hs hc hlower hform hfirst⟩
  · exact ⟨s ++ [d], (List.prefix_append s [d]).isInfix, lost_before_letter hs hd hlower' hform hlast⟩

/-- The texts that are found wherever they stand, in lower case, are those that fix the forms of their
sigmas. -/
theorem forall_lower_infix_iff :
    (∀ text, s <:+: text → lower s <:+: lower text) ↔ FixesForms s := by
  constructor
  · intro hall
    by_contra hlost
    obtain ⟨text, hpart, hnot⟩ := exists_lost hlost
    exact hnot (hall text hpart)
  · rintro h text ⟨before, after, rfl⟩
    exact (h.keepsForms _ _).infix_lower

end Planner.Text
