import Mathlib.Tactic
import Planner.Json.Reader.Text

/-! Quoted texts are read back as they are, every character through its escape. -/
namespace Planner.Json

variable {c : Char} {chars rest rest' : List Char} {steps : Nat}

theorem hexValue?_digitChar {k : Nat} (hk : k < 16) : Text.hexValue? k.digitChar = some k := by
  have hall : ∀ k < 16, Text.hexValue? k.digitChar = some k := by decide
  exact hall k hk

theorem readEscape_control (hc : c.toNat < 32) :
    readEscape ('u' :: '0' :: '0' :: (c.toNat / 16).digitChar :: (c.toNat % 16).digitChar :: rest) =
      .ok (c, rest) := by
  have hhigh := hexValue?_digitChar (k := c.toNat / 16) (by omega)
  have hlow := hexValue?_digitChar (k := c.toNat % 16) (by omega)
  have hzero : Text.hexValue? '0' = some 0 := by decide
  have hhex : readHex ('0' :: '0' :: (c.toNat / 16).digitChar :: (c.toNat % 16).digitChar :: rest) =
      .ok (c.toNat, rest) := by
    have hsum : c.toNat / 16 * 16 + c.toNat % 16 = c.toNat := by omega
    simp [readHex, hhigh, hlow, hzero, hsum]
  have htrail : ¬ (0xDC00 ≤ c.toNat ∧ c.toNat ≤ 0xDFFF) := by omega
  have hlead : ¬ (0xD800 ≤ c.toNat ∧ c.toNat ≤ 0xDBFF) := by omega
  simp only [readEscape, readUnicode, hhex, bind, Except.bind, if_neg htrail, if_neg hlead,
    Char.ofNat_toNat]
  rfl

theorem readQuotedLoop_short {e : Char} (hs : shortEscape? e = some c)
    (hl : readQuotedLoop readEscape steps rest = .ok (chars, rest')) :
    readQuotedLoop readEscape (steps + 1) ('\\' :: e :: rest) = .ok (c :: chars, rest') := by
  have hu : e ≠ 'u' := by
    rintro rfl
    simp [shortEscape?] at hs
  have he : readEscape (e :: rest) = .ok (c, rest) := by
    unfold readEscape
    split
    · rename_i h
      cases h
    · rename_i h
      exact absurd (List.cons.inj h).1 hu
    · rename_i h
      obtain ⟨rfl, rfl⟩ := List.cons.inj h
      rw [hs]
  simp only [readQuotedLoop, he, bind, Except.bind, hl]
  rfl

/-- One character is read back from what is written for it. -/
theorem readQuotedLoop_escapeChar
    (hl : readQuotedLoop readEscape steps rest = .ok (chars, rest')) :
    readQuotedLoop readEscape (steps + 1) (escapeChar c ++ rest) = .ok (c :: chars, rest') := by
  unfold escapeChar
  split_ifs with hquote hslash hback htab hline hfeed hreturn hcontrol
  · exact readQuotedLoop_short (by rw [hquote]; decide) hl
  · exact readQuotedLoop_short (by rw [hslash]; decide) hl
  · exact readQuotedLoop_short (by rw [hback]; decide) hl
  · exact readQuotedLoop_short (by rw [htab]; decide) hl
  · exact readQuotedLoop_short (by rw [hline]; decide) hl
  · exact readQuotedLoop_short (by rw [hfeed]; decide) hl
  · exact readQuotedLoop_short (by rw [hreturn]; decide) hl
  · simp only [readQuotedLoop, List.cons_append, List.nil_append, readEscape_control hcontrol, bind,
      Except.bind, hl]
    rfl
  · simp only [readQuotedLoop, List.cons_append, List.nil_append, if_neg hquote, if_neg hslash,
      if_neg hcontrol, bind, Except.bind, hl]
    rfl

theorem readQuotedLoop_escaped (hs : chars.length < steps) :
    readQuotedLoop readEscape steps (chars.flatMap escapeChar ++ '"' :: rest) =
      .ok (chars, rest) := by
  induction chars generalizing steps with
  | nil =>
    obtain ⟨steps, rfl⟩ := Nat.exists_eq_succ_of_ne_zero (Nat.ne_of_gt hs)
    rfl
  | cons c chars ih =>
    obtain ⟨steps, rfl⟩ := Nat.exists_eq_succ_of_ne_zero (Nat.ne_of_gt (Nat.zero_lt_of_lt hs))
    rw [List.flatMap_cons, List.append_assoc]
    exact readQuotedLoop_escapeChar (ih (Nat.lt_of_succ_lt_succ hs))

theorem length_le_flatMap_escapeChar (chars : List Char) :
    chars.length ≤ (chars.flatMap escapeChar).length := by
  induction chars with
  | nil => simp
  | cons c chars ih =>
    have hc : 1 ≤ (escapeChar c).length := by
      unfold escapeChar
      split_ifs <;> simp
    rw [List.flatMap_cons, List.length_append, List.length_cons]
    omega

/-- A text is read back from its quoted form. -/
theorem readQuoted_quote (s : String) :
    readQuoted (s.toList.flatMap escapeChar ++ '"' :: rest) = .ok (s, rest) := by
  have hl := length_le_flatMap_escapeChar s.toList
  unfold readQuoted
  rw [readQuotedLoop_escaped (by simp only [List.length_append, List.length_cons]; omega)]
  simp [bind, Except.bind, pure, Except.pure]

end Planner.Json
