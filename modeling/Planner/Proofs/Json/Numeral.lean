import Planner.Proofs.Json.Scaling

/-! The numerals that are written are read back: integers exactly, doubles as some double. -/
namespace Planner.Json.Numeral

variable {n : Numeral} {digits rest : List Char}

/-- What follows a numeral without going on with it. -/
def Ends (rest : List Char) : Prop :=
  ∀ c ∈ rest.head?, c.isDigit = false ∧ c ≠ '.' ∧ c ≠ 'e' ∧ c ≠ 'E'

def fractionText : Option (List Char) → List Char
  | none => []
  | some digits => '.' :: digits

def exponentText : Option (Bool × List Char) → List Char
  | none => []
  | some (negative, digits) => 'e' :: (if negative then '-' else '+') :: digits

def unsignedText (n : Numeral) : List Char :=
  n.whole ++ (fractionText n.fraction ++ exponentText n.exponent)

/-- Digits where digits are due, and no needless zero in front. -/
structure WellFormed (n : Numeral) : Prop where
  whole_ne : n.whole ≠ []
  whole_digits : ∀ c ∈ n.whole, c.isDigit = true
  no_leading_zero : ∀ c cs, n.whole ≠ '0' :: c :: cs
  fraction : ∀ ds ∈ n.fraction, ds ≠ [] ∧ ∀ c ∈ ds, c.isDigit = true
  exponent : ∀ e ∈ n.exponent, e.2 ≠ [] ∧ ∀ c ∈ e.2, c.isDigit = true

theorem takeWhile_digits (hd : ∀ c ∈ digits, c.isDigit = true)
    (hr : ∀ c ∈ rest.head?, c.isDigit = false) :
    (digits ++ rest).takeWhile Char.isDigit = digits ∧
      (digits ++ rest).dropWhile Char.isDigit = rest := by
  rw [List.takeWhile_append_of_pos hd, List.dropWhile_append_of_pos hd]
  cases rest with
  | nil => simp
  | cons c rest => simp [hr c rfl]

theorem readDigits_append (hne : digits ≠ []) (hd : ∀ c ∈ digits, c.isDigit = true)
    (hr : ∀ c ∈ rest.head?, c.isDigit = false) :
    readDigits (digits ++ rest) = .ok (digits, rest) := by
  obtain ⟨ht, hw⟩ := takeWhile_digits hd hr
  unfold readDigits
  rw [ht, hw]
  cases digits with
  | nil => exact absurd rfl hne
  | cons c cs => rfl

theorem readWhole_append (hne : digits ≠ []) (hd : ∀ c ∈ digits, c.isDigit = true)
    (hz : ∀ c cs, digits ≠ '0' :: c :: cs) (hr : ∀ c ∈ rest.head?, c.isDigit = false) :
    readWhole (digits ++ rest) = .ok (digits, rest) := by
  unfold readWhole
  rw [readDigits_append hne hd hr]
  simp only [bind, Except.bind]
  rfl

theorem fraction_head (n : Numeral) (hr : Ends rest) :
    ∀ c ∈ (fractionText n.fraction ++ (exponentText n.exponent ++ rest)).head?,
      c.isDigit = false := by
  intro c hc
  cases hf : n.fraction with
  | some ds =>
    simp only [hf, fractionText, List.cons_append, List.head?_cons, Option.mem_some] at hc
    rw [← hc]
    decide
  | none =>
    cases he : n.exponent with
    | some e =>
      simp only [hf, he, fractionText, exponentText, List.nil_append, List.cons_append,
        List.head?_cons, Option.mem_some] at hc
      rw [← hc]
      decide
    | none =>
      simp only [hf, he, fractionText, exponentText, List.nil_append] at hc
      exact (hr c hc).1

theorem exponent_head (n : Numeral) (hr : Ends rest) :
    ∀ c ∈ (exponentText n.exponent ++ rest).head?, c.isDigit = false ∧ c ≠ '.' := by
  intro c hc
  cases he : n.exponent with
  | some e =>
    simp only [he, exponentText, List.cons_append, List.head?_cons, Option.mem_some] at hc
    rw [← hc]
    decide
  | none =>
    simp only [he, exponentText, List.nil_append] at hc
    exact ⟨(hr c hc).1, (hr c hc).2.1⟩

theorem readFraction_append (hn : n.WellFormed) (hr : Ends rest) :
    readFraction (fractionText n.fraction ++ (exponentText n.exponent ++ rest)) =
      .ok (n.fraction, exponentText n.exponent ++ rest) := by
  have hh := exponent_head n hr
  cases hf : n.fraction with
  | some ds =>
    obtain ⟨hne, hd⟩ := hn.fraction ds hf
    simp only [fractionText, List.cons_append, readFraction]
    rw [readDigits_append hne hd fun c hc => (hh c hc).1]
    rfl
  | none =>
    simp only [fractionText, List.nil_append]
    unfold readFraction
    split
    · rename_i hs
      rw [hs] at hh
      exact absurd rfl (hh '.' rfl).2
    · rfl

theorem readExponent_append (hn : n.WellFormed) (hr : Ends rest) :
    readExponent (exponentText n.exponent ++ rest) = .ok (n.exponent, rest) := by
  cases he : n.exponent with
  | some e =>
    obtain ⟨negative, ds⟩ := e
    obtain ⟨hne, hd⟩ := hn.exponent _ he
    simp only [exponentText, List.cons_append, readExponent, readPower]
    have hs : readSign ((if negative = true then '-' else '+') :: (ds ++ rest)) =
        (negative, ds ++ rest) := by
      cases negative <;> rfl
    rw [hs]
    simp only
    rw [readDigits_append hne hd fun c hc => (hr c hc).1]
    rfl
  | none =>
    simp only [exponentText, List.nil_append]
    unfold readExponent
    split
    · exact absurd rfl (hr 'e' rfl).2.2.1
    · exact absurd rfl (hr 'E' rfl).2.2.2
    · rfl

theorem readUnsigned_append (hn : n.WellFormed) (hr : Ends rest) :
    readUnsigned n.negative (n.unsignedText ++ rest) = .ok (n, rest) := by
  unfold readUnsigned unsignedText
  rw [List.append_assoc, List.append_assoc, readWhole_append hn.whole_ne hn.whole_digits
    hn.no_leading_zero (fraction_head n hr)]
  simp only [bind, Except.bind]
  rw [readFraction_append hn hr]
  simp only
  rw [readExponent_append hn hr]
  rfl

/-- The text of a numeral with its sign. -/
def text (n : Numeral) : List Char :=
  if n.negative then '-' :: n.unsignedText else n.unsignedText

theorem unsignedText_head (hn : n.WellFormed) :
    ∃ c cs, n.unsignedText = c :: cs ∧ c.isDigit = true := by
  obtain ⟨c, cs, h⟩ := List.exists_cons_of_ne_nil hn.whole_ne
  refine ⟨c, cs ++ (fractionText n.fraction ++ exponentText n.exponent), ?_, ?_⟩
  · rw [unsignedText, h, List.cons_append]
  · exact hn.whole_digits c (by simp [h])

theorem read_text (hn : n.WellFormed) (hr : Ends rest) :
    Numeral.read (n.text ++ rest) = .ok (n, rest) := by
  have hu := readUnsigned_append hn hr
  unfold text
  cases hneg : n.negative with
  | true =>
    rw [hneg] at hu
    exact hu
  | false =>
    rw [hneg] at hu
    obtain ⟨c, cs, hc, hd⟩ := unsignedText_head hn
    rw [hc] at hu ⊢
    have hne : c ≠ '-' := by
      rintro rfl
      exact absurd hd (by decide)
    simp only [Bool.false_eq_true, if_false, List.cons_append] at hu ⊢
    unfold Numeral.read
    split
    · rename_i h
      exact absurd (List.cons.inj h).1 hne
    · exact hu

end Planner.Json.Numeral
