import Planner.Proofs.Sql.Spelling

/-! Literals: the tokens that stand for a value by themselves, and the texts that are scanned as
such a token. -/
namespace Planner.Sql

open Outcome

variable {w : String} {v : Json} {chars digits rest : List Char} {offset : Nat} {tail : List Token}

/-- The words that stand for values, in letters of any case. -/
def wordValues : List (String × Json) :=
  [("null", .null), ("true", .bool true), ("false", .bool false)]

/-- Whether a token stands for a value by itself. -/
inductive Literal : Token → Json → Prop
  | word {w name : String} {v : Json} (hname : (name, v) ∈ wordValues)
    (h : Text.sameIgnoringCase w name) : Literal (.word w) v
  | text (s : String) : Literal (.text s) (.text s)
  | number (n : Number) : Literal (.number n) (.number n)

/-- How a character is written between the quotes of a text. -/
def doubled (c : Char) : List Char := if c = '\'' then ['\'', '\''] else [c]

/-- Whether the characters write a value: as one of the words, as an integer in decimal digits, or
as a text between single quotes with those in it doubled. -/
inductive Writes : List Char → Json → Prop
  | word {chars : List Char} {name : String} {v : Json} (hname : (name, v) ∈ wordValues)
    (h : Text.sameIgnoringCase (String.ofList chars) name) : Writes chars v
  | whole {digits : List Char} {n : Integer} (hne : digits ≠ []) (hdigits : ∀ c ∈ digits, c.isDigit)
    (hvalue : n.value = Nat.ofDigitChars 10 digits 0) (hlt : n.value < 0x8000000000000000) :
    Writes digits (.number (.integer n))
  | negative {digits : List Char} {n : Integer} (hne : digits ≠ [])
    (hdigits : ∀ c ∈ digits, c.isDigit) (hvalue : n.value = -Nat.ofDigitChars 10 digits 0) :
    Writes ('-' :: digits) (.number (.integer n))
  | text (s : String) : Writes ('\'' :: (s.toList.flatMap doubled ++ ['\''])) (.text s)

/-- Whether a value can be written in a statement: it is null, a boolean, an integer of 64 bits
with a sign, or a text. -/
def Writable : Json → Prop
  | .null | .bool _ | .text _ => True
  | .number (.integer n) => n.value < 0x8000000000000000
  | .number (.double _) | .list _ | .object _ => False

theorem writes_integer {n : Integer} (h : n.value < 0x8000000000000000) :
    Writes n.toText (.number (.integer n)) := by
  have hdigits : ∀ c ∈ Nat.toDigits 10 n.value.natAbs, c.isDigit :=
    fun c hc => Nat.isDigit_of_mem_toDigits (by decide) (by decide) hc
  unfold Integer.toText
  split_ifs with hneg
  · refine .negative Nat.toDigits_ne_nil hdigits ?_
    rw [Nat.ofDigitChars_ten_toDigits]
    omega
  · refine .whole Nat.toDigits_ne_nil hdigits ?_ h
    rw [Nat.ofDigitChars_ten_toDigits]
    omega

theorem exists_writes (h : Writable v) : ∃ chars, Writes chars v := by
  cases v with
  | null =>
    have hname : ("null", Json.null) ∈ wordValues := by decide
    exact ⟨"null".toList, .word hname (by decide)⟩
  | bool b => cases b with
    | true =>
      have hname : ("true", Json.bool true) ∈ wordValues := by decide
      exact ⟨"true".toList, .word hname (by decide)⟩
    | false =>
      have hname : ("false", Json.bool false) ∈ wordValues := by decide
      exact ⟨"false".toList, .word hname (by decide)⟩
  | number n => cases n with
    | integer n => exact ⟨_, writes_integer h⟩
    | double => exact h.elim
  | text s => exact ⟨_, .text s⟩
  | list | object => exact h.elim

theorem wordValue?_same {name : String} (h : Text.sameIgnoringCase w name) :
    Cursor.wordValue? w = Cursor.wordValue? name := by
  simp only [Text.sameIgnoringCase, beq_iff_eq] at h
  unfold Cursor.wordValue? Text.sameIgnoringCase
  rw [h]

/-- A word is read as a value exactly when it is one of the words for values. -/
theorem wordValue?_eq_some : Cursor.wordValue? w = some v ↔ Literal (.word w) v := by
  constructor
  · intro h
    unfold Cursor.wordValue? at h
    split_ifs at h with hnull htrue hfalse <;> cases h
    · exact .word (by decide : ("null", Json.null) ∈ wordValues) hnull
    · exact .word (by decide : ("true", Json.bool true) ∈ wordValues) htrue
    · exact .word (by decide : ("false", Json.bool false) ∈ wordValues) hfalse
  · rintro (@⟨_, name, _, hname, h⟩)
    rw [wordValue?_same h]
    simp only [wordValues, List.mem_cons, Prod.mk.injEq, List.not_mem_nil, or_false] at hname
    rcases hname with ⟨rfl, rfl⟩ | ⟨rfl, rfl⟩ | ⟨rfl, rfl⟩ <;> decide

/-- A literal is read as the value that it stands for. -/
theorem value_literal {token : Token} {more : List Token} {unbound : List Json} {n : Nat}
    (h : Literal token v) :
    Cursor.value ⟨token :: more, unbound, n⟩ = .ok (v, ⟨more, unbound, n⟩) := by
  cases h with
  | word hname h =>
    have hvalue := wordValue?_eq_some.mpr (.word hname h)
    simp only [Cursor.value, hvalue]
  | text s => rfl
  | number n => rfl

/-- A value is the parameter that a placeholder takes, or what a literal stands for. -/
theorem value_cases {cursor cursor' : Cursor} (h : cursor.value = .ok (v, cursor')) :
    (∃ more, cursor.tokens = .placeholder :: more ∧ v = cursor.unbound.headD .null ∧
      cursor' = ⟨more, cursor.unbound.tail, cursor.placeholders + 1⟩) ∨
    ∃ token more, cursor.tokens = token :: more ∧ Literal token v ∧
      cursor' = { cursor with tokens := more } := by
  unfold Cursor.value at h
  split at h
  · rename_i more htokens
    cases h
    exact .inl ⟨more, htokens, rfl, rfl⟩
  · rename_i s more htokens
    cases h
    exact .inr ⟨_, more, htokens, .text s, rfl⟩
  · rename_i n more htokens
    cases h
    exact .inr ⟨_, more, htokens, .number n, rfl⟩
  · rename_i w more htokens
    split at h
    · rename_i hword
      cases h
      exact .inr ⟨_, more, htokens, wordValue?_eq_some.mp hword, rfl⟩
    · cases h
  · cases h

theorem plain_wordValues {name : String} (h : (name, v) ∈ wordValues) :
    (Symbol.word name).Plain := by
  simp only [wordValues, List.mem_cons, Prod.mk.injEq, List.not_mem_nil, or_false] at h
  rcases h with ⟨rfl, -⟩ | ⟨rfl, -⟩ | ⟨rfl, -⟩ <;> decide

theorem start_digit {c : Char} (h : c.isDigit) :
    start offset c = .ok ([], .number offset c [c]) := by
  have hblank : ¬ Text.isBlank c := by
    intro hblank
    have hmem := mem_blanks hblank
    simp [Char.isDigit, UInt32.le_iff_toNat_le] at h
    simp [blanks] at hmem
    omega
  have hmarks : ∀ d ∈ ['?', '*', ',', '(', ')', ';', '=', '>', '<', '\'', '"'], c ≠ d := by
    have hnone : ∀ d ∈ ['?', '*', ',', '(', ')', ';', '=', '>', '<', '\'', '"'], ¬ d.isDigit := by
      simp
    rintro d hd rfl
    exact hnone c hd h
  simp only [List.forall_mem_cons] at hmarks
  simp [start, mark?, hblank, hmarks, h]

theorem numberOf?_digits (negative : Bool) {n : Integer} (hdigits : ∀ c ∈ digits, c.isDigit)
    (hvalue : n.value = if negative then -(Nat.ofDigitChars 10 digits 0 : Int)
      else Nat.ofDigitChars 10 digits 0)
    (hlt : n.value < 0x8000000000000000) : numberOf? negative digits = some (.integer n) := by
  have hdrop : digits.dropWhile Char.isDigit = [] := List.dropWhile_eq_nil_iff.mpr hdigits
  obtain ⟨value, hrange⟩ := n
  dsimp only at hvalue hlt
  subst hvalue
  unfold numberOf?
  simp only [hdrop]
  rw [dif_pos ⟨hrange.1, hlt⟩]

/-- Digits are the integer that they write. -/
theorem numberToken_whole {begin : Nat} {first : Char} {n : Integer}
    (hdigits : ∀ c ∈ digits, c.isDigit) (hvalue : n.value = Nat.ofDigitChars 10 digits 0)
    (hlt : n.value < 0x8000000000000000) :
    numberToken begin first digits.reverse = .ok (.number (.integer n)) := by
  have hnumber := numberOf?_digits false hdigits hvalue hlt
  have hminus : ∀ rest, digits ≠ '-' :: rest := by
    rintro rest rfl
    exact absurd (hdigits '-' (List.mem_cons_self ..)) (by decide)
  unfold numberToken
  rw [List.reverse_reverse]
  simp only [hnumber]

/-- A minus and digits are the negative integer that they write. -/
theorem numberToken_negative {begin : Nat} {first : Char} {n : Integer}
    (hdigits : ∀ c ∈ digits, c.isDigit) (hvalue : n.value = -Nat.ofDigitChars 10 digits 0) :
    numberToken begin first ('-' :: digits).reverse = .ok (.number (.integer n)) := by
  have hlt : n.value < 0x8000000000000000 := by omega
  have hnumber := numberOf?_digits true hdigits hvalue hlt
  unfold numberToken
  rw [List.reverse_reverse]
  simp only [hnumber]

theorem feed_number_digit {begin : Nat} {first c : Char} {gathered : List Char} (h : c.isDigit) :
    feed (.number begin first gathered) offset c = .ok ([], .number begin first (c :: gathered)) := by
  simp [feed, h]

/-- A blank ends a number. -/
theorem scanFrom_number {begin : Nat} {first : Char} {gathered : List Char} {token : Token}
    (hdigits : ∀ c ∈ digits, c.isDigit)
    (htoken : numberToken begin first (digits.reverse ++ gathered) = .ok token)
    (h : ∀ offset, scanFrom .between offset rest = .ok tail) :
    scanFrom (.number begin first gathered) offset (digits ++ ' ' :: rest) =
      .ok (token :: tail) := by
  induction digits generalizing gathered offset with
  | nil =>
    have hfeed : feed (.number begin first gathered) offset ' ' = .ok ([token], .between) :=
      bind_eq_ok.mpr ⟨token, htoken, rfl⟩
    exact scanFrom_cons hfeed (h _)
  | cons c digits ih =>
    obtain ⟨hc, hdigits⟩ := List.forall_mem_cons.mp hdigits
    refine scanFrom_cons (feed_number_digit hc) (ih hdigits ?_)
    simpa using htoken

/-- The quote that stands alone ends a text. -/
theorem scanFrom_text (chars : List Char) {gathered : List Char}
    (h : ∀ offset, scanFrom .between offset rest = .ok tail) :
    scanFrom (.literal gathered) offset (chars.flatMap doubled ++ '\'' :: ' ' :: rest) =
      .ok (.text (textOf (chars.reverse ++ gathered)) :: tail) := by
  induction chars generalizing gathered offset with
  | nil =>
    have hquote : feed (.literal gathered) offset '\'' = .ok ([], .literalQuote gathered) := rfl
    have hend : feed (.literalQuote gathered) (offset + 1) ' ' =
        .ok ([.text (textOf gathered)], .between) := rfl
    exact scanFrom_cons hquote (scanFrom_cons hend (h _))
  | cons c chars ih =>
    rw [List.flatMap_cons, List.append_assoc, List.reverse_cons, List.append_assoc]
    by_cases hc : c = '\''
    · subst hc
      have hfirst : feed (.literal gathered) offset '\'' = .ok ([], .literalQuote gathered) := rfl
      have hsecond : feed (.literalQuote gathered) (offset + 1) '\'' =
          .ok ([], .literal ('\'' :: gathered)) := rfl
      exact scanFrom_cons hfirst (scanFrom_cons hsecond ih)
    · have hfeed : feed (.literal gathered) offset c = .ok ([], .literal (c :: gathered)) := by
        simp only [feed, if_neg hc]
      rw [doubled, if_neg hc]
      exact scanFrom_cons hfeed ih

/-- What writes a value is scanned as a literal of the value, when a blank follows. -/
theorem scanFrom_writes (h : Writes chars v) : ∃ token, Literal token v ∧
    ∀ rest tail, (∀ offset, scanFrom .between offset rest = .ok tail) →
      ∀ offset, scanFrom .between offset (chars ++ ' ' :: rest) = .ok (token :: tail) := by
  cases h with
  | word hname hsame =>
    obtain ⟨hne, hlower⟩ := plain_wordValues hname
    refine ⟨_, .word hname hsame, fun rest tail hrest offset => ?_⟩
    have hpassed : feed .between (offset + chars.length) ' ' = .ok ([], .between) := rfl
    have hblank := scanFrom_cons hpassed (hrest _)
    exact scanFrom_lettered (ne_nil_of_spells hne hsame) (lettered_spells hlower hsame)
      (parted_blank (by decide)) hblank
  | @whole _ n hne hdigits hvalue hlt =>
    refine ⟨_, .number _, fun rest tail hrest offset => ?_⟩
    obtain ⟨c, digits, rfl⟩ := List.exists_cons_of_ne_nil hne
    obtain ⟨hc, hmore⟩ := List.forall_mem_cons.mp hdigits
    have htoken : numberToken offset c (digits.reverse ++ [c]) = .ok (.number (.integer n)) := by
      rw [← List.reverse_cons]
      exact numberToken_whole hdigits hvalue hlt
    have hstart : feed .between offset c = .ok ([], .number offset c [c]) := start_digit hc
    exact scanFrom_cons hstart (scanFrom_number hmore htoken hrest)
  | @negative digits n hne hdigits hvalue =>
    refine ⟨_, .number _, fun rest tail hrest offset => ?_⟩
    obtain ⟨c, digits, rfl⟩ := List.exists_cons_of_ne_nil hne
    obtain ⟨hc, hmore⟩ := List.forall_mem_cons.mp hdigits
    have htoken : numberToken offset '-' (digits.reverse ++ [c, '-']) =
        .ok (.number (.integer n)) := by
      have hnumber : numberToken offset '-' ('-' :: c :: digits).reverse =
          .ok (.number (.integer n)) := numberToken_negative hdigits hvalue
      simpa using hnumber
    have hminus : feed .between offset '-' = .ok ([], .minus) := rfl
    have hdigit : feed .minus (offset + 1) c = .ok ([], .number offset '-' [c, '-']) := by
      simp [feed, hc]
    exact scanFrom_cons hminus (scanFrom_cons hdigit (scanFrom_number hmore htoken hrest))
  | text s =>
    refine ⟨_, .text s, fun rest tail hrest offset => ?_⟩
    have hquote : feed .between offset '\'' = .ok ([], .literal []) := rfl
    have htext := scanFrom_cons hquote (scanFrom_text s.toList hrest)
    simpa [textOf] using htext

end Planner.Sql
