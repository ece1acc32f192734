import Mathlib
import Planner.Proofs.Outcome
import Planner.Proofs.Sql.Grammar
import Planner.Sql.Parse

/-! The tokens that the scan makes of the symbols of a statement. -/
namespace Planner.Sql

open Outcome

variable {c : Char} {name : String} {chars gap rest : List Char} {offset : Nat}
  {symbols : List Symbol} {tail : List Token}

namespace Symbol

/-- Whether the scan makes the token of the symbol. -/
def Stands : Symbol → Token → Prop
  | .word name, token => ∃ w, token = .word w ∧ Text.sameIgnoringCase w name
  | .column name, token => token = .word name
  | .mark c, token => mark? c = some token
  | .bound c, token => token = if c = '>' then .atLeast else .atMost

/-- A word in small letters and underscores, a name that can be quoted, or a mark that there is. -/
def Plain : Symbol → Prop
  | .word name => name ≠ "" ∧ ∀ c ∈ name.toList, c.isLower ∨ c = '_'
  | .column name => Unquoted name
  | .mark c => (mark? c).isSome
  | .bound c => c = '>' ∨ c = '<'

instance (symbol : Symbol) : Decidable symbol.Plain :=
  match symbol with
  | .word name => @instDecidableAnd _ _ inferInstance (List.decidableBAll _ name.toList)
  | .column _ => inferInstanceAs (Decidable (¬ _))
  | .mark _ => inferInstanceAs (Decidable (_ = _))
  | .bound _ => inferInstanceAs (Decidable (_ ∨ _))

end Symbol

/-- Nothing in the text ahead goes on with a word. -/
def Parted (rest : List Char) : Prop :=
  ∀ c ∈ rest.head?, (Text.isLetterOrNumeral c || c = '_') = false

/-- The code points of white space. -/
def blanks : List Nat := [
  9, 10, 11, 12, 13, 32, 133, 160, 5760, 8192, 8193, 8194, 8195, 8196, 8197, 8198, 8199, 8200,
  8201, 8202, 8232, 8233, 8239, 8287, 12288]

theorem mem_blanks (h : Text.isBlank c) : c.toNat ∈ blanks := by
  simp [Text.isBlank, Text.inRanges, Text.blankBounds] at h
  simp [blanks]
  omega

/-- White space ends a word. -/
theorem parted_blank (h : Text.isBlank c) : Parted (c :: rest) := by
  have hall : ∀ n ∈ blanks,
      (Text.isLetterOrNumeral (Char.ofNat n) || Char.ofNat n = '_') = false := by
    decide +kernel
  have hc := hall c.toNat (mem_blanks h)
  rw [Char.ofNat_toNat] at hc
  simpa [Parted] using hc

theorem isLetter_of_isAlpha (h : c.isAlpha) : Text.isLetter c := by
  have hlt : c.toNat < 128 := by
    simp [Char.isAlpha, Char.isUpper, Char.isLower, UInt32.le_iff_toNat_le] at h
    omega
  simp [Text.isLetter, hlt, h]

/-- An ASCII letter or an underscore. -/
def Lettered (c : Char) : Prop := c.isAlpha ∨ c = '_'

theorem Lettered.goesOn (h : Lettered c) : (Text.isLetterOrNumeral c || c = '_') = true := by
  rcases h with h | rfl
  · simp [Text.isLetterOrNumeral, isLetter_of_isAlpha h]
  · decide

theorem start_lettered (h : Lettered c) : start offset c = .ok ([], .word [c]) := by
  have hblank : ¬ Text.isBlank c := by
    intro hblank
    have hparted : Parted [c] := parted_blank hblank
    have hparted := hparted c rfl
    rw [h.goesOn] at hparted
    cases hparted
  have hmarks : ∀ d ∈ ['?', '*', ',', '(', ')', ';', '=', '>', '<', '\'', '"', '-'], c ≠ d := by
    have hnone : ∀ d ∈ ['?', '*', ',', '(', ')', ';', '=', '>', '<', '\'', '"', '-'],
        ¬ (d.isAlpha ∨ d = '_') := by
      simp
    rintro d hd rfl
    exact hnone c hd h
  have hdigit : ¬ c.isDigit := by
    rcases h with h | rfl
    · simp [Char.isAlpha, Char.isUpper, Char.isLower, Char.isDigit, UInt32.le_iff_toNat_le] at h ⊢
      omega
    · decide
  have hword : Text.isLetter c ∨ c = '_' := h.imp_left isLetter_of_isAlpha
  simp only [List.forall_mem_cons] at hmarks
  simp [start, mark?, hblank, hmarks, hdigit, hword]

/-- A word in any case is as much in letters and underscores as its small letters are. -/
theorem lettered_spells (hname : ∀ d ∈ name.toList, d.isLower ∨ d = '_')
    (h : Text.sameIgnoringCase (String.ofList chars) name) : ∀ c ∈ chars, Lettered c := by
  have hsame : chars.map Char.toLower = name.toList.map Char.toLower := by
    simpa [Text.sameIgnoringCase] using h
  intro c hc
  obtain ⟨d, hd, hdc⟩ := List.mem_map.mp (hsame ▸ List.mem_map_of_mem hc)
  have halpha : d.isAlpha = c.isAlpha := by
    rw [← Char.isAlpha_toLower_eq_isAlpha, hdc, Char.isAlpha_toLower_eq_isAlpha]
  rcases hname d hd with hlower | rfl
  · left
    rw [← halpha]
    simp [Char.isAlpha, hlower]
  · right
    have hupper : ¬ c.isUpper := by
      intro hupper
      simp [Char.isAlpha, hupper] at halpha
    rw [← Char.toLower_eq_of_not_isUpper hupper, ← hdc]
    rfl

theorem scanFrom_cons {mode mode' : Mode} {tokens : List Token}
    (hfeed : feed mode offset c = .ok (tokens, mode'))
    (h : scanFrom mode' (offset + 1) rest = .ok tail) :
    scanFrom mode offset (c :: rest) = .ok (tokens ++ tail) :=
  bind_eq_ok.mpr ⟨(tokens, mode'), hfeed, bind_eq_ok.mpr ⟨tail, h, rfl⟩⟩

/-- What ends a word is read on its own. -/
theorem scanFrom_word_parted {gathered : List Char} (hrest : Parted rest)
    (h : scanFrom .between offset rest = .ok tail) :
    scanFrom (.word gathered) offset rest = .ok (.word (textOf gathered) :: tail) := by
  cases rest with
  | nil =>
    cases h
    rfl
  | cons c rest =>
    obtain ⟨⟨tokens, mode⟩, hstart, h⟩ := bind_eq_ok.mp h
    obtain ⟨others, hothers, h⟩ := bind_eq_ok.mp h
    cases h
    have hfeed : feed (.word gathered) offset c = .ok (.word (textOf gathered) :: tokens, mode) := by
      simp only [feed, hrest c rfl]
      exact bind_eq_ok.mpr ⟨(tokens, mode), hstart, rfl⟩
    exact scanFrom_cons hfeed hothers

theorem scanFrom_word {gathered : List Char} (hword : ∀ c ∈ chars, Lettered c)
    (hrest : Parted rest) (h : scanFrom .between (offset + chars.length) rest = .ok tail) :
    scanFrom (.word gathered) offset (chars ++ rest) =
      .ok (.word (textOf (chars.reverse ++ gathered)) :: tail) := by
  induction chars generalizing gathered offset with
  | nil => exact scanFrom_word_parted hrest h
  | cons c chars ih =>
    obtain ⟨hc, hword⟩ := List.forall_mem_cons.mp hword
    rw [List.length_cons, Nat.add_comm _ 1, ← Nat.add_assoc] at h
    have hfeed : feed (.word gathered) offset c = .ok ([], .word (c :: gathered)) := by
      simp only [feed, hc.goesOn, if_true]
    rw [List.reverse_cons, List.append_assoc]
    exact scanFrom_cons hfeed (ih hword h)

theorem scanFrom_quotedName {gathered : List Char} (hname : '"' ∉ chars)
    (h : scanFrom .between (offset + chars.length + 1) rest = .ok tail) :
    scanFrom (.quotedName gathered) offset (chars ++ '"' :: rest) =
      .ok (.word (textOf (chars.reverse ++ gathered)) :: tail) := by
  induction chars generalizing gathered offset with
  | nil =>
    have hfeed : feed (.quotedName gathered) offset '"' = .ok ([.word (textOf gathered)], .between) :=
      rfl
    exact scanFrom_cons hfeed h
  | cons c chars ih =>
    obtain ⟨hc, hname⟩ := List.ne_and_not_mem_of_not_mem_cons hname
    rw [List.length_cons, Nat.add_comm chars.length 1, ← Nat.add_assoc] at h
    have hfeed : feed (.quotedName gathered) offset c = .ok ([], .quotedName (c :: gathered)) := by
      simp only [feed, Ne.symm hc, if_false]
    rw [List.reverse_cons, List.append_assoc]
    exact scanFrom_cons hfeed (ih hname h)

theorem start_mark {token : Token} (h : mark? c = some token) :
    start offset c = .ok ([token], .between) := by
  have hblank : Text.isBlank c = false := by
    unfold mark? at h
    split_ifs at h with h₁ h₂ h₃ h₄ h₅ h₆ h₇ <;> subst c <;> decide
  simp [start, hblank, h]

/-- Letters and underscores are scanned as one word. -/
theorem scanFrom_lettered (hne : chars ≠ []) (hword : ∀ c ∈ chars, Lettered c)
    (hrest : Parted rest) (h : scanFrom .between (offset + chars.length) rest = .ok tail) :
    scanFrom .between offset (chars ++ rest) = .ok (.word (String.ofList chars) :: tail) := by
  obtain ⟨c, chars, rfl⟩ := List.exists_cons_of_ne_nil hne
  obtain ⟨hc, hchars⟩ := List.forall_mem_cons.mp hword
  rw [List.length_cons, Nat.add_comm _ 1, ← Nat.add_assoc] at h
  have hfeed : feed .between offset c = .ok ([], .word [c]) := start_lettered hc
  simpa [textOf] using scanFrom_cons hfeed (scanFrom_word hchars hrest h)

theorem ne_nil_of_spells (hne : name ≠ "")
    (h : Text.sameIgnoringCase (String.ofList chars) name) : chars ≠ [] := by
  rintro rfl
  have hempty : name.toList = [] := by simpa [Text.sameIgnoringCase] using h
  exact hne (String.toList_eq_nil_iff.mp hempty)

/-- The scan makes one token of what writes a symbol. -/
theorem scanFrom_symbol {symbol : Symbol} (hp : symbol.Plain) (hs : symbol.Spells chars)
    (hrest : Parted rest) (h : scanFrom .between (offset + chars.length) rest = .ok tail) :
    ∃ token, symbol.Stands token ∧
      scanFrom .between offset (chars ++ rest) = .ok (token :: tail) := by
  cases symbol with
  | word name =>
    obtain ⟨hne, hname⟩ := hp
    exact ⟨.word (String.ofList chars), ⟨_, rfl, hs⟩,
      scanFrom_lettered (ne_nil_of_spells hne hs) (lettered_spells hname hs) hrest h⟩
  | column name =>
    cases hs
    refine ⟨.word name, rfl, ?_⟩
    have hfeed : feed .between offset '"' = .ok ([], .quotedName []) := rfl
    have hoffset : offset + ('"' :: (name.toList ++ ['"'])).length =
        offset + 1 + name.toList.length + 1 := by
      simp only [List.length_cons, List.length_append, List.length_nil]
      omega
    rw [hoffset] at h
    have hname := scanFrom_cons hfeed (scanFrom_quotedName hp h)
    simpa [textOf] using hname
  | mark c =>
    cases hs
    obtain ⟨token, hmark⟩ := Option.isSome_iff_exists.mp hp
    have hfeed : feed .between offset c = .ok ([token], .between) := start_mark hmark
    exact ⟨token, hmark, scanFrom_cons hfeed h⟩
  | bound c =>
    cases hs
    have hstart : feed .between offset c = .ok ([], .bound c) := by
      rcases hp with rfl | rfl <;> rfl
    have hfeed : feed (.bound c) (offset + 1) '=' =
        .ok ([if c = '>' then .atLeast else .atMost], .between) := rfl
    exact ⟨_, rfl, scanFrom_cons hstart (scanFrom_cons hfeed h)⟩

theorem scanFrom_blank (hgap : Blank gap)
    (h : scanFrom .between (offset + gap.length) rest = .ok tail) :
    scanFrom .between offset (gap ++ rest) = .ok tail := by
  induction gap generalizing offset with
  | nil => exact h
  | cons c gap ih =>
    obtain ⟨hc, hgap⟩ := List.forall_mem_cons.mp hgap
    rw [List.length_cons, Nat.add_comm _ 1, ← Nat.add_assoc] at h
    have hfeed : feed .between offset c = .ok ([], .between) := by
      simp only [feed, start, hc, if_true]
    exact scanFrom_cons hfeed (ih hgap h)

/-- The scan makes one token of each symbol. -/
theorem scanFrom_spelled (h : Spelled symbols chars) (hp : ∀ symbol ∈ symbols, symbol.Plain)
    (hrest : Parted rest) (htail : scanFrom .between (offset + chars.length) rest = .ok tail) :
    ∃ tokens, List.Forall₂ Symbol.Stands symbols tokens ∧
      scanFrom .between offset (chars ++ rest) = .ok (tokens ++ tail) := by
  induction h generalizing offset with
  | single hs =>
    obtain ⟨token, htoken, h⟩ := scanFrom_symbol (hp _ (List.mem_singleton_self _)) hs hrest htail
    exact ⟨[token], .cons htoken .nil, h⟩
  | @cons symbol symbols chars gap others hs hgap hne hspelled ih =>
    obtain ⟨hfirst, hp⟩ := List.forall_mem_cons.mp hp
    rw [List.append_assoc, List.length_append, List.length_append, ← Nat.add_assoc,
      ← Nat.add_assoc] at htail
    obtain ⟨tokens, htokens, hothers⟩ := ih hp htail
    have hparted : Parted (gap ++ (others ++ rest)) := by
      obtain ⟨c, gap', rfl⟩ := List.exists_cons_of_ne_nil hne
      exact parted_blank (hgap c (List.mem_cons_self ..))
    obtain ⟨token, htoken, h⟩ :=
      scanFrom_symbol hfirst hs hparted (scanFrom_blank hgap hothers)
    refine ⟨token :: tokens, .cons htoken htokens, ?_⟩
    simpa only [List.append_assoc, List.cons_append] using h

end Planner.Sql
