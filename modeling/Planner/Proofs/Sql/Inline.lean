import Planner.Proofs.Sql.Literal
import Planner.Proofs.Sql.Simulation
import Planner.Proofs.Sql.Soundness

/-! A parameter and the literal that spells it mean the same: a literal in the place of a question
mark is read as the parameter that the mark would have taken. -/
namespace Planner.Sql

open Outcome

variable {t token : Token} {v : Json} {k : Nat} {tokens first more : List Token}

/-- What a character of a statement's text stands in. -/
inductive Region
  | outside
  | literal
  | quotedName
deriving DecidableEq

/-- The region behind a character. A doubled quote leaves a text and enters it again. -/
def Region.after : Region → Char → Region
  | .outside, c => if c = '\'' then .literal else if c = '"' then .quotedName else .outside
  | .literal, c => if c = '\'' then .outside else .literal
  | .quotedName, c => if c = '"' then .outside else .quotedName

/-- The text with a literal between spaces in the place of the k-th question mark that is neither
in a text nor in a quoted name. -/
def inlined (literal : List Char) : (k : Nat) → Region → List Char → List Char
  | _, _, [] => []
  | k, region, c :: rest =>
    if c = '?' ∧ region = .outside then
      match k with
      | 0 => ' ' :: (literal ++ ' ' :: rest)
      | k + 1 => c :: inlined literal k region rest
    else c :: inlined literal k (region.after c) rest

/-- The tokens with another in the place of the k-th placeholder. -/
def filled (t : Token) : (k : Nat) → List Token → List Token
  | _, [] => []
  | k, token :: rest =>
    if token = .placeholder then
      match k with
      | 0 => t :: rest
      | k + 1 => token :: filled t k rest
    else token :: filled t k rest

theorem filled_cons (h : token ≠ .placeholder) (k : Nat) (tokens : List Token) :
    filled t k (token :: tokens) = token :: filled t k tokens := by
  simp only [filled, if_neg h]

theorem filled_append (h : Token.placeholder ∉ first) (k : Nat) (more : List Token) :
    filled t k (first ++ more) = first ++ filled t k more := by
  induction first with
  | nil => rfl
  | cons token first ih =>
    obtain ⟨htoken, hfirst⟩ := List.ne_and_not_mem_of_not_mem_cons h
    rw [List.cons_append, filled_cons (Ne.symm htoken), ih hfirst, List.cons_append]

theorem length_filled (k : Nat) (tokens : List Token) :
    (filled t k tokens).length = tokens.length := by
  induction tokens generalizing k with
  | nil => rfl
  | cons token tokens ih =>
    unfold filled
    split_ifs
    · cases k with
      | zero => rfl
      | succ k => simp [ih]
    · simp [ih]

/-! ### The scan -/

/-- The region that the characters read last leave. -/
def Mode.region : Mode → Region
  | .literal _ => .literal
  | .quotedName _ => .quotedName
  | _ => .outside

/-- Whether two modes differ at most in where a number began, which only errors tell. -/
inductive Mode.Alike : Mode → Mode → Prop
  | refl (mode : Mode) : Alike mode mode
  | number {begin begin' : Nat} {first : Char} {chars : List Char} :
    Alike (.number begin first chars) (.number begin' first chars)

variable {offset : Nat} {c : Char} {mode mode' : Mode}

theorem mark?_eq_placeholder (h : mark? c = some .placeholder) : c = '?' := by
  unfold mark? at h
  split_ifs at h with hc
  · exact hc
  all_goals simp at h

/-- A character of a kind that no quote is of stays outside. -/
theorem after_eq_outside (p : Char → Bool) (h : p c) (hsingle : ¬ p '\'') (hdouble : ¬ p '"') :
    Region.outside.after c = .outside := by
  have hsingle : c ≠ '\'' := fun hc => hsingle (hc ▸ h)
  have hdouble : c ≠ '"' := fun hc => hdouble (hc ▸ h)
  simp only [Region.after, if_neg hsingle, if_neg hdouble]

/-- Where a character leads to between tokens, and which character a placeholder comes from. -/
theorem start_region (h : start offset c = .ok (tokens, mode)) :
    mode.region = Region.outside.after c ∧ (Token.placeholder ∈ tokens → c = '?') := by
  unfold start at h
  split at h
  · rename_i hblank
    cases h
    exact ⟨(after_eq_outside Text.isBlank hblank (by decide) (by decide)).symm, by simp⟩
  split at h
  · rename_i token hmark
    cases h
    have hsome : (mark? c).isSome := by simp [hmark]
    have hafter := after_eq_outside (mark? · |>.isSome) hsome (by decide) (by decide)
    refine ⟨hafter.symm, fun hmem => ?_⟩
    rw [← List.mem_singleton.mp hmem] at hmark
    exact mark?_eq_placeholder hmark
  split_ifs at h with hbound hliteral hquoted hdigit hminus hletter <;> cases h
  all_goals refine ⟨?_, by simp⟩
  · exact (after_eq_outside (fun c => c = '>' || c = '<') hbound (by decide) (by decide)).symm
  · simp only [Region.after, if_pos hliteral, Mode.region]
  all_goals simp [Region.after, Mode.region, hliteral, hquoted]

theorem start_alike (h : start offset c = .ok (tokens, mode)) (offset' : Nat) :
    ∃ mode', start offset' c = .ok (tokens, mode') ∧ mode.Alike mode' := by
  unfold start at h ⊢
  split at h
  · rename_i hblank
    cases h
    exact ⟨_, if_pos hblank, .refl _⟩
  rename_i hblank
  rw [if_neg hblank]
  split at h
  · rename_i token hmark
    cases h
    exact ⟨_, rfl, .refl _⟩
  rename_i hmark
  split_ifs at h ⊢ <;> cases h
  all_goals first | exact ⟨_, rfl, .refl _⟩ | exact ⟨_, rfl, .number⟩

theorem endToken_region (htoken : token ≠ .placeholder)
    (h : endToken token offset c = .ok (tokens, mode)) :
    mode.region = Region.outside.after c ∧ (Token.placeholder ∈ tokens → c = '?') := by
  obtain ⟨⟨others, mode'⟩, hstart, h⟩ := bind_eq_ok.mp h
  cases h
  obtain ⟨hregion, hothers⟩ := start_region hstart
  exact ⟨hregion, fun hmem => hothers (List.mem_of_ne_of_mem htoken.symm hmem)⟩

theorem endToken_alike (h : endToken token offset c = .ok (tokens, mode)) (offset' : Nat) :
    ∃ mode', endToken token offset' c = .ok (tokens, mode') ∧ mode.Alike mode' := by
  obtain ⟨⟨others, mode'⟩, hstart, h⟩ := bind_eq_ok.mp h
  cases h
  obtain ⟨mode', hstart', halike⟩ := start_alike hstart offset'
  exact ⟨mode', bind_eq_ok.mpr ⟨_, hstart', rfl⟩, halike⟩

theorem numberToken_ne_placeholder {begin : Nat} {first : Char} {chars : List Char}
    (h : numberToken begin first chars = .ok token) : token ≠ .placeholder := by
  unfold numberToken at h
  dsimp only at h
  split at h
  · cases h
    simp
  · cases h

theorem numberToken_begin {begin : Nat} {first : Char} {chars : List Char}
    (h : numberToken begin first chars = .ok token) (begin' : Nat) :
    numberToken begin' first chars = .ok token := by
  unfold numberToken at h ⊢
  dsimp only at h ⊢
  split at h
  · cases h
    rfl
  · cases h

/-- Each character leads to its region, and a placeholder comes from a question mark outside. -/
theorem feed_region (h : feed mode offset c = .ok (tokens, mode')) :
    mode'.region = mode.region.after c ∧
      (Token.placeholder ∈ tokens → c = '?' ∧ mode.region = .outside) := by
  have hended : ∀ token, token ≠ .placeholder →
      endToken token offset c = .ok (tokens, mode') → mode'.region = Region.outside.after c ∧
        (Token.placeholder ∈ tokens → c = '?' ∧ Region.outside = .outside) :=
    fun token htoken hend => (endToken_region htoken hend).imp_right fun hmem hp => ⟨hmem hp, rfl⟩
  cases mode with
  | between => exact (start_region h).imp_right fun hmem hp => ⟨hmem hp, rfl⟩
  | literal chars =>
    cases h
    refine ⟨?_, by simp⟩
    simp only [Mode.region, Region.after]
    split_ifs <;> rfl
  | literalQuote chars =>
    simp only [feed] at h
    split_ifs at h with hquote
    · cases h
      exact ⟨by simp [Mode.region, Region.after, hquote], by simp⟩
    · exact hended _ (by simp) h
  | quotedName chars =>
    simp only [feed] at h
    split_ifs at h with hquote <;> cases h
    · exact ⟨by simp [Mode.region, Region.after, hquote], by simp⟩
    · exact ⟨by simp [Mode.region, Region.after, hquote], by simp⟩
  | word chars =>
    simp only [feed] at h
    split_ifs at h with hletter
    · cases h
      have hafter := after_eq_outside (fun c => Text.isLetterOrNumeral c || c = '_') hletter
        (by decide) (by decide)
      exact ⟨hafter.symm, by simp⟩
    · exact hended _ (by simp) h
  | number begin first chars =>
    simp only [feed] at h
    split_ifs at h with hdigit
    · cases h
      have hafter := after_eq_outside (fun c => c.isDigit || c = '.') hdigit
        (by decide) (by decide)
      exact ⟨hafter.symm, by simp⟩
    · obtain ⟨token, htoken, h⟩ := bind_eq_ok.mp h
      exact hended _ (numberToken_ne_placeholder htoken) h
  | minus =>
    simp only [feed] at h
    split_ifs at h with hdigit
    cases h
    exact ⟨(after_eq_outside Char.isDigit hdigit (by decide) (by decide)).symm, by simp⟩
  | bound b =>
    simp only [feed] at h
    split_ifs at h with hequals hgreater <;> cases h
    all_goals exact ⟨by simp [Mode.region, Region.after, hequals], by simp⟩

/-- Where a character stands does not matter, nor where a number began. -/
theorem feed_alike {other : Mode} (halike : mode.Alike other)
    (h : feed mode offset c = .ok (tokens, mode')) (offset' : Nat) :
    ∃ other', feed other offset' c = .ok (tokens, other') ∧ mode'.Alike other' := by
  cases halike with
  | number =>
    simp only [feed] at h ⊢
    split_ifs at h ⊢ with hdigit
    · cases h
      exact ⟨_, rfl, .number⟩
    · obtain ⟨token, htoken, h⟩ := bind_eq_ok.mp h
      obtain ⟨other', hend, halike⟩ := endToken_alike h offset'
      exact ⟨other', bind_eq_ok.mpr ⟨_, numberToken_begin htoken _, hend⟩, halike⟩
  | refl =>
    cases mode with
    | between => exact start_alike h offset'
    | literal | quotedName => exact ⟨mode', h, .refl _⟩
    | literalQuote | word =>
      simp only [feed] at h ⊢
      split_ifs at h ⊢
      · exact ⟨mode', h, .refl _⟩
      · exact endToken_alike h offset'
    | number =>
      simp only [feed] at h ⊢
      split_ifs at h ⊢ with hdigit
      · exact ⟨mode', h, .refl _⟩
      · obtain ⟨token, htoken, h⟩ := bind_eq_ok.mp h
        obtain ⟨other', hend, halike⟩ := endToken_alike h offset'
        exact ⟨other', bind_eq_ok.mpr ⟨_, htoken, hend⟩, halike⟩
    | minus =>
      simp only [feed] at h ⊢
      split_ifs at h ⊢
      cases h
      exact ⟨_, rfl, .number⟩
    | bound =>
      simp only [feed] at h ⊢
      split_ifs at h ⊢ <;> exact ⟨mode', h, .refl _⟩

theorem finish_alike {other : Mode} (halike : mode.Alike other)
    (h : finish mode offset = .ok tokens) (offset' : Nat) : finish other offset' = .ok tokens := by
  cases halike with
  | number =>
    obtain ⟨token, htoken, h⟩ := bind_eq_ok.mp h
    exact bind_eq_ok.mpr ⟨token, numberToken_begin htoken _, h⟩
  | refl => cases mode <;> first | exact h | cases h

/-- What is scanned does not hang on where it stands. -/
theorem scanFrom_alike {other : Mode} {chars : List Char} (halike : mode.Alike other)
    (h : scanFrom mode offset chars = .ok tokens) (offset' : Nat) :
    scanFrom other offset' chars = .ok tokens := by
  induction chars generalizing mode other offset offset' tokens with
  | nil => exact finish_alike halike h offset'
  | cons c rest ih =>
    obtain ⟨⟨first, mode'⟩, hfeed, h⟩ := bind_eq_ok.mp h
    obtain ⟨others, hothers, h⟩ := bind_eq_ok.mp h
    cases h
    obtain ⟨other', hfeed', halike'⟩ := feed_alike halike hfeed offset'
    exact scanFrom_cons hfeed' (ih halike' hothers _)

/-- Outside, a question mark completes what a space completes, and a placeholder. -/
theorem feed_placeholder (hregion : mode.region = .outside)
    (h : feed mode offset '?' = .ok (tokens, mode')) :
    ∃ first, tokens = first ++ [.placeholder] ∧ .placeholder ∉ first ∧ mode' = .between ∧
      feed mode offset ' ' = .ok (first, .between) := by
  cases mode with
  | between =>
    cases h
    exact ⟨[], rfl, by simp, rfl, rfl⟩
  | literal | quotedName => cases hregion
  | literalQuote chars =>
    cases h
    exact ⟨[.text (textOf chars)], rfl, by simp, rfl, rfl⟩
  | word chars =>
    cases h
    exact ⟨[.word (textOf chars)], rfl, by simp, rfl, rfl⟩
  | number begin first chars =>
    obtain ⟨token, htoken, h⟩ := bind_eq_ok.mp h
    cases h
    have hne := numberToken_ne_placeholder htoken
    exact ⟨[token], rfl, by simpa using hne.symm, rfl, bind_eq_ok.mpr ⟨token, htoken, rfl⟩⟩
  | minus | bound => cases h

theorem finish_placeholder (h : finish mode offset = .ok tokens) : .placeholder ∉ tokens := by
  cases mode with
  | number =>
    obtain ⟨token, htoken, h⟩ := bind_eq_ok.mp h
    cases h
    simpa using (numberToken_ne_placeholder htoken).symm
  | between | literalQuote | word =>
    cases h
    simp
  | literal | quotedName | minus | bound => cases h

/-- A literal in the place of a question mark is scanned as its token in the place of the
placeholder. -/
theorem scanFrom_inlined {literal chars : List Char}
    (hliteral : ∀ rest tail, (∀ offset, scanFrom .between offset rest = .ok tail) →
      ∀ offset, scanFrom .between offset (literal ++ ' ' :: rest) = .ok (t :: tail))
    (h : scanFrom mode offset chars = .ok tokens) (hk : k < tokens.count .placeholder) :
    scanFrom mode offset (inlined literal k mode.region chars) = .ok (filled t k tokens) := by
  induction chars generalizing mode offset tokens k with
  | nil =>
    rw [List.count_eq_zero.mpr (finish_placeholder h)] at hk
    exact absurd hk (Nat.not_lt_zero k)
  | cons c rest ih =>
    obtain ⟨⟨first, mode'⟩, hfeed, h⟩ := bind_eq_ok.mp h
    obtain ⟨more, hmore, h⟩ := bind_eq_ok.mp h
    cases h
    by_cases hmark : c = '?' ∧ mode.region = .outside
    · obtain ⟨rfl, hregion⟩ := hmark
      obtain ⟨ended, rfl, hended, rfl, hblank⟩ := feed_placeholder hregion hfeed
      unfold inlined
      rw [if_pos ⟨rfl, hregion⟩, List.append_assoc, filled_append hended]
      cases k with
      | zero =>
        have hrest : ∀ offset, scanFrom .between offset rest = .ok more :=
          fun offset => scanFrom_alike (.refl _) hmore offset
        exact scanFrom_cons hblank (hliteral rest more hrest _)
      | succ k =>
        rw [List.append_assoc, List.count_append, List.count_eq_zero.mpr hended] at hk
        have hk : k < more.count .placeholder := by simpa using hk
        have hcons := scanFrom_cons hfeed (ih hmore hk)
        rw [List.append_assoc] at hcons
        rw [hregion]
        exact hcons
    · obtain ⟨hregion, honly⟩ := feed_region hfeed
      have hnone : Token.placeholder ∉ first := fun hmem => hmark (honly hmem)
      rw [List.count_append, List.count_eq_zero.mpr hnone, Nat.zero_add] at hk
      unfold inlined
      rw [if_neg hmark, filled_append hnone, ← hregion]
      exact scanFrom_cons hfeed (ih hmore hk)

/-! ### The cursors -/

/-- Two cursors of which the second has a literal where the first has a parameter: in the place of
the k-th placeholder ahead, or somewhere behind. -/
inductive Filled (t : Token) (v : Json) : Cursor → Cursor → Prop
  | ahead {k : Nat} {tokens : List Token} {unbound : List Json} {n : Nat}
    (hv : unbound[k]? = some v) (hk : k < tokens.count .placeholder) :
    Filled t v ⟨tokens, unbound, n⟩ ⟨filled t k tokens, unbound.eraseIdx k, n⟩
  | behind {tokens : List Token} {unbound : List Json} {n : Nat} :
    Filled t v ⟨tokens, unbound, n + 1⟩ ⟨tokens, unbound, n⟩

/-- What two such cursors have next. -/
inductive Next (t : Token) (v : Json) : Cursor → Cursor → Prop
  | ended {first second : List Json} {n m : Nat} : Next t v ⟨[], first, n⟩ ⟨[], second, m⟩
  | shared {token : Token} {rest others : List Token} {first second : List Json} {n m : Nat}
    (hne : token ≠ .placeholder) (h : Filled t v ⟨rest, first, n⟩ ⟨others, second, m⟩) :
    Next t v ⟨token :: rest, first, n⟩ ⟨token :: others, second, m⟩
  | placeholder {rest others : List Token} {first second : List Json} {n m : Nat}
    (hhead : first.headD .null = second.headD .null)
    (h : Filled t v ⟨rest, first.tail, n + 1⟩ ⟨others, second.tail, m + 1⟩) :
    Next t v ⟨.placeholder :: rest, first, n⟩ ⟨.placeholder :: others, second, m⟩
  | literal {rest : List Token} {first second : List Json} {n m : Nat}
    (hhead : first.headD .null = v) (h : Filled t v ⟨rest, first.tail, n + 1⟩ ⟨rest, second, m⟩) :
    Next t v ⟨.placeholder :: rest, first, n⟩ ⟨t :: rest, second, m⟩

namespace Filled

variable {a b : Cursor}

theorem next (h : Filled t v a b) : Next t v a b := by
  cases h with
  | behind =>
    rename_i tokens unbound n
    cases tokens with
    | nil => exact .ended
    | cons token rest =>
      by_cases hp : token = .placeholder
      · subst hp
        exact .placeholder rfl .behind
      · exact .shared hp .behind
  | @ahead k tokens unbound n hv hk =>
    cases tokens with
    | nil => exact absurd hk (Nat.not_lt_zero k)
    | cons token rest =>
      unfold filled
      split_ifs with hp
      · subst hp
        rw [List.count_cons_self] at hk
        cases unbound with
        | nil => cases hv
        | cons u unbound =>
          cases k with
          | zero =>
            cases hv
            exact .literal rfl .behind
          | succ k => exact .placeholder rfl (.ahead hv (Nat.lt_of_succ_lt_succ hk))
      · rw [List.count_cons_of_ne hp] at hk
        exact .shared hp (.ahead hv hk)

/-- A token that neither a placeholder nor the literal is gets found at both or at neither. -/
theorem finds {look : Cursor → Option Cursor} (wanted : Token → Prop)
    (hend : ∀ unbound n, look ⟨[], unbound, n⟩ = none)
    (hfound : ∀ token rest unbound n, wanted token →
      look ⟨token :: rest, unbound, n⟩ = some ⟨rest, unbound, n⟩)
    (hmissing : ∀ token rest unbound n, ¬ wanted token → look ⟨token :: rest, unbound, n⟩ = none)
    (hplaceholder : ¬ wanted .placeholder) (ht : ¬ wanted t) : Finds (Filled t v) look where
  taken := by
    intro a b a' h ha
    cases h.next with
    | ended => simp [hend] at ha
    | @shared token _ _ _ _ _ _ hne hrest =>
      by_cases hwanted : wanted token
      · rw [hfound _ _ _ _ hwanted] at ha
        cases ha
        exact ⟨_, hfound _ _ _ _ hwanted, hrest⟩
      · simp [hmissing _ _ _ _ hwanted] at ha
    | placeholder | literal => simp [hmissing _ _ _ _ hplaceholder] at ha
  missing := by
    intro a b h ha
    cases h.next with
    | ended => exact hend ..
    | @shared token _ _ _ _ _ _ hne hrest =>
      by_cases hwanted : wanted token
      · simp [hfound _ _ _ _ hwanted] at ha
      · exact hmissing _ _ _ _ hwanted
    | placeholder => exact hmissing _ _ _ _ hplaceholder
    | literal => exact hmissing _ _ _ _ ht

theorem identifier : Follows (Filled t v) Cursor.identifier := by
  intro a b h name a' ha
  cases h.next with
  | shared hne hrest =>
    unfold Cursor.identifier at ha ⊢
    split at ha
    · rename_i htokens
      cases htokens
      cases ha
      exact ⟨_, rfl, hrest⟩
    · cases ha
  | ended | placeholder | literal => cases ha

variable (hliteral : Literal t v)
include hliteral

theorem not_mark (hmark : token.IsMark) : t ≠ token := by
  rintro rfl
  cases hliteral <;> exact hmark

/-- No keyword stands for a value. -/
theorem not_keyword {name : String} (hname : Cursor.wordValue? name = none) :
    ¬ (Symbol.word name).Stands t := by
  rintro ⟨w, rfl, hsame⟩
  have hvalue : Cursor.wordValue? w = some v := wordValue?_eq_some.mpr hliteral
  rw [wordValue?_same hsame, hname] at hvalue
  cases hvalue

theorem value : Follows (Filled t v) Cursor.value := by
  intro a b h x a' ha
  cases h.next with
  | ended => cases ha
  | placeholder hhead hrest =>
    cases ha
    exact ⟨_, by rw [Cursor.value, hhead], hrest⟩
  | literal hhead hrest =>
    cases ha
    exact ⟨_, by rw [value_literal hliteral, hhead], hrest⟩
  | shared hne hrest =>
    rcases value_cases ha with ⟨more, htokens, -, -⟩ | ⟨token, more, htokens, htoken, rfl⟩
    · cases htokens
      exact absurd rfl hne
    · cases htokens
      exact ⟨_, value_literal htoken, hrest⟩

/-- A statement with a literal for a parameter is read step by step as the one with the
placeholder. -/
theorem simulates : Simulates (Filled t v) where
  length := by
    intro a b h
    cases h with
    | ahead => exact (length_filled ..).symm
    | behind => rfl
  keyword? name hname := by
    refine finds (Symbol.word name).Stands (fun _ _ => rfl) ?_ ?_ ?_
      (not_keyword hliteral hname)
    · rintro token rest unbound n ⟨w, rfl, hsame⟩
      simp only [Cursor.keyword?, if_pos hsame]
    · intro token rest unbound n hnot
      cases token with
      | word w =>
        have hdiffer : ¬ Text.sameIgnoringCase w name := fun hsame => hnot ⟨w, rfl, hsame⟩
        simp only [Cursor.keyword?, if_neg hdiffer]
      | _ => rfl
    · rintro ⟨w, hw, -⟩
      cases hw
  token? token hmark := by
    refine finds (· = token) (fun _ _ => rfl) (fun _ _ _ _ h => if_pos h)
      (fun _ _ _ _ h => if_neg h) ?_ (not_mark hliteral hmark)
    rintro rfl
    exact hmark
  identifier := identifier
  value := value hliteral

end Filled

/-- At the end the literal is behind. -/
theorem Filled.ended {a b : Cursor} (h : Filled t v a b) (hend : a.tokens = []) :
    b.tokens = [] ∧ a.placeholders = b.placeholders + 1 := by
  cases h with
  | behind => exact ⟨hend, rfl⟩
  | ahead hv hk =>
    cases hend
    exact absurd hk (Nat.not_lt_zero _)

/-- The text without the placeholder is complete without its parameter. -/
theorem complete_filled {a b : Cursor} {parameters : Nat} (hliteral : Literal t v)
    (h : Filled t v a b) (ha : complete (parameters + 1) a = .ok ()) :
    complete parameters b = .ok () := by
  have hrest := ((Filled.simulates hliteral).token? .semicolon trivial).getD h
  obtain ⟨hend, hcount⟩ := complete_iff.mp ha
  obtain ⟨hend', hcount'⟩ := hrest.ended hend
  exact complete_iff.mpr ⟨hend', by omega⟩

/-- A literal in the place of a question mark means what the mark's parameter does. -/
theorem parse_inlined {sql : String} {parameters : List Json} {s : Statement}
    (h : parse sql parameters = .ok s) (hk : parameters[k]? = some v) (hv : Writable v) :
    (∃ literal, Writes literal v) ∧ ∀ literal, Writes literal v →
      parse (String.ofList (inlined literal k .outside sql.toList)) (parameters.eraseIdx k) =
        .ok s := by
  refine ⟨exists_writes hv, fun literal hwrites => ?_⟩
  obtain ⟨tokens, a, hscan, hcount, hs, hcomplete⟩ := parse_steps h
  have hlt : k < parameters.length := (List.getElem?_eq_some_iff.mp hk).1
  obtain ⟨t, hliteral, hscanned⟩ := scanFrom_writes hwrites
  have hinlined : scan (String.ofList (inlined literal k .outside sql.toList)) =
      .ok (filled t k tokens) := by
    rw [scan, String.toList_ofList]
    exact scanFrom_inlined hscanned hscan (hcount ▸ hlt)
  obtain ⟨b, hb, hfilled⟩ :=
    (Filled.simulates hliteral).statement (.ahead hk (hcount ▸ hlt)) hs
  have hlength : (parameters.eraseIdx k).length + 1 = parameters.length := by
    rw [List.length_eraseIdx_of_lt hlt]
    omega
  refine bind_eq_ok.mpr ⟨_, hinlined, bind_eq_ok.mpr ⟨_, hb, bind_eq_ok.mpr ⟨(), ?_, rfl⟩⟩⟩
  exact complete_filled hliteral hfilled (hlength ▸ hcomplete)

/-- An insertion with question marks in a text and in a name. -/
def questioned : Statement :=
  .insert .notes ["id", "a?b", "tags"] [.text "?", .text "it's ?", .null] .append

theorem parse_inlined_questioned :
    parse "INSERT INTO notes (id, \"a?b\", tags) VALUES ('?', ?, ?)" [.text "it's ?", .null] =
      .ok questioned ∧
    [.text "it's ?", .null][0]? = some (Json.text "it's ?") ∧ Writable (.text "it's ?") ∧
    parse "INSERT INTO notes (id, \"a?b\", tags) VALUES ('?',  'it''s ?' , ?)" [.null] =
      .ok questioned := by
  have hparse : parse "INSERT INTO notes (id, \"a?b\", tags) VALUES ('?', ?, ?)"
      [.text "it's ?", .null] = .ok questioned := rfl
  exact ⟨hparse, rfl, trivial,
    (parse_inlined hparse (k := 0) rfl trivial).2 "'it''s ?'".toList (.text "it's ?")⟩

end Planner.Sql
