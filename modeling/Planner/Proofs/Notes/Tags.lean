import Mathlib.Tactic
import Planner.Entity.Layout
import Planner.Proofs.Text.Lower

/-! What stands in the text of a list of texts. A word without quotes stands in one of the pieces
between the quotes: in a text of the list as it is escaped, or in the marks around the texts. It stands
in an escaped text where it stands in the text itself, if no escape ends in a beginning of it. -/
namespace Planner.Json

open Text (IsAscii)

variable {c d : Char} {q s t tail : List Char} {texts : List (List Char)}

/-! ### Parts between separators -/

theorem prefix_of_append_cons (hd : d ∉ q) (h : q <+: s ++ d :: t) : q <+: s := by
  rcases List.prefix_or_prefix_of_prefix h (List.prefix_append s _) with h' | ⟨r, rfl⟩
  · exact h'
  · rw [List.prefix_append_right_inj] at h
    cases r with
    | nil => simp
    | cons a r =>
      obtain ⟨rfl, -⟩ := List.cons_prefix_cons.mp h
      simp at hd

theorem infix_append_cons_iff (hd : d ∉ q) : q <:+: s ++ d :: t ↔ q <:+: s ∨ q <:+: t := by
  constructor
  · induction s with
    | nil =>
      rw [List.nil_append, List.infix_cons_iff]
      rintro (h | h)
      · exact .inl (prefix_of_append_cons (s := []) hd h).isInfix
      · exact .inr h
    | cons a s ih =>
      rw [List.cons_append, List.infix_cons_iff]
      rintro (h | h)
      · exact .inl (prefix_of_append_cons (s := a :: s) hd h).isInfix
      · exact (ih h).imp_left (·.trans (List.suffix_cons a s).isInfix)
  · rintro (h | h)
    · exact h.trans (List.prefix_append _ _).isInfix
    · exact h.trans ((List.suffix_cons d t).trans (List.suffix_append s _)).isInfix

theorem infix_singleton_iff (hne : q ≠ []) : q <:+: [d] ↔ q = [d] := by
  rw [List.infix_cons_iff, List.prefix_cons_iff, List.infix_nil]
  simp [hne]

/-! ### The text of a list -/

/-- What is written for a text between its quotes. -/
def escape (s : List Char) : List Char := s.flatMap escapeChar

def quoted (s : List Char) : List Char := '"' :: escape s ++ ['"']

/-- The text of a list of texts. -/
def listText : List (List Char) → List Char
  | [] => ['[', ']']
  | first :: rest => '[' :: quoted first ++ rest.flatMap (fun s => ',' :: quoted s) ++ [']']

theorem renderItems_texts (texts : List String) : renderItems (texts.map .text) =
    (texts.map String.toList).flatMap fun s => ',' :: quoted s := by
  induction texts with
  | nil => rfl
  | cons first rest ih =>
    rw [List.map_cons, renderItems, ih, render]
    rfl

theorem render_ofTexts (texts : List String) :
    (ofTexts texts).render = listText (texts.map String.toList) := by
  cases texts with
  | nil => rfl
  | cons first rest =>
    rw [ofTexts, List.map_cons, render, renderItems_texts]
    rfl

/-- Whether a word is one of the marks that a list of texts has around its texts. -/
def Marks (q : List Char) (texts : List (List Char)) : Prop :=
  q = ['['] ∨ q = [']'] ∨ q = [','] ∧ 2 ≤ texts.length ∨ q = ['[', ']'] ∧ texts = []

/-- The words that are marks of lists. -/
def Stray (q : List Char) : Prop := q ∈ [['['], [']'], [','], ['[', ']']]

instance : DecidablePred Stray := fun q => inferInstanceAs (Decidable (q ∈ _))

theorem Marks.stray (h : Marks q texts) : Stray q := by
  rcases h with rfl | rfl | ⟨rfl, -⟩ | ⟨rfl, -⟩ <;> decide

theorem Stray.exists_marks (h : Stray q) : ∃ texts, Marks q texts ∧ ∀ s ∈ texts, s = [] := by
  simp only [Stray, List.mem_cons, List.not_mem_nil, or_false] at h
  rcases h with rfl | rfl | rfl | rfl
  · exact ⟨[], .inl rfl, by simp⟩
  · exact ⟨[], .inr (.inl rfl), by simp⟩
  · exact ⟨[[], []], .inr (.inr (.inl ⟨rfl, le_rfl⟩)), by simp⟩
  · exact ⟨[], .inr (.inr (.inr ⟨rfl, rfl⟩)), by simp⟩

theorem infix_others_iff (hquote : '"' ∉ q) (hne : q ≠ []) :
    q <:+: texts.flatMap (fun s => ',' :: quoted s) ++ [']'] ↔
      q = [']'] ∨ q = [','] ∧ texts ≠ [] ∨ ∃ s ∈ texts, q <:+: escape s := by
  induction texts with
  | nil => simp [infix_singleton_iff hne]
  | cons first rest ih =>
    have hsplit : (first :: rest).flatMap (fun s => ',' :: quoted s) ++ [']'] =
        [','] ++ '"' :: (escape first ++ '"' :: (rest.flatMap (fun s => ',' :: quoted s) ++ [']'])) := by
      simp [quoted]
    rw [hsplit, infix_append_cons_iff hquote, infix_append_cons_iff hquote, ih,
      infix_singleton_iff hne]
    simp only [List.mem_cons, exists_eq_or_imp, ne_eq, reduceCtorEq, not_false_eq_true, and_true]
    tauto

/-- A word without quotes stands in the text of a list in the marks around its texts, or in one of
these as it is escaped. -/
theorem infix_listText_iff (hquote : '"' ∉ q) (hne : q ≠ []) :
    q <:+: listText texts ↔ Marks q texts ∨ ∃ s ∈ texts, q <:+: escape s := by
  cases texts with
  | nil =>
    have hbegins : ∀ rest, rest <+: [']'] ↔ rest = [] ∨ rest = [']'] := by
      intro rest
      rw [List.prefix_cons_iff]
      simp
    rw [listText, List.infix_cons_iff, infix_singleton_iff hne, List.prefix_cons_iff]
    simp only [hne, false_or, hbegins, Marks]
    aesop
  | cons first rest =>
    have hsplit : listText (first :: rest) =
        ['['] ++ '"' :: (escape first ++ '"' :: (rest.flatMap (fun s => ',' :: quoted s) ++ [']'])) := by
      simp [listText, quoted]
    rw [hsplit, infix_append_cons_iff hquote, infix_append_cons_iff hquote, infix_others_iff hquote hne,
      infix_singleton_iff hne]
    have hlength : 2 ≤ (first :: rest).length ↔ rest ≠ [] := by
      cases rest <;> simp
    simp only [Marks, hlength, List.mem_cons, exists_eq_or_imp, reduceCtorEq, and_false, or_false]
    tauto

/-! ### Escaped texts -/

/-- Whether no character of a text is escaped. -/
def Unescaped (s : List Char) : Prop := ∀ c ∈ s, escapeChar c = [c]

instance (s : List Char) : Decidable (Unescaped s) :=
  List.decidableBAll (fun c : Char => escapeChar c = [c]) s

theorem escapeChar_cases (c : Char) : escapeChar c = [c] ∨ ∃ tail, escapeChar c = '\\' :: tail := by
  unfold escapeChar
  split_ifs <;> simp

namespace Unescaped

variable (h : Unescaped q)
include h

theorem quote_notMem : '"' ∉ q := fun hmem => absurd (h _ hmem) (by decide)

theorem backslash_notMem : '\\' ∉ q := fun hmem => absurd (h _ hmem) (by decide)

theorem escape_eq : escape q = q := by
  unfold escape
  induction q with
  | nil => rfl
  | cons c rest ih =>
    obtain ⟨hc, hrest⟩ := List.forall_mem_cons.mp h
    rw [List.flatMap_cons, hc, ih hrest, List.singleton_append]

/-- An escape begins with a backslash, so an escaped text begins as the text does up to there. -/
theorem prefix_of_escape (hbegins : q <+: escape s) : q <+: s := by
  induction s generalizing q with
  | nil => exact hbegins
  | cons c rest ih =>
    cases q with
    | nil => exact List.nil_prefix
    | cons d others =>
      obtain ⟨-, hothers⟩ := List.forall_mem_cons.mp h
      rw [escape, List.flatMap_cons] at hbegins
      rcases escapeChar_cases c with hc | ⟨tail, hc⟩
      · rw [hc] at hbegins
        obtain ⟨rfl, hrest⟩ := List.cons_prefix_cons.mp hbegins
        exact List.cons_prefix_cons.mpr ⟨rfl, ih hothers hrest⟩
      · rw [hc] at hbegins
        obtain ⟨rfl, -⟩ := List.cons_prefix_cons.mp hbegins
        exact absurd (List.mem_cons_self ..) h.backslash_notMem

theorem infix_escape (hpart : q <:+: s) : q <:+: escape s := by
  obtain ⟨before, after, rfl⟩ := hpart
  refine ⟨escape before, escape after, ?_⟩
  have hq := h.escape_eq
  unfold escape at hq ⊢
  rw [List.flatMap_append, List.flatMap_append, hq]

end Unescaped

/-- Whether an escape ends in a beginning of a word, or in a text that begins with it. -/
def Spills (q : List Char) : Prop :=
  ∃ c tail rest, escapeChar c = '\\' :: tail ∧ rest ≠ [] ∧ rest <:+ tail ∧ (rest <+: q ∨ q <+: rest)

theorem infix_append_cases (h : q <:+: s ++ t) :
    q <:+: t ∨ ∃ rest, rest ≠ [] ∧ rest <:+ s ∧ q <+: rest ++ t := by
  induction s with
  | nil => exact .inl h
  | cons c s ih =>
    rw [List.cons_append, List.infix_cons_iff] at h
    rcases h with h | h
    · exact .inr ⟨c :: s, List.cons_ne_nil c s, List.suffix_rfl, h⟩
    · refine (ih h).imp_right fun ⟨rest, hne, hends, hbegins⟩ => ?_
      exact ⟨rest, hne, hends.trans (List.suffix_cons c s), hbegins⟩

namespace Unescaped

variable (h : Unescaped q) (hne : q ≠ [])
include h hne

/-- A word that no escape ends in stands in an escaped text only if it stands in the text. -/
theorem infix_of_escape (hspills : ¬ Spills q) (hpart : q <:+: escape s) : q <:+: s := by
  induction s with
  | nil => exact hpart
  | cons c rest ih =>
    have hrest : rest <:+: c :: rest := (List.suffix_cons c rest).isInfix
    rcases escapeChar_cases c with hc | ⟨tail, hc⟩
    · have hescape : escape (c :: rest) = c :: escape rest := by
        rw [escape, List.flatMap_cons, hc]
        rfl
      rcases List.infix_cons_iff.mp (hescape ▸ hpart) with hbegins | hpart
      · exact (h.prefix_of_escape (hescape ▸ hbegins)).isInfix
      · exact (ih hpart).trans hrest
    · have hescape : escape (c :: rest) = [] ++ '\\' :: (tail ++ escape rest) := by
        rw [escape, List.flatMap_cons, hc]
        rfl
      rw [hescape, infix_append_cons_iff h.backslash_notMem] at hpart
      rcases hpart with hpart | hpart
      · exact absurd (List.infix_nil.mp hpart) hne
      · rcases infix_append_cases hpart with hpart | ⟨end', hend, hends, hbegins⟩
        · exact (ih hpart).trans hrest
        · refine absurd ⟨c, tail, end', hc, hend, hends, ?_⟩ hspills
          exact List.prefix_or_prefix_of_prefix (List.prefix_append _ _) hbegins

/-- A word that an escape ends in stands in a text only because that is escaped. -/
theorem exists_escape (hspills : Spills q) : ∃ c rest, escapeChar c ≠ [c] ∧ rest <:+ q ∧
    q <:+: escape (c :: rest) ∧ ¬ q <:+: c :: rest := by
  obtain ⟨c, tail, rest, hc, hrest, hends, hbegins⟩ := hspills
  have hescaped : escapeChar c ≠ [c] := by
    intro hplain
    rw [hc] at hplain
    rw [(List.cons.inj hplain).2] at hends
    exact hrest (List.suffix_nil.mp hends)
  have hmem : c ∉ q := fun hmem => hescaped (h c hmem)
  obtain ⟨before, rfl⟩ := hends
  rcases hbegins with ⟨others, rfl⟩ | ⟨others, rfl⟩
  · refine ⟨c, others, hescaped, List.suffix_append rest others, ?_, fun hpart => ?_⟩
    · have hothers : escape others = others :=
        escape_eq fun d hd => h d (List.mem_append_right _ hd)
      refine ⟨'\\' :: before, [], ?_⟩
      rw [escape] at hothers ⊢
      rw [List.flatMap_cons, hc, hothers]
      simp
    · rcases (infix_append_cons_iff (s := []) hmem).mp hpart with hpart | hpart
      · exact hne (List.infix_nil.mp hpart)
      · have hlength := hpart.length_le
        rw [List.length_append] at hlength
        exact hrest (List.length_eq_zero_iff.mp (by omega))
  · refine ⟨c, [], hescaped, List.nil_suffix, ⟨'\\' :: before, others, ?_⟩, fun hpart => ?_⟩
    · simp [escape, hc]
    · rw [infix_singleton_iff hne] at hpart
      rw [hpart] at hmem
      exact hmem (List.mem_singleton_self c)

/-- A word that is no mark of a list stands in its text where it stands in one of the texts, if no
escape ends in it or nothing in the texts is escaped. -/
theorem infix_listText_iff_exists (hstray : ¬ Stray q)
    (hspills : ¬ Spills q ∨ ∀ s ∈ texts, Unescaped s) :
    q <:+: listText texts ↔ ∃ s ∈ texts, q <:+: s := by
  have hmarks : ¬ Marks q texts := fun hmarks => hstray hmarks.stray
  rw [infix_listText_iff h.quote_notMem hne, or_iff_right hmarks]
  refine exists_congr fun s => and_congr_right fun hs => ⟨fun hpart => ?_, h.infix_escape⟩
  rcases hspills with hspills | htexts
  · exact h.infix_of_escape hne hspills hpart
  · rwa [(htexts s hs).escape_eq] at hpart

/-- A mark of a list, or a word that an escape ends in, stands in the text of a list without standing
in one of its texts. -/
theorem exists_misleading (hq : Stray q ∨ Spills q) : ∃ texts : List (List Char),
    (∀ s ∈ texts, ∀ c ∈ s, c ∈ q ∨ escapeChar c ≠ [c]) ∧ q <:+: listText texts ∧
      ∀ s ∈ texts, ¬ q <:+: s := by
  simp only [infix_listText_iff h.quote_notMem hne]
  rcases hq with hstray | hspills
  · obtain ⟨texts, hmarks, hempty⟩ := hstray.exists_marks
    refine ⟨texts, fun s hs c hc => ?_, .inl hmarks, fun s hs hpart => ?_⟩
    · rw [hempty s hs] at hc
      cases hc
    · rw [hempty s hs, List.infix_nil] at hpart
      exact hne hpart
  · obtain ⟨c, rest, hescaped, hends, hpart, hnot⟩ := h.exists_escape hne hspills
    refine ⟨[c :: rest], ?_, .inr ⟨_, List.mem_singleton_self _, hpart⟩, ?_⟩
    · rw [List.forall_mem_singleton, List.forall_mem_cons]
      exact ⟨.inr hescaped, fun d hd => .inl (hends.subset hd)⟩
    · rwa [List.forall_mem_singleton]

end Unescaped

/-! ### ASCII -/

theorem escapeChar_ascii : ∀ c : Char, c.toNat < 128 → IsAscii (escapeChar c) ∧
    escapeChar c.toLower = (escapeChar c).map Char.toLower :=
  Text.forall_ascii (by decide +kernel)

theorem ascii_of_escaped (hc : escapeChar c ≠ [c]) : c.toNat < 128 := by
  by_contra hhigh
  have hne : ∀ d : Char, d.toNat < 128 → c ≠ d := by
    rintro d hd rfl
    exact hhigh hd
  have hcontrol : ¬ c.toNat < 32 := by omega
  exact hc (by simp [escapeChar, hne, hcontrol])

/-- A property of the characters that are escaped, checked one by one. -/
theorem forall_escaped {P : Char → Prop}
    (h : ∀ n < 128, escapeChar (Char.ofNat n) ≠ [Char.ofNat n] → P (Char.ofNat n)) :
    ∀ c : Char, escapeChar c ≠ [c] → P c :=
  fun c hc => Text.forall_ascii (P := fun c => escapeChar c ≠ [c] → P c) h c (ascii_of_escaped hc) hc

theorem toLower_of_escaped : ∀ c : Char, escapeChar c ≠ [c] → c.toLower = c :=
  forall_escaped (by decide +kernel)

theorem isAscii_quoted (h : IsAscii s) : IsAscii (quoted s) := by
  have hescape : IsAscii (escape s) := by
    intro d hd
    obtain ⟨c, hc, hd⟩ := List.mem_flatMap.mp hd
    exact (escapeChar_ascii c (h c hc)).1 d hd
  refine List.forall_mem_cons.mpr ⟨by decide, List.forall_mem_append.mpr ⟨hescape, ?_⟩⟩
  exact List.forall_mem_singleton.mpr (by decide)

theorem quoted_toLower (h : IsAscii s) : quoted (s.map Char.toLower) = (quoted s).map Char.toLower := by
  have hescape : escape (s.map Char.toLower) = (escape s).map Char.toLower := by
    rw [escape, escape, List.flatMap_map, List.map_flatMap]
    exact List.flatMap_congr fun c hc => (escapeChar_ascii c (h c hc)).2
  have hquote : Char.toLower '"' = '"' := by decide
  rw [quoted, quoted, hescape, List.map_append, List.map_cons, List.map_singleton, hquote]

theorem isAscii_listText (h : ∀ s ∈ texts, IsAscii s) : IsAscii (listText texts) := by
  cases texts with
  | nil => decide
  | cons first rest =>
    obtain ⟨hfirst, hrest⟩ := List.forall_mem_cons.mp h
    have hothers : IsAscii (rest.flatMap fun s => ',' :: quoted s) := by
      intro d hd
      obtain ⟨s, hs, hd⟩ := List.mem_flatMap.mp hd
      exact List.forall_mem_cons.mpr ⟨by decide, isAscii_quoted (hrest s hs)⟩ d hd
    refine List.forall_mem_append.mpr ⟨List.forall_mem_append.mpr ⟨?_, hothers⟩, ?_⟩
    · exact List.forall_mem_cons.mpr ⟨by decide, isAscii_quoted hfirst⟩
    · exact List.forall_mem_singleton.mpr (by decide)

/-- The text of a list in lower case is the text of the list of its texts in lower case. -/
theorem listText_toLower (h : ∀ s ∈ texts, IsAscii s) :
    listText (texts.map (·.map Char.toLower)) = (listText texts).map Char.toLower := by
  cases texts with
  | nil => decide
  | cons first rest =>
    obtain ⟨hfirst, hrest⟩ := List.forall_mem_cons.mp h
    have hcomma : Char.toLower ',' = ',' := by decide
    have hopen : Char.toLower '[' = '[' := by decide
    have hclose : Char.toLower ']' = ']' := by decide
    have hothers : (rest.map (·.map Char.toLower)).flatMap (fun s => ',' :: quoted s) =
        (rest.flatMap fun s => ',' :: quoted s).map Char.toLower := by
      rw [List.flatMap_map, List.map_flatMap]
      refine List.flatMap_congr fun s hs => ?_
      rw [quoted_toLower (hrest s hs), List.map_cons, hcomma]
    rw [List.map_cons, listText, listText, quoted_toLower hfirst, hothers, List.map_append,
      List.map_append, List.map_cons, List.map_singleton, hopen, hclose]

end Planner.Json

namespace Planner

/-- The text in which tags are stored. -/
def tagsText (tags : List String) : String := (Json.ofTexts tags).toText

theorem toList_tagsText (tags : List String) :
    (tagsText tags).toList = Json.listText (tags.map String.toList) := by
  rw [tagsText, Json.toText, String.toList_ofList, Json.render_ofTexts]

end Planner
