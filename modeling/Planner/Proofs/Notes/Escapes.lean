import Planner.Proofs.Notes.Tags

/-! The words that stand in the text of a list exactly where they stand in one of its texts. If
something in a word is escaped, it can only be a backslash at the beginning, after which the word goes
on as no escape does. -/
namespace Planner.Json

variable {a b c : Char} {q s t mid : List Char} {texts : List (List Char)}

/-- Whether a word begins with an escape, or an escape with the word. -/
def StartsEscape (q : List Char) : Prop :=
  ∃ c, escapeChar c ≠ [c] ∧ (escapeChar c <+: q ∨ q <+: escapeChar c)

/-- Whether nothing in the text of a list looks like a word but what is written for it: nothing in the
word is escaped, it is no mark of a list and no escape ends in it, or a backslash begins it, behind
which nothing is escaped and which begins no escape there. -/
inductive Faithful (q : List Char) : Prop
  | plain (unescaped : Unescaped q) (stray : ¬ Stray q) (spills : ¬ Spills q)
  | backslash (rest : List Char) (eq : q = '\\' :: rest) (unescaped : Unescaped rest)
    (starts : ¬ StartsEscape q)

/-- Whether a word stands in the text of a list exactly if it stands in one of the texts. -/
def FoundAsInTexts (q : List Char) (texts : List (List Char)) : Prop :=
  q <:+: listText texts ↔ ∃ s ∈ texts, q <:+: s

theorem escape_cons (c : Char) (s : List Char) : escape (c :: s) = escapeChar c ++ escape s := rfl

theorem escape_append (s t : List Char) : escape (s ++ t) = escape s ++ escape t :=
  List.flatMap_append

theorem two_le_length_of_escaped : ∀ c : Char, escapeChar c ≠ [c] → 2 ≤ (escapeChar c).length :=
  forall_escaped (by decide +kernel)

/-- An escape has one backslash, unless it stands for one. -/
theorem eq_backslash_of_mem_tail : ∀ c : Char, escapeChar c ≠ [c] →
    '\\' ∈ (escapeChar c).tail → c = '\\' :=
  forall_escaped (by decide +kernel)

/-- Of the characters that are escaped only quotes and backslashes stand in their escapes. -/
theorem eq_of_mem_escapeChar : ∀ c : Char, escapeChar c ≠ [c] →
    c ∈ escapeChar c → c = '"' ∨ c = '\\' :=
  forall_escaped (by decide +kernel)

theorem one_le_length_escapeChar (c : Char) : 1 ≤ (escapeChar c).length := by
  rcases escapeChar_cases c with hc | ⟨tail, hc⟩ <;> simp [hc]

theorem length_le_escape (s : List Char) : s.length ≤ (escape s).length := by
  induction s with
  | nil => exact le_rfl
  | cons c rest ih =>
    rw [escape_cons, List.length_append, List.length_cons]
    have hlength := one_le_length_escapeChar c
    omega

theorem unescaped_of_length_le (h : (escape s).length ≤ s.length) : Unescaped s := by
  induction s with
  | nil => exact List.forall_mem_nil _
  | cons c rest ih =>
    rw [escape_cons, List.length_append, List.length_cons] at h
    have hrest := length_le_escape rest
    have hc := one_le_length_escapeChar c
    refine List.forall_mem_cons.mpr ⟨?_, ih (by omega)⟩
    by_contra hescaped
    have hlength := two_le_length_of_escaped c hescaped
    omega

/-! ### Words that begin with a backslash -/

section Backslash

variable (h : Unescaped s) (hstarts : ¬ StartsEscape ('\\' :: s))
include h hstarts

/-- The backslash can only be the second one of an escaped backslash. -/
theorem infix_of_backslash_infix_escape (hpart : '\\' :: s <:+: escape t) : '\\' :: s <:+: t := by
  induction t with
  | nil => exact hpart
  | cons c rest ih =>
    have hrest : rest <:+: c :: rest := (List.suffix_cons c rest).isInfix
    rw [escape_cons] at hpart
    rcases infix_append_cases hpart with hpart | ⟨ending, hne, hends, hbegins⟩
    · exact (ih hpart).trans hrest
    by_cases hplain : escapeChar c = [c]
    · rw [hplain, List.suffix_cons_iff, List.suffix_nil, or_iff_left hne] at hends
      rw [hends] at hbegins
      obtain ⟨rfl, -⟩ := List.cons_prefix_cons.mp hbegins
      exact absurd hplain (by decide)
    · obtain ⟨tail, hc⟩ := (escapeChar_cases c).resolve_left hplain
      rw [hc, List.suffix_cons_iff] at hends
      rcases hends with rfl | hends
      · refine absurd ⟨c, hplain, ?_⟩ hstarts
        exact List.prefix_or_prefix_of_prefix (hc ▸ List.prefix_append _ _) hbegins
      · obtain ⟨d, others, rfl⟩ := List.exists_cons_of_ne_nil hne
        obtain ⟨rfl, hrestBegins⟩ := List.cons_prefix_cons.mp hbegins
        have hmem : '\\' ∈ (escapeChar c).tail := by
          rw [hc]
          exact hends.subset (List.mem_cons_self ..)
        obtain rfl := eq_backslash_of_mem_tail c hplain hmem
        cases hc
        obtain rfl : others = [] := by
          have hlength := hends.length_le
          simpa using hlength
        exact (List.cons_prefix_cons.mpr ⟨rfl, h.prefix_of_escape hrestBegins⟩).isInfix

theorem backslash_infix_escape_iff : '\\' :: s <:+: escape t ↔ '\\' :: s <:+: t := by
  refine ⟨infix_of_backslash_infix_escape h hstarts, ?_⟩
  rintro ⟨before, after, rfl⟩
  refine ⟨escape before ++ ['\\'], escape after, ?_⟩
  have hbackslash : escapeChar '\\' = ['\\', '\\'] := rfl
  rw [escape_append, escape_append, escape_cons, h.escape_eq, hbackslash]
  simp

end Backslash

/-- A faithful word stands in the text of a list exactly where it stands in one of the texts. -/
theorem Faithful.found (h : Faithful q) (hne : q ≠ []) (texts : List (List Char)) :
    FoundAsInTexts q texts := by
  cases h with
  | plain hplain hstray hspills => exact hplain.infix_listText_iff_exists hne hstray (.inl hspills)
  | backslash rest heq hrest hstarts =>
    subst heq
    have hquote : '"' ∉ '\\' :: rest := by
      rw [List.mem_cons, not_or]
      exact ⟨by decide, hrest.quote_notMem⟩
    have hmarks : ¬ Marks ('\\' :: rest) texts := by simp [Marks]
    rw [FoundAsInTexts, infix_listText_iff hquote hne, or_iff_right hmarks]
    simp only [backslash_infix_escape_iff hrest hstarts]

/-! ### Words that are not faithful -/

theorem listText_singleton (s : List Char) : listText [s] = ['[', '"'] ++ escape s ++ ['"', ']'] := by
  simp [listText, quoted]

theorem infix_listText_of_infix_escape (h : q <:+: escape s) : q <:+: listText [s] := by
  rw [listText_singleton]
  exact h.trans ⟨_, _, rfl⟩

theorem escapeChar_ne_nil (c : Char) : escapeChar c ≠ [] := by
  rcases escapeChar_cases c with hc | ⟨tail, hc⟩ <;> simp [hc]

/-- Where a word stands in three parts, it stands in the first two, in the last two, or it has the middle
one within its ends, if that is no shorter than what is within them. -/
theorem infix_three_parts {first middle last : List Char} (hlength : mid.length ≤ middle.length)
    (h : a :: (mid ++ [b]) <:+: first ++ (middle ++ last)) :
    a :: (mid ++ [b]) <:+: first ++ middle ∨ a :: (mid ++ [b]) <:+: middle ++ last ∨
      middle = mid ∧ first.getLast? = some a ∧ last.head? = some b := by
  obtain ⟨before, after, heq⟩ := h
  rw [List.append_assoc] at heq
  rcases List.append_eq_append_iff.mp heq with ⟨start, hstart, hrest⟩ | ⟨start, -, hrest⟩
  case inr => exact .inr (.inl ⟨start, after, by rw [hrest, List.append_assoc]⟩)
  cases start with
  | nil => exact .inr (.inl ⟨[], after, hrest⟩)
  | cons a' others =>
    obtain ⟨rfl, htail⟩ := List.cons.inj hrest
    have hparts : mid ++ [b] ++ after = others ++ middle ++ last := by
      rw [List.append_assoc others]
      exact htail
    rcases List.append_eq_append_iff.mp hparts with ⟨more, hmore, -⟩ | ⟨more, hmore, hend⟩
    case inl => exact .inl ⟨before, more, by rw [hstart]; simp [hmore]⟩
    cases more with
    | nil => exact .inl ⟨before, [], by rw [hstart]; simpa using hmore⟩
    | cons b' more =>
      -- the word begins in the first part and ends in the last one: the middle one is too long for more
      have hsum := congrArg List.length hmore
      simp only [List.length_append, List.length_cons, List.length_nil] at hsum
      obtain rfl : others = [] := List.length_eq_zero_iff.mp (by omega)
      obtain rfl : more = [] := List.length_eq_zero_iff.mp (by omega)
      obtain ⟨rfl, hb⟩ := List.append_inj' hmore rfl
      obtain rfl := List.singleton_inj.mp hb
      refine .inr (.inr ⟨rfl, ?_, ?_⟩)
      · rw [hstart, List.getLast?_concat]
      · rw [hend]
        rfl

/-- Where a word stands in its own text, it stands in that of a shorter word, or it lies between its
first and its last character: nothing between them is escaped, and an escape of the first ends in it,
one of the last begins with it. -/
theorem infix_listText_self_cases (h : a :: (mid ++ [b]) <:+: listText [a :: (mid ++ [b])]) :
    a :: (mid ++ [b]) <:+: listText [a :: mid] ∨ a :: (mid ++ [b]) <:+: listText [mid ++ [b]] ∨
      Unescaped mid ∧ (escapeChar a).getLast? = some a ∧ (escapeChar b).head? = some b := by
  have hparts : listText [a :: (mid ++ [b])] =
      (['[', '"'] ++ escapeChar a) ++ (escape mid ++ (escapeChar b ++ ['"', ']'])) := by
    rw [listText_singleton, escape_cons, escape_append]
    simp [escape]
  rcases infix_three_parts (length_le_escape mid) (hparts ▸ h) with
    hahead | hbehind | ⟨hmid, hlast, hhead⟩
  · refine .inl (hahead.trans ⟨[], ['"', ']'], ?_⟩)
    rw [listText_singleton, escape_cons]
    simp
  · refine .inr (.inl (hbehind.trans ⟨['[', '"'], [], ?_⟩))
    rw [listText_singleton, escape_append]
    simp [escape]
  · rw [List.getLast?_append_of_ne_nil _ (escapeChar_ne_nil a)] at hlast
    rw [List.head?_append_of_ne_nil _ (escapeChar_ne_nil b)] at hhead
    exact .inr (.inr ⟨unescaped_of_length_le (congrArg List.length hmid).le, hlast, hhead⟩)

/-- A text that is written with all but the first character of a word, up to what the last one is
escaped as. -/
theorem exists_escape_concat (hmid : Unescaped mid) (hhead : (escapeChar b).head? = some b) :
    ∃ w : List Char, w.length = mid.length + 1 ∧ mid ++ [b] <+: escape w ∧
      (∀ c ∈ w, c ∈ mid ∨ c = b ∨ escapeChar c ≠ [c]) ∧ (w = mid ++ [b] → Unescaped w) := by
  rcases escapeChar_cases b with hb | ⟨tail, hb⟩
  · have hplain : Unescaped (mid ++ [b]) :=
      List.forall_mem_append.mpr ⟨hmid, List.forall_mem_singleton.mpr hb⟩
    refine ⟨mid ++ [b], by simp, ⟨[], by simp [hplain.escape_eq]⟩, ?_, fun _ => hplain⟩
    simp
    tauto
  · obtain rfl : b = '\\' := by simpa [hb] using hhead.symm
    refine ⟨mid ++ ['"'], by simp, ?_, ?_, fun heq => ?_⟩
    · rw [escape_append, hmid.escape_eq]
      exact ⟨['"'], by simp [escape, escapeChar]⟩
    · refine List.forall_mem_append.mpr ⟨fun c hc => .inl hc, List.forall_mem_singleton.mpr ?_⟩
      exact .inr (.inr (by decide))
    · simp at heq

section Unfaithful

variable (hall : ∀ texts : List (List Char),
  (∀ s ∈ texts, ∀ c ∈ s, c ∈ q ∨ escapeChar c ≠ [c]) → FoundAsInTexts q texts)
include hall

theorem infix_of_infix_listText (hchars : ∀ c ∈ s, c ∈ q ∨ escapeChar c ≠ [c])
    (h : q <:+: listText [s]) : q <:+: s := by
  obtain ⟨t, ht, hpart⟩ := (hall [s] (List.forall_mem_singleton.mpr hchars)).mp h
  rwa [List.mem_singleton.mp ht] at hpart

theorem infix_listText_self : q <:+: listText [q] := by
  have hq : ∀ s ∈ [q], ∀ c ∈ s, c ∈ q ∨ escapeChar c ≠ [c] :=
    List.forall_mem_singleton.mpr fun c hc => .inl hc
  exact (hall [q] hq).mpr ⟨q, List.mem_singleton_self q, List.infix_rfl⟩

theorem escapeChar_of_singleton (hq : q = [a]) : escapeChar a = [a] := by
  subst hq
  by_contra hescaped
  have hmem : a ∈ listText [[a]] := (infix_listText_self hall).subset (List.mem_singleton_self a)
  have hescape : escape [a] = escapeChar a := List.append_nil _
  have ha : a = '"' ∨ a = '\\' := by
    rw [listText_singleton, hescape] at hmem
    simp only [List.mem_append, List.mem_cons, List.not_mem_nil, or_false] at hmem
    rcases hmem with ((rfl | rfl) | hmem) | rfl | rfl
    · exact absurd rfl hescaped
    · exact .inl rfl
    · exact eq_of_mem_escapeChar a hescaped hmem
    · exact .inl rfl
    · exact absurd rfl hescaped
  rcases ha with rfl | rfl
  · have hpart := infix_of_infix_listText hall (s := []) (List.forall_mem_nil _) (by decide)
    exact absurd hpart (by decide)
  · have hpart := infix_of_infix_listText hall (s := ['"'])
      (List.forall_mem_singleton.mpr (.inr (by decide))) (by decide)
    exact absurd hpart (by decide)

/-- A word that is found so goes on from a first character, or from a backslash, without escapes. -/
theorem unescaped_or_backslash (hne : q ≠ []) :
    Unescaped q ∨ ∃ rest, q = '\\' :: rest ∧ Unescaped rest ∧ rest ≠ [] := by
  obtain ⟨a, rest, rfl⟩ := List.exists_cons_of_ne_nil hne
  rcases List.eq_nil_or_concat' rest with rfl | ⟨mid, b, rfl⟩
  · exact .inl (List.forall_mem_singleton.mpr (escapeChar_of_singleton hall rfl))
  rcases infix_listText_self_cases (infix_listText_self hall) with
    hshorter | hshorter | ⟨hmid, hlast, hhead⟩
  · refine absurd (infix_of_infix_listText hall (fun c hc => .inl ?_) hshorter).length_le (by simp)
    simp only [List.mem_cons, List.mem_append] at hc ⊢
    tauto
  · refine absurd (infix_of_infix_listText hall (fun c hc => .inl ?_) hshorter).length_le (by simp)
    exact List.mem_cons_of_mem _ hc
  obtain ⟨w, hlength, ⟨after, hafter⟩, hchars, hw⟩ := exists_escape_concat hmid hhead
  have hletters : ∀ c ∈ w, c ∈ a :: (mid ++ [b]) ∨ escapeChar c ≠ [c] := fun c hc => by
    simp only [List.mem_cons, List.mem_append]
    have hchar := hchars c hc
    tauto
  -- the word is found in what is written for this text behind its first character: so it is this text
  obtain ⟨before, hbefore⟩ := List.getLast?_eq_some_iff.mp hlast
  have hwritten : a :: (mid ++ [b]) <:+: escape (a :: w) := by
    refine ⟨before, after, ?_⟩
    rw [escape_cons, hbefore, ← hafter]
    simp
  have hpart : a :: (mid ++ [b]) <:+: a :: w := infix_of_infix_listText hall
    (List.forall_mem_cons.mpr ⟨.inl (List.mem_cons_self ..), hletters⟩)
    (infix_listText_of_infix_escape hwritten)
  have hsame : w = mid ++ [b] :=
    (List.cons.inj (hpart.eq_of_length (by simp [hlength]))).2.symm
  by_cases ha : escapeChar a = [a]
  · exact .inl (List.forall_mem_cons.mpr ⟨ha, hsame ▸ hw hsame⟩)
  rcases eq_of_mem_escapeChar a ha (by simp [hbefore]) with rfl | rfl
  · have hopened : '"' :: (mid ++ [b]) <:+: listText [w] := by
      refine ⟨['['], after ++ ['"', ']'], ?_⟩
      rw [listText_singleton, ← hafter]
      simp
    refine absurd (infix_of_infix_listText hall hletters hopened).length_le ?_
    simp [hlength]
  · exact .inr ⟨mid ++ [b], rfl, hsame ▸ hw hsame, by simp⟩

theorem not_startsEscape (hrest : Unescaped s) (hne : s ≠ []) (hq : q = '\\' :: s) :
    ¬ StartsEscape q := by
  have htwo : 2 ≤ q.length := by
    have hpos := List.length_pos_iff.mpr hne
    rw [hq, List.length_cons]
    omega
  rintro ⟨c, hc, hbegins | hbegins⟩
  · obtain ⟨others, hothers⟩ := hbegins
    have hmem : ∀ d ∈ others, d ∈ s := by
      obtain ⟨tail, htail⟩ := (escapeChar_cases c).resolve_left hc
      rw [hq, htail, List.cons_append, List.cons.injEq] at hothers
      exact fun d hd => hothers.2 ▸ List.mem_append_right _ hd
    have hescape : escape (c :: others) = q := by
      rw [escape_cons, Unescaped.escape_eq fun d hd => hrest d (hmem d hd), hothers]
    have hpart : q <:+: c :: others := by
      refine infix_of_infix_listText hall (List.forall_mem_cons.mpr ⟨.inr hc, fun d hd => ?_⟩)
        (infix_listText_of_infix_escape (hescape ▸ List.infix_rfl))
      exact .inl (hq ▸ List.mem_cons_of_mem _ (hmem d hd))
    have hlength := hpart.length_le
    have hescapeLength := two_le_length_of_escaped c hc
    rw [← hothers, List.length_append, List.length_cons] at hlength
    omega
  · have hescape : escape [c] = escapeChar c := List.append_nil _
    have hpart : q <:+: [c] := infix_of_infix_listText hall
      (List.forall_mem_singleton.mpr (.inr hc))
      (infix_listText_of_infix_escape (hescape ▸ hbegins.isInfix))
    have hlength := hpart.length_le
    rw [List.length_singleton] at hlength
    omega

/-- A word that stands in the text of each list exactly if it stands in one of the texts is faithful. -/
theorem Faithful.of_found (hne : q ≠ []) : Faithful q := by
  rcases unescaped_or_backslash hall hne with hplain | ⟨rest, hq, hrest, hrestNe⟩
  · have hgood : ¬ (Stray q ∨ Spills q) := by
      intro hbad
      obtain ⟨texts, hchars, hfound, hnot⟩ := hplain.exists_misleading hne hbad
      obtain ⟨s, hs, hpart⟩ := (hall texts hchars).mp hfound
      exact hnot s hs hpart
    exact .plain hplain (fun h => hgood (.inl h)) (fun h => hgood (.inr h))
  · exact .backslash rest hq hrest (not_startsEscape hall hrest hrestNe hq)

end Unfaithful

end Planner.Json
