import Planner.Proofs.Sql.Soundness
import Planner.Proofs.Sql.Spelling

/-! Every statement in normal form is read back from each text that spells it. -/
namespace Planner.Sql

open Outcome

variable {α β : Type} {symbol : Symbol} {token : Token} {rest tokens : List Token}
  {unbound : List Json} {n : Nat} {barred : List Symbol}

/-- None of the symbols is next. -/
def Unread (barred : List Symbol) (rest : List Token) : Prop :=
  ∀ symbol ∈ barred, ∀ token ∈ rest.head?, ¬ symbol.Stands token

/-- A step takes the symbols and as many parameters as there are values, and makes something of
them, unless what follows is one of the barred symbols. -/
def Takes (step : Step α) (symbols : List Symbol) (values : List Json) (a : α)
    (barred : List Symbol) : Prop :=
  ∀ ⦃tokens rest : List Token⦄ ⦃unbound : List Json⦄ ⦃n : Nat⦄,
    List.Forall₂ Symbol.Stands symbols tokens → Unread barred rest →
      step ⟨tokens ++ rest, values ++ unbound, n⟩ = .ok (a, ⟨rest, unbound, n + values.length⟩)

@[simp]
theorem unread_nil : Unread [] rest := by
  intro symbol hs
  cases hs

theorem Unread.mono {others : List Symbol} (h : Unread barred rest)
    (hsub : ∀ symbol ∈ others, symbol ∈ barred) : Unread others rest :=
  fun symbol hs => h symbol (hsub symbol hs)

theorem unread_cons :
    Unread (symbol :: barred) rest ↔ Unread [symbol] rest ∧ Unread barred rest := by
  simp [Unread]

/-- Tokens of appended symbols are appended. -/
theorem stands_append {first second : List Symbol}
    (h : List.Forall₂ Symbol.Stands (first ++ second) tokens) :
    ∃ tokens₁ tokens₂, List.Forall₂ Symbol.Stands first tokens₁ ∧
      List.Forall₂ Symbol.Stands second tokens₂ ∧ tokens = tokens₁ ++ tokens₂ := by
  induction first generalizing tokens with
  | nil => exact ⟨[], tokens, .nil, h, rfl⟩
  | cons symbol first ih =>
    obtain ⟨token, others, hs, hothers, rfl⟩ := List.forall₂_cons_left_iff.mp h
    obtain ⟨tokens₁, tokens₂, h₁, h₂, rfl⟩ := ih hothers
    exact ⟨token :: tokens₁, tokens₂, .cons hs h₁, h₂, rfl⟩

/-- A token stands for words that differ in nothing but case. -/
theorem stands_same {name other : String} (h : (Symbol.word name).Stands token)
    (ho : (Symbol.word other).Stands token) : Text.sameIgnoringCase name other := by
  obtain ⟨w, rfl, hw⟩ := h
  obtain ⟨w, hw', ho⟩ := ho
  cases hw'
  simp only [Text.sameIgnoringCase, beq_iff_eq] at hw ho ⊢
  exact hw.symm.trans ho

theorem unread_mark {c : Char} {name : String} (h : (Symbol.word name).Stands token) :
    Unread [.mark c] (token :: rest) := by
  intro symbol hs t ht hmark
  cases List.mem_singleton.mp hs
  cases ht
  obtain ⟨w, rfl, -⟩ := h
  exact mark?_ne_word hmark w rfl

theorem unread_words {name : String} (others : List String) (h : (Symbol.word name).Stands token)
    (hothers : ∀ other ∈ others, Text.sameIgnoringCase name other = false) :
    Unread (others.map Symbol.word) (token :: rest) := by
  intro symbol hs t ht hstands
  obtain ⟨other, hother, rfl⟩ := List.mem_map.mp hs
  cases ht
  have hsame := stands_same h hstands
  rw [hothers other hother] at hsame
  cases hsame

theorem unread_word {name other : String} (h : (Symbol.word name).Stands token)
    (hother : Text.sameIgnoringCase name other = false) : Unread [.word other] (token :: rest) :=
  unread_words [other] h (by simpa using hother)

theorem ofName?_same {table : Table} {w : String} (h : Text.sameIgnoringCase w table.name) :
    Table.ofName? w = some table := by
  have hsame : w.toList.map Char.toLower = table.name.toList.map Char.toLower := by
    simpa [Text.sameIgnoringCase] using h
  have hname : Table.ofName? w = Table.ofName? table.name := by
    simp only [Table.ofName?, Text.sameIgnoringCase, hsame]
  rw [hname]
  cases table <;> decide

namespace Cursor

theorem keyword?_stands {name : String} (h : (Symbol.word name).Stands token) :
    keyword? name ⟨token :: rest, unbound, n⟩ = some ⟨rest, unbound, n⟩ := by
  obtain ⟨w, rfl, hw⟩ := h
  exact if_pos hw

theorem keyword_stands {name : String} (h : (Symbol.word name).Stands token) :
    keyword name ⟨token :: rest, unbound, n⟩ = .ok ⟨rest, unbound, n⟩ := by
  rw [keyword, keyword?_stands h]

theorem keyword?_unread {name : String} (h : Unread [.word name] rest) :
    keyword? name ⟨rest, unbound, n⟩ = none := by
  have hnot := h _ (List.mem_singleton_self _)
  unfold keyword?
  split
  · rename_i w others hw
    exact if_neg fun hsame => hnot (.word w) (by simp_all) ⟨w, rfl, hsame⟩
  · rfl

theorem keyword?_other {name : String} (other : String) (h : (Symbol.word name).Stands token)
    (hother : Text.sameIgnoringCase name other = false) :
    keyword? other ⟨token :: rest, unbound, n⟩ = none :=
  keyword?_unread (unread_word h hother)

theorem identifier_takes (name : String) : Takes identifier [.column name] [] name [] := by
  intro tokens rest unbound n h _
  obtain _ | ⟨hc, _ | _⟩ := h
  cases hc
  rfl

theorem value_takes (v : Json) : Takes value [.mark '?'] [v] v [] := by
  intro tokens rest unbound n h _
  obtain _ | ⟨hq, _ | _⟩ := h
  cases hq
  rfl

theorem table_takes (table : Table) : Takes Cursor.table [.word table.name] [] table [] := by
  intro tokens rest unbound n h _
  obtain _ | ⟨⟨w, rfl, hw⟩, _ | _⟩ := h
  refine bind_eq_ok.mpr ⟨(w, ⟨rest, unbound, n⟩), rfl, ?_⟩
  simp only [ofName?_same hw]
  rfl

theorem comparison_takes (c : Comparison) : Takes comparison c.symbols [c.value] c [] := by
  intro tokens rest unbound n h _
  cases c with
  | equal column value =>
    obtain _ | ⟨hc, _ | ⟨ho, _ | ⟨hq, _ | _⟩⟩⟩ := h
    cases hc; cases ho; cases hq
    rfl
  | like column value =>
    obtain _ | ⟨hc, _ | ⟨⟨w, rfl, hw⟩, _ | ⟨hq, _ | _⟩⟩⟩ := h
    cases hc; cases hq
    change comparison ⟨.word column :: .word w :: .placeholder :: rest, value :: unbound, n⟩ = _
    have hlike : keyword? "like" ⟨.word w :: .placeholder :: rest, value :: unbound, n⟩ =
        some ⟨.placeholder :: rest, value :: unbound, n⟩ :=
      keyword?_stands ⟨w, rfl, hw⟩
    refine bind_eq_ok.mpr ⟨(column, _), rfl, ?_⟩
    simp only [token?, reduceCtorEq, if_false, hlike]
    rfl
  | atLeast column low =>
    obtain _ | ⟨hc, _ | ⟨ho, _ | ⟨hq, _ | _⟩⟩⟩ := h
    cases hc; cases ho; cases hq
    rfl
  | atMost column high =>
    obtain _ | ⟨hc, _ | ⟨ho, _ | ⟨hq, _ | _⟩⟩⟩ := h
    cases hc; cases ho; cases hq
    rfl

/-- A separator takes exactly the token of a symbol. -/
structure Separates (separator : Cursor → Option Cursor) (symbol : Symbol) : Prop where
  taken : ∀ {token rest unbound n}, symbol.Stands token →
    separator ⟨token :: rest, unbound, n⟩ = some ⟨rest, unbound, n⟩
  missing : ∀ {rest unbound n}, Unread [symbol] rest → separator ⟨rest, unbound, n⟩ = none

theorem keyword?_separates (name : String) : Separates (keyword? name) (.word name) :=
  ⟨keyword?_stands, keyword?_unread⟩

theorem token?_separates {c : Char} {t : Token} (h : mark? c = some t) :
    Separates (token? t) (.mark c) where
  taken := by
    intro token rest unbound n hs
    cases hs.symm.trans h
    exact if_pos rfl
  missing := by
    intro rest unbound n hu
    unfold token?
    split
    · rename_i next others hnext
      refine if_neg fun he => hu _ (List.mem_singleton_self _) next (by simp_all) ?_
      rw [he]
      exact h
    · rfl

theorem separatedLoop_takes {item : Step α} {separator : Cursor → Option Cursor}
    {symbols : α → List Symbol} {values : α → List Json} {items : List α} (hne : items ≠ [])
    (hsep : Separates separator symbol)
    (hbarred : ∀ {token rest}, symbol.Stands token → Unread barred (token :: rest))
    (hitems : ∀ x ∈ items, Takes item (symbols x) (values x) x barred) {steps : Nat}
    (hsteps : items.length ≤ steps + 1) :
    Takes (separatedLoop item separator steps) ([symbol].intercalate (items.map symbols))
      (items.flatMap values) items (symbol :: barred) := by
  induction items generalizing steps with
  | nil => exact absurd rfl hne
  | cons x items ih =>
    intro tokens rest unbound n h hrest
    obtain ⟨hmissing, hrest'⟩ := unread_cons.mp hrest
    obtain ⟨hx, hitems⟩ := List.forall_mem_cons.mp hitems
    cases items with
    | nil =>
      rw [List.map_singleton, List.intercalate_singleton] at h
      rw [List.flatMap_singleton]
      cases steps with
      | zero => exact bind_eq_ok.mpr ⟨_, hx h hrest', rfl⟩
      | succ steps =>
        refine bind_eq_ok.mpr ⟨_, hx h hrest', ?_⟩
        simp only [hsep.missing hmissing]
        rfl
    | cons y items =>
      cases steps with
      | zero => simp at hsteps
      | succ steps =>
        rw [List.map_cons, List.map_cons, List.intercalate_cons_cons, List.append_assoc] at h
        obtain ⟨first, others, hfirst, hothers, rfl⟩ := stands_append h
        obtain _ | ⟨hsymbol, hothers⟩ := hothers
        rename_i t others
        rw [List.flatMap_cons, List.append_assoc, List.append_assoc]
        refine bind_eq_ok.mpr ⟨_, hx hfirst (hbarred hsymbol), ?_⟩
        simp only [List.cons_append, hsep.taken hsymbol]
        refine bind_eq_ok.mpr ⟨_, ih (by simp) hitems (by simpa using hsteps) hothers hrest, ?_⟩
        rw [List.length_append, Nat.add_assoc]
        rfl

/-- There is a separator for every item but one. -/
theorem length_le_intercalate (symbol : Symbol) (parts : List (List Symbol)) :
    parts.length ≤ ([symbol].intercalate parts).length + 1 := by
  induction parts with
  | nil => simp
  | cons part parts ih =>
    cases parts with
    | nil => simp
    | cons next parts =>
      rw [List.intercalate_cons_cons]
      simp only [List.length_cons, List.length_append, List.length_nil] at ih ⊢
      omega

theorem separated_takes {item : Step α} {separator : Cursor → Option Cursor}
    {symbols : α → List Symbol} {values : α → List Json} {items : List α} (hne : items ≠ [])
    (hsep : Separates separator symbol)
    (hbarred : ∀ {token rest}, symbol.Stands token → Unread barred (token :: rest))
    (hitems : ∀ x ∈ items, Takes item (symbols x) (values x) x barred) :
    Takes (separated item separator) ([symbol].intercalate (items.map symbols))
      (items.flatMap values) items (symbol :: barred) := by
  intro tokens rest unbound n h hrest
  have hlength := length_le_intercalate symbol (items.map symbols)
  rw [List.length_map, h.length_eq] at hlength
  refine separatedLoop_takes hne hsep hbarred hitems ?_ h hrest
  simp only [List.length_append]
  omega

theorem commaSeparated_takes {item : Step α} {symbols : α → List Symbol} {values : α → List Json}
    {items : List α} (hne : items ≠ [])
    (hitems : ∀ x ∈ items, Takes item (symbols x) (values x) x []) :
    Takes (commaSeparated item) (commas (items.map symbols)) (items.flatMap values) items
      [.mark ','] :=
  separated_takes hne (token?_separates rfl) (fun _ => unread_nil) hitems

theorem parenthesized_takes {item : Step α} {symbols : α → List Symbol} {values : α → List Json}
    {items : List α} (hne : items ≠ [])
    (hitems : ∀ x ∈ items, Takes item (symbols x) (values x) x []) :
    Takes (parenthesized item) (inParentheses (items.map symbols)) (items.flatMap values) items
      [] := by
  intro tokens rest unbound n h _
  obtain _ | ⟨hopen, h⟩ := h
  obtain ⟨between, close, hbetween, hclose, rfl⟩ := stands_append h
  obtain _ | ⟨hclose, _ | _⟩ := hclose
  cases hopen
  cases hclose
  have hafter : Unread [.mark ','] (.rightParen :: rest) := by
    simp [Unread, Symbol.Stands, mark?]
  rw [List.cons_append, List.append_assoc]
  refine bind_eq_ok.mpr ⟨_, rfl, ?_⟩
  refine bind_eq_ok.mpr ⟨_, commaSeparated_takes hne hitems hbetween hafter, ?_⟩
  rfl

end Cursor

/-- The comparisons of atoms make the atoms again. -/
theorem fuse_bounds {parts : List Predicate} (h : ∀ part ∈ parts, part.Atom) :
    fuse (parts.flatMap Predicate.bounds) = .ok parts := by
  induction parts with
  | nil => rfl
  | cons part parts ih =>
    obtain ⟨hpart, hparts⟩ := List.forall_mem_cons.mp h
    cases part with
    | equal column value =>
      exact bind_eq_ok.mpr ⟨parts, ih hparts, rfl⟩
    | like column pattern =>
      exact bind_eq_ok.mpr ⟨parts, ih hparts, rfl⟩
    | range column low high =>
      change fuse (.atLeast column low :: .atMost column high :: parts.flatMap _) = _
      rw [fuse, if_pos rfl]
      exact bind_eq_ok.mpr ⟨parts, ih hparts, rfl⟩
    | all | any => exact hpart.elim

theorem values_bounds {part : Predicate} (h : part.Atom) :
    part.bounds.map Comparison.value = part.values := by
  cases part with
  | equal | like | range => rfl
  | all | any => exact h.elim

theorem bounds_ne_nil {part : Predicate} (h : part.Atom) : part.bounds ≠ [] := by
  cases part with
  | equal | like | range => simp [Predicate.bounds]
  | all | any => exact h.elim

/-- The atoms of a group. -/
theorem exists_atoms {group : Predicate} (h : group.Group) :
    ∃ parts, parts ≠ [] ∧ (∀ part ∈ parts, part.Atom) ∧ allOf parts = group ∧
      group.comparisons = parts.flatMap Predicate.bounds ∧
      group.values = parts.flatMap Predicate.values := by
  cases group with
  | equal | like | range =>
    refine ⟨[_], by simp, fun part hp => ?_, rfl, by simp [Predicate.comparisons], by simp⟩
    cases List.mem_singleton.mp hp
    exact h
  | any => exact h.elim
  | all parts =>
    obtain ⟨hlength, hparts⟩ := h
    refine ⟨parts, ?_, hparts, ?_, rfl, Predicate.valuesOf_eq_flatMap parts⟩
    · rintro rfl
      simp at hlength
    · match parts, hlength with
      | first :: second :: rest, _ => rfl

/-- The groups of a condition. -/
theorem groups_condition {condition : Predicate} (h : condition.Condition) :
    condition.groups ≠ [] ∧ (∀ group ∈ condition.groups, group.Group) ∧
      anyOf condition.groups = condition ∧
      condition.values = condition.groups.flatMap Predicate.values := by
  cases condition with
  | equal | like | range | all =>
    exact ⟨by simp [Predicate.groups], List.forall_mem_singleton.mpr h, rfl,
      by simp [Predicate.groups]⟩
  | any groups =>
    obtain ⟨hlength, hgroups⟩ := h
    refine ⟨?_, hgroups, ?_, Predicate.valuesOf_eq_flatMap groups⟩
    · rintro rfl
      simp at hlength
    · match groups, hlength with
      | first :: second :: rest, _ => rfl

namespace Cursor

theorem conjunction_takes {group : Predicate} (h : group.Group) :
    Takes conjunction group.groupSymbols group.values group [.word "and"] := by
  obtain ⟨parts, hne, hatoms, hall, hcomparisons, hvalues⟩ := exists_atoms h
  have hsome : group.comparisons ≠ [] := by
    obtain ⟨part, others, rfl⟩ := List.exists_cons_of_ne_nil hne
    rw [hcomparisons, List.flatMap_cons]
    exact List.append_ne_nil_of_left_ne_nil (bounds_ne_nil (hatoms part (List.mem_cons_self ..))) _
  have hvalue : group.comparisons.flatMap (fun c => [c.value]) = group.values := by
    rw [hcomparisons, hvalues, List.flatMap_assoc]
    refine List.flatMap_congr fun part hp => ?_
    rw [← values_bounds (hatoms part hp), List.map_eq_flatMap]
  have hseparated := separated_takes hsome (keyword?_separates "and") (fun _ => unread_nil)
    (fun c _ => comparison_takes c)
  rw [hvalue] at hseparated
  intro tokens rest unbound n hs hrest
  refine bind_eq_ok.mpr ⟨_, hseparated hs hrest, ?_⟩
  refine bind_eq_ok.mpr ⟨parts, hcomparisons ▸ fuse_bounds hatoms, ?_⟩
  simp only [hall]
  rfl

theorem condition_takes {predicate : Predicate} (h : predicate.Condition) :
    Takes condition predicate.symbols predicate.values predicate [.word "or", .word "and"] := by
  obtain ⟨hne, hgroups, hany, hvalues⟩ := groups_condition h
  have hseparated := separated_takes hne (keyword?_separates "or")
    (fun hor => unread_word hor (by decide)) (fun group hg => conjunction_takes (hgroups group hg))
  rw [← hvalues] at hseparated
  intro tokens rest unbound n hs hrest
  refine bind_eq_ok.mpr ⟨_, hseparated hs hrest, ?_⟩
  simp only [hany]
  rfl

theorem whereClause_takes {filter : Option Predicate} (h : ∀ p ∈ filter, p.Condition) :
    Takes whereClause (Statement.filterSymbols filter) ((filter.map Predicate.values).getD [])
      filter [.word "where", .word "or", .word "and"] := by
  intro tokens rest unbound n hs hrest
  obtain ⟨hwhere, hrest⟩ := unread_cons.mp hrest
  cases filter with
  | none =>
    cases hs
    rw [whereClause, List.nil_append, keyword?_unread hwhere]
    rfl
  | some predicate =>
    obtain _ | ⟨hkeyword, hs⟩ := hs
    rw [whereClause, List.cons_append, keyword?_stands hkeyword]
    exact bind_eq_ok.mpr ⟨_, condition_takes (h predicate rfl) hs hrest, rfl⟩

theorem projection_takes (star : Bool) (distinct : Option String) :
    Takes projection (Statement.projectionSymbols star distinct) [] distinct [.mark '*'] := by
  intro tokens rest unbound n hs hrest
  cases distinct with
  | none =>
    obtain _ | ⟨hstar, _ | _⟩ := hs
    cases hstar
    rfl
  | some column =>
    obtain _ | ⟨hkeyword, _ | ⟨hcolumn, hstar⟩⟩ := hs
    cases hcolumn
    rw [projection, List.cons_append, keyword?_stands hkeyword]
    cases star with
    | false =>
      cases hstar
      refine bind_eq_ok.mpr ⟨(column, ⟨rest, unbound, n⟩), rfl, ?_⟩
      simp only [(token?_separates (t := .star) rfl).missing hrest]
      rfl
    | true =>
      obtain _ | ⟨hstar, _ | _⟩ := hstar
      cases hstar
      exact bind_eq_ok.mpr ⟨(column, ⟨.star :: rest, unbound, n⟩), rfl, rfl⟩

theorem direction_takes (explicit : Bool) (direction : Direction) :
    Takes Cursor.direction (direction.symbols explicit) [] direction [.word "desc", .word "asc"] := by
  intro tokens rest unbound n hs hrest
  obtain ⟨hdesc, hasc⟩ := unread_cons.mp hrest
  cases direction with
  | descending =>
    obtain _ | ⟨hkeyword, _ | _⟩ := hs
    rw [Cursor.direction, List.cons_append, keyword?_stands hkeyword]
    rfl
  | ascending =>
    cases explicit with
    | false =>
      cases hs
      rw [Cursor.direction, List.nil_append, keyword?_unread hdesc]
      simp only [keyword?_unread hasc]
      rfl
    | true =>
      obtain _ | ⟨hkeyword, _ | _⟩ := hs
      rw [Cursor.direction, List.cons_append, keyword?_other "desc" hkeyword (by decide)]
      simp only [keyword?_stands hkeyword]
      rfl

theorem orderClause_takes (explicit : Bool) (order : Option Ordered) :
    Takes orderClause ((order.map (Ordered.symbols explicit)).getD []) [] order
      [.word "order", .word "desc", .word "asc"] := by
  intro tokens rest unbound n hs hrest
  obtain ⟨horder, hrest⟩ := unread_cons.mp hrest
  cases order with
  | none =>
    cases hs
    rw [orderClause, List.nil_append, keyword?_unread horder]
    rfl
  | some order =>
    obtain _ | ⟨hkeyword, _ | ⟨hby, _ | ⟨hcolumn, hdirection⟩⟩⟩ := hs
    cases hcolumn
    rw [orderClause, List.cons_append, keyword?_stands hkeyword]
    refine bind_eq_ok.mpr ⟨_, keyword_stands hby, ?_⟩
    refine bind_eq_ok.mpr ⟨_, rfl, ?_⟩
    exact bind_eq_ok.mpr ⟨_, direction_takes explicit order.direction hdirection hrest, rfl⟩

theorem onConflict_takes (conflict : OnConflict) :
    Takes onConflict conflict.symbols [] conflict [.word "or"] := by
  intro tokens rest unbound n hs hrest
  cases conflict with
  | append =>
    cases hs
    rw [onConflict, List.nil_append, keyword?_unread hrest]
    rfl
  | replace =>
    obtain _ | ⟨hor, _ | ⟨hreplace, _ | _⟩⟩ := hs
    rw [onConflict, List.cons_append, keyword?_stands hor]
    simp only [List.cons_append, keyword?_stands hreplace]
    rfl
  | ignore =>
    obtain _ | ⟨hor, _ | ⟨hignore, _ | _⟩⟩ := hs
    rw [onConflict, List.cons_append, keyword?_stands hor]
    simp only [List.cons_append, keyword?_other "replace" hignore (by decide),
      keyword?_stands hignore]
    rfl

theorem insert_takes {table : Table} {columns : List String} {values : List Json}
    {conflict : OnConflict} (h : (Statement.insert table columns values conflict).Normal) :
    Takes insert (Statement.insertSymbols table columns values conflict) values
      (.insert table columns values conflict) [] := by
  obtain ⟨hne, hlength, -⟩ := h
  have hne' : values ≠ [] := by
    rintro rfl
    exact hne (List.length_eq_zero_iff.mp hlength)
  have hcolumns := parenthesized_takes hne fun column _ => identifier_takes column
  have hvalues := parenthesized_takes hne' fun v _ => value_takes v
  rw [List.flatMap_eq_nil_iff.mpr fun _ _ => rfl] at hcolumns
  rw [List.flatMap_singleton'] at hvalues
  intro tokens rest unbound n hs _
  obtain ⟨conflicts, _, hconflicts, hafter, rfl⟩ := stands_append hs
  obtain _ | ⟨hinto, _ | ⟨htable, hlists⟩⟩ := hafter
  obtain ⟨first, _, hfirst, hsecond, rfl⟩ := stands_append hlists
  obtain _ | ⟨hkeyword, hsecond⟩ := hsecond
  simp only [List.append_assoc, List.cons_append]
  refine bind_eq_ok.mpr ⟨_, onConflict_takes conflict hconflicts ?_, ?_⟩
  · exact unread_word hinto (by decide)
  refine bind_eq_ok.mpr ⟨_, keyword_stands hinto, ?_⟩
  refine bind_eq_ok.mpr ⟨_, table_takes table (.cons htable .nil) unread_nil, ?_⟩
  refine bind_eq_ok.mpr ⟨_, hcolumns hfirst unread_nil, ?_⟩
  refine bind_eq_ok.mpr ⟨_, keyword_stands hkeyword, ?_⟩
  refine bind_eq_ok.mpr ⟨_, hvalues hsecond unread_nil, ?_⟩
  simp only [if_pos hlength]
  rfl

theorem assignment_takes (field : String × Json) :
    Takes assignment [.column field.1, .mark '=', .mark '?'] [field.2] field [] := by
  intro tokens rest unbound n hs _
  obtain _ | ⟨hcolumn, _ | ⟨hequals, _ | ⟨hquestion, _ | _⟩⟩⟩ := hs
  cases hcolumn
  cases hequals
  cases hquestion
  rfl

theorem update_takes {table : Table} {assignments : List (String × Json)} {id : Json}
    (hne : assignments ≠ []) :
    Takes update (Statement.updateSymbols table assignments) (assignments.map Prod.snd ++ [id])
      (.update table assignments id) [] := by
  have hassignments := commaSeparated_takes hne fun field _ => assignment_takes field
  rw [← List.map_eq_flatMap] at hassignments
  intro tokens rest unbound n hs _
  obtain _ | ⟨htable, _ | ⟨hset, hs⟩⟩ := hs
  obtain ⟨fields, _, hfields, hafter, rfl⟩ := stands_append hs
  obtain _ | ⟨hwhere, _ | ⟨hid, _ | ⟨hequals, _ | ⟨hquestion, _ | _⟩⟩⟩⟩ := hafter
  cases hid
  cases hequals
  cases hquestion
  simp only [List.append_assoc, List.cons_append]
  refine bind_eq_ok.mpr ⟨_, table_takes table (.cons htable .nil) unread_nil, ?_⟩
  refine bind_eq_ok.mpr ⟨_, keyword_stands hset, ?_⟩
  refine bind_eq_ok.mpr ⟨_, hassignments hfields (unread_mark hwhere), ?_⟩
  refine bind_eq_ok.mpr ⟨_, keyword_stands hwhere, ?_⟩
  refine bind_eq_ok.mpr ⟨_, rfl, ?_⟩
  simp only [if_true]
  refine bind_eq_ok.mpr ⟨_, rfl, ?_⟩
  refine bind_eq_ok.mpr ⟨_, rfl, ?_⟩
  rw [List.length_append, List.length_singleton, ← Nat.add_assoc]
  rfl

/-- The keywords that an optional part begins with or that go on with one. -/
def optionals : List Symbol := ["where", "or", "and", "order", "desc", "asc"].map Symbol.word

theorem delete_takes {table : Table} {filter : Option Predicate}
    (h : ∀ predicate ∈ filter, predicate.Condition) :
    Takes delete (.word "from" :: .word table.name :: Statement.filterSymbols filter)
      ((filter.map Predicate.values).getD []) (.delete table filter) optionals := by
  intro tokens rest unbound n hs hrest
  obtain _ | ⟨hfrom, _ | ⟨htable, hfilter⟩⟩ := hs
  simp only [List.cons_append]
  refine bind_eq_ok.mpr ⟨_, keyword_stands hfrom, ?_⟩
  refine bind_eq_ok.mpr ⟨_, table_takes table (.cons htable .nil) unread_nil, ?_⟩
  exact bind_eq_ok.mpr ⟨_, whereClause_takes h hfilter (hrest.mono (by simp [optionals])), rfl⟩

/-- An order neither goes on with a condition nor begins one. -/
theorem unread_order {explicit : Bool} {order : Option Ordered}
    (h : List.Forall₂ Symbol.Stands ((order.map (Ordered.symbols explicit)).getD []) tokens)
    (hrest : Unread optionals rest) :
    Unread [.word "where", .word "or", .word "and"] (tokens ++ rest) := by
  cases order with
  | none =>
    cases h
    exact hrest.mono (by simp [optionals])
  | some order =>
    obtain _ | ⟨horder, -⟩ := h
    exact unread_words ["where", "or", "and"] horder (by decide)

theorem select_takes (explicit star : Bool) {s : Select} (h : s.Normal) :
    Takes select (Statement.selectSymbols explicit star s) s.values s optionals := by
  obtain ⟨hfilter, -, -⟩ := h
  intro tokens rest unbound n hs hrest
  obtain ⟨first, _, hfirst, hafter, rfl⟩ := stands_append hs
  obtain _ | ⟨hfrom, _ | ⟨htable, hlast⟩⟩ := hafter
  obtain ⟨second, third, hsecond, hthird, rfl⟩ := stands_append hlast
  simp only [List.append_assoc, List.cons_append]
  refine bind_eq_ok.mpr ⟨_, projection_takes star s.distinct hfirst (unread_mark hfrom), ?_⟩
  refine bind_eq_ok.mpr ⟨_, keyword_stands hfrom, ?_⟩
  refine bind_eq_ok.mpr ⟨_, table_takes s.table (.cons htable .nil) unread_nil, ?_⟩
  refine bind_eq_ok.mpr ⟨_, whereClause_takes hfilter hsecond (unread_order hthird hrest), ?_⟩
  refine bind_eq_ok.mpr ⟨_, orderClause_takes explicit s.order hthird ?_, rfl⟩
  exact hrest.mono (by simp [optionals])

theorem statement_takes (explicit star : Bool) {s : Statement} (h : s.Normal) :
    Takes statement (s.symbols explicit star) s.values s optionals := by
  intro tokens rest unbound n hs hrest
  cases s with
  | insert table columns values conflict =>
    obtain _ | ⟨hkeyword, hs⟩ := hs
    rw [statement, List.cons_append, keyword?_stands hkeyword]
    exact insert_takes h hs unread_nil
  | update table assignments id =>
    obtain _ | ⟨hkeyword, hs⟩ := hs
    rw [statement, List.cons_append, keyword?_other "insert" hkeyword (by decide)]
    simp only [keyword?_stands hkeyword]
    exact update_takes h.1 hs unread_nil
  | delete table filter =>
    obtain _ | ⟨hkeyword, hs⟩ := hs
    rw [statement, List.cons_append, keyword?_other "insert" hkeyword (by decide)]
    simp only [keyword?_other "update" hkeyword (by decide), keyword?_stands hkeyword]
    exact delete_takes h hs hrest
  | select s =>
    obtain _ | ⟨hkeyword, hs⟩ := hs
    rw [statement, List.cons_append, keyword?_other "insert" hkeyword (by decide)]
    simp only [keyword?_other "update" hkeyword (by decide),
      keyword?_other "delete" hkeyword (by decide), keyword?_stands hkeyword]
    exact bind_eq_ok.mpr ⟨_, select_takes explicit star h hs hrest, rfl⟩

end Cursor

theorem plain_intercalate {parts : List (List Symbol)} (hsymbol : symbol.Plain)
    (h : ∀ part ∈ parts, ∀ s ∈ part, s.Plain) : ∀ s ∈ [symbol].intercalate parts, s.Plain := by
  induction parts with
  | nil => simp
  | cons part parts ih =>
    obtain ⟨hpart, hparts⟩ := List.forall_mem_cons.mp h
    cases parts with
    | nil => simpa using hpart
    | cons next parts =>
      rw [List.intercalate_cons_cons]
      simp only [List.forall_mem_append, List.forall_mem_singleton]
      exact ⟨⟨hpart, hsymbol⟩, ih hparts⟩

theorem plain_inParentheses {parts : List (List Symbol)}
    (h : ∀ part ∈ parts, ∀ s ∈ part, s.Plain) : ∀ s ∈ inParentheses parts, s.Plain := by
  simp only [inParentheses, List.forall_mem_cons, List.forall_mem_append]
  exact ⟨by decide, plain_intercalate (by decide) h, by decide, by simp⟩

theorem plain_table (table : Table) : (Symbol.word table.name).Plain := by
  cases table <;> decide

theorem plain_comparison {c : Comparison} (h : Unquoted c.column) :
    ∀ s ∈ c.symbols, s.Plain := by
  cases c with
  | equal column value =>
    exact List.forall_mem_cons.mpr ⟨h, by decide⟩
  | like column value =>
    exact List.forall_mem_cons.mpr ⟨h, by decide⟩
  | atLeast column value =>
    exact List.forall_mem_cons.mpr ⟨h, by decide⟩
  | atMost column value =>
    exact List.forall_mem_cons.mpr ⟨h, by decide⟩

theorem plain_bounds {part : Predicate} (h : part.Atom) :
    ∀ c ∈ part.bounds, Unquoted c.column := by
  cases part with
  | equal | like => exact List.forall_mem_singleton.mpr h
  | range => exact List.forall_mem_cons.mpr ⟨h, List.forall_mem_singleton.mpr h⟩
  | all | any => exact h.elim

theorem plain_group {group : Predicate} (h : group.Group) :
    ∀ s ∈ group.groupSymbols, s.Plain := by
  obtain ⟨parts, -, hatoms, -, hcomparisons, -⟩ := exists_atoms h
  refine plain_intercalate (by decide) ?_
  rw [hcomparisons, List.forall_mem_map]
  intro c hc
  obtain ⟨part, hpart, hc⟩ := List.mem_flatMap.mp hc
  exact plain_comparison (plain_bounds (hatoms part hpart) c hc)

theorem plain_filter {filter : Option Predicate} (h : ∀ p ∈ filter, p.Condition) :
    ∀ s ∈ Statement.filterSymbols filter, s.Plain := by
  cases filter with
  | none => simp [Statement.filterSymbols]
  | some condition =>
    obtain ⟨-, hgroups, -, -⟩ := groups_condition (h condition rfl)
    refine List.forall_mem_cons.mpr ⟨by decide, plain_intercalate (by decide) ?_⟩
    rw [List.forall_mem_map]
    exact fun group hg => plain_group (hgroups group hg)

theorem plain_projection (star : Bool) {distinct : Option String}
    (h : ∀ column ∈ distinct, Unquoted column) :
    ∀ s ∈ Statement.projectionSymbols star distinct, s.Plain := by
  cases distinct with
  | none => exact List.forall_mem_singleton.mpr (by decide)
  | some column =>
    refine List.forall_mem_cons.mpr ⟨by decide, List.forall_mem_cons.mpr ⟨h column rfl, ?_⟩⟩
    cases star <;> decide

theorem plain_symbols (explicit star : Bool) {s : Statement} (h : s.Normal) :
    ∀ symbol ∈ s.symbols explicit star, symbol.Plain := by
  cases s with
  | insert table columns values conflict =>
    obtain ⟨-, -, hcolumns⟩ := h
    simp only [Statement.symbols, Statement.insertSymbols, List.forall_mem_cons,
      List.forall_mem_append]
    refine ⟨by decide, ?_, by decide, plain_table table, plain_inParentheses ?_, by decide,
      plain_inParentheses ?_⟩
    · cases conflict <;> decide
    · rw [List.forall_mem_map]
      exact fun column hc => List.forall_mem_singleton.mpr (hcolumns column hc)
    · rw [List.forall_mem_map]
      exact fun _ _ => List.forall_mem_singleton.mpr (by decide)
  | update table assignments id =>
    obtain ⟨-, hcolumns⟩ := h
    simp only [Statement.symbols, Statement.updateSymbols, List.forall_mem_cons,
      List.forall_mem_append]
    refine ⟨by decide, plain_table table, by decide, plain_intercalate (by decide) ?_, by decide,
      by decide, by decide, by decide, by simp⟩
    rw [List.forall_mem_map]
    exact fun field hf => List.forall_mem_cons.mpr ⟨hcolumns field hf, by decide⟩
  | delete table filter =>
    simp only [Statement.symbols, List.forall_mem_cons]
    exact ⟨by decide, by decide, plain_table table, plain_filter h⟩
  | select s =>
    obtain ⟨hfilter, horder, hdistinct⟩ := h
    simp only [Statement.symbols, Statement.selectSymbols, List.forall_mem_cons,
      List.forall_mem_append]
    refine ⟨by decide, ?_, by decide, plain_table s.table, plain_filter hfilter, ?_⟩
    · exact plain_projection star hdistinct
    · cases ho : s.order with
      | none => simp
      | some order =>
        refine List.forall_mem_cons.mpr ⟨by decide, List.forall_mem_cons.mpr ⟨by decide, ?_⟩⟩
        refine List.forall_mem_cons.mpr ⟨horder order ho, ?_⟩
        cases order.direction <;> cases explicit <;> decide

/-- Nothing follows a statement but a semicolon. -/
theorem complete_end {stop : List Token} (h : stop = [] ∨ stop = [.semicolon]) :
    complete n ⟨stop, [], n⟩ = .ok () := by
  rcases h with rfl | rfl
  · exact if_pos rfl
  · exact if_pos rfl

theorem parted_blanks {gap rest : List Char} (hgap : Blank gap) (hrest : Parted rest) :
    Parted (gap ++ rest) := by
  cases gap with
  | nil => exact hrest
  | cons c gap => exact parted_blank (hgap c (List.mem_cons_self ..))

/-- What may follow a statement: white space, and a semicolon among it. -/
theorem scanFrom_end {gap stop after : List Char} (hgap : Blank gap)
    (hstop : stop = [] ∨ stop = [';']) (hafter : Blank after) :
    Parted (gap ++ (stop ++ after)) ∧ ∃ tokens, (tokens = [] ∨ tokens = [.semicolon]) ∧
      ∀ offset, scanFrom .between offset (gap ++ (stop ++ after)) = .ok tokens := by
  have hnone : ∀ offset, scanFrom .between offset after = .ok [] := by
    intro offset
    rw [← List.append_nil after]
    exact scanFrom_blank hafter rfl
  rcases hstop with rfl | rfl
  · refine ⟨parted_blanks hgap ?_, [], .inl rfl, fun offset => scanFrom_blank hgap (hnone _)⟩
    rw [List.nil_append, ← List.append_nil after]
    exact parted_blanks hafter (by simp [Parted])
  · refine ⟨parted_blanks hgap ?_, [.semicolon], .inr rfl, fun offset => scanFrom_blank hgap ?_⟩
    · intro c hc
      cases hc
      decide
    · have hfeed : feed .between (offset + gap.length) ';' = .ok ([.semicolon], .between) := rfl
      exact scanFrom_cons hfeed (hnone _)

/-- The tokens of a text that spells a statement. -/
theorem scan_spelledBy {s : Statement} (hs : s.Normal) {sql : String} (h : s.SpelledBy sql) :
    ∃ explicit star tokens stop, List.Forall₂ Symbol.Stands (s.symbols explicit star) tokens ∧
      (stop = [] ∨ stop = [.semicolon]) ∧ scan sql = .ok (tokens ++ stop) := by
  obtain ⟨explicit, star, before, body, gap, stop, after, hbefore, hgap, hafter, hstop, hbody, hsql⟩ :=
    h
  obtain ⟨hparted, last, hlast, hend⟩ := scanFrom_end hgap hstop hafter
  obtain ⟨tokens, htokens, hscan⟩ :=
    scanFrom_spelled hbody (plain_symbols explicit star hs) hparted (hend _)
  refine ⟨explicit, star, tokens, last, htokens, hlast, ?_⟩
  rw [scan, hsql]
  exact scanFrom_blank hbefore hscan

theorem parse_spelledBy {s : Statement} (hs : s.Normal) {sql : String} (h : s.SpelledBy sql) :
    parse sql s.values = .ok s := by
  obtain ⟨explicit, star, tokens, stop, htokens, hstop, hscan⟩ := scan_spelledBy hs h
  have hrest : Unread Cursor.optionals stop := by
    rcases hstop with rfl | rfl
    · simp [Unread]
    · simp [Unread, Cursor.optionals, Symbol.Stands]
  have hstatement : Cursor.statement ⟨tokens ++ stop, s.values ++ [], 0⟩ = _ :=
    Cursor.statement_takes explicit star hs htokens hrest
  rw [List.append_nil, Nat.zero_add] at hstatement
  refine bind_eq_ok.mpr ⟨_, hscan, ?_⟩
  refine bind_eq_ok.mpr ⟨_, hstatement, ?_⟩
  exact bind_eq_ok.mpr ⟨_, complete_end hstop, rfl⟩

/-- The texts that are read are those of statements in normal form, with a parameter for each
question mark; and however a statement in normal form is spelled, it is read back. -/
theorem parse_grammar :
    (∀ sql parameters s, parse sql parameters = .ok s →
      (∃ tokens, scan sql = .ok tokens ∧ tokens.count .placeholder = parameters.length) ∧
        s.Normal) ∧
    ∀ (s : Statement) sql, s.Normal → s.SpelledBy sql → parse sql s.values = .ok s := by
  refine ⟨fun sql parameters s h => ?_, fun s sql hs h => parse_spelledBy hs h⟩
  have hQ : OfLiterals fun _ => True :=
    ⟨trivial, fun _ => trivial, fun _ => trivial, fun _ => trivial⟩
  obtain ⟨htokens, hstatement⟩ := parse_statementOf hQ (fun _ _ => trivial) h
  exact ⟨htokens, hstatement.1⟩

/-- The distinct values of a column whose name is a keyword. -/
def distinctFrom : Statement := .select ⟨.tasks, none, none, some "from"⟩

theorem parse_distinctFrom :
    distinctFrom.Normal ∧
      parse "Select DISTINCT\t\"from\" * FROM Tasks;" distinctFrom.values = .ok distinctFrom := by
  have hnormal : distinctFrom.Normal := by
    refine ⟨by simp, by simp, ?_⟩
    simp [Unquoted]
  have hspelled : Spelled (distinctFrom.symbols false true)
      ("Select".toList ++ [' '] ++ ("DISTINCT".toList ++ ['\t'] ++ ("\"from\"".toList ++ [' '] ++
        ("*".toList ++ [' '] ++ ("FROM".toList ++ [' '] ++ "Tasks".toList))))) :=
    .cons (by decide) (by decide) (by decide) (.cons (by decide) (by decide) (by decide)
      (.cons (by decide) (by decide) (by decide) (.cons (by decide) (by decide) (by decide)
        (.cons (by decide) (by decide) (by decide) (.single (by decide))))))
  exact ⟨hnormal, parse_grammar.2 _ _ hnormal ⟨false, true, [], _, [], [';'], [], by decide,
    by decide, by decide, .inr rfl, hspelled, by decide⟩⟩

end Planner.Sql
