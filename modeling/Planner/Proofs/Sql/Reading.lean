import Planner.Proofs.Sql.Completeness
import Planner.Proofs.Sql.Literal

/-! What a condition says by its tokens: groups with OR between them, each of comparisons with AND
between them, of which every bound stands for itself. -/
namespace Planner.Sql

open Outcome

variable {α : Type} {token : Token} {tokens : List Token} {v : Json} {parameters rest : List Json}
  {row : Record}

/-- A way to read tokens: the tokens, the parameters ahead of them, what they say, and the
parameters behind them. -/
abbrev Form (α : Type) := List Token → List Json → α → List Json → Prop

/-- A value is a literal, or a question mark for the next parameter. -/
inductive Denotes : Token → List Json → Json → List Json → Prop
  | literal {token : Token} {v : Json} (h : Literal token v) (parameters : List Json) :
    Denotes token parameters v parameters
  | parameter (v : Json) (parameters : List Json) :
    Denotes .placeholder (v :: parameters) v parameters

/-- The comparison that is made with an operator. -/
inductive Operator : Token → (String → Json → Comparison) → Prop
  | equals : Operator .equals .equal
  | atLeast : Operator .atLeast .atLeast
  | atMost : Operator .atMost .atMost
  | like {token : Token} (h : (Symbol.word "like").Stands token) : Operator token .like

/-- A comparison is a column, an operator and a value. -/
inductive Compares : Form Comparison
  | intro {column : String} {operator value : Token} {make : String → Json → Comparison} {v : Json}
    {parameters rest : List Json} (hoperator : Operator operator make)
    (hvalue : Denotes value parameters v rest) :
    Compares [.word column, operator, value] parameters (make column v) rest

/-- One part or more, with a word between them. -/
inductive Separated (name : String) (form : Form α) : Form (List α)
  | single {tokens : List Token} {parameters rest : List Json} {x : α}
    (h : form tokens parameters x rest) : Separated name form tokens parameters [x] rest
  | cons {first more : List Token} {word : Token} {parameters between rest : List Json} {x : α}
    {xs : List α} (h : form first parameters x between) (hword : (Symbol.word name).Stands word)
    (hmore : Separated name form more between xs rest) :
    Separated name form (first ++ word :: more) parameters (x :: xs) rest

/-- Groups with OR between them, each of comparisons with AND between them. -/
def Grouped : Form (List (List Comparison)) := Separated "or" (Separated "and" Compares)

/-- Whether a comparison is true of a row. A bound is true of what compares with it and lies on its
side; only a text can be a pattern. -/
def Comparison.Holds (row : Record) : Comparison → Prop
  | .equal column value => ∃ v, row.get? column = some v ∧ v.same value
  | .like column (.text pattern) => Predicate.likeHolds pattern (row.get? column)
  | .like _ _ => False
  | .atLeast column low =>
    ∃ v, row.get? column = some v ∧ (v.compare? low = some .gt ∨ v.compare? low = some .eq)
  | .atMost column high =>
    ∃ v, row.get? column = some v ∧ (v.compare? high = some .lt ∨ v.compare? high = some .eq)

/-- Whether all comparisons of some group are true of a row. -/
def SomeHolds (groups : List (List Comparison)) (row : Record) : Prop :=
  ∃ group ∈ groups, ∀ c ∈ group, c.Holds row

theorem equalHolds_iff {field : Option Json} :
    Predicate.equalHolds v field ↔ ∃ w, field = some w ∧ w.same v := by
  cases field <;> simp [Predicate.equalHolds]

theorem atLeast_iff {field : Option Json} : Predicate.atLeast v field ↔
    ∃ w, field = some w ∧ (w.compare? v = some .gt ∨ w.compare? v = some .eq) := by
  cases field with
  | none => simp [Predicate.atLeast]
  | some w =>
    simp only [Predicate.atLeast]
    split <;> simp_all

theorem atMost_iff {field : Option Json} : Predicate.atMost v field ↔
    ∃ w, field = some w ∧ (w.compare? v = some .lt ∨ w.compare? v = some .eq) := by
  cases field with
  | none => simp [Predicate.atMost]
  | some w =>
    simp only [Predicate.atMost]
    split <;> simp_all

instance (row : Record) (c : Comparison) : Decidable (c.Holds row) :=
  match c with
  | .equal .. => decidable_of_iff _ equalHolds_iff
  | .like _ (.text _) => inferInstanceAs (Decidable (_ = true))
  | .like _ .null | .like _ (.bool _) | .like _ (.number _) | .like _ (.list _)
  | .like _ (.object _) => inferInstanceAs (Decidable False)
  | .atLeast .. => decidable_of_iff _ atLeast_iff
  | .atMost .. => decidable_of_iff _ atMost_iff

instance (groups : List (List Comparison)) (row : Record) : Decidable (SomeHolds groups row) :=
  inferInstanceAs (Decidable (∃ group ∈ groups, ∀ c ∈ group, c.Holds row))

/-! ### One reading only -/

/-- Of tokens with something behind them that is none of the words, no more than one front can be
read, and in one way. -/
def Definite (barred : List String) (form : Form α) : Prop :=
  ∀ ⦃first second more others : List Token⦄ ⦃parameters rest left : List Json⦄ ⦃x y : α⦄,
    form first parameters x rest → form second parameters y left →
      first ++ more = second ++ others → Unread (barred.map .word) more →
        Unread (barred.map .word) others → first = second ∧ x = y ∧ rest = left

theorem Literal.unique {w : Json} (hv : Literal token v) (hw : Literal token w) : v = w := by
  cases hv with
  | text | number =>
    cases hw
    rfl
  | word hname hsame =>
    have hword := wordValue?_eq_some.mpr (.word hname hsame)
    exact Option.some.inj (hword.symm.trans (wordValue?_eq_some.mpr hw))

theorem Denotes.unique {w : Json} {left : List Json} (hv : Denotes token parameters v rest)
    (hw : Denotes token parameters w left) : v = w ∧ rest = left := by
  cases hv with
  | literal hv =>
    cases hw with
    | literal hw => exact ⟨hv.unique hw, rfl⟩
    | parameter => cases hv
  | parameter =>
    cases hw with
    | literal hw => cases hw
    | parameter => exact ⟨rfl, rfl⟩

theorem Operator.unique {make other : String → Json → Comparison} (h : Operator token make)
    (ho : Operator token other) : make = other := by
  cases h with
  | like hlike =>
    obtain ⟨w, rfl, -⟩ := hlike
    cases ho
    rfl
  | equals | atLeast | atMost =>
    cases ho with
    | like hlike =>
      obtain ⟨w, hw, -⟩ := hlike
      cases hw
    | _ => rfl

theorem definite_compares : Definite [] Compares := by
  intro first second more others parameters rest left x y hx hy happend _ _
  cases hx with
  | intro hoperator hvalue =>
    cases hy with
    | intro hoperator' hvalue' =>
      simp only [List.cons_append, List.nil_append, List.cons.injEq, Token.word.injEq] at happend
      obtain ⟨rfl, rfl, rfl, -⟩ := happend
      cases hoperator.unique hoperator'
      obtain ⟨rfl, rfl⟩ := hvalue.unique hvalue'
      exact ⟨rfl, rfl, rfl⟩

/-- Where no part goes on, the word shows that another one follows. -/
theorem definite_separated {name : String} {barred : List String} {form : Form α}
    (hform : Definite barred form)
    (hname : ∀ other ∈ barred, Text.sameIgnoringCase name other = false) :
    Definite (name :: barred) (Separated name form) := by
  intro first second more others parameters rest left xs ys hx hy happend hmore hothers
  obtain ⟨hmoreName, hmore⟩ := unread_cons.mp hmore
  obtain ⟨hothersName, hothers⟩ := unread_cons.mp hothers
  induction hx generalizing second ys left with
  | single hx =>
    cases hy with
    | single hy =>
      obtain ⟨rfl, rfl, rfl⟩ := hform hx hy happend hmore hothers
      exact ⟨rfl, rfl, rfl⟩
    | cons hy hword hys =>
      rw [List.append_assoc] at happend
      obtain ⟨rfl, -, -⟩ := hform hx hy happend hmore (unread_words barred hword hname)
      rw [List.append_cancel_left happend] at hmoreName
      exact absurd hword (hmoreName _ (List.mem_cons_self ..) _ rfl)
  | cons hx hword hxs ih =>
    rw [List.append_assoc] at happend
    cases hy with
    | single hy =>
      obtain ⟨rfl, -, -⟩ := hform hx hy happend (unread_words barred hword hname) hothers
      rw [← List.append_cancel_left happend] at hothersName
      exact absurd hword (hothersName _ (List.mem_cons_self ..) _ rfl)
    | cons hy hword' hys =>
      rw [List.append_assoc] at happend
      obtain ⟨rfl, rfl, rfl⟩ := hform hx hy happend (unread_words barred hword hname)
        (unread_words barred hword' hname)
      have htail := List.append_cancel_left happend
      rw [List.cons_append, List.cons_append, List.cons.injEq] at htail
      obtain ⟨rfl, htail⟩ := htail
      obtain ⟨rfl, rfl, rfl⟩ := ih hys htail
      exact ⟨rfl, rfl, rfl⟩

theorem definite_grouped : Definite ["or", "and"] Grouped :=
  definite_separated (definite_separated definite_compares (by simp)) (by decide)

/-- Tokens are read in one way only. -/
theorem Grouped.unique {groups others : List (List Comparison)} {left : List Json}
    (h : Grouped tokens parameters groups rest) (ho : Grouped tokens parameters others left) :
    groups = others :=
  (definite_grouped h ho (rfl : tokens ++ [] = tokens ++ []) (by simp [Unread])
    (by simp [Unread])).2.1

/-! ### The predicate of a reading -/

/-- Two bounds that make a range are both true where the range holds. -/
theorem allHold_fuse : ∀ {comparisons : List Comparison} {parts : List Predicate},
    fuse comparisons = .ok parts →
      (Predicate.allHold row parts ↔ ∀ c ∈ comparisons, c.Holds row) := by
  intro comparisons
  induction comparisons using fuse.induct with
  | case1 =>
    intro parts h
    cases h
    simp [Predicate.allHold]
  | case2 column value rest ih =>
    intro parts h
    obtain ⟨others, hothers, h⟩ := bind_eq_ok.mp h
    cases h
    simp only [Predicate.allHold, Predicate.holds, Bool.and_eq_true, List.forall_mem_cons,
      ih hothers, Comparison.Holds, equalHolds_iff]
  | case3 column pattern rest ih =>
    intro parts h
    obtain ⟨others, hothers, h⟩ := bind_eq_ok.mp h
    cases h
    simp only [Predicate.allHold, Predicate.holds, Bool.and_eq_true, List.forall_mem_cons,
      ih hothers, Comparison.Holds]
  | case5 low column high rest ih =>
    intro parts h
    rw [fuse, if_pos rfl] at h
    obtain ⟨others, hothers, h⟩ := bind_eq_ok.mp h
    cases h
    simp only [Predicate.allHold, Predicate.holds, Bool.and_eq_true, List.forall_mem_cons,
      ih hothers, Comparison.Holds, atLeast_iff, atMost_iff, and_assoc]
  | case6 =>
    intro parts h
    rw [fuse, if_neg (by assumption)] at h
    cases h
  | _ =>
    intro parts h
    simp [fuse] at h

theorem holds_allOf (parts : List Predicate) :
    (allOf parts).holds row = Predicate.allHold row parts := by
  match parts with
  | [] => simp [allOf, Predicate.holds]
  | [part] => simp [allOf, Predicate.allHold]
  | first :: second :: rest => simp [allOf, Predicate.holds]

theorem holds_anyOf (groups : List Predicate) :
    (anyOf groups).holds row ↔ ∃ group ∈ groups, group.holds row := by
  have hany : Predicate.anyHolds row groups ↔ ∃ group ∈ groups, group.holds row := by
    induction groups with
    | nil => simp [Predicate.anyHolds]
    | cons group groups ih => simp [Predicate.anyHolds, ih]
  match groups with
  | [] => simpa [anyOf, Predicate.holds] using hany
  | [group] => simp [anyOf]
  | first :: second :: rest =>
    rw [← hany]
    simp [anyOf, Predicate.holds]

end Planner.Sql
