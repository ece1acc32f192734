import Planner.Proofs.Outcome
import Planner.Sql.Parse

/-! Two statements of which the second is read as the first is: a relation of cursors that the
smallest steps keep is kept by every step. -/
namespace Planner.Sql

open Outcome

variable {α : Type} {R : Cursor → Cursor → Prop} {a b a' : Cursor}

/-- Whether a token is a mark that stands for itself. -/
def Token.IsMark : Token → Prop
  | .word _ | .text _ | .number _ | .placeholder => False
  | _ => True

/-- Whatever a step reads from the first of two related cursors it reads from the second, and
leaves related cursors. -/
def Follows (R : Cursor → Cursor → Prop) (step : Step α) : Prop :=
  ∀ ⦃a b : Cursor⦄, R a b → ∀ ⦃x : α⦄ ⦃a' : Cursor⦄, step a = .ok (x, a') →
    ∃ b', step b = .ok (x, b') ∧ R a' b'

/-- What is found at the first of two related cursors is found at the second, and nothing else. -/
structure Finds (R : Cursor → Cursor → Prop) (look : Cursor → Option Cursor) : Prop where
  taken : ∀ {a b a'}, R a b → look a = some a' → ∃ b', look b = some b' ∧ R a' b'
  missing : ∀ {a b}, R a b → look a = none → look b = none

/-- A relation that is kept when a keyword, a mark, a name or a value is read. -/
structure Simulates (R : Cursor → Cursor → Prop) : Prop where
  length : ∀ {a b}, R a b → a.tokens.length = b.tokens.length
  keyword? : ∀ name, Cursor.wordValue? name = none → Finds R (Cursor.keyword? name)
  token? : ∀ token : Token, token.IsMark → Finds R (Cursor.token? token)
  identifier : Follows R Cursor.identifier
  value : Follows R Cursor.value

/-- What may be left out is taken from both or from neither. -/
theorem Finds.getD {look : Cursor → Option Cursor} (hlook : Finds R look) (h : R a b) :
    R ((look a).getD a) ((look b).getD b) := by
  cases ha : look a with
  | none =>
    rw [hlook.missing h ha]
    exact h
  | some a' =>
    obtain ⟨b', hb, h'⟩ := hlook.taken h ha
    rw [hb]
    exact h'

namespace Follows

theorem pure (x : α) : Follows R fun cursor => .ok (x, cursor) := by
  intro a b h y a' hy
  cases hy
  exact ⟨b, rfl, h⟩

theorem expected (wanted : String) : Follows R (Cursor.expected (α := α × Cursor) wanted) := by
  intro a b h x a' hx
  cases hx

/-- One step where something is found, and another where it is not. -/
theorem choice {look : Cursor → Option Cursor} {first second : Step α} (hlook : Finds R look)
    (hfirst : Follows R first) (hsecond : Follows R second) :
    Follows R fun cursor => match look cursor with
      | some cursor => first cursor
      | none => second cursor := by
  intro a b h x a' hx
  dsimp only at hx ⊢
  split at hx
  · rename_i a₁ hfound
    obtain ⟨b₁, hb, h₁⟩ := hlook.taken h hfound
    rw [hb]
    exact hfirst h₁ hx
  · rename_i hnone
    rw [hlook.missing h hnone]
    exact hsecond h hx

theorem separatedLoop {item : Step α} {separator : Cursor → Option Cursor}
    (hitem : Follows R item) (hsep : Finds R separator) (steps : Nat) :
    Follows R (Cursor.separatedLoop item separator steps) := by
  induction steps with
  | zero =>
    intro a b h xs a' hxs
    obtain ⟨⟨x, a₁⟩, hx, hxs⟩ := bind_eq_ok.mp hxs
    cases hxs
    obtain ⟨b₁, hx', h₁⟩ := hitem h hx
    exact ⟨b₁, bind_eq_ok.mpr ⟨_, hx', rfl⟩, h₁⟩
  | succ steps ih =>
    intro a b h xs a' hxs
    obtain ⟨⟨x, a₁⟩, hx, hxs⟩ := bind_eq_ok.mp hxs
    obtain ⟨b₁, hx', h₁⟩ := hitem h hx
    dsimp only at hxs
    split at hxs
    · rename_i hnone
      cases hxs
      refine ⟨b₁, bind_eq_ok.mpr ⟨_, hx', ?_⟩, h₁⟩
      simp only [hsep.missing h₁ hnone]
      rfl
    · rename_i a₂ hsome
      obtain ⟨⟨xs, a₃⟩, hmore, hxs⟩ := bind_eq_ok.mp hxs
      cases hxs
      obtain ⟨b₂, hb, h₂⟩ := hsep.taken h₁ hsome
      obtain ⟨b₃, hmore', h₃⟩ := ih h₂ hmore
      refine ⟨b₃, bind_eq_ok.mpr ⟨_, hx', ?_⟩, h₃⟩
      simp only [hb]
      exact bind_eq_ok.mpr ⟨_, hmore', rfl⟩

end Follows

namespace Simulates

variable (hR : Simulates R)
include hR

theorem keyword (h : R a b) {name : String} (hname : Cursor.wordValue? name = none)
    (hk : a.keyword name = .ok a') : ∃ b', b.keyword name = .ok b' ∧ R a' b' := by
  unfold Cursor.keyword at hk
  split at hk
  · rename_i rest hrest
    cases hk
    obtain ⟨b', hb, h'⟩ := (hR.keyword? name hname).taken h hrest
    exact ⟨b', by rw [Cursor.keyword, hb], h'⟩
  · cases hk

theorem token (h : R a b) (token : Token) (hmark : token.IsMark)
    (hk : a.token token = .ok a') : ∃ b', b.token token = .ok b' ∧ R a' b' := by
  unfold Cursor.token at hk
  split at hk
  · rename_i rest hrest
    cases hk
    obtain ⟨b', hb, h'⟩ := (hR.token? token hmark).taken h hrest
    exact ⟨b', by rw [Cursor.token, hb], h'⟩
  · cases hk

theorem separated {item : Step α} {separator : Cursor → Option Cursor}
    (hitem : Follows R item) (hsep : Finds R separator) :
    Follows R (Cursor.separated item separator) := by
  intro a b h xs a' hxs
  unfold Cursor.separated at hxs ⊢
  rw [← hR.length h]
  exact hitem.separatedLoop hsep _ h hxs

theorem commaSeparated {item : Step α} (hitem : Follows R item) :
    Follows R (Cursor.commaSeparated item) :=
  hR.separated hitem (hR.token? .comma trivial)

theorem parenthesized {item : Step α} (hitem : Follows R item) :
    Follows R (Cursor.parenthesized item) := by
  intro a b h xs a' hxs
  obtain ⟨a₁, hopen, hxs⟩ := bind_eq_ok.mp hxs
  obtain ⟨⟨items, a₂⟩, hitems, hxs⟩ := bind_eq_ok.mp hxs
  obtain ⟨a₃, hclose, hxs⟩ := bind_eq_ok.mp hxs
  cases hxs
  obtain ⟨b₁, hopen', h₁⟩ := hR.token h .leftParen trivial hopen
  obtain ⟨b₂, hitems', h₂⟩ := hR.commaSeparated hitem h₁ hitems
  obtain ⟨b₃, hclose', h₃⟩ := hR.token h₂ .rightParen trivial hclose
  refine ⟨b₃, bind_eq_ok.mpr ⟨_, hopen', ?_⟩, h₃⟩
  exact bind_eq_ok.mpr ⟨_, hitems', bind_eq_ok.mpr ⟨_, hclose', rfl⟩⟩

theorem table : Follows R Cursor.table := by
  intro a b h x a' hx
  obtain ⟨⟨name, a₁⟩, hname, hx⟩ := bind_eq_ok.mp hx
  obtain ⟨b₁, hname', h₁⟩ := hR.identifier h hname
  dsimp only at hx
  split at hx
  · rename_i table htable
    cases hx
    refine ⟨b₁, bind_eq_ok.mpr ⟨_, hname', ?_⟩, h₁⟩
    simp only [htable]
    rfl
  · cases hx

/-- A value follows the operator of a comparison. -/
theorem compared (make : Json → Comparison) :
    Follows R fun cursor => do
      let (v, rest) ← cursor.value
      return (make v, rest) := by
  intro a b h x a' hx
  obtain ⟨⟨v, a₁⟩, hv, hx⟩ := bind_eq_ok.mp hx
  cases hx
  obtain ⟨b₁, hv', h₁⟩ := hR.value h hv
  exact ⟨b₁, bind_eq_ok.mpr ⟨_, hv', rfl⟩, h₁⟩

theorem comparison : Follows R Cursor.comparison := by
  intro a b h x a' hx
  obtain ⟨⟨column, a₁⟩, hcolumn, hx⟩ := bind_eq_ok.mp hx
  obtain ⟨b₁, hcolumn', h₁⟩ := hR.identifier h hcolumn
  have hoperator := Follows.choice (hR.token? .equals trivial) (hR.compared (.equal column)) <|
    .choice (hR.token? .atLeast trivial) (hR.compared (.atLeast column)) <|
    .choice (hR.token? .atMost trivial) (hR.compared (.atMost column)) <|
    .choice (hR.keyword? "like" (by decide)) (hR.compared (.like column))
      (.expected "'=', '>=', '<=' or LIKE")
  obtain ⟨b', hb, h'⟩ := hoperator h₁ hx
  exact ⟨b', bind_eq_ok.mpr ⟨_, hcolumn', hb⟩, h'⟩

theorem conjunction : Follows R Cursor.conjunction := by
  intro a b h x a' hx
  obtain ⟨⟨comparisons, a₁⟩, hcomparisons, hx⟩ := bind_eq_ok.mp hx
  obtain ⟨parts, hparts, hx⟩ := bind_eq_ok.mp hx
  cases hx
  obtain ⟨b₁, hcomparisons', h₁⟩ :=
    hR.separated hR.comparison (hR.keyword? "and" (by decide)) h hcomparisons
  exact ⟨b₁, bind_eq_ok.mpr ⟨_, hcomparisons', bind_eq_ok.mpr ⟨_, hparts, rfl⟩⟩, h₁⟩

theorem condition : Follows R Cursor.condition := by
  intro a b h x a' hx
  obtain ⟨⟨groups, a₁⟩, hgroups, hx⟩ := bind_eq_ok.mp hx
  cases hx
  obtain ⟨b₁, hgroups', h₁⟩ :=
    hR.separated hR.conjunction (hR.keyword? "or" (by decide)) h hgroups
  exact ⟨b₁, bind_eq_ok.mpr ⟨_, hgroups', rfl⟩, h₁⟩

theorem whereClause : Follows R Cursor.whereClause := by
  refine Follows.choice (hR.keyword? "where" (by decide)) ?_ (.pure none)
  intro a b h x a' hx
  obtain ⟨⟨predicate, a₁⟩, hpredicate, hx⟩ := bind_eq_ok.mp hx
  cases hx
  obtain ⟨b₁, hpredicate', h₁⟩ := hR.condition h hpredicate
  exact ⟨b₁, bind_eq_ok.mpr ⟨_, hpredicate', rfl⟩, h₁⟩

theorem onConflict : Follows R Cursor.onConflict := by
  have hpolicy := Follows.choice (hR.keyword? "replace" (by decide)) (.pure OnConflict.replace) <|
    .choice (hR.keyword? "ignore" (by decide)) (.pure OnConflict.ignore)
      (.expected "REPLACE or IGNORE")
  intro a b h
  unfold Cursor.onConflict
  cases ha : a.keyword? "or" with
  | none =>
    rw [(hR.keyword? "or" (by decide)).missing h ha]
    exact Follows.pure OnConflict.append h
  | some a₁ =>
    obtain ⟨b₁, hb, h₁⟩ := (hR.keyword? "or" (by decide)).taken h ha
    rw [hb]
    exact hpolicy h₁

theorem insert : Follows R Cursor.insert := by
  intro a b h x a' hx
  obtain ⟨⟨conflict, a₁⟩, hconflict, hx⟩ := bind_eq_ok.mp hx
  obtain ⟨a₂, hinto, hx⟩ := bind_eq_ok.mp hx
  obtain ⟨⟨table, a₃⟩, htable, hx⟩ := bind_eq_ok.mp hx
  obtain ⟨⟨columns, a₄⟩, hcolumns, hx⟩ := bind_eq_ok.mp hx
  obtain ⟨a₅, hvalues, hx⟩ := bind_eq_ok.mp hx
  obtain ⟨⟨values, a₆⟩, hlist, hx⟩ := bind_eq_ok.mp hx
  obtain ⟨b₁, hconflict', h₁⟩ := hR.onConflict h hconflict
  obtain ⟨b₂, hinto', h₂⟩ := hR.keyword h₁ (by decide) hinto
  obtain ⟨b₃, htable', h₃⟩ := hR.table h₂ htable
  obtain ⟨b₄, hcolumns', h₄⟩ := hR.parenthesized hR.identifier h₃ hcolumns
  obtain ⟨b₅, hvalues', h₅⟩ := hR.keyword h₄ (by decide) hvalues
  obtain ⟨b₆, hlist', h₆⟩ := hR.parenthesized hR.value h₅ hlist
  dsimp only at hx
  split_ifs at hx with hlength
  cases hx
  refine ⟨b₆, bind_eq_ok.mpr ⟨_, hconflict', bind_eq_ok.mpr ⟨_, hinto', ?_⟩⟩, h₆⟩
  refine bind_eq_ok.mpr ⟨_, htable', bind_eq_ok.mpr ⟨_, hcolumns', ?_⟩⟩
  refine bind_eq_ok.mpr ⟨_, hvalues', bind_eq_ok.mpr ⟨_, hlist', ?_⟩⟩
  simp only [if_pos hlength]
  rfl

theorem assignment : Follows R Cursor.assignment := by
  intro a b h x a' hx
  obtain ⟨⟨column, a₁⟩, hcolumn, hx⟩ := bind_eq_ok.mp hx
  obtain ⟨a₂, hequals, hx⟩ := bind_eq_ok.mp hx
  obtain ⟨⟨v, a₃⟩, hv, hx⟩ := bind_eq_ok.mp hx
  cases hx
  obtain ⟨b₁, hcolumn', h₁⟩ := hR.identifier h hcolumn
  obtain ⟨b₂, hequals', h₂⟩ := hR.token h₁ .equals trivial hequals
  obtain ⟨b₃, hv', h₃⟩ := hR.value h₂ hv
  refine ⟨b₃, bind_eq_ok.mpr ⟨_, hcolumn', bind_eq_ok.mpr ⟨_, hequals', ?_⟩⟩, h₃⟩
  exact bind_eq_ok.mpr ⟨_, hv', rfl⟩

theorem update : Follows R Cursor.update := by
  intro a b h x a' hx
  obtain ⟨⟨table, a₁⟩, htable, hx⟩ := bind_eq_ok.mp hx
  obtain ⟨a₂, hset, hx⟩ := bind_eq_ok.mp hx
  obtain ⟨⟨assignments, a₃⟩, hassignments, hx⟩ := bind_eq_ok.mp hx
  obtain ⟨a₄, hwhere, hx⟩ := bind_eq_ok.mp hx
  obtain ⟨⟨column, a₅⟩, hcolumn, hx⟩ := bind_eq_ok.mp hx
  dsimp only at hx
  split_ifs at hx with hid
  obtain ⟨a₆, hequals, hx⟩ := bind_eq_ok.mp hx
  obtain ⟨⟨id, a₇⟩, hv, hx⟩ := bind_eq_ok.mp hx
  cases hx
  obtain ⟨b₁, htable', h₁⟩ := hR.table h htable
  obtain ⟨b₂, hset', h₂⟩ := hR.keyword h₁ (by decide) hset
  obtain ⟨b₃, hassignments', h₃⟩ := hR.commaSeparated hR.assignment h₂ hassignments
  obtain ⟨b₄, hwhere', h₄⟩ := hR.keyword h₃ (by decide) hwhere
  obtain ⟨b₅, hcolumn', h₅⟩ := hR.identifier h₄ hcolumn
  obtain ⟨b₆, hequals', h₆⟩ := hR.token h₅ .equals trivial hequals
  obtain ⟨b₇, hv', h₇⟩ := hR.value h₆ hv
  refine ⟨b₇, bind_eq_ok.mpr ⟨_, htable', bind_eq_ok.mpr ⟨_, hset', ?_⟩⟩, h₇⟩
  refine bind_eq_ok.mpr ⟨_, hassignments', bind_eq_ok.mpr ⟨_, hwhere', ?_⟩⟩
  refine bind_eq_ok.mpr ⟨_, hcolumn', ?_⟩
  simp only [if_pos hid]
  exact bind_eq_ok.mpr ⟨_, hequals', bind_eq_ok.mpr ⟨_, hv', rfl⟩⟩

theorem delete : Follows R Cursor.delete := by
  intro a b h x a' hx
  obtain ⟨a₁, hfrom, hx⟩ := bind_eq_ok.mp hx
  obtain ⟨⟨table, a₂⟩, htable, hx⟩ := bind_eq_ok.mp hx
  obtain ⟨⟨filter, a₃⟩, hfilter, hx⟩ := bind_eq_ok.mp hx
  cases hx
  obtain ⟨b₁, hfrom', h₁⟩ := hR.keyword h (by decide) hfrom
  obtain ⟨b₂, htable', h₂⟩ := hR.table h₁ htable
  obtain ⟨b₃, hfilter', h₃⟩ := hR.whereClause h₂ hfilter
  refine ⟨b₃, bind_eq_ok.mpr ⟨_, hfrom', bind_eq_ok.mpr ⟨_, htable', ?_⟩⟩, h₃⟩
  exact bind_eq_ok.mpr ⟨_, hfilter', rfl⟩

theorem projection : Follows R Cursor.projection := by
  refine Follows.choice (hR.keyword? "distinct" (by decide)) ?_ ?_
  · intro a b h x a' hx
    obtain ⟨⟨column, a₁⟩, hcolumn, hx⟩ := bind_eq_ok.mp hx
    cases hx
    obtain ⟨b₁, hcolumn', h₁⟩ := hR.identifier h hcolumn
    exact ⟨_, bind_eq_ok.mpr ⟨_, hcolumn', rfl⟩, (hR.token? .star trivial).getD h₁⟩
  · intro a b h x a' hx
    obtain ⟨a₁, hstar, hx⟩ := bind_eq_ok.mp hx
    cases hx
    obtain ⟨b₁, hstar', h₁⟩ := hR.token h .star trivial hstar
    exact ⟨b₁, bind_eq_ok.mpr ⟨_, hstar', rfl⟩, h₁⟩

theorem direction : Follows R Cursor.direction := by
  refine Follows.choice (hR.keyword? "desc" (by decide)) (.pure _) ?_
  intro a b h x a' hx
  cases hx
  exact ⟨_, rfl, (hR.keyword? "asc" (by decide)).getD h⟩

theorem orderClause : Follows R Cursor.orderClause := by
  refine Follows.choice (hR.keyword? "order" (by decide)) ?_ (.pure none)
  intro a b h x a' hx
  obtain ⟨a₁, hby, hx⟩ := bind_eq_ok.mp hx
  obtain ⟨⟨column, a₂⟩, hcolumn, hx⟩ := bind_eq_ok.mp hx
  obtain ⟨⟨direction, a₃⟩, hdirection, hx⟩ := bind_eq_ok.mp hx
  cases hx
  obtain ⟨b₁, hby', h₁⟩ := hR.keyword h (by decide) hby
  obtain ⟨b₂, hcolumn', h₂⟩ := hR.identifier h₁ hcolumn
  obtain ⟨b₃, hdirection', h₃⟩ := hR.direction h₂ hdirection
  refine ⟨b₃, bind_eq_ok.mpr ⟨_, hby', bind_eq_ok.mpr ⟨_, hcolumn', ?_⟩⟩, h₃⟩
  exact bind_eq_ok.mpr ⟨_, hdirection', rfl⟩

theorem select : Follows R Cursor.select := by
  intro a b h x a' hx
  obtain ⟨⟨distinct, a₁⟩, hdistinct, hx⟩ := bind_eq_ok.mp hx
  obtain ⟨a₂, hfrom, hx⟩ := bind_eq_ok.mp hx
  obtain ⟨⟨table, a₃⟩, htable, hx⟩ := bind_eq_ok.mp hx
  obtain ⟨⟨filter, a₄⟩, hfilter, hx⟩ := bind_eq_ok.mp hx
  obtain ⟨⟨order, a₅⟩, horder, hx⟩ := bind_eq_ok.mp hx
  cases hx
  obtain ⟨b₁, hdistinct', h₁⟩ := hR.projection h hdistinct
  obtain ⟨b₂, hfrom', h₂⟩ := hR.keyword h₁ (by decide) hfrom
  obtain ⟨b₃, htable', h₃⟩ := hR.table h₂ htable
  obtain ⟨b₄, hfilter', h₄⟩ := hR.whereClause h₃ hfilter
  obtain ⟨b₅, horder', h₅⟩ := hR.orderClause h₄ horder
  refine ⟨b₅, bind_eq_ok.mpr ⟨_, hdistinct', bind_eq_ok.mpr ⟨_, hfrom', ?_⟩⟩, h₅⟩
  refine bind_eq_ok.mpr ⟨_, htable', bind_eq_ok.mpr ⟨_, hfilter', ?_⟩⟩
  exact bind_eq_ok.mpr ⟨_, horder', rfl⟩

theorem statement : Follows R Cursor.statement := by
  refine Follows.choice (hR.keyword? "insert" (by decide)) hR.insert <|
    .choice (hR.keyword? "update" (by decide)) hR.update <|
    .choice (hR.keyword? "delete" (by decide)) hR.delete <|
    .choice (hR.keyword? "select" (by decide)) ?_ (.expected _)
  intro a b h x a' hx
  obtain ⟨⟨s, a₁⟩, hs, hx⟩ := bind_eq_ok.mp hx
  cases hx
  obtain ⟨b₁, hs', h₁⟩ := hR.select h hs
  exact ⟨b₁, bind_eq_ok.mpr ⟨_, hs', rfl⟩, h₁⟩

end Simulates
end Planner.Sql
