import Planner.Proofs.Outcome
import Planner.Proofs.Sql.Normal
import Planner.Sql.Parse

/-! What every statement that is read satisfies. -/
namespace Planner.Sql

open Outcome

variable {α β : Type} {Q : Json → Prop} {total : Nat} {cursor cursor' : Cursor}

/-- A property of values that every literal has. -/
structure OfLiterals (Q : Json → Prop) : Prop where
  null : Q .null
  bool : ∀ b, Q (.bool b)
  number : ∀ n, Q (.number n)
  text : ∀ s, Q (.text s)

/-- What stays true while a statement is read: no word ahead has a double quote in it, the
parameters ahead have a property, and the placeholders behind and ahead add up. -/
structure Sound (Q : Json → Prop) (total : Nat) (cursor : Cursor) : Prop where
  words : ∀ w, Token.word w ∈ cursor.tokens → Unquoted w
  unbound : ∀ value ∈ cursor.unbound, Q value
  placeholders : cursor.placeholders + cursor.tokens.count .placeholder = total

/-- Whatever a step reads has a property, and what stays true stays true. -/
def Yields (Q : Json → Prop) (total : Nat) (step : Step α) (P : α → Prop) : Prop :=
  ∀ cursor a cursor', Sound Q total cursor → step cursor = .ok (a, cursor') →
    P a ∧ Sound Q total cursor'

namespace Sound

variable {rest : List Token}

/-- One token that is not a placeholder is taken. -/
theorem drop (h : Sound Q total cursor) {token : Token} (ht : cursor.tokens = token :: rest)
    (hne : token ≠ .placeholder) : Sound Q total { cursor with tokens := rest } where
  words w hw := h.words w (by rw [ht]; exact List.mem_cons_of_mem _ hw)
  unbound := h.unbound
  placeholders := by
    have hp := h.placeholders
    rw [ht, List.count_cons_of_ne hne] at hp
    exact hp

theorem word (h : Sound Q total cursor) {w : String} (ht : cursor.tokens = .word w :: rest) :
    Unquoted w := h.words w (by rw [ht]; exact List.mem_cons_self ..)

theorem keyword? (h : Sound Q total cursor) {name : String}
    (hk : cursor.keyword? name = some cursor') : Sound Q total cursor' := by
  unfold Cursor.keyword? at hk
  split at hk
  · rename_i w rest ht
    split_ifs at hk
    cases hk
    exact h.drop ht (by simp)
  · cases hk

theorem token? (h : Sound Q total cursor) {token : Token} (hne : token ≠ .placeholder)
    (hk : cursor.token? token = some cursor') : Sound Q total cursor' := by
  unfold Cursor.token? at hk
  split at hk
  · rename_i next rest ht
    split_ifs at hk with heq
    cases hk
    exact h.drop ht (heq ▸ hne)
  · cases hk

theorem keyword (h : Sound Q total cursor) {name : String}
    (hk : cursor.keyword name = .ok cursor') : Sound Q total cursor' := by
  unfold Cursor.keyword at hk
  split at hk
  · rename_i rest hrest
    cases hk
    exact h.keyword? hrest
  · cases hk

theorem token (h : Sound Q total cursor) {token : Token} (hne : token ≠ .placeholder)
    (hk : cursor.token token = .ok cursor') : Sound Q total cursor' := by
  unfold Cursor.token at hk
  split at hk
  · rename_i rest hrest
    cases hk
    exact h.token? hne hrest
  · cases hk

end Sound

namespace Cursor

theorem identifier_yields : Yields Q total identifier Unquoted := by
  intro cursor name cursor' hs h
  unfold identifier at h
  split at h
  · rename_i w rest ht
    cases h
    exact ⟨hs.word ht, hs.drop ht (by simp)⟩
  · cases h

theorem table_yields : Yields Q total table fun _ => True := by
  intro cursor table cursor' hs h
  obtain ⟨⟨name, cursor⟩, hname, h⟩ := bind_eq_ok.mp h
  dsimp only at h
  split at h
  · cases h
    exact ⟨trivial, (identifier_yields _ _ _ hs hname).2⟩
  · cases h

theorem value_yields (hQ : OfLiterals Q) : Yields Q total value Q := by
  intro cursor v cursor' hs h
  unfold value at h
  split at h
  · rename_i rest ht
    cases h
    refine ⟨?_, ⟨?_, fun v hv => hs.unbound v (List.mem_of_mem_tail hv), ?_⟩⟩
    · cases hu : cursor.unbound with
      | nil => exact hQ.null
      | cons v vs => exact hs.unbound v (by rw [hu]; exact List.mem_cons_self ..)
    · exact fun w hw => hs.words w (by rw [ht]; exact List.mem_cons_of_mem _ hw)
    · have hp := hs.placeholders
      rw [ht, List.count_cons_self] at hp
      simp only
      omega
  · rename_i s rest ht
    cases h
    exact ⟨hQ.text s, hs.drop ht (by simp)⟩
  · rename_i n rest ht
    cases h
    exact ⟨hQ.number n, hs.drop ht (by simp)⟩
  · rename_i w rest ht
    split at h
    · rename_i v hv
      cases h
      refine ⟨?_, hs.drop ht (by simp)⟩
      unfold wordValue? at hv
      split_ifs at hv <;> cases hv
      · exact hQ.null
      · exact hQ.bool true
      · exact hQ.bool false
    · cases h
  · cases h

/-- A separator that is found leaves what stays true. -/
def Keeps (Q : Json → Prop) (total : Nat) (separator : Cursor → Option Cursor) : Prop :=
  ∀ cursor cursor', Sound Q total cursor → separator cursor = some cursor' → Sound Q total cursor'

theorem separatedLoop_yields {item : Step α} {separator : Cursor → Option Cursor} {P : α → Prop}
    (hitem : Yields Q total item P) (hsep : Keeps Q total separator) (steps : Nat) :
    Yields Q total (separatedLoop item separator steps) fun xs => xs ≠ [] ∧ ∀ x ∈ xs, P x := by
  induction steps with
  | zero =>
    intro cursor xs cursor' hs h
    obtain ⟨⟨x, cursor₁⟩, hx, h⟩ := bind_eq_ok.mp h
    cases h
    obtain ⟨hP, hs⟩ := hitem _ _ _ hs hx
    exact ⟨⟨by simp, by simpa using hP⟩, hs⟩
  | succ steps ih =>
    intro cursor xs cursor' hs h
    obtain ⟨⟨x, cursor₁⟩, hx, h⟩ := bind_eq_ok.mp h
    obtain ⟨hP, hs⟩ := hitem _ _ _ hs hx
    dsimp only at h
    split at h
    · cases h
      exact ⟨⟨by simp, by simpa using hP⟩, hs⟩
    · rename_i cursor₂ hcursor
      obtain ⟨⟨xs, cursor₃⟩, hxs, h⟩ := bind_eq_ok.mp h
      cases h
      obtain ⟨⟨-, hxs⟩, hs⟩ := ih _ _ _ (hsep _ _ hs hcursor) hxs
      exact ⟨⟨by simp, List.forall_mem_cons.mpr ⟨hP, hxs⟩⟩, hs⟩

theorem separated_yields {item : Step α} {separator : Cursor → Option Cursor} {P : α → Prop}
    (hitem : Yields Q total item P) (hsep : Keeps Q total separator) :
    Yields Q total (separated item separator) fun xs => xs ≠ [] ∧ ∀ x ∈ xs, P x :=
  fun cursor => separatedLoop_yields hitem hsep cursor.tokens.length cursor

theorem commaSeparated_yields {item : Step α} {P : α → Prop} (hitem : Yields Q total item P) :
    Yields Q total (commaSeparated item) fun xs => xs ≠ [] ∧ ∀ x ∈ xs, P x :=
  separated_yields hitem fun _ _ hs => hs.token? (by simp)

theorem parenthesized_yields {item : Step α} {P : α → Prop} (hitem : Yields Q total item P) :
    Yields Q total (parenthesized item) fun xs => xs ≠ [] ∧ ∀ x ∈ xs, P x := by
  intro cursor xs cursor' hs h
  obtain ⟨cursor₁, hopen, h⟩ := bind_eq_ok.mp h
  obtain ⟨⟨xs, cursor₂⟩, hxs, h⟩ := bind_eq_ok.mp h
  obtain ⟨cursor₃, hclose, h⟩ := bind_eq_ok.mp h
  cases h
  obtain ⟨hxs, hs⟩ := commaSeparated_yields hitem _ _ _ (hs.token (by simp) hopen) hxs
  exact ⟨hxs, hs.token (by simp) hclose⟩

/-- A comparison whose column can be quoted and whose value has a property. -/
def Comparable (Q : Json → Prop) : Comparison → Prop
  | .equal column value | .like column value | .atLeast column value | .atMost column value =>
    Unquoted column ∧ Q value

/-- A value follows the operator of a comparison. -/
theorem compared_yields (hQ : OfLiterals Q) (make : Json → Comparison) {c : Comparison}
    (hs : Sound Q total cursor) (hmake : ∀ v, Q v → Comparable Q (make v))
    (h : (do let (v, rest) ← cursor.value; return (make v, rest)) = .ok (c, cursor')) :
    Comparable Q c ∧ Sound Q total cursor' := by
  obtain ⟨⟨v, rest⟩, hv, h⟩ := bind_eq_ok.mp h
  cases h
  obtain ⟨hv, hs⟩ := value_yields hQ _ _ _ hs hv
  exact ⟨hmake v hv, hs⟩

theorem comparison_yields (hQ : OfLiterals Q) : Yields Q total comparison (Comparable Q) := by
  intro cursor c cursor' hs h
  obtain ⟨⟨column, cursor₁⟩, hcolumn, h⟩ := bind_eq_ok.mp h
  obtain ⟨hcolumn, hs⟩ := identifier_yields _ _ _ hs hcolumn
  -- the operators are tried one after the other
  dsimp only at h
  split at h
  · rename_i hk
    exact compared_yields hQ (.equal column) (hs.token? (by simp) hk) (fun v hv => ⟨hcolumn, hv⟩) h
  split at h
  · rename_i hk
    exact compared_yields hQ (.atLeast column) (hs.token? (by simp) hk) (fun v hv => ⟨hcolumn, hv⟩) h
  split at h
  · rename_i hk
    exact compared_yields hQ (.atMost column) (hs.token? (by simp) hk) (fun v hv => ⟨hcolumn, hv⟩) h
  split at h
  · rename_i hk
    exact compared_yields hQ (.like column) (hs.keyword? hk) (fun v hv => ⟨hcolumn, hv⟩) h
  · cases h

end Cursor

open Cursor

/-- An atom whose values have a property. -/
def AtomOf (Q : Json → Prop) (part : Predicate) : Prop := part.Atom ∧ ∀ v ∈ part.values, Q v

/-- Comparisons make at least one atom, and nothing but atoms. -/
theorem fuse_atoms : ∀ {comparisons : List Comparison} {parts : List Predicate},
    (∀ c ∈ comparisons, Comparable Q c) → fuse comparisons = .ok parts →
      (∀ part ∈ parts, AtomOf Q part) ∧ (comparisons ≠ [] → parts ≠ []) := by
  intro comparisons
  induction comparisons using fuse.induct with
  | case1 =>
    intro parts _ h
    cases h
    simp
  | case2 column value rest ih =>
    intro parts hc h
    obtain ⟨⟨hcolumn, hvalue⟩, hrest⟩ := List.forall_mem_cons.mp hc
    obtain ⟨others, hothers, h⟩ := bind_eq_ok.mp h
    cases h
    have hatom : AtomOf Q (.equal column value) := ⟨hcolumn, by simpa [Predicate.values] using hvalue⟩
    exact ⟨List.forall_mem_cons.mpr ⟨hatom, (ih hrest hothers).1⟩, by simp⟩
  | case3 column pattern rest ih =>
    intro parts hc h
    obtain ⟨⟨hcolumn, hvalue⟩, hrest⟩ := List.forall_mem_cons.mp hc
    obtain ⟨others, hothers, h⟩ := bind_eq_ok.mp h
    cases h
    have hatom : AtomOf Q (.like column pattern) :=
      ⟨hcolumn, by simpa [Predicate.values] using hvalue⟩
    exact ⟨List.forall_mem_cons.mpr ⟨hatom, (ih hrest hothers).1⟩, by simp⟩
  | case5 low column high rest ih =>
    intro parts hc h
    obtain ⟨⟨hcolumn, hlow⟩, hc⟩ := List.forall_mem_cons.mp hc
    obtain ⟨⟨-, hhigh⟩, hrest⟩ := List.forall_mem_cons.mp hc
    rw [fuse, if_pos rfl] at h
    obtain ⟨others, hothers, h⟩ := bind_eq_ok.mp h
    cases h
    have hatom : AtomOf Q (.range column low high) :=
      ⟨hcolumn, by simpa [Predicate.values] using ⟨hlow, hhigh⟩⟩
    exact ⟨List.forall_mem_cons.mpr ⟨hatom, (ih hrest hothers).1⟩, by simp⟩
  | case6 =>
    intro parts _ h
    rw [fuse, if_neg (by assumption)] at h
    cases h
  | _ =>
    intro parts _ h
    simp [fuse] at h

/-- A group whose values have a property. -/
def GroupOf (Q : Json → Prop) (group : Predicate) : Prop := group.Group ∧ ∀ v ∈ group.values, Q v

/-- A condition whose values have a property. -/
def ConditionOf (Q : Json → Prop) (condition : Predicate) : Prop :=
  condition.Condition ∧ ∀ v ∈ condition.values, Q v

theorem values_valuesOf {parts : List Predicate} (h : ∀ part ∈ parts, ∀ v ∈ part.values, Q v) :
    ∀ v ∈ Predicate.valuesOf parts, Q v := by
  rw [Predicate.valuesOf_eq_flatMap]
  intro v hv
  obtain ⟨part, hpart, hv⟩ := List.mem_flatMap.mp hv
  exact h part hpart v hv

theorem group_of_atom {part : Predicate} (h : part.Atom) : part.Group := by
  cases part with
  | equal | like | range => exact h
  | all | any => exact h.elim

theorem condition_of_group {group : Predicate} (h : group.Group) : group.Condition := by
  cases group with
  | equal | like | range | all => exact h
  | any => exact h.elim

theorem allOf_group {parts : List Predicate} (hne : parts ≠ [])
    (h : ∀ part ∈ parts, AtomOf Q part) : GroupOf Q (allOf parts) := by
  match parts with
  | [] => exact absurd rfl hne
  | [part] =>
    obtain ⟨hatom, hvalues⟩ := h part (List.mem_cons_self ..)
    exact ⟨group_of_atom hatom, hvalues⟩
  | first :: second :: rest =>
    exact ⟨⟨by simp, fun part hp => (h part hp).1⟩, values_valuesOf fun part hp => (h part hp).2⟩

theorem anyOf_condition {groups : List Predicate} (hne : groups ≠ [])
    (h : ∀ group ∈ groups, GroupOf Q group) : ConditionOf Q (anyOf groups) := by
  match groups with
  | [] => exact absurd rfl hne
  | [group] =>
    obtain ⟨hgroup, hvalues⟩ := h group (List.mem_cons_self ..)
    exact ⟨condition_of_group hgroup, hvalues⟩
  | first :: second :: rest =>
    exact ⟨⟨by simp, fun group hg => (h group hg).1⟩,
      values_valuesOf fun group hg => (h group hg).2⟩

namespace Cursor

theorem conjunction_yields (hQ : OfLiterals Q) : Yields Q total conjunction (GroupOf Q) := by
  intro cursor group cursor' hs h
  obtain ⟨⟨comparisons, cursor₁⟩, hcomparisons, h⟩ := bind_eq_ok.mp h
  obtain ⟨parts, hparts, h⟩ := bind_eq_ok.mp h
  cases h
  obtain ⟨⟨hne, hall⟩, hs⟩ := separated_yields (comparison_yields hQ)
    (fun _ _ hs => hs.keyword?) _ _ _ hs hcomparisons
  obtain ⟨hatoms, hsome⟩ := fuse_atoms hall hparts
  exact ⟨allOf_group (hsome hne) hatoms, hs⟩

theorem condition_yields (hQ : OfLiterals Q) : Yields Q total condition (ConditionOf Q) := by
  intro cursor filter cursor' hs h
  obtain ⟨⟨groups, cursor₁⟩, hgroups, h⟩ := bind_eq_ok.mp h
  cases h
  obtain ⟨⟨hne, hall⟩, hs⟩ := separated_yields (conjunction_yields hQ)
    (fun _ _ hs => hs.keyword?) _ _ _ hs hgroups
  exact ⟨anyOf_condition hne hall, hs⟩

theorem whereClause_yields (hQ : OfLiterals Q) :
    Yields Q total whereClause fun filter => ∀ predicate ∈ filter, ConditionOf Q predicate := by
  intro cursor filter cursor' hs h
  unfold whereClause at h
  split at h
  · rename_i cursor₁ hk
    obtain ⟨⟨predicate, cursor₂⟩, hpredicate, h⟩ := bind_eq_ok.mp h
    cases h
    obtain ⟨hcondition, hs⟩ := condition_yields hQ _ _ _ (hs.keyword? hk) hpredicate
    exact ⟨by simpa using hcondition, hs⟩
  · cases h
    exact ⟨by simp, hs⟩

/-- A statement in normal form whose values have a property. -/
def StatementOf (Q : Json → Prop) (s : Statement) : Prop := s.Normal ∧ ∀ v ∈ s.values, Q v

theorem onConflict_yields : Yields Q total onConflict fun _ => True := by
  intro cursor conflict cursor' hs h
  unfold onConflict at h
  split at h
  · cases h
    exact ⟨trivial, hs⟩
  · rename_i cursor₁ hor
    split at h
    · rename_i cursor₂ hreplace
      cases h
      exact ⟨trivial, (hs.keyword? hor).keyword? hreplace⟩
    · split at h
      · rename_i cursor₂ hignore
        cases h
        exact ⟨trivial, (hs.keyword? hor).keyword? hignore⟩
      · cases h

theorem insert_yields (hQ : OfLiterals Q) : Yields Q total insert (StatementOf Q) := by
  intro cursor s cursor' hs h
  obtain ⟨⟨conflict, cursor₁⟩, hconflict, h⟩ := bind_eq_ok.mp h
  obtain ⟨cursor₂, hinto, h⟩ := bind_eq_ok.mp h
  obtain ⟨⟨table, cursor₃⟩, htable, h⟩ := bind_eq_ok.mp h
  obtain ⟨⟨columns, cursor₄⟩, hcolumns, h⟩ := bind_eq_ok.mp h
  obtain ⟨cursor₅, hvalues, h⟩ := bind_eq_ok.mp h
  obtain ⟨⟨values, cursor₆⟩, hparameters, h⟩ := bind_eq_ok.mp h
  have hs := (onConflict_yields _ _ _ hs hconflict).2
  have hs := (table_yields _ _ _ (hs.keyword hinto) htable).2
  obtain ⟨⟨hne, hunquoted⟩, hs⟩ := parenthesized_yields identifier_yields _ _ _ hs hcolumns
  obtain ⟨⟨-, hQvalues⟩, hs⟩ :=
    parenthesized_yields (value_yields hQ) _ _ _ (hs.keyword hvalues) hparameters
  dsimp only at h
  split_ifs at h with hlength
  cases h
  exact ⟨⟨⟨hne, hlength, hunquoted⟩, hQvalues⟩, hs⟩

theorem assignment_yields (hQ : OfLiterals Q) :
    Yields Q total assignment fun field => Unquoted field.1 ∧ Q field.2 := by
  intro cursor field cursor' hs h
  obtain ⟨⟨column, cursor₁⟩, hcolumn, h⟩ := bind_eq_ok.mp h
  obtain ⟨cursor₂, hequals, h⟩ := bind_eq_ok.mp h
  obtain ⟨⟨v, cursor₃⟩, hv, h⟩ := bind_eq_ok.mp h
  cases h
  obtain ⟨hcolumn, hs⟩ := identifier_yields _ _ _ hs hcolumn
  obtain ⟨hv, hs⟩ := value_yields hQ _ _ _ (hs.token (by simp) hequals) hv
  exact ⟨⟨hcolumn, hv⟩, hs⟩

theorem update_yields (hQ : OfLiterals Q) : Yields Q total update (StatementOf Q) := by
  intro cursor s cursor' hs h
  obtain ⟨⟨table, cursor₁⟩, htable, h⟩ := bind_eq_ok.mp h
  obtain ⟨cursor₂, hset, h⟩ := bind_eq_ok.mp h
  obtain ⟨⟨assignments, cursor₃⟩, hassignments, h⟩ := bind_eq_ok.mp h
  obtain ⟨cursor₄, hwhere, h⟩ := bind_eq_ok.mp h
  obtain ⟨⟨column, cursor₅⟩, hcolumn, h⟩ := bind_eq_ok.mp h
  have hs := (table_yields _ _ _ hs htable).2
  obtain ⟨⟨hne, hall⟩, hs⟩ :=
    commaSeparated_yields (assignment_yields hQ) _ _ _ (hs.keyword hset) hassignments
  have hs := (identifier_yields _ _ _ (hs.keyword hwhere) hcolumn).2
  dsimp only at h
  split_ifs at h
  obtain ⟨cursor₆, hequals, h⟩ := bind_eq_ok.mp h
  obtain ⟨⟨id, cursor₇⟩, hid, h⟩ := bind_eq_ok.mp h
  cases h
  obtain ⟨hid, hs⟩ := value_yields hQ _ _ _ (hs.token (by simp) hequals) hid
  refine ⟨⟨⟨hne, fun field hf => (hall field hf).1⟩, fun v hv => ?_⟩, hs⟩
  rcases List.mem_append.mp hv with hv | hv
  · obtain ⟨field, hf, rfl⟩ := List.mem_map.mp hv
    exact (hall field hf).2
  · rw [List.mem_singleton.mp hv]
    exact hid

theorem values_filter {filter : Option Predicate}
    (h : ∀ predicate ∈ filter, ConditionOf Q predicate) :
    ∀ v ∈ (filter.map Predicate.values).getD [], Q v := by
  cases filter with
  | none => simp
  | some predicate => exact (h predicate rfl).2

theorem delete_yields (hQ : OfLiterals Q) : Yields Q total delete (StatementOf Q) := by
  intro cursor s cursor' hs h
  obtain ⟨cursor₁, hfrom, h⟩ := bind_eq_ok.mp h
  obtain ⟨⟨table, cursor₂⟩, htable, h⟩ := bind_eq_ok.mp h
  obtain ⟨⟨filter, cursor₃⟩, hfilter, h⟩ := bind_eq_ok.mp h
  cases h
  have hs := (table_yields _ _ _ (hs.keyword hfrom) htable).2
  obtain ⟨hall, hs⟩ := whereClause_yields hQ _ _ _ hs hfilter
  exact ⟨⟨fun predicate hp => (hall predicate hp).1, values_filter hall⟩, hs⟩

theorem projection_yields :
    Yields Q total projection fun distinct => ∀ column ∈ distinct, Unquoted column := by
  intro cursor distinct cursor' hs h
  unfold projection at h
  split at h
  · rename_i cursor₁ hdistinct
    obtain ⟨⟨column, cursor₂⟩, hcolumn, h⟩ := bind_eq_ok.mp h
    cases h
    obtain ⟨hcolumn, hs⟩ := identifier_yields _ _ _ (hs.keyword? hdistinct) hcolumn
    refine ⟨by simpa using hcolumn, ?_⟩
    cases hstar : cursor₂.token? .star with
    | none => exact hs
    | some cursor₃ => exact hs.token? (by simp) hstar
  · obtain ⟨cursor₁, hstar, h⟩ := bind_eq_ok.mp h
    cases h
    exact ⟨by simp, hs.token (by simp) hstar⟩

theorem direction_yields : Yields Q total direction fun _ => True := by
  intro cursor d cursor' hs h
  unfold direction at h
  split at h
  · rename_i cursor₁ hdesc
    cases h
    exact ⟨trivial, hs.keyword? hdesc⟩
  · cases h
    refine ⟨trivial, ?_⟩
    cases hasc : cursor.keyword? "asc" with
    | none => exact hs
    | some cursor₁ => exact hs.keyword? hasc

theorem orderClause_yields :
    Yields Q total orderClause fun order => ∀ o ∈ order, Unquoted o.column := by
  intro cursor order cursor' hs h
  unfold orderClause at h
  split at h
  · rename_i cursor₁ horder
    obtain ⟨cursor₂, hby, h⟩ := bind_eq_ok.mp h
    obtain ⟨⟨column, cursor₃⟩, hcolumn, h⟩ := bind_eq_ok.mp h
    obtain ⟨⟨d, cursor₄⟩, hd, h⟩ := bind_eq_ok.mp h
    cases h
    obtain ⟨hcolumn, hs⟩ :=
      identifier_yields _ _ _ ((hs.keyword? horder).keyword hby) hcolumn
    exact ⟨by simpa using hcolumn, (direction_yields _ _ _ hs hd).2⟩
  · cases h
    exact ⟨by simp, hs⟩

theorem select_yields (hQ : OfLiterals Q) :
    Yields Q total select fun s => s.Normal ∧ ∀ v ∈ s.values, Q v := by
  intro cursor s cursor' hs h
  obtain ⟨⟨distinct, cursor₁⟩, hdistinct, h⟩ := bind_eq_ok.mp h
  obtain ⟨cursor₂, hfrom, h⟩ := bind_eq_ok.mp h
  obtain ⟨⟨table, cursor₃⟩, htable, h⟩ := bind_eq_ok.mp h
  obtain ⟨⟨filter, cursor₄⟩, hfilter, h⟩ := bind_eq_ok.mp h
  obtain ⟨⟨order, cursor₅⟩, horder, h⟩ := bind_eq_ok.mp h
  cases h
  obtain ⟨hdistinct, hs⟩ := projection_yields _ _ _ hs hdistinct
  have hs := (table_yields _ _ _ (hs.keyword hfrom) htable).2
  obtain ⟨hall, hs⟩ := whereClause_yields hQ _ _ _ hs hfilter
  obtain ⟨horder, hs⟩ := orderClause_yields _ _ _ hs horder
  exact ⟨⟨⟨fun predicate hp => (hall predicate hp).1, horder, hdistinct⟩, values_filter hall⟩, hs⟩

theorem statement_yields (hQ : OfLiterals Q) : Yields Q total statement (StatementOf Q) := by
  intro cursor s cursor' hs h
  unfold statement at h
  split at h
  · rename_i hk
    exact insert_yields hQ _ _ _ (hs.keyword? hk) h
  split at h
  · rename_i hk
    exact update_yields hQ _ _ _ (hs.keyword? hk) h
  split at h
  · rename_i hk
    exact delete_yields hQ _ _ _ (hs.keyword? hk) h
  split at h
  · rename_i hk
    obtain ⟨⟨select, cursor₁⟩, hselect, h⟩ := bind_eq_ok.mp h
    cases h
    exact select_yields hQ _ _ _ (hs.keyword? hk) hselect
  · cases h

end Cursor
/-- No name has a double quote in it. -/
def NamesUnquoted (tokens : List Token) : Prop := ∀ w, Token.word w ∈ tokens → Unquoted w

/-- No double quote was gathered for a name. -/
def ModeUnquoted : Mode → Prop
  | .word chars | .quotedName chars => '"' ∉ chars
  | _ => True

theorem unquoted_textOf {chars : List Char} (h : '"' ∉ chars) : Unquoted (textOf chars) := by
  simpa [Unquoted, textOf] using h

theorem mark?_ne_word {c : Char} {token : Token} (h : mark? c = some token) (w : String) :
    token ≠ .word w := by
  unfold mark? at h
  split_ifs at h <;> cases h <;> simp

theorem start_unquoted {offset : Nat} {c : Char} {tokens : List Token} {mode : Mode}
    (h : start offset c = .ok (tokens, mode)) : NamesUnquoted tokens ∧ ModeUnquoted mode := by
  unfold start at h
  split at h
  · cases h
    exact ⟨by simp [NamesUnquoted], trivial⟩
  split at h
  · rename_i token hmark
    cases h
    refine ⟨fun w hw => ?_, trivial⟩
    exact absurd (List.mem_singleton.mp hw).symm (mark?_ne_word hmark w)
  split_ifs at h with hbound hliteral hquoted hdigit hminus hletter
  all_goals
    cases h
    refine ⟨by simp [NamesUnquoted], ?_⟩
  · trivial
  · trivial
  · simp [ModeUnquoted]
  · trivial
  · trivial
  · intro hmem
    rw [← List.mem_singleton.mp hmem] at hletter
    exact absurd hletter (by decide)

theorem endToken_unquoted {token : Token} {offset : Nat} {c : Char} {tokens : List Token}
    {mode : Mode} (ht : ∀ w, token = .word w → Unquoted w)
    (h : endToken token offset c = .ok (tokens, mode)) :
    NamesUnquoted tokens ∧ ModeUnquoted mode := by
  obtain ⟨⟨others, mode'⟩, hstart, h⟩ := bind_eq_ok.mp h
  cases h
  obtain ⟨hothers, hmode⟩ := start_unquoted hstart
  refine ⟨fun w hw => ?_, hmode⟩
  rcases List.mem_cons.mp hw with rfl | hw
  · exact ht w rfl
  · exact hothers w hw

theorem numberToken_ne_word {start : Nat} {first : Char} {chars : List Char} {token : Token}
    (h : numberToken start first chars = .ok token) (w : String) : token ≠ .word w := by
  unfold numberToken at h
  dsimp only at h
  split at h
  · cases h
    simp
  · cases h

theorem feed_unquoted {mode mode' : Mode} {offset : Nat} {c : Char} {tokens : List Token}
    (hm : ModeUnquoted mode) (h : feed mode offset c = .ok (tokens, mode')) :
    NamesUnquoted tokens ∧ ModeUnquoted mode' := by
  cases mode with
  | between => exact start_unquoted h
  | literal chars =>
    cases h
    exact ⟨by simp [NamesUnquoted], by split_ifs <;> trivial⟩
  | literalQuote chars =>
    simp only [feed] at h
    split_ifs at h
    · cases h
      exact ⟨by simp [NamesUnquoted], trivial⟩
    · exact endToken_unquoted (by simp) h
  | quotedName chars =>
    simp only [feed] at h
    split_ifs at h with hquote
    · cases h
      refine ⟨fun w hw => ?_, trivial⟩
      cases List.mem_singleton.mp hw
      exact unquoted_textOf hm
    · cases h
      exact ⟨by simp [NamesUnquoted], List.not_mem_cons_of_ne_of_not_mem (Ne.symm hquote) hm⟩
  | word chars =>
    simp only [feed] at h
    split_ifs at h with hletter
    · cases h
      refine ⟨by simp [NamesUnquoted], List.not_mem_cons_of_ne_of_not_mem ?_ hm⟩
      rintro rfl
      exact absurd hletter (by decide)
    · refine endToken_unquoted (fun w hw => ?_) h
      cases hw
      exact unquoted_textOf hm
  | number begin first chars =>
    simp only [feed] at h
    split_ifs at h
    · cases h
      exact ⟨by simp [NamesUnquoted], trivial⟩
    · obtain ⟨token, htoken, h⟩ := bind_eq_ok.mp h
      exact endToken_unquoted (fun w hw => absurd hw (numberToken_ne_word htoken w)) h
  | minus =>
    simp only [feed] at h
    split_ifs at h
    cases h
    exact ⟨by simp [NamesUnquoted], trivial⟩
  | bound b =>
    simp only [feed] at h
    split_ifs at h <;> cases h <;> exact ⟨by simp [NamesUnquoted], trivial⟩

theorem finish_unquoted {mode : Mode} {offset : Nat} {tokens : List Token}
    (hm : ModeUnquoted mode) (h : finish mode offset = .ok tokens) : NamesUnquoted tokens := by
  intro w hw
  cases mode with
  | word chars =>
    cases h
    cases List.mem_singleton.mp hw
    exact unquoted_textOf hm
  | number begin first chars =>
    obtain ⟨token, htoken, h⟩ := bind_eq_ok.mp h
    cases h
    exact absurd (List.mem_singleton.mp hw).symm (numberToken_ne_word htoken w)
  | between | literalQuote =>
    cases h
    simp at hw
  | literal | quotedName | minus | bound => cases h

theorem scanFrom_unquoted {chars : List Char} {mode : Mode} {offset : Nat} {tokens : List Token}
    (hm : ModeUnquoted mode) (h : scanFrom mode offset chars = .ok tokens) :
    NamesUnquoted tokens := by
  induction chars generalizing mode offset tokens with
  | nil => exact finish_unquoted hm h
  | cons c rest ih =>
    obtain ⟨⟨first, mode'⟩, hfeed, h⟩ := bind_eq_ok.mp h
    obtain ⟨others, hothers, h⟩ := bind_eq_ok.mp h
    cases h
    obtain ⟨hfirst, hmode⟩ := feed_unquoted hm hfeed
    intro w hw
    exact (List.mem_append.mp hw).elim (hfirst w) (ih hmode hothers w)

theorem complete_iff {parameters : Nat} :
    complete parameters cursor = .ok () ↔ ((cursor.token? .semicolon).getD cursor).tokens = [] ∧
      ((cursor.token? .semicolon).getD cursor).placeholders = parameters := by
  unfold complete
  dsimp only
  split_ifs with hempty hcount
  · exact iff_of_true rfl ⟨List.isEmpty_iff.mp hempty, hcount⟩
  · exact iff_of_false nofun fun h => hcount h.2
  · exact iff_of_false nofun fun h => hempty (List.isEmpty_iff.mpr h.1)

theorem complete_eq_ok {parameters : Nat} (hs : Sound Q total cursor)
    (h : complete parameters cursor = .ok ()) : total = parameters := by
  unfold complete at h
  dsimp only at h
  split_ifs at h with hempty hcount
  swap
  · cases h
  have hrest : Sound Q total ((cursor.token? .semicolon).getD cursor) := by
    cases hsemicolon : cursor.token? .semicolon with
    | none => exact hs
    | some cursor' => exact hs.token? (by simp) hsemicolon
  have hp := hrest.placeholders
  rw [List.isEmpty_iff.mp hempty, hcount] at hp
  simpa using hp.symm

/-- What a text spells is in normal form, and its values are literals and parameters; there are as
many placeholders as parameters. -/
theorem parse_statementOf {sql : String} {parameters : List Json} {s : Statement}
    (hQ : OfLiterals Q) (hp : ∀ v ∈ parameters, Q v) (h : parse sql parameters = .ok s) :
    (∃ tokens, scan sql = .ok tokens ∧ tokens.count .placeholder = parameters.length) ∧
      Cursor.StatementOf Q s := by
  obtain ⟨tokens, htokens, h⟩ := bind_eq_ok.mp h
  obtain ⟨⟨s', cursor⟩, hs, h⟩ := bind_eq_ok.mp h
  obtain ⟨⟨⟩, hcomplete, h⟩ := bind_eq_ok.mp h
  cases h
  have hsound : Sound Q (tokens.count .placeholder) ⟨tokens, parameters, 0⟩ :=
    ⟨scanFrom_unquoted (show ModeUnquoted .between from trivial) htokens, hp, Nat.zero_add _⟩
  obtain ⟨hstatement, hcursor⟩ := Cursor.statement_yields hQ _ _ _ hsound hs
  exact ⟨⟨tokens, htokens, complete_eq_ok hcursor hcomplete⟩, hstatement⟩

/-- How a text is read: it is scanned, a statement is read from all its tokens, of which as many are
placeholders as there are parameters, and nothing is left. -/
theorem parse_steps {sql : String} {parameters : List Json} {s : Statement}
    (h : parse sql parameters = .ok s) :
    ∃ tokens cursor, scan sql = .ok tokens ∧ tokens.count .placeholder = parameters.length ∧
      Cursor.statement ⟨tokens, parameters, 0⟩ = .ok (s, cursor) ∧
      complete parameters.length cursor = .ok () := by
  have hQ : OfLiterals fun _ => True :=
    ⟨trivial, fun _ => trivial, fun _ => trivial, fun _ => trivial⟩
  obtain ⟨⟨tokens, hscan, hcount⟩, -⟩ := parse_statementOf hQ (fun _ _ => trivial) h
  obtain ⟨others, hothers, h⟩ := bind_eq_ok.mp h
  cases hscan.symm.trans hothers
  obtain ⟨⟨s', cursor⟩, hs, h⟩ := bind_eq_ok.mp h
  obtain ⟨⟨⟩, hcomplete, h⟩ := bind_eq_ok.mp h
  cases h
  exact ⟨tokens, cursor, hscan, hcount, hs, hcomplete⟩

end Planner.Sql
