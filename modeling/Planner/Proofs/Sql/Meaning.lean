import Planner.Database
import Planner.Proofs.Sql.Reading

/-! The condition of a statement is the reading of its text: its predicate holds of a row exactly
where some group of the text has all its comparisons true, and these are the rows that a selection
returns and a deletion removes. -/
namespace Planner.Sql

open Outcome

variable {α : Type} {cursor cursor' : Cursor} {a b c : Cursor} {next : Token}

/-- Every placeholder ahead has its parameter. -/
def Balanced (cursor : Cursor) : Prop :=
  cursor.unbound.length = cursor.tokens.count .placeholder

/-- From the first cursor to the second stand the symbols, none of which takes a parameter. -/
structure Passes (symbols : List Symbol) (a b : Cursor) : Prop where
  balanced : Balanced a → Balanced b
  unbound : b.unbound = a.unbound
  tokens : ∃ taken, List.Forall₂ Symbol.Stands symbols taken ∧ a.tokens = taken ++ b.tokens

/-- A step takes tokens that have a form, and with them their parameters. -/
def Reads (step : Step α) (form : Form α) : Prop :=
  ∀ ⦃cursor cursor' : Cursor⦄ ⦃x : α⦄, Balanced cursor → step cursor = .ok (x, cursor') →
    Balanced cursor' ∧ ∃ taken, cursor.tokens = taken ++ cursor'.tokens ∧
      form taken cursor.unbound x cursor'.unbound

theorem keyword?_cases {name : String} (h : a.keyword? name = some b) :
    ∃ word rest, a.tokens = word :: rest ∧ (Symbol.word name).Stands word ∧
      b = { a with tokens := rest } := by
  unfold Cursor.keyword? at h
  split at h
  · rename_i w rest htokens
    split_ifs at h with hsame
    cases h
    exact ⟨_, rest, htokens, ⟨w, rfl, hsame⟩, rfl⟩
  · cases h

theorem token?_cases (h : a.token? next = some b) :
    ∃ rest, a.tokens = next :: rest ∧ b = { a with tokens := rest } := by
  unfold Cursor.token? at h
  split at h
  · rename_i first rest htokens
    split_ifs at h with heq
    cases h
    exact ⟨rest, heq ▸ htokens, rfl⟩
  · cases h

theorem identifier_cases {name : String} (h : a.identifier = .ok (name, b)) :
    ∃ rest, a.tokens = .word name :: rest ∧ b = { a with tokens := rest } := by
  unfold Cursor.identifier at h
  split at h
  · rename_i w rest htokens
    cases h
    exact ⟨rest, htokens, rfl⟩
  · cases h

namespace Passes

variable {first second : List Symbol}

theorem refl (a : Cursor) : Passes [] a a := ⟨id, rfl, [], .nil, rfl⟩

theorem trans (hab : Passes first a b) (hbc : Passes second b c) :
    Passes (first ++ second) a c := by
  obtain ⟨taken, hfirst, htaken⟩ := hab.tokens
  obtain ⟨more, hsecond, hmore⟩ := hbc.tokens
  refine ⟨fun h => hbc.balanced (hab.balanced h), hbc.unbound.trans hab.unbound, taken ++ more,
    List.rel_append hfirst hsecond, ?_⟩
  rw [htaken, hmore, List.append_assoc]

/-- One token that is not a placeholder is taken. -/
theorem single {symbol : Symbol} {rest : List Token} (hsymbol : symbol.Stands next)
    (htokens : a.tokens = next :: rest) (hne : next ≠ .placeholder) :
    Passes [symbol] a { a with tokens := rest } := by
  refine ⟨fun h => ?_, rfl, [next], .cons hsymbol .nil, htokens⟩
  unfold Balanced at h ⊢
  rwa [htokens, List.count_cons_of_ne hne] at h

theorem keyword? {name : String} (h : a.keyword? name = some b) : Passes [.word name] a b := by
  obtain ⟨word, rest, htokens, hstands, rfl⟩ := keyword?_cases h
  refine single hstands htokens ?_
  rintro rfl
  obtain ⟨w, hw, -⟩ := hstands
  cases hw

theorem token? {m : Char} (hmark : mark? m = some next) (hne : next ≠ .placeholder)
    (h : a.token? next = some b) : Passes [.mark m] a b := by
  obtain ⟨rest, htokens, rfl⟩ := token?_cases h
  exact single hmark htokens hne

theorem keyword {name : String} (h : a.keyword name = .ok b) : Passes [.word name] a b := by
  unfold Cursor.keyword at h
  split at h
  · rename_i rest hrest
    cases h
    exact keyword? hrest
  · cases h

theorem token {m : Char} (hmark : mark? m = some next) (hne : next ≠ .placeholder)
    (h : a.token next = .ok b) : Passes [.mark m] a b := by
  unfold Cursor.token at h
  split at h
  · rename_i rest hrest
    cases h
    exact token? hmark hne hrest
  · cases h

theorem identifier {name : String} (h : a.identifier = .ok (name, b)) :
    Passes [.column name] a b := by
  obtain ⟨rest, htokens, rfl⟩ := identifier_cases h
  exact single rfl htokens (by simp)

theorem table {table : Table} (h : a.table = .ok (table, b)) : Passes [.word table.name] a b := by
  obtain ⟨⟨name, a₁⟩, hname, h⟩ := bind_eq_ok.mp h
  obtain ⟨rest, htokens, rfl⟩ := identifier_cases hname
  dsimp only at h
  split at h
  · rename_i found hfound
    cases h
    unfold Table.ofName? at hfound
    have hsame := List.find?_some hfound
    refine single ⟨name, rfl, ?_⟩ htokens (by simp)
    simp only [Text.sameIgnoringCase, beq_iff_eq] at hsame ⊢
    exact hsame.symm
  · cases h

/-- A star may stand after the column of DISTINCT. -/
theorem projection {distinct : Option String} (h : a.projection = .ok (distinct, b)) :
    ∃ star, Passes (Statement.projectionSymbols star distinct) a b := by
  unfold Cursor.projection at h
  split at h
  · rename_i a₁ hdistinct
    obtain ⟨⟨column, a₂⟩, hcolumn, h⟩ := bind_eq_ok.mp h
    cases h
    have hpasses := (keyword? hdistinct).trans (identifier hcolumn)
    cases hstar : a₂.token? .star with
    | none => exact ⟨false, hpasses⟩
    | some a₃ => exact ⟨true, hpasses.trans (token? rfl (by simp) hstar)⟩
  · obtain ⟨a₁, hstar, h⟩ := bind_eq_ok.mp h
    cases h
    exact ⟨false, token (m := '*') rfl (by simp) hstar⟩

theorem direction {direction : Direction} (h : a.direction = .ok (direction, b)) :
    ∃ explicit, Passes (direction.symbols explicit) a b := by
  unfold Cursor.direction at h
  split at h
  · rename_i hdesc
    cases h
    exact ⟨true, keyword? hdesc⟩
  · cases h
    cases hasc : a.keyword? "asc" with
    | none => exact ⟨false, .refl a⟩
    | some a₁ => exact ⟨true, keyword? hasc⟩

theorem orderClause {order : Option Ordered} (h : a.orderClause = .ok (order, b)) :
    ∃ explicit, Passes ((order.map (Ordered.symbols explicit)).getD []) a b := by
  unfold Cursor.orderClause at h
  split at h
  · rename_i a₁ horder
    obtain ⟨a₂, hby, h⟩ := bind_eq_ok.mp h
    obtain ⟨⟨column, a₃⟩, hcolumn, h⟩ := bind_eq_ok.mp h
    obtain ⟨⟨direction, a₄⟩, hdirection, h⟩ := bind_eq_ok.mp h
    cases h
    obtain ⟨explicit, hpasses⟩ := Passes.direction hdirection
    exact ⟨explicit, ((keyword? horder).trans (keyword hby)).trans (identifier hcolumn)
      |>.trans hpasses⟩
  · cases h
    exact ⟨false, .refl a⟩

/-- Nothing but a semicolon follows a statement. -/
theorem complete {parameters : Nat} (h : complete parameters a = .ok ()) :
    ∃ stop b, (stop = [] ∨ stop = [.mark ';']) ∧ b.tokens = [] ∧ Passes stop a b := by
  obtain ⟨hend, -⟩ := complete_iff.mp h
  cases hsemicolon : a.token? .semicolon with
  | none => exact ⟨[], a, .inl rfl, by simpa [hsemicolon] using hend, .refl a⟩
  | some b =>
    exact ⟨_, b, .inr rfl, by simpa [hsemicolon] using hend, token? rfl (by simp) hsemicolon⟩

end Passes

/-! ### The steps of a condition -/

theorem reads_value : Reads Cursor.value fun taken parameters v rest =>
    ∃ token, taken = [token] ∧ Denotes token parameters v rest := by
  intro cursor cursor' v hbalanced h
  obtain ⟨tokens, unbound, n⟩ := cursor
  unfold Balanced at hbalanced ⊢
  rcases value_cases h with ⟨more, rfl, rfl, rfl⟩ | ⟨token, more, rfl, hliteral, rfl⟩
  · rw [List.count_cons_self] at hbalanced
    cases unbound with
    | nil => cases hbalanced
    | cons v unbound =>
      exact ⟨Nat.succ.inj hbalanced, [.placeholder], rfl, _, rfl, .parameter v unbound⟩
  · have hne : token ≠ .placeholder := by
      rintro rfl
      cases hliteral
    rw [List.count_cons_of_ne hne] at hbalanced
    exact ⟨hbalanced, [token], rfl, token, rfl, .literal hliteral unbound⟩

/-- A value follows the operator of a comparison. -/
theorem compared_reads {column : String} {operator : Token} {make : String → Json → Comparison}
    {x : Comparison} {rest : List Token} (hoperator : Operator operator make)
    (hbalanced : Balanced a) (htokens : a.tokens = .word column :: operator :: rest)
    (h : (do
      let (v, left) ← ({ a with tokens := rest } : Cursor).value
      return (make column v, left)) = .ok (x, b)) :
    Balanced b ∧ ∃ taken, a.tokens = taken ++ b.tokens ∧ Compares taken a.unbound x b.unbound := by
  obtain ⟨⟨v, left⟩, hv, h⟩ := bind_eq_ok.mp h
  cases h
  have hne : operator ≠ .placeholder := by
    rintro rfl
    cases hoperator with
    | like hlike =>
      obtain ⟨w, hw, -⟩ := hlike
      cases hw
  have hrest : Balanced { a with tokens := rest } := by
    unfold Balanced at hbalanced ⊢
    rwa [htokens, List.count_cons_of_ne (by simp), List.count_cons_of_ne hne] at hbalanced
  obtain ⟨hbalanced', taken, htaken, token, rfl, hdenotes⟩ := reads_value hrest hv
  refine ⟨hbalanced', [.word column, operator, token], ?_, .intro hoperator hdenotes⟩
  rw [htokens, show rest = [token] ++ _ from htaken]
  rfl

theorem reads_comparison : Reads Cursor.comparison Compares := by
  intro a b x hbalanced h
  obtain ⟨⟨column, a₁⟩, hcolumn, h⟩ := bind_eq_ok.mp h
  obtain ⟨rest, htokens, rfl⟩ := identifier_cases hcolumn
  -- the operators are tried one after the other
  dsimp only at h
  split at h
  · rename_i hfound
    obtain ⟨more, rfl, rfl⟩ := token?_cases hfound
    exact compared_reads .equals hbalanced htokens h
  split at h
  · rename_i hfound
    obtain ⟨more, rfl, rfl⟩ := token?_cases hfound
    exact compared_reads .atLeast hbalanced htokens h
  split at h
  · rename_i hfound
    obtain ⟨more, rfl, rfl⟩ := token?_cases hfound
    exact compared_reads .atMost hbalanced htokens h
  split at h
  · rename_i hfound
    obtain ⟨word, more, rfl, hlike, rfl⟩ := keyword?_cases hfound
    exact compared_reads (.like hlike) hbalanced htokens h
  · cases h

theorem reads_separatedLoop {item : Step α} {form : Form α} (name : String)
    (hitem : Reads item form) (steps : Nat) :
    Reads (Cursor.separatedLoop item (Cursor.keyword? name) steps) (Separated name form) := by
  induction steps with
  | zero =>
    intro a b xs hbalanced h
    obtain ⟨⟨x, a₁⟩, hx, h⟩ := bind_eq_ok.mp h
    cases h
    obtain ⟨hbalanced, taken, htaken, hform⟩ := hitem hbalanced hx
    exact ⟨hbalanced, taken, htaken, .single hform⟩
  | succ steps ih =>
    intro a b xs hbalanced h
    obtain ⟨⟨x, a₁⟩, hx, h⟩ := bind_eq_ok.mp h
    obtain ⟨hbalanced, taken, htaken, hform⟩ := hitem hbalanced hx
    dsimp only at h
    split at h
    · cases h
      exact ⟨hbalanced, taken, htaken, .single hform⟩
    · rename_i a₂ hfound
      obtain ⟨⟨xs, a₃⟩, hxs, h⟩ := bind_eq_ok.mp h
      cases h
      have hword := Passes.keyword? hfound
      obtain ⟨word, rest, hrest, hstands, rfl⟩ := keyword?_cases hfound
      obtain ⟨hbalanced', more, hmore, hforms⟩ := ih (hword.balanced hbalanced) hxs
      refine ⟨hbalanced', taken ++ word :: more, ?_, .cons hform hstands hforms⟩
      rw [htaken, hrest, show rest = more ++ _ from hmore, List.append_assoc]
      rfl

theorem reads_separated {item : Step α} {form : Form α} (name : String) (hitem : Reads item form) :
    Reads (Cursor.separated item (Cursor.keyword? name)) (Separated name form) := by
  intro a b xs hbalanced h
  exact reads_separatedLoop name hitem a.tokens.length hbalanced h

/-- A predicate that holds of the rows of which all comparisons of a group are true. -/
def GroupHolds (p : Predicate) (group : List Comparison) : Prop :=
  ∀ row : Record, p.holds row ↔ ∀ c ∈ group, c.Holds row

theorem reads_conjunction : Reads Cursor.conjunction fun taken parameters p rest =>
    ∃ group, Separated "and" Compares taken parameters group rest ∧ GroupHolds p group := by
  intro a b p hbalanced h
  obtain ⟨⟨comparisons, a₁⟩, hcomparisons, h⟩ := bind_eq_ok.mp h
  obtain ⟨parts, hparts, h⟩ := bind_eq_ok.mp h
  cases h
  obtain ⟨hbalanced, taken, htaken, hgroup⟩ :=
    reads_separated "and" reads_comparison hbalanced hcomparisons
  refine ⟨hbalanced, taken, htaken, comparisons, hgroup, fun row => ?_⟩
  rw [holds_allOf, allHold_fuse hparts]

/-- What every part is read as, all of them are read as. -/
theorem Separated.parts {β : Type} {name : String} {form : Form β} {R : α → β → Prop}
    {taken : List Token} {parameters rest : List Json} {xs : List α}
    (h : Separated name (fun taken parameters x rest =>
      ∃ y, form taken parameters y rest ∧ R x y) taken parameters xs rest) :
    ∃ ys, Separated name form taken parameters ys rest ∧ List.Forall₂ R xs ys := by
  induction h with
  | single h =>
    obtain ⟨y, hy, hR⟩ := h
    exact ⟨[y], .single hy, .cons hR .nil⟩
  | cons h hword hmore ih =>
    obtain ⟨y, hy, hR⟩ := h
    obtain ⟨ys, hys, hRs⟩ := ih
    exact ⟨y :: ys, .cons hy hword hys, .cons hR hRs⟩

theorem someHolds_iff {row : Record} {predicates : List Predicate}
    {groups : List (List Comparison)} (h : List.Forall₂ GroupHolds predicates groups) :
    (∃ p ∈ predicates, p.holds row) ↔ SomeHolds groups row := by
  induction h with
  | nil => simp [SomeHolds]
  | cons hfirst hmore ih =>
    simp only [SomeHolds, List.exists_mem_cons_iff] at ih ⊢
    rw [ih, hfirst row]

/-- What a condition is read as is true of the rows of which its predicate holds. -/
def Says (taken : List Token) (parameters : List Json) (p : Predicate) (rest : List Json) : Prop :=
  ∃ groups, Grouped taken parameters groups rest ∧
    ∀ row : Record, p.holds row ↔ SomeHolds groups row

theorem reads_condition : Reads Cursor.condition Says := by
  intro a b p hbalanced h
  obtain ⟨⟨predicates, a₁⟩, hpredicates, h⟩ := bind_eq_ok.mp h
  cases h
  obtain ⟨hbalanced, taken, htaken, hparts⟩ :=
    reads_separated "or" reads_conjunction hbalanced hpredicates
  obtain ⟨groups, hgroups, hholds⟩ := hparts.parts
  refine ⟨hbalanced, taken, htaken, groups, hgroups, fun row => ?_⟩
  rw [holds_anyOf]
  exact someHolds_iff hholds

/-! ### The statement around a condition -/

/-- The condition of a deletion or a selection, if it has one. -/
def condition? : Statement → Option Predicate
  | .delete _ filter => filter
  | .select s => s.filter
  | .insert .. | .update .. => none

/-- The tokens before a condition. -/
def Opening (tokens : List Token) : Statement → Prop
  | .delete table _ => List.Forall₂ Symbol.Stands
      [.word "delete", .word "from", .word table.name, .word "where"] tokens
  | .select s => ∃ star, List.Forall₂ Symbol.Stands (.word "select" ::
      (Statement.projectionSymbols star s.distinct ++
        [.word "from", .word s.table.name, .word "where"])) tokens
  | .insert .. | .update .. => False

/-- The symbols after the condition of a statement, where there is no semicolon. -/
def closingSymbols (explicit : Bool) : Statement → List Symbol
  | .select s => (s.order.map (Ordered.symbols explicit)).getD []
  | .insert .. | .update .. | .delete .. => []

/-- The tokens after a condition. -/
def Closing (tokens : List Token) (s : Statement) : Prop :=
  ∃ explicit stop, (stop = [] ∨ stop = [.mark ';']) ∧
    List.Forall₂ Symbol.Stands (closingSymbols explicit s ++ stop) tokens

theorem whereClause_some {p : Predicate} (hbalanced : Balanced a)
    (h : a.whereClause = .ok (some p, b)) :
    Balanced b ∧ ∃ c, Passes [.word "where"] a c ∧ ∃ taken, c.tokens = taken ++ b.tokens ∧
      Says taken c.unbound p b.unbound := by
  unfold Cursor.whereClause at h
  split at h
  · rename_i c hwhere
    obtain ⟨⟨predicate, c'⟩, hpredicate, h⟩ := bind_eq_ok.mp h
    cases h
    have hpasses := Passes.keyword? hwhere
    obtain ⟨hbalanced, hreads⟩ := reads_condition (hpasses.balanced hbalanced) hpredicate
    exact ⟨hbalanced, c, hpasses, hreads⟩
  · cases h

/-- A statement with a condition in the middle of it stands between two cursors. -/
def Framed (s : Statement) (p : Predicate) (a b : Cursor) : Prop :=
  Balanced b ∧ ∃ before taken after explicit, a.tokens = before ++ (taken ++ (after ++ b.tokens)) ∧
    Opening before s ∧ List.Forall₂ Symbol.Stands (closingSymbols explicit s) after ∧
      Says taken a.unbound p b.unbound

theorem insert_condition? {s : Statement} (h : a.insert = .ok (s, b)) : condition? s = none := by
  obtain ⟨⟨conflict, a₁⟩, -, h⟩ := bind_eq_ok.mp h
  obtain ⟨a₂, -, h⟩ := bind_eq_ok.mp h
  obtain ⟨⟨table, a₃⟩, -, h⟩ := bind_eq_ok.mp h
  obtain ⟨⟨columns, a₄⟩, -, h⟩ := bind_eq_ok.mp h
  obtain ⟨a₅, -, h⟩ := bind_eq_ok.mp h
  obtain ⟨⟨values, a₆⟩, -, h⟩ := bind_eq_ok.mp h
  dsimp only at h
  split_ifs at h
  cases h
  rfl

theorem update_condition? {s : Statement} (h : a.update = .ok (s, b)) : condition? s = none := by
  obtain ⟨⟨table, a₁⟩, -, h⟩ := bind_eq_ok.mp h
  obtain ⟨a₂, -, h⟩ := bind_eq_ok.mp h
  obtain ⟨⟨assignments, a₃⟩, -, h⟩ := bind_eq_ok.mp h
  obtain ⟨a₄, -, h⟩ := bind_eq_ok.mp h
  obtain ⟨⟨column, a₅⟩, -, h⟩ := bind_eq_ok.mp h
  dsimp only at h
  split_ifs at h
  obtain ⟨a₆, -, h⟩ := bind_eq_ok.mp h
  obtain ⟨⟨id, a₇⟩, -, h⟩ := bind_eq_ok.mp h
  cases h
  rfl

theorem delete_framed {s : Statement} {p : Predicate} (hbalanced : Balanced a)
    (hdelete : a.keyword? "delete" = some b) (h : b.delete = .ok (s, c))
    (hp : condition? s = some p) : Framed s p a c := by
  obtain ⟨b₁, hfrom, h⟩ := bind_eq_ok.mp h
  obtain ⟨⟨table, b₂⟩, htable, h⟩ := bind_eq_ok.mp h
  obtain ⟨⟨filter, b₃⟩, hfilter, h⟩ := bind_eq_ok.mp h
  cases h
  cases hp
  have hhead := ((Passes.keyword? hdelete).trans (.keyword hfrom)).trans (.table htable)
  obtain ⟨hbalanced, d, hwhere, taken, htaken, hsays⟩ :=
    whereClause_some (hhead.balanced hbalanced) hfilter
  obtain ⟨-, hunbound, before, hbefore, htokens⟩ := hhead.trans hwhere
  refine ⟨hbalanced, before, taken, [], false, ?_, hbefore, .nil, hunbound ▸ hsays⟩
  rw [htokens, htaken]
  rfl

theorem select_framed {s : Select} {p : Predicate} (hbalanced : Balanced a)
    (hselect : a.keyword? "select" = some b) (h : b.select = .ok (s, c))
    (hp : s.filter = some p) : Framed (.select s) p a c := by
  obtain ⟨⟨distinct, b₁⟩, hdistinct, h⟩ := bind_eq_ok.mp h
  obtain ⟨b₂, hfrom, h⟩ := bind_eq_ok.mp h
  obtain ⟨⟨table, b₃⟩, htable, h⟩ := bind_eq_ok.mp h
  obtain ⟨⟨filter, b₄⟩, hfilter, h⟩ := bind_eq_ok.mp h
  obtain ⟨⟨order, b₅⟩, horder, h⟩ := bind_eq_ok.mp h
  cases h
  cases hp
  obtain ⟨star, hprojection⟩ := Passes.projection hdistinct
  have hhead := (((Passes.keyword? hselect).trans hprojection).trans (.keyword hfrom)).trans
    (.table htable)
  obtain ⟨hbalanced, d, hwhere, taken, htaken, hsays⟩ :=
    whereClause_some (hhead.balanced hbalanced) hfilter
  obtain ⟨-, hunbound, before, hbefore, htokens⟩ := hhead.trans hwhere
  obtain ⟨explicit, hbalanced', hunbound', after, hafter, hrest⟩ := Passes.orderClause horder
  refine ⟨hbalanced' hbalanced, before, taken, after, explicit, ?_, ⟨star, ?_⟩, hafter, ?_⟩
  · rw [htokens, htaken, hrest]
  · simpa using hbefore
  · rw [← hunbound, hunbound']
    exact hsays

theorem statement_framed {s : Statement} {p : Predicate} (hbalanced : Balanced a)
    (h : a.statement = .ok (s, b)) (hp : condition? s = some p) : Framed s p a b := by
  unfold Cursor.statement at h
  split at h
  · simp [insert_condition? h] at hp
  split at h
  · simp [update_condition? h] at hp
  split at h
  · exact delete_framed hbalanced (by assumption) h hp
  split at h
  · obtain ⟨⟨s, a₁⟩, hs, h⟩ := bind_eq_ok.mp h
    cases h
    exact select_framed hbalanced (by assumption) hs hp
  · cases h

/-! ### What a condition does -/

/-- A statement acts on exactly the chosen rows of its table: they are what a selection returns, and
what a deletion removes. -/
def ActsOn (chosen : Record → Prop) [DecidablePred chosen] (sql : String) (parameters : List Json) :
    Statement → Prop
  | .select s => ∀ (store : Store) rows, store.tableRows s.table = .ok rows →
      ∃ found, store.fetchAll sql parameters = .ok found ∧
        found = { s with filter := none }.evaluate (rows.filter (chosen ·)) ∧
        (s.distinct = none → found.Perm (rows.filter (chosen ·)))
  | .delete table _ => ∀ (store : Store) rows, store.tableRows table = .ok rows →
      store.execute sql parameters =
        if ∃ row ∈ rows, chosen row then
          (store.setTableRows table (rows.filter fun row => ¬ chosen row)).map
            ((rows.filter (chosen ·)).length, ·)
        else .ok (0, store)
  | .insert .. | .update .. => False

theorem evaluate_perm (s : Select) (h : s.distinct = none) (rows : List Record) :
    ({ s with filter := none }.evaluate rows).Perm rows := by
  simp only [Select.evaluate, h, Select.matching, Select.sorted]
  split
  · exact List.mergeSort_perm rows _
  · exact .refl rows

theorem select_actsOn {chosen : Record → Prop} [DecidablePred chosen] {sql : String}
    {parameters : List Json} {s : Select} {p : Predicate}
    (h : parse sql parameters = .ok (.select s)) (hp : s.filter = some p)
    (hchosen : ∀ row : Record, p.holds row ↔ chosen row) :
    ActsOn chosen sql parameters (.select s) := by
  intro store rows hrows
  have hmatching : s.matching rows = rows.filter (chosen ·) := by
    simp only [Select.matching, hp]
    exact List.filter_congr fun row _ => by rw [Bool.eq_iff_iff, hchosen, decide_eq_true_iff]
  have hevaluate : s.evaluate rows =
      { s with filter := none }.evaluate (rows.filter (chosen ·)) := by
    simp only [Select.evaluate, hmatching]
    rfl
  have hfound : store.fetchAll sql parameters = .ok (s.evaluate rows) := by
    simp only [Store.fetchAll, Store.parseSelect, h, Store.query]
    exact bind_eq_ok.mpr ⟨s, rfl, bind_eq_ok.mpr ⟨rows, hrows, rfl⟩⟩
  refine ⟨_, hfound, hevaluate, fun hdistinct => ?_⟩
  rw [hevaluate]
  exact evaluate_perm s hdistinct _

theorem delete_actsOn {chosen : Record → Prop} [DecidablePred chosen] {sql : String}
    {parameters : List Json} {table : Table} {p : Predicate}
    (h : parse sql parameters = .ok (.delete table (some p)))
    (hchosen : ∀ row : Record, p.holds row ↔ chosen row) :
    ActsOn chosen sql parameters (.delete table (some p)) := by
  intro store rows hrows
  have hkept : Store.kept (some p) rows = rows.filter fun row => ¬ chosen row := by
    refine List.filter_congr fun row _ => ?_
    rw [Bool.eq_iff_iff, decide_eq_true_iff, ← hchosen row, Bool.not_eq_true', Bool.not_eq_true]
  have hlength := List.length_eq_length_filter_add (l := rows) (chosen ·)
  have hremoved : rows.length - (rows.filter fun row => ¬ chosen row).length =
      (rows.filter (chosen ·)).length := by
    simp only [← decide_not] at hlength
    omega
  have hexecute : store.execute sql parameters = store.delete table (some p) := by
    simp only [Store.execute, h]
    rfl
  have hnone : (rows.filter (chosen ·)).length = 0 ↔ ¬ ∃ row ∈ rows, chosen row := by
    rw [List.length_eq_zero_iff, List.filter_eq_nil_iff]
    simp
  rw [hexecute, Store.delete, hrows]
  dsimp only [bind, Except.bind]
  rw [hkept, hremoved]
  split_ifs with hzero hsome hsome
  · exact absurd hsome (hnone.mp hzero)
  · rfl
  · cases store.setTableRows table (rows.filter fun row => ¬ chosen row) <;> rfl
  · exact absurd (hnone.mpr hsome) hzero

/-- The condition of a statement is read from its text: the tokens between WHERE and what may follow
a condition are groups of comparisons in one way, and its predicate holds of exactly the rows of
which all comparisons of some group are true. These rows the statement returns or removes. -/
structure Means (sql : String) (parameters : List Json) (s : Statement) (p : Predicate)
    (before condition after : List Token) (groups : List (List Comparison)) : Prop where
  scanned : scan sql = .ok (before ++ (condition ++ after))
  opening : Opening before s
  closing : Closing after s
  grouped : Grouped condition parameters groups []
  unique : ∀ others rest, Grouped condition parameters others rest → others = groups
  holds_iff : ∀ row : Record, p.holds row ↔ SomeHolds groups row
  acts : ActsOn (SomeHolds groups) sql parameters s

/-- A condition means what it says. -/
theorem condition_means {sql : String} {parameters : List Json} {s : Statement} {p : Predicate}
    (h : parse sql parameters = .ok s) (hp : condition? s = some p) :
    ∃ before condition after groups, Means sql parameters s p before condition after groups := by
  obtain ⟨tokens, a, hscan, hcount, hs, hcomplete⟩ := parse_steps h
  have hbalanced : Balanced ⟨tokens, parameters, 0⟩ := hcount.symm
  obtain ⟨hbalanced', before, condition, after, explicit, htokens, hbefore, hafter, groups,
    hgroups, hholds⟩ := statement_framed hbalanced hs hp
  obtain ⟨stop, b, hstop, hend, hpasses⟩ := Passes.complete hcomplete
  -- nothing is left at the end, so no parameter is either
  have hunbound : a.unbound = [] := by
    have hb := hpasses.balanced hbalanced'
    unfold Balanced at hb
    rw [hpasses.unbound, hend] at hb
    exact List.length_eq_zero_iff.mp hb
  rw [hunbound] at hgroups
  obtain ⟨last, hlast, hstopped⟩ := hpasses.tokens
  rw [hend, List.append_nil] at hstopped
  refine ⟨before, condition, after ++ last, groups, ?_, hbefore,
    ⟨explicit, stop, hstop, List.rel_append hafter hlast⟩, hgroups,
    fun others rest hothers => hothers.unique hgroups, hholds, ?_⟩
  · rw [hscan, ← hstopped]
    exact congrArg _ htokens
  · cases s with
    | insert | update => cases hp
    | delete table filter =>
      cases hp
      exact delete_actsOn h hholds
    | select s => exact select_actsOn h hp hholds

/-- A range and a pattern, or a null. -/
def earlyOr : Predicate :=
  .any [.all [.range "a" (.text "b") (.text "m"), .like "c" "%x"], .equal "d" .null]

theorem condition_means_earlyOr :
    parse "DELETE FROM notes WHERE a >= ? AND a <= 'm' AND c LIKE ? OR d = Null"
      [.text "b", .text "%x"] = .ok (.delete .notes (some earlyOr)) ∧
    condition? (.delete .notes (some earlyOr)) = some earlyOr ∧
    ∃ groups : List (List Comparison), (∀ row : Record, earlyOr.holds row ↔ SomeHolds groups row) ∧
      ActsOn (SomeHolds groups)
        "DELETE FROM notes WHERE a >= ? AND a <= 'm' AND c LIKE ? OR d = Null"
        [.text "b", .text "%x"] (.delete .notes (some earlyOr)) := by
  obtain ⟨tokens, hscan, htokens⟩ := exists_of_any
    (x := scan "DELETE FROM notes WHERE a >= ? AND a <= 'm' AND c LIKE ? OR d = Null")
    (p := fun tokens => decide (tokens = [.word "DELETE", .word "FROM", .word "notes",
      .word "WHERE", .word "a", .atLeast, .placeholder, .word "AND", .word "a", .atMost, .text "m",
      .word "AND", .word "c", .word "LIKE", .placeholder, .word "OR", .word "d", .equals,
      .word "Null"])) (by decide +kernel)
  have hparse : parse "DELETE FROM notes WHERE a >= ? AND a <= 'm' AND c LIKE ? OR d = Null"
      [.text "b", .text "%x"] = .ok (.delete .notes (some earlyOr)) := by
    rw [parse, hscan, of_decide_eq_true htokens]
    rfl
  obtain ⟨_, _, _, groups, hmeans⟩ := condition_means hparse rfl
  exact ⟨hparse, rfl, groups, hmeans.holds_iff, hmeans.acts⟩

end Planner.Sql
