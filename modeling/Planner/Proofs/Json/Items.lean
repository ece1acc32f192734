import Planner.Json.Reader.Value
import Planner.Proofs.Json.Numeral
import Planner.Proofs.Json.Quoted

/-! Lists and objects read item by item, whatever the items are and whatever space is between. -/
namespace Planner.Json

open Numeral (Ends)

variable {α β σ : Type} {gap outer rest s : List Char} {steps : Nat} {xs : List β}

def Blank (gap : List Char) : Prop := ∀ c ∈ gap, isSpace c = true

/-- The reader makes the result of the text, whatever follows it. -/
def Reads (reader : Reader α) (text : List Char) (result : Except Fault α) : Prop :=
  ∀ rest, Ends rest → reader (text ++ rest) = result.map (·, rest)

/-- The text has a first character, which is neither a space nor a closing bracket. -/
def Starts (text : List Char) : Prop :=
  ∃ c cs, text = c :: cs ∧ isSpace c = false ∧ c ≠ ']'

/-- Texts with commas between them, up to the closing bracket. -/
def listed (right : Char) (inner outer : List Char) : List (List Char) → List Char
  | [] => [right]
  | first :: others =>
    inner ++ (first ++ (others.flatMap (fun text => ',' :: inner ++ text) ++ (outer ++ [right])))

theorem skipSpace_append (h : Blank gap) : skipSpace (gap ++ s) = skipSpace s :=
  List.dropWhile_append_of_pos h

theorem skipSpace_cons {c : Char} (h : isSpace c = false) : skipSpace (c :: s) = c :: s :=
  List.dropWhile_cons_of_neg (by simp [h])

theorem Starts.skipSpace_eq {text : List Char} (h : Starts text) :
    ∃ c cs, text ++ s = c :: cs ∧ c ≠ ']' ∧ skipSpace (text ++ s) = c :: cs := by
  obtain ⟨c, cs, rfl, hspace, hne⟩ := h
  exact ⟨c, cs ++ s, rfl, hne, skipSpace_cons hspace⟩

theorem ends_cons {c : Char} (h : c = ',' ∨ c = ']' ∨ c = '}' ∨ isSpace c = true) :
    Ends (c :: s) := by
  rintro d ⟨⟩
  rcases h with rfl | rfl | rfl | h
  · decide
  · decide
  · decide
  · simp only [isSpace, Bool.or_eq_true, decide_eq_true_eq] at h
    rcases h with ((rfl | rfl) | rfl) | rfl <;> decide

theorem ends_gap {c : Char} (h : Blank gap) (hc : c = ',' ∨ c = ']' ∨ c = '}') :
    Ends (gap ++ c :: s) := by
  cases gap with
  | nil =>
    refine ends_cons ?_
    tauto
  | cons d ds => exact ends_cons (.inr (.inr (.inr (h d (List.mem_cons_self ..)))))

theorem ends_others (gap rest : List Char) {right : Char} (hr : right = ']' ∨ right = '}')
    (ho : Blank outer) (texts : List (List Char)) :
    Ends (texts.flatMap (fun text => ',' :: gap ++ text) ++ (outer ++ right :: rest)) := by
  cases texts with
  | nil => exact ends_gap ho (by tauto)
  | cons text texts => exact ends_cons (.inl rfl)

theorem nextItem_done {first : Bool} (ho : Blank outer) :
    nextItem first (outer ++ ']' :: rest) = .ok (.done rest) := by
  unfold nextItem
  rw [skipSpace_append ho, skipSpace_cons (by decide)]
  rfl

theorem nextItem_first {text : List Char} (hg : Blank gap) (ht : Starts text) :
    nextItem true (gap ++ (text ++ s)) = .ok (.item (text ++ s)) := by
  obtain ⟨c, cs, htext, hne, hskip⟩ := ht.skipSpace_eq (s := s)
  unfold nextItem
  rw [skipSpace_append hg, hskip, htext]
  split
  · rename_i h
    cases h
  · rename_i h
    exact absurd (List.cons.inj h).1 hne
  · rename_i h
    obtain ⟨rfl, rfl⟩ := List.cons.inj h
    rfl

theorem nextItem_comma : nextItem false (',' :: s) =
    match skipSpace s with
    | [] => .error .endInValue
    | ']' :: _ => .error .trailingComma
    | rest => .ok (.item rest) := rfl

theorem nextItem_later {text : List Char} (hg : Blank gap) (ht : Starts text) :
    nextItem false (',' :: gap ++ (text ++ s)) = .ok (.item (text ++ s)) := by
  obtain ⟨c, cs, htext, hne, hskip⟩ := ht.skipSpace_eq (s := s)
  rw [List.cons_append, nextItem_comma, skipSpace_append hg, hskip, htext]
  split
  · rename_i h
    cases h
  · rename_i h
    exact absurd (List.cons.inj h).1 hne
  · rfl

section Lists

variable {item : Reader α} {text : β → List Char} {out : β → Except Fault α}

theorem readItemsLoop_texts (hg : Blank gap) (ho : Blank outer)
    (hstarts : ∀ x ∈ xs, Starts (text x)) (hreads : ∀ x ∈ xs, Reads item (text x) (out x))
    (hs : xs.length < steps) :
    readItemsLoop item steps false
      ((xs.map text).flatMap (fun text => ',' :: gap ++ text) ++ (outer ++ ']' :: rest)) =
        (xs.mapM out).map (·, rest) := by
  induction xs generalizing steps with
  | nil =>
    obtain ⟨steps, rfl⟩ := Nat.exists_eq_succ_of_ne_zero (Nat.ne_of_gt hs)
    simp only [List.map_nil, List.flatMap_nil, List.nil_append, readItemsLoop, nextItem_done ho]
    rfl
  | cons x xs ih =>
    obtain ⟨steps, rfl⟩ := Nat.exists_eq_succ_of_ne_zero (Nat.ne_of_gt (Nat.zero_lt_of_lt hs))
    have hx := hreads x (List.mem_cons_self ..) _
      (ends_others gap rest (.inl rfl) ho (xs.map text))
    have hrest := ih (fun y hy => hstarts y (.tail _ hy)) (fun y hy => hreads y (.tail _ hy))
      (Nat.lt_of_succ_lt_succ hs)
    rw [List.map_cons, List.flatMap_cons, List.append_assoc, List.append_assoc, readItemsLoop,
      nextItem_later hg (hstarts x (List.mem_cons_self ..))]
    simp only [bind, Except.bind]
    rw [hx, List.mapM_cons]
    cases out x with
    | error e => rfl
    | ok a =>
      simp only [Except.map, hrest]
      cases xs.mapM out <;> rfl

theorem length_le_flatMap_comma (gap : List Char) (texts : List (List Char)) :
    texts.length ≤ (texts.flatMap (fun text => ',' :: gap ++ text)).length := by
  induction texts with
  | nil => simp
  | cons text texts ih =>
    simp only [List.flatMap_cons, List.length_append, List.length_cons]
    omega

/-- A list that is written item by item is read item by item. -/
theorem readItems_listed (hg : Blank gap) (ho : Blank outer)
    (hstarts : ∀ x ∈ xs, Starts (text x)) (hreads : ∀ x ∈ xs, Reads item (text x) (out x)) :
    readItems item (listed ']' gap outer (xs.map text) ++ rest) = (xs.mapM out).map (·, rest) := by
  cases xs with
  | nil =>
    have hdone : nextItem true ([] ++ ']' :: rest) = _ := nextItem_done (List.forall_mem_nil _)
    rw [List.nil_append] at hdone
    simp only [List.map_nil, listed, readItems, List.singleton_append, List.length_cons,
      readItemsLoop, hdone]
    rfl
  | cons x xs =>
    have hx := hreads x (List.mem_cons_self ..) _
      (ends_others gap rest (.inl rfl) ho (xs.map text))
    have hlen := length_le_flatMap_comma gap (xs.map text)
    rw [List.length_map] at hlen
    simp only [List.map_cons, listed, readItems, List.append_assoc, List.singleton_append]
    rw [readItemsLoop, nextItem_first hg (hstarts x (List.mem_cons_self ..))]
    simp only [bind, Except.bind]
    rw [hx, List.mapM_cons]
    cases out x with
    | error e => rfl
    | ok a =>
      simp only [Except.map]
      rw [readItemsLoop_texts hg ho (fun y hy => hstarts y (.tail _ hy))
        (fun y hy => hreads y (.tail _ hy)) (by simp only [List.length_append, List.length_cons]; omega)]
      cases xs.mapM out <;> rfl

end Lists

section Fields

variable {field : σ → String → Reader σ} {key : β → String} {body : β → List Char}
  {step : σ → β → Except Fault σ} {state : σ}

theorem nextKey_done {first : Bool} (ho : Blank outer) :
    nextKey first (outer ++ '}' :: rest) = .ok (.done rest) := by
  unfold nextKey
  rw [skipSpace_append ho, skipSpace_cons (by decide)]
  rfl

theorem nextKey_first (hg : Blank gap) : nextKey true (gap ++ '"' :: s) = .ok (.item s) := by
  unfold nextKey
  rw [skipSpace_append hg, skipSpace_cons (by decide)]
  rfl

theorem nextKey_comma : nextKey false (',' :: s) =
    match skipSpace s with
    | [] => .error .endInValue
    | '"' :: rest => .ok (.item rest)
    | '}' :: _ => .error .trailingComma
    | _ => .error .keyNotText := rfl

theorem nextKey_later (hg : Blank gap) :
    nextKey false (',' :: gap ++ '"' :: s) = .ok (.item s) := by
  rw [List.cons_append, nextKey_comma, skipSpace_append hg, skipSpace_cons (by decide)]
  rfl

/-- The text of a field: its key, and what is written behind it. -/
def fieldText (key : β → String) (body : β → List Char) (x : β) : List Char :=
  quote (key x) ++ body x

theorem fieldText_append (x : β) : fieldText key body x ++ s =
    '"' :: ((key x).toList.flatMap escapeChar ++ '"' :: (body x ++ s)) := by
  simp [fieldText, quote]

theorem readFieldsLoop_texts (hg : Blank gap) (ho : Blank outer)
    (hreads : ∀ x ∈ xs, ∀ state, Reads (field state (key x)) (body x) (step state x))
    (hs : xs.length < steps) :
    readFieldsLoop field steps false state
      ((xs.map (fieldText key body)).flatMap (fun text => ',' :: gap ++ text) ++
        (outer ++ '}' :: rest)) = (xs.foldlM step state).map (·, rest) := by
  induction xs generalizing steps state with
  | nil =>
    obtain ⟨steps, rfl⟩ := Nat.exists_eq_succ_of_ne_zero (Nat.ne_of_gt hs)
    simp only [List.map_nil, List.flatMap_nil, List.nil_append, readFieldsLoop, nextKey_done ho]
    rfl
  | cons x xs ih =>
    obtain ⟨steps, rfl⟩ := Nat.exists_eq_succ_of_ne_zero (Nat.ne_of_gt (Nat.zero_lt_of_lt hs))
    have hx := hreads x (List.mem_cons_self ..) state _
      (ends_others gap rest (.inr rfl) ho (xs.map (fieldText key body)))
    have hrest := fun state => @ih steps state (fun y hy => hreads y (.tail _ hy))
      (Nat.lt_of_succ_lt_succ hs)
    rw [List.map_cons, List.flatMap_cons, List.append_assoc, List.append_assoc, fieldText_append,
      readFieldsLoop, nextKey_later hg]
    simp only [bind, Except.bind]
    rw [readQuoted_quote]
    simp only
    rw [hx, List.foldlM_cons]
    cases step state x with
    | error e => rfl
    | ok next =>
      simp only [Except.map, hrest]
      rfl

/-- An object that is written field by field is read field by field. -/
theorem readFields_listed (hg : Blank gap) (ho : Blank outer)
    (hreads : ∀ x ∈ xs, ∀ state, Reads (field state (key x)) (body x) (step state x)) :
    readFields field state (listed '}' gap outer (xs.map (fieldText key body)) ++ rest) =
      (xs.foldlM step state).map (·, rest) := by
  cases xs with
  | nil =>
    have hdone : nextKey true ([] ++ '}' :: rest) = _ := nextKey_done (List.forall_mem_nil _)
    rw [List.nil_append] at hdone
    simp only [List.map_nil, listed, readFields, List.singleton_append, List.length_cons,
      readFieldsLoop, hdone]
    rfl
  | cons x xs =>
    have hx := hreads x (List.mem_cons_self ..) state _
      (ends_others gap rest (.inr rfl) ho (xs.map (fieldText key body)))
    have hlen := length_le_flatMap_comma gap (xs.map (fieldText key body))
    rw [List.length_map] at hlen
    simp only [List.map_cons, listed, readFields, List.append_assoc, List.singleton_append]
    rw [readFieldsLoop, fieldText_append, nextKey_first hg]
    simp only [bind, Except.bind]
    rw [readQuoted_quote]
    simp only
    rw [hx, List.foldlM_cons]
    cases step state x with
    | error e => rfl
    | ok next =>
      simp only [Except.map]
      rw [readFieldsLoop_texts hg ho (fun y hy => hreads y (.tail _ hy))
        (by simp only [List.length_append, List.length_cons]; omega)]
      rfl

end Fields

end Planner.Json
