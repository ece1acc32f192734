import Mathlib.Data.String.Basic
import Planner.Config
import Planner.Proofs.Outcome

/-! Which store a profile opens. Its own one where its file gives an empty path for it, and where it
has no file yet; where the file gives no path at all, that of production. -/
namespace Planner

open Outcome

namespace Profile

theorem name_injective : Function.Injective Profile.name := by
  intro a b h
  cases a <;> cases b <;> first | rfl | exact absurd h (by decide)

theorem storeFile_eq (home : String) (profile : Profile) :
    profile.storeFile home = home ++ "/.local/share/" ++ (profile.name ++ "/daybook.db") := by
  simp only [storeFile, String.append_assoc]

theorem storeFile_injective (home : String) : Function.Injective (storeFile home) := by
  intro a b h
  rw [storeFile_eq, storeFile_eq] at h
  exact name_injective ((String.append_left_inj _).mp ((String.append_right_inj _).mp h))

theorem storeFile_ne_empty (home : String) (profile : Profile) : profile.storeFile home ≠ "" := by
  intro h
  have hlength := congrArg String.length h
  simp [storeFile_eq] at hlength

end Profile

/-! ### Paths -/

/-- What stands behind the first three characters of a path stays behind what these stand for. -/
theorem exists_expandHome_append (home : String) {front : String} (h : 3 ≤ front.length) :
    ∃ expanded, ∀ rest, expandHome home (front ++ rest) = expanded ++ rest := by
  obtain ⟨a, b, c, cs, hfront⟩ : ∃ a b c cs, front.toList = a :: b :: c :: cs := by
    match hlist : front.toList with
    | a :: b :: c :: cs => exact ⟨a, b, c, cs, rfl⟩
    | [] | [_] | [_, _] =>
      rw [← String.length_toList, hlist] at h
      simp at h
  have hall : ∀ rest : String, (front ++ rest).toList = a :: b :: c :: (cs ++ rest.toList) := by
    intro rest
    rw [String.toList_append, hfront]
    rfl
  by_cases htilde : a = '~' ∧ b = '/'
  · obtain ⟨rfl, rfl⟩ := htilde
    by_cases hslash : c = '/'
    · subst hslash
      refine ⟨String.ofList ('/' :: cs), fun rest => ?_⟩
      simp only [expandHome, hall]
      rw [← List.cons_append, String.ofList_append, String.ofList_toList]
    · refine ⟨home ++ "/" ++ String.ofList (c :: cs), fun rest => ?_⟩
      simp only [expandHome, hall]
      split
      · rename_i hsame
        cases hsame
        exact absurd rfl hslash
      · rename_i hsame
        cases hsame
        rw [← List.cons_append, String.ofList_append, String.ofList_toList]
        simp only [String.append_assoc]
      · rename_i hother
        exact absurd rfl (hother _)
  · refine ⟨front, fun rest => ?_⟩
    simp only [expandHome, hall]
    split
    · rename_i hsame
      cases hsame
      exact absurd ⟨rfl, rfl⟩ htilde
    · rename_i hsame
      cases hsame
      exact absurd ⟨rfl, rfl⟩ htilde
    · rfl

theorem expandHome_storeFile_injective (home : String) :
    Function.Injective fun profile : Profile => expandHome home (profile.storeFile home) := by
  intro a b h
  have hlong : 3 ≤ (home ++ "/.local/share/").length := by
    rw [String.length_append]
    exact Nat.le_add_left_of_le (by decide)
  obtain ⟨expanded, hexpand⟩ := exists_expandHome_append home hlong
  simp only [Profile.storeFile_eq, hexpand] at h
  exact Profile.name_injective ((String.append_left_inj _).mp ((String.append_right_inj _).mp h))

/-! ### Configurations -/

namespace Config

variable {home text : String} {profile : Profile} {fields : Toml.Fields} {parsed : Config}

theorem lookup_of_textField? {key path : String}
    (h : (textField? key fields).toOption = some (some path)) :
    fields.lookup key = some (.text path) := by
  unfold textField? at h
  split at h
  · cases h
  · rename_i hlookup
    cases h
    exact hlookup
  · cases h

/-- The path that a file gives, or that of production. -/
theorem storagePath_ofText (hread : Toml.read text = .ok fields) (h : ofText home text = .ok parsed) :
    ∃ path?, textField? "storage_path" fields = .ok path? ∧
      parsed.storagePath = path?.getD (Profile.production.storeFile home) := by
  obtain ⟨fields', hfields, h⟩ := bind_eq_ok.mp h
  cases hread.symm.trans hfields
  obtain ⟨path?, hpath, h⟩ := bind_eq_ok.mp h
  obtain ⟨level?, -, h⟩ := bind_eq_ok.mp h
  obtain ⟨folder?, -, h⟩ := bind_eq_ok.mp h
  obtain ⟨version?, -, h⟩ := bind_eq_ok.mp h
  cases h
  exact ⟨path?, hpath, rfl⟩

/-- Where a configuration that was read puts the store of a profile. -/
def pathFor (home : String) (profile : Profile) (c : Config) : String :=
  if c.storagePath = "" then profile.storeFile home else c.storagePath

theorem load_of_text (h : ofText home text = .ok parsed) (profile : Profile) :
    load home profile (some text) =
      .ok ({ parsed with storagePath := pathFor home profile parsed }, text) := by
  simp only [load, h, bind, Except.bind, pure, Except.pure, String.isEmpty_iff, pathFor]

/-- A file without a path stands for that of production in both profiles, one with the empty path for
that of each. -/
theorem pathFor_cases (hread : Toml.read text = .ok fields)
    (hparsed : ofText home text = .ok parsed)
    (hpath : ∀ value ∈ fields.lookup "storage_path", value = .text "") :
    fields.lookup "storage_path" = none ∧
        (∀ profile, pathFor home profile parsed = Profile.production.storeFile home) ∨
      fields.lookup "storage_path" ≠ none ∧
        ∀ profile, pathFor home profile parsed = profile.storeFile home := by
  obtain ⟨path?, hfield, hstored⟩ := storagePath_ofText hread hparsed
  unfold textField? at hfield
  cases hlookup : fields.lookup "storage_path" with
  | none =>
    rw [hlookup] at hfield
    cases hfield
    refine .inl ⟨rfl, fun profile => ?_⟩
    rw [pathFor, hstored, Option.getD_none, if_neg (Profile.storeFile_ne_empty _ _)]
  | some value =>
    cases hpath value hlookup
    rw [hlookup] at hfield
    cases hfield
    exact .inr ⟨nofun, fun profile => if_pos hstored⟩

/-- From a file that gives no path for the store, or an empty one, each profile loads what it says;
the store is the one of a first run of the profile if the path is empty, and that of production if
there is none. So the two profiles open the same store exactly if there is none. -/
theorem load_without_path (hread : Toml.read text = .ok fields)
    (hparsed : ofText home text = .ok parsed)
    (hpath : ∀ value ∈ fields.lookup "storage_path", value = .text "") :
    ∃ loaded : Profile → Config,
      (∀ profile, load home profile (some text) = .ok (loaded profile, text) ∧
        { loaded profile with storagePath := parsed.storagePath } = parsed) ∧
      (∀ profile, ∃ first file, load home profile none = .ok (first, file) ∧
        first.storagePath = profile.storeFile home ∧
        ((loaded profile).storagePath = first.storagePath ↔
          profile = .production ∨ fields.lookup "storage_path" ≠ none)) ∧
      ((loaded .development).storeFile home = (loaded .production).storeFile home ↔
        fields.lookup "storage_path" = none) := by
  refine ⟨fun profile => { parsed with storagePath := pathFor home profile parsed },
    fun profile => ⟨load_of_text hparsed profile, rfl⟩, ?_⟩
  obtain ⟨hnone, hsame⟩ | ⟨hsome, hown⟩ := pathFor_cases hread hparsed hpath
  · refine ⟨fun profile => ⟨_, _, rfl, rfl, ?_⟩, ?_⟩
    · have hstore : Profile.production.storeFile home = profile.storeFile home ↔
          .production = profile := (Profile.storeFile_injective home).eq_iff
      refine (Eq.congr_left (hsame profile)).trans (hstore.trans ?_)
      simp [hnone, eq_comm]
    · simp only [storeFile, hsame, hnone]
  · refine ⟨fun profile => ⟨_, _, rfl, rfl, ?_⟩, ?_⟩
    · exact iff_of_true (hown profile) (.inr hsome)
    · simp only [storeFile, hown]
      refine iff_of_false (fun hequal => ?_) hsome
      cases expandHome_storeFile_injective home hequal

/-- A file with an empty path and one more key. -/
def emptyPath : String := "storage_path = \"\"\nlog_level = \"debug\"\n"

theorem load_without_path_empty : ∃ loaded : Profile → Config,
    (∀ profile, load "/home/ada" profile (some emptyPath) = .ok (loaded profile, emptyPath)) ∧
    (∀ profile, (loaded profile).storagePath = profile.storeFile "/home/ada") ∧
    (loaded .development).storeFile "/home/ada" ≠ (loaded .production).storeFile "/home/ada" := by
  obtain ⟨fields, hread, hfields⟩ : ∃ fields, Toml.read emptyPath = .ok fields ∧
      decide ((textField? "storage_path" fields).toOption = some (some "")) = true :=
    exists_of_any (by decide +kernel)
  have hlookup := lookup_of_textField? (of_decide_eq_true hfields)
  obtain ⟨parsed, hparsed, -⟩ : ∃ parsed, ofText "/home/ada" emptyPath = .ok parsed ∧ true = true :=
    exists_of_any (by decide +kernel)
  obtain ⟨loaded, hload, hfirst, hsame⟩ := load_without_path hread hparsed (by simp [hlookup])
  refine ⟨loaded, fun profile => (hload profile).1, fun profile => ?_, fun h => ?_⟩
  · obtain ⟨first, file, -, hstore, hpath⟩ := hfirst profile
    exact (hpath.mpr (.inr (by simp [hlookup]))).trans hstore
  · have hnone := hsame.mp h
    rw [hlookup] at hnone
    cases hnone

/-- A file without a path. -/
def levelOnly : String := "log_level = \"debug\"\n"

/-- In development the store of production is opened. -/
theorem not_own_levelOnly : ∃ fields loaded,
    Toml.read levelOnly = .ok fields ∧ fields.lookup "storage_path" = none ∧
    load "/home/ada" .development (some levelOnly) = .ok (loaded, levelOnly) ∧
    loaded.storagePath ≠ Profile.development.storeFile "/home/ada" ∧
    loaded.storeFile "/home/ada" = "/home/ada/.local/share/daybook/daybook.db" := by
  obtain ⟨fields, hread, hfields⟩ : ∃ fields, Toml.read levelOnly = .ok fields ∧
      decide (fields.lookup "storage_path" = none) = true := exists_of_any (by decide +kernel)
  obtain ⟨⟨loaded, file⟩, hload, hpath⟩ : ∃ result,
      load "/home/ada" .development (some levelOnly) = .ok result ∧
      decide (result.2 = levelOnly ∧
        result.1.storagePath ≠ Profile.development.storeFile "/home/ada" ∧
        result.1.storeFile "/home/ada" = "/home/ada/.local/share/daybook/daybook.db") = true :=
    exists_of_any (by decide +kernel)
  obtain ⟨rfl, hother, hopened⟩ := of_decide_eq_true hpath
  exact ⟨fields, loaded, hread, of_decide_eq_true hfields, hload, hother, hopened⟩

end Config
end Planner
