import Planner.Proofs.Date.Span
import Planner.Proofs.Outcome

/-! The texts of days as keys: each day has one text, which stands for it among all texts that are
read as the day, and which sorts as the day does where years are written with four digits. -/
namespace Planner.Date

variable {d e : Date} {text normal : String}

/-- Whether a day stands before another in the calendar. -/
def Before (d e : Date) : Prop :=
  d.year < e.year ∨ d.year = e.year ∧ (d.month < e.month ∨ d.month = e.month ∧ d.day < e.day)

instance (d e : Date) : Decidable (Before d e) :=
  inferInstanceAs (Decidable (d.year < e.year ∨ d.year = e.year ∧
    (d.month < e.month ∨ d.month = e.month ∧ d.day < e.day)))

theorem before_iff : Before d e ↔ d.number < e.number := number_lt_iff.symm

/-- The text of the day that a text is read as. -/
def normalText (text : String) : Except TextError String := (ofText text).map toText

theorem normalText_of_read (h : ofText text = .ok d) : normalText text = .ok d.toText := by
  rw [normalText, h]
  rfl

theorem normalText_eq_ok_iff :
    normalText text = .ok normal ↔ ∃ d, ofText text = .ok d ∧ d.toText = normal := by
  unfold normalText
  cases ofText text <;> simp [Except.map]

/-- The texts that reading and writing leaves alone are those of days. -/
theorem normalText_eq_self_iff : normalText text = .ok text ↔ ∃ d : Date, d.toText = text := by
  rw [normalText_eq_ok_iff]
  constructor
  · rintro ⟨d, -, htext⟩
    exact ⟨d, htext⟩
  · rintro ⟨d, rfl⟩
    exact ⟨d, ofText_toText d, rfl⟩

theorem toText_lt_iff (hd : d.FourDigits) (he : e.FourDigits) : d.toText < e.toText ↔ Before d e := by
  rw [before_iff, ← not_le, toText_le_iff he hd, Int.not_le]

/-- The text of a day is read as the day, so no two days share one, and reading and writing leaves it
as it is, like no other text. From the year 0 to 9999 the texts are in the order of the days. -/
theorem toText_faithful :
    (∀ d : Date, ofText d.toText = .ok d) ∧ (∀ d e : Date, d.toText = e.toText ↔ d = e) ∧
    (∀ text d, ofText text = .ok d → normalText text = .ok d.toText ∧
      normalText d.toText = .ok d.toText) ∧
    (∀ text, normalText text = .ok text ↔ ∃ d : Date, d.toText = text) ∧
    ∀ d e : Date, d.FourDigits → e.FourDigits → (Before d e ↔ d.toText < e.toText) := by
  refine ⟨ofText_toText, fun d e => toText_injective.eq_iff, fun text d hread => ?_,
    fun text => normalText_eq_self_iff, fun d e hd he => (toText_lt_iff hd he).symm⟩
  exact ⟨normalText_of_read hread, normalText_of_read (ofText_toText d)⟩

theorem toText_faithful_may : ∃ d e : Date, ofText " +2024- 5-07" = .ok d ∧ Before d e ∧
    normalText d.toText = .ok d.toText ∧ d.toText < e.toText := by
  obtain ⟨d, hread, hyears⟩ : ∃ d, ofText " +2024- 5-07" = .ok d ∧
      decide (d = ⟨2024, 5, 7, by decide⟩) = true := Outcome.exists_of_any (by decide +kernel)
  cases of_decide_eq_true hyears
  obtain ⟨-, -, hnormal, -, horder⟩ := toText_faithful
  have hbefore : Before ⟨2024, 5, 7, by decide⟩ ⟨2024, 5, 14, by decide⟩ := by decide
  refine ⟨_, _, hread, hbefore, (hnormal _ _ hread).2, (horder _ _ ?_ ?_).mp hbefore⟩
  · exact ⟨by decide, by decide⟩
  · exact ⟨by decide, by decide⟩

end Planner.Date
