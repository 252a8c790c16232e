import DatePhrase.Phrase.Recognized

/-! Which shape a recognized phrase has: a reading as one shape is a phrase of that shape, so the
phrase that a text is recognized as tells which shape claimed it. -/
namespace DatePhrase

theorem Shape.mem_all (shape : Shape) : shape ∈ all := by cases shape <;> decide

namespace Vocabulary
variable {v : Vocabulary} {text : String}

theorem shape_of_recognizeAs {shape : Shape} {phrase : Recognized}
    (h : v.recognizeAs text shape = some phrase) : phrase.shape = shape := by
  cases shape <;> simp only [recognizeAs, Option.bind_eq_bind, Option.bind_eq_some_iff,
    Option.map_eq_some_iff, Option.pure_def, Option.some.injEq] at h
  case immediate =>
    obtain ⟨word, -, rfl⟩ := h
    rfl
  case combinedOffset =>
    obtain ⟨counts, -, first, -, second, -, rfl⟩ := h
    rfl
  case relativeOffset =>
    obtain ⟨count, -, offset, -, rfl⟩ := h
    rfl
  case weekdayRange =>
    obtain ⟨days, -, rfl⟩ := h
    rfl
  case weekdayAt =>
    obtain ⟨parts, -, week, -, rfl⟩ := h
    rfl
  case weekday =>
    obtain ⟨parts, -, week, -, rfl⟩ := h
    rfl

/-- A recognized phrase is the text read as the shape of that phrase. -/
theorem recognizeAs_of_recognize {phrase : Recognized} (h : v.recognize text = some phrase) :
    v.recognizeAs text phrase.shape = some phrase := by
  obtain ⟨shape, -, read⟩ := List.exists_of_findSome?_eq_some h
  rw [shape_of_recognizeAs read]
  exact read

/-- A text that is not recognized cannot be read as any shape. -/
theorem recognizeAs_of_not_recognized (h : v.recognize text = none) (shape : Shape) :
    v.recognizeAs text shape = none :=
  List.findSome?_eq_none_iff.1 h shape shape.mem_all

end Vocabulary

end DatePhrase
