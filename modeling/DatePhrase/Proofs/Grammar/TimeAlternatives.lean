import DatePhrase.Grammar.Casual
import DatePhrase.Proofs.Text.Cuts

/-! Times are found in a text by one list of alternatives and taken apart by another. Main statement:
the two cut alike, span by span and in the same order, so a found span has the written parts that it
is taken apart into. -/
namespace DatePhrase.Casual
open Text
open Vocabulary (cutBlanks)

theorem cutTimeDial_eq : cutTimeDial = (fun _ => ()) <$> cutDial := by
  simp only [cutTimeDial, cutDial, map_bind, map_pure]

theorem cutTimeColon_eq : cutTimeColon = (fun _ => ()) <$> cutColon := by
  simp only [cutTimeColon, cutColon, map_bind, map_pure]

theorem cutTimeSuffixed_eq (g : Casual) : g.cutTimeSuffixed = (fun _ => ()) <$> g.cutSuffixed := by
  simp only [cutTimeSuffixed, cutSuffixed, map_bind, map_pure]

/-- Times are found just where they can be taken apart. -/
theorem cutTime_eq (g : Casual) : g.cutTime = (fun _ => ()) <$> g.cutClock := by
  rw [cutTime, cutClock, cutTimeDial_eq, cutTimeColon_eq, cutTimeSuffixed_eq, ← Cut.map_or,
    ← Cut.map_or]

/-- The text of a found time is the text that is taken apart. -/
theorem cutTime_taken_bind (g : Casual) {α : Type} (f : List Char → Cut α) :
    (g.cutTime.taken >>= fun found => f found.1) = g.cutClock.taken >>= fun found => f found.1 := by
  rw [cutTime_eq, Cut.taken_map, bind_map_left]

theorem timeRule_eq (g : Casual) : g.timeRule = do
    return g.timeMeaning (← g.cutClock.taken).1 :=
  g.cutTime_taken_bind fun text => pure (g.timeMeaning text)

theorem cutTrailing_eq (g : Casual) : g.cutTrailing = Cut.optional do
    let _ ← Cut.optional do
      let _ ← cutBlanks
      Cut.oneOf g.clockIntro
    let _ ← cutBlanks
    return (← g.cutClock.taken).1 := by
  simp only [cutTrailing, cutTime_taken_bind]

end DatePhrase.Casual
