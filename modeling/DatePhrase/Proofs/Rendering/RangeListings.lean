import DatePhrase.Command
import DatePhrase.Proofs.Calendar.Layouts
import DatePhrase.Proofs.Engine.RangeShape

/-! What the range command prints for a range. The ends in its header are midnights, the days below
are bare dates, so a layout that asks for a time has a text in the header only. Main statement: with
a valid layout the command prints the header, and below it every day exactly if the layout asks for
no time; with one that does, it prints nothing but the dash of each day. -/
namespace DatePhrase
open Calendar

/-- A whole listing: a header for both ends, and below it one line for each day in order, with the
day written as the ends are. -/
structure Settings.Lists (s : Settings) (r : DateRange) (header : String) (lines : List String) :
    Prop where
  header_eq : s.renderRange r = .ok header
  length_eq : (lines.length : Int) = r.stop.number - r.start.number + 1
  line : ∀ (i : Nat) (line : String), lines[i]? = some line →
    ∃ (d : Date) (date : String), d.number = r.start.number + i ∧
      d.midnight.format s.format = .ok date ∧
      line = "- " ++ date ++ " " ++ d.weekday.title ++ "\n"

/-- A header with lines below it. -/
def sheet (header : String) (lines : List String) : String := header ++ "\n" ++ String.join lines

theorem sheet_right_inj {header : String} {lines lines' : List String} :
    sheet header lines = sheet header lines' ↔ String.join lines = String.join lines' :=
  String.append_right_inj _

namespace Settings
variable {s : Settings} {layout : Layout}

theorem renderRange_of_invalid (invalid : Layout.read? s.format.toList = none) (r : DateRange) :
    s.renderRange r = .error ⟨s.format⟩ := by
  rw [renderRange, Instant.format_of_invalid invalid]
  rfl

theorem exists_renderRange (valid : Layout.read? s.format.toList = some layout) (r : DateRange) :
    ∃ header, s.renderRange r = .ok header := by
  obtain ⟨start, first⟩ := r.start.midnight.exists_format valid
  obtain ⟨stop, last⟩ := r.stop.midnight.exists_format valid
  exact ⟨start ++ " to " ++ stop, by rw [renderRange, first, last]; rfl⟩

/-- The lines of a whole listing end in line breaks, so they are no row of dashes. -/
theorem Lists.not_dashes {r : DateRange} {header : String} {lines : List String}
    (lists : s.Lists r header lines) (ordered : r.start ≤ r.stop) (n : Nat) :
    String.join lines ≠ String.join (List.replicate n "- ") := by
  intro same
  have ordered : r.start.number ≤ r.stop.number := ordered
  have some := lists.length_eq
  obtain ⟨line, rest, rfl⟩ := List.exists_cons_of_length_pos (l := lines) (by omega)
  obtain ⟨d, date, -, -, rfl⟩ := lists.line 0 _ rfl
  have inside : '\n' ∈ (String.join (List.replicate n "- ")).toList := by
    rw [← same, String.join_cons]
    simp
  rw [String.toList_join, List.mem_flatMap] at inside
  obtain ⟨dash, listed, inside⟩ := inside
  obtain ⟨-, rfl⟩ := List.mem_replicate.1 listed
  exact absurd inside (by decide)

end Settings

namespace Context
variable {c : Context} {layout : Layout} {r : DateRange} {header : String}

/-- Without colours the entry of a day has its date as an end of a range would have it. -/
theorem dayEntry_of_untimed (plain : c.colors = false)
    (valid : Layout.read? c.settings.format.toList = some layout) (untimed : ¬ layout.NeedsTime)
    (d : Date) : ∃ date, d.midnight.format c.settings.format = .ok date ∧
      c.dayEntry d = "- " ++ date ++ " " ++ d.weekday.title ++ "\n" := by
  obtain ⟨date, written⟩ := Layout.exists_write? d .midnight layout
  have bare : d.format? c.settings.format = some date := by
    rw [Date.format?, valid, Option.bind_some, Layout.write?_bare untimed, written]
  refine ⟨date, Instant.format_eq_ok_iff.2 ⟨layout, valid, written⟩, ?_⟩
  simp only [dayEntry, bare, dim, styled, plain, Bool.false_eq_true, if_false]

theorem dayEntry_of_needsTime (valid : Layout.read? c.settings.format.toList = some layout)
    (needs : layout.NeedsTime) (d : Date) : c.dayEntry d = "- " := by
  have bare : d.format? c.settings.format = none := by
    rw [Date.format?, valid, Option.bind_some, Layout.write?_bare_of_needsTime needs]
  simp only [dayEntry, bare]

theorem lists_of_untimed (plain : c.colors = false)
    (valid : Layout.read? c.settings.format.toList = some layout) (untimed : ¬ layout.NeedsTime)
    {today : Date} (within : r.WithinWeek today) (top : c.settings.renderRange r = .ok header) :
    c.settings.Lists r header (r.days.map c.dayEntry) where
  header_eq := top
  length_eq := by rw [List.length_map, within.length_days]
  line i line listed := by
    rw [List.getElem?_map] at listed
    obtain ⟨d, day, rfl⟩ := Option.map_eq_some_iff.1 listed
    obtain ⟨date, written, entry⟩ := dayEntry_of_untimed plain valid untimed d
    exact ⟨d, date, within.number_of_day day, written, entry⟩

/-- A text that names a range is answered by the listing of that range. -/
theorem range_of_named {text : String}
    (named : c.engine.range text c.settings.weekStart c.now = .ok (some r)) :
    c.range text .text = attempt "could not format range" (c.listing r) := by
  rw [range, named]
  rfl

theorem listing_eq_ok (plain : c.colors = false) (top : c.settings.renderRange r = .ok header) :
    c.listing r = .ok (sheet header (r.days.map c.dayEntry)) := by
  rw [listing, top]
  simp only [bold, styled, plain, Bool.false_eq_true, if_false]
  rfl

/-- For a text that names a range the command fails if the layout of dates is not valid. Otherwise
it prints the header, and below it the whole listing exactly if the layout asks for no time; if it
asks for one, nothing but a dash for each day. -/
theorem range_lists (c : Context) (text : String) (plain : c.colors = false)
    (inside : c.now.date.Inside 14)
    (named : c.engine.range text c.settings.weekStart c.now = .ok (some r)) :
    (Layout.read? c.settings.format.toList = none →
      c.range text .text = .error (.layout "could not format range" ⟨c.settings.format⟩)) ∧
    ∀ layout, Layout.read? c.settings.format.toList = some layout →
      ∃ header out, c.settings.renderRange r = .ok header ∧ c.range text .text = .ok out ∧
        ((∃ lines, c.settings.Lists r header lines ∧ out = sheet header lines) ↔
          ¬ layout.NeedsTime) ∧
        (layout.NeedsTime → out = sheet header (List.replicate r.days.length "- ")) := by
  obtain ⟨found, answer, shape⟩ := DateRange.ofText_eq_ok c.engine.vocabulary
    (Engine.normalize text) (c.engine.weekStart c.settings.weekStart) inside
  obtain rfl : found = some r := Except.ok.inj (answer.symm.trans named)
  have within := (shape r rfl).1
  rw [range_of_named named]
  constructor
  · intro invalid
    rw [listing, Settings.renderRange_of_invalid invalid]
    rfl
  · intro layout valid
    obtain ⟨header, top⟩ := Settings.exists_renderRange valid r
    have dashes (needs : layout.NeedsTime) :
        r.days.map c.dayEntry = List.replicate r.days.length "- " :=
      List.eq_replicate_iff.2 ⟨by rw [List.length_map], fun entry listed => by
        obtain ⟨d, -, rfl⟩ := List.mem_map.1 listed
        exact dayEntry_of_needsTime valid needs d⟩
    refine ⟨header, sheet header (r.days.map c.dayEntry), top, ?_, ⟨?_, ?_⟩, ?_⟩
    · rw [listing_eq_ok plain top]
      rfl
    · rintro ⟨lines, lists, same⟩ needs
      rw [dashes needs, sheet_right_inj] at same
      exact lists.not_dashes within.ordered _ same.symm
    · exact fun untimed => ⟨_, lists_of_untimed plain valid untimed within top, rfl⟩
    · exact fun needs => by rw [dashes needs]

/-- The coming English week on a Friday, under the layout of dates that nobody has changed. -/
theorem range_lists_nextWeek :
    let t := (Table.empty.insert "en" "week" "week").insert "en" "next" "next"
    let friday : Instant := ⟨⟨20742, by decide, by decide⟩, .midnight⟩
    let week : DateRange := .between ⟨20744, by decide, by decide⟩ ⟨20750, by decide, by decide⟩
    let c : Context := ⟨.default, .ofPool t ["en"] [], friday, false⟩
    friday.date.Inside 14 ∧
      c.engine.range "Next week" c.settings.weekStart friday = .ok (some week) ∧
      ∃ lines, c.settings.Lists week "2026-10-18 to 2026-10-24" lines ∧
        c.range "Next week" .text = .ok (sheet "2026-10-18 to 2026-10-24" lines) := by
  intro t friday week c
  have inside : friday.date.Inside 14 := by decide
  have named : c.engine.range "Next week" c.settings.weekStart friday = .ok (some week) := by
    decide +kernel
  have valid : Layout.read? c.settings.format.toList = some Layout.dashed := by decide
  obtain ⟨header, out, top, printed, whole, -⟩ :=
    (range_lists c "Next week" rfl inside named).2 _ valid
  have ends : c.settings.renderRange week = .ok "2026-10-18 to 2026-10-24" := by decide +kernel
  obtain rfl : header = "2026-10-18 to 2026-10-24" := Except.ok.inj (top.symm.trans ends)
  obtain ⟨lines, lists, rfl⟩ := whole.2 (by decide)
  exact ⟨inside, named, lines, lists, printed⟩

/-- Under the layout of times the coming week is printed as its ends and seven dashes. -/
theorem not_lists_of_range :
    ¬ ∀ (c : Context) (text : String) (r : DateRange) (out : String), c.colors = false →
      c.now.date.Inside 14 →
      c.engine.range text c.settings.weekStart c.now = .ok (some r) →
      c.range text .text = .ok out →
      ∃ header lines, c.settings.Lists r header lines ∧ out = sheet header lines := by
  intro complete
  let t := (Table.empty.insert "en" "week" "week").insert "en" "next" "next"
  let friday : Instant := ⟨⟨20742, by decide, by decide⟩, .midnight⟩
  let week : DateRange := .between ⟨20744, by decide, by decide⟩ ⟨20750, by decide, by decide⟩
  let c : Context := ⟨{ Settings.default with format := "%H:%M" }, .ofPool t ["en"] [], friday,
    false⟩
  have named : c.engine.range "Next week" c.settings.weekStart friday = .ok (some week) := by
    decide +kernel
  have printed : c.range "Next week" .text =
      .ok (sheet "00:00 to 00:00" (List.replicate 7 "- ")) := by decide +kernel
  have ends : c.settings.renderRange week = .ok "00:00 to 00:00" := by decide +kernel
  obtain ⟨header, lines, lists, same⟩ := complete c _ week _ rfl (by decide) named printed
  obtain rfl : header = "00:00 to 00:00" := Except.ok.inj (lists.header_eq.symm.trans ends)
  exact lists.not_dashes (by decide) 7 (sheet_right_inj.1 same).symm

end Context

end DatePhrase
