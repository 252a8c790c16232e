import DatePhrase.Calendar.Layout
import Mathlib.Data.List.Basic

/-! How layouts are read and written. A pattern is read part by part, and no part goes on as a
longer one; so a valid pattern with another one behind it is read as both of them, and its text is
that of both. Main statements: texts of valid patterns side by side make the text of the two side by
side, and a pattern without a percent sign is its own text. -/
namespace DatePhrase.Calendar
open Text

namespace Layout
variable {s w rest : List Char} {l m n : Layout}

/-- The marks by which a directive of one number chooses its fill. -/
def flags : List (Char × Fill) := [('-', .none), ('_', .spaces), ('0', .zeros)]

/-- The digits by which a fraction of a second chooses its length. -/
def lengths : List (Char × Nat) := [('3', 3), ('6', 6), ('9', 9)]

/-- A part of a pattern and what it stands for. -/
inductive Part : List Char → Layout → Prop
  | literal {c : Char} (plain : c ≠ '%') : Part [c] [.literal c]
  | letter {c : Char} {l : Layout} (known : letter? c = some l) : Part ['%', c] l
  | filled {flag c : Char} {fill : Fill} {l : Layout} (flagged : (flag, fill) ∈ flags)
      (known : filled? fill c = some l) : Part ['%', flag, c] l
  | fraction : Part ['%', '.', 'f'] [.fraction]
  | pointed {digit : Char} {count : Nat} (long : (digit, count) ∈ lengths) :
      Part ['%', '.', digit, 'f'] [.digits true count]
  | pointless {digit : Char} {count : Nat} (long : (digit, count) ∈ lengths) :
      Part ['%', digit, 'f'] [.digits false count]

theorem Part.ne_nil (part : Part w l) : w ≠ [] := by
  cases part <;> exact List.cons_ne_nil _ _

/-- A letter of a directive begins no longer one. -/
theorem not_mem_of_letter? {c : Char} (known : letter? c = some l) :
    c ∉ ['-', '_', '0', '.', '3', '6', '9'] := by
  intro opens
  simp only [List.mem_cons, List.not_mem_nil, or_false] at opens
  rcases opens with rfl | rfl | rfl | rfl | rfl | rfl | rfl <;> cases known

/-- What stands behind a part makes no difference to it. -/
theorem read?_part (part : Part w l) : read? (w ++ rest) = (read? rest).map (l ++ ·) := by
  cases part with
  | literal plain =>
    rw [List.singleton_append, read?]
    · cases read? rest <;> rfl
    all_goals simp_all
  | letter known =>
    have alone := not_mem_of_letter? known
    simp only [List.cons_append, List.nil_append]
    rw [read?, known]
    · cases read? rest <;> rfl
    all_goals simp_all
  | filled flagged known =>
    simp only [flags, List.mem_cons, Prod.mk.injEq, List.not_mem_nil, or_false] at flagged
    rcases flagged with ⟨rfl, rfl⟩ | ⟨rfl, rfl⟩ | ⟨rfl, rfl⟩ <;>
      simp only [List.cons_append, List.nil_append, read?, known] <;> cases read? rest <;> rfl
  | fraction => cases read : read? rest <;> simp [read?, read]
  | pointed long | pointless long =>
    simp only [lengths, List.mem_cons, Prod.mk.injEq, List.not_mem_nil, or_false] at long
    rcases long with ⟨rfl, rfl⟩ | ⟨rfl, rfl⟩ | ⟨rfl, rfl⟩ <;>
      cases read : read? rest <;> simp [read?, read]

/-- A pattern that is not empty begins with a part. -/
theorem exists_part (read : read? s = some l) (nonempty : s ≠ []) :
    ∃ w m rest n, Part w m ∧ s = w ++ rest ∧ read? rest = some n ∧ l = m ++ n := by
  unfold read? at read
  split at read
  case h_1 => exact absurd rfl nonempty
  case h_13 => cases read
  all_goals
    simp only [Option.bind_eq_bind, Option.bind_eq_some_iff, Option.pure_def,
      Option.some.injEq] at read
  case h_2 | h_3 | h_4 =>
    obtain ⟨m, known, n, later, rfl⟩ := read
    exact ⟨_, m, _, n, .filled (by decide) known, rfl, later, rfl⟩
  case h_5 =>
    obtain ⟨n, later, rfl⟩ := read
    exact ⟨_, _, _, n, .fraction, rfl, later, rfl⟩
  case h_6 | h_7 | h_8 =>
    obtain ⟨n, later, rfl⟩ := read
    exact ⟨_, _, _, n, .pointed (by decide), rfl, later, rfl⟩
  case h_9 | h_10 | h_11 =>
    obtain ⟨n, later, rfl⟩ := read
    exact ⟨_, _, _, n, .pointless (by decide), rfl, later, rfl⟩
  case h_12 =>
    obtain ⟨m, known, n, later, rfl⟩ := read
    exact ⟨_, m, _, n, .letter known, rfl, later, rfl⟩
  case h_14 c rest _ _ _ _ _ _ _ _ _ _ directive unfinished =>
    obtain ⟨n, later, rfl⟩ := read
    refine ⟨[c], _, rest, n, .literal fun percent => ?_, rfl, later, rfl⟩
    cases rest with
    | nil => exact unfinished percent rfl
    | cons d rest => exact directive d rest percent rfl

/-- A pattern is a row of parts. -/
inductive Reads : List Char → Layout → Prop
  | nil : Reads [] []
  | part {w rest : List Char} {m n : Layout} (first : Part w m) (later : Reads rest n) :
      Reads (w ++ rest) (m ++ n)

theorem read?_of_reads (reads : Reads s l) : read? s = some l := by
  induction reads with
  | nil => rfl
  | part first _ ih => rw [read?_part first, ih, Option.map_some]

theorem reads_of_read? {s : List Char} {l : Layout} (read : read? s = some l) : Reads s l := by
  by_cases empty : s = []
  · subst empty
    cases read
    exact .nil
  · obtain ⟨w, m, rest, n, first, rfl, later, rfl⟩ := exists_part read empty
    have shorter : rest.length < (w ++ rest).length := by
      have some := List.length_pos_iff.2 first.ne_nil
      simp only [List.length_append]
      omega
    exact .part first (reads_of_read? later)
  termination_by s.length

theorem read?_eq_some_iff : read? s = some l ↔ Reads s l :=
  ⟨reads_of_read?, read?_of_reads⟩

/-- A valid pattern is read alike whatever stands behind it. -/
theorem read?_append (valid : read? s = some l) (rest : List Char) :
    read? (s ++ rest) = (read? rest).map (l ++ ·) := by
  have reads := read?_eq_some_iff.1 valid
  clear valid
  induction reads with
  | nil => simp
  | part first _ ih =>
    rw [List.append_assoc, read?_part first, ih, Option.map_map]
    exact congrArg (Option.map · _) (funext fun _ => (List.append_assoc ..).symm)

theorem read?_of_plain (plain : '%' ∉ s) : read? s = some (s.map .literal) := by
  induction s with
  | nil => rfl
  | cons c s ih =>
    rw [List.mem_cons, not_or] at plain
    have first : Part [c] [.literal c] := .literal (Ne.symm plain.1)
    rw [← List.singleton_append, read?_part first, ih plain.2]
    rfl

variable {d : Date} {t : Option TimeOfDay}

theorem write?_nil : write? d t [] = some "" := rfl

theorem write?_cons (part : Directive) (l : Layout) : write? d t (part :: l) =
    (part.write? d t).bind fun text => (write? d t l).map (text ++ ·) := by
  simp only [write?, List.mapM_cons, Option.bind_eq_bind, Option.pure_def]
  cases part.write? d t with
  | none => rfl
  | some text =>
    cases l.mapM (·.write? d t) with
    | none => rfl
    | some texts => simp [String.join_cons]

theorem write?_append (l m : Layout) : write? d t (l ++ m) =
    (write? d t l).bind fun text => (write? d t m).map (text ++ ·) := by
  induction l with
  | nil => simp [write?_nil]
  | cons part l ih =>
    rw [List.cons_append, write?_cons, write?_cons, ih]
    cases part.write? d t with
    | none => rfl
    | some text =>
      cases write? d t l with
      | none => rfl
      | some texts => simp [Option.map_map, Function.comp_def, String.append_assoc]

/-- A date with a time has a text under every layout. -/
theorem exists_write? (d : Date) (t : TimeOfDay) (l : Layout) :
    ∃ text, write? d (some t) l = some text := by
  induction l with
  | nil => exact ⟨"", write?_nil⟩
  | cons part l ih =>
    obtain ⟨texts, later⟩ := ih
    obtain ⟨text, first⟩ := Option.isSome_iff_exists.1 (Directive.write?_time_isSome d t part)
    exact ⟨text ++ texts, by rw [write?_cons, first, later]; rfl⟩

theorem write?_literals (s : List Char) : write? d t (s.map .literal) = some (String.ofList s) := by
  induction s with
  | nil => rfl
  | cons c s ih =>
    rw [List.map_cons, write?_cons, ih, Directive.write?, Option.bind_some, Option.map_some,
      ← String.ofList_append, List.singleton_append]

/-- Whether a layout asks for a time. -/
def NeedsTime (l : Layout) : Prop := ∃ part ∈ l, part.needsTime

instance (l : Layout) : Decidable l.NeedsTime := inferInstanceAs (Decidable (∃ part ∈ l, _))

/-- A layout that asks for a time has no text for a bare date. -/
theorem write?_bare_of_needsTime (needs : l.NeedsTime) : write? d none l = none := by
  obtain ⟨part, listed, needs⟩ := needs
  obtain ⟨before, after, rfl⟩ := List.append_of_mem listed
  have none : part.write? d none = none := by
    have missing := Directive.write?_bare_isSome d part
    rw [needs] at missing
    exact Option.not_isSome_iff_eq_none.1 (by simp [missing])
  rw [write?_append, write?_cons, none]
  cases write? d .none before <;> rfl

end Layout

/-- A part that asks for no time is written alike with a time and without. -/
theorem Directive.write?_bare {part : Directive} (untimed : part.needsTime = false) (d : Date)
    (t : TimeOfDay) : part.write? d none = part.write? d (some t) := by
  cases part with
  | number field fill => cases field <;> first | rfl | cases untimed
  | meridiem | lowerMeridiem | fraction | digits => cases untimed
  | _ => rfl

/-- A layout that asks for no time gives a bare date the text that it gives its midnight. -/
theorem Layout.write?_bare {l : Layout} (untimed : ¬ l.NeedsTime) (d : Date) (t : TimeOfDay) :
    write? d none l = write? d (some t) l := by
  induction l with
  | nil => rfl
  | cons part l ih =>
    simp only [NeedsTime, List.mem_cons, exists_eq_or_imp, not_or, Bool.not_eq_true] at untimed
    rw [write?_cons, write?_cons, Directive.write?_bare untimed.1 d t, ih untimed.2]

namespace Instant
variable {t : Instant} {p q text : String}

theorem format_eq_ok_iff : t.format p = .ok text ↔
    ∃ l, Layout.read? p.toList = some l ∧ l.write? t.date (some t.time) = some text := by
  rw [format, ← Option.bind_eq_some_iff]
  cases (Layout.read? p.toList).bind _ <;> simp

theorem format_of_invalid (invalid : Layout.read? p.toList = none) : t.format p = .error ⟨p⟩ := by
  rw [format, invalid, Option.bind_none]

/-- An instant has a text under every valid pattern. -/
theorem exists_format {l : Layout} (valid : Layout.read? p.toList = some l) :
    ∃ text, t.format p = .ok text := by
  obtain ⟨text, written⟩ := Layout.exists_write? t.date t.time l
  exact ⟨text, format_eq_ok_iff.2 ⟨l, valid, written⟩⟩

/-- Behind a valid pattern another one gives its text behind that of the first, if it gives any. -/
theorem format_append (first : t.format p = .ok text) (q text' : String) :
    t.format (p ++ q) = .ok (text ++ text') ↔ t.format q = .ok text' := by
  obtain ⟨l, valid, written⟩ := format_eq_ok_iff.1 first
  simp only [format_eq_ok_iff, String.toList_append, Layout.read?_append valid]
  constructor
  · rintro ⟨_, read, both⟩
    obtain ⟨m, later, rfl⟩ := Option.map_eq_some_iff.1 read
    rw [Layout.write?_append, written, Option.bind_some] at both
    obtain ⟨second, own, same⟩ := Option.map_eq_some_iff.1 both
    exact ⟨m, later, by rw [own, String.append_right_inj text |>.1 same]⟩
  · rintro ⟨m, later, own⟩
    refine ⟨l ++ m, by rw [later, Option.map_some], ?_⟩
    rw [Layout.write?_append, written, Option.bind_some, own, Option.map_some]

/-- A pattern without a percent sign stands for itself. -/
theorem format_of_plain (plain : '%' ∉ p.toList) : t.format p = .ok p :=
  format_eq_ok_iff.2 ⟨_, Layout.read?_of_plain plain, by
    rw [Layout.write?_literals, String.ofList_toList]⟩

end Instant

end DatePhrase.Calendar
