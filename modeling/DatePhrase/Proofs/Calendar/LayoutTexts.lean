import DatePhrase.Proofs.Calendar.Layouts
import Mathlib.Data.List.Basic

/-! What the parts of a pattern are written as. Numbers are written in figures, names in letters;
a percent sign stands in a text only for two of them in the pattern, and no directive is written as
the marks behind its percent sign. Main statement: of a pattern before another one, only characters
that are no percent sign can be written as they stand. -/
namespace DatePhrase.Calendar
open Text

/-- What numbers are written with. -/
def figures : List Char := "0123456789+-. ".toList

/-- A text of digits, signs, points and spaces. -/
def Figured (text : String) : Prop := ∀ c ∈ text.toList, c ∈ figures

instance (text : String) : Decidable (Figured text) := List.decidableBAll _ _

theorem figured_append {a b : String} : Figured (a ++ b) ↔ Figured a ∧ Figured b := by
  simp only [Figured, String.toList_append, List.mem_append, or_imp, forall_and]

theorem figured_toString (n : Nat) : Figured (toString n) := by
  intro c digit
  rw [Nat.toString_eq_ofList_toDigits, String.toList_ofList] at digit
  have plain := Nat.isDigit_of_mem_toDigits (by decide) (by decide) digit
  simp only [Char.isDigit, Bool.and_eq_true, decide_eq_true_eq] at plain
  have bounds : 48 ≤ c.toNat ∧ c.toNat ≤ 57 := plain
  have each : ∀ n < 58, 48 ≤ n → Char.ofNat n ∈ figures := by decide
  have own := each c.toNat (by omega) bounds.1
  rwa [Char.ofNat_toNat] at own

theorem figured_padStart {text : String} {fill : Char} (filled : fill ∈ figures)
    (figured : Figured text) (width : Nat) : Figured (padStart width fill text) := by
  intro c inside
  rw [padStart, String.toList_ofList, List.leftpad, List.mem_append, List.mem_replicate] at inside
  rcases inside with ⟨-, rfl⟩ | own
  · exact filled
  · exact figured c own

theorem figured_writeInt (fill : Fill) (width : Nat) (plus : Bool) (n : Int) :
    Figured (writeInt fill width plus n) := by
  have sign : Figured (if n < 0 then "-" else if plus then "+" else "") := by
    split_ifs <;> decide
  have digits := figured_toString n.natAbs
  cases fill with
  | none => exact figured_append.2 ⟨sign, digits⟩
  | zeros => exact figured_append.2 ⟨sign, figured_padStart (by decide) digits _⟩
  | spaces => exact figured_padStart (by decide) (figured_append.2 ⟨sign, digits⟩) _

theorem figured_writeYear (fill : Fill) (year : Int) : Figured (writeYear fill year) := by
  unfold writeYear
  split <;> exact figured_writeInt _ _ _ _

theorem figured_writeFraction (nano : Nat) : Figured (writeFraction nano) := by
  have point : Figured "." := by decide
  unfold writeFraction
  split_ifs
  · decide
  all_goals exact figured_append.2 ⟨point, figured_writeInt _ _ _ _⟩

/-- Every number is written in figures. -/
theorem Field.figured_write? {field : Field} {fill : Fill} {d : Date} {t : TimeOfDay}
    {text : String} (written : field.write? fill d (some t) = some text) : Figured text := by
  cases field <;> cases written
  case year | isoYear => exact figured_writeYear _ _
  all_goals exact figured_writeInt _ _ _ _

/-- A name of a month has at least three letters, none of them a percent sign. -/
theorem monthTitle_spec (month : Nat) :
    '%' ∉ (monthTitle month).toList ∧ 3 ≤ (monthTitle month).toList.length := by
  unfold monthTitle
  split <;> decide

theorem Weekday.title_spec (w : Weekday) : '%' ∉ w.title.toList ∧ 3 ≤ w.title.toList.length := by
  cases w <;> decide

namespace Directive
variable {part : Directive} {d : Date} {t : TimeOfDay} {text : String}

/-- A part for a name, from three letters up or from two for a half of the day. -/
inductive IsName : Directive → Prop
  | month : IsName .monthName
  | shortMonth : IsName .shortMonthName
  | weekday : IsName .weekdayName
  | shortWeekday : IsName .shortWeekdayName
  | meridiem : IsName .meridiem
  | lowerMeridiem : IsName .lowerMeridiem

theorem IsName.spec (name : IsName part) (written : part.write? d (some t) = some text) :
    '%' ∉ text.toList ∧ 2 ≤ text.toList.length := by
  have three {title : String} (long : 3 ≤ title.toList.length) (clear : '%' ∉ title.toList) :
      '%' ∉ (String.ofList (title.toList.take 3)).toList ∧
        2 ≤ (String.ofList (title.toList.take 3)).toList.length := by
    rw [String.toList_ofList, List.length_take]
    exact ⟨fun inside => clear (List.mem_of_mem_take inside), by omega⟩
  have monthSpec := monthTitle_spec d.month
  have weekdaySpec := d.weekday.title_spec
  cases name <;> cases written
  case month => exact ⟨monthSpec.1, by omega⟩
  case shortMonth => exact three monthSpec.2 monthSpec.1
  case weekday => exact ⟨weekdaySpec.1, by omega⟩
  case shortWeekday => exact three weekdaySpec.2 weekdaySpec.1
  all_goals dsimp only; split <;> decide

/-- A part for a number or a fraction of a second. -/
inductive IsNumeral : Directive → Prop
  | number {field : Field} {fill : Fill} : IsNumeral (.number field fill)
  | fraction : IsNumeral .fraction
  | digits {point : Bool} {count : Nat} : IsNumeral (.digits point count)

theorem IsNumeral.figured (numeral : IsNumeral part)
    (written : part.write? d (some t) = some text) : Figured text := by
  cases numeral with
  | number => exact Field.figured_write? written
  | fraction =>
    cases written
    exact figured_writeFraction _
  | digits =>
    cases written
    refine figured_append.2 ⟨?_, figured_writeInt _ _ _ _⟩
    split <;> decide

/-- A percent sign is written only where it stands for itself. -/
theorem clear_of_write? (written : part.write? d (some t) = some text)
    (other : part ≠ .literal '%') : '%' ∉ text.toList := by
  have clear_of_numeral (numeral : IsNumeral part) : '%' ∉ text.toList :=
    fun inside => absurd (numeral.figured written _ inside) (by decide)
  cases part with
  | literal c =>
    cases written
    rw [String.toList_ofList, List.mem_singleton]
    exact fun same => other (same ▸ rfl)
  | number => exact clear_of_numeral .number
  | fraction => exact clear_of_numeral .fraction
  | digits => exact clear_of_numeral .digits
  | monthName => exact (IsName.month.spec written).1
  | shortMonthName => exact (IsName.shortMonth.spec written).1
  | weekdayName => exact (IsName.weekday.spec written).1
  | shortWeekdayName => exact (IsName.shortWeekday.spec written).1
  | meridiem => exact (IsName.meridiem.spec written).1
  | lowerMeridiem => exact (IsName.lowerMeridiem.spec written).1

end Directive

namespace Layout
variable {l : Layout} {d : Date} {t : TimeOfDay} {text : String}

theorem clear_of_write? (written : l.write? d (some t) = some text)
    (other : .literal '%' ∉ l) : '%' ∉ text.toList := by
  induction l generalizing text with
  | nil =>
    cases written
    decide
  | cons part l ih =>
    rw [List.mem_cons, not_or] at other
    rw [write?_cons, Option.bind_eq_some_iff] at written
    obtain ⟨first, own, written⟩ := written
    obtain ⟨texts, later, rfl⟩ := Option.map_eq_some_iff.1 written
    rw [String.toList_append, List.mem_append, not_or]
    exact ⟨Directive.clear_of_write? own (Ne.symm other.1), ih later other.2⟩

/-- A character that stands for itself in a layout stands in its text. -/
theorem mem_of_literal {c : Char} (written : l.write? d (some t) = some text)
    (listed : .literal c ∈ l) : c ∈ text.toList := by
  induction l generalizing text with
  | nil => cases listed
  | cons part l ih =>
    rw [write?_cons, Option.bind_eq_some_iff] at written
    obtain ⟨first, own, written⟩ := written
    obtain ⟨texts, later, rfl⟩ := Option.map_eq_some_iff.1 written
    rw [String.toList_append, List.mem_append]
    rcases List.mem_cons.1 listed with rfl | behind
    · cases own
      exact .inl (by simp)
    · exact .inr (ih later behind)

theorem write?_singleton (part : Directive) :
    write? d (some t) [part] = part.write? d (some t) := by
  rw [write?_cons, write?_nil]
  cases part.write? d (some t) <;> simp

/-- The letter of a directive stands for a number, for a name, or for a layout with another
character between its parts. -/
theorem of_letter? {c : Char} (known : letter? c = some l) (directive : c ≠ '%') :
    (∃ field fill, number? c = some (field, fill) ∧ l = [.number field fill]) ∨
      (∃ part, l = [part] ∧ part.IsName) ∨
      ∃ other, other ≠ c ∧ .literal other ∈ l ∧ .literal '%' ∉ l := by
  unfold letter? at known
  split at known
  · rename_i field fill number
    exact .inl ⟨field, fill, number, (Option.some.inj known).symm⟩
  · right
    split at known <;> cases known
    · exact .inl ⟨_, rfl, .shortMonth⟩
    · exact .inl ⟨_, rfl, .shortMonth⟩
    · exact .inl ⟨_, rfl, .month⟩
    · exact .inl ⟨_, rfl, .shortWeekday⟩
    · exact .inl ⟨_, rfl, .weekday⟩
    · exact .inl ⟨_, rfl, .meridiem⟩
    · exact .inl ⟨_, rfl, .lowerMeridiem⟩
    · exact .inr ⟨'/', by decide⟩
    · exact .inr ⟨'/', by decide⟩
    · exact .inr ⟨'-', by decide⟩
    · exact .inr ⟨'-', by decide⟩
    · exact .inr ⟨':', by decide⟩
    · exact .inr ⟨':', by decide⟩
    · exact .inr ⟨':', by decide⟩
    · exact .inr ⟨':', by decide⟩
    · exact .inr ⟨':', by decide⟩
    · exact .inr ⟨'\t', by decide⟩
    · exact .inr ⟨'\n', by decide⟩
    · exact absurd rfl directive

/-- A part of a pattern and its text: a character that stands for itself, two percent signs for one,
or a directive, which has no percent sign in its text and is not written as its marks. -/
inductive Piece : List Char → List Char → Prop
  | plain {c : Char} (plain : c ≠ '%') : Piece [c] [c]
  | percent : Piece ['%', '%'] ['%']
  | directive {marks text : List Char} (solid : '%' ∉ marks) (clear : '%' ∉ text)
      (apart : text ≠ marks) : Piece ('%' :: marks) text

/-- Figures are never written for marks with another character among them. -/
theorem Piece.of_figured {marks : List Char} {c : Char} (figured : Figured text)
    (solid : '%' ∉ marks) (marked : c ∈ marks) (other : c ∉ figures) :
    Piece ('%' :: marks) text.toList := by
  refine .directive solid (fun inside => absurd (figured _ inside) (by decide)) fun same => ?_
  exact other (figured c (same ▸ marked))

theorem not_mem_figures_of_number? {c : Char} {found : Field × Fill}
    (number : number? c = some found) : c ∉ figures := by
  intro inside
  have none : figures.all fun c => (number? c).isNone := by decide
  have unread := List.all_eq_true.1 none c inside
  rw [number] at unread
  cases unread

/-- Each part of a pattern is written as such a piece. -/
theorem Part.piece {w : List Char} (part : Part w l) (written : l.write? d (some t) = some text) :
    Piece w text.toList := by
  cases part with
  | literal plain =>
    rw [write?_singleton] at written
    cases written
    rw [String.toList_ofList]
    exact .plain plain
  | @letter c _ known =>
    by_cases percent : c = '%'
    · subst percent
      cases known
      cases written
      exact .percent
    · have solid : '%' ∉ [c] := by simpa using Ne.symm percent
      obtain ⟨field, fill, number, rfl⟩ | ⟨part, rfl, name⟩ | ⟨other, apart, listed, clear⟩ :=
        of_letter? known percent
      · rw [write?_singleton] at written
        exact .of_figured (Field.figured_write? written) solid (List.mem_singleton_self c)
          (not_mem_figures_of_number? number)
      · rw [write?_singleton] at written
        obtain ⟨clear, long⟩ := name.spec written
        refine .directive solid clear fun same => ?_
        rw [same, List.length_singleton] at long
        omega
      · refine .directive solid (clear_of_write? written clear) fun same => ?_
        have inside := mem_of_literal written listed
        rw [same, List.mem_singleton] at inside
        exact apart inside
  | @filled flag c fill _ flagged known =>
    obtain ⟨⟨field, usual⟩, number, rfl⟩ := Option.map_eq_some_iff.1 known
    rw [write?_singleton] at written
    have flag_ne : ∀ pair ∈ flags, pair.1 ≠ '%' := by decide
    have letter_ne : c ≠ '%' := by
      rintro rfl
      cases number
    refine .of_figured (c := c) (Field.figured_write? written) ?_ (by simp)
      (not_mem_figures_of_number? number)
    simp [Ne.symm (flag_ne _ flagged), Ne.symm letter_ne]
  | fraction =>
    rw [write?_singleton] at written
    exact .of_figured (c := 'f') (Directive.IsNumeral.fraction.figured written) (by decide)
      (by decide) (by decide)
  | pointed long | pointless long =>
    rw [write?_singleton] at written
    have digit_ne : ∀ pair ∈ lengths, pair.1 ≠ '%' := by decide
    refine .of_figured (c := 'f') (Directive.IsNumeral.digits.figured written) ?_ (by simp)
      (by decide)
    simp [Ne.symm (digit_ne _ long)]

theorem Piece.ne_nil {w o : List Char} (piece : Piece w o) : w ≠ [] := by
  cases piece <;> exact List.cons_ne_nil _ _

/-- A text in which a part stands as it is has nothing else, and the part no percent sign. -/
theorem Piece.plain_of_eq {w o e a : List Char} (piece : Piece w o) (same : o = e ++ (w ++ a)) :
    e = [] ∧ a = [] ∧ '%' ∉ w := by
  have length := congrArg List.length same
  cases piece with
  | plain plain =>
    simp only [List.length_append, List.length_singleton] at length
    exact ⟨List.length_eq_zero_iff.1 (by omega), List.length_eq_zero_iff.1 (by omega),
      by simpa using Ne.symm plain⟩
  | percent =>
    simp only [List.length_append, List.length_cons, List.length_nil] at length
    omega
  | directive solid clear apart => exact absurd (same ▸ by simp) clear

end Layout

/-- The text of the instant under the pattern. -/
def Instant.Renders (t : Instant) (pattern text : List Char) : Prop :=
  ∃ l, Layout.read? pattern = some l ∧ l.write? t.date (some t.time) = some (String.ofList text)

namespace Instant
variable {t : Instant} {s p q x y z e u rest : List Char}

theorem format_eq_ok_iff_renders {p text : String} :
    t.format p = .ok text ↔ t.Renders p.toList text.toList := by
  rw [format_eq_ok_iff, Renders, String.ofList_toList]

theorem Renders.unique (first : t.Renders s x) (second : t.Renders s y) : x = y := by
  obtain ⟨l, read, written⟩ := first
  obtain ⟨m, read', written'⟩ := second
  obtain rfl : l = m := Option.some.inj (read.symm.trans read')
  exact String.ofList_injective (Option.some.inj (written.symm.trans written'))

/-- A pattern that is not empty begins with a piece, and its text with that of the piece. -/
theorem Renders.exists_piece (renders : t.Renders s x) (nonempty : s ≠ []) :
    ∃ w o rest y, Layout.Piece w o ∧ s = w ++ rest ∧ t.Renders rest y ∧ x = o ++ y := by
  obtain ⟨l, read, written⟩ := renders
  obtain ⟨w, m, rest, n, part, rfl, later, rfl⟩ := Layout.exists_part read nonempty
  rw [Layout.write?_append, Option.bind_eq_some_iff] at written
  obtain ⟨o, own, written⟩ := written
  obtain ⟨y, behind, both⟩ := Option.map_eq_some_iff.1 written
  refine ⟨w, o.toList, rest, y.toList, part.piece own, rfl, ⟨n, later, ?_⟩, ?_⟩
  · rw [behind, String.ofList_toList]
  · simpa using (congrArg String.toList both).symm

/-- Characters that are no percent sign stand in the text as in the pattern. -/
theorem Renders.plain_append (plain : '%' ∉ u) (renders : t.Renders rest y) :
    t.Renders (u ++ rest) (u ++ y) := by
  obtain ⟨l, read, written⟩ := renders
  refine ⟨u.map .literal ++ l, ?_, ?_⟩
  · rw [Layout.read?_append (Layout.read?_of_plain plain), read, Option.map_some]
  · rw [Layout.write?_append, Layout.write?_literals, written, Option.bind_some, Option.map_some,
      String.ofList_append]

/-- A percent sign in front makes two of one behind it, or a directive of the marks behind it. -/
theorem Renders.percent_cases (renders : t.Renders ('%' :: q) x) :
    (∃ rest y, q = '%' :: rest ∧ x = '%' :: y ∧ t.Renders rest y) ∨
      ∃ marks o rest y, q = marks ++ rest ∧ x = o ++ y ∧ '%' ∉ marks ∧ '%' ∉ o ∧ o ≠ marks ∧
        t.Renders rest y := by
  obtain ⟨w, o, rest, y, piece, whole, later, rfl⟩ := renders.exists_piece (List.cons_ne_nil _ _)
  cases piece with
  | plain plain =>
    simp only [List.singleton_append, List.cons.injEq] at whole
    exact absurd whole.1.symm plain
  | percent =>
    simp only [List.cons_append, List.nil_append, List.cons.injEq, true_and] at whole
    exact .inl ⟨rest, y, whole, rfl, later⟩
  | directive solid clear apart =>
    simp only [List.cons_append, List.cons.injEq, true_and] at whole
    exact .inr ⟨_, o, rest, y, whole, rfl, solid, clear, apart, later⟩

/-- A percent sign before a valid pattern is never written as it stands. -/
theorem Renders.not_percent {q z e : List Char} (valid : t.Renders q z) :
    ¬ t.Renders ('%' :: q) (e ++ '%' :: z) := by
  intro whole
  rcases whole.percent_cases with
    ⟨rest, y, rfl, same, later⟩ | ⟨marks, o, rest, y, rfl, same, solid, clear, apart, later⟩
  · -- two signs for one: the sign that opens the valid pattern has lost its own marks
    rcases valid.percent_cases with
      ⟨rest', y', rfl, rfl, later'⟩ | ⟨marks, o, rest', y', rfl, rfl, solid, clear, apart, later'⟩
    · obtain ⟨e', shorter⟩ : ∃ e', y = e' ++ '%' :: y' := by
        cases e with
        | nil => exact ⟨[], (List.cons.inj same).2.symm⟩
        | cons c e => exact ⟨e ++ ['%'], by simpa using (List.cons.inj same).2.symm⟩
      exact later'.not_percent (shorter ▸ later)
    · have front : e ++ '%' :: o = '%' :: marks := by
        rw [later.unique (later'.plain_append solid)] at same
        exact List.append_cancel_right (by simpa using same)
      cases e with
      | nil => exact apart (List.cons.inj front).2
      | cons c e => exact solid ((List.cons.inj front).2 ▸ by simp)
  · -- a directive of marks that the valid pattern begins with
    rw [valid.unique (later.plain_append solid)] at same
    have front : e ++ '%' :: marks = o := List.append_cancel_right (by simpa using same)
    exact clear (front ▸ by simp)
  termination_by q.length

/-- A part that goes on behind a percent sign inside of it is that sign and the next one. -/
theorem eq_percent_of_piece {p u o : List Char} (piece : Layout.Piece (p ++ u) o) (some : p ≠ [])
    (inside : '%' ∈ u) : p = ['%'] := by
  obtain ⟨c, p, rfl⟩ := List.exists_cons_of_ne_nil some
  generalize split : c :: p ++ u = w at piece
  cases piece with
  | plain plain =>
    obtain ⟨rfl, none⟩ := List.cons.inj split
    simp [(List.append_eq_nil_iff.1 none).2] at inside
  | percent =>
    obtain ⟨rfl, others⟩ := List.cons.inj split
    cases p with
    | nil => rfl
    | cons d p =>
      have none := (List.cons.inj others).2
      simp [(List.append_eq_nil_iff.1 none).2] at inside
  | directive solid clear apart =>
    obtain ⟨rfl, rfl⟩ := List.cons.inj split
    exact absurd (List.mem_append_right p inside) solid

/-- Of a pattern before a valid one only plain characters are written as they stand, and nothing
before them. -/
theorem Renders.plain_of_eq {p q z e : List Char} (valid : t.Renders q z)
    (whole : t.Renders (p ++ q) (e ++ (p ++ z))) : e = [] ∧ '%' ∉ p := by
  by_cases empty : p = []
  · subst empty
    exact ⟨List.append_left_eq_self.1 (whole.unique valid), List.not_mem_nil⟩
  · obtain ⟨w, o, rest, y, piece, split, later, same⟩ :=
      whole.exists_piece (by simp [empty])
    rcases List.append_eq_append_iff.1 split with ⟨u, rfl, rfl⟩ | ⟨p', rfl, rfl⟩
    · -- the last part of `p` goes on into `q`
      by_cases inside : '%' ∈ u
      · obtain rfl := eq_percent_of_piece piece empty inside
        exact absurd whole valid.not_percent
      · rw [valid.unique (later.plain_append inside)] at same
        have own : e ++ (p ++ u) = o := List.append_cancel_right (by simpa using same)
        obtain ⟨first, -, plain⟩ := piece.plain_of_eq (a := []) (by simpa using own.symm)
        exact ⟨first, fun listed => plain (List.mem_append_left u listed)⟩
    · -- a part of `p` is written, and the others behind it
      have shorter : p'.length < (w ++ p').length := by
        have some := List.length_pos_iff.2 piece.ne_nil
        simp only [List.length_append]
        omega
      have both : (e ++ w) ++ (p' ++ z) = o ++ y := by simpa using same
      rcases List.append_eq_append_iff.1 both with ⟨a, own, behind⟩ | ⟨a, own, rfl⟩
      · obtain ⟨rfl, rfl, plain⟩ := piece.plain_of_eq (a := a) (by simpa using own)
        obtain ⟨-, others⟩ := valid.plain_of_eq (p := p') (e := []) (behind ▸ later)
        exact ⟨rfl, by simp [plain, others]⟩
      · obtain ⟨rfl, others⟩ := valid.plain_of_eq later
        obtain ⟨rfl, -, plain⟩ := piece.plain_of_eq (a := []) (by simpa using own.symm)
        exact ⟨rfl, by simp [plain, others]⟩
  termination_by p.length

end Instant

end DatePhrase.Calendar
