import DatePhrase.Proofs.Text.Folded
import DatePhrase.Proofs.Text.Occurrences
import DatePhrase.Proofs.Text.Search

/-! Cuts that neither begin nor end with blanks. Blanks inside what they take do not matter: a
composite opens as its first part does and ends as its last part does. A word without blanks at its
ends has none there in other letters either, since case folding makes no blank and takes none away.
Main statement: a part of a text with such ends lies in the text without the blanks around it. -/
namespace DatePhrase.Text

theorem isBlank_of_fold {c : Char} (blank : isBlank (fold c)) : isBlank c := by
  have listed : ∀ c, isBlank c → Ranges.has (blankCodes.map fun n => (n, n)) c.toNat :=
    fun c h => Ranges.has_iff.2 ⟨(c.toNat, c.toNat),
      List.mem_map_of_mem (toNat_mem_blankCodes h), Nat.le_refl _, Nat.le_refl _⟩
  exact of_fold listed (by decide) (by decide +kernel) (by decide) blank

@[simp] theorem isBlank_fold (c : Char) : isBlank (fold c) = isBlank c := by
  rw [Bool.eq_iff_iff]
  refine ⟨isBlank_of_fold, fun blank => ?_⟩
  rwa [(folded_of_isBlank blank).2]

theorem stops_map_fold {s : List Char} : Stops isBlank (s.map fold) ↔ Stops isBlank s := by
  simp [Stops]

theorem tight_map_fold {s : List Char} : Tight (s.map fold) ↔ Tight s := by
  simp [Tight]

theorem tight_of_clear {s : List Char} (clear : ∀ c ∈ s, isBlank c = false) : Tight s :=
  fun c hc => clear c (List.mem_of_mem_getLast? hc)

theorem Tight.append {s rest : List Char} (front : Tight s) (back : Tight rest) :
    Tight (s ++ rest) := by
  by_cases nothing : rest = []
  · rwa [nothing, List.append_nil]
  · exact (tight_append nothing).2 back

/-- A part of a text without blanks at its ends. -/
structure Solid (part : List Char) : Prop where
  nonempty : part ≠ []
  stops : Stops isBlank part
  tight : Tight part

theorem solid_iff {part : List Char} :
    Solid part ↔ part ≠ [] ∧ Stops isBlank part ∧ Tight part :=
  ⟨fun ⟨nonempty, stops, tight⟩ => ⟨nonempty, stops, tight⟩,
    fun ⟨nonempty, stops, tight⟩ => ⟨nonempty, stops, tight⟩⟩

instance (part : List Char) : Decidable (Solid part) := decidable_of_iff _ solid_iff.symm

/-- A word has no blanks at its ends in other letters either. -/
theorem Solid.of_spells {words : List String} {part : List Char}
    (solid : ∀ w ∈ words, Solid w.toList) (spelled : Cut.Spells words part) : Solid part := by
  obtain ⟨w, listed, same⟩ := spelled
  obtain ⟨nonempty, stops, tight⟩ := solid w listed
  refine ⟨?_, stops_map_fold.1 (same ▸ stops_map_fold.2 stops),
    tight_map_fold.1 (same ▸ tight_map_fold.2 tight)⟩
  rintro rfl
  exact nonempty (List.map_eq_nil_iff.1 same.symm)

/-- Trimming leaves the text up to the blanks at its end. -/
theorem exists_trimEnd (s : List Char) : ∃ gap, (∀ c ∈ gap, isBlank c) ∧ trimEnd s ++ gap = s := by
  refine ⟨(s.reverse.takeWhile isBlank).reverse, fun c hc => ?_, ?_⟩
  · exact List.mem_takeWhile_imp (List.mem_reverse.1 hc)
  · rw [trimEnd, ← List.reverse_append, List.takeWhile_append_dropWhile, List.reverse_reverse]

/-- A part without blanks at its ends lies in the text without the blanks around it. -/
theorem Solid.within_trimBlanks {text before part after : List Char} (solid : Solid part)
    (parts : text = before ++ (part ++ after)) : ∃ x y,
      trimBlanks text = x ++ (part ++ y) ∧ before = text.takeWhile isBlank ++ x := by
  have whole : text.takeWhile isBlank ++ trimStart text = text := List.takeWhile_append_dropWhile
  have blank : ∀ c ∈ text.takeWhile isBlank, isBlank c := fun c hc => List.mem_takeWhile_imp hc
  obtain ⟨x, started, place⟩ :=
    occurs_behind_run blank solid.nonempty solid.stops (whole.trans parts)
  obtain ⟨gap, blank', ended⟩ := exists_trimEnd (trimStart text)
  obtain ⟨y, found⟩ :=
    occurs_before_blanks blank' solid.nonempty solid.tight (ended.trans started)
  exact ⟨x, y, found, place⟩

namespace Cut
variable {α β : Type} {c d : Cut α}

/-- The cut takes nothing off a text that begins with a blank. -/
def Opens (c : Cut α) : Prop := ∀ s a rest, (a, rest) ∈ c s → Stops isBlank s

/-- The cut takes nothing or what does not end in a blank. -/
def Closes (c : Cut α) : Prop := ∀ s a rest, (a, rest) ∈ c s → ∃ t, s = t ++ rest ∧ Tight t

/-- The cut takes something that does not end in a blank. -/
def Ends (c : Cut α) : Prop :=
  ∀ s a rest, (a, rest) ∈ c s → ∃ t, s = t ++ rest ∧ t ≠ [] ∧ Tight t

theorem Opens.bind {f : α → Cut β} (hc : c.Opens) : (c >>= f).Opens := by
  intro s b rest h
  obtain ⟨a, mid, first, -⟩ := mem_bind.1 h
  exact hc s a mid first

theorem Opens.or (hc : c.Opens) (hd : d.Opens) : (c.or d).Opens := by
  intro s a rest h
  rcases mem_or.1 h with first | second
  · exact hc s a rest first
  · exact hd s a rest second

theorem Opens.taken (hc : c.Opens) (forward : c.Forward) : c.taken.Opens := by
  rintro s ⟨t, a⟩ rest h
  exact hc s a rest ((mem_taken forward).1 h).1

theorem Ends.closes (hc : c.Ends) : c.Closes := by
  intro s a rest h
  obtain ⟨t, parts, -, tight⟩ := hc s a rest h
  exact ⟨t, parts, tight⟩

theorem closes_pure (a : α) : (pure a : Cut α).Closes := by
  intro s b rest h
  obtain ⟨-, rfl⟩ := mem_pure.1 h
  exact ⟨[], rfl, nofun⟩

theorem Closes.bind {f : α → Cut β} (hc : c.Closes) (hf : ∀ a, (f a).Closes) :
    (c >>= f).Closes := by
  intro s b rest h
  obtain ⟨a, mid, first, later⟩ := mem_bind.1 h
  obtain ⟨t, rfl, tight⟩ := hc s a mid first
  obtain ⟨u, rfl, tight'⟩ := hf a mid b rest later
  exact ⟨t ++ u, (List.append_assoc t u rest).symm, tight.append tight'⟩

theorem Ends.bind {f : α → Cut β} (hc : c.Ends) (hf : ∀ a, (f a).Closes) : (c >>= f).Ends := by
  intro s b rest h
  obtain ⟨a, mid, first, later⟩ := mem_bind.1 h
  obtain ⟨t, rfl, nonempty, tight⟩ := hc s a mid first
  obtain ⟨u, rfl, tight'⟩ := hf a mid b rest later
  exact ⟨t ++ u, (List.append_assoc t u rest).symm, by simp [nonempty], tight.append tight'⟩

/-- Where the last part ends so does the whole, whatever stands before. -/
theorem Ends.behind {f : α → Cut β} (forward : c.Forward) (hf : ∀ a, (f a).Ends) :
    (c >>= f).Ends := by
  intro s b rest h
  obtain ⟨a, mid, first, later⟩ := mem_bind.1 h
  obtain ⟨t, rfl⟩ := forward s a mid first
  obtain ⟨u, rfl, nonempty, tight⟩ := hf a mid b rest later
  exact ⟨t ++ u, (List.append_assoc t u rest).symm, by simp [nonempty],
    (tight_append nonempty).2 tight⟩

theorem Ends.or (hc : c.Ends) (hd : d.Ends) : (c.or d).Ends := by
  intro s a rest h
  rcases mem_or.1 h with first | second
  · exact hc s a rest first
  · exact hd s a rest second

theorem Ends.taken (hc : c.Ends) (forward : c.Forward) : c.taken.Ends := by
  rintro s ⟨t, a⟩ rest h
  exact hc s a rest ((mem_taken forward).1 h).1

theorem Closes.optional (hc : c.Ends) : c.optional.Closes := by
  intro s a rest h
  rcases mem_optional.1 h with ⟨b, rfl, read⟩ | ⟨rfl, rfl⟩
  · exact hc.closes s b rest read
  · exact ⟨[], rfl, nofun⟩

section Classes
variable {p : Char → Bool} (clear : ∀ c, p c → isBlank c = false)
include clear

theorem opens_char : (char p).Opens := by
  intro s x rest h
  obtain ⟨inside, rfl⟩ := mem_char.1 h
  exact stops_cons.2 (clear x inside)

theorem opens_oneTo (n : Nat) : (oneTo n p).Opens := by
  cases n with
  | zero => exact nofun
  | succ n => exact (opens_char clear).bind

theorem opens_exactly (n : Nat) : (exactly p (n + 1)).Opens := (opens_char clear).bind

theorem ends_oneTo (n : Nat) : (oneTo n p).Ends := by
  intro s t rest h
  obtain ⟨parts, nonempty, -, all⟩ := mem_oneTo.1 h
  exact ⟨t, parts, nonempty, tight_of_clear fun c hc => clear c (all c hc)⟩

theorem ends_exactly (n : Nat) : (exactly p (n + 1)).Ends := by
  intro s t rest h
  obtain ⟨parts, count, all⟩ := mem_exactly.1 h
  refine ⟨t, parts, ?_, tight_of_clear fun c hc => clear c (all c hc)⟩
  rintro rfl
  cases count

end Classes

section Words
variable {words : List String} (solid : ∀ w ∈ words, Solid w.toList)
include solid

theorem opens_oneOf : (oneOf words).Opens := by
  intro s t rest h
  obtain ⟨rfl, spelled⟩ := mem_oneOf_iff.1 h
  have part := Solid.of_spells solid spelled
  exact (stops_append part.nonempty).2 part.stops

theorem ends_oneOf : (oneOf words).Ends := by
  intro s t rest h
  obtain ⟨parts, spelled⟩ := mem_oneOf_iff.1 h
  have part := Solid.of_spells solid spelled
  exact ⟨t, parts, part.nonempty, part.tight⟩

end Words

/-- A stretch found by a search for such a cut has no blanks at its ends. -/
theorem solid_of_mem_scan (opens : c.Opens) (ends : c.Ends) (forward : c.Forward)
    {s : List Char} {span : Span α} (found : span ∈ c.scan s) : Solid span.text := by
  obtain ⟨before, after, -, -, -, read⟩ := exists_of_mem_scan forward found
  obtain ⟨t, parts, nonempty, tight⟩ := ends _ _ _ read
  obtain rfl := List.append_cancel_right parts
  exact ⟨nonempty, (stops_append nonempty).1 (opens _ _ _ read), tight⟩

end Cut

end DatePhrase.Text
