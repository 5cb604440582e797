import SignalHub.Text.Blank

/-! Every text is an inner part with blanks on both sides, and no blank at the ends of that part;
what remains of it when it is trimmed is the inner part (`trimmed_eq_iff`). So to trim a text again
changes nothing, and nothing remains exactly of a blank text. -/
namespace SignalHub.Blank

/-- There is no blank at an end of the text. -/
structure Bare (cs : List Char) : Prop where
  first : ∀ c ∈ cs.head?, isBlank c = false
  last : ∀ c ∈ cs.getLast?, isBlank c = false

theorem dropWhile_blanks {before rest : List Char} (blank : before.all isBlank = true)
    (bare : ∀ c ∈ rest.head?, isBlank c = false) : (before ++ rest).dropWhile isBlank = rest := by
  rw [List.dropWhile_append_of_pos (List.all_eq_true.mp blank)]
  cases rest with
  | nil => rfl
  | cons c rest => rw [List.dropWhile_cons_of_neg (by simp [bare c rfl])]

theorem dropWhile_of_blank {cs : List Char} (blank : cs.all isBlank = true) :
    cs.dropWhile isBlank = [] := by
  have dropped : (cs ++ []).dropWhile isBlank = [] := dropWhile_blanks blank nofun
  rwa [List.append_nil] at dropped

theorem dropEnd_blanks {rest after : List Char} (blank : after.all isBlank = true)
    (bare : ∀ c ∈ rest.getLast?, isBlank c = false) : dropEnd isBlank (rest ++ after) = rest := by
  rw [dropEnd, List.reverse_append, dropWhile_blanks (List.all_reverse.trans blank),
    List.reverse_reverse]
  rwa [List.head?_reverse]

/-- Blanks at the front, and then no blank. -/
theorem exists_front (cs : List Char) : ∃ before rest, before ++ rest = cs ∧
    before.all isBlank = true ∧ ∀ c ∈ rest.head?, isBlank c = false := by
  refine ⟨cs.takeWhile isBlank, cs.dropWhile isBlank, List.takeWhile_append_dropWhile,
    List.all_takeWhile, fun c first => ?_⟩
  have stops := List.head?_dropWhile_not isBlank cs
  rwa [first] at stops

theorem exists_inner (cs : List Char) : ∃ before inner after, before ++ inner ++ after = cs ∧
    before.all isBlank = true ∧ after.all isBlank = true ∧ Bare inner := by
  obtain ⟨before, rest, rfl, front, first⟩ := exists_front cs
  obtain ⟨after, inner, turned, back, last⟩ := exists_front rest.reverse
  obtain rfl : inner.reverse ++ after.reverse = rest := by
    rw [← List.reverse_append, turned, List.reverse_reverse]
  refine ⟨before, inner.reverse, after.reverse, List.append_assoc .., front,
    List.all_reverse.trans back, ⟨fun c head => first c ?_, fun c end_ => last c ?_⟩⟩
  · rw [List.head?_append, Option.mem_def.mp head]
    rfl
  · rwa [List.getLast?_reverse] at end_

theorem trimmed_of_bare {before inner after : List Char} (front : before.all isBlank = true)
    (back : after.all isBlank = true) (bare : Bare inner) :
    trimmed (before ++ inner ++ after) = inner := by
  rw [trimmed]
  cases inner with
  | nil =>
    rw [List.append_nil, dropWhile_of_blank]
    · rfl
    · rw [List.all_append, front, back]
      rfl
  | cons c inner =>
    have dropped : (before ++ (c :: inner ++ after)).dropWhile isBlank = c :: inner ++ after :=
      dropWhile_blanks front bare.first
    rw [List.append_assoc, dropped, dropEnd_blanks back bare.last]

/-- What remains is the inner part, between the blanks at the ends. -/
theorem trimmed_eq_iff {cs inner : List Char} : trimmed cs = inner ↔
    Bare inner ∧ ∃ before after, before ++ inner ++ after = cs ∧ before.all isBlank = true ∧
      after.all isBlank = true := by
  constructor
  · rintro rfl
    obtain ⟨before, inner, after, rfl, front, back, bare⟩ := exists_inner cs
    rw [trimmed_of_bare front back bare]
    exact ⟨bare, before, after, rfl, front, back⟩
  · rintro ⟨bare, before, after, rfl, front, back⟩
    exact trimmed_of_bare front back bare

theorem trim_trim (text : String) : trim (trim text) = trim text := by
  obtain ⟨bare, -⟩ := trimmed_eq_iff.mp (rfl : trimmed text.toList = _)
  have again : trimmed (trimmed text.toList) = trimmed text.toList :=
    trimmed_eq_iff.mpr ⟨bare, [], [], List.append_nil _, rfl, rfl⟩
  rw [trim, trim, String.toList_ofList, again]

/-- Nothing remains exactly of a blank text. -/
theorem trim_eq_empty_iff {text : String} : trim text = "" ↔ Blank.blank text = true := by
  rw [trim, ← String.ofList_nil, String.ofList_inj, trimmed_eq_iff, blank]
  constructor
  · rintro ⟨-, before, after, same, front, back⟩
    rw [← same, List.append_nil, List.all_append, front, back]
    rfl
  · exact fun blank => ⟨⟨nofun, nofun⟩, text.toList, [], by simp, blank, rfl⟩

/-- Nothing remains of a blank text. -/
theorem trim_of_blank {text : String} (blank : Blank.blank text = true) : trim text = "" :=
  trim_eq_empty_iff.mpr blank

end SignalHub.Blank
