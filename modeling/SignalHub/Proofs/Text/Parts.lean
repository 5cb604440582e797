import SignalHub.Text.Parts

/-! Parts hold no separator, and with the separators between them they are the whole text. A part
that holds none is cut off at the first separator after it, and at none if there is none. -/
namespace SignalHub.Parts

variable {α : Type} [DecidableEq α]

theorem split_ne_nil (separator : α) (text : List α) : split separator text ≠ [] := by
  cases text with
  | nil => simp [split]
  | cons a text =>
    rw [split]
    split
    · simp
    · split <;> simp

theorem split_cons {separator a : α} (other : a ≠ separator) {text part : List α}
    {parts : List (List α)} (cut : split separator text = part :: parts) :
    split separator (a :: text) = (a :: part) :: parts := by
  rw [split, if_neg other, cut]

/-- Parts hold no separator. -/
theorem not_mem_of_split (separator : α) (text : List α) :
    ∀ part ∈ split separator text, separator ∉ part := by
  induction text with
  | nil => simp [split]
  | cons a text ih =>
    by_cases same : a = separator
    · rw [split, if_pos same]
      exact List.forall_mem_cons.mpr ⟨List.not_mem_nil, ih⟩
    · obtain ⟨part, parts, cut⟩ := List.exists_cons_of_ne_nil (split_ne_nil separator text)
      rw [cut] at ih
      obtain ⟨first, rest⟩ := List.forall_mem_cons.mp ih
      rw [split_cons same cut]
      exact List.forall_mem_cons.mpr ⟨List.not_mem_cons_of_ne_of_not_mem (Ne.symm same) first, rest⟩

/-- The text is its parts, each but the first behind a separator. -/
theorem eq_of_split {separator : α} {text part : List α} {parts : List (List α)}
    (cut : split separator text = part :: parts) :
    part ++ parts.flatMap (separator :: ·) = text := by
  induction text generalizing part parts with
  | nil =>
    obtain ⟨rfl, rfl⟩ := List.cons.inj cut
    rfl
  | cons a text ih =>
    obtain ⟨next, more, after⟩ := List.exists_cons_of_ne_nil (split_ne_nil separator text)
    have rest := ih after
    by_cases same : a = separator
    · rw [split, if_pos same, after] at cut
      obtain ⟨rfl, rfl⟩ := List.cons.inj cut
      rw [List.nil_append, List.flatMap_cons, List.cons_append, rest, same]
    · rw [split_cons same after] at cut
      obtain ⟨rfl, rfl⟩ := List.cons.inj cut
      rw [List.cons_append, rest]

/-- A part that holds no separator is the first one of the text that it starts with a separator after
it. -/
theorem split_append {separator : α} {part : List α} (whole : separator ∉ part) (rest : List α) :
    split separator (part ++ separator :: rest) = part :: split separator rest := by
  induction part with
  | nil => simp [split]
  | cons a part ih =>
    obtain ⟨other, whole⟩ := List.ne_and_not_mem_of_not_mem_cons whole
    exact split_cons (Ne.symm other) (ih whole)

theorem split_of_not_mem {separator : α} {part : List α} (whole : separator ∉ part) :
    split separator part = [part] := by
  induction part with
  | nil => rfl
  | cons a part ih =>
    obtain ⟨other, whole⟩ := List.ne_and_not_mem_of_not_mem_cons whole
    exact split_cons (Ne.symm other) (ih whole)

theorem cut_append {separator : α} {left : List α} (whole : separator ∉ left) (right : List α) :
    cut separator (left ++ separator :: right) = (left, some right) := by
  induction left with
  | nil => rw [List.nil_append, cut, if_pos rfl]
  | cons a left ih =>
    obtain ⟨other, whole⟩ := List.ne_and_not_mem_of_not_mem_cons whole
    rw [List.cons_append, cut, if_neg (Ne.symm other), ih whole]

theorem cut_of_not_mem {separator : α} {text : List α} (whole : separator ∉ text) :
    cut separator text = (text, none) := by
  induction text with
  | nil => rfl
  | cons a text ih =>
    obtain ⟨other, whole⟩ := List.ne_and_not_mem_of_not_mem_cons whole
    rw [cut, if_neg (Ne.symm other), ih whole]

end SignalHub.Parts
