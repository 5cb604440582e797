import SignalHub.Http.Uri

/-! A target asks what stands between its first question mark and the number sign after it, if there
is one. Whatever stands before the question mark, a path or an absolute target, that is its query if
the target is accepted (`query_of_ofBytes?`). -/
namespace SignalHub.Http.Uri

def questionMark : UInt8 := 0x3F
def numberSign : UInt8 := 0x23

theorem is_iff {c : Char} {b mark : UInt8} (same : mark.toNat = c.toNat) :
    is c b = true ↔ b = mark := by
  rw [is, beq_iff_eq, ← same, UInt8.toNat_inj]

/-- This is asked in the target. -/
def Asks (bytes query : List UInt8) : Prop :=
  ∃ front fragment, bytes = front ++ questionMark :: (query ++ fragment) ∧
    questionMark ∉ front ∧ numberSign ∉ front ∧ ∀ b ∈ fragment.head?, b = numberSign

variable {bytes query : List UInt8} {uri : Uri}

namespace Asks

theorem mem (asks : Asks bytes query) : questionMark ∈ bytes := by
  obtain ⟨front, fragment, rfl, -⟩ := asks
  exact List.mem_append_right _ List.mem_cons_self

/-- What comes before the question mark may be left out. -/
theorem tail {b : UInt8} (asks : Asks (b :: bytes) query) (other : b ≠ questionMark) :
    Asks bytes query := by
  obtain ⟨front, fragment, same, noMark, noSign, ends⟩ := asks
  cases front with
  | nil => exact absurd (List.cons.inj same).1 other
  | cons a front =>
    obtain ⟨-, rfl⟩ := List.cons.inj same
    exact ⟨front, fragment, rfl, fun member => noMark (List.mem_cons_of_mem a member),
      fun member => noSign (List.mem_cons_of_mem a member), ends⟩

theorem drop {n : Nat} (asks : Asks bytes query) (before : questionMark ∉ bytes.take n) :
    Asks (bytes.drop n) query := by
  induction n generalizing bytes with
  | zero => exact asks
  | succ n ih =>
    cases bytes with
    | nil => exact asks
    | cons b bytes =>
      obtain ⟨other, later⟩ := List.ne_and_not_mem_of_not_mem_cons before
      exact ih (asks.tail (Ne.symm other)) later

theorem drop_takeWhile {p : UInt8 → Bool} (asks : Asks bytes query)
    (stops : p questionMark = false) : Asks (bytes.drop (bytes.takeWhile p).length) query := by
  apply asks.drop
  rw [← List.prefix_iff_eq_take.mp (List.takeWhile_prefix p)]
  intro member
  rw [List.all_eq_true.mp List.all_takeWhile _ member] at stops
  cases stops

end Asks

theorem takeWhile_of_ends {p : UInt8 → Bool} {front rest : List UInt8}
    (passes : ∀ b ∈ front, p b = true) (stops : ∀ b ∈ rest.head?, p b = false) :
    (front ++ rest).takeWhile p = front := by
  rw [List.takeWhile_append_of_pos passes]
  cases rest with
  | nil => exact List.append_nil _
  | cons b rest => rw [List.takeWhile_cons_of_neg (by simp [stops b rfl]), List.append_nil]

theorem is_questionMark {b : UInt8} : is '?' b = true ↔ b = questionMark := is_iff rfl

theorem is_numberSign {b : UInt8} : is '#' b = true ↔ b = numberSign := is_iff rfl

/-- A path goes up to the question mark, and the query from there up to the number sign. -/
theorem query_of_pathAndQuery? (asks : Asks bytes query) (whole : numberSign ∉ query)
    (accepted : pathAndQuery? bytes = some uri) : uri.query = some query := by
  obtain ⟨front, fragment, rfl, noMark, noSign, ends⟩ := asks
  have unsigned : ∀ b ∈ front ++ questionMark :: query, (!is '#' b) = true := by
    intro b member
    rw [Bool.not_eq_true', Bool.eq_false_iff, ne_eq, is_numberSign]
    rintro rfl
    rcases List.mem_append.mp member with early | late
    · exact noSign early
    · exact whole (List.mem_of_ne_of_mem (by decide) late)
  have unmarked : ∀ b ∈ front, (!is '?' b) = true := by
    intro b member
    rw [Bool.not_eq_true', Bool.eq_false_iff, ne_eq, is_questionMark]
    rintro rfl
    exact noMark member
  have visible : (front ++ questionMark :: (query ++ fragment)).takeWhile (fun b => !is '#' b) =
      front ++ questionMark :: query := by
    rw [← List.cons_append, ← List.append_assoc]
    refine takeWhile_of_ends unsigned fun b first => ?_
    rw [ends b first]
    rfl
  have path : (front ++ questionMark :: query).takeWhile (fun b => !is '?' b) = front :=
    takeWhile_of_ends unmarked fun b first => by
      rw [← Option.some.inj first]
      rfl
  simp only [pathAndQuery?, visible, path, List.drop_left, List.isEmpty_cons, Bool.false_eq_true,
    if_false, List.drop_one, List.tail_cons] at accepted
  split at accepted
  · rw [← Option.some.inj accepted]
  · cases accepted

theorem authorityStep_questionMark (a : Authority) : authorityStep a questionMark = none := rfl

theorem foldlM_of_questionMark (asked : questionMark ∈ bytes) (a : Authority) :
    bytes.foldlM authorityStep a = none := by
  induction bytes generalizing a with
  | nil => cases asked
  | cons b bytes ih =>
    rw [List.foldlM_cons]
    by_cases mark : b = questionMark
    · rw [mark, authorityStep_questionMark]
      rfl
    · cases authorityStep a b with
      | none => rfl
      | some next => exact ih (List.mem_of_ne_of_mem (Ne.symm mark) asked) next

/-- Nothing is asked in an authority. -/
theorem questionMark_not_mem_of_isAuthority (authority : isAuthority bytes = true) :
    questionMark ∉ bytes := by
  intro asked
  rw [isAuthority, foldlM_of_questionMark asked] at authority
  cases authority

theorem asks_afterScheme {rest : List UInt8} (asks : Asks bytes query)
    (found : afterScheme? bytes = some (some rest)) : Asks rest query := by
  simp only [afterScheme?] at found
  split at found
  · rename_i absolute
    split at found
    · cases found
    · rw [← Option.some.inj (Option.some.inj found)]
      refine (asks.drop_takeWhile (by rfl)).drop ?_
      rw [absolute.1]
      decide
  · cases found

theorem query_of_full? (asks : Asks bytes query) (whole : numberSign ∉ query)
    (accepted : full? bytes = some uri) : uri.query = some query := by
  rw [full?] at accepted
  obtain ⟨after, found, accepted⟩ := Option.bind_eq_some_iff.mp accepted
  cases after with
  | none =>
    dsimp only at accepted
    split at accepted
    · rename_i authority
      exact absurd asks.mem (questionMark_not_mem_of_isAuthority authority)
    · cases accepted
  | some rest =>
    dsimp only at accepted
    split at accepted
    · refine query_of_pathAndQuery? ?_ whole accepted
      exact (asks_afterScheme asks found).drop_takeWhile rfl
    · cases accepted

/-- What is asked in a target that is accepted is its query. -/
theorem query_of_ofBytes? (asks : Asks bytes query) (whole : numberSign ∉ query)
    (accepted : ofBytes? bytes = some uri) : uri.query = some query := by
  rw [ofBytes?.eq_def] at accepted
  split at accepted
  · cases accepted
  · split at accepted
    · cases accepted
    · obtain rfl := List.mem_singleton.mp asks.mem
      cases accepted
    · split at accepted
      · exact query_of_pathAndQuery? asks whole accepted
      · exact query_of_full? asks whole accepted

end SignalHub.Http.Uri
