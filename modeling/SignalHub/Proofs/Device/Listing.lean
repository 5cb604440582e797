import SignalHub.Device

/-! Devices with different identifiers are always one before the other, so a listing of such devices
is strictly ordered and depends on nothing but which devices it lists. -/
namespace SignalHub

theorem Uuid.eq_of_digits {a b : Uuid} (same : a.digits = b.digits) : a = b := by
  cases a
  cases b
  simpa using same

namespace Device.Info

theorem before_iff (a b : Info) :
    a.before b = true ↔ a.name < b.name ∨ a.name = b.name ∧ a.id.digits < b.id.digits := by
  simp [before, Uuid.before]

theorem before_asymm {a b : Info} (less : a.before b = true) : b.before a = false := by
  apply Bool.eq_false_iff.mpr
  intro more
  rw [before_iff] at less more
  rcases less with byName | ⟨sameName, byId⟩
  · rcases more with back | ⟨sameName, -⟩
    · exact String.lt_asymm byName back
    · rw [sameName] at byName
      exact String.lt_irrefl _ byName
  · rcases more with back | ⟨-, back⟩
    · rw [sameName] at back
      exact String.lt_irrefl _ back
    · exact List.lt_asymm byId back

theorem before_trans {a b c : Info} (first : a.before b = true) (second : b.before c = true) :
    a.before c = true := by
  rw [before_iff] at *
  rcases first with ab | ⟨nameAB, idAB⟩ <;> rcases second with bc | ⟨nameBC, idBC⟩
  · exact .inl (String.lt_trans ab bc)
  · exact .inl (nameBC ▸ ab)
  · exact .inl (nameAB ▸ bc)
  · exact .inr ⟨nameAB.trans nameBC, List.lt_trans idAB idBC⟩

/-- Neither comes before the other only if name and identifier agree. -/
theorem key_eq_of_not_before {a b : Info} (ab : a.before b = false) (ba : b.before a = false) :
    a.name = b.name ∧ a.id = b.id := by
  rw [Bool.eq_false_iff, ne_eq, before_iff, not_or] at ab ba
  have name : a.name = b.name :=
    String.le_antisymm (String.not_lt.mp ba.1) (String.not_lt.mp ab.1)
  refine ⟨name, Uuid.eq_of_digits ?_⟩
  apply List.le_antisymm
  · exact List.not_lt.mp fun less => ba.2 ⟨name.symm, less⟩
  · exact List.not_lt.mp fun less => ab.2 ⟨name, less⟩

theorem before_congr {a b c : Info} (name : a.name = b.name) (id : a.id = b.id) :
    c.before a = c.before b := by
  simp [before, name, id]

theorem not_before_trans {a b c : Info} (first : (!b.before a) = true)
    (second : (!c.before b) = true) : (!c.before a) = true := by
  simp only [Bool.not_eq_true'] at *
  apply Bool.eq_false_iff.mpr
  intro ca
  cases ab : a.before b with
  | true => simp [before_trans ca ab] at second
  | false =>
    obtain ⟨name, id⟩ := key_eq_of_not_before ab first
    rw [before_congr name id, second] at ca
    contradiction

theorem not_before_total (a b : Info) : (!b.before a || !a.before b) = true := by
  cases less : a.before b with
  | true => simp [before_asymm less]
  | false => simp

theorem listed_perm (devices : List Info) : (listed devices).Perm devices :=
  List.mergeSort_perm devices _

/-- Devices with different identifiers are listed strictly one before the other. -/
theorem listed_ordered {devices : List Info} (distinct : (devices.map Info.id).Nodup) :
    (listed devices).Pairwise fun a b => a.before b = true := by
  have sorted : (listed devices).Pairwise fun a b => (!b.before a) = true :=
    @List.pairwise_mergeSort Info (fun a b => !b.before a) (fun a b c => @not_before_trans a b c)
      not_before_total devices
  have apart : (listed devices).Pairwise fun a b => a.id ≠ b.id :=
    List.pairwise_map.mp (((listed_perm devices).map Info.id).nodup_iff.mpr distinct)
  apply (sorted.and apart).imp
  rintro a b ⟨notAfter, different⟩
  rw [Bool.not_eq_true'] at notAfter
  cases less : a.before b with
  | true => rfl
  | false => exact absurd (key_eq_of_not_before less notAfter).2 different

/-- The order in which the devices come does not show in the listing. -/
theorem listed_eq_of_perm {devices others : List Info} (same : devices.Perm others)
    (distinct : (devices.map Info.id).Nodup) : listed devices = listed others := by
  apply @List.Perm.eq_of_pairwise Info (fun a b => a.before b = true)
  · intro a b _ _ ab ba
    simp [before_asymm ab] at ba
  · exact listed_ordered distinct
  · exact listed_ordered ((same.map Info.id).nodup_iff.mp distinct)
  · exact (listed_perm devices).trans (same.trans (listed_perm others).symm)

end Device.Info
end SignalHub
