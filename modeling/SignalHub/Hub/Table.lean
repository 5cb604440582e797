/-! A table lists values under keys in the order in which the keys came. A value that is put under a
key takes the place of the one that was there. -/
namespace SignalHub

abbrev Table (κ α : Type) := List (κ × α)

namespace Table

variable {κ α : Type} [DecidableEq κ]

def get? (key : κ) : Table κ α → Option α
  | [] => none
  | (k, a) :: rest => if k = key then some a else get? key rest

def put (key : κ) (value : α) : Table κ α → Table κ α
  | [] => [(key, value)]
  | (k, a) :: rest => if k = key then (key, value) :: rest else (k, a) :: put key value rest

def erase (key : κ) : Table κ α → Table κ α
  | [] => []
  | (k, a) :: rest => if k = key then erase key rest else (k, a) :: erase key rest

theorem get?_put_same (key : κ) (value : α) (t : Table κ α) :
    get? key (put key value t) = some value := by
  induction t with
  | nil => simp [put, get?]
  | cons p rest ih =>
    obtain ⟨k, a⟩ := p
    by_cases same : k = key <;> simp [put, get?, same, ih]

theorem get?_put_other {key other : κ} (h : other ≠ key) (value : α) (t : Table κ α) :
    get? other (put key value t) = get? other t := by
  induction t with
  | nil => simp [put, get?, Ne.symm h]
  | cons p rest ih =>
    obtain ⟨k, a⟩ := p
    by_cases same : k = key
    · subst same
      simp [put, get?, Ne.symm h]
    · by_cases hit : k = other
      · subst hit
        simp [put, get?, same]
      · simp [put, get?, same, hit, ih]

theorem get?_erase_same (key : κ) (t : Table κ α) : get? key (erase key t) = none := by
  induction t with
  | nil => rfl
  | cons p rest ih =>
    obtain ⟨k, a⟩ := p
    by_cases same : k = key <;> simp [erase, get?, same, ih]

theorem get?_erase_other {key other : κ} (h : other ≠ key) (t : Table κ α) :
    get? other (erase key t) = get? other t := by
  induction t with
  | nil => rfl
  | cons p rest ih =>
    obtain ⟨k, a⟩ := p
    by_cases same : k = key
    · subst same
      simp [erase, get?, Ne.symm h, ih]
    · by_cases hit : k = other
      · subst hit
        simp [erase, get?, same]
      · simp [erase, get?, same, hit, ih]

end Table
end SignalHub
