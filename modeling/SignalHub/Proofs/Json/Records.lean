import SignalHub.Json.Record

/-! A record is written as an object with one member for each of its fields. Its readers find the
fields by their names (`fields?_ofMembers`), also after the object has been kept (`keep_ofMembers`).
In an object from elsewhere a field is the one member of its name (`fields?_named`), in an array it
is the item in its place (`fields?_item`). -/
namespace SignalHub.Json

namespace Numeral

open Decimal (Digit)

/-- Digits appended to a number only make it larger. -/
theorem le_appended (ds : List Digit) (n : Nat) : n ≤ ds.foldl (fun n d => 10 * n + d.val) n := by
  induction ds generalizing n with
  | nil => exact Nat.le_refl n
  | cons d ds ih => exact Nat.le_trans (by omega) (ih (10 * n + d.val))

/-- Digits that stay within 64 bits are all filled in. -/
theorem fill_eq (ds : List Digit) {n : Nat}
    (fits : ds.foldl (fun n d => 10 * n + d.val) n < UInt64.size) :
    fill n ds = (ds.foldl (fun n d => 10 * n + d.val) n, []) := by
  induction ds generalizing n with
  | nil => rfl
  | cons d ds ih =>
    have small : 10 * n + d.val < UInt64.size := Nat.lt_of_le_of_lt (le_appended ds _) fits
    rw [fill, if_pos small]
    exact ih fits

theorem fill_digits {n : Nat} (fits : n < UInt64.size) : fill 0 (Decimal.digits n) = (n, []) := by
  have same : (Decimal.digits n).foldl (fun n d => 10 * n + d.val) 0 = n := Decimal.value_digits n
  have filled := fill_eq (Decimal.digits n) (same.symm ▸ fits)
  rwa [same] at filled

/-- A number that a double holds exactly is finite. -/
theorem finite_ofInt {n : Nat} (held : n < 0x20000000000000) : (ofInt n).finite = true := by
  have fits : n < UInt64.size := Nat.lt_trans held (by decide)
  have scaled : (ofInt n).scaled = (n, 0) := by
    simp [Numeral.scaled, ofInt, fill_digits fits, fill]
  have large : 0x20000000000000 ≤ overflow := by decide +kernel
  unfold finite
  rw [scaled]
  simp [ofInt, finiteScaled, round53, held]
  omega

theorem integer?_ofInt {n : Nat} (fits : n < UInt64.size) : (ofInt n).integer? = some (n : Int) := by
  have nonnegative : ¬ (n : Int) < 0 := by omega
  simp [integer?, ofInt, nonnegative, fits]

end Numeral

/-- Members of which no two share a name. -/
def Distinct (members : List (String × Json)) : Prop := (members.map Prod.fst).Nodup

theorem lastOnly_of_nodup {members : List (Option String × Json)}
    (distinct : (members.map Prod.fst).Nodup) : lastOnly members = members := by
  induction members with
  | nil => rfl
  | cons m members ih =>
    obtain ⟨fresh, distinct⟩ := List.nodup_cons.mp distinct
    rw [lastOnly, if_neg, ih distinct]
    simp only [List.any_eq_true, beq_iff_eq]
    rintro ⟨other, found, same⟩
    exact fresh (List.mem_map.mpr ⟨other, found, same⟩)

theorem lastOnly_of_distinct {members : List (String × Json)} (distinct : Distinct members) :
    lastOnly (members.map fun m => (some m.1, m.2)) = members.map fun m => (some m.1, m.2) := by
  apply lastOnly_of_nodup
  rw [List.map_map]
  exact List.pairwise_map.mpr ((List.pairwise_map.mp distinct).imp fun apart => by simpa using apart)

theorem keepMembers_of_kept {room : Nat} {members : List (String × Json)}
    (kept : ∀ m ∈ members, keep room m.2 = some m.2) :
    keepMembers room (members.map fun m => (some m.1, m.2)) =
      some (members.map fun m => (some m.1, m.2)) := by
  induction members with
  | nil => rfl
  | cons m members ih =>
    have first := kept m List.mem_cons_self
    have rest := ih fun other found => kept other (List.mem_cons_of_mem m found)
    simp [keepMembers, first, rest]

/-- An object is kept as it is when its members are and no two share a name. -/
theorem keep_ofMembers {room : Nat} {members : List (String × Json)} (distinct : Distinct members)
    (kept : ∀ m ∈ members, keep room m.2 = some m.2) :
    keep (room + 1) (ofMembers members) = some (ofMembers members) := by
  change ((keepMembers room (members.map fun m => (some m.1, m.2))).map fun all =>
    Json.object (lastOnly all)) = _
  rw [keepMembers_of_kept kept, Option.map_some, lastOnly_of_distinct distinct]
  rfl

theorem keep_ofString (room : Nat) (s : String) : keep room (ofString s) = some (ofString s) := by
  cases room <;> rfl

theorem keep_ofNat (room : Nat) {n : Nat} (held : n < 0x20000000000000) :
    keep room (ofNat n) = some (ofNat n) := by
  have finite := Numeral.finite_ofInt held
  cases room <;> simp [keep, ofNat, ofInt, finite]

theorem fieldsOfMembers_of_distinct {names : List String} {members : List (String × Json)}
    (distinct : Distinct members) :
    fieldsOfMembers names (members.map fun m => (some m.1, m.2)) =
      some fun name => if name ∈ names then members.lookup name else none := by
  induction members with
  | nil =>
    simp [fieldsOfMembers]
    rfl
  | cons m members ih =>
    obtain ⟨first, value⟩ := m
    obtain ⟨fresh, distinct⟩ := List.nodup_cons.mp distinct
    have absent : members.lookup first = none := by
      rw [List.lookup_eq_none_iff]
      intro other found
      simpa using fun same : first = other.1 => fresh (List.mem_map.mpr ⟨other, found, same.symm⟩)
    have unset : (if first ∈ names then members.lookup first else none) = none := by
      rw [absent, ite_self]
    simp only [List.map_cons, fieldsOfMembers, ih distinct, Option.bind_eq_bind, Option.bind_some,
      unset, Option.isSome_none, Bool.false_eq_true, if_false]
    by_cases known : first ∈ names
    · refine (if_pos known).trans (congrArg some (funext fun name => ?_))
      by_cases same : name = first
      · simp [Fields.insert, same, known]
      · simp [Fields.insert, List.lookup_cons, beq_false_of_ne same, same]
    · refine (if_neg known).trans (congrArg some (funext fun name => ?_))
      by_cases same : name = first
      · simp [same, known]
      · simp [List.lookup_cons, beq_false_of_ne same]

/-- A record finds its fields by their names. -/
theorem fields?_ofMembers (names : List String) {members : List (String × Json)}
    (distinct : Distinct members) :
    ∃ fields, (ofMembers members).fields? names = some fields ∧
      ∀ name ∈ names, fields name = members.lookup name :=
  ⟨_, fieldsOfMembers_of_distinct distinct, fun _ known => if_pos known⟩

/-- The values of the members with a name. -/
def named (name : String) (members : List (Option String × Json)) : List Json :=
  (members.filter fun m => m.1 == some name).map Prod.snd

theorem named_cons_same (name : String) (v : Json) (members : List (Option String × Json)) :
    named name ((some name, v) :: members) = v :: named name members := by
  simp [named]

theorem named_cons_other {name : String} {first : Option String} (other : first ≠ some name)
    (v : Json) (members : List (Option String × Json)) :
    named name ((first, v) :: members) = named name members := by
  simp [named, other]

/-- All names are sound, and no known one comes twice. -/
structure Readable (names : List String) (members : List (Option String × Json)) : Prop where
  sound : ∀ m ∈ members, m.1.isSome = true
  once : ∀ name ∈ names, (named name members).length ≤ 1

/-- Each known name with the value of the first member that has it. -/
def firstNamed (names : List String) (members : List (Option String × Json)) : Fields :=
  fun name => if name ∈ names then (named name members).head? else none

theorem readable_cons_iff {names : List String} {name : String} {v : Json}
    {members : List (Option String × Json)} :
    Readable names ((some name, v) :: members) ↔
      Readable names members ∧ (name ∈ names → named name members = []) := by
  have once (other : String) : (named other ((some name, v) :: members)).length =
      (named other members).length + if name = other then 1 else 0 := by
    by_cases same : name = other
    · simp [same, named_cons_same]
    · simp [same, named_cons_other]
  constructor
  · intro readable
    refine ⟨⟨fun m member => readable.sound m (List.mem_cons_of_mem _ member), ?_⟩, ?_⟩
    · intro other known
      have few := readable.once other known
      rw [once] at few
      omega
    · intro known
      have few := readable.once name known
      rw [once, if_pos rfl] at few
      exact List.length_eq_zero_iff.mp (by omega)
  · rintro ⟨readable, absent⟩
    refine ⟨fun m member => ?_, fun other known => ?_⟩
    · rcases List.mem_cons.mp member with rfl | later
      · rfl
      · exact readable.sound m later
    · rw [once]
      by_cases same : name = other
      · subst same
        simp [absent known]
      · simpa [same] using readable.once other known

theorem firstNamed_cons (names : List String) (name : String) (v : Json)
    (members : List (Option String × Json)) :
    firstNamed names ((some name, v) :: members) =
      if name ∈ names then (firstNamed names members).insert name v
      else firstNamed names members := by
  funext other
  by_cases same : name = other
  · subst same
    by_cases known : name ∈ names <;> simp [firstNamed, known, named_cons_same, Fields.insert]
  · have rest : named other ((some name, v) :: members) = named other members :=
      named_cons_other (by simpa using same) v members
    by_cases known : name ∈ names <;>
      simp [firstNamed, known, rest, Fields.insert, Ne.symm same]

/-- The members of a record are read exactly if they are readable. -/
theorem fieldsOfMembers_eq_some_iff {names : List String} {members : List (Option String × Json)}
    {fields : Fields} : fieldsOfMembers names members = some fields ↔
      Readable names members ∧ fields = firstNamed names members := by
  induction members generalizing fields with
  | nil =>
    have empty : firstNamed names [] = .none := by
      funext name
      simp [firstNamed, named, Fields.none]
    rw [fieldsOfMembers, empty, Option.some.injEq, eq_comm]
    exact ⟨fun same => ⟨⟨by simp, by simp [named]⟩, same⟩, And.right⟩
  | cons m members ih =>
    obtain ⟨_ | name, v⟩ := m
    · refine ⟨fun read => (by cases read), fun readable => ?_⟩
      have sound := readable.1.sound _ List.mem_cons_self
      cases sound
    · rw [firstNamed_cons, readable_cons_iff]
      simp only [fieldsOfMembers, Option.bind_eq_bind, Option.bind_some, Option.bind_eq_some_iff, ih]
      have first (known : name ∈ names) :
          firstNamed names members name = (named name members).head? := if_pos known
      constructor
      · rintro ⟨_, ⟨readable, rfl⟩, read⟩
        by_cases known : name ∈ names
        · rw [if_pos known] at read ⊢
          rw [first known] at read
          cases absent : named name members with
          | nil =>
            rw [absent] at read
            exact ⟨⟨readable, fun _ => rfl⟩, (Option.some.inj read).symm⟩
          | cons other rest => simp [absent] at read
        · rw [if_neg known] at read ⊢
          exact ⟨⟨readable, fun member => absurd member known⟩, (Option.some.inj read).symm⟩
      · rintro ⟨⟨readable, absent⟩, rfl⟩
        refine ⟨_, ⟨readable, rfl⟩, ?_⟩
        by_cases known : name ∈ names
        · simp [known, first known, absent known]
        · simp [known]

/-- A known name has one member, which the field holds, or none. -/
theorem fields?_named {names : List String} {members : List (Option String × Json)}
    {fields : Fields} (read : (object members).fields? names = some fields) (name : String)
    (known : name ∈ names) : named name members = (fields name).toList := by
  obtain ⟨readable, rfl⟩ := fieldsOfMembers_eq_some_iff.mp read
  have once := readable.once name known
  rw [firstNamed, if_pos known]
  cases found : named name members with
  | nil => rfl
  | cons v rest =>
    rw [found, List.length_cons] at once
    obtain rfl : rest = [] := List.length_eq_zero_iff.mp (by omega)
    rfl

theorem fields?_item {names : List String} {items : List Json} {fields : Fields}
    (read : (array items).fields? names = some fields) (distinct : names.Nodup) {i : Nat}
    {name : String} (place : names[i]? = some name) : fields name = items[i]? := by
  replace read : fieldsOfItems names items = some fields := read
  induction items generalizing names fields i with
  | nil =>
    have none_ : fields = .none := by cases names <;> exact (Option.some.inj read).symm
    rw [none_, List.getElem?_nil]
    rfl
  | cons v items ih =>
    cases names with
    | nil => cases read
    | cons first names =>
      obtain ⟨fresh, distinct⟩ := List.nodup_cons.mp distinct
      obtain ⟨others, rest, rfl⟩ := Option.map_eq_some_iff.mp read
      cases i with
      | zero =>
        obtain rfl : first = name := Option.some.inj place
        exact if_pos rfl
      | succ i =>
        have other : name ≠ first := fun same => fresh (same ▸ List.mem_of_getElem? place)
        exact (if_neg other).trans (ih distinct place rest)

theorem string?_ofString (s : String) : (ofString s).string? = some s := rfl

theorem nullable?_ofString (s : String) : nullable? string? (ofString s) = some (some s) := rfl

end SignalHub.Json
