import SignalHub.Proofs.Json.Records

/-! A reader that keeps a value needs room for its nesting, and keeps only sound texts and finite
numbers (`keep_isSome_iff`). Of an object in which no name comes twice it keeps every member
(`fields?_keep`). -/
namespace SignalHub.Json

mutual

/-- How many arrays and objects are around the innermost value. -/
def depth : Json → Nat
  | .array items => itemsDepth items + 1
  | .object members => membersDepth members + 1
  | _ => 0

def itemsDepth : List Json → Nat
  | [] => 0
  | v :: rest => max (depth v) (itemsDepth rest)

def membersDepth : List (Option String × Json) → Nat
  | [] => 0
  | (_, v) :: rest => max (depth v) (membersDepth rest)

end

mutual

/-- All texts and names inside are characters, and all numbers are finite. -/
def sound : Json → Bool
  | .null | .bool _ => true
  | .number n => n.finite
  | .text s => s.isSome
  | .array items => itemsSound items
  | .object members => membersSound members

def itemsSound : List Json → Bool
  | [] => true
  | v :: rest => sound v && itemsSound rest

def membersSound : List (Option String × Json) → Bool
  | [] => true
  | (name, v) :: rest => name.isSome && sound v && membersSound rest

end

/-- The value can be kept where there is room for so many arrays and objects around each other. -/
def Keepable (room : Nat) (v : Json) : Prop := depth v ≤ room ∧ sound v = true

mutual

theorem isSome_keep (room : Nat) (v : Json) :
    (keep room v).isSome = (decide (depth v ≤ room) && sound v) := by
  match v with
  | .null | .bool _ => cases room <;> simp [keep, depth, sound]
  | .number n => cases room <;> cases finite : n.finite <;> simp [keep, depth, sound, finite]
  | .text s => cases room <;> cases s <;> simp [keep, depth, sound]
  | .array items =>
    cases room with
    | zero => simp [keep, depth]
    | succ room => simp [keep, depth, sound, isSome_keepItems room items]
  | .object members =>
    cases room with
    | zero => simp [keep, depth]
    | succ room => simp [keep, depth, sound, isSome_keepMembers room members]

theorem isSome_keepItems (room : Nat) (items : List Json) :
    (keepItems room items).isSome = (decide (itemsDepth items ≤ room) && itemsSound items) := by
  match items with
  | [] => simp [keepItems, itemsDepth, itemsSound]
  | v :: rest =>
    have both : (keepItems room (v :: rest)).isSome =
        ((keep room v).isSome && (keepItems room rest).isSome) := by
      cases kept : keep room v <;> cases more : keepItems room rest <;>
        simp [keepItems, kept, more]
    rw [both, isSome_keep room v, isSome_keepItems room rest]
    simp only [itemsDepth, itemsSound, Nat.max_le, Bool.decide_and]
    ac_rfl

theorem isSome_keepMembers (room : Nat) (members : List (Option String × Json)) :
    (keepMembers room members).isSome =
      (decide (membersDepth members ≤ room) && membersSound members) := by
  match members with
  | [] => simp [keepMembers, membersDepth, membersSound]
  | (name, v) :: rest =>
    have all : (keepMembers room ((name, v) :: rest)).isSome =
        (name.isSome && ((keep room v).isSome && (keepMembers room rest).isSome)) := by
      cases name <;> cases kept : keep room v <;> cases more : keepMembers room rest <;>
        simp [keepMembers, kept, more]
    rw [all, isSome_keep room v, isSome_keepMembers room rest]
    simp only [membersDepth, membersSound, Nat.max_le, Bool.decide_and]
    ac_rfl

end

theorem keep_isSome_iff {room : Nat} {v : Json} :
    (keep room v).isSome = true ↔ Keepable room v := by
  rw [isSome_keep, Bool.and_eq_true, decide_eq_true_eq]
  rfl

theorem keepMembers_cons_inv {room : Nat} {m : Option String × Json}
    {members kept : List (Option String × Json)}
    (all : keepMembers room (m :: members) = some kept) :
    ∃ name v more, m.1 = some name ∧ keep room m.2 = some v ∧
      keepMembers room members = some more ∧ kept = (some name, v) :: more := by
  obtain ⟨first, u⟩ := m
  obtain ⟨name, named, all⟩ := Option.bind_eq_some_iff.mp all
  obtain ⟨v, keeps, all⟩ := Option.bind_eq_some_iff.mp all
  obtain ⟨more, later, same⟩ := Option.bind_eq_some_iff.mp all
  exact ⟨name, v, more, named, keeps, later, (Option.some.inj same).symm⟩

/-- Members are kept in their order, under their names. -/
theorem names_keepMembers {room : Nat} {members kept : List (Option String × Json)}
    (all : keepMembers room members = some kept) :
    kept.map Prod.fst = members.map Prod.fst ∧ ∀ m ∈ kept, m.1.isSome = true := by
  induction members generalizing kept with
  | nil =>
    cases all
    simp
  | cons m members ih =>
    obtain ⟨name, v, more, named, -, later, rfl⟩ := keepMembers_cons_inv all
    obtain ⟨names, sound⟩ := ih later
    exact ⟨by rw [List.map_cons, List.map_cons, names, named],
      List.forall_mem_cons.mpr ⟨rfl, sound⟩⟩

theorem named_keepMembers {room : Nat} {members kept : List (Option String × Json)}
    (all : keepMembers room members = some kept) (name : String) :
    (named name kept).map some = (named name members).map (keep room) := by
  induction members generalizing kept with
  | nil =>
    cases all
    rfl
  | cons m members ih =>
    obtain ⟨first, u⟩ := m
    obtain ⟨other, v, more, rfl, keeps, later, rfl⟩ := keepMembers_cons_inv all
    by_cases same : other = name
    · subst same
      rw [named_cons_same, named_cons_same, List.map_cons, List.map_cons, ih later, keeps]
    · have apart : some other ≠ some name := by simpa using same
      rw [named_cons_other apart, named_cons_other apart, ih later]

theorem length_named {members : List (Option String × Json)}
    (distinct : (members.map Prod.fst).Nodup) (name : String) :
    (named name members).length ≤ 1 := by
  have once := List.nodup_iff_count.mp distinct (some name)
  rw [List.count, List.countP_map] at once
  rw [named, List.length_map, ← List.countP_eq_length_filter]
  exact once

/-- What a record finds in an object that was kept depends on the members it knows. -/
theorem fields?_keep {room : Nat} {members : List (Option String × Json)}
    (distinct : (members.map Prod.fst).Nodup) (keepable : Keepable (room + 1) (.object members))
    (names : List String) :
    ∃ kept, keep (room + 1) (.object members) = some kept ∧ kept.fields? names = some fun name =>
      if name ∈ names then (named name members).head?.bind (keep room) else none := by
  obtain ⟨v, found⟩ := Option.isSome_iff_exists.mp (keep_isSome_iff.mpr keepable)
  refine ⟨v, found, ?_⟩
  obtain ⟨kept, all, rfl⟩ := Option.map_eq_some_iff.mp found
  obtain ⟨same, sound⟩ := names_keepMembers all
  rw [← same] at distinct
  rw [lastOnly_of_nodup distinct]
  refine fieldsOfMembers_eq_some_iff.mpr ⟨⟨sound, fun name _ => length_named distinct name⟩, ?_⟩
  funext name
  have head := congrArg List.head? (named_keepMembers all name)
  rw [List.head?_map, List.head?_map] at head
  have first : (named name members).head?.bind (keep room) = (named name kept).head? := by
    cases written : (named name members).head? <;> cases held : (named name kept).head? <;>
      simp_all
  rw [firstNamed, first]

end SignalHub.Json
