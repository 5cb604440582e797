import SignalHub.Proofs.Json.RoundTrip
import SignalHub.Proofs.Json.Spelling

/-! Whatever the reader takes tokens for, they are the tokens of that value (`tokens_of_ofTokens?`).
So a text stands for a value exactly if it is a spelling of the value's tokens
(`parse?_eq_some_iff`). -/
namespace SignalHub.Json

open Reading

theorem moreItemTokens_eq {items : List Json} (some_ : items ≠ []) :
    moreItemTokens items = .mark .comma :: itemTokens items := by
  cases items with
  | nil => contradiction
  | cons v items => rfl

theorem moreMemberTokens_eq {members : List (Option String × Json)} (some_ : members ≠ []) :
    moreMemberTokens members = .mark .comma :: memberTokens members := by
  cases members with
  | nil => contradiction
  | cons m members => rfl

/-- Items, the last one first, each with a comma after it. -/
def itemsSoFar (items : List Json) : List Token :=
  items.reverse.flatMap fun v => tokens v ++ [.mark .comma]

/-- Members, the last one first, each with a comma after it. -/
def membersSoFar (members : List (Option String × Json)) : List Token :=
  members.reverse.flatMap fun m => .text m.1 :: .mark .colon :: tokens m.2 ++ [.mark .comma]

theorem itemsSoFar_cons (v : Json) (items : List Json) :
    itemsSoFar (v :: items) = itemsSoFar items ++ (tokens v ++ [.mark .comma]) := by
  simp [itemsSoFar]

theorem membersSoFar_cons (name : Option String) (v : Json)
    (members : List (Option String × Json)) :
    membersSoFar ((name, v) :: members) =
      membersSoFar members ++ (.text name :: .mark .colon :: tokens v ++ [.mark .comma]) := by
  simp [membersSoFar]

theorem itemTokens_append (items : List Json) (v : Json) :
    itemTokens (items ++ [v]) =
      (items.flatMap fun v => tokens v ++ [.mark .comma]) ++ tokens v ++ [.mark .arrayClose] := by
  induction items with
  | nil => simp [itemTokens, moreItemTokens]
  | cons first items ih =>
    rw [List.cons_append, itemTokens, moreItemTokens_eq (by simp), ih]
    simp

theorem memberTokens_append (members : List (Option String × Json)) (name : Option String)
    (v : Json) :
    memberTokens (members ++ [(name, v)]) =
      (members.flatMap fun m => .text m.1 :: .mark .colon :: tokens m.2 ++ [.mark .comma]) ++
        (.text name :: .mark .colon :: tokens v) ++ [.mark .objectClose] := by
  induction members with
  | nil => simp [memberTokens, moreMemberTokens]
  | cons first members ih =>
    obtain ⟨other, u⟩ := first
    rw [List.cons_append, memberTokens, moreMemberTokens_eq (by simp), ih]
    simp

theorem tokens_array (v : Json) (items : List Json) :
    tokens (.array (v :: items).reverse) =
      .mark .arrayOpen :: (itemsSoFar items ++ tokens v) ++ [.mark .arrayClose] := by
  rw [tokens, List.reverse_cons, itemTokens_append]
  simp [itemsSoFar]

theorem tokens_object (name : Option String) (v : Json) (members : List (Option String × Json)) :
    tokens (.object ((name, v) :: members).reverse) =
      .mark .objectOpen :: (membersSoFar members ++ (.text name :: .mark .colon :: tokens v)) ++
        [.mark .objectClose] := by
  rw [tokens, List.reverse_cons, memberTokens_append]
  simp [membersSoFar]

/-- The tokens of what is open, up to the place of a value inside. -/
def before : List Frame → List Token
  | [] => []
  | .array items :: outer => before outer ++ .mark .arrayOpen :: itemsSoFar items
  | .object members name :: outer =>
    before outer ++ .mark .objectOpen :: (membersSoFar members ++ [.text name, .mark .colon])

/-- The reading has come so far by these tokens. -/
inductive Reached : List Token → Reading → Prop where
  | value (frames : List Frame) : Reached (before frames) ⟨frames, .value⟩
  | itemOrEnd (frames : List Frame) :
      Reached (before frames ++ [.mark .arrayOpen]) ⟨.array [] :: frames, .itemOrEnd⟩
  | memberOrEnd (name : Option String) (frames : List Frame) :
      Reached (before frames ++ [.mark .objectOpen]) ⟨.object [] name :: frames, .memberOrEnd⟩
  | member (members : List (Option String × Json)) (name : Option String) (frames : List Frame) :
      Reached (before frames ++ .mark .objectOpen :: membersSoFar members)
        ⟨.object members name :: frames, .member⟩
  | colon (members : List (Option String × Json)) (name : Option String) (frames : List Frame) :
      Reached (before frames ++ .mark .objectOpen :: (membersSoFar members ++ [.text name]))
        ⟨.object members name :: frames, .colon⟩
  | item (v : Json) (items : List Json) (frames : List Frame) :
      Reached (before frames ++ .mark .arrayOpen :: (itemsSoFar items ++ tokens v))
        ⟨.array (v :: items) :: frames, .commaOrEnd⟩
  | memberDone (name other : Option String) (v : Json) (members : List (Option String × Json))
      (frames : List Frame) :
      Reached (before frames ++ .mark .objectOpen ::
          (membersSoFar members ++ (.text name :: .mark .colon :: tokens v)))
        ⟨.object ((name, v) :: members) other :: frames, .commaOrEnd⟩
  | nothing (v : Json) : Reached (tokens v) ⟨[], .nothing v⟩

theorem reached_add (frames : List Frame) (v : Json) :
    Reached (before frames ++ tokens v) (add frames v) := by
  cases frames with
  | nil => exact .nothing v
  | cons frame frames =>
    cases frame with
    | array items =>
      have done := Reached.item v items frames
      simpa [before, add] using done
    | object members name =>
      have done := Reached.memberDone name name v members frames
      simpa [before, add] using done

theorem reached_begin {frames : List Frame} {t : Token} {next : Reading}
    (begins : beginValue frames t = some next) : Reached (before frames ++ [t]) next := by
  cases t with
  | mark m =>
    cases m <;> cases begins
    · exact .itemOrEnd frames
    · exact .memberOrEnd none frames
  | null =>
    cases begins
    exact reached_add frames .null
  | bool b =>
    cases begins
    exact reached_add frames (.bool b)
  | number n =>
    cases begins
    exact reached_add frames (.number n)
  | text s =>
    cases begins
    exact reached_add frames (.text s)

theorem reached_array (v : Json) (items : List Json) (frames : List Frame) :
    Reached (before frames ++ .mark .arrayOpen :: (itemsSoFar items ++ tokens v) ++
      [.mark .arrayClose]) (add frames (.array (v :: items).reverse)) := by
  have done := reached_add frames (.array (v :: items).reverse)
  rw [tokens_array] at done
  simpa using done

theorem reached_object (name : Option String) (v : Json) (members : List (Option String × Json))
    (frames : List Frame) :
    Reached (before frames ++ .mark .objectOpen ::
        (membersSoFar members ++ (.text name :: .mark .colon :: tokens v)) ++
      [.mark .objectClose]) (add frames (.object ((name, v) :: members).reverse)) := by
  have done := reached_add frames (.object ((name, v) :: members).reverse)
  rw [tokens_object] at done
  simpa using done

/-- Every token that is read takes the reading on by that token. -/
theorem Reached.step {done : List Token} {r next : Reading} {t : Token} (reached : Reached done r)
    (taken : r.step t = some next) : Reached (done ++ [t]) next := by
  cases reached with
  | value frames => exact reached_begin taken
  | itemOrEnd frames =>
    by_cases close : t = .mark .arrayClose
    · subst close
      cases taken
      simpa [tokens, itemTokens] using reached_add frames (.array [])
    · have begins : beginValue (.array [] :: frames) t = some next :=
        (expects_item _ t close).symm.trans taken
      simpa [before, itemsSoFar] using reached_begin begins
  | memberOrEnd name frames =>
    cases t with
    | text s =>
      cases taken
      simpa [membersSoFar] using Reached.colon [] s frames
    | mark m =>
      cases m <;> cases taken
      simpa [tokens, memberTokens] using reached_add frames (.object [])
    | null | bool | number => cases taken
  | member members name frames =>
    cases t with
    | text s =>
      cases taken
      simpa using Reached.colon members s frames
    | mark m => cases m <;> cases taken
    | null | bool | number => cases taken
  | colon members name frames =>
    cases t with
    | mark m =>
      cases m <;> cases taken
      simpa [before] using Reached.value (.object members name :: frames)
    | null | bool | number | text => cases taken
  | item v items frames =>
    cases t with
    | mark m =>
      cases m <;> cases taken
      · exact reached_array v items frames
      · simpa [before, itemsSoFar_cons] using Reached.value (.array (v :: items) :: frames)
    | null | bool | number | text => cases taken
  | memberDone name other v members frames =>
    cases t with
    | mark m =>
      cases m <;> cases taken
      · exact reached_object name v members frames
      · simpa [membersSoFar_cons] using Reached.member ((name, v) :: members) other frames
    | null | bool | number | text => cases taken
  | nothing v =>
    cases t with
    | mark m => cases m <;> cases taken
    | null | bool | number | text => cases taken

theorem Reached.read {done : List Token} {r last : Reading} {rest : List Token}
    (reached : Reached done r) (taken : Json.read r rest = some last) :
    Reached (done ++ rest) last := by
  induction rest generalizing done r with
  | nil =>
    cases taken
    simpa using reached
  | cons t rest ih =>
    unfold Json.read at taken
    rw [List.foldlM_cons] at taken
    obtain ⟨next, now, later⟩ := Option.bind_eq_some_iff.mp taken
    simpa using ih (reached.step now) later

/-- Tokens that are read as a value are the tokens of that value. -/
theorem tokens_of_ofTokens? {all : List Token} {v : Json} (read : ofTokens? all = some v) :
    all = tokens v := by
  obtain ⟨last, taken, result⟩ := Option.bind_eq_some_iff.mp read
  have reached : Reached all last := (Reached.value []).read taken
  unfold result? at result
  split at result
  · rename_i want
    cases reached <;> cases want
    cases result
    rfl
  · cases result

/-- The text is one value, spelled in one way or another, and blanks. -/
def Spells (text : String) (v : Json) : Prop := Spelled (tokens v) text.toList

/-- A text is read as the value that it spells, and refused if it spells none. -/
theorem parse?_eq_some_iff {text : String} {v : Json} : parse? text = some v ↔ Spells text v := by
  unfold parse? ofLetters? Utf8.letters Spells
  constructor
  · intro read
    obtain ⟨all, found, value⟩ := Option.bind_eq_some_iff.mp read
    obtain rfl := tokens_of_ofTokens? value
    exact (tokens?_eq_some_iff (spaced_value v) _).mp found
  · intro spelled
    rw [(tokens?_eq_some_iff (spaced_value v) _).mpr spelled, Option.bind_some, ofTokens?_tokens]

end SignalHub.Json
