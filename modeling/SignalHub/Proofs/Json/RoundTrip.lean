import SignalHub.Json.Reader
import SignalHub.Proofs.Json.Scan

/-! The tokens of a value are read as that value wherever a value may come (`read_tokens`), and they
are written so that none run together (`spaced_tokens`). So the text of a value stands for that
value (`parse?_render`), whatever its texts, numerals and nesting. -/
namespace SignalHub.Json

namespace Reading

/-- A reading that takes the next token for the start of a value, but for the end of an array. -/
def Expects (r : Reading) : Prop := ∀ t, t ≠ .mark .arrayClose → r.step t = beginValue r.frames t

theorem expects_value (frames : List Frame) : Expects ⟨frames, .value⟩ := by
  intro t _
  rfl

theorem expects_item (frames : List Frame) : Expects ⟨frames, .itemOrEnd⟩ := by
  intro t open_
  unfold step
  split <;> simp_all

end Reading

open Reading

/-- Reads tokens one by one. -/
def read (r : Reading) (tokens : List Token) : Option Reading := tokens.foldlM step r

theorem read_cons {r next : Reading} {t : Token} (step : r.step t = some next) (rest : List Token) :
    read r (t :: rest) = read next rest := by
  simp [read, step]

theorem read_begin {r next : Reading} {t : Token} (expects : r.Expects)
    (open_ : t ≠ .mark .arrayClose) (begins : beginValue r.frames t = some next)
    (rest : List Token) : read r (t :: rest) = read next rest :=
  read_cons ((expects t open_).trans begins) rest

theorem read_arrayEnd (done : List Json) (frames : List Frame) (rest : List Token) :
    read ⟨.array done.reverse :: frames, .commaOrEnd⟩ (.mark .arrayClose :: rest) =
      read (add frames (.array done)) rest := by
  have closed : step ⟨.array done.reverse :: frames, .commaOrEnd⟩ (.mark .arrayClose) =
      some (add frames (.array done.reverse.reverse)) := rfl
  rw [read_cons closed, List.reverse_reverse]

theorem read_objectEnd (done : List (Option String × Json)) (frames : List Frame)
    (name : Option String) (rest : List Token) :
    read ⟨.object done.reverse name :: frames, .commaOrEnd⟩ (.mark .objectClose :: rest) =
      read (add frames (.object done)) rest := by
  have closed : step ⟨.object done.reverse name :: frames, .commaOrEnd⟩ (.mark .objectClose) =
      some (add frames (.object done.reverse.reverse)) := rfl
  rw [read_cons closed, List.reverse_reverse]

theorem read_name (members : List (Option String × Json)) (frames : List Frame)
    (before name : Option String) (rest : List Token) :
    read ⟨.object members before :: frames, .member⟩ (.text name :: .mark .colon :: rest) =
      read ⟨.object members name :: frames, .value⟩ rest :=
  (read_cons rfl _).trans (read_cons rfl rest)

mutual

/-- Wherever a value may come, its tokens are read as that value. -/
theorem read_tokens (v : Json) {r : Reading} (expects : r.Expects) (rest : List Token) :
    read r (tokens v ++ rest) = read (add r.frames v) rest := by
  match v with
  | .null | .bool _ | .number _ | .text _ => exact read_begin expects (by simp) rfl rest
  | .array [] | .object [] => exact (read_begin expects (by simp) rfl _).trans (read_cons rfl rest)
  | .array (first :: items) =>
    rw [tokens, itemTokens, List.cons_append, List.append_assoc, read_begin expects (by simp) rfl,
      read_tokens first (expects_item _)]
    exact read_moreItems items [first] r.frames rest
  | .object ((name, first) :: members) =>
    simp only [tokens, memberTokens, List.cons_append, List.append_assoc]
    rw [read_begin expects (by simp) rfl]
    refine (read_name [] r.frames none name _).trans ?_
    rw [read_tokens first (expects_value _)]
    exact read_moreMembers members [(name, first)] r.frames name rest

theorem read_moreItems (items done : List Json) (frames : List Frame) (rest : List Token) :
    read ⟨.array done.reverse :: frames, .commaOrEnd⟩ (moreItemTokens items ++ rest) =
      read (add frames (.array (done ++ items))) rest := by
  match items with
  | [] => simpa [moreItemTokens] using read_arrayEnd done frames rest
  | v :: items =>
    have later := read_moreItems items (done ++ [v]) frames rest
    simp only [moreItemTokens, List.cons_append, List.append_assoc]
    refine (read_cons rfl _).trans ?_
    rw [read_tokens v (expects_value _)]
    simpa [add] using later

theorem read_moreMembers (members done : List (Option String × Json)) (frames : List Frame)
    (before : Option String) (rest : List Token) :
    read ⟨.object done.reverse before :: frames, .commaOrEnd⟩ (moreMemberTokens members ++ rest) =
      read (add frames (.object (done ++ members))) rest := by
  match members with
  | [] => simpa [moreMemberTokens] using read_objectEnd done frames before rest
  | (name, v) :: members =>
    have later := read_moreMembers members (done ++ [(name, v)]) frames name rest
    simp only [moreMemberTokens, List.cons_append, List.append_assoc]
    refine (read_cons rfl _).trans ((read_name done.reverse frames before name _).trans ?_)
    rw [read_tokens v (expects_value _)]
    simpa [add] using later

end

/-- What follows a value begins with a mark, or is nothing. -/
def Closed (rest : List Token) : Prop := rest.head?.all (fun next => !next.isBare) = true

theorem closed_mark (m : Mark) (rest : List Token) : Closed (.mark m :: rest) := rfl

theorem closed_moreItems (items : List Json) (rest : List Token) :
    Closed (moreItemTokens items ++ rest) := by
  cases items <;> exact closed_mark _ _

theorem closed_moreMembers (members : List (Option String × Json)) (rest : List Token) :
    Closed (moreMemberTokens members ++ rest) := by
  cases members <;> exact closed_mark _ _

theorem spaced_bare {t : Token} {rest : List Token} (closed : Closed rest)
    (apart : spaced rest = true) : spaced (t :: rest) = true := by
  have next : rest.head?.all (fun next => !next.isBare) = true := closed
  simp [spaced, next, apart]

theorem spaced_other {t : Token} (other : t.isBare = false) (rest : List Token) :
    spaced (t :: rest) = spaced rest := by
  simp [spaced, other]

theorem spaced_mark (m : Mark) (rest : List Token) : spaced (.mark m :: rest) = spaced rest :=
  spaced_other rfl rest

theorem spaced_text (s : Option String) (rest : List Token) :
    spaced (.text s :: rest) = spaced rest :=
  spaced_other rfl rest

mutual

theorem spaced_tokens (v : Json) {rest : List Token} (closed : Closed rest)
    (apart : spaced rest = true) : spaced (tokens v ++ rest) = true := by
  match v with
  | .null | .bool _ | .number _ | .text _ => exact spaced_bare closed apart
  | .array [] | .object [] => simpa [tokens, itemTokens, memberTokens, spaced_mark] using apart
  | .array (v :: items) =>
    rw [tokens, itemTokens, List.cons_append, List.append_assoc, spaced_mark]
    exact spaced_tokens v (closed_moreItems items rest) (spaced_moreItems items apart)
  | .object ((name, v) :: members) =>
    simp only [tokens, memberTokens, List.cons_append, List.append_assoc, spaced_mark, spaced_text]
    exact spaced_tokens v (closed_moreMembers members rest) (spaced_moreMembers members apart)

theorem spaced_moreItems (items : List Json) {rest : List Token} (apart : spaced rest = true) :
    spaced (moreItemTokens items ++ rest) = true := by
  match items with
  | [] => exact apart
  | v :: items =>
    rw [moreItemTokens, List.cons_append, List.cons_append, List.append_assoc, spaced_mark]
    exact spaced_tokens v (closed_moreItems items rest) (spaced_moreItems items apart)

theorem spaced_moreMembers (members : List (Option String × Json)) {rest : List Token}
    (apart : spaced rest = true) : spaced (moreMemberTokens members ++ rest) = true := by
  match members with
  | [] => exact apart
  | (name, v) :: members =>
    simp only [moreMemberTokens, List.cons_append, List.append_assoc, spaced_mark, spaced_text]
    exact spaced_tokens v (closed_moreMembers members rest) (spaced_moreMembers members apart)

end

theorem ofTokens?_tokens (v : Json) : ofTokens? (tokens v) = some v := by
  have all := read_tokens v (expects_value []) []
  rw [List.append_nil] at all
  have last : read start (tokens v) = some ⟨[], .nothing v⟩ := all
  unfold ofTokens?
  change (read start (tokens v)).bind result? = _
  rw [last]
  rfl

theorem spaced_value (v : Json) : spaced (tokens v) = true := by
  have apart : spaced (tokens v ++ []) = true := spaced_tokens v rfl rfl
  rwa [List.append_nil] at apart

/-- What is written is read back, whatever it is. -/
theorem parse?_render (v : Json) : parse? v.render = some v := by
  have found := tokens?_chars (spaced_value v)
  unfold parse? ofLetters? Utf8.letters render
  rw [String.toList_ofList, chars, found, Option.bind_some, ofTokens?_tokens]

end SignalHub.Json
