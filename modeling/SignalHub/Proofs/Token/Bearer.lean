import SignalHub.Proofs.Http.Uri
import SignalHub.Proofs.Text.Blank
import SignalHub.Proofs.Text.Form
import SignalHub.Token.Bearer

/-! The first authorization header decides alone if there is one, and else the first pair of the
query that is named for tokens. So whoever has no header may write any token into the query,
together with any other pairs, and it is taken from there (`carried_in_header_or_query`). -/
namespace SignalHub

namespace Http.Header

/-- The characters of a header value, one for each byte. -/
def chars (value : List UInt8) : List Char := value.map fun b => Char.ofNat b.toNat

end Http.Header

namespace Token

open Http (Request Header)

/-- A header value bears a token. It can be seen as a whole, and after a word, in either case, and a
space there is the token, with blanks around it or without. -/
structure Bears (value : List UInt8) (token : String) : Prop where
  visible : value.all Header.visible = true
  stands : ∃ word before after,
    Header.chars value = word ++ ' ' :: (before ++ token.toList ++ after) ∧
    word.map Char.toLower = "bearer".toList ∧
    before.all Blank.isBlank = true ∧ after.all Blank.isBlank = true
  bare : Blank.Bare token.toList
  filled : token ≠ ""

variable {r : Request} {h : Header} {token : String}

theorem ofAuthorization?_word {word : List Char} (spaceless : ' ' ∉ word) (rest : List Char) :
    ofAuthorization? (word ++ ' ' :: rest) =
      if word.map Char.toLower = "bearer".toList ∧ Blank.trimmed rest ≠ [] then
        some (String.ofList (Blank.trimmed rest)) else none := by
  simp [ofAuthorization?, Parts.cut_append spaceless]

theorem ofAuthorization?_eq_some_iff {text : List Char} : ofAuthorization? text = some token ↔
    ∃ word rest, text = word ++ ' ' :: rest ∧ word.map Char.toLower = "bearer".toList ∧
      Blank.trimmed rest = token.toList ∧ token ≠ "" := by
  have unspaced {word : List Char} (bearer : word.map Char.toLower = "bearer".toList) :
      ' ' ∉ word := by
    intro member
    have lower : ' ' ∈ word.map Char.toLower := List.mem_map.mpr ⟨' ', member, rfl⟩
    rw [bearer] at lower
    exact absurd lower (by decide)
  constructor
  · intro found
    by_cases spaced : ' ' ∈ text
    · obtain ⟨word, rest, rfl, spaceless⟩ := List.eq_append_cons_of_mem spaced
      rw [ofAuthorization?_word spaceless] at found
      split at found
      · rename_i bears
        obtain rfl := Option.some.inj found
        refine ⟨word, rest, rfl, bears.1, String.toList_ofList.symm, ?_⟩
        rw [← String.ofList_nil, ne_eq, String.ofList_inj]
        exact bears.2
      · cases found
    · rw [ofAuthorization?, Parts.cut_of_not_mem spaced] at found
      simp [Blank.trimmed, Blank.dropEnd] at found
  · rintro ⟨word, rest, rfl, bearer, trimmed, filled⟩
    rw [ofAuthorization?_word (unspaced bearer), trimmed, String.ofList_toList, if_pos]
    exact ⟨bearer, fun empty => filled (String.toList_eq_nil_iff.mp empty)⟩

/-- What is found in a header value is what it bears. -/
theorem found_iff_bears :
    h.readable?.bind ofAuthorization? = some token ↔ Bears h.value token := by
  rw [Header.readable?]
  constructor
  · intro found
    split at found
    · rename_i visible
      obtain ⟨word, rest, text, bearer, trimmed, filled⟩ := ofAuthorization?_eq_some_iff.mp found
      obtain ⟨bare, before, after, rfl, front, back⟩ := Blank.trimmed_eq_iff.mp trimmed
      exact ⟨visible, ⟨word, before, after, text, bearer, front, back⟩, bare, filled⟩
    · cases found
  · rintro ⟨visible, ⟨word, before, after, text, bearer, front, back⟩, bare, filled⟩
    rw [if_pos visible, Option.bind_some, ofAuthorization?_eq_some_iff]
    exact ⟨word, _, text, bearer,
      Blank.trimmed_eq_iff.mpr ⟨bare, before, after, rfl, front, back⟩, filled⟩

theorem ofRequest_of_header (given : r.header? "authorization" = some h) :
    ofRequest r = (h.readable?.bind ofAuthorization?).elim (.error .malformedHeader) .ok := by
  rw [ofRequest, given]
  dsimp only
  cases h.readable?.bind ofAuthorization? <;> rfl

theorem ofRequest_eq_ok_iff (given : r.header? "authorization" = some h) :
    ofRequest r = .ok token ↔ Bears h.value token := by
  rw [ofRequest_of_header given, ← found_iff_bears]
  cases h.readable?.bind ofAuthorization? <;> simp

theorem ofRequest_of_unborne (given : r.header? "authorization" = some h)
    (unborne : ∀ token, ¬ Bears h.value token) : ofRequest r = .error .malformedHeader := by
  have nothing : h.readable?.bind ofAuthorization? = none :=
    Option.eq_none_iff_forall_ne_some.mpr fun token found =>
      unborne token (found_iff_bears.mp found)
  rw [ofRequest_of_header given, nothing]
  rfl

theorem ofRequest_congr {r' : Request} {h' : Header} (given : r.header? "authorization" = some h)
    (given' : r'.header? "authorization" = some h') (same : h'.value = h.value) :
    ofRequest r' = ofRequest r := by
  rw [ofRequest_of_header given, ofRequest_of_header given', Header.readable?, Header.readable?, same]

theorem ofRequest_of_query (absent : r.header? "authorization" = none) :
    ofRequest r = ((r.uri.query.bind ofQuery?).elim (.error .missingToken) .ok) := by
  rw [ofRequest, absent]
  dsimp only
  cases r.uri.query.bind ofQuery? <;> rfl

/-- The first pair of that name decides. -/
theorem ofQuery?_of_first {query : List UInt8} {before after : List (String × String)}
    {value : String} (pairs : Form.parse query = before ++ ("token", value) :: after)
    (others : ∀ p ∈ before, p.1 ≠ "token") :
    ofQuery? query = if value = "" then none else some value := by
  have first : (Form.parse query).find? (fun p => p.1 == "token") = some ("token", value) := by
    rw [List.find?_eq_some_iff_append]
    exact ⟨by simp, before, after, pairs, fun p member => by simp [others p member]⟩
  rw [ofQuery?, first]
  simp [String.isEmpty_iff]

theorem ofQuery?_of_others {query : List UInt8}
    (others : ∀ p ∈ Form.parse query, p.1 ≠ "token") : ofQuery? query = none := by
  have none_ : (Form.parse query).find? (fun p => p.1 == "token") = none := by
    rw [List.find?_eq_none]
    exact fun p member => by simp [others p member]
  rw [ofQuery?, none_]
  rfl

theorem numberSign_not_mem_encode (pairs : List (String × String)) :
    Http.Uri.numberSign ∉ Form.encode pairs := by
  intro member
  rcases Form.mem_encode member with written | mark | mark
  · exact Form.ne_of_written written (by decide) (by decide) rfl
  · exact absurd mark (by decide)
  · exact absurd mark (by decide)

/-- A token that is written into the query is taken from it. -/
theorem ofRequest_of_encode (absent : r.header? "authorization" = none)
    {before after : List (String × String)} (filled : token ≠ "")
    (others : ∀ p ∈ before, p.1 ≠ "token")
    (asked : r.uri.query = some (Form.encode (before ++ ("token", token) :: after))) :
    ofRequest r = .ok token := by
  rw [ofRequest_of_query absent, asked, Option.bind_some,
    ofQuery?_of_first (Form.parse_encode _) others, if_neg filled]
  rfl

/-- If there is an authorization header, the first one decides alone: the token is what its value bears,
and if it bears none the header is malformed. If there is none, the value of the first pair in the query
that is named for tokens is the token, unless it is empty. So any token at all that is written into the
query of a target, after pairs of other names and before any pairs, is taken from it. -/
theorem carried_in_header_or_query (r : Request) :
    (∀ h, r.header? "authorization" = some h →
      (∀ token, ofRequest r = .ok token ↔ Bears h.value token) ∧
      ((∀ token, ¬ Bears h.value token) → ofRequest r = .error .malformedHeader) ∧
      ∀ r' h', r'.header? "authorization" = some h' → h'.value = h.value →
        ofRequest r' = ofRequest r) ∧
    (r.header? "authorization" = none →
      (r.uri.query = none → ofRequest r = .error .missingToken) ∧
      (∀ query, r.uri.query = some query →
        ((∀ p ∈ Form.parse query, p.1 ≠ "token") → ofRequest r = .error .missingToken) ∧
        ∀ before value after, Form.parse query = before ++ ("token", value) :: after →
          (∀ p ∈ before, p.1 ≠ "token") →
          ofRequest r = if value = "" then .error .missingToken else .ok value) ∧
      ∀ target before token after, token ≠ "" → (∀ p ∈ before, p.1 ≠ "token") →
        Http.Uri.Asks target (Form.encode (before ++ ("token", token) :: after)) →
        Http.Uri.ofBytes? target = some r.uri → ofRequest r = .ok token) := by
  refine ⟨fun h given => ⟨fun token => ofRequest_eq_ok_iff given, ofRequest_of_unborne given,
    fun r' h' => ofRequest_congr given⟩, fun absent => ⟨fun unasked => ?_, ?_, ?_⟩⟩
  · rw [ofRequest_of_query absent, unasked]
    rfl
  · intro query asked
    rw [ofRequest_of_query absent, asked, Option.bind_some]
    refine ⟨fun others => ?_, fun before value after pairs others => ?_⟩
    · rw [ofQuery?_of_others others]
      rfl
    · rw [ofQuery?_of_first pairs others]
      split <;> rfl
  · intro target before token after filled others asks accepted
    exact ofRequest_of_encode absent filled others
      (Http.Uri.query_of_ofBytes? asks (numberSign_not_mem_encode _) accepted)

/-- A token with a space and a plus sign is taken from a query in which a name of two words comes before
it and an empty token after it. With the same query, the first of two headers counts, and a header that
cannot be read is malformed. -/
theorem carried_in_header_or_query_both :
    let query := "tok+en=a%26token%3Db&token=c+d%2Be&token="
    let uri : Http.Uri := ⟨Utf8.encode "/ws", some (Utf8.encode query)⟩
    let first : Header := ⟨"AUTHORIZATION", Utf8.encode "bEARer \t f g "⟩
    let second : Header := ⟨"authorization", Utf8.encode "Bearer h"⟩
    let foreign : Header := ⟨"Authorization", Utf8.encode "Bearer é"⟩
    Http.Uri.parse? ("/ws?" ++ query) = some uri ∧
      ofRequest ⟨"GET", uri, []⟩ = .ok "c d+e" ∧
      ofRequest ⟨"GET", uri, [first, second]⟩ = .ok "f g" ∧
      ofRequest ⟨"GET", uri, [foreign, second]⟩ = .error .malformedHeader := by
  intro query uri first second foreign
  have accepted : Http.Uri.parse? ("/ws?" ++ query) = some uri := by decide +kernel
  have asks : Http.Uri.Asks (Utf8.encode ("/ws?" ++ query))
      (Form.encode ([("tok en", "a&token=b")] ++ ("token", "c d+e") :: [("token", "")])) :=
    ⟨Utf8.encode "/ws", [], by decide +kernel, by decide +kernel, by decide +kernel, nofun⟩
  have trimmed : Blank.trimmed "\t f g ".toList = "f g".toList := by decide +kernel
  have bears : Bears first.value "f g" :=
    ⟨by decide +kernel, ⟨"bEARer".toList, "\t ".toList, " ".toList, by decide +kernel,
      by decide, by decide, by decide⟩, (Blank.trimmed_eq_iff.mp trimmed).1, by decide⟩
  have unborne (token : String) : ¬ Bears foreign.value token := fun bears =>
    absurd bears.visible (by decide +kernel)
  obtain ⟨-, asked⟩ := carried_in_header_or_query ⟨"GET", uri, []⟩
  obtain ⟨header, -⟩ := carried_in_header_or_query ⟨"GET", uri, [first, second]⟩
  obtain ⟨malformed, -⟩ := carried_in_header_or_query ⟨"GET", uri, [foreign, second]⟩
  refine ⟨accepted, ?_, ?_, ?_⟩
  · exact (asked rfl).2.2 _ _ _ _ (by decide) (by decide) asks accepted
  · exact ((header first (by decide +kernel)).1 "f g").mpr bears
  · exact (malformed foreign (by decide +kernel)).2.1 unborne

end Token
end SignalHub
