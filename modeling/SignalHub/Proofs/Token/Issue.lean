import SignalHub.Proofs.Hub.Run
import SignalHub.Proofs.Json.RoundTrip
import SignalHub.Proofs.Message.Events
import SignalHub.Proofs.Text.Utf8
import SignalHub.Proofs.Token.Verify
import SignalHub.Token.Issue

/-! A written token falls into the three segments that it was put together from, and each is read
back (`claims?_write`). So whoever is issued a token is told by it as long as it has not expired,
and it is invalid from then on; there is none exactly if the span or the date is out of range
(`issue_then_verify`). -/
namespace SignalHub

theorem Word.isSigned_iff {i : Int} :
    Word.isSigned i = true ↔ -(Word.signedBound : Int) ≤ i ∧ i < (Word.signedBound : Int) := by
  simp [Word.isSigned]

namespace Json

/-- An integer that fits in a signed word is read back. -/
theorem integer?_ofInt {i : Int} (signed : Word.isSigned i = true) : (ofInt i).integer? = some i := by
  obtain ⟨least, most⟩ := Word.isSigned_iff.mp signed
  simp only [Word.signedBound] at least most
  change (Numeral.ofInt i).integer? = some i
  by_cases negative : i < 0
  · have small : 0 < i.natAbs ∧ i.natAbs ≤ Word.signedBound := by
      simp only [Word.signedBound]
      omega
    simp only [Numeral.integer?, Numeral.ofInt, negative, decide_true, and_self, if_true, small,
      Option.some.injEq]
    omega
  · obtain ⟨n, rfl⟩ := Int.eq_ofNat_of_zero_le (Int.not_lt.mp negative)
    exact Numeral.integer?_ofInt (by simp only [UInt64.size]; omega)

end Json

namespace Base64Url

theorem letter_ne_dot : ∀ n < 64, letter n ≠ '.' := by
  decide

theorem dot_not_mem_encode (bytes : List UInt8) : '.' ∉ encode bytes := by
  intro found
  obtain ⟨g, group, dot⟩ := List.mem_map.mp found
  exact letter_ne_dot g (groups_sextets bytes g group) dot

end Base64Url

namespace Token

namespace Claims

def members (c : Claims) : List (String × Json) :=
  [("sub", .ofString c.subject), ("exp", .ofInt c.expiry)] ++
    if c.kind.isEmpty then [] else [("type", .ofString c.kind)]

theorem distinct_members (c : Claims) : Json.Distinct c.members := by
  unfold members Json.Distinct
  split <;> simp

theorem lookup_type (c : Claims) :
    c.members.lookup "type" = if c.kind.isEmpty then none else some (.ofString c.kind) := by
  unfold members
  split <;> rfl

theorem ofJson?_toJson {c : Claims} (signed : Word.isSigned c.expiry = true) :
    ofJson? c.toJson = some c := by
  obtain ⟨fields, read, held⟩ := Json.fields?_ofMembers ["sub", "exp", "type"] c.distinct_members
  have known : c.toJson.fields? ["sub", "exp", "type"] = some fields := read
  have subject : fields.required "sub" Json.string? = some c.subject := by
    rw [Json.Fields.required, held "sub" (by simp)]
    rfl
  have expiry : fields.required "exp" expiry? = some c.expiry := by
    have stored : c.members.lookup "exp" = some (.ofInt c.expiry) := rfl
    rw [Json.Fields.required, held "exp" (by simp), stored, Option.bind_some, expiry?,
      Json.integer?_ofInt signed, Option.filter_some, if_pos signed]
  have kind : fields.withDefault "type" Json.string? "" = some c.kind := by
    rw [Json.Fields.withDefault, held "type" (by simp), lookup_type]
    by_cases untyped : c.kind.isEmpty = true
    · rw [if_pos untyped, String.isEmpty_iff.mp untyped]
    · rw [if_neg untyped]
      rfl
  rw [ofJson?, known]
  simp only [Option.bind_eq_bind, Option.bind_some, subject, expiry, kind]
  rfl

theorem wellFormed_object (members : List (Option String × Json)) :
    wellFormed (.object members) =
      ((Json.object members).fields? ["exp", "nbf", "sub", "iss", "aud"]).any fun fields =>
        (fields "nbf").all skippable && (fields "iss").all keepable &&
          (fields "aud").all fun v => keepable v && !isAudience v := by
  rw [wellFormed]
  cases (Json.object members).fields? ["exp", "nbf", "sub", "iss", "aud"] <;> rfl

/-- Claims that are written name no audience, no issuer and no first second. -/
theorem wellFormed_toJson (c : Claims) : wellFormed c.toJson = true := by
  obtain ⟨fields, read, held⟩ :=
    Json.fields?_ofMembers ["exp", "nbf", "sub", "iss", "aud"] c.distinct_members
  have known : c.toJson.fields? ["exp", "nbf", "sub", "iss", "aud"] = some fields := read
  have unnamed (name : String) (other : name = "nbf" ∨ name = "iss" ∨ name = "aud") :
      fields name = none := by
    rw [held name (by rcases other with rfl | rfl | rfl <;> simp), members]
    rcases other with rfl | rfl | rfl <;> split <;> rfl
  have unfolded : wellFormed c.toJson =
      (c.toJson.fields? ["exp", "nbf", "sub", "iss", "aud"]).any fun fields =>
        (fields "nbf").all skippable && (fields "iss").all keepable &&
          (fields "aud").all fun v => keepable v && !isAudience v := wellFormed_object _
  rw [unfolded, known]
  simp [unnamed]

end Claims

variable {secret : String} {claims : Claims}

theorem headerJson?_segment (v : Json) : headerJson? (segment v) = some v := by
  have text := Utf8.text?_eq_some_iff.mpr (rfl : Utf8.encode v.render = _)
  rw [headerJson?, segment, Base64Url.decode_encode]
  simp only [Option.bind_eq_bind, Option.bind_some, text]
  exact v.parse?_render

theorem claimsJson?_segment (v : Json) : claimsJson? (segment v) = some v := by
  rw [claimsJson?, segment, Base64Url.decode_encode]
  simp only [Option.bind_eq_bind, Option.bind_some, Utf8.decode_encode]
  exact v.parse?_render

theorem dot_not_mem_segment (v : Json) : '.' ∉ segment v := Base64Url.dot_not_mem_encode _

theorem dot_not_mem_sign (secret : String) (text : List Char) : '.' ∉ sign secret text :=
  Base64Url.dot_not_mem_encode _

/-- The segments that a token is put together from. -/
def segmentsOf (secret : String) (claims : Claims) : Segments :=
  ⟨segment Header.written, segment claims.toJson,
    sign secret (Segments.signed (segment Header.written) (segment claims.toJson))⟩

/-- It falls into these again, since base64 has no dot. -/
theorem segments_write (secret : String) (claims : Claims) :
    Segments.ofChars? (write secret claims).toList = some (segmentsOf secret claims) := by
  have written : write secret claims = String.ofList (segmentsOf secret claims).chars := rfl
  rw [written, String.toList_ofList, Segments.ofChars?_eq_some]
  refine ⟨rfl, ?_⟩
  simp only [segmentsOf, List.forall_mem_cons]
  exact ⟨dot_not_mem_segment _, dot_not_mem_segment _, dot_not_mem_sign _ _, by simp⟩

theorem write_ne_empty (secret : String) (claims : Claims) : write secret claims ≠ "" := by
  intro empty
  have segments := segments_write secret claims
  rw [empty] at segments
  cases segments

theorem guard_of {p : Prop} [Decidable p] (holds : p) : (guard p : Option Unit) = some () :=
  if_pos holds

theorem bind_of {α β : Type} {x : Option α} {a : α} (found : x = some a) (f : α → Option β) :
    (x >>= f) = f a := by
  rw [found]
  rfl

/-- What is written is read back as long as it has not expired. -/
theorem claims?_write (signed : Word.isSigned claims.expiry = true) (now : Int) :
    claims? secret now (write secret claims) =
      if 0 ≤ claims.expiry ∧ now ≤ claims.expiry then some claims else none := by
  have accepted : Header.accepts Header.written = true := by decide +kernel
  have header : headerJson? (segmentsOf secret claims).header = some Header.written := by
    simp only [segmentsOf, headerJson?_segment]
  have genuine : (segmentsOf secret claims).signature = sign secret (Segments.signed
      (segmentsOf secret claims).header (segmentsOf secret claims).claims) := by
    rw [segmentsOf]
  have read : claimsJson? (segmentsOf secret claims).claims = some claims.toJson := by
    simp only [segmentsOf, claimsJson?_segment]
  rw [claims?, bind_of (segments_write secret claims), bind_of header, bind_of (guard_of accepted),
    bind_of (guard_of genuine), bind_of read, bind_of (Claims.ofJson?_toJson signed),
    bind_of (guard_of (Claims.wellFormed_toJson claims))]
  by_cases current : 0 ≤ claims.expiry ∧ now ≤ claims.expiry
  · rw [guard_of current, if_pos current]
    rfl
  · rw [if_neg current]
    exact congrArg (Option.bind · _) (if_neg current)

/-- Of whom a token is written is told until it expires. -/
theorem verify_write {user : Uuid} (own : claims.subject = user.text)
    (signed : Word.isSigned claims.expiry = true) (now : Int) :
    verify secret now (write secret claims) =
      if 0 ≤ claims.expiry ∧ now ≤ claims.expiry then .ok user else .error .invalidToken := by
  have looked : claims? secret now (write secret claims) = _ := claims?_write signed now
  by_cases current : 0 ≤ claims.expiry ∧ now ≤ claims.expiry
  · rw [if_pos current] at looked ⊢
    exact verify_eq_ok.mpr ⟨claims, looked, own ▸ user.parse?_text⟩
  · rw [if_neg current] at looked ⊢
    exact verify_of_none looked

/-- Nanoseconds in a second. -/
def nanos : Int := 1000000000

/-- The second that an instant, in nanoseconds, is in. -/
def secondOf (instant : Int) : Int := instant / nanos

/-- The calendar goes from the beginning of its first second to the end of its last one. -/
def OnCalendar (instant : Int) : Prop :=
  firstSecond * nanos ≤ instant ∧ instant < (lastSecond + 1) * nanos

/-- Whether a date is on the calendar shows in its second. -/
theorem onCalendar_iff (instant seconds : Int) :
    OnCalendar (instant + seconds * nanos) ↔
      firstSecond ≤ secondOf instant + seconds ∧ secondOf instant + seconds ≤ lastSecond := by
  simp only [OnCalendar, secondOf, nanos, firstSecond, lastSecond]
  omega

/-- A number of seconds that is a span of time. -/
def IsSpan (seconds : Int) : Prop := -longestSpan ≤ seconds ∧ seconds ≤ longestSpan

theorem issue_eq (secret : String) (instant : Int) (user : Uuid) (seconds : Int) :
    (¬ IsSpan seconds → issue secret (secondOf instant) user seconds = .error .spanOutOfRange) ∧
    (IsSpan seconds → ¬ OnCalendar (instant + seconds * nanos) →
      issue secret (secondOf instant) user seconds = .error .dateOutOfRange) ∧
    (IsSpan seconds → OnCalendar (instant + seconds * nanos) →
      issue secret (secondOf instant) user seconds =
        .ok (write secret ⟨user.text, secondOf instant + seconds, "access"⟩)) := by
  rw [onCalendar_iff]
  unfold IsSpan issue
  refine ⟨fun span => ?_, fun span date => ?_, fun span date => ?_⟩
  · rw [if_pos (by omega)]
  · rw [if_neg (by omega), if_pos (by omega)]
  · rw [if_neg (by omega), if_neg (by omega)]

/-- A token is issued unless the number of seconds is no span of time or its last second is not on the
calendar. It has three segments, and is good for its user, whenever a clock that counts from 1970 shows
no later second than its last one; from then on it is invalid. -/
theorem issue_then_verify (secret : String) (user : Uuid) (instant seconds : Int) :
    let issued := issue secret (secondOf instant) user seconds
    let expiry := secondOf instant + seconds
    (issued = .error .spanOutOfRange ↔ ¬ IsSpan seconds) ∧
    (issued = .error .dateOutOfRange ↔
      IsSpan seconds ∧ ¬ OnCalendar (instant + seconds * nanos)) ∧
    ((∃ token, issued = .ok token) ↔ IsSpan seconds ∧ OnCalendar (instant + seconds * nanos)) ∧
    ∀ token, issued = .ok token →
      (Segments.ofChars? token.toList).isSome = true ∧
      ∀ t : Nat,
        (verify secret t token = .ok user ↔ t ≤ expiry) ∧
        (verify secret t token = .error .invalidToken ↔ expiry < t) := by
  intro issued expiry
  obtain ⟨long, late, good⟩ := issue_eq secret instant user seconds
  by_cases span : IsSpan seconds
  · by_cases date : OnCalendar (instant + seconds * nanos)
    · have made : issued = _ := good span date
      refine ⟨by simp [made, span], by simp [made, date], by simp [made, span, date], ?_⟩
      intro token same
      obtain rfl : write secret ⟨user.text, expiry, "access"⟩ = token :=
        Except.ok.inj (made.symm.trans same)
      refine ⟨by rw [segments_write]; rfl, fun t => ?_⟩
      have signed : Word.isSigned expiry = true := by
        have bounds := (onCalendar_iff instant seconds).mp date
        simp only [firstSecond, lastSecond] at bounds
        rw [Word.isSigned_iff]
        simp only [Word.signedBound]
        omega
      have told : verify secret t (write secret ⟨user.text, expiry, "access"⟩) = _ :=
        verify_write rfl signed t
      rw [told]
      by_cases current : (t : Int) ≤ expiry
      · have past : ¬ expiry < t := by omega
        have both : 0 ≤ expiry ∧ (t : Int) ≤ expiry := ⟨by omega, current⟩
        simp [both, past]
      · have past : expiry < t := by omega
        simp [current, past]
    · have made : issued = _ := late span date
      simp [made, span, date]
  · have made : issued = _ := long span
    simp [made, span]

/-- A token of five minutes, issued in the middle of a second: its last second, and the one after it. -/
theorem issue_then_verify_last_second :
    ∃ token, issue "test-secret" (secondOf 1700000000500000000) (.repeated 1) 300 = .ok token ∧
      (Segments.ofChars? token.toList).isSome = true ∧
      verify "test-secret" 1700000300 token = .ok (.repeated 1) ∧
      verify "test-secret" 1700000301 token = .error .invalidToken := by
  obtain ⟨-, -, issued, good⟩ :=
    issue_then_verify "test-secret" (.repeated 1) 1700000000500000000 300
  have range : IsSpan 300 ∧ OnCalendar (1700000000500000000 + 300 * nanos) := by
    unfold IsSpan OnCalendar
    decide
  obtain ⟨token, made⟩ := issued.mpr range
  obtain ⟨segments, known⟩ := good token made
  exact ⟨token, made, segments, (known 1700000300).1.mpr (by decide),
    (known 1700000301).2.mpr (by decide)⟩

end Token
end SignalHub
