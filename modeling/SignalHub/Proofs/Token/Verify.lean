import SignalHub.Proofs.Json.Records
import SignalHub.Proofs.Text.Base64Url
import SignalHub.Proofs.Text.Parts
import SignalHub.Token.Verify

/-! A token whose claims are looked at is signed under the secret, names the algorithm, has not
expired and has no audience (`claims?_genuine`). Only such a token is told apart by its subject, so
a forged or expired one is refused as just that (`verify_sound`). -/
namespace SignalHub

namespace Token

namespace Header

/-- The one `alg` of the header, a member or the item in its place, is this name or an object with
only a member of this name. -/
def Names (v : Json) (algorithm : String) : Prop :=
  ∃ alg, (alg = .text (some algorithm) ∨ alg = .object [(some algorithm, .null)]) ∧
    ((∃ members, v = .object members ∧ Json.named "alg" members = [alg]) ∨
      ∃ items, v = .array items ∧ items[1]? = some alg)

theorem choice?_eq_some {v : Json} {name : String} (chosen : choice? v = some name) :
    v = .text (some name) ∨ v = .object [(some name, .null)] := by
  unfold choice? at chosen
  split at chosen <;> simp_all

theorem names_of_accepts {v : Json} (accepted : accepts v = true) : Names v "HS256" := by
  unfold accepts at accepted
  cases read : v.fields? fieldNames with
  | none => simp [read] at accepted
  | some fields =>
    simp only [read, Bool.and_eq_true, beq_iff_eq] at accepted
    have chosen := accepted.1.1.1.2
    obtain ⟨alg, held, chosen⟩ := Option.bind_eq_some_iff.mp chosen
    refine ⟨alg, choice?_eq_some chosen, ?_⟩
    cases v with
    | object members =>
      have one := Json.fields?_named read "alg" (by simp [fieldNames])
      exact .inl ⟨members, rfl, by rw [one, held]; rfl⟩
    | array items =>
      have place := Json.fields?_item read (by decide) (show fieldNames[1]? = some "alg" from rfl)
      exact .inr ⟨items, rfl, place.symm.trans held⟩
    | null | bool _ | number _ | text _ => cases read

end Header

namespace Segments

theorem ofChars?_eq_some {cs : List Char} {s : Segments} :
    ofChars? cs = some s ↔
      s.chars = cs ∧ ∀ part ∈ [s.header, s.claims, s.signature], '.' ∉ part := by
  constructor
  · intro cut
    rw [ofChars?] at cut
    split at cut
    · rename_i header claims signature parts
      obtain rfl := Option.some.inj cut
      refine ⟨?_, parts ▸ Parts.not_mem_of_split '.' cs⟩
      rw [← Parts.eq_of_split parts]
      simp [chars, signed]
    · cases cut
  · rintro ⟨rfl, whole⟩
    simp only [List.forall_mem_cons] at whole
    obtain ⟨header, claims, signature, -⟩ := whole
    simp only [ofChars?, chars, signed, List.append_assoc, List.cons_append,
      Parts.split_append header, Parts.split_append claims, Parts.split_of_not_mem signature]

end Segments

namespace Claims

/-- What is kept of an array holds no unsound text. -/
theorem sound_of_keepItems {room : Nat} {items kept : List Json}
    (keeps : Json.keepItems room items = some kept) {s : Option String}
    (found : .text s ∈ items) : s.isSome := by
  induction items generalizing kept with
  | nil => cases found
  | cons v items ih =>
    rw [Json.keepItems] at keeps
    obtain ⟨first, keepsFirst, keeps⟩ := Option.bind_eq_some_iff.mp keeps
    obtain ⟨rest, keepsRest, -⟩ := Option.bind_eq_some_iff.mp keeps
    rcases List.mem_cons.mp found with rfl | later
    · cases s with
      | none => cases room <;> cases keepsFirst
      | some _ => rfl
    · exact ih keepsRest later

theorem isAudience_texts {items : List Json} (texts : ∀ item ∈ items, ∃ s, item = .text (some s)) :
    isAudience (.array items) = true := by
  change (items.mapM Json.string?).isSome = true
  induction items with
  | nil => rfl
  | cons v items ih =>
    obtain ⟨⟨s, rfl⟩, rest⟩ := List.forall_mem_cons.mp texts
    obtain ⟨read, found⟩ := Option.isSome_iff_exists.mp (ih rest)
    rw [List.mapM_cons, found]
    rfl

/-- A text, or a list of texts. -/
def Audience (v : Json) : Prop :=
  (∃ s, v = .text s) ∨ ∃ items, v = .array items ∧ ∀ item ∈ items, ∃ s, item = .text s

theorem not_audience {v : Json} (kept : keepable v = true) (refused : isAudience v = false) :
    ¬ Audience v := by
  rintro (⟨s, rfl⟩ | ⟨items, rfl, texts⟩)
  · cases refused
  · obtain ⟨_, keeps⟩ := Option.isSome_iff_exists.mp kept
    obtain ⟨_, keeps, -⟩ := Option.map_eq_some_iff.mp keeps
    have sound : ∀ item ∈ items, ∃ s, item = .text (some s) := by
      intro item found
      obtain ⟨s, rfl⟩ := texts item found
      obtain ⟨s, rfl⟩ := Option.isSome_iff_exists.mp (sound_of_keepItems keeps found)
      exact ⟨s, rfl⟩
    rw [isAudience_texts sound] at refused
    cases refused

/-- Claims that follow the rules are an object without an audience. -/
theorem object_of_wellFormed {v : Json} (formed : wellFormed v = true) :
    ∃ members, v = .object members ∧ ∀ aud ∈ Json.named "aud" members, ¬ Audience aud := by
  cases v with
  | object members =>
    refine ⟨members, rfl, fun aud found => ?_⟩
    rw [wellFormed] at formed
    cases read : (Json.object members).fields? ["exp", "nbf", "sub", "iss", "aud"] with
    | none => simp [read] at formed
    | some fields =>
      rw [Json.fields?_named read "aud" (by simp), Option.mem_toList] at found
      simp only [read, found, Option.all_some, Bool.and_eq_true, Bool.not_eq_true'] at formed
      exact not_audience formed.2.1 formed.2.2
  | null | bool _ | number _ | text _ | array _ => cases formed

/-- The subject is the text of the one `sub`, and the expiry the integer of the one `exp`. -/
theorem fields_of_ofJson? {members : List (Option String × Json)} {claims : Claims}
    (read : ofJson? (.object members) = some claims) :
    Json.named "sub" members = [.text (some claims.subject)] ∧
      ∃ exp, Json.named "exp" members = [exp] ∧ exp.integer? = some claims.expiry := by
  rw [ofJson?] at read
  obtain ⟨fields, found, read⟩ := Option.bind_eq_some_iff.mp read
  obtain ⟨subject, sub, read⟩ := Option.bind_eq_some_iff.mp read
  obtain ⟨expiry, exp, read⟩ := Option.bind_eq_some_iff.mp read
  obtain ⟨kind, -, read⟩ := Option.bind_eq_some_iff.mp read
  obtain rfl : ⟨subject, expiry, kind⟩ = claims := Option.some.inj read
  obtain ⟨v, held, isText⟩ := Option.bind_eq_some_iff.mp sub
  obtain ⟨e, heldExp, isInteger⟩ := Option.bind_eq_some_iff.mp exp
  have one := Json.fields?_named found "sub" (by simp)
  have oneExp := Json.fields?_named found "exp" (by simp)
  rw [held] at one
  rw [heldExp] at oneExp
  obtain rfl : v = .text (some subject) := by
    cases v <;> cases isText
    rfl
  exact ⟨one, e, oneExp, (Option.filter_eq_some_iff.mp isInteger).1⟩

end Claims

/-- A token in three parts that may be trusted at a time, with the members its claims have and the
text that it calls its subject. -/
structure Genuine (secret : String) (now : Int) (token : String) (s : Segments)
    (members : List (Option String × Json)) (subject : String) : Prop where
  parts : token.toList = s.header ++ '.' :: s.claims ++ '.' :: s.signature
  whole : ∀ part ∈ [s.header, s.claims, s.signature], '.' ∉ part
  strict : ∀ part ∈ [s.header, s.claims, s.signature], ∃ bytes, Base64Url.encode bytes = part
  header : ∃ bytes text v, Base64Url.decode s.header = some bytes ∧
    Utf8.text? bytes = some text ∧ Json.parse? text = some v ∧ Header.Names v "HS256"
  signed : Base64Url.decode s.signature = some (Hmac.code (Utf8.encode secret)
    (Utf8.encode (String.ofList (s.header ++ '.' :: s.claims))))
  claims : ∃ bytes, Base64Url.decode s.claims = some bytes ∧
    Json.ofLetters? (Utf8.decode bytes) = some (.object members)
  expiry : ∃ exp e, Json.named "exp" members = [exp] ∧ exp.integer? = some e ∧ now ≤ e
  subject : Json.named "sub" members = [.text (some subject)]

theorem of_guard {p : Prop} [Decidable p] {u : Unit} (passed : (guard p : Option Unit) = some u) :
    p := by
  by_cases holds : p
  · exact holds
  · have failed : (guard p : Option Unit) = none := if_neg holds
    rw [failed] at passed
    cases passed

/-- Claims are only looked at in a genuine token without an audience. -/
theorem claims?_genuine {secret : String} {now : Int} {token : String} {claims : Claims}
    (looked : claims? secret now token = some claims) :
    ∃ s members, Genuine secret now token s members claims.subject ∧
      ∀ aud ∈ Json.named "aud" members, ¬ Claims.Audience aud := by
  rw [claims?] at looked
  obtain ⟨s, cut, looked⟩ := Option.bind_eq_some_iff.mp looked
  obtain ⟨header, headerRead, looked⟩ := Option.bind_eq_some_iff.mp looked
  obtain ⟨_, accepted, looked⟩ := Option.bind_eq_some_iff.mp looked
  obtain ⟨_, signed, looked⟩ := Option.bind_eq_some_iff.mp looked
  obtain ⟨v, claimsRead, looked⟩ := Option.bind_eq_some_iff.mp looked
  obtain ⟨found, read, looked⟩ := Option.bind_eq_some_iff.mp looked
  obtain ⟨_, formed, looked⟩ := Option.bind_eq_some_iff.mp looked
  obtain ⟨_, unexpired, same⟩ := Option.bind_eq_some_iff.mp looked
  obtain rfl : found = claims := Option.some.inj same
  obtain ⟨written, whole⟩ := Segments.ofChars?_eq_some.mp cut
  obtain ⟨bytes, headerBytes, headerRead⟩ := Option.bind_eq_some_iff.mp headerRead
  obtain ⟨text, headerText, headerRead⟩ := Option.bind_eq_some_iff.mp headerRead
  obtain ⟨claimsBytes, claimsDecoded, claimsRead⟩ := Option.bind_eq_some_iff.mp claimsRead
  obtain ⟨members, rfl, noAudience⟩ := Claims.object_of_wellFormed (of_guard formed)
  obtain ⟨subject, exp, expiry, isInteger⟩ := Claims.fields_of_ofJson? read
  have names := Header.names_of_accepts (of_guard accepted)
  have signature := (of_guard signed).symm
  refine ⟨s, members, ?_, noAudience⟩
  exact {
    parts := written.symm
    whole := whole
    strict := by
      simp only [List.forall_mem_cons]
      exact ⟨⟨bytes, Base64Url.decode_eq_some.mp headerBytes⟩,
        ⟨claimsBytes, Base64Url.decode_eq_some.mp claimsDecoded⟩, ⟨_, signature⟩, by simp⟩
    header := ⟨bytes, text, header, headerBytes, headerText, headerRead, names⟩
    signed := Base64Url.decode_eq_some.mpr signature
    claims := ⟨claimsBytes, claimsDecoded, claimsRead⟩
    expiry := ⟨exp, _, expiry, isInteger, (of_guard unexpired).2⟩
    subject := subject }

theorem verify_eq_ok {secret : String} {now : Int} {token : String} {user : Uuid} :
    verify secret now token = .ok user ↔
      ∃ claims, claims? secret now token = some claims ∧ Uuid.parse? claims.subject = some user := by
  rw [verify]
  cases claims? secret now token with
  | none => simp
  | some claims => cases h : Uuid.parse? claims.subject <;> simp [h]

theorem verify_eq_invalidSubject {secret : String} {now : Int} {token : String} :
    verify secret now token = .error .invalidSubject ↔
      ∃ claims, claims? secret now token = some claims ∧ Uuid.parse? claims.subject = none := by
  rw [verify]
  cases claims? secret now token with
  | none => simp
  | some claims => cases h : Uuid.parse? claims.subject <;> simp [h]

theorem verify_of_none {secret : String} {now : Int} {token : String}
    (refused : claims? secret now token = none) :
    verify secret now token = .error .invalidToken := by
  rw [verify, refused]

/-- A token of a user, with a list that holds a number for its audience. -/
def numbered : Segments where
  header := "eyJhbGciOiJIUzI1NiJ9".toList
  claims := ("eyJzdWIiOiIwMDAwMDAwMDAwMDAwMDAwMDAwMDAwMDAwMDAwMDAwMCIsImV4cCI6NDEwMjQ0NDgwMCwi" ++
    "YXVkIjpbMV19").toList
  signature := "3nyzCBif885Uz-9tpfIpg51fhQNc-psSbTYOnIb8Jpw".toList

theorem claims?_numbered : claims? "sec" 0 (String.ofList numbered.chars) =
    some ⟨"00000000000000000000000000000000", 4102444800, ""⟩ := by
  decide +kernel

theorem claimsJson?_numbered : claimsJson? numbered.claims =
    some (.object [(some "sub", .text (some "00000000000000000000000000000000")),
      (some "exp", .number (.ofInt 4102444800)), (some "aud", .array [.number (.ofInt 1)])]) := by
  rfl

/-- Only the user of a genuine token without an audience is told, and only of such a token it is said
that its subject is nobody. Any other token is invalid. -/
theorem verify_sound (secret : String) (now : Int) (token : String) :
    (∀ user, verify secret now token = .ok user →
      ∃ s members subject, Genuine secret now token s members subject ∧
        (∀ aud ∈ Json.named "aud" members, ¬ Claims.Audience aud) ∧
        Uuid.parse? subject = some user) ∧
    (verify secret now token = .error .invalidSubject →
      ∃ s members subject, Genuine secret now token s members subject ∧
        (∀ aud ∈ Json.named "aud" members, ¬ Claims.Audience aud) ∧
        Uuid.parse? subject = none) ∧
    ((¬ ∃ s members subject, Genuine secret now token s members subject ∧
        ∀ aud ∈ Json.named "aud" members, ¬ Claims.Audience aud) →
      verify secret now token = .error .invalidToken) := by
  refine ⟨fun user told => ?_, fun told => ?_, fun forged => ?_⟩
  · obtain ⟨claims, looked, known⟩ := verify_eq_ok.mp told
    obtain ⟨s, members, genuine, free⟩ := claims?_genuine looked
    exact ⟨s, members, claims.subject, genuine, free, known⟩
  · obtain ⟨claims, looked, unknown⟩ := verify_eq_invalidSubject.mp told
    obtain ⟨s, members, genuine, free⟩ := claims?_genuine looked
    exact ⟨s, members, claims.subject, genuine, free, unknown⟩
  · refine verify_of_none (Option.eq_none_iff_forall_ne_some.mpr fun claims looked => forged ?_)
    obtain ⟨s, members, found⟩ := claims?_genuine looked
    exact ⟨s, members, claims.subject, found⟩

/-- The three ends: a user is told, a subject is nobody, and an empty token is invalid. -/
theorem verify_sound_ends :
    let stranger := "eyJhbGciOiJIUzI1NiJ9.eyJzdWIiOiJub2JvZHkiLCJleHAiOjQxMDI0NDQ4MDB9." ++
      "l8ecp0Xf70Au8zXbBWI0XEgshJCHwrlrqb-xV9lvUkc"
    (verify "sec" 0 (String.ofList numbered.chars) = .ok .nil ∧
      ∃ s members subject, Genuine "sec" 0 (String.ofList numbered.chars) s members subject ∧
        (∀ aud ∈ Json.named "aud" members, ¬ Claims.Audience aud) ∧
        Uuid.parse? subject = some .nil) ∧
    (verify "sec" 0 stranger = .error .invalidSubject ∧
      ∃ s members subject, Genuine "sec" 0 stranger s members subject ∧
        (∀ aud ∈ Json.named "aud" members, ¬ Claims.Audience aud) ∧
        Uuid.parse? subject = none) ∧
    verify "sec" 0 "" = .error .invalidToken := by
  intro stranger
  have told : verify "sec" 0 (String.ofList numbered.chars) = .ok .nil :=
    verify_eq_ok.mpr ⟨_, claims?_numbered, by decide⟩
  refine ⟨⟨told, (verify_sound _ _ _).1 _ told⟩, ?_, (verify_sound _ _ _).2.2 ?_⟩
  · have looked : claims? "sec" 0 stranger = some ⟨"nobody", 4102444800, ""⟩ := by
      decide +kernel
    have nobody : verify "sec" 0 stranger = .error .invalidSubject :=
      verify_eq_invalidSubject.mpr ⟨_, looked, by decide⟩
    exact ⟨nobody, (verify_sound _ _ _).2.1 nobody⟩
  · rintro ⟨s, members, subject, genuine, -⟩
    have parts := genuine.parts
    simp at parts

/-- A list is an audience only if it is a list of texts: another one is stepped over. -/
theorem numbered_audience_ignored :
    verify "sec" 0 (String.ofList numbered.chars) = .ok .nil ∧
      ¬ ∃ s members subject, Genuine "sec" 0 (String.ofList numbered.chars) s members subject ∧
        (∀ aud ∈ Json.named "aud" members,
          (∀ text, aud ≠ .text text) ∧ ∀ items, aud ≠ .array items) ∧
        Uuid.parse? subject = some .nil := by
  refine ⟨verify_eq_ok.mpr ⟨_, claims?_numbered, by decide⟩, ?_⟩
  rintro ⟨s, members, subject, genuine, refused, -⟩
  have cut : Segments.ofChars? numbered.chars = some s :=
    Segments.ofChars?_eq_some.mpr ⟨genuine.parts.symm.trans String.toList_ofList, genuine.whole⟩
  obtain rfl : numbered = s := Option.some.inj (cut.symm.trans (by decide)).symm
  obtain ⟨bytes, decoded, read⟩ := genuine.claims
  have found : claimsJson? numbered.claims = some (.object members) := by
    rw [claimsJson?, decoded]
    exact read
  rw [claimsJson?_numbered] at found
  obtain rfl := Json.object.inj (Option.some.inj found)
  exact (refused (.array [.number (.ofInt 1)]) (by simp [Json.named])).2 _ rfl

end Token
end SignalHub
