import SignalHub.Message.Inbound
import SignalHub.Proofs.Json.Records
import SignalHub.Proofs.Json.RoundTrip

/-! The frame of a relay is decoded as that relay (`Inbound.decode_encode`): its text as the JSON it
was written from, the envelope in it with the payload kept as it is, and the payload as the same
record. -/
namespace SignalHub

namespace Uuid

/-- The characters of a hyphenated text, without the four between its groups. -/
def grouped (cs : List Char) : List Char :=
  cs.take 8 ++ (cs.drop 9).take 4 ++ (cs.drop 14).take 4 ++ (cs.drop 19).take 4 ++ cs.drop 24

theorem hyphenate_length {cs : List Char} (full : cs.length = 32) :
    (hyphenate cs).length = 36 := by
  simp [hyphenate, full]

theorem grouped_hyphenate {cs : List Char} (full : cs.length = 32) :
    grouped (hyphenate cs) = cs := by
  have split : cs = cs.take 8 ++ ((cs.drop 8).take 4 ++ ((cs.drop 12).take 4 ++
      ((cs.drop 16).take 4 ++ cs.drop 20))) := by
    have s1 := List.take_append_drop 8 cs
    have s2 := List.take_append_drop 4 (cs.drop 8)
    have s3 := List.take_append_drop 4 (cs.drop 12)
    have s4 := List.take_append_drop 4 (cs.drop 16)
    simp only [List.drop_drop, Nat.reduceAdd] at s2 s3 s4
    rw [s4, s3, s2, s1]
  conv => rhs; rw [split]
  simp [grouped, hyphenate, List.drop_append, List.drop_take, full]

theorem mapM_value?_digit (ds : List (Fin 16)) : (ds.map Hex.digit).mapM Hex.value? = some ds := by
  induction ds with
  | nil => rfl
  | cons d ds ih => simp [Hex.value?_digit, ih]

theorem ofSimple?_digits (id : Uuid) : ofSimple? (id.digits.map Hex.digit) = some id := by
  rw [ofSimple?, mapM_value?_digit]
  simp [id.length_eq]

theorem length_letters (id : Uuid) : (id.digits.map Hex.digit).length = 32 := by
  rw [List.length_map, id.length_eq]

theorem length_chars (id : Uuid) : id.chars.length = 36 := hyphenate_length id.length_letters

theorem ofHyphenated?_chars (id : Uuid) : ofHyphenated? id.chars = some id := by
  have groups : grouped id.chars = id.digits.map Hex.digit := grouped_hyphenate id.length_letters
  change (if id.chars.length = 36 ∧ hyphenate (grouped id.chars) = id.chars
    then ofSimple? (grouped id.chars) else none) = some id
  rw [groups, if_pos ⟨id.length_chars, rfl⟩, ofSimple?_digits]

theorem parse?_text (id : Uuid) : parse? id.text = some id := by
  have long := id.length_chars
  rw [parse?, text, String.toList_ofList, ofChars?, if_neg (by omega), if_pos long,
    ofHyphenated?_chars]

theorem ofJson?_toJson (id : Uuid) : ofJson? id.toJson = some id := parse?_text id

end Uuid

namespace Sdp

theorem ofJson?_toJson (p : Sdp) : ofJson? p.toJson = some p := by
  obtain ⟨fields, read, found⟩ := Json.fields?_ofMembers ["from_device_id", "to_device_id", "sdp"]
    (show Json.Distinct [("from_device_id", p.sender.toJson), ("to_device_id", p.target.toJson),
      ("sdp", .ofString p.sdp)] by simp [Json.Distinct])
  have sender : fields "from_device_id" = some p.sender.toJson := found _ (by simp)
  have target : fields "to_device_id" = some p.target.toJson := found _ (by simp)
  have sdp : fields "sdp" = some (.ofString p.sdp) := found _ (by simp)
  rw [ofJson?, toJson, read]
  simp [Json.Fields.required, Json.Fields.withDefault, sender, target, sdp, Uuid.ofJson?_toJson,
    Json.string?_ofString]

theorem keep_toJson (p : Sdp) (room : Nat) : Json.keep (room + 1) p.toJson = some p.toJson := by
  refine Json.keep_ofMembers (by simp [Json.Distinct]) ?_
  simp [Uuid.toJson, Json.keep_ofString]

end Sdp

namespace Candidate

theorem lineIndex?_ofNat (i : Fin 65536) : lineIndex? (Json.ofNat i.val) = some i := by
  have whole := Json.Numeral.integer?_ofInt (n := i.val) (Nat.lt_trans i.isLt (by decide))
  simp [lineIndex?, Json.ofNat, Json.ofInt, Json.integer?, whole]

theorem nullable?_ofNat (i : Fin 65536) :
    Json.nullable? lineIndex? (Json.ofNat i.val) = some (some i) := by
  have read := lineIndex?_ofNat i
  unfold Json.ofNat Json.ofInt at read ⊢
  simp [Json.nullable?, read]

/-- The members of a candidate, of which the last two may be missing. -/
def members (c : Candidate) : List (String × Json) :=
  [("from_device_id", c.sender.toJson), ("to_device_id", c.target.toJson),
    ("candidate", .ofString c.candidate)] ++
    (c.lineIndex.map fun i => ("sdp_mline_index", Json.ofNat i.val)).toList ++
    (c.mid.map fun m => ("sdp_mid", Json.ofString m)).toList

theorem distinct_members (c : Candidate) : Json.Distinct c.members := by
  obtain ⟨sender, target, candidate, lineIndex, mid⟩ := c
  cases lineIndex <;> cases mid <;> simp [Json.Distinct, members]

theorem ofJson?_toJson (c : Candidate) : ofJson? c.toJson = some c := by
  obtain ⟨fields, read, found⟩ := Json.fields?_ofMembers
    ["from_device_id", "to_device_id", "candidate", "sdp_mline_index", "sdp_mid"] c.distinct_members
  have sender : fields "from_device_id" = some c.sender.toJson := found _ (by simp)
  have target : fields "to_device_id" = some c.target.toJson := found _ (by simp)
  have candidate : fields "candidate" = some (.ofString c.candidate) := found _ (by simp)
  have lineIndex : fields "sdp_mline_index" = c.lineIndex.map fun i => .ofNat i.val := by
    rw [found _ (by simp), members]
    cases c.lineIndex <;> cases c.mid <;> rfl
  have mid : fields "sdp_mid" = c.mid.map .ofString := by
    rw [found _ (by simp), members]
    cases c.lineIndex <;> cases c.mid <;> rfl
  have written : c.toJson = .ofMembers c.members := rfl
  rw [ofJson?, written, read]
  obtain ⟨_, _, _, index?, mid?⟩ := c
  cases index? <;> cases mid? <;>
    simp [Json.Fields.required, Json.Fields.withDefault, sender, target, candidate, lineIndex, mid,
      Uuid.ofJson?_toJson, Json.string?_ofString, Json.nullable?_ofString, nullable?_ofNat]

theorem keep_toJson (c : Candidate) (room : Nat) :
    Json.keep (room + 1) c.toJson = some c.toJson := by
  refine Json.keep_ofMembers c.distinct_members ?_
  have indexed (i : Fin 65536) : Json.keep room (.ofNat i.val) = some (.ofNat i.val) :=
    Json.keep_ofNat room (Nat.lt_trans i.isLt (by decide))
  obtain ⟨sender, target, candidate, lineIndex, mid⟩ := c
  cases lineIndex <;> cases mid <;> simp [Uuid.toJson, Json.keep_ofString, indexed]

end Candidate

namespace Inbound

theorem keep_payload (r : Relay) : Json.keep payloadRoom r.payload = some r.payload := by
  cases r with
  | offer p | answer p => exact p.keep_toJson 125
  | candidate c => exact c.keep_toJson 125

/-- The envelope of a relay names its kind and holds its payload. -/
theorem ofJson?_toJson (r : Relay) :
    Envelope.ofJson? (Message.relay r).toJson = some ⟨r.kind.name, r.payload⟩ := by
  obtain ⟨fields, read, found⟩ := Json.fields?_ofMembers ["type", "payload"]
    (show Json.Distinct [("type", .ofString r.kind.name), ("payload", r.payload)] by
      simp [Json.Distinct])
  have kind : fields "type" = some (.ofString r.kind.name) := found _ (by simp)
  have payload : fields "payload" = some r.payload := found _ (by simp)
  have written : (Message.relay r).toJson =
      .ofMembers [("type", .ofString r.kind.name), ("payload", r.payload)] := rfl
  rw [Envelope.ofJson?, written, read]
  simp [Json.Fields.required, Json.Fields.withDefault, kind, payload, Json.string?_ofString,
    keep_payload]

theorem ofEnvelope_relay (r : Relay) : ofEnvelope ⟨r.kind.name, r.payload⟩ = .ok (.relay r) := by
  unfold ofEnvelope
  rw [Message.Kind.parse?_name]
  cases r with
  | offer p | answer p => simp [Relay.kind, Relay.payload, payload, p.ofJson?_toJson]
  | candidate c => simp [Relay.kind, Relay.payload, payload, c.ofJson?_toJson]

/-- A relay is read back from its frame. -/
theorem decode_encode (r : Relay) : decode (Message.relay r).encode = .ok (.relay r) := by
  unfold decode Message.encode
  rw [Json.parse?_render, Option.bind_some, ofJson?_toJson]
  exact ofEnvelope_relay r

/-- Every offer, answer and candidate is read back from its frame. So a relay that was asked for in any
other text is written as a frame that asks for the same, and the frame is written again as it is. -/
theorem relays_round_trip :
    (∀ p : Sdp, decode (Message.relay (.offer p)).encode = .ok (.relay (.offer p))) ∧
    (∀ p : Sdp, decode (Message.relay (.answer p)).encode = .ok (.relay (.answer p))) ∧
    (∀ c : Candidate,
      decode (Message.relay (.candidate c)).encode = .ok (.relay (.candidate c))) ∧
    ∀ (raw : String) (r : Relay), decode raw = .ok (.relay r) →
      decode (Message.relay r).encode = decode raw ∧
      ∀ again, decode (Message.relay r).encode = .ok (.relay again) →
        (Message.relay again).encode = (Message.relay r).encode := by
  refine ⟨fun p => decode_encode _, fun p => decode_encode _, fun c => decode_encode _, ?_⟩
  intro raw r asked
  refine ⟨(decode_encode r).trans asked.symm, fun again decoded => ?_⟩
  obtain rfl : r = again := by simpa [decode_encode] using decoded
  rfl

/-- A candidate in another spelling: arrays for the envelope and the payload, an identifier without
hyphens and one in upper case, an escaped letter, and a null for an absent field. -/
theorem relays_round_trip_respelled :
    let raw := "[\"webrtc:candidate\", [\"0123456789abcdef0123456789abcdef\", " ++
      "\"FFFFFFFF-FFFF-FFFF-FFFF-FFFFFFFFFFFF\", \"caf\\u00e9\", 65535, null]]"
    let c : Candidate :=
      ⟨⟨[0, 1, 2, 3, 4, 5, 6, 7, 8, 9, 10, 11, 12, 13, 14, 15,
          0, 1, 2, 3, 4, 5, 6, 7, 8, 9, 10, 11, 12, 13, 14, 15], rfl⟩,
        ⟨List.replicate 32 15, rfl⟩, "café", some 65535, none⟩
    decode raw = .ok (.relay (.candidate c)) ∧
      decode (Message.relay (.candidate c)).encode = decode raw := by
  intro raw c
  have found : (decode raw).toOption = some (.relay (.candidate c)) := by decide +kernel
  have asked : decode raw = .ok (.relay (.candidate c)) := by
    cases read : decode raw with
    | error _ => rw [read] at found; cases found
    | ok _ => rw [read] at found; exact congrArg Except.ok (Option.some.inj found)
  exact ⟨asked, (relays_round_trip.2.2.2 raw (.candidate c) asked).1⟩

end Inbound
end SignalHub
