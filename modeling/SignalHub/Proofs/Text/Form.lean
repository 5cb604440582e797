import SignalHub.Proofs.Text.Parts
import SignalHub.Proofs.Text.Utf8
import SignalHub.Text.Form

/-! A written name or value holds neither a separator nor a plus sign that would be read as anything
but a space, and each byte of it is read back. So pairs that are written into a query are read back,
all of them and in order (`parse_encode`). -/
namespace SignalHub

namespace Utf8

theorem lossy_encode (text : String) : lossy (encode text) = text := by
  have same : (letters text).map (fun letter => letter.getD replacement) = text.toList := by
    rw [letters, List.map_map]
    exact List.map_id _
  rw [lossy, decode_encode, same, String.ofList_toList]

end Utf8

namespace Percent

theorem toNat_upper_lt (d : Fin 16) : (Hex.upper d).toNat < 256 := by
  revert d
  decide

theorem hexValue?_upper (d : Fin 16) : hexValue? (Hex.upper d).toNat.toUInt8 = some d := by
  have same : Char.ofNat (Hex.upper d).toNat.toUInt8.toNat = Hex.upper d := by
    rw [Nat.toUInt8, UInt8.toNat_ofNat_of_lt' (toNat_upper_lt d), Char.ofNat_toNat]
  rw [hexValue?, same, Hex.value?_upper]

theorem decode_cons {a : UInt8} (other : a ≠ sign) (rest : List UInt8) :
    decode (a :: rest) = a :: decode rest := by
  rw [decode.eq_def]
  exact if_neg other

theorem decode_escape (b : UInt8) (rest : List UInt8) :
    decode (escape b ++ rest) = b :: decode rest := by
  have bound := b.toNat_lt
  have value : b.toNat / 16 * 16 + b.toNat % 16 = b.toNat := by omega
  rw [escape, List.cons_append, List.cons_append, List.singleton_append, decode, if_pos rfl]
  simp only [hexValue?_upper, value]
  rw [Nat.toUInt8, UInt8.ofNat_toNat]

end Percent

namespace Form

/-- What names and values are written with. -/
def Written (b : UInt8) : Prop := plain b = true ∨ b = plus ∨ b = Percent.sign

/-- The digits of an escape are written as they are. -/
theorem plain_upper (d : Fin 16) : plain (Hex.upper d).toNat.toUInt8 = true := by
  revert d
  decide

theorem ne_of_plain {a b : UInt8} (written : plain a = true) (other : plain b = false) : a ≠ b := by
  rintro rfl
  rw [written] at other
  cases other

theorem ne_of_written {a b : UInt8} (written : Written a) (other : plain b = false)
    (mark : b ≠ plus ∧ b ≠ Percent.sign) : a ≠ b := by
  rcases written with letter | rfl | rfl
  · exact ne_of_plain letter other
  · exact mark.1.symm
  · exact mark.2.symm

theorem mem_escape {a b : UInt8} (member : a ∈ Percent.escape b) :
    a = Percent.sign ∨ plain a = true := by
  rcases List.mem_cons.mp member with rfl | member
  · exact .inl rfl
  · rcases List.mem_cons.mp member with rfl | member
    · exact .inr (plain_upper _)
    · rw [List.mem_singleton.mp member]
      exact .inr (plain_upper _)

theorem written_encodeByte {a b : UInt8} (member : a ∈ encodeByte b) : Written a := by
  rw [encodeByte] at member
  split at member
  · rename_i letter
    rw [List.mem_singleton.mp member]
    exact .inl letter
  · split at member
    · exact .inr (.inl (List.mem_singleton.mp member))
    · rcases mem_escape member with sign | digit
      · exact .inr (.inr sign)
      · exact .inl digit

theorem written_encodeText {text : String} {a : UInt8} (member : a ∈ encodeText text) :
    Written a := by
  obtain ⟨b, -, member⟩ := List.mem_flatMap.mp member
  exact written_encodeByte member

theorem unplus_escape (b : UInt8) : (Percent.escape b).map unplus = Percent.escape b := by
  have kept : ∀ a ∈ Percent.escape b, unplus a = a := by
    intro a member
    rcases mem_escape member with rfl | digit
    · rfl
    · exact if_neg (ne_of_plain digit (by decide))
  exact (List.map_congr_left kept).trans (List.map_id _)

/-- What a byte is written as is read as that byte, whatever comes after it. -/
theorem decode_encodeByte (b : UInt8) (rest : List UInt8) :
    Percent.decode ((encodeByte b).map unplus ++ rest) = b :: Percent.decode rest := by
  rw [encodeByte]
  split
  · rename_i letter
    have kept : unplus b = b := if_neg (ne_of_plain letter (by decide))
    rw [List.map_singleton, kept, List.singleton_append,
      Percent.decode_cons (ne_of_plain letter (by decide))]
  · split
    · rename_i blank
      rw [blank]
      exact Percent.decode_cons (by decide) rest
    · rw [unplus_escape, Percent.decode_escape]

theorem decode_encodeBytes (bytes : List UInt8) :
    Percent.decode ((bytes.flatMap encodeByte).map unplus) = bytes := by
  induction bytes with
  | nil => simp [Percent.decode]
  | cons b bytes ih => rw [List.flatMap_cons, List.map_append, decode_encodeByte, ih]

theorem component_encodeText (text : String) : component (encodeText text) = text := by
  rw [component, encodeText, decode_encodeBytes, Utf8.lossy_encode]

/-- The first equals sign of a written pair is the one between name and value. -/
theorem pair_encodePair (p : String × String) : pair (encodePair p) = p := by
  have name : equals ∉ encodeText p.1 := fun member =>
    ne_of_written (written_encodeText member) (by decide) (by decide) rfl
  rw [pair, encodePair, Parts.cut_append name]
  simp only [Option.getD_some, component_encodeText]

theorem mem_encodePair {p : String × String} {a : UInt8} (member : a ∈ encodePair p) :
    Written a ∨ a = equals := by
  rcases List.mem_append.mp member with name | rest
  · exact .inl (written_encodeText name)
  · rcases List.mem_cons.mp rest with mark | value
    · exact .inr mark
    · exact .inl (written_encodeText value)

theorem ampersand_not_mem_encodePair (p : String × String) : ampersand ∉ encodePair p := by
  intro member
  rcases mem_encodePair member with written | mark
  · exact ne_of_written written (by decide) (by decide) rfl
  · exact absurd mark (by decide)

theorem filled_encodePair (p : String × String) : (encodePair p).isEmpty = false := by
  rw [encodePair, List.isEmpty_eq_false_iff]
  exact List.append_ne_nil_of_right_ne_nil _ (List.cons_ne_nil _ _)

/-- Pairs that are written into a query are read back from it. -/
theorem parse_encode (pairs : List (String × String)) : parse (encode pairs) = pairs := by
  induction pairs with
  | nil => rfl
  | cons p rest ih =>
    have whole := ampersand_not_mem_encodePair p
    cases rest with
    | nil => simp [parse, encode, Parts.split_of_not_mem whole, filled_encodePair, pair_encodePair]
    | cons q rest =>
      rw [parse] at ih
      simp [parse, encode, Parts.split_append whole, filled_encodePair, pair_encodePair, ih]

/-- A written query holds no mark but those of its pairs. -/
theorem mem_encode {pairs : List (String × String)} {a : UInt8} (member : a ∈ encode pairs) :
    Written a ∨ a = equals ∨ a = ampersand := by
  induction pairs with
  | nil => cases member
  | cons p rest ih =>
    cases rest with
    | nil => exact (mem_encodePair member).imp_right .inl
    | cons q rest =>
      rcases List.mem_append.mp member with first | later
      · exact (mem_encodePair first).imp_right .inl
      · rcases List.mem_cons.mp later with mark | others
        · exact .inr (.inr mark)
        · exact ih others

end Form
end SignalHub
