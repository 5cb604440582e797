import SignalHub.Text.Base64Url

/-! Groups of six bits and the bytes they are cut from determine each other, and so do groups and
letters. A text is therefore read as some bytes exactly when it is what those bytes are written as
(`decode_eq_some`). -/
namespace SignalHub.Base64Url

theorem value?_letter : ∀ n < 64, value? (letter n) = some n := by
  decide

/-- A letter is the one that is written for its value. -/
theorem letter_of_value? {c : Char} {n : Nat} (read : value? c = some n) : letter n = c ∧ n < 64 := by
  have same : Char.ofNat c.toNat = c := Char.ofNat_toNat c
  simp only [value?] at read
  split at read
  · obtain rfl : c.toNat - 65 = n := Option.some.inj read
    rw [letter, if_pos (by omega), show 65 + (c.toNat - 65) = c.toNat by omega]
    exact ⟨same, by omega⟩
  · split at read
    · obtain rfl : c.toNat - 71 = n := Option.some.inj read
      rw [letter, if_neg (by omega), if_pos (by omega),
        show 71 + (c.toNat - 71) = c.toNat by omega]
      exact ⟨same, by omega⟩
    · split at read
      · obtain rfl : c.toNat + 4 = n := Option.some.inj read
        rw [letter, if_neg (by omega), if_neg (by omega), if_pos (by omega),
          show c.toNat + 4 - 4 = c.toNat by omega]
        exact ⟨same, by omega⟩
      · split at read
        · rename_i minus
          obtain rfl : 62 = n := Option.some.inj read
          exact ⟨minus.symm, by omega⟩
        · split at read
          · rename_i underscore
            obtain rfl : 63 = n := Option.some.inj read
            exact ⟨underscore.symm, by omega⟩
          · cases read

/-- Every group has six bits. -/
def Sextets (gs : List Nat) : Prop := ∀ g ∈ gs, g < 64

theorem mapM_value?_letter {gs : List Nat} (six : Sextets gs) :
    (gs.map letter).mapM value? = some gs := by
  induction gs with
  | nil => rfl
  | cons g gs ih =>
    have first := value?_letter g (six g List.mem_cons_self)
    have rest := ih fun g found => six g (List.mem_cons_of_mem _ found)
    rw [List.map_cons, List.mapM_cons, first, rest]
    rfl

theorem mapM_value?_eq_some {text : List Char} {gs : List Nat} (read : text.mapM value? = some gs) :
    gs.map letter = text ∧ Sextets gs := by
  induction text generalizing gs with
  | nil =>
    obtain rfl : [] = gs := Option.some.inj read
    exact ⟨rfl, by simp [Sextets]⟩
  | cons c text ih =>
    rw [List.mapM_cons] at read
    obtain ⟨g, first, read⟩ := Option.bind_eq_some_iff.mp read
    obtain ⟨rest, others, all⟩ := Option.bind_eq_some_iff.mp read
    obtain rfl : g :: rest = gs := Option.some.inj all
    obtain ⟨written, six⟩ := ih others
    obtain ⟨same, small⟩ := letter_of_value? first
    exact ⟨by rw [List.map_cons, same, written], List.forall_mem_cons.mpr ⟨small, six⟩⟩

theorem groups_sextets (bytes : List UInt8) : Sextets (groups bytes) := by
  fun_induction groups bytes with
  | case1 a b c rest ih =>
    have := a.toNat_lt; have := b.toNat_lt; have := c.toNat_lt
    simp only [Sextets, List.mem_cons, forall_eq_or_imp]
    exact ⟨by omega, by omega, by omega, by omega, ih⟩
  | case2 a b =>
    have := a.toNat_lt; have := b.toNat_lt
    simp only [Sextets, List.mem_cons, forall_eq_or_imp]
    exact ⟨by omega, by omega, by omega, by simp⟩
  | case3 a =>
    have := a.toNat_lt
    simp only [Sextets, List.mem_cons, forall_eq_or_imp]
    exact ⟨by omega, by omega, by simp⟩
  | case4 => simp [Sextets]

theorem toUInt8_of_toNat {n : Nat} {b : UInt8} (same : n = b.toNat) : n.toUInt8 = b := by
  subst same
  exact UInt8.ofNat_toNat

theorem bytes?_groups (bytes : List UInt8) : bytes? (groups bytes) = some bytes := by
  fun_induction groups bytes with
  | case1 a b c rest ih =>
    have := a.toNat_lt; have := b.toNat_lt; have := c.toNat_lt
    rw [bytes?, ih, toUInt8_of_toNat (b := a) (by omega), toUInt8_of_toNat (b := b) (by omega),
      toUInt8_of_toNat (b := c) (by omega)]
    rfl
  | case2 a b =>
    have := a.toNat_lt; have := b.toNat_lt
    rw [bytes?, if_pos (by omega), toUInt8_of_toNat (b := a) (by omega),
      toUInt8_of_toNat (b := b) (by omega)]
  | case3 a =>
    have := a.toNat_lt
    rw [bytes?, if_pos (by omega), toUInt8_of_toNat (b := a) (by omega)]
  | case4 => rfl

theorem toNat_toUInt8 {n : Nat} (small : n < 256) : n.toUInt8.toNat = n := by
  simp only [Nat.toUInt8, UInt8.toNat_ofNat']
  omega

/-- Groups that are read as bytes are the groups of those bytes. -/
theorem groups_of_bytes? {gs : List Nat} {bytes : List UInt8} (six : Sextets gs)
    (read : bytes? gs = some bytes) : groups bytes = gs := by
  fun_induction bytes? gs generalizing bytes with
  | case1 w x y z rest ih =>
    simp only [Sextets, List.mem_cons, forall_eq_or_imp] at six
    obtain ⟨hw, hx, hy, hz, six⟩ := six
    obtain ⟨more, others, rfl⟩ := Option.map_eq_some_iff.mp read
    simp only [groups, ih six others, toNat_toUInt8 (show w * 4 + x / 16 < 256 by omega),
      toNat_toUInt8 (show x % 16 * 16 + y / 4 < 256 by omega),
      toNat_toUInt8 (show y % 4 * 64 + z < 256 by omega)]
    simp only [List.cons.injEq, and_true]
    omega
  | case2 w x y zero =>
    simp only [Sextets, List.mem_cons, forall_eq_or_imp] at six
    obtain ⟨hw, hx, hy, -⟩ := six
    obtain rfl := Option.some.inj read
    simp only [groups, toNat_toUInt8 (show w * 4 + x / 16 < 256 by omega),
      toNat_toUInt8 (show x % 16 * 16 + y / 4 < 256 by omega)]
    simp only [List.cons.injEq, and_true]
    omega
  | case4 w x zero =>
    simp only [Sextets, List.mem_cons, forall_eq_or_imp] at six
    obtain ⟨hw, hx, -⟩ := six
    obtain rfl := Option.some.inj read
    simp only [groups, toNat_toUInt8 (show w * 4 + x / 16 < 256 by omega)]
    simp only [List.cons.injEq, and_true]
    omega
  | case7 =>
    obtain rfl := Option.some.inj read
    rfl
  | case3 | case5 | case6 => cases read

theorem decode_encode (bytes : List UInt8) : decode (encode bytes) = some bytes := by
  rw [decode, encode, mapM_value?_letter (groups_sextets bytes), Option.bind_some, bytes?_groups]

/-- A text is read as some bytes only if they are written as that text. -/
theorem decode_eq_some {text : List Char} {bytes : List UInt8} :
    decode text = some bytes ↔ encode bytes = text := by
  constructor
  · intro read
    obtain ⟨gs, letters, read⟩ := Option.bind_eq_some_iff.mp read
    obtain ⟨written, six⟩ := mapM_value?_eq_some letters
    rw [encode, groups_of_bytes? six read, written]
  · rintro rfl
    exact decode_encode bytes

end SignalHub.Base64Url
