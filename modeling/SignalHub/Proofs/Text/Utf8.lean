import SignalHub.Text.Utf8

/-! Some bytes spell a character (`Spells`), and each character is spelled by the bytes that it is
written as and by no others. Bytes that are not empty begin with a character or with an unsound
letter (`spells_or_unsound`). So bytes are a text exactly if they are what the text is written as
(`text?_eq_some_iff`). -/
namespace SignalHub.Utf8

/-- A byte that continues a character. -/
def Tail (b : UInt8) : Prop := 0x80 ≤ b.toNat ∧ b.toNat ≤ 0xBF

/-- A byte that comes second in a character of three or four bytes. -/
def Second (a b : UInt8) : Prop :=
  Tail b ∧ (a.toNat = 0xE0 → 0xA0 ≤ b.toNat) ∧ (a.toNat = 0xED → b.toNat ≤ 0x9F) ∧
    (a.toNat = 0xF0 → 0x90 ≤ b.toNat) ∧ (a.toNat = 0xF4 → b.toNat ≤ 0x8F)

/-- A number with the six bits of another byte. -/
def joined (n : Nat) (b : UInt8) : Nat := n * 64 + (b.toNat - 0x80)

/-- These bytes are those of the character with this number. -/
inductive Spells : List UInt8 → Nat → Prop where
  | one {a : UInt8} (ascii : a.toNat < 0x80) : Spells [a] a.toNat
  | two {a b : UInt8} (least : 0xC2 ≤ a.toNat) (most : a.toNat < 0xE0) (second : Tail b) :
      Spells [a, b] (joined (a.toNat - 0xC0) b)
  | three {a b c : UInt8} (least : 0xE0 ≤ a.toNat) (most : a.toNat < 0xF0) (second : Second a b)
      (third : Tail c) : Spells [a, b, c] (joined (joined (a.toNat - 0xE0) b) c)
  | four {a b c d : UInt8} (least : 0xF0 ≤ a.toNat) (most : a.toNat < 0xF5) (second : Second a b)
      (third : Tail c) (fourth : Tail d) :
      Spells [a, b, c, d] (joined (joined (joined (a.toNat - 0xF0) b) c) d)

theorem exists_byte {n : Nat} (small : n < 256) : ∃ a : UInt8, UInt8.ofNat n = a ∧ a.toNat = n := by
  refine ⟨_, rfl, ?_⟩
  rw [UInt8.toNat_ofNat']
  omega

/-- A character is spelled by what it is written as. -/
theorem spells_encodeChar (c : Char) : Spells (String.utf8EncodeChar c) c.toNat := by
  have valid : c.toNat < 0xD800 ∨ 0xDFFF < c.toNat ∧ c.toNat < 0x110000 := c.valid
  unfold String.utf8EncodeChar
  unfold Char.toNat at valid ⊢
  generalize c.val.toNat = n at valid ⊢
  dsimp only
  split
  · obtain ⟨a, written, value⟩ := exists_byte (show n < 256 by omega)
    rw [written, ← value]
    exact .one (by omega)
  split
  · obtain ⟨a, first, valueA⟩ := exists_byte (show n / 64 % 32 + 192 < 256 by omega)
    obtain ⟨b, second, valueB⟩ := exists_byte (show n % 64 + 128 < 256 by omega)
    have value : joined (a.toNat - 0xC0) b = n := by unfold joined; omega
    rw [first, second, ← value]
    exact .two (by omega) (by omega) ⟨by omega, by omega⟩
  split
  · obtain ⟨a, first, valueA⟩ := exists_byte (show n / 4096 % 16 + 224 < 256 by omega)
    obtain ⟨b, second, valueB⟩ := exists_byte (show n / 64 % 64 + 128 < 256 by omega)
    obtain ⟨c, third, valueC⟩ := exists_byte (show n % 64 + 128 < 256 by omega)
    have value : joined (joined (a.toNat - 0xE0) b) c = n := by unfold joined; omega
    rw [first, second, third, ← value]
    exact .three (by omega) (by omega) (by unfold Second Tail; omega) ⟨by omega, by omega⟩
  · obtain ⟨a, first, valueA⟩ := exists_byte (show n / 262144 % 8 + 240 < 256 by omega)
    obtain ⟨b, second, valueB⟩ := exists_byte (show n / 4096 % 64 + 128 < 256 by omega)
    obtain ⟨c, third, valueC⟩ := exists_byte (show n / 64 % 64 + 128 < 256 by omega)
    obtain ⟨d, fourth, valueD⟩ := exists_byte (show n % 64 + 128 < 256 by omega)
    have value : joined (joined (joined (a.toNat - 0xF0) b) c) d = n := by unfold joined; omega
    rw [first, second, third, fourth, ← value]
    exact .four (by omega) (by omega) (by unfold Second Tail; omega) ⟨by omega, by omega⟩
      ⟨by omega, by omega⟩

/-- What is spelled is a character. -/
theorem Spells.isValidChar {bytes : List UInt8} {n : Nat} (spelled : Spells bytes n) :
    n.isValidChar := by
  change n < 0xD800 ∨ 0xDFFF < n ∧ n < 0x110000
  cases spelled with
  | one => omega
  | two _ _ second =>
    unfold Tail at second
    unfold joined
    omega
  | three _ _ second third =>
    unfold Second Tail at *
    unfold joined
    omega
  | four _ _ second third fourth =>
    unfold Second Tail at *
    unfold joined
    omega

theorem ofNat_eq_of_toNat {n : Nat} {b : UInt8} (same : n = b.toNat) : UInt8.ofNat n = b := by
  rw [same, UInt8.ofNat_toNat]

/-- No other bytes spell it. -/
theorem Spells.encodeChar {bytes : List UInt8} {n : Nat} (spelled : Spells bytes n) :
    String.utf8EncodeChar (Char.ofNat n) = bytes := by
  have valid := spelled.isValidChar
  have number : (Char.ofNat n).val.toNat = n := by
    rw [Char.ofNat, dif_pos valid]
    rfl
  unfold String.utf8EncodeChar
  rw [number]
  dsimp only
  cases spelled with
  | one ascii => rw [if_pos (by omega), UInt8.ofNat_toNat]
  | @two a b _ _ second =>
    unfold Tail at second
    unfold joined
    rw [if_neg (by omega), if_pos (by omega), ofNat_eq_of_toNat (b := a) (by omega),
      ofNat_eq_of_toNat (b := b) (by omega)]
  | @three a b c _ _ second third =>
    unfold Second Tail at *
    unfold joined
    rw [if_neg (by omega), if_neg (by omega), if_pos (by omega),
      ofNat_eq_of_toNat (b := a) (by omega), ofNat_eq_of_toNat (b := b) (by omega),
      ofNat_eq_of_toNat (b := c) (by omega)]
  | @four a b c d _ _ second third fourth =>
    unfold Second Tail at *
    unfold joined
    rw [if_neg (by omega), if_neg (by omega), if_neg (by omega),
      ofNat_eq_of_toNat (b := a) (by omega), ofNat_eq_of_toNat (b := b) (by omega),
      ofNat_eq_of_toNat (b := c) (by omega), ofNat_eq_of_toNat (b := d) (by omega)]

theorem run_cons (p : Progress) (b : UInt8) (rest : List UInt8) :
    run p (b :: rest) = (next p b.toNat).1 ++ run (next p b.toNat).2 rest := by
  cases p <;> rfl

/-- The last byte that is owed ends the character. -/
theorem run_last {low high n : Nat} {b : UInt8} (fits : low ≤ b.toNat ∧ b.toNat ≤ high)
    (rest : List UInt8) :
    run (.inside 1 low high n) (b :: rest) = some (Char.ofNat (joined n b)) :: run .start rest := by
  rw [run_cons, next, if_pos fits, if_pos (Nat.le_refl 1)]
  rfl

theorem run_more {owed low high n : Nat} {b : UInt8} (fits : low ≤ b.toNat ∧ b.toNat ≤ high)
    (rest : List UInt8) :
    run (.inside (owed + 2) low high n) (b :: rest) =
      run (.inside (owed + 1) 0x80 0xBF (joined n b)) rest := by
  rw [run_cons, next, if_pos fits, if_neg (by omega)]
  rfl

/-- A byte that does not go on with the character cuts it short, and so does the end. -/
theorem run_short {owed low high n : Nat} {rest : List UInt8}
    (unfit : ∀ b more, rest = b :: more → ¬ (low ≤ b.toNat ∧ b.toNat ≤ high)) :
    ∃ more, run (.inside owed low high n) rest = none :: more := by
  cases rest with
  | nil => exact ⟨[], rfl⟩
  | cons b rest =>
    rw [run_cons, next, if_neg (unfit b rest rfl)]
    exact ⟨_, rfl⟩

theorem run_first (b : UInt8) (rest : List UInt8) :
    run .start (b :: rest) = (first b.toNat).1 ++ run (first b.toNat).2 rest := rfl

theorem first_two {n : Nat} (least : 0xC2 ≤ n) (most : n < 0xE0) :
    first n = ([], .inside 1 0x80 0xBF (n - 0xC0)) := by
  rw [first, if_neg (by omega), if_neg (by omega), if_pos most]

theorem first_three {n : Nat} (least : 0xE0 ≤ n) (most : n < 0xF0) :
    first n = ([], .inside 2 (if n = 0xE0 then 0xA0 else 0x80) (if n = 0xED then 0x9F else 0xBF)
      (n - 0xE0)) := by
  rw [first, if_neg (by omega), if_neg (by omega), if_neg (by omega), if_pos most]

theorem first_four {n : Nat} (least : 0xF0 ≤ n) (most : n < 0xF5) :
    first n = ([], .inside 3 (if n = 0xF0 then 0x90 else 0x80) (if n = 0xF4 then 0x8F else 0xBF)
      (n - 0xF0)) := by
  rw [first, if_neg (by omega), if_neg (by omega), if_neg (by omega), if_neg (by omega),
    if_pos most]

theorem second_three_iff {a b : UInt8} (least : 0xE0 ≤ a.toNat) (most : a.toNat < 0xF0) :
    Second a b ↔ (if a.toNat = 0xE0 then 0xA0 else 0x80) ≤ b.toNat ∧
      b.toNat ≤ if a.toNat = 0xED then 0x9F else 0xBF := by
  unfold Second Tail
  split <;> split <;> omega

theorem second_four_iff {a b : UInt8} (least : 0xF0 ≤ a.toNat) (most : a.toNat < 0xF5) :
    Second a b ↔ (if a.toNat = 0xF0 then 0x90 else 0x80) ≤ b.toNat ∧
      b.toNat ≤ if a.toNat = 0xF4 then 0x8F else 0xBF := by
  unfold Second Tail
  split <;> split <;> omega

/-- Bytes that spell a character are read as it. -/
theorem Spells.run {bytes : List UInt8} {n : Nat} (spelled : Spells bytes n) (rest : List UInt8) :
    Utf8.run .start (bytes ++ rest) = some (Char.ofNat n) :: Utf8.run .start rest := by
  cases spelled with
  | one ascii =>
    rw [List.singleton_append, run_first, first, if_pos ascii]
    rfl
  | two least most second =>
    rw [List.cons_append, run_first, first_two least most]
    exact run_last second rest
  | three least most second third =>
    rw [List.cons_append, run_first, first_three least most]
    exact (run_more ((second_three_iff least most).mp second) _).trans (run_last third rest)
  | four least most second third fourth =>
    rw [List.cons_append, run_first, first_four least most]
    exact (run_more ((second_four_iff least most).mp second) _).trans
      ((run_more third _).trans (run_last fourth rest))

/-- The next byte goes on with the character, or the character is cut short. -/
theorem fits_or_short (owed low high n : Nat) (rest : List UInt8) :
    (∃ b more, rest = b :: more ∧ low ≤ b.toNat ∧ b.toNat ≤ high) ∨
      ∃ more, run (.inside owed low high n) rest = none :: more := by
  by_cases fits : ∃ b more, rest = b :: more ∧ low ≤ b.toNat ∧ b.toNat ≤ high
  · exact .inl fits
  · refine .inr (run_short fun b more same bounds => fits ⟨b, more, same, bounds⟩)

theorem spells_or_unsound (a : UInt8) (rest : List UInt8) :
    (∃ bytes n more, a :: rest = bytes ++ more ∧ Spells bytes n) ∨
      ∃ more, run .start (a :: rest) = none :: more := by
  rw [run_first]
  by_cases ascii : a.toNat < 0x80
  · exact .inl ⟨[a], _, rest, rfl, .one ascii⟩
  by_cases early : a.toNat < 0xC2
  · rw [first, if_neg ascii, if_pos early]
    exact .inr ⟨_, rfl⟩
  by_cases two : a.toNat < 0xE0
  · rw [first_two (by omega) two]
    obtain ⟨b, rest, rfl, second⟩ | short := fits_or_short 1 0x80 0xBF (a.toNat - 0xC0) rest
    · exact .inl ⟨[a, b], _, rest, rfl, .two (by omega) two second⟩
    · exact .inr short
  by_cases three : a.toNat < 0xF0
  · rw [first_three (by omega) three]
    obtain ⟨b, rest, rfl, second⟩ | short := fits_or_short 2 _ _ (a.toNat - 0xE0) rest
    · rw [List.nil_append, run_more second]
      obtain ⟨c, rest, rfl, third⟩ | short := fits_or_short 1 0x80 0xBF _ rest
      · exact .inl ⟨[a, b, c], _, rest, rfl,
          .three (by omega) three ((second_three_iff (by omega) three).mpr second) third⟩
      · exact .inr short
    · exact .inr short
  by_cases four : a.toNat < 0xF5
  · rw [first_four (by omega) four]
    obtain ⟨b, rest, rfl, second⟩ | short := fits_or_short 3 _ _ (a.toNat - 0xF0) rest
    · rw [List.nil_append, run_more second]
      obtain ⟨c, rest, rfl, third⟩ | short := fits_or_short 2 0x80 0xBF _ rest
      · rw [run_more third]
        obtain ⟨d, rest, rfl, fourth⟩ | short := fits_or_short 1 0x80 0xBF _ rest
        · exact .inl ⟨[a, b, c, d], _, rest, rfl,
            .four (by omega) four ((second_four_iff (by omega) four).mpr second) third fourth⟩
        · exact .inr short
      · exact .inr short
    · exact .inr short
  · rw [first, if_neg ascii, if_neg early, if_neg two, if_neg three, if_neg four]
    exact .inr ⟨_, rfl⟩

theorem run_encodeChars (cs : List Char) :
    run .start (cs.flatMap String.utf8EncodeChar) = cs.map some := by
  induction cs with
  | nil => rfl
  | cons c cs ih =>
    rw [List.flatMap_cons, (spells_encodeChar c).run, ih, Char.ofNat_toNat, List.map_cons]

theorem decode_encode (text : String) : decode (encode text) = letters text :=
  run_encodeChars text.toList

/-- Bytes that are read without an unsound letter are those of the characters that are read. -/
theorem encodeChars_of_run {bytes : List UInt8} {cs : List Char}
    (sound : run .start bytes = cs.map some) : cs.flatMap String.utf8EncodeChar = bytes := by
  induction size : bytes.length using Nat.strongRecOn generalizing bytes cs with
  | ind length ih =>
    cases bytes with
    | nil =>
      obtain rfl : cs = [] := List.map_eq_nil_iff.mp sound.symm
      rfl
    | cons a rest =>
      obtain ⟨bytes, n, more, same, spelled⟩ | ⟨more, unsound⟩ := spells_or_unsound a rest
      · rw [same, spelled.run] at sound
        obtain ⟨c, cs, rfl, first, others⟩ := List.map_eq_cons_iff.mp sound.symm
        obtain rfl := Option.some.inj first
        have shorter : more.length < length := by
          have written := congrArg List.length same
          have nonempty : bytes ≠ [] := by cases spelled <;> simp
          have := List.length_pos_iff.mpr nonempty
          rw [List.length_append, size] at written
          omega
        rw [List.flatMap_cons, spelled.encodeChar, ih _ shorter others.symm rfl, same]
      · rw [unsound] at sound
        obtain ⟨c, cs, -, first, -⟩ := List.map_eq_cons_iff.mp sound.symm
        cases first

theorem chars?_eq_some_iff {letters : List Letter} {cs : List Char} :
    chars? letters = some cs ↔ letters = cs.map some := by
  unfold chars?
  induction letters generalizing cs with
  | nil => cases cs <;> simp
  | cons letter letters ih =>
    rw [List.mapM_cons]
    constructor
    · intro read
      obtain ⟨c, first, read⟩ := Option.bind_eq_some_iff.mp read
      obtain ⟨rest, others, all⟩ := Option.bind_eq_some_iff.mp read
      obtain rfl : c :: rest = cs := Option.some.inj all
      rw [ih.mp others, List.map_cons, ← first, id]
    · intro same
      obtain ⟨c, rest, rfl, first, others⟩ := List.map_eq_cons_iff.mp same.symm
      rw [← first, ih.mpr others.symm]
      rfl

/-- Bytes are a text exactly if they are what it is written as. -/
theorem text?_eq_some_iff {bytes : List UInt8} {text : String} :
    text? bytes = some text ↔ encode text = bytes := by
  rw [text?, Option.map_eq_some_iff]
  constructor
  · rintro ⟨cs, sound, rfl⟩
    rw [encode, String.toList_ofList]
    exact encodeChars_of_run (chars?_eq_some_iff.mp sound)
  · rintro rfl
    exact ⟨text.toList, chars?_eq_some_iff.mpr (decode_encode text), String.ofList_toList⟩

end SignalHub.Utf8
