import SignalHub.Json.Printer

/-! A numeral, a word or a text is read letter by letter as it was written. Texts and marks end by
themselves; a bare word ends where a letter comes that cannot be in one, so written tokens are read
back if no two bare ones are next to each other (`tokens?_chars`). -/
namespace SignalHub

namespace Decimal

/-- No digit comes first, so a run of digits before it ends there. -/
def Stops (rest : List Char) : Prop := ∀ c ∈ rest.head?, Digit.ofChar? c = none

theorem leading_of_stops {rest : List Char} (stops : Stops rest) : leading rest = ([], rest) := by
  cases rest with
  | nil => rfl
  | cons c rest => simp [leading, stops c rfl]

theorem leading_chars (ds : List Digit) {rest : List Char} (stops : Stops rest) :
    leading (chars ds ++ rest) = (ds, rest) := by
  induction ds with
  | nil => exact leading_of_stops stops
  | cons d ds ih =>
    change leading (d.char :: (chars ds ++ rest)) = _
    rw [leading, Digit.ofChar?_char, ih]

theorem digits_ne_nil (n : Nat) : digits n ≠ [] := by
  rw [digits]
  split <;> simp

/-- A number of several digits starts with another digit than zero. -/
theorem head_digits {n : Nat} (positive : 0 < n) : ∃ d ds, digits n = d :: ds ∧ d ≠ 0 := by
  induction n using Nat.strongRecOn with
  | ind n ih =>
    rw [digits]
    split
    · rename_i small
      refine ⟨_, [], rfl, ?_⟩
      simp only [ne_eq, Fin.ext_iff, Fin.val_zero, Nat.mod_eq_of_lt small]
      omega
    · obtain ⟨d, ds, first, nonzero⟩ := ih (n / 10) (by omega) (by omega)
      exact ⟨d, ds ++ [_], by rw [first, List.cons_append], nonzero⟩

theorem proper_digits (n : Nat) : proper (digits n) = true := by
  by_cases positive : 0 < n
  · obtain ⟨d, ds, first, nonzero⟩ := head_digits positive
    rw [first]
    cases ds with
    | nil => rfl
    | cons _ _ => simpa [proper] using nonzero
  · obtain rfl : n = 0 := by omega
    rw [digits]
    rfl

theorem stops_nil : Stops [] := by simp [Stops]

theorem number?_digits (n : Nat) : number? (chars (digits n)) = some n := by
  have read := leading_chars (digits n) stops_nil
  rw [List.append_nil] at read
  unfold number?
  rw [read]
  cases first : digits n with
  | nil => exact absurd first (digits_ne_nil n)
  | cons d ds => simp [← first, value_digits]

theorem Digit.char_ne (d : Digit) : d.char ∉ ['-', '+', 'n', 't', 'f'] := by
  revert d
  decide

theorem chars_digits (n : Nat) :
    ∃ (d : Digit) (text : List Char), chars (digits n) = d.char :: text := by
  cases first : digits n with
  | nil => exact absurd first (digits_ne_nil n)
  | cons d ds => exact ⟨d, chars ds, rfl⟩

theorem stops_cons {c : Char} (foreign : Digit.ofChar? c = none) (rest : List Char) :
    Stops (c :: rest) := by
  simpa [Stops] using foreign

end Decimal

namespace Json.Numeral

open Decimal (Digit digits Stops)

theorem sign_digit (d : Digit) (rest : List Char) :
    sign (d.char :: rest) = (false, d.char :: rest) := by
  unfold sign
  split
  · rename_i same
    exact absurd (List.cons.inj same).1 fun minus => d.char_ne (by simp [minus])
  · rfl

theorem exponentSign_digit (d : Digit) (rest : List Char) :
    exponentSign (d.char :: rest) = (false, d.char :: rest) := by
  unfold exponentSign
  split
  · rename_i same
    exact absurd (List.cons.inj same).1 fun plus => d.char_ne (by simp [plus])
  · exact sign_digit d rest

theorem exponent?_of_sign {text digits : List Char} {negative : Bool} {n : Nat}
    (signed : exponentSign text = (negative, digits)) (read : Decimal.number? digits = some n) :
    exponent? ('e' :: text) = some (some (if negative then -(n : Int) else n)) := by
  rw [exponent?, if_pos (.inl rfl), signed]
  dsimp only
  rw [read]
  rfl

theorem exponent?_exponentChars (e : Option Int) : exponent? (exponentChars e) = some e := by
  cases e with
  | none => rfl
  | some e =>
    have read := Decimal.number?_digits e.natAbs
    by_cases negative : e < 0
    · have back : -(e.natAbs : Int) = e := by omega
      have signed (text : List Char) : exponentSign ('-' :: text) = (true, text) := rfl
      rw [exponentChars, if_pos negative]
      exact (exponent?_of_sign (signed _) read).trans (congrArg (fun i => some (some i)) back)
    · obtain ⟨d, text, starts⟩ := Decimal.chars_digits e.natAbs
      have back : (e.natAbs : Int) = e := Int.natAbs_of_nonneg (Int.not_lt.mp negative)
      rw [starts] at read
      rw [exponentChars, if_neg negative, starts]
      exact (exponent?_of_sign (exponentSign_digit d text) read).trans
        (congrArg (fun i => some (some i)) back)

theorem stops_exponentChars (e : Option Int) : Stops (exponentChars e) := by
  cases e with
  | none => exact Decimal.stops_nil
  | some e => exact Decimal.stops_cons (by decide) _

/-- The digits after the point, if there is one, and what follows them. -/
theorem fraction?_chars (ds : List Digit) (e : Option Int) :
    fraction? ((if ds.isEmpty then [] else '.' :: Decimal.chars ds) ++ exponentChars e) =
      some (ds, exponentChars e) := by
  cases ds with
  | nil => cases e <;> rfl
  | cons d ds =>
    have read := Decimal.leading_chars (d :: ds) (stops_exponentChars e)
    simp [fraction?, read]

theorem stops_fraction (ds : List Digit) (e : Option Int) :
    Stops ((if ds.isEmpty then [] else '.' :: Decimal.chars ds) ++ exponentChars e) := by
  cases ds with
  | nil => exact stops_exponentChars e
  | cons d ds => exact Decimal.stops_cons (by decide) _

/-- A numeral is read back as it was written. -/
theorem parse?_chars (n : Numeral) : parse? n.chars = some n := by
  obtain ⟨negative, whole, fraction, exponent⟩ := n
  obtain ⟨d, text, starts⟩ := Decimal.chars_digits whole
  have signed : sign (chars ⟨negative, whole, fraction, exponent⟩) =
      (negative, Decimal.chars (digits whole) ++
        ((if fraction.isEmpty then [] else '.' :: Decimal.chars fraction) ++
          exponentChars exponent)) := by
    cases negative with
    | true => simp [chars, sign]
    | false =>
      simp only [chars, Bool.false_eq_true, ↓reduceIte, List.nil_append, List.append_assoc, starts,
        List.cons_append]
      exact sign_digit d _
  unfold parse?
  simp only [signed, Decimal.leading_chars (digits whole) (stops_fraction fraction exponent),
    Decimal.proper_digits, ↓reduceIte, fraction?_chars, Decimal.value_digits,
    exponent?_exponentChars, Option.bind_eq_bind, Option.bind_some, Option.pure_def]

end Json.Numeral

namespace Json

open Utf8 (Letter)

/-- The tokens of the letters that are left, from a state on. -/
def scan : Scan → List Letter → Option (List Token)
  | state, [] => scanEnd state
  | state, letter :: rest => do
    let (tokens, next) ← scanStep state letter
    let more ← scan next rest
    return tokens ++ more

/-- The tokens so far, with those that are still owed, come out in their order. -/
def owed (found : List Token × Scan) : Option (List Token) :=
  (scanEnd found.2).map fun last => found.1.reverse ++ last

def advance (found : List Token × Scan) (letter : Letter) : Option (List Token × Scan) :=
  (scanStep found.2 letter).map fun p => (p.1.reverse ++ found.1, p.2)

theorem scan_eq_fold (letters : List Letter) (done : List Token) (state : Scan) :
    (letters.foldlM advance (done, state)).bind owed =
      (scan state letters).map (done.reverse ++ ·) := by
  induction letters generalizing done state with
  | nil => rfl
  | cons letter rest ih =>
    cases step : scanStep state letter with
    | none => simp [scan, advance, step]
    | some p =>
      obtain ⟨tokens, next⟩ := p
      have later := ih (tokens.reverse ++ done) next
      rw [List.foldlM_cons]
      cases more : scan next rest <;> simp_all [scan, advance]

theorem tokens?_eq_scan (letters : List Letter) : tokens? letters = scan .between letters := by
  have same : scanAll letters = letters.foldlM advance ([], .between) := by
    unfold scanAll
    congr 1
    funext found letter
    obtain ⟨done, state⟩ := found
    cases step : scanStep state letter <;> simp [advance, step]
  have all := scan_eq_fold letters [] .between
  rw [← same] at all
  unfold tokens?
  cases found : scanAll letters with
  | none => simpa [found] using all
  | some p =>
    cases last : scanEnd p.2 <;> simpa [found, owed, last] using all

theorem scan_quiet {state next : Scan} {letter : Letter}
    (step : scanStep state letter = some ([], next)) (rest : List Letter) :
    scan state (letter :: rest) = scan next rest := by
  simp [scan, step]

theorem scan_token {state next : Scan} {letter : Letter} {t : Token}
    (step : scanStep state letter = some ([t], next)) (rest : List Letter) :
    scan state (letter :: rest) = (scan next rest).map (t :: ·) := by
  cases later : scan next rest <;> simp [scan, step, later]

/-- A letter inside a text that leaves the text going on. -/
theorem scan_inText {w : Written} {high : Option Nat} {escape : Escape} {letter : Letter}
    {next : Scan} (step : textStep w high escape letter = some (.inl next)) (rest : List Letter) :
    scan (.inText w high escape) (letter :: rest) = scan next rest :=
  scan_quiet (by simp [scanStep, step]) rest

theorem addUnit_control (w : Written) {n : Nat} (control : n < 0x20) :
    addUnit w none n = (w.add (Char.ofNat n), none) := by
  unfold addUnit
  rw [if_neg (by omega), if_neg (by omega)]
  rfl

theorem scan_hex (w : Written) (high : Option Nat) {left value : Nat} (more : 1 < left) {c : Char}
    {d : Fin 16} (digit : Hex.value? c = some d) (rest : List Letter) :
    scan (.inText w high (.hex left value)) (some c :: rest) =
      scan (.inText w high (.hex (left - 1) (value * 16 + d.val))) rest := by
  apply scan_inText
  simp [textStep, digit, Nat.not_le.mpr more]

theorem scan_lastHex (w : Written) (high : Option Nat) {value : Nat} {c : Char} {d : Fin 16}
    (digit : Hex.value? c = some d) (rest : List Letter) :
    scan (.inText w high (.hex 1 value)) (some c :: rest) =
      scan (.inText (addUnit w high (value * 16 + d.val)).1
        (addUnit w high (value * 16 + d.val)).2 .plain) rest := by
  apply scan_inText
  simp [textStep, digit]

theorem value?_lastDigit (n : Nat) : Hex.value? (Hex.lastDigit n) = some (Fin.ofNat 16 n) :=
  Hex.value?_digit _

/-- A control character is read back from its four digits. -/
theorem scan_hex4 (w : Written) {n : Nat} (control : n < 0x20) (rest : List Letter) :
    scan (.inText w none .plain) (('\\' :: 'u' :: hex4 n).map some ++ rest) =
      scan (.inText (w.add (Char.ofNat n)) none .plain) rest := by
  have value : (((0 * 16 + n / 4096 % 16) * 16 + n / 256 % 16) * 16 + n / 16 % 16) * 16 + n % 16 =
      n := by omega
  simp only [hex4, List.map_cons, List.map_nil, List.cons_append, List.nil_append]
  refine (scan_inText rfl _).trans ((scan_inText rfl _).trans ?_)
  rw [scan_hex w none (by decide) (value?_lastDigit _),
    scan_hex w none (by decide) (value?_lastDigit _),
    scan_hex w none (by decide) (value?_lastDigit _), scan_lastHex w none (value?_lastDigit _)]
  simp only [Fin.val_ofNat, value, addUnit_control w control]

theorem scan_escape (w : Written) {c d : Char} (short : shortEscape? c = some d) (other : c ≠ 'u')
    (rest : List Letter) :
    scan (.inText w none .plain) (['\\', c].map some ++ rest) =
      scan (.inText (w.add d) none .plain) rest := by
  have second : textStep w none .backslash (some c) =
      some (.inl (.inText (w.add d) none .plain)) := by
    simp [textStep, short, settle]
  exact (scan_inText rfl _).trans (scan_inText second rest)

theorem scan_plain (w : Written) {c : Char} (quote : c ≠ '"') (backslash : c ≠ '\\')
    (visible : ¬c.toNat < 0x20) (rest : List Letter) :
    scan (.inText w none .plain) (some c :: rest) = scan (.inText (w.add c) none .plain) rest := by
  apply scan_inText
  simp [textStep, visible, settle]

/-- A character is escaped by one letter, escaped by its number, or written as it is. -/
theorem escaped_cases (c : Char) :
    (∃ d, escaped c = ['\\', d] ∧ shortEscape? d = some c ∧ d ≠ 'u') ∨
      (c.toNat < 0x20 ∧ escaped c = '\\' :: 'u' :: hex4 c.toNat) ∨
      (c ≠ '"' ∧ c ≠ '\\' ∧ ¬c.toNat < 0x20 ∧ escaped c = [c]) := by
  unfold escaped
  split
  case isTrue quote => exact .inl ⟨'"', rfl, by rw [quote]; rfl, by decide⟩
  rename_i quote
  split
  case isTrue backslash => exact .inl ⟨'\\', rfl, by rw [backslash]; rfl, by decide⟩
  rename_i backslash
  iterate 5
    split
    case isTrue same => exact .inl ⟨_, rfl, by rw [same]; rfl, by decide⟩
  split
  case isTrue control => exact .inr (.inl ⟨control, rfl⟩)
  rename_i visible
  exact .inr (.inr ⟨quote, backslash, visible, rfl⟩)

theorem scan_escaped (w : Written) (c : Char) (rest : List Letter) :
    scan (.inText w none .plain) ((escaped c).map some ++ rest) =
      scan (.inText (w.add c) none .plain) rest := by
  obtain ⟨d, written, short, other⟩ | ⟨control, written⟩ | ⟨quote, backslash, visible, written⟩ :=
    escaped_cases c
  · rw [written, scan_escape w short other]
  · rw [written, scan_hex4 w control, Char.ofNat_toNat]
  · rw [written]
    exact scan_plain w quote backslash visible rest

theorem scan_chars (w : Written) (cs : List Char) (rest : List Letter) :
    scan (.inText w none .plain) ((cs.flatMap escaped).map some ++ rest) =
      scan (.inText { w with reversed := cs.reverse ++ w.reversed } none .plain) rest := by
  induction cs generalizing w with
  | nil => rfl
  | cons c cs ih =>
    rw [List.flatMap_cons, List.map_append, List.append_assoc, scan_escaped, ih]
    simp [Written.add]

theorem scan_open (rest : List Letter) :
    scan .between (some '"' :: rest) = scan (.inText .none none .plain) rest :=
  scan_quiet rfl rest

theorem scan_close (w : Written) (rest : List Letter) :
    scan (.inText w none .plain) (some '"' :: rest) = (scan .between rest).map (.text w.text :: ·) :=
  scan_token rfl rest

theorem textChars_some (s : String) :
    textChars (some s) = '"' :: s.toList.flatMap escaped ++ ['"'] := rfl

theorem textChars_none : textChars none = ['"', '\\', 'u', 'd', '8', '0', '0', '"'] := rfl

theorem textChars_cons (s : Option String) : ∃ cs, textChars s = '"' :: cs := by
  cases s with
  | none => exact ⟨_, textChars_none⟩
  | some s => exact ⟨_, textChars_some s⟩

/-- A text is read back, and one that is unsound stays so. -/
theorem scan_text (s : Option String) (rest : List Letter) :
    scan .between ((textChars s).map some ++ rest) = (scan .between rest).map (.text s :: ·) := by
  cases s with
  | none =>
    rw [textChars_none]
    refine (scan_open _).trans ?_
    iterate 6 refine (scan_inText rfl _).trans ?_
    exact scan_token rfl rest
  | some s =>
    rw [textChars_some, List.cons_append, List.map_cons, List.map_append, List.cons_append,
      List.append_assoc, scan_open, scan_chars]
    exact (scan_close _ rest).trans (by simp [Written.text, Written.none])

namespace Token

/-- The token is written as a word that ends where another letter comes. -/
def isBare : Token → Bool
  | .null | .bool _ | .number _ => true
  | _ => false

end Token

/-- A bare word before this text ends there. -/
def Parted (rest : List Letter) : Prop := ∀ c, rest.head? = some (some c) → bareLetter c = false

theorem scan_firstLetter {c : Char} (bare : bareLetter c = true) (rest : List Letter) :
    scan .between (some c :: rest) = scan (.bare [c]) rest := by
  apply scan_quiet
  have blank : Json.blank c = false := by
    apply Bool.eq_false_iff.mpr
    intro blank
    simp only [Json.blank, Bool.or_eq_true, beq_iff_eq, or_assoc] at blank
    rcases blank with rfl | rfl | rfl | rfl <;> exact absurd bare (by decide)
  have quote : c ≠ '"' := by
    rintro rfl
    exact absurd bare (by decide)
  simp [scanStep, outerStep, blank, quote, bare]

theorem scan_letters (word done : List Char) (bare : ∀ c ∈ word, bareLetter c = true)
    (rest : List Letter) :
    scan (.bare done) (word.map some ++ rest) = scan (.bare (word.reverse ++ done)) rest := by
  induction word generalizing done with
  | nil => rfl
  | cons c word ih =>
    rw [List.forall_mem_cons] at bare
    have goesOn : scanStep (.bare done) (some c) = some ([], .bare (c :: done)) := by
      simp [scanStep, bare.1]
    rw [List.map_cons, List.cons_append, scan_quiet goesOn, ih _ bare.2]
    simp

theorem scan_lastLetter (done : List Char) {rest : List Letter} (parted : Parted rest) :
    scan (.bare done) rest =
      (bareToken? done.reverse).bind fun t => (scan .between rest).map (t :: ·) := by
  cases rest with
  | nil => cases word : bareToken? done.reverse <;> simp [scan, scanEnd, word]
  | cons letter rest =>
    cases letter with
    | none => simp [scan, scanStep]
    | some c =>
      have foreign := parted c rfl
      cases word : bareToken? done.reverse with
      | none => simp [scan, scanStep, foreign, word]
      | some t =>
        cases outer : outerStep c with
        | none => simp [scan, scanStep, foreign, word, outer]
        | some p => cases more : scan p.2 rest <;> simp [scan, scanStep, foreign, word, outer, more]

/-- A bare word is looked at when it is over. -/
theorem scan_word {word : List Char} (some_ : word ≠ []) (bare : ∀ c ∈ word, bareLetter c = true)
    {rest : List Letter} (parted : Parted rest) :
    scan .between (word.map some ++ rest) =
      (bareToken? word).bind fun t => (scan .between rest).map (t :: ·) := by
  cases word with
  | nil => exact absurd rfl some_
  | cons c word =>
    rw [List.forall_mem_cons] at bare
    rw [List.map_cons, List.cons_append, scan_firstLetter bare.1, scan_letters _ _ bare.2,
      scan_lastLetter _ parted]
    simp

namespace Numeral

open Decimal (Digit)

theorem bareLetter_digit (d : Digit) : bareLetter d.char = true := by
  revert d
  decide

theorem bare_digits (ds : List Digit) : ∀ c ∈ Decimal.chars ds, bareLetter c = true := by
  intro c member
  obtain ⟨d, -, rfl⟩ := List.mem_map.mp member
  exact bareLetter_digit d

theorem bare_exponentChars (e : Option Int) : ∀ c ∈ exponentChars e, bareLetter c = true := by
  intro c member
  cases e with
  | none => simp [exponentChars] at member
  | some e =>
    simp only [exponentChars, List.cons_append, List.mem_cons, List.mem_append] at member
    rcases member with rfl | sign | digit
    · decide
    · split at sign
      · rw [List.mem_singleton.mp sign]
        decide
      · simp at sign
    · exact bare_digits _ c digit

theorem bare_chars (n : Numeral) : ∀ c ∈ n.chars, bareLetter c = true := by
  intro c member
  simp only [chars, List.mem_append] at member
  rcases member with ((sign | whole) | fraction) | exponent
  · split at sign
    · rw [List.mem_singleton.mp sign]
      decide
    · simp at sign
  · exact bare_digits _ c whole
  · split at fraction
    · simp at fraction
    · rcases List.mem_cons.mp fraction with rfl | digit
      · decide
      · exact bare_digits _ c digit
  · exact bare_exponentChars _ c exponent

theorem head_chars (n : Numeral) :
    ∃ c text, n.chars = c :: text ∧ c ≠ 'n' ∧ c ≠ 't' ∧ c ≠ 'f' := by
  obtain ⟨negative, whole, fraction, exponent⟩ := n
  obtain ⟨d, text, starts⟩ := Decimal.chars_digits whole
  cases negative with
  | true => exact ⟨'-', _, rfl, by decide⟩
  | false =>
    have other := d.char_ne
    simp only [List.mem_cons, List.not_mem_nil, or_false, not_or] at other
    exact ⟨d.char, _, by simp only [chars, starts]; rfl, other.2.2⟩

/-- No numeral is taken for one of the three words. -/
theorem bareToken?_chars (n : Numeral) : bareToken? n.chars = some (.number n) := by
  obtain ⟨c, text, starts, notNull, notTrue, notFalse⟩ := n.head_chars
  have apart {word : List Char} (other : some c ≠ word.head?) : n.chars ≠ word := by
    rintro rfl
    exact other (by rw [starts, List.head?_cons])
  have null : n.chars ≠ "null".toList := apart (by simpa using notNull)
  have true_ : n.chars ≠ "true".toList := apart (by simpa using notTrue)
  have false_ : n.chars ≠ "false".toList := apart (by simpa using notFalse)
  rw [bareToken?, if_neg null, if_neg true_, if_neg false_, parse?_chars]
  rfl

end Numeral

namespace Token

variable {t : Token}

theorem bareToken?_chars (bare : t.isBare = true) : bareToken? t.chars = some t := by
  cases t with
  | mark | text => contradiction
  | null => rfl
  | bool b => cases b <;> rfl
  | number n => exact n.bareToken?_chars

theorem bare_chars (bare : t.isBare = true) : ∀ c ∈ t.chars, bareLetter c = true := by
  cases t with
  | mark | text => contradiction
  | null => exact List.all_eq_true.mp rfl
  | bool b => cases b <;> exact List.all_eq_true.mp rfl
  | number n => exact n.bare_chars

theorem chars_ne_nil (t : Token) : t.chars ≠ [] := by
  cases t with
  | mark | null => simp [chars]
  | bool b => cases b <;> decide
  | number n =>
    obtain ⟨c, text, starts, -⟩ := n.head_chars
    simp [chars, starts]
  | text s =>
    obtain ⟨cs, starts⟩ := textChars_cons s
    simp [chars, starts]

/-- A token that is not bare starts with a letter that ends a bare word. -/
theorem parted (other : t.isBare = false) (rest : List Letter) :
    Parted (t.chars.map some ++ rest) := by
  intro c head
  cases t with
  | null | bool | number => contradiction
  | mark m =>
    obtain rfl : m.char = c := by simpa [chars] using head
    cases m <;> decide
  | text s =>
    obtain ⟨cs, starts⟩ := textChars_cons s
    obtain rfl : '"' = c := by simpa [chars, starts] using head
    decide

theorem scan_chars {rest : List Letter} (apart : t.isBare = true → Parted rest) :
    scan .between (t.chars.map some ++ rest) = (scan .between rest).map (t :: ·) := by
  cases bare : t.isBare with
  | true =>
    rw [scan_word t.chars_ne_nil (bare_chars bare) (apart bare), bareToken?_chars bare]
    rfl
  | false =>
    cases t with
    | null | bool | number => contradiction
    | text s => exact scan_text s rest
    | mark m =>
      have read : scanStep .between (some m.char) = some ([.mark m], .between) := by
        cases m <;> decide
      exact Json.scan_token read rest

end Token

/-- No two bare tokens are next to each other. -/
def spaced : List Token → Bool
  | [] => true
  | t :: rest => (!t.isBare || rest.head?.all fun next => !next.isBare) && spaced rest

/-- Tokens are read back from what is written if no two of them run together. -/
theorem tokens?_chars {tokens : List Token} (apart : spaced tokens = true) :
    tokens? ((tokens.flatMap Token.chars).map some) = some tokens := by
  rw [tokens?_eq_scan]
  induction tokens with
  | nil => rfl
  | cons t rest ih =>
    rw [spaced, Bool.and_eq_true] at apart
    rw [List.flatMap_cons, List.map_append, Token.scan_chars, ih apart.2]
    · rfl
    · intro bare
      cases rest with
      | nil => simp [Parted]
      | cons next rest =>
        have other : next.isBare = false := by simpa [bare] using apart.1
        rw [List.flatMap_cons, List.map_append]
        exact Token.parted other _

end Json
end SignalHub
