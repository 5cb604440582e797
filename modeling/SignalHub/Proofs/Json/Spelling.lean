import SignalHub.Proofs.Json.Scan

/-! Tokens may have blanks between them, and a text may be written with or without escapes. The
scanner finds the tokens of a text exactly if the text is a spelling of them
(`tokens?_eq_some_iff`); tokens that are two bare words in a row would run together, so for them it
may find others. -/
namespace SignalHub.Json

open Utf8 (Letter)

/-- The sixteen-bit unit of four hexadecimal digits. -/
def unit? (a b c d : Char) : Option Nat := do
  let a ← Hex.value? a
  let b ← Hex.value? b
  let c ← Hex.value? c
  let d ← Hex.value? d
  return ((a.val * 16 + b.val) * 16 + c.val) * 16 + d.val

/-- What may stand between quotes: a character, one that a letter escapes, or an escaped unit. -/
inductive Piece where
  | plain (c : Char) (allowed : c ≠ '"' ∧ c ≠ '\\' ∧ ¬c.toNat < 0x20)
  | short (letter c : Char) (known : shortEscape? letter = some c)
  | unit (a b c d : Char) (n : Nat) (read : unit? a b c d = some n)

def Piece.chars : Piece → List Char
  | .plain c _ => [c]
  | .short letter _ _ => ['\\', letter]
  | .unit a b c d _ _ => ['\\', 'u', a, b, c, d]

def isHigh (n : Nat) : Bool := 0xD800 ≤ n && n ≤ 0xDBFF

def isLow (n : Nat) : Bool := 0xDC00 ≤ n && n ≤ 0xDFFF

/-- The character of a high surrogate and the low one that follows it. -/
def paired (high low : Nat) : Char :=
  Char.ofNat (0x10000 + (high - 0xD800) * 0x400 + (low - 0xDC00))

/-- The characters that pieces stand for, after a high surrogate or none. A high surrogate and a low
one stand for one character; there are no characters if another surrogate is among the pieces. -/
def characters : Option Nat → List Piece → Option (List Char)
  | none, [] => some []
  | some _, [] => none
  | none, .plain c _ :: rest | none, .short _ c _ :: rest => (characters none rest).map (c :: ·)
  | none, .unit _ _ _ _ n _ :: rest =>
    if isHigh n then characters (some n) rest
    else if isLow n then none
    else (characters none rest).map (Char.ofNat n :: ·)
  | some high, .unit _ _ _ _ n _ :: rest =>
    if isLow n then (characters none rest).map (paired high n :: ·) else none
  | some _, _ :: _ => none

/-- What a text that holds so much already holds in the end. -/
def Written.extended (w : Written) (more : Option (List Char)) : Option String :=
  if w.sound then more.map fun cs => String.ofList (w.reversed.reverse ++ cs) else Option.none

namespace Written

@[simp] theorem extended_none (w : Written) : w.extended Option.none = Option.none := by
  simp [extended]

@[simp] theorem extended_spoil (w : Written) (more : Option (List Char)) :
    w.spoil.extended more = Option.none := rfl

@[simp] theorem extended_add (w : Written) (c : Char) (more : Option (List Char)) :
    (w.add c).extended more = w.extended (more.map (c :: ·)) := by
  cases more <;> simp [extended, add]

theorem extended_start (more : Option (List Char)) :
    Written.none.extended more = more.map String.ofList := by
  simp [extended, Written.none]

end Written

/-- How a piece changes the text so far, and the high surrogate that waits after it. -/
def addPiece (w : Written) (high : Option Nat) : Piece → Written × Option Nat
  | .plain c _ | .short _ c _ => ((settle w high).add c, none)
  | .unit _ _ _ _ n _ => addUnit w high n

theorem text_settle (w : Written) (high : Option Nat) :
    (settle w high).text = w.extended (characters high []) := by
  cases high with
  | none =>
    cases sound : w.sound <;> simp [settle, Written.text, characters, Written.extended, sound]
  | some n => simp [settle, Written.text, Written.spoil, characters]

theorem extended_addUnit (w : Written) (high : Option Nat) {a b c d : Char} {n : Nat}
    (read : unit? a b c d = some n) (rest : List Piece) :
    (addUnit w high n).1.extended (characters (addUnit w high n).2 rest) =
      w.extended (characters high (.unit a b c d n read :: rest)) := by
  unfold addUnit
  by_cases low : 0xDC00 ≤ n ∧ n ≤ 0xDFFF
  · have isLow : isLow n = true := by simpa [isLow] using low
    have notHigh : isHigh n = false := by
      simp [isHigh]
      omega
    cases high <;> simp [low, characters, isLow, notHigh, paired]
  · have notLow : isLow n = false := by simpa [isLow] using low
    by_cases high' : 0xD800 ≤ n ∧ n ≤ 0xDBFF
    · have isHigh : isHigh n = true := by simpa [isHigh] using high'
      cases high <;> simp [low, high', characters, notLow, isHigh, settle]
    · have notHigh : isHigh n = false := by simpa [isHigh] using high'
      cases high <;> simp [low, high', characters, notLow, notHigh, settle]

theorem extended_addPiece (w : Written) (high : Option Nat) (p : Piece) (rest : List Piece) :
    (addPiece w high p).1.extended (characters (addPiece w high p).2 rest) =
      w.extended (characters high (p :: rest)) := by
  cases p with
  | plain c | short letter c => cases high <;> simp [addPiece, settle, characters]
  | unit a b c d n read => exact extended_addUnit w high read rest

theorem unit?_eq_some_iff {a b c d : Char} {n : Nat} :
    unit? a b c d = some n ↔ ∃ p q r s, Hex.value? a = some p ∧ Hex.value? b = some q ∧
      Hex.value? c = some r ∧ Hex.value? d = some s ∧
      n = (((0 * 16 + p.val) * 16 + q.val) * 16 + r.val) * 16 + s.val := by
  simp only [unit?, Option.bind_eq_bind, Option.bind_eq_some_iff, Option.pure_def,
    Option.some.injEq, Nat.zero_mul, Nat.zero_add]
  constructor
  · rintro ⟨p, first, q, second, r, third, s, fourth, rfl⟩
    exact ⟨p, q, r, s, first, second, third, fourth, rfl⟩
  · rintro ⟨p, q, r, s, first, second, third, fourth, rfl⟩
    exact ⟨p, first, q, second, r, third, s, fourth, rfl⟩

theorem scan_unit (w : Written) (high : Option Nat) {a b c d : Char} {n : Nat}
    (read : unit? a b c d = some n) (rest : List Letter) :
    scan (.inText w high (.hex 4 0)) (some a :: some b :: some c :: some d :: rest) =
      scan (.inText (addUnit w high n).1 (addUnit w high n).2 .plain) rest := by
  obtain ⟨p, q, r, s, first, second, third, fourth, rfl⟩ := unit?_eq_some_iff.mp read
  rw [scan_hex w high (by decide) first, scan_hex w high (by decide) second,
    scan_hex w high (by decide) third, scan_lastHex w high fourth]

theorem scan_short (w : Written) (high : Option Nat) {letter c : Char}
    (known : shortEscape? letter = some c) (rest : List Letter) :
    scan (.inText w high .backslash) (some letter :: rest) =
      scan (.inText ((settle w high).add c) none .plain) rest := by
  apply scan_inText
  unfold textStep
  split <;> simp_all [shortEscape?]

theorem scan_piece (w : Written) (high : Option Nat) (p : Piece) (rest : List Letter) :
    scan (.inText w high .plain) (p.chars.map some ++ rest) =
      scan (.inText (addPiece w high p).1 (addPiece w high p).2 .plain) rest := by
  cases p with
  | plain c allowed =>
    obtain ⟨quote, backslash, visible⟩ := allowed
    apply scan_inText
    simp [textStep, addPiece, visible]
  | short letter c known => exact (scan_inText rfl _).trans (scan_short w high known rest)
  | unit a b c d n read =>
    exact (scan_inText rfl _).trans ((scan_inText rfl _).trans (scan_unit w high read rest))

/-- The pieces of a text are read up to the quote that ends it. -/
theorem scan_pieces (w : Written) (high : Option Nat) (pieces : List Piece) (rest : List Letter) :
    scan (.inText w high .plain) ((pieces.flatMap Piece.chars).map some ++ some '"' :: rest) =
      (scan .between rest).map (.text (w.extended (characters high pieces)) :: ·) := by
  induction pieces generalizing w high with
  | nil =>
    rw [← text_settle]
    exact scan_token rfl rest
  | cons p pieces ih =>
    rw [List.flatMap_cons, List.map_append, List.append_assoc, scan_piece, ih, extended_addPiece]

/-- The characters spell these tokens: with blanks before, between and after them, and texts with or
without escapes. -/
inductive Spelled : List Token → List Char → Prop where
  | done : Spelled [] []
  | blank {c : Char} {tokens : List Token} {text : List Char} (blank : blank c = true)
      (rest : Spelled tokens text) : Spelled tokens (c :: text)
  | mark {tokens : List Token} {text : List Char} (m : Mark) (rest : Spelled tokens text) :
      Spelled (.mark m :: tokens) (m.char :: text)
  | text {tokens : List Token} {text : List Char} (pieces : List Piece)
      (rest : Spelled tokens text) :
      Spelled (.text ((characters none pieces).map String.ofList) :: tokens)
        ('"' :: (pieces.flatMap Piece.chars ++ '"' :: text))
  | bare {word : List Char} {t : Token} {tokens : List Token} {text : List Char}
      (letters : ∀ c ∈ word, bareLetter c = true) (read : bareToken? word = some t)
      (rest : Spelled tokens text) : Spelled (t :: tokens) (word ++ text)

theorem bareLetter_of_blank {c : Char} (blank : blank c = true) : bareLetter c = false := by
  simp only [Json.blank, Bool.or_eq_true, beq_iff_eq, or_assoc] at blank
  rcases blank with rfl | rfl | rfl | rfl <;> decide

theorem isBare_of_bareToken? {word : List Char} {t : Token} (read : bareToken? word = some t) :
    t.isBare = true := by
  unfold bareToken? at read
  split at read
  · cases read; rfl
  split at read
  · cases read; rfl
  split at read
  · cases read; rfl
  obtain ⟨n, -, rfl⟩ := Option.map_eq_some_iff.mp read
  rfl

theorem ne_nil_of_bareToken? {word : List Char} {t : Token} (read : bareToken? word = some t) :
    word ≠ [] := by
  have empty : bareToken? [] = none := by decide
  rintro rfl
  rw [empty] at read
  cases read

/-- Tokens of which the first is not bare end a word before them. -/
theorem parted_of_spelled {tokens : List Token} {text : List Char} (spelled : Spelled tokens text)
    (other : tokens.head?.all (fun t => !t.isBare) = true) : Parted (text.map some) := by
  intro c head
  cases spelled with
  | done => cases head
  | blank blank rest =>
    obtain rfl := Option.some.inj (Option.some.inj head)
    exact bareLetter_of_blank blank
  | mark m rest =>
    obtain rfl := Option.some.inj (Option.some.inj head)
    cases m <;> decide
  | text pieces rest =>
    obtain rfl := Option.some.inj (Option.some.inj head)
    decide
  | bare letters read rest => simp [isBare_of_bareToken? read] at other

/-- The tokens of a spelling are found, if no two of them run together. -/
theorem scan_of_spelled {tokens : List Token} {text : List Char} (spelled : Spelled tokens text)
    (apart : spaced tokens = true) : scan .between (text.map some) = some tokens := by
  induction spelled with
  | done => rfl
  | blank blank rest ih =>
    exact (scan_quiet (by simp [scanStep, outerStep, blank]) _).trans (ih apart)
  | mark m rest ih =>
    have read : scanStep .between (some m.char) = some ([.mark m], .between) := by
      cases m <;> decide
    rw [List.map_cons, scan_token read, ih (by simpa [spaced, Token.isBare] using apart)]
    rfl
  | text pieces rest ih =>
    rw [List.map_cons, scan_open, List.map_append, List.map_cons, scan_pieces,
      ih (by simpa [spaced, Token.isBare] using apart), Written.extended_start]
    rfl
  | bare letters read rest ih =>
    simp only [spaced, isBare_of_bareToken? read, Bool.not_true, Bool.false_or,
      Bool.and_eq_true] at apart
    rw [List.map_append, scan_word (ne_nil_of_bareToken? read) letters
      (parted_of_spelled rest apart.1), read, ih apart.2]
    rfl

theorem scan_hex_inv {w : Written} {high : Option Nat} {left value : Nat} {text : List Char}
    {tokens : List Token}
    (found : scan (.inText w high (.hex left value)) (text.map some) = some tokens) :
    ∃ c d rest, text = c :: rest ∧ Hex.value? c = some d := by
  cases text with
  | nil => cases found
  | cons c rest =>
    cases digit : Hex.value? c with
    | none => simp [scan, scanStep, textStep, digit] at found
    | some d => exact ⟨c, d, rest, rfl, digit⟩

theorem unit_of_scan {w : Written} {high : Option Nat} {text : List Char} {tokens : List Token}
    (found : scan (.inText w high (.hex 4 0)) (text.map some) = some tokens) :
    ∃ a b c d n rest, text = a :: b :: c :: d :: rest ∧ unit? a b c d = some n := by
  obtain ⟨a, p, text, rfl, first⟩ := scan_hex_inv found
  rw [List.map_cons, scan_hex w high (by decide) first] at found
  obtain ⟨b, q, text, rfl, second⟩ := scan_hex_inv found
  rw [List.map_cons, scan_hex w high (by decide) second] at found
  obtain ⟨c, r, text, rfl, third⟩ := scan_hex_inv found
  rw [List.map_cons, scan_hex w high (by decide) third] at found
  obtain ⟨d, s, rest, rfl, fourth⟩ := scan_hex_inv found
  exact ⟨a, b, c, d, _, rest, rfl,
    unit?_eq_some_iff.mpr ⟨p, q, r, s, first, second, third, fourth, rfl⟩⟩

/-- A text inside quotes that is read goes on with a piece, or ends. -/
theorem piece_of_scan {w : Written} {high : Option Nat} {text : List Char} {tokens : List Token}
    (found : scan (.inText w high .plain) (text.map some) = some tokens) :
    (∃ rest, text = '"' :: rest) ∨ ∃ (p : Piece) (rest : List Char), text = p.chars ++ rest := by
  cases text with
  | nil => cases found
  | cons c text =>
    by_cases quote : c = '"'
    · exact .inl ⟨text, by rw [quote]⟩
    right
    by_cases backslash : c = '\\'
    · subst backslash
      rw [List.map_cons, scan_inText rfl] at found
      cases text with
      | nil => cases found
      | cons letter text =>
        by_cases u : letter = 'u'
        · subst u
          rw [List.map_cons, scan_inText rfl] at found
          obtain ⟨a, b, c, d, n, rest, rfl, read⟩ := unit_of_scan found
          exact ⟨.unit a b c d n read, rest, rfl⟩
        · cases short : shortEscape? letter with
          | none => simp [scan, scanStep, textStep, short] at found
          | some d => exact ⟨.short letter d short, text, rfl⟩
    · by_cases control : c.toNat < 0x20
      · simp [scan, scanStep, textStep, control] at found
      · exact ⟨.plain c ⟨quote, backslash, control⟩, text, rfl⟩

theorem Piece.chars_ne_nil (p : Piece) : p.chars ≠ [] := by cases p <;> simp [chars]

theorem pieces_of_scan {w : Written} {high : Option Nat} {text : List Char} {tokens : List Token}
    (found : scan (.inText w high .plain) (text.map some) = some tokens) :
    ∃ (pieces : List Piece) (rest : List Char),
      text = pieces.flatMap Piece.chars ++ '"' :: rest := by
  induction size : text.length using Nat.strongRecOn generalizing text w high with
  | ind size ih =>
    subst size
    obtain ⟨rest, rfl⟩ | ⟨p, rest, rfl⟩ := piece_of_scan found
    · exact ⟨[], rest, rfl⟩
    · rw [List.map_append, scan_piece] at found
      have shorter : rest.length < (p.chars ++ rest).length := by
        have := List.length_pos_iff.mpr p.chars_ne_nil
        rw [List.length_append]
        omega
      obtain ⟨pieces, rest, rfl⟩ := ih _ shorter found rfl
      exact ⟨p :: pieces, rest, by simp⟩

/-- A text begins with all the letters of a word, and then comes something else. -/
theorem word_of_text (text : List Char) : ∃ word rest, text = word ++ rest ∧
    (∀ c ∈ word, bareLetter c = true) ∧ Parted (rest.map some) ∧
    ∀ c, text.head? = some c → bareLetter c = true → word ≠ [] := by
  refine ⟨text.takeWhile bareLetter, text.dropWhile bareLetter,
    List.takeWhile_append_dropWhile.symm,
    fun c member => List.all_eq_true.mp List.all_takeWhile c member, ?_, ?_⟩
  · intro c head
    rw [List.head?_map] at head
    obtain ⟨d, first, same⟩ := Option.map_eq_some_iff.mp head
    obtain rfl := Option.some.inj same
    have last := List.head?_dropWhile_not bareLetter text
    rw [first] at last
    simpa using last
  · intro c head bare
    cases text with
    | nil => cases head
    | cons d text =>
      obtain rfl := Option.some.inj head
      simp [bare]

theorem char_of_ofChar? {c : Char} {m : Mark} (known : Mark.ofChar? c = some m) : c = m.char := by
  unfold Mark.ofChar? at known
  split at known <;> cases known <;> rfl

/-- Whatever tokens are found, the text is a spelling of them. -/
theorem spelled_of_scan {tokens : List Token} {text : List Char}
    (found : scan .between (text.map some) = some tokens) : Spelled tokens text := by
  induction size : text.length using Nat.strongRecOn generalizing text tokens with
  | ind size ih =>
    subst size
    cases text with
    | nil =>
      cases found
      exact .done
    | cons c text =>
      by_cases bare : bareLetter c = true
      · obtain ⟨word, rest, split, letters, parted, some_⟩ := word_of_text (c :: text)
        rw [split] at found ih ⊢
        rw [List.map_append, scan_word (some_ c rfl bare) letters parted] at found
        obtain ⟨t, read, found⟩ := Option.bind_eq_some_iff.mp found
        obtain ⟨more, later, rfl⟩ := Option.map_eq_some_iff.mp found
        refine .bare letters read (ih rest.length ?_ later rfl)
        have := List.length_pos_iff.mpr (some_ c rfl bare)
        rw [List.length_append]
        omega
      by_cases blank : Json.blank c = true
      · have quiet : scanStep .between (some c) = some ([], .between) := by
          simp [scanStep, outerStep, blank]
        rw [List.map_cons, scan_quiet quiet] at found
        exact .blank blank (ih text.length (by simp) found rfl)
      by_cases quote : c = '"'
      · subst quote
        rw [List.map_cons, scan_open] at found
        obtain ⟨pieces, rest, rfl⟩ := pieces_of_scan found
        rw [List.map_append, List.map_cons, scan_pieces, Written.extended_start] at found
        obtain ⟨more, later, rfl⟩ := Option.map_eq_some_iff.mp found
        refine .text pieces (ih rest.length ?_ later rfl)
        simp only [List.length_cons, List.length_append]
        omega
      cases known : Mark.ofChar? c with
      | none => simp [scan, scanStep, outerStep, bare, blank, quote, known] at found
      | some m =>
        have read : scanStep .between (some c) = some ([.mark m], .between) := by
          simp [scanStep, outerStep, bare, blank, quote, known]
        rw [List.map_cons, scan_token read] at found
        obtain ⟨more, later, rfl⟩ := Option.map_eq_some_iff.mp found
        rw [char_of_ofChar? known]
        exact .mark m (ih text.length (by simp) later rfl)

/-- The scanner finds exactly the tokens that a text is a spelling of, if no two run together. -/
theorem tokens?_eq_some_iff {tokens : List Token} (apart : spaced tokens = true)
    (text : List Char) : tokens? (text.map some) = some tokens ↔ Spelled tokens text := by
  rw [tokens?_eq_scan]
  exact ⟨spelled_of_scan, fun spelled => scan_of_spelled spelled apart⟩

end SignalHub.Json
