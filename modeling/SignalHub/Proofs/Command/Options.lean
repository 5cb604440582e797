import SignalHub.Command.Args

/-! The address that a command line asks a server to listen on is the value of its option
`--listen`: what an equals sign attaches to the option, or else the argument after it
(`listen_of_request`). Each argument that is read leaves the answer as it was (`address_next`). -/
namespace SignalHub.Command

/-- The name of a long option, and the value that is attached to it. -/
def longForm? (arg : String) : Option (String × Option String) :=
  match arg.toList with
  | '-' :: '-' :: body =>
    some (String.ofList (Parts.cut '=' body).1, (Parts.cut '=' body).2.map String.ofList)
  | _ => none

/-- The value of the first option of a name. -/
def optionValue (name : String) : List String → Option String
  | [] => none
  | arg :: rest =>
    match longForm? arg with
    | some (found, attached) =>
      if found = name then attached.or rest.head? else optionValue name rest
    | none => optionValue name rest

/-- What a command is told to listen on. -/
def Action.listen? : Action → Option String
  | .serve listen => listen
  | .token .. => none

namespace Progress

variable {p q : Progress} {parameter : Parameter} {value arg : String}

/-- The address that the arguments so far have given, or else the one that those to come will give. -/
def address (p : Progress) (args : List String) : Option String :=
  p.listen.or (if p.pending = some .listen then args.head? else optionValue "listen" args)

theorem assign_listen (assigned : p.assign .listen value = .ok q) :
    p.listen = none ∧ q.listen = some value ∧ q.pending = none := by
  cases given : p.listen with
  | some other => simp [assign, given] at assigned
  | none =>
    simp only [assign, given, Option.isSome_none, Bool.false_eq_true, ↓reduceIte,
      Except.ok.injEq] at assigned
    simp [← assigned]

theorem assign_other (other : parameter ≠ .listen) (assigned : p.assign parameter value = .ok q) :
    q.listen = p.listen ∧ q.pending = none := by
  cases parameter with
  | listen => exact absurd rfl other
  | config =>
    simp only [assign] at assigned
    split at assigned
    · cases assigned
    · simp [← Except.ok.inj assigned]
  | user | seconds =>
    simp only [assign] at assigned
    split at assigned
    · simp [← Except.ok.inj assigned]
    · cases assigned

/-- The option gets its value at once, or waits for the next argument. -/
theorem address_expect_listen {attached : Option String}
    (expected : p.expect .listen attached = .ok q) (rest : List String) :
    q.address rest = p.listen.or (attached.or rest.head?) := by
  cases attached with
  | some value =>
    obtain ⟨before, after, -⟩ := assign_listen expected
    simp [address, before, after]
  | none =>
    obtain rfl := Except.ok.inj expected
    simp [address]

theorem address_expect_other (other : parameter ≠ .listen) {attached : Option String}
    (expected : p.expect parameter attached = .ok q) (rest : List String) :
    q.address rest = p.listen.or (optionValue "listen" rest) := by
  cases attached with
  | some value =>
    obtain ⟨same, free⟩ := assign_other other expected
    simp [address, same, free]
  | none =>
    obtain rfl := Except.ok.inj expected
    simp [address, other]

theorem long?_listen {place : Place} {name : String} (known : place.long? name = some parameter) :
    parameter = .listen ↔ name = "listen" := by
  unfold Place.long? at known
  split at known <;> simp_all [eq_comm]

theorem address_longOption {body name : List Char} {attached : Option (List Char)}
    (parts : Parts.cut '=' body = (name, attached)) (moved : p.longOption body = .ok q)
    (rest : List String) :
    q.address rest = p.listen.or (if String.ofList name = "listen" then
      (attached.map String.ofList).or rest.head? else optionValue "listen" rest) := by
  simp only [longOption, parts] at moved
  split at moved
  · cases moved
  · cases moved
  split at moved
  · rename_i parameter known
    by_cases listen : String.ofList name = "listen"
    · obtain rfl := (long?_listen known).mpr listen
      rw [if_pos listen]
      exact address_expect_listen moved rest
    · rw [if_neg listen]
      exact address_expect_other (fun same => listen ((long?_listen known).mp same)) moved rest
  · cases moved

theorem address_shortOption {letter : Char} {body : List Char}
    (moved : p.shortOption letter body = .ok q) (rest : List String) :
    q.address rest = p.listen.or (optionValue "listen" rest) := by
  unfold shortOption at moved
  split at moved
  · cases moved
  · cases moved
  split at moved
  · rename_i parameter known
    have config : parameter ≠ .listen := by
      rintro rfl
      unfold Place.short? at known
      split at known <;> cases known
    exact address_expect_other config moved rest
  · cases moved

/-- An argument that does not look like an option names none. -/
theorem longForm?_of_plain (plain : looksLikeOption arg = false) : longForm? arg = none := by
  unfold longForm?
  split
  · rename_i body same
    simp [looksLikeOption, same] at plain
  · rfl

theorem address_of_plain (plain : longForm? arg = none) (free : p.pending = none)
    (rest : List String) : p.address (arg :: rest) = p.listen.or (optionValue "listen" rest) := by
  simp [address, free, optionValue, plain]

theorem address_word (free : p.pending = none) (moved : p.word arg = .ok q) (rest : List String) :
    p.address (arg :: rest) = q.address rest := by
  unfold word at moved
  split at moved <;> cases moved <;>
    exact (address_of_plain rfl free rest).trans (by simp [address, free])

theorem address_argument (free : p.pending = none) (moved : p.argument arg = .ok q)
    (rest : List String) : p.address (arg :: rest) = q.address rest := by
  unfold argument at moved
  split at moved
  · rename_i hyphens
    cases moved
    simp [address, free, optionValue, longForm?, hyphens, Parts.cut]
  · rename_i body _ long
    cases parts : Parts.cut '=' body with
    | mk name attached =>
      rw [address_longOption parts moved]
      simp [address, free, optionValue, longForm?, long, parts]
  · rename_i letter body _ other short
    have plain : longForm? arg = none := by
      unfold longForm?
      split
      · rename_i long
        have same := List.cons.inj (List.cons.inj (short.symm.trans long)).2
        exact absurd same.1 other
      · rfl
    rw [address_of_plain plain free, address_shortOption moved]
  · exact address_word free moved rest

/-- An argument that is read does not change the address that the command line gives. -/
theorem address_next (moved : p.next arg = .ok q) (rest : List String) :
    p.address (arg :: rest) = q.address rest := by
  unfold next at moved
  split at moved
  · rename_i parameter waiting
    split at moved
    · cases moved
    rename_i looks
    have plain := longForm?_of_plain (by simpa using looks)
    by_cases listen : parameter = .listen
    · subst listen
      obtain ⟨before, after, free⟩ := assign_listen moved
      simp [address, waiting, before, after]
    · obtain ⟨same, free⟩ := assign_other listen moved
      simp [address, waiting, listen, same, free, optionValue, plain]
  · rename_i free
    split at moved
    · cases moved
    split at moved
    · exact address_word free moved rest
    · exact address_argument free moved rest

theorem address_fold {args : List String} (read : args.foldlM next p = .ok q) :
    p.address args = q.address [] := by
  induction args generalizing p with
  | nil =>
    obtain rfl := Except.ok.inj read
    rfl
  | cons arg rest ih =>
    cases moved : p.next arg with
    | error settled => simp [List.foldlM_cons, moved, bind, Except.bind] at read
    | ok next =>
      rw [List.foldlM_cons, moved] at read
      exact (address_next moved rest).trans (ih read)

/-- No argument settles that a command is to be run. -/
def Reads (step : Step) : Prop := ∀ i, step ≠ .error (.invoke i)

theorem reads_assign (p : Progress) (parameter : Parameter) (value : String) :
    Reads (p.assign parameter value) := by
  intro i
  unfold assign
  cases parameter <;> dsimp only <;> split <;> simp

theorem reads_expect (p : Progress) (parameter : Parameter) (attached : Option String) :
    Reads (p.expect parameter attached) := by
  cases attached with
  | none => exact fun i => nofun
  | some value => exact reads_assign p parameter value

theorem reads_word (p : Progress) (text : String) : Reads (p.word text) := by
  intro i
  unfold word
  split <;> simp

theorem reads_longOption (p : Progress) (body : List Char) : Reads (p.longOption body) := by
  unfold longOption
  dsimp only
  split
  · exact fun i => by simp
  · exact fun i => by simp
  split
  · exact reads_expect p _ _
  · exact fun i => by simp

theorem reads_shortOption (p : Progress) (letter : Char) (body : List Char) :
    Reads (p.shortOption letter body) := by
  unfold shortOption
  split
  · exact fun i => by simp
  · exact fun i => by simp
  split
  · exact reads_expect p _ _
  · exact fun i => by simp

theorem reads_next (p : Progress) (arg : String) : Reads (p.next arg) := by
  unfold next argument
  split
  · split
    · exact fun i => by simp
    · exact reads_assign p _ _
  split
  · exact fun i => by simp
  split
  · exact reads_word p arg
  split
  · exact fun i => by simp
  · exact reads_longOption p _
  · exact reads_shortOption p _ _
  · exact reads_word p arg

theorem reads_fold (p : Progress) (args : List String) : Reads (args.foldlM next p) := by
  induction args generalizing p with
  | nil => exact fun i => nofun
  | cons arg rest ih =>
    intro i
    have first := reads_next p arg i
    rw [List.foldlM_cons]
    cases moved : p.next arg with
    | error settled => simpa [moved, bind, Except.bind] using first
    | ok q => exact ih q i

end Progress

/-- What a command line asks a server to listen on is the value of its option. -/
theorem listen_of_request {args : List String} {file listen : Option String}
    (asked : request args = .invoke ⟨file, .serve listen⟩) : listen = optionValue "listen" args := by
  unfold request at asked
  split at asked
  · rename_i p read
    have given := Progress.address_fold read
    unfold Progress.finish at asked
    split at asked <;> cases asked
    rename_i free _
    simpa [Progress.address, Progress.start, free, optionValue] using given.symm
  · rename_i settled read
    exact absurd (asked ▸ read) (Progress.reads_fold .start args _)

end SignalHub.Command
