import SignalHub.Command.Run
import SignalHub.Proofs.Command.Options
import SignalHub.Proofs.Config.Acceptance
import SignalHub.Proofs.Text.Blank

/-! A secret may be given in the environment and in the file, an address to listen on also as an
option of the command. These places are asked in turn, and the first value that is not blank counts.
But an option that is there, even a blank one, keeps the environment from being asked for an address
(`first_given_counts`). -/
namespace SignalHub

namespace Config

namespace Overrides

/-- The first of the values that is not blank. -/
def first (values : List (Option String)) : Option String := values.findSome? given

variable {v : Option String} {text : String}

theorem given_of_blank (blank : Blank.blank text = true) : given (some text) = .none := by
  simp [given, blank]

theorem given_of_filled (filled : Blank.blank text = false) : given (some text) = some text := by
  simp [given, filled]

theorem given_given (v : Option String) : given (given v) = given v := by
  simp [given, Option.filter_filter]

theorem first_given (v : Option String) (values : List (Option String)) :
    first (given v :: values) = first (v :: values) := by
  rw [first, List.findSome?_cons, given_given]
  rfl

theorem first_none (values : List (Option String)) : first (.none :: values) = first values := rfl

theorem first_of_blank (blank : Blank.blank text = true) (values : List (Option String)) :
    first (some text :: values) = first values := by
  simp [first, given_of_blank blank]

theorem first_of_filled (filled : Blank.blank text = false) (values : List (Option String)) :
    first (some text :: values) = some text := by
  simp [first, given_of_filled filled]

/-- What is there anyway counts when nothing else is given. -/
theorem first_pair (filled : Blank.blank ((given v).getD text) = false) :
    first [v, some text] = some ((given v).getD text) := by
  cases found : given v with
  | none =>
    rw [found] at filled
    simpa [first, found] using given_of_filled filled
  | some other => simp [first, found]

end Overrides

open Overrides (first given)

variable {c finished : Config} {o : Overrides}

theorem filled_of_parses {address : String}
    (parses : (Net.SocketAddress.parse? (Blank.trim address)).isNone = false) :
    Blank.blank address = false := by
  apply Bool.eq_false_iff.mpr
  intro blank
  rw [Blank.trim_of_blank blank] at parses
  cases parses

/-- An accepted address is the first that was given, without the blanks around it. -/
theorem first_address (accepted : c.finish o = .ok finished) :
    ∃ address, first [o.listenAddress, some c.listenAddress] = some address ∧
      finished.listenAddress = Blank.trim address := by
  obtain ⟨rfl, valid⟩ := (finish_eq_ok_iff c o finished).mp accepted
  exact ⟨_, Overrides.first_pair (filled_of_parses valid.listenAddress), rfl⟩

/-- An accepted secret is the first that was given, as it is. -/
theorem first_secret (accepted : c.finish o = .ok finished) :
    first [o.secret, some c.secret] = some finished.secret := by
  obtain ⟨rfl, valid⟩ := (finish_eq_ok_iff c o finished).mp accepted
  exact Overrides.first_pair valid.secret

end Config

namespace Command

open Config (File)
open Config.Overrides

/-- The file that a command is told to read. -/
def Invocation.file (i : Invocation) (m : Machine) : Option File :=
  i.config.map fun path => ⟨path, m.contents path⟩

/-- An address that the environment gives, but is not asked for: there is an option, a blank one. -/
def Overlooked (m : Machine) (i : Invocation) (address : String) : Prop :=
  given (m.environment listenVariable) = some address ∧
    ∃ option, i.action.listen? = some option ∧ Blank.blank option = true

variable {m : Machine} {i : Invocation} {c config : Config}

/-- The environment is asked for an address if there is no option. -/
theorem overrides_listenAddress (m : Machine) (action : Action) :
    (overrides m action).listenAddress =
      action.listen?.or (given (m.environment listenVariable)) := by
  cases action with
  | serve listen => cases listen <;> rfl
  | token user seconds => rfl

theorem overrides_secret (m : Machine) (action : Action) :
    (overrides m action).secret = given (m.environment secretVariable) := by
  cases action with
  | serve listen => cases listen <;> rfl
  | token user seconds => rfl

/-- The order of the places decides, unless a blank option keeps the environment from being asked. -/
theorem first_of_places {address : String}
    (found : first [i.action.listen?.or (given (m.environment listenVariable)),
      some c.listenAddress] = some address) :
    (first [i.action.listen?, m.environment listenVariable, some c.listenAddress]).map Blank.trim =
        some (Blank.trim address) ↔
      ∀ other, Overlooked m i other → Blank.trim other = Blank.trim address := by
  cases option : i.action.listen? with
  | none =>
    rw [option, Option.none_or, first_given] at found
    simp [first_none, found, Overlooked, option]
  | some text =>
    rw [option, Option.some_or] at found
    cases blank : Blank.blank text with
    | false =>
      rw [first_of_filled blank] at found
      obtain rfl := Option.some.inj found
      simp [first_of_filled blank, Overlooked, option, blank]
    | true =>
      rw [first_of_blank blank] at found ⊢
      cases environment : given (m.environment listenVariable) with
      | none =>
        rw [← first_given, environment, first_none, found]
        simp [Overlooked, environment]
      | some other =>
        simp [first, environment, Overlooked, option, blank]

/-- The effective secret is the first value given in the environment and in the file, or else the
default, as it is; so is the effective address, without the blanks around it, but that the environment
is asked for an address only if there is no option. The option, the environment and the file decide in
this order exactly if no address of the environment, but the same, is overlooked for a blank option. -/
theorem first_given_counts (m : Machine) (args : List String) (i : Invocation) (config : Config)
    (asked : request args = .invoke i) (accepted : configuration m i = .ok config) :
    (∀ listen, i.action = .serve listen → listen = optionValue "listen" args) ∧
    ∃ c, Config.source (i.file m) = .ok c ∧
      first [m.environment secretVariable, some c.secret] = some config.secret ∧
      (∃ address, config.listenAddress = Blank.trim address ∧
        first [i.action.listen?,
          if i.action.listen?.isSome then none else m.environment listenVariable,
          some c.listenAddress] = some address) ∧
      ((first [i.action.listen?, m.environment listenVariable,
            some c.listenAddress]).map Blank.trim = some config.listenAddress ↔
        ∀ address, Overlooked m i address → Blank.trim address = config.listenAddress) := by
  obtain ⟨c, found, finished⟩ := Config.load_eq_ok_iff.mp accepted
  have secret := Config.first_secret finished
  obtain ⟨address, given, effective⟩ := Config.first_address finished
  rw [overrides_secret, first_given] at secret
  rw [overrides_listenAddress] at given
  refine ⟨?_, c, found, secret, ⟨address, effective, ?_⟩, ?_⟩
  · intro listen action
    obtain ⟨file, _⟩ := i
    subst action
    exact listen_of_request asked
  · rw [← given]
    cases option : i.action.listen? with
    | none =>
      rw [Option.none_or, first_given]
      rfl
    | some text => rfl
  · rw [effective]
    exact first_of_places given

/-- A machine with these variables and one readable file. -/
def Machine.plain (listen secret : Option String) (file : String) : Machine where
  environment name :=
    if name = listenVariable then listen else if name = secretVariable then secret else none
  contents _ := .ok file.toUTF8.toList
  directoryFault _ := none
  logFault _ := none
  bindFault _ := none
  now := 0

/-- The option comes before the environment, and a blank secret does not count. -/
theorem first_given_counts_option :
    let m := Machine.plain (some "127.0.0.1:4300") (some "  ")
      "\x7b\"listen_addr\":\"127.0.0.1:4100\",\"jwt_secret\":\" from file\"\x7d"
    let args := ["-c", "config.json", "serve", "--listen= 127.0.0.1:4200 "]
    let i : Invocation := ⟨some "config.json", .serve (some " 127.0.0.1:4200 ")⟩
    ∃ config, request args = .invoke i ∧ configuration m i = .ok config ∧
      config.listenAddress = "127.0.0.1:4200" ∧ config.secret = " from file" := by
  intro m args i
  have asked : request args = .invoke i := by decide +kernel
  obtain ⟨config, accepted, secret⟩ : ∃ config, configuration m i = .ok config ∧
      config.secret = " from file" := Config.exists_of_toOption (by decide +kernel)
  obtain ⟨-, c, -, -, ⟨address, effective, given⟩, -⟩ :=
    first_given_counts m args i config asked accepted
  have option : first [i.action.listen?, none, some c.listenAddress] =
      some " 127.0.0.1:4200 " := first_of_filled (by decide) _
  obtain rfl := Option.some.inj (given.symm.trans option)
  have trimmed : Blank.trim " 127.0.0.1:4200 " = "127.0.0.1:4200" := by decide +kernel
  exact ⟨config, asked, accepted, effective.trans trimmed, secret⟩

/-- A blank option hides the address that the environment gives, and the file's address counts. -/
theorem blank_option_hides_environment :
    let m := Machine.plain (some "[ff02::2]:4000") none
      "\x7b\"jwt_secret\":\"s\",\"listen_addr\":\"[ff02::1]:4000\"\x7d"
    let i : Invocation := ⟨some "config.json", .serve (some " ")⟩
    request ["-c", "config.json", "serve", "--listen", " "] = .invoke i ∧
      ∃ config, configuration m i = .ok config ∧ config.listenAddress = "[ff02::1]:4000" ∧
        ∀ values, first (i.action.listen? :: m.environment listenVariable :: values) =
          some "[ff02::2]:4000" := by
  intro m i
  obtain ⟨config, accepted, address⟩ : ∃ config, configuration m i = .ok config ∧
      config.listenAddress = "[ff02::1]:4000" := Config.exists_of_toOption (by decide +kernel)
  refine ⟨by decide +kernel, config, accepted, address, fun values => ?_⟩
  have option : first (some " " :: some "[ff02::2]:4000" :: values) =
      first (some "[ff02::2]:4000" :: values) := first_of_blank (by decide) _
  exact option.trans (first_of_filled (by decide) values)

end Command
end SignalHub
