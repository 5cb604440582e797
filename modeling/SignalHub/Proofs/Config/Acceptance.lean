import SignalHub.Config.Load
import SignalHub.Proofs.Pump.Timing

/-! A configuration is accepted when, overridden and trimmed, it passes every check
(`finish_eq_ok_iff`). No check bounds the time for which a connection may be silent, so of the
accepted configurations exactly those can be run in which this time is short enough to be taken nine
times (`runs_iff_short`). -/
namespace SignalHub

namespace HubLimits

open Settings (second)

/-- The times are whole seconds, so nine times the longer one has nine times its seconds. -/
theorem settings_eq (l : HubLimits) :
    l.settings = if l.pongWait * 9 < UInt64.size then
      .ok ⟨max l.capacity 1, l.writeWait * second, l.pongWait * second,
        l.pongWait * second * 9 / 10, l.maxMessageBytes⟩
    else .error .overflow := by
  have whole : l.pongWait * second * 9 / second = l.pongWait * 9 := by
    rw [Nat.mul_right_comm]
    exact Nat.mul_div_cancel _ (by decide)
  rw [settings, Settings.make, whole]
  rfl

theorem fits_of_settings {l : HubLimits} {s : Settings} (made : l.settings = .ok s) :
    l.pongWait * 9 < UInt64.size := by
  rw [settings_eq] at made
  split at made
  · assumption
  · cases made

end HubLimits

/-- Settings that connections can live with: room in the queue, time to write, and pings that come
after nine tenths of the silence that is allowed, rounded down. -/
structure Settings.Workable (s : Settings) : Prop where
  room : 1 ≤ s.capacity
  writing : second ≤ s.writeWait
  period : s.pingPeriod = s.pongWait * 9 / 10
  pinging : 0 < s.pingPeriod
  early : s.pingPeriod < s.pongWait

namespace Config

variable {file : Option File} {o : Overrides} {c config : Config}

theorem bind_eq_ok_iff {ε α β : Type} {x : Except ε α} {f : α → Except ε β} {b : β} :
    (x >>= f) = .ok b ↔ ∃ a, x = .ok a ∧ f a = .ok b := by
  cases x <;> simp [bind, Except.bind]

theorem mapError_eq_ok_iff {ε ε' α : Type} {x : Except ε α} {f : ε → ε'} {a : α} :
    x.mapError f = .ok a ↔ x = .ok a := by
  cases x with
  | error e => exact ⟨nofun, nofun⟩
  | ok b =>
    exact ⟨fun same => congrArg _ (Except.ok.inj same), fun same => congrArg _ (Except.ok.inj same)⟩

theorem then_eq_ok_iff {first rest : Except Flaw Unit} :
    (do first; rest) = .ok () ↔ first = .ok () ∧ rest = .ok () := by
  rw [bind_eq_ok_iff]
  exact ⟨fun ⟨_, passed⟩ => passed, fun passed => ⟨(), passed⟩⟩

theorem unless_eq_ok_iff {p : Prop} [Decidable p] {flaw : Flaw} {rest : Except Flaw Unit} :
    (do if p then throw flaw
        rest) = .ok () ↔ ¬ p ∧ rest = .ok () := by
  by_cases fails : p
  · refine ⟨fun passed => ?_, fun passed => absurd fails passed.1⟩
    rw [if_pos fails] at passed
    cases passed
  · simp [fails]

theorem forM_eq_ok_iff {f : String → Except Flaw Unit} (items : List String) :
    items.forM f = .ok () ↔ ∀ a ∈ items, f a = .ok () := by
  induction items with
  | nil => exact ⟨fun _ _ member => (by cases member), fun _ => rfl⟩
  | cons a items ih =>
    rw [List.forall_mem_cons, ← ih]
    exact then_eq_ok_iff

/-- Every field passes its check. -/
structure Valid (c : Config) : Prop where
  listenAddress : (Net.SocketAddress.parse? c.listenAddress).isNone = false
  secret : Blank.blank c.secret = false
  capacity : 0 < c.hub.capacity
  pongWait : 0 < c.hub.pongWait
  writeWait : 0 < c.hub.writeWait
  messageSize : 0 < c.hub.maxMessageBytes
  stun : ∀ url ∈ c.ice.stun, checkIce .stun url = .ok ()
  turn : ∀ url ∈ c.ice.turn, checkIce .turn url = .ok ()

theorem check_eq_ok_iff (c : Config) : c.check = .ok () ↔ c.Valid := by
  rw [check]
  simp only [unless_eq_ok_iff, then_eq_ok_iff, forM_eq_ok_iff, Bool.not_eq_true]
  constructor
  · rintro ⟨address, secret, capacity, deadlines, size, stun, turn⟩
    exact ⟨address, secret, by omega, by omega, by omega, by omega, stun, turn⟩
  · rintro ⟨address, secret, capacity, pongWait, writeWait, size, stun, turn⟩
    exact ⟨address, secret, by omega, by omega, by omega, stun, turn⟩

theorem finish_eq_ok_iff (c : Config) (o : Overrides) (finished : Config) :
    c.finish o = .ok finished ↔ finished = (c.overridden o).trimmed ∧ finished.Valid := by
  have checked : c.finish o = .ok finished ↔
      ∃ u, (c.overridden o).trimmed.check = .ok u ∧
        (Except.ok (c.overridden o).trimmed : Except Flaw Config) = .ok finished :=
    bind_eq_ok_iff
  rw [checked]
  constructor
  · rintro ⟨_, passed, same⟩
    obtain rfl := Except.ok.inj same
    exact ⟨rfl, (check_eq_ok_iff _).mp passed⟩
  · rintro ⟨rfl, valid⟩
    exact ⟨(), (check_eq_ok_iff _).mpr valid, rfl⟩

/-- What is finished when a configuration is loaded. -/
def source : Option File → Except Error Config
  | some file => decode file
  | none => .ok standard

theorem load_eq_ok_iff :
    load file o = .ok config ↔ ∃ c, source file = .ok c ∧ c.finish o = .ok config := by
  have loaded : load file o = .ok config ↔
      ∃ c, source file = .ok c ∧ (c.finish o).mapError Error.flawed = .ok config := by
    rw [← bind_eq_ok_iff]
    cases file <;> exact Iff.rfl
  simp only [loaded, mapError_eq_ok_iff]

theorem path_of_decode {file : File} (read : decode file = .ok config) :
    config.path = some file.path := by
  unfold decode at read
  split at read
  · cases read
  split at read
  · cases read
  split at read
  · exact Except.ok.inj read ▸ rfl
  · cases read

/-- A configuration knows the file that it comes from. -/
theorem path_of_load (accepted : load file o = .ok config) :
    config.path = file.map File.path := by
  obtain ⟨c, found, finished⟩ := load_eq_ok_iff.mp accepted
  obtain ⟨rfl, -⟩ := (finish_eq_ok_iff c o config).mp finished
  change c.path = file.map File.path
  cases file with
  | none => exact Except.ok.inj found ▸ rfl
  | some file => exact path_of_decode found

/-- An accepted configuration is valid. Its limits are those of the file, or else the defaults. -/
theorem valid_of_load (accepted : load file o = .ok config) :
    config.Valid ∧ ∃ c, source file = .ok c ∧ config.hub = c.hub := by
  obtain ⟨c, found, finished⟩ := load_eq_ok_iff.mp accepted
  obtain ⟨rfl, valid⟩ := (finish_eq_ok_iff c o config).mp finished
  exact ⟨valid, c, found, rfl⟩

theorem Valid.workable (valid : c.Valid) {s : Settings} (made : c.hub.settings = .ok s) :
    s.Workable := by
  have fits := HubLimits.fits_of_settings made
  have positive : 0 < c.hub.pongWait * Settings.second := Nat.mul_pos valid.pongWait (by decide)
  have early := Settings.pingPeriod_lt_pongWait made positive
  have pinging := Settings.pingPeriod_pos made valid.pongWait
  rw [HubLimits.settings_eq, if_pos fits] at made
  obtain rfl := Except.ok.inj made
  have writing := Nat.le_mul_of_pos_left Settings.second valid.writeWait
  exact ⟨Nat.le_max_right _ 1, writing, rfl, pinging, early⟩

/-- An accepted configuration can be run, with settings that connections can live with, exactly if
nine times the seconds for which a connection may be silent fit into 64 bits. Otherwise the
computation of the settings overflows. Without a file they fit. -/
theorem runs_iff_short (file : Option File) (o : Overrides) (config : Config)
    (accepted : load file o = .ok config) :
    ((∃ s, config.hub.settings = .ok s ∧ s.Workable) ↔ config.hub.pongWait * 9 < UInt64.size) ∧
    (¬ config.hub.pongWait * 9 < UInt64.size → config.hub.settings = .error .overflow) ∧
    (file = none → config.hub.pongWait * 9 < UInt64.size) := by
  obtain ⟨valid, c, found, limits⟩ := valid_of_load accepted
  have settings := config.hub.settings_eq
  refine ⟨⟨fun ⟨s, made, _⟩ => HubLimits.fits_of_settings made, fun fits => ?_⟩, fun long => ?_, ?_⟩
  · rw [if_pos fits] at settings
    exact ⟨_, settings, valid.workable settings⟩
  · rw [settings, if_neg long]
  · rintro rfl
    obtain rfl := Except.ok.inj found
    rw [limits]
    decide

theorem exists_of_toOption {ε α β : Type} {x : Except ε α} {f : α → β} {b : β}
    (found : x.toOption.map f = some b) : ∃ a, x = .ok a ∧ f a = b := by
  cases x with
  | error e => cases found
  | ok a => exact ⟨a, rfl, Option.some.inj found⟩

/-- The longest silence that can be taken nine times. -/
theorem runs_iff_short_longest :
    let text := "\x7b\"jwt_secret\":\"s\"," ++
      "\"hub\":\x7b\"pong_wait_secs\":2049638230412172401\x7d\x7d"
    let file : File := ⟨"config.json", .ok text.toUTF8.toList⟩
    ∃ config s, load (some file) .none = .ok config ∧
      config.hub.pongWait = 2049638230412172401 ∧ config.hub.settings = .ok s ∧ s.Workable := by
  intro text file
  obtain ⟨config, accepted, silence⟩ : ∃ config, load (some file) .none = .ok config ∧
      config.hub.pongWait = 2049638230412172401 :=
    exists_of_toOption (by decide +kernel)
  have fits : config.hub.pongWait * 9 < UInt64.size := by
    rw [silence]
    decide
  obtain ⟨s, made, workable⟩ := (runs_iff_short (some file) .none config accepted).1.mpr fits
  exact ⟨config, s, accepted, silence, made, workable⟩

/-- With one second more the configuration is still accepted, but has no settings. -/
theorem accepted_but_overflows :
    let text := "\x7b\"jwt_secret\":\"s\"," ++
      "\"hub\":\x7b\"pong_wait_secs\":2049638230412172402\x7d\x7d"
    let file : File := ⟨"config.json", .ok text.toUTF8.toList⟩
    ∃ config, load (some file) .none = .ok config ∧
      config.hub.pongWait = 2049638230412172402 ∧ config.hub.settings = .error .overflow := by
  intro text file
  obtain ⟨config, accepted, silence⟩ : ∃ config, load (some file) .none = .ok config ∧
      config.hub.pongWait = 2049638230412172402 :=
    exists_of_toOption (by decide +kernel)
  have long : ¬ config.hub.pongWait * 9 < UInt64.size := by
    rw [silence]
    decide
  exact ⟨config, accepted, silence, by rw [HubLimits.settings_eq, if_neg long]⟩

end Config
end SignalHub
