import SignalHub.Proofs.Config.Acceptance
import SignalHub.Proofs.Text.Blank

/-! Whether a configuration is accepted can be told from what was decoded and what overrides it
(`Acceptable`). When it is accepted, its lists of servers keep their filled entries, trimmed and in
order, the address is trimmed, and all else that is not overridden is as it was decoded. There is
nothing left to do then: to finish it again changes nothing (`finish_settles`). -/
namespace SignalHub.Config

open Overrides (given)

variable {c : Config} {o again : Overrides}

/-- The entries that are not blank, without the blanks around them. -/
def filledEntries (entries : List String) : List String :=
  (entries.filter fun entry => !Blank.blank entry).map Blank.trim

/-- Every entry that is not blank is a URL with one of these schemes. -/
def Locates (schemes entries : List String) : Prop :=
  ∀ entry ∈ entries, Blank.blank entry = false →
    ∃ scheme ∈ schemes, Net.Url.scheme (Blank.trim entry) = .ok scheme

/-- With these overrides a server can be run. -/
structure Acceptable (c : Config) (o : Overrides) : Prop where
  listenAddress : ∃ address, Net.SocketAddress.parse?
    (Blank.trim ((given o.listenAddress).getD c.listenAddress)) = some address
  secret : Blank.blank ((given o.secret).getD c.secret) = false
  capacity : 0 < c.hub.capacity
  writeWait : 0 < c.hub.writeWait
  pongWait : 0 < c.hub.pongWait
  messageSize : 0 < c.hub.maxMessageBytes
  stun : Locates ["stun", "stuns"] c.ice.stun
  turn : Locates ["turn", "turns"] c.ice.turn

theorem trimmedEntries_eq (entries : List String) :
    trimmedEntries entries = filledEntries entries := by
  have filled (entry : String) : (!(Blank.trim entry).isEmpty) = !Blank.blank entry := by
    rw [Bool.not_inj_iff, Bool.eq_iff_iff, String.isEmpty_iff, Blank.trim_eq_empty_iff]
  rw [trimmedEntries, List.filter_map, filledEntries]
  exact congrArg (List.map Blank.trim) (List.filter_congr fun entry _ => filled entry)

theorem trimmedEntries_trimmedEntries (entries : List String) :
    trimmedEntries (trimmedEntries entries) = trimmedEntries entries := by
  have same : (trimmedEntries entries).map Blank.trim = trimmedEntries entries := by
    rw [trimmedEntries_eq, filledEntries, List.map_map]
    exact List.map_congr_left fun entry _ => Blank.trim_trim entry
  rw [trimmedEntries, same, trimmedEntries, List.filter_filter]
  simp

theorem checkIce_eq_ok_iff {list : IceList} {url : String} :
    checkIce list url = .ok () ↔ ∃ scheme ∈ list.schemes, Net.Url.scheme url = .ok scheme := by
  rw [checkIce]
  cases Net.Url.scheme url with
  | error cause => simp
  | ok scheme =>
    dsimp only
    split <;> simp_all

theorem checkIce_trimmedEntries {list : IceList} {entries : List String} :
    (∀ url ∈ trimmedEntries entries, checkIce list url = .ok ()) ↔
      Locates list.schemes entries := by
  rw [trimmedEntries_eq, filledEntries, List.forall_mem_map]
  simp [Locates, checkIce_eq_ok_iff]

/-- The checks of what was overridden and trimmed can be made before. -/
theorem valid_iff : (c.overridden o).trimmed.Valid ↔ c.Acceptable o := by
  have parses {text : String} : (Net.SocketAddress.parse? text).isNone = false ↔
      ∃ address, Net.SocketAddress.parse? text = some address := by
    rw [Option.isNone_eq_false_iff, Option.isSome_iff_exists]
  constructor
  · rintro ⟨address, secret, capacity, pongWait, writeWait, size, stun, turn⟩
    exact ⟨parses.mp address, secret, capacity, writeWait, pongWait, size,
      checkIce_trimmedEntries.mp stun, checkIce_trimmedEntries.mp turn⟩
  · rintro ⟨address, secret, capacity, writeWait, pongWait, size, stun, turn⟩
    exact ⟨parses.mpr address, secret, capacity, pongWait, writeWait, size,
      checkIce_trimmedEntries.mpr stun, checkIce_trimmedEntries.mpr turn⟩

/-- Overrides that give nothing new change nothing. -/
theorem trimmed_again
    (address : ∀ text, given again.listenAddress = some text → given o.listenAddress = some text)
    (secret : ∀ text, given again.secret = some text → given o.secret = some text) :
    ((c.overridden o).trimmed.overridden again).trimmed = (c.overridden o).trimmed := by
  have sameAddress : Blank.trim ((given again.listenAddress).getD
      (Blank.trim ((given o.listenAddress).getD c.listenAddress))) =
      Blank.trim ((given o.listenAddress).getD c.listenAddress) := by
    cases found : given again.listenAddress with
    | none => exact Blank.trim_trim _
    | some text =>
      rw [address text found]
      rfl
  have sameSecret : (given again.secret).getD ((given o.secret).getD c.secret) =
      (given o.secret).getD c.secret := by
    cases found : given again.secret with
    | none => rfl
    | some text =>
      rw [secret text found]
      rfl
  simp only [overridden, trimmed, sameAddress, sameSecret, trimmedEntries_trimmedEntries]

theorem finish_again {finished : Config} (accepted : c.finish o = .ok finished)
    (address : ∀ text, given again.listenAddress = some text → given o.listenAddress = some text)
    (secret : ∀ text, given again.secret = some text → given o.secret = some text) :
    finished.finish again = .ok finished := by
  obtain ⟨rfl, valid⟩ := (finish_eq_ok_iff c o finished).mp accepted
  exact (finish_eq_ok_iff _ again _).mpr ⟨(trimmed_again address secret).symm, valid⟩

/-- Finishing accepts exactly what is acceptable. What it gives then is the decoded configuration, but for
the address and the secret that are in force, the address trimmed, and for the lists of servers, which
keep their filled entries, trimmed and in order. To finish that again, with the same overrides or
without any, gives the same. -/
theorem finish_settles (c : Config) (o : Overrides) :
    ((∃ finished, c.finish o = .ok finished) ↔ c.Acceptable o) ∧
    ∀ finished, c.finish o = .ok finished →
      finished = { c with
        listenAddress := Blank.trim ((given o.listenAddress).getD c.listenAddress)
        secret := (given o.secret).getD c.secret
        ice := { c.ice with
          stun := filledEntries c.ice.stun
          turn := filledEntries c.ice.turn } } ∧
      finished.finish o = .ok finished ∧ finished.finish .none = .ok finished := by
  refine ⟨⟨?_, fun acceptable => ?_⟩, fun finished accepted => ⟨?_, ?_, ?_⟩⟩
  · rintro ⟨finished, accepted⟩
    obtain ⟨rfl, valid⟩ := (finish_eq_ok_iff c o finished).mp accepted
    exact valid_iff.mp valid
  · exact ⟨_, (finish_eq_ok_iff c o _).mpr ⟨rfl, valid_iff.mpr acceptable⟩⟩
  · rw [((finish_eq_ok_iff c o finished).mp accepted).1, overridden, trimmed, trimmedEntries_eq,
      trimmedEntries_eq]
  · exact finish_again accepted (fun _ => id) fun _ => id
  · exact finish_again accepted nofun nofun

/-- Blanks of several kinds around an address and around entries, a blank override and a blank entry. -/
theorem finish_settles_blanks :
    let c : Config := { Config.standard with
      listenAddress := "\t[::1]:4100\u00A0"
      ice := ⟨[" stun:a.example", "\n", "STUNS:b.example?c\u3000"], [" "], "", ""⟩ }
    let o : Overrides := ⟨some " ", some " s "⟩
    c.Acceptable o ∧ ∃ finished, c.finish o = .ok finished ∧
      finished.listenAddress = "[::1]:4100" ∧ finished.secret = " s " ∧
      finished.ice.stun = ["stun:a.example", "STUNS:b.example?c"] ∧ finished.ice.turn = [] ∧
      finished.finish o = .ok finished ∧ finished.finish .none = .ok finished := by
  intro c o
  obtain ⟨finished, accepted, address⟩ : ∃ finished, c.finish o = .ok finished ∧
      finished.listenAddress = "[::1]:4100" := exists_of_toOption (by decide +kernel)
  obtain ⟨acceptable, settles⟩ := finish_settles c o
  obtain ⟨same, once, twice⟩ := settles finished accepted
  refine ⟨acceptable.mp ⟨finished, accepted⟩, finished, accepted, address, ?_, ?_, ?_, once, twice⟩
  all_goals
    rw [same]
    decide +kernel

end SignalHub.Config
