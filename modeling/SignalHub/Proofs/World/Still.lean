import SignalHub.World.Actions
import SignalHub.Proofs.World.Run

/-! Connections are made, registered and served only by moves of their own (`Move.opens`). Any other
move, and whatever is told to the directory, leaves the connections that there are and those that
are served as they are, but for their age (`Still`). -/
namespace SignalHub

namespace Hub

variable {h : Hub}

/-- Without a step that makes one, there is no new connection. -/
theorem connection_of_run {steps : List Step} (nothing : ∀ s ∈ steps, s.created = [])
    {id : ConnId} {c : Connection} (found : (h.run steps).connection? id = some c) :
    ∃ x, h.connection? id = some x ∧ x.Ages c := by
  induction steps generalizing h with
  | nil => exact ⟨c, found, .refl c⟩
  | cons s rest ih =>
    obtain ⟨y, foundY, aged⟩ := ih (fun t later => nothing t (List.mem_cons_of_mem s later)) found
    rcases connection_of_step foundY with ⟨x, foundX, older⟩ | ⟨-, new⟩
    · exact ⟨x, foundX, older.trans aged⟩
    · rw [nothing s List.mem_cons_self] at new
      cases new

end Hub

namespace World

variable {w w' : World} {m : Move}

/-- The moves that are made for upgrades: nobody else makes connections, has them registered, or
starts to serve them. -/
def Move.opens : Move → Bool
  | .desk (.direct (.connect ..)) | .desk (.move (.beginCall (.register _))) | .attend _ _ => true
  | _ => false

theorem created_of_deeds {s : Hub.Step} (sound : Sound w) (others : m.opens = false)
    (member : s ∈ w.deeds m) : s.created = [] := by
  rcases mem_deeds member with ⟨command, rfl⟩ | rfl | rfl | direct
  · cases command <;> rfl
  · rfl
  · rfl
  rcases direct_cases sound direct with ⟨rfl, -⟩ | ⟨conn, answers, -, rfl, -⟩ | ⟨i, p, -,
    ⟨hasty, -, -, ⟨f, deed⟩ | rfl | rfl⟩ | ⟨pingFirst, -, rfl | rfl⟩⟩
  · cases s with
    | connect => cases others
    | _ => rfl
  · rfl
  · rcases f.mem_deeds deed with ⟨raw, rfl⟩ | ⟨o, rfl⟩ <;> rfl
  all_goals rfl

/-- Nobody has made a connection or started to serve one. -/
structure Still (w w' : World) : Prop where
  aged : Hub.Ages w.hub w'.hub
  known : ∀ id c, w'.hub.connection? id = some c → ∃ x, w.hub.connection? id = some x ∧ x.Ages c
  valid : Hub.Consistent w.hub → Hub.Consistent w'.hub
  conns : w'.pumps.map Pump.conn = w.pumps.map Pump.conn

theorem Still.of_same (connections : w'.hub.connections = w.hub.connections)
    (registry : w'.hub.registry = w.hub.registry) (pumps : w'.pumps = w.pumps) : Still w w' := by
  have same (id : ConnId) : w'.hub.connection? id = w.hub.connection? id := by
    rw [Hub.connection?, connections]
    rfl
  have aged : Hub.Ages w.hub w'.hub := fun id c found => ⟨c, (same id).trans found, .refl c⟩
  exact {
    aged
    known := fun id c found => ⟨c, (same id).symm.trans found, .refl c⟩
    valid := fun valid => valid.of_ages aged registry
    conns := by rw [pumps] }

theorem Still.of_run {steps : List Hub.Step} (hub : w'.hub = w.hub.run steps)
    (nothing : ∀ s ∈ steps, s.created = [])
    (conns : w'.pumps.map Pump.conn = w.pumps.map Pump.conn) : Still w w' where
  aged := by
    rw [hub]
    exact Hub.ages_run w.hub steps
  known id c found := Hub.connection_of_run nothing (hub ▸ found)
  valid valid := by
    rw [hub]
    exact valid.run steps
  conns := conns

theorem still_proceed (sound : Sound w) (others : m.opens = false) : Still w (w.proceed m) := by
  refine .of_run (hub_proceed sound m) (fun s member => created_of_deeds sound others member) ?_
  rw [conns_proceed sound m]
  cases m with
  | attend => cases others
  | _ => exact List.append_nil _

/-- Before its pump is there, a connection that starts to be served loses its reader at most. -/
theorem still_attend (w : World) (conn : ConnId) (answers : Bool) :
    Still w { w.attend conn answers with pumps := w.pumps } := by
  have hub := congrArg Desk.hub (desk_attend w conn answers)
  rw [Desk.hub_play] at hub
  refine .of_run hub (fun s member => ?_) rfl
  split at member
  · obtain rfl := List.mem_singleton.mp member
    rfl
  · cases member

theorem note_eq (w : World) (p : Presence) : ∃ directory, w.note p = { w with directory } := by
  rw [note]
  split
  · exact ⟨w.directory, rfl⟩
  · split
    · exact ⟨_, rfl⟩
    · exact ⟨w.directory, rfl⟩

theorem still_tell (w : World) (place : Nat) : Still w (w.tell place) := by
  rw [tell]
  split
  · rename_i p _
    obtain ⟨directory, noted⟩ :=
      note_eq (w.setHub { w.hub with pending := w.hub.pending.eraseIdx place }) p
    rw [noted]
    exact .of_same rfl rfl rfl
  · exact .of_same rfl rfl rfl

theorem Still.isServed (still : Still w w') (conn : ConnId) : w'.isServed conn = w.isServed conn := by
  have conns (w : World) : w.isServed conn = (w.pumps.map Pump.conn).any (· == conn) := by
    rw [World.isServed, List.any_map]
    rfl
  rw [conns, conns, still.conns]

theorem sound_iff : Sound w ↔
    (∀ conn ∈ w.pumps.map Pump.conn, (w.hub.connection? conn).isSome = true) ∧
      (w.pumps.map Pump.conn).Nodup :=
  ⟨fun sound => ⟨List.forall_mem_map.mpr sound.known, sound.apart⟩,
    fun ⟨known, apart⟩ => ⟨List.forall_mem_map.mp known, apart⟩⟩

theorem Still.sound (still : Still w w') (sound : Sound w) : Sound w' := by
  obtain ⟨known, apart⟩ := sound_iff.mp sound
  rw [sound_iff, still.conns]
  exact ⟨fun conn member => still.aged.known (known conn member), apart⟩

theorem Still.refl (w : World) : Still w w := .of_same rfl rfl rfl

theorem Still.trans {w'' : World} (first : Still w w') (second : Still w' w'') : Still w w'' where
  aged := first.aged.trans second.aged
  known id c found := by
    obtain ⟨y, there, later⟩ := second.known id c found
    obtain ⟨x, before, earlier⟩ := first.known id y there
    exact ⟨x, before, earlier.trans later⟩
  valid valid := second.valid (first.valid valid)
  conns := second.conns.trans first.conns

theorem still_follow (sound : Sound w) {moves : List Move}
    (others : ∀ m ∈ moves, m.opens = false) : Still w (w.follow moves) := by
  induction moves generalizing w with
  | nil => exact .refl w
  | cons m rest ih =>
    have now := still_proceed sound (others m List.mem_cons_self)
    exact now.trans (ih (sound.proceed m) fun n member => others n (List.mem_cons_of_mem m member))

theorem opens_of_ofTask (own : m.ofTask = true) : m.opens = false := by
  rw [Move.ofTask.eq_def] at own
  split at own <;> first | rfl | cases own

theorem tellAll_eq (w : World) :
    ∃ directory, w.tellAll = { w.setHub { w.hub with pending := [] } with directory } := by
  rw [tellAll]
  generalize w.setHub { w.hub with pending := [] } = v
  induction w.hub.pending generalizing v with
  | nil => exact ⟨v.directory, rfl⟩
  | cons p rest ih =>
    obtain ⟨first, noted⟩ := note_eq v p
    obtain ⟨last, told⟩ := ih (v.note p)
    exact ⟨last, by rw [List.foldl_cons, told, noted]⟩

/-- While the world settles, its tasks make their moves and the directory is told of what is pending. -/
theorem settle_eq (w : World) : ∃ moves, (∀ m ∈ moves, m.ofTask = true) ∧
    w.settle = (w.follow moves).tellAll := by
  obtain ⟨moves, own, ran⟩ := runQueue_follow w.steps w.ready w
  exact ⟨moves, own, by rw [settle, settleFrom, ran]⟩

theorem still_settle (sound : Sound w) : Still w w.settle := by
  obtain ⟨moves, own, settled⟩ := w.settle_eq
  obtain ⟨directory, told⟩ := (w.follow moves).tellAll_eq
  rw [settled, told]
  have followed := still_follow sound fun m member => opens_of_ofTask (own m member)
  exact followed.trans (.of_same rfl rfl rfl)

/-- What happens to the calls while the world settles could happen at its desk alone. -/
theorem calls_settle (sound : Sound w) :
    ∃ events, w.settle.desk.calls = (w.desk.play events).calls := by
  obtain ⟨moves, -, settled⟩ := w.settle_eq
  obtain ⟨directory, told⟩ := (w.follow moves).tellAll_eq
  exact ⟨w.along doings moves, by rw [settled, told, ← desk_follow sound]; rfl⟩

theorem isServed_iff (w : World) (conn : ConnId) :
    w.isServed conn = true ↔ conn ∈ w.pumps.map Pump.conn := by
  simp [isServed]

/-- A new connection is nobody's yet. -/
theorem fresh_of_known {conn : ConnId} (known : (w.hub.connection? conn).isSome = true) :
    conn ≠ w.hub.connections.length := by
  rintro rfl
  simp [Hub.connection?] at known

theorem Sound.connect (sound : Sound w) (user device : Uuid) (info : Device.Info) (capacity : Nat) :
    Sound (w.connect user device info capacity).1 := by
  obtain ⟨known, apart⟩ := sound_iff.mp sound
  refine sound_iff.mpr ⟨fun conn member => ?_, apart⟩
  have before := known conn member
  obtain ⟨c, found⟩ := Option.isSome_iff_exists.mp before
  have after := Hub.connection?_add w.hub (.new user device info capacity) conn
  rw [if_neg (fresh_of_known before), found] at after
  exact Option.isSome_iff_exists.mpr ⟨c, after⟩

theorem Sound.attend (sound : Sound w) {conn : ConnId}
    (known : (w.hub.connection? conn).isSome = true) (free : w.isServed conn = false)
    (answers : Bool) : Sound (w.attend conn answers) := by
  obtain ⟨all, apart⟩ := sound_iff.mp ((still_attend w conn answers).sound sound)
  have conns : (w.attend conn answers).pumps.map Pump.conn = w.pumps.map Pump.conn ++ [conn] :=
    List.map_append
  rw [sound_iff, conns]
  refine ⟨fun other member => ?_, List.nodup_append.mpr ⟨apart, by simp, ?_⟩⟩
  · rcases List.mem_append.mp member with old | new
    · exact all other old
    · rw [List.mem_singleton.mp new]
      exact (still_attend w conn answers).aged.known known
  · rintro other member _ new rfl
    rw [← List.mem_singleton.mp new, (isServed_iff w other).mpr member] at free
    cases free

end World

end SignalHub
