import SignalHub.Proofs.Hub.Live

/-! A step reports that a device has come online or gone offline. Whatever it says of a device is
how the device is afterwards, and of a device that it does not mention it has changed nothing
(`latest_news`); so the last word on every device that was ever registered is right
(`Followed.step`). -/
namespace SignalHub

namespace Presence

/-- The last that was said of a device. -/
def latest (device : Uuid) (news : List Presence) : Option Bool :=
  ((news.filter fun p => p.device == device).getLast?).map Presence.online

theorem latest_append (device : Uuid) (first second : List Presence) :
    latest device (first ++ second) = (latest device second).or (latest device first) := by
  simp [latest, List.filter_append, List.getLast?_append, Option.map_or]

theorem latest_single (device : Uuid) (p : Presence) :
    latest device [p] = if p.device = device then some p.online else none := by
  by_cases same : p.device = device <;> simp [latest, same]

theorem latest_eq_none_iff (device : Uuid) (news : List Presence) :
    latest device news = none ↔ ∀ p ∈ news, p.device ≠ device := by
  simp [latest]

theorem mem_of_latest {device : Uuid} {news : List Presence} {online : Bool}
    (last : latest device news = some online) : ⟨device, online⟩ ∈ news := by
  obtain ⟨p, found, rfl⟩ := Option.map_eq_some_iff.mp last
  obtain ⟨member, same⟩ := List.mem_filter.mp (List.mem_of_getLast? found)
  rwa [← eq_of_beq same]

end Presence

namespace Hub

def registerNews (h : Hub) (id : ConnId) : List Presence :=
  (h.connection? id).elim [] fun c => [⟨c.device, true⟩]

def unregisterNews (h : Hub) (id : ConnId) : List Presence :=
  (h.connection? id).elim [] fun c =>
    if h.registry.lookup c.user c.device = some id then [⟨c.device, false⟩] else []

def drainNews (h : Hub) (ids : List ConnId) : List Presence :=
  ids.filterMap fun id => (h.connection? id).map fun c => ⟨c.device, false⟩

/-- What a step reports of devices, in order. -/
def news (h : Hub) : Step → List Presence
  | .register id => h.registerNews id
  | .unregister id => h.unregisterNews id
  | .join id => if h.admits then h.registerNews id else []
  | .leave id => if h.admits then h.unregisterNews id else []
  | .closeAll inside => if inside then h.drainNews h.registry.connections else []
  | _ => []

variable {h k : Hub}

/-- From one state to the next, a hub that reports has reported this. -/
structure Reported (h k : Hub) (news : List Presence) : Prop where
  reports : k.reports = h.reports
  pending : k.pending = h.pending ++ if h.reports then news else []

theorem Reported.silent (reports : k.reports = h.reports) (pending : k.pending = h.pending) :
    Reported h k [] := ⟨reports, by simp [pending]⟩

theorem Reported.trans {a b c : Hub} {first second : List Presence} (before : Reported a b first)
    (after : Reported b c second) : Reported a c (first ++ second) where
  reports := after.reports.trans before.reports
  pending := by
    rw [after.pending, before.pending, before.reports, List.append_assoc]
    split <;> simp

theorem Reported.then_silent {a b c : Hub} {news : List Presence} (before : Reported a b news)
    (after : Reported b c []) : Reported a c news := by
  simpa using before.trans after

theorem reported_report (h : Hub) (device : Uuid) (online : Bool) :
    Reported h (h.report device online) [⟨device, online⟩] := by
  unfold report
  split
  · rename_i reports
    exact ⟨rfl, by simp [reports]⟩
  · rename_i reports
    exact ⟨rfl, by simp [reports]⟩

theorem silent_deliver (h : Hub) (id : ConnId) (m : Message) : Reported h (h.deliver id m).1 [] := by
  unfold deliver
  split <;> exact .silent rfl rfl

theorem silent_broadcast (h : Hub) (user : Uuid) (exclude : Option Uuid) (m : Message) :
    Reported h (h.broadcast user exclude m).1 [] := by
  have delivered (ids : List ConnId) (k : Hub) : Reported k (k.deliverAll ids m).1 [] := by
    induction ids generalizing k with
    | nil => exact .silent rfl rfl
    | cons id rest ih => exact (silent_deliver k id m).then_silent (ih _)
  exact delivered _ h

theorem silent_forward (h : Hub) (user target : Uuid) (m : Message) :
    Reported h (h.forward user target m).1 [] := by
  unfold forward
  split
  · exact .silent rfl rfl
  · rename_i id stored
    have delivered := silent_deliver h id m
    split
    · rename_i k queued
      rw [queued] at delivered
      exact delivered.then_silent (.silent rfl rfl)
    · rename_i k refused
      rw [refused] at delivered
      exact delivered

theorem silent_forwardVia (h : Hub) (weak : Bool) (user target : Uuid) (m : Message) :
    Reported h (h.forwardVia weak user target m).1 [] := by
  unfold forwardVia forwardWeak
  split
  · split
    · exact silent_forward h user target m
    · exact .silent rfl rfl
  · exact silent_forward h user target m

theorem silent_broadcastVia (h : Hub) (weak : Bool) (user : Uuid) (exclude : Option Uuid)
    (m : Message) : Reported h (h.broadcastVia weak user exclude m).1 [] := by
  unfold broadcastVia broadcastWeak
  split
  · split
    · exact silent_broadcast h user exclude m
    · exact .silent rfl rfl
  · exact silent_broadcast h user exclude m

theorem silent_handleText (h : Hub) (id : ConnId) (raw : String) :
    Reported h (h.handleText id raw) [] := by
  have marked : Reported h (h.update id Connection.markActive) [] := .silent rfl rfl
  unfold handleText
  dsimp only
  split
  · exact marked
  · split
    · exact .silent rfl rfl
    · exact marked.then_silent (silent_forwardVia _ true ..)
    · exact .silent rfl rfl

theorem silent_enroll (h : Hub) (id : ConnId) (c : Connection) : Reported h (h.enroll id c) [] := by
  have superseded : Reported h (h.supersede c.user c.device) [] := by
    unfold supersede
    split <;> exact .silent rfl rfl
  exact superseded.then_silent (.silent rfl rfl)

theorem reported_register (h : Hub) (id : ConnId) :
    Reported h (h.register id) (h.registerNews id) := by
  unfold register registerNews
  cases h.connection? id with
  | none => exact .silent rfl rfl
  | some c =>
    have listed := (silent_enroll h id c).then_silent
      (silent_deliver (h.enroll id c) id (.deviceList ((h.enroll id c).onlineDevices c.user)))
    have told := listed.then_silent
      (silent_broadcast _ c.user (some c.device) (.deviceOnline c.info))
    simpa using told.trans (reported_report _ c.device true)

theorem reported_unregister (h : Hub) (id : ConnId) :
    Reported h (h.unregister id).1 (h.unregisterNews id) := by
  unfold unregister unregisterNews
  cases h.connection? id with
  | none => exact .silent rfl rfl
  | some c =>
    dsimp only [Option.elim_some]
    split
    · have withdrawn : Reported h (h.withdraw id c) [] := .silent rfl rfl
      have told := withdrawn.then_silent
        (silent_broadcast _ c.user (some c.device) (.deviceOffline c.device))
      simpa using told.trans (reported_report _ c.device false)
    · exact .silent rfl rfl

theorem device_drain (inside : Bool) (h : Hub) (id j : ConnId) :
    ((drain inside h id).connection? j).map Connection.device =
      (h.connection? j).map Connection.device := by
  rw [connection?_drain]
  split
  · rw [Option.map_map]
    congr 1
    funext c
    exact c.ages_close.device
  · rfl

theorem reported_drain (h : Hub) (ids : List ConnId) :
    Reported h (ids.foldl (drain true) h) (h.drainNews ids) := by
  induction ids generalizing h with
  | nil => exact .silent rfl rfl
  | cons id rest ih =>
    -- the connections that are closed meanwhile are still of the same devices
    have later : (drain true h id).drainNews rest = h.drainNews rest := by
      unfold drainNews
      congr 1
      funext j
      have same := congrArg (Option.map fun device => (⟨device, false⟩ : Presence))
        (device_drain true h id j)
      simpa [Function.comp_def] using same
    have drained := ih (drain true h id)
    rw [later] at drained
    rw [List.foldl_cons]
    cases found : h.connection? id with
    | none =>
      have nothing : h.drainNews (id :: rest) = h.drainNews rest := by simp [drainNews, found]
      have still : drain true h id = h := by simp [drain, found]
      rw [nothing]
      rwa [still] at drained ⊢
    | some c =>
      have first : h.drainNews (id :: rest) = [⟨c.device, false⟩] ++ h.drainNews rest := by
        simp [drainNews, found]
      have closed : Reported h (drain true h id) [⟨c.device, false⟩] := by
        have updated : Reported h (h.update id Connection.close) [] := .silent rfl rfl
        simpa [drain, found] using updated.trans (reported_report _ c.device false)
      rw [first]
      exact closed.trans drained

theorem silent_drain (h : Hub) (ids : List ConnId) :
    Reported h (ids.foldl (drain false) h) [] := by
  induction ids generalizing h with
  | nil => exact .silent rfl rfl
  | cons id rest ih =>
    have closed : Reported h (drain false h id) [] := by
      unfold drain
      split <;> exact .silent rfl rfl
    exact closed.then_silent (ih _)

theorem reported_closeAll (h : Hub) (inside : Bool) :
    Reported h (h.closeAll inside).1 (h.news (.closeAll inside)) := by
  let emptied : Hub := { h with registry := [] }
  have drained : Reported emptied (h.closeAll inside).1 (h.news (.closeAll inside)) := by
    cases inside with
    | true => exact reported_drain emptied h.registry.connections
    | false => exact silent_drain emptied h.registry.connections
  exact ⟨drained.reports, drained.pending⟩

/-- What a step reports waits behind what was waiting before. -/
theorem reported_step (h : Hub) (s : Step) : Reported h (h.step s) (h.news s) := by
  cases s with
  | register id => exact reported_register h id
  | unregister id => exact reported_unregister h id
  | join id =>
    simp only [step, join, news]
    split
    · exact reported_register h id
    · exact .silent rfl rfl
  | leave id =>
    simp only [step, leave, news]
    split
    · exact reported_unregister h id
    · exact .silent rfl rfl
  | text id raw => exact silent_handleText h id raw
  | forward weak user target m => exact silent_forwardVia h weak user target m
  | broadcast weak user exclude m => exact silent_broadcastVia h weak user exclude m
  | streamStart user start => exact silent_broadcast h user none _
  | streamEnd user stream => exact silent_broadcast h user none _
  | closeAll inside => exact reported_closeAll h inside
  | connect | send | close | receive | dropReceiver | finish | halt | release =>
    exact .silent rfl rfl

/-- No two users have a device of the same identifier. -/
def Exclusive (h : Hub) : Prop :=
  ∀ c ∈ h.connections, ∀ c' ∈ h.connections, c.device = c'.device → c.user = c'.user

theorem mem_connections {id : ConnId} {c : Connection} (found : h.connection? id = some c) :
    c ∈ h.connections := List.mem_of_getElem? found

theorem Exclusive.of_ages (exclusive : Exclusive k) (aged : Ages h k) : Exclusive h := by
  have older (c : Connection) (member : c ∈ h.connections) : ∃ x ∈ k.connections, c.Ages x := by
    obtain ⟨id, found⟩ := List.mem_iff_getElem?.mp member
    obtain ⟨x, foundX, later⟩ := aged id c found
    exact ⟨x, mem_connections foundX, later⟩
  intro c member c' member' same
  obtain ⟨x, memberX, later⟩ := older c member
  obtain ⟨x', memberX', later'⟩ := older c' member'
  rw [← later.user, ← later'.user]
  exact exclusive x memberX x' memberX' (by rw [later.device, later'.device, same])

/-- What a step reports goes with what it does to the registry. -/
inductive Bulletin (h : Hub) (s : Step) : Prop where
  | keep (registry : (h.step s).registry = h.registry) (nobody : h.enrolls s = none)
      (quiet : h.news s = [])
  | enroll (id : ConnId) (c : Connection) (found : h.connection? id = some c)
      (enrolls : h.enrolls s = some id)
      (registry : (h.step s).registry = h.registry.enroll c.user c.device id)
      (told : h.news s = [⟨c.device, true⟩])
  | withdraw (id : ConnId) (c : Connection) (found : h.connection? id = some c)
      (current : h.registry.lookup c.user c.device = some id) (nobody : h.enrolls s = none)
      (registry : (h.step s).registry = h.registry.expel c.user c.device)
      (told : h.news s = [⟨c.device, false⟩])
  | drain (nobody : h.enrolls s = none) (registry : (h.step s).registry = [])
      (told : h.news s = h.drainNews h.registry.connections)

theorem bulletin_register (h : Hub) (id : ConnId) : Bulletin h (.register id) := by
  have registry := registry_step h (.register id)
  cases found : h.connection? id with
  | none =>
    refine .keep ?_ (by simp [enrolls, found]) (by simp [news, registerNews, found])
    simpa [arrange, arrangeRegister, found] using registry
  | some c =>
    refine .enroll id c found (by simp [enrolls, found]) ?_ (by simp [news, registerNews, found])
    simpa [arrange, arrangeRegister, found, registry_enroll] using registry

theorem bulletin_unregister (h : Hub) (id : ConnId) : Bulletin h (.unregister id) := by
  have registry := registry_step h (.unregister id)
  cases found : h.connection? id with
  | none =>
    refine .keep ?_ rfl (by simp [news, unregisterNews, found])
    simpa [arrange, arrangeUnregister, found] using registry
  | some c =>
    by_cases current : h.registry.lookup c.user c.device = some id
    · refine .withdraw id c found current rfl ?_ (by simp [news, unregisterNews, found, current])
      simpa [arrange, arrangeUnregister, found, current, registry_withdraw] using registry
    · refine .keep ?_ rfl (by simp [news, unregisterNews, found, current])
      simpa [arrange, arrangeUnregister, found, current] using registry

theorem Bulletin.of_same {s t : Step} (bulletin : Bulletin h t) (step : h.step s = h.step t)
    (enrolls : h.enrolls s = h.enrolls t) (news : h.news s = h.news t) : Bulletin h s := by
  cases bulletin with
  | keep registry nobody quiet =>
    exact .keep (step ▸ registry) (enrolls.trans nobody) (news.trans quiet)
  | enroll id c found enrolled registry told =>
    exact .enroll id c found (enrolls.trans enrolled) (step ▸ registry) (news.trans told)
  | withdraw id c found current nobody registry told =>
    exact .withdraw id c found current (enrolls.trans nobody) (step ▸ registry) (news.trans told)
  | drain nobody registry told =>
    exact .drain (enrolls.trans nobody) (step ▸ registry) (news.trans told)

theorem bulletin (h : Hub) {s : Step} (inside : s ≠ .closeAll false) : Bulletin h s := by
  cases s with
  | register id => exact bulletin_register h id
  | unregister id => exact bulletin_unregister h id
  | join id =>
    cases open_ : h.admits with
    | true => apply (bulletin_register h id).of_same <;> simp [step, join, enrolls, news, open_]
    | false => apply Bulletin.keep <;> simp [step, join, enrolls, news, open_]
  | leave id =>
    cases open_ : h.admits with
    | true => apply (bulletin_unregister h id).of_same <;> simp [step, leave, enrolls, news, open_]
    | false => apply Bulletin.keep <;> simp [step, leave, enrolls, news, open_]
  | closeAll here =>
    cases here with
    | true => exact .drain rfl (registry_closeAll h true) rfl
    | false => exact absurd rfl inside
  | connect | text | forward | broadcast | streamStart | streamEnd | send | close | receive
  | dropReceiver | finish | halt | release => exact .keep (registry_step h _) rfl rfl

theorem mem_drainNews {ids : List ConnId} {p : Presence} :
    p ∈ h.drainNews ids ↔
      ∃ id ∈ ids, ∃ c, h.connection? id = some c ∧ p = ⟨c.device, false⟩ := by
  simp only [drainNews, List.mem_filterMap, Option.map_eq_some_iff]
  constructor
  · rintro ⟨id, member, c, found, rfl⟩
    exact ⟨id, member, c, found, rfl⟩
  · rintro ⟨id, member, c, found, rfl⟩
    exact ⟨id, member, c, found, rfl⟩

/-- What a step last says of a device is how the device is afterwards, and a device that it does not
mention is as it was. -/
theorem Consistent.latest_news (valid : Consistent h) {s : Step} (inside : s ≠ .closeAll false)
    (exclusive : Exclusive h) {id : ConnId} {c : Connection} (found : h.connection? id = some c) :
    (Presence.latest c.device (h.news s)).getD (h.isOnline c.user c.device) =
      (h.step s).isOnline c.user c.device := by
  unfold isOnline
  rcases bulletin h inside with ⟨registry, -, quiet⟩ | ⟨j, x, foundX, -, registry, told⟩ |
    ⟨j, x, foundX, -, -, registry, told⟩ | ⟨-, registry, told⟩
  · rw [quiet, registry]
    rfl
  · rw [told, registry, Presence.latest_single, Registry.lookup_enroll]
    by_cases same : x.device = c.device
    · simp [same, exclusive x (mem_connections foundX) c (mem_connections found) same]
    · simp [same, Ne.symm same]
  · rw [told, registry, Presence.latest_single, Registry.lookup_expel]
    by_cases same : x.device = c.device
    · simp [same, exclusive x (mem_connections foundX) c (mem_connections found) same]
    · simp [same, Ne.symm same]
  · rw [registry, told]
    change _ = false
    cases last : Presence.latest c.device (h.drainNews h.registry.connections) with
    | some online =>
      obtain ⟨_, -, _, -, said⟩ := mem_drainNews.mp (Presence.mem_of_latest last)
      exact congrArg Presence.online said
    | none =>
      apply Bool.eq_false_iff.mpr
      intro online
      obtain ⟨j, stored⟩ := Option.isSome_iff_exists.mp online
      obtain ⟨x, foundX, -, device⟩ := valid.keyed _ _ _ stored
      have said := mem_drainNews.mpr
        ⟨j, Registry.mem_connections_of_lookup stored, x, foundX, rfl⟩
      exact (Presence.latest_eq_none_iff _ _).mp last _ said device

theorem news_of_enrolls {s : Step} (inside : s ≠ .closeAll false) {id : ConnId}
    (enrolled : h.enrolls s = some id) :
    ∃ c, h.connection? id = some c ∧ h.news s = [⟨c.device, true⟩] := by
  rcases bulletin h inside with ⟨-, nobody, -⟩ | ⟨j, c, found, enrolls, -, told⟩ |
    ⟨_, _, -, -, nobody, -, -⟩ | ⟨nobody, -, -⟩
  · simp [enrolled] at nobody
  · obtain rfl := Option.some.inj (enrolled.symm.trans enrolls)
    exact ⟨c, found, told⟩
  · simp [enrolled] at nobody
  · simp [enrolled] at nobody

/-- Only devices that have been registered are mentioned. -/
theorem Held.registered_of_news {history : List ConnId} (held : Held history h)
    (valid : Consistent h) {s : Step} (inside : s ≠ .closeAll false) {p : Presence}
    (told : p ∈ h.news s) :
    ∃ id ∈ history ++ (h.enrolls s).toList, ∃ c, h.connection? id = some c ∧
      c.device = p.device := by
  have stored {user device : Uuid} {id : ConnId}
      (current : h.registry.lookup user device = some id) : id ∈ history :=
    (List.mem_filter.mp (List.mem_of_getLast? (held.newest user device id current))).1
  rcases bulletin h inside with ⟨-, -, quiet⟩ | ⟨j, x, foundX, enrolls, -, news⟩ |
    ⟨j, x, foundX, current, -, -, news⟩ | ⟨-, -, news⟩
  · simp [quiet] at told
  · rw [news, List.mem_singleton] at told
    exact ⟨j, by simp [enrolls], x, foundX, by rw [told]⟩
  · rw [news, List.mem_singleton] at told
    exact ⟨j, List.mem_append_left _ (stored current), x, foundX, by rw [told]⟩
  · rw [news] at told
    obtain ⟨j, member, x, foundX, rfl⟩ := mem_drainNews.mp told
    obtain ⟨y, foundY, current⟩ := (valid.mem_connections_iff j).mp member
    exact ⟨j, List.mem_append_left _ (stored current), x, foundX, rfl⟩

/-- The last word on each device that was ever registered is how it is now, and nothing was said of
any other. -/
structure Followed (history : List ConnId) (news : List Presence) (h : Hub) : Prop where
  right : ∀ id ∈ history, ∀ c, h.connection? id = some c →
    Presence.latest c.device news = some (h.isOnline c.user c.device)
  silent : ∀ device, (∀ id ∈ history, ∀ c, h.connection? id = some c → c.device ≠ device) →
    Presence.latest device news = none

theorem Followed.step {history : List ConnId} {news : List Presence}
    (followed : Followed history news h) (held : Held history h) (valid : Consistent h)
    (exclusive : Exclusive h) {s : Step} (inside : s ≠ .closeAll false) :
    Followed (history ++ (h.enrolls s).toList) (news ++ h.news s) (h.step s) := by
  have later := ages_step h s
  refine ⟨?_, ?_⟩
  · intro id member c' found'
    obtain ⟨c, found, told⟩ : ∃ c, h.connection? id = some c ∧
        (Presence.latest c.device (news ++ h.news s)) =
          some ((Presence.latest c.device (h.news s)).getD (h.isOnline c.user c.device)) := by
      rcases List.mem_append.mp member with old | new
      · obtain ⟨c, found⟩ := held.known id old
        refine ⟨c, found, ?_⟩
        rw [Presence.latest_append, followed.right id old c found]
        cases Presence.latest c.device (h.news s) <;> rfl
      · obtain ⟨c, found, told⟩ := news_of_enrolls inside (Option.mem_toList.mp new)
        refine ⟨c, found, ?_⟩
        rw [Presence.latest_append, told, Presence.latest_single, if_pos rfl]
        rfl
    obtain ⟨x, foundX, aged⟩ := later id c found
    obtain rfl := Option.some.inj (found'.symm.trans foundX)
    rw [aged.user, aged.device, told, valid.latest_news inside exclusive found]
  · intro device unused
    rw [Presence.latest_append, Option.or_eq_none_iff]
    refine ⟨?_, ?_⟩
    · apply (Presence.latest_eq_none_iff _ _).mpr
      intro p told
      obtain ⟨id, member, c, found, same⟩ := held.registered_of_news valid inside told
      obtain ⟨c', found', aged⟩ := later id c found
      rw [← same, ← aged.device]
      exact unused id member c' found'
    · apply followed.silent
      intro id member c found
      obtain ⟨c', found', aged⟩ := later id c found
      rw [← aged.device]
      exact unused id (List.mem_append_left _ member) c' found'

end Hub
end SignalHub
