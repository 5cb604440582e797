import Mathlib.Data.List.Forall2
import SignalHub.World.Basic
import SignalHub.Proofs.Hub.News

/-! What a hub reports waits until somebody tells the directory, and meanwhile the hub goes on.
Reports may overtake each other unless they are about one device. At any time, what the directory
was told together with what is waiting has the last word on every device right (`Tracked`). So when
nothing waits the directory is right. -/
namespace SignalHub

open Device (Record)

/-- The record of the device is marked with what is said of it. -/
def Presence.mark (p : Presence) (r : Record) : Record :=
  if r.id = p.device then { r with isOnline := p.online } else r

/-- A record after all that was said of its device. -/
def Device.Record.marked (told : List Presence) (r : Record) : Record :=
  { r with isOnline := (Presence.latest r.id told).getD r.isOnline }

theorem mark_marked (p : Presence) (told : List Presence) (r : Record) :
    p.mark (r.marked told) = r.marked (told ++ [p]) := by
  unfold Presence.mark Device.Record.marked
  rw [Presence.latest_append, Presence.latest_single]
  by_cases same : p.device = r.id
  · simp [same]
  · simp [same, Ne.symm same]

theorem map_mark_of_absent {p : Presence} {records : List Record}
    (absent : ∀ r ∈ records, r.id ≠ p.device) : records.map p.mark = records := by
  have same (r : Record) (member : r ∈ records) : p.mark r = id r := if_neg (absent r member)
  rw [List.map_congr_left same, List.map_id]

namespace Directory

theorem ids_put (record : Record) (records : List Record) :
    (put record records).map Record.id =
      if record.id ∈ records.map Record.id then records.map Record.id
      else records.map Record.id ++ [record.id] := by
  induction records with
  | nil => rfl
  | cons r rest ih =>
    by_cases same : r.id = record.id
    · simp [put, same]
    · simp only [put, same, ↓reduceIte, List.map_cons, ih, List.mem_cons, Ne.symm same, false_or]
      split <;> rfl

theorem nodup_put (record : Record) {records : List Record}
    (distinct : (records.map Record.id).Nodup) : ((put record records).map Record.id).Nodup := by
  rw [ids_put]
  split
  · exact distinct
  · rename_i absent
    rw [List.nodup_append]
    refine ⟨distinct, by simp, ?_⟩
    intro id member other single
    rw [List.mem_singleton.mp single]
    rintro rfl
    exact absent member

/-- A directory holds one record for each identifier. -/
theorem nodup_ofRecords (records : List Record) :
    ((ofRecords records).records.map Record.id).Nodup := by
  have inserted (d : Directory) (distinct : (d.records.map Record.id).Nodup) :
      ((records.foldl insert d).records.map Record.id).Nodup := by
    induction records generalizing d with
    | nil => exact distinct
    | cons r rest ih => exact ih _ (nodup_put r distinct)
  exact inserted empty List.nodup_nil

theorem put_of_find {records : List Record} (distinct : (records.map Record.id).Nodup)
    {p : Presence} {r : Record} (found : records.find? (fun r => r.id == p.device) = some r) :
    put { r with isOnline := p.online } records = records.map p.mark := by
  induction records with
  | nil => simp at found
  | cons first rest ih =>
    rw [List.map_cons, List.nodup_cons] at distinct
    by_cases same : first.id = p.device
    · obtain rfl : first = r := by simpa [same] using found
      have others : rest.map p.mark = rest := by
        refine map_mark_of_absent fun other member again => ?_
        exact distinct.1 (List.mem_map.mpr ⟨other, member, again.trans same.symm⟩)
      simp [put, Presence.mark, same, others]
    · have later : rest.find? (fun r => r.id == p.device) = some r := by simpa [same] using found
      have named : r.id = p.device := by simpa using List.find?_some later
      have apart : first.id ≠ r.id := fun again => same (again.trans named)
      simp [put, apart, Presence.mark, same, ih distinct.2 later]

end Directory

namespace World

variable {w : World}

@[simp] theorem hub_note (w : World) (p : Presence) : (w.note p).hub = w.hub := by
  unfold note
  split
  · rfl
  · split <;> rfl

@[simp] theorem directoryFails_note (w : World) (p : Presence) :
    (w.note p).directoryFails = w.directoryFails := by
  unfold note
  split
  · rfl
  · split <;> rfl

theorem records_note (works : w.directoryFails = false)
    (distinct : (w.directory.records.map Record.id).Nodup) (p : Presence) :
    (w.note p).directory.records = w.directory.records.map p.mark := by
  unfold note
  rw [if_neg (by simp [works])]
  unfold Directory.setOnline Directory.find?
  cases found : w.directory.records.find? fun r => r.id == p.device with
  | some r => exact Directory.put_of_find distinct found
  | none =>
    exact (map_mark_of_absent fun r member => by
      simpa using List.find?_eq_none.mp found r member).symm

inductive Act where
  | hub (s : Hub.Step)
  | tell (place : Nat)
  deriving DecidableEq, Repr

/-- The directory is told of a device in the order in which it was reported. -/
def permits (w : World) : Act → Bool
  | .hub _ => true
  | .tell place => (w.hub.pending[place]?).any fun p =>
    (w.hub.pending.take place).all fun q => q.device != p.device

def act (w : World) (a : Act) : World :=
  if w.permits a then
    match a with
    | .hub s => w.setHub (w.hub.step s)
    | .tell place => w.tell place
  else w

def play (w : World) (acts : List Act) : World := acts.foldl act w

def enrolls (w : World) : Act → Option ConnId
  | .hub s => w.hub.enrolls s
  | .tell _ => none

/-- Everything that was put into the registry during a run, in order. -/
def registrations : World → List Act → List ConnId
  | _, [] => []
  | w, a :: rest => (w.enrolls a).toList ++ registrations (w.act a) rest

/-- The connections of the history are in the registry as they should be, and the directory has been
told everything about their devices but what waits. -/
structure Tracked (records : List Record) (history : List ConnId) (told : List Presence)
    (w : World) : Prop where
  held : Hub.Held history w.hub
  valid : Hub.Consistent w.hub
  reports : w.hub.reports = true
  works : w.directoryFails = false
  followed : Hub.Followed history (told ++ w.hub.pending) w.hub
  noted : w.directory.records = records.map (Record.marked told)

variable {records : List Record} {history : List ConnId} {told : List Presence}

theorem Tracked.hub (tracked : Tracked records history told w) {s : Hub.Step}
    (inside : s ≠ .closeAll false) (exclusive : Hub.Exclusive w.hub) :
    Tracked records (history ++ (w.hub.enrolls s).toList) told (w.setHub (w.hub.step s)) where
  held := tracked.held.step s
  valid := tracked.valid.step s
  reports := (Hub.reported_step w.hub s).reports.trans tracked.reports
  works := tracked.works
  followed := by
    have pending : (w.hub.step s).pending = w.hub.pending ++ w.hub.news s := by
      rw [(Hub.reported_step w.hub s).pending, if_pos tracked.reports]
    change Hub.Followed _ (told ++ (w.hub.step s).pending) (w.hub.step s)
    rw [pending, ← List.append_assoc]
    exact tracked.followed.step tracked.held tracked.valid exclusive inside
  noted := tracked.noted

/-- Whatever comes first of its device may be told first. -/
theorem latest_eraseIdx {pending : List Presence} {place : Nat} {p : Presence}
    (found : pending[place]? = some p) (first : ∀ q ∈ pending.take place, q.device ≠ p.device)
    (told : List Presence) (device : Uuid) :
    Presence.latest device (told ++ [p] ++ pending.eraseIdx place) =
      Presence.latest device (told ++ pending) := by
  obtain ⟨bound, here⟩ := List.getElem?_eq_some_iff.mp found
  have split : pending = pending.take place ++ p :: pending.drop (place + 1) := by
    rw [← here, ← List.drop_eq_getElem_cons bound, List.take_append_drop]
  unfold Presence.latest
  congr 2
  rw [List.eraseIdx_eq_take_drop_succ]
  conv => rhs; rw [split]
  by_cases same : p.device = device
  · have nothing : (pending.take place).filter (fun q => q.device == device) = [] := by
      apply List.filter_eq_nil_iff.mpr
      intro q member
      simpa [← same] using first q member
    simp [List.filter_append, nothing, same]
  · simp [List.filter_append, same]

theorem Tracked.tell (distinct : (records.map Record.id).Nodup)
    (tracked : Tracked records history told w) {place : Nat}
    (permitted : w.permits (.tell place) = true) :
    ∃ p, Tracked records history (told ++ [p]) (w.tell place) := by
  obtain ⟨p, found, first⟩ := (Option.any_eq_true _ _).mp permitted
  have taken : w.tell place =
      (w.setHub { w.hub with pending := w.hub.pending.eraseIdx place }).note p := by
    simp only [World.tell, found]
  let h : Hub := { w.hub with pending := w.hub.pending.eraseIdx place }
  have hub : (w.tell place).hub = h := by rw [taken, hub_note]; rfl
  have aged : Hub.Ages w.hub h := fun _ c found => ⟨c, found, .refl c⟩
  refine ⟨p, ?_, ?_, ?_, ?_, ?_, ?_⟩
  · rw [hub]
    exact tracked.held.of_ages aged rfl
  · rw [hub]
    exact tracked.valid.of_ages aged rfl
  · rw [hub]
    exact tracked.reports
  · rw [taken, directoryFails_note]
    exact tracked.works
  · rw [hub]
    have last := latest_eraseIdx found (by simpa using first) told
    exact ⟨fun id member c there => (last c.device).trans (tracked.followed.right id member c there),
      fun device unused => (last device).trans (tracked.followed.silent device unused)⟩
  · have ids : (w.directory.records.map Record.id).Nodup := by
      rw [tracked.noted, List.map_map]
      exact distinct
    rw [taken, records_note (w := w.setHub h) tracked.works ids]
    change w.directory.records.map p.mark = _
    rw [tracked.noted, List.map_map]
    congr 1
    funext r
    exact mark_marked p told r

theorem Tracked.act (distinct : (records.map Record.id).Nodup)
    (tracked : Tracked records history told w) {a : Act} (inside : a ≠ .hub (.closeAll false))
    (exclusive : Hub.Exclusive w.hub) :
    ∃ told', Tracked records (history ++ (w.enrolls a).toList) told' (w.act a) := by
  cases a with
  | hub s => exact ⟨told, tracked.hub (fun drained => inside (by rw [drained])) exclusive⟩
  | tell place =>
    rw [enrolls, Option.toList_none, List.append_nil, World.act]
    split
    · rename_i permitted
      obtain ⟨p, next⟩ := tracked.tell distinct permitted
      exact ⟨_, next⟩
    · exact ⟨told, tracked⟩

theorem ages_act (w : World) (a : Act) : Hub.Ages w.hub (w.act a).hub := by
  cases a with
  | hub s => exact Hub.ages_step w.hub s
  | tell place =>
    unfold World.act World.tell
    split
    · dsimp only
      split
      · rw [hub_note]
        exact fun _ c found => ⟨c, found, .refl c⟩
      · exact .refl _
    · exact .refl _

theorem ages_play (w : World) (acts : List Act) : Hub.Ages w.hub (w.play acts).hub := by
  induction acts generalizing w with
  | nil => exact .refl _
  | cons a rest ih => exact (ages_act w a).trans (ih _)

theorem Tracked.play (distinct : (records.map Record.id).Nodup)
    (tracked : Tracked records history told w) {acts : List Act}
    (inside : .hub (.closeAll false) ∉ acts) (exclusive : Hub.Exclusive (w.play acts).hub) :
    ∃ told', Tracked records (history ++ w.registrations acts) told' (w.play acts) := by
  induction acts generalizing w history told with
  | nil => exact ⟨told, by simpa [registrations, World.play] using tracked⟩
  | cons a rest ih =>
    rw [List.mem_cons, not_or] at inside
    obtain ⟨told', next⟩ := tracked.act distinct (Ne.symm inside.1)
      (exclusive.of_ages (ages_play w (a :: rest)))
    rw [registrations, ← List.append_assoc]
    exact ih next inside.2 exclusive

/-- What becomes of a record when the directory has been told everything. -/
structure Current (history : List ConnId) (h : Hub) (r r' : Record) : Prop where
  others : r' = { r with isOnline := r'.isOnline }
  presence : ∀ id ∈ history, ∀ user, h.hasKey user r.id id = true →
    r'.isOnline = h.isOnline user r.id
  unused : (∀ id ∈ history, ∀ user, h.hasKey user r.id id = false) → r' = r

theorem current_marked {h : Hub} (followed : Hub.Followed history told h) (r : Record) :
    Current history h r (r.marked told) where
  others := rfl
  presence id member user key := by
    obtain ⟨c, found, -⟩ := (Option.any_eq_true _ _).mp key
    obtain ⟨rfl, same⟩ := (Hub.hasKey_iff found user r.id).mp key
    have last := followed.right id member c found
    rw [same] at last
    simp [Record.marked, last]
  unused unused := by
    have nothing : Presence.latest r.id told = none := by
      apply followed.silent
      intro id member c found same
      have key := (Hub.hasKey_iff found c.user r.id).mpr ⟨rfl, same⟩
      simp [unused id member] at key
    simp [Record.marked, nothing]

/-- Reports are told in any order, at any time, but those about one device in the order in which they
were made. When all have been told, each record of a device that was ever registered says whether the
device is online; nothing else has changed, and no record has come or gone. -/
theorem directory_follows_registry (settings : Settings) (records : List Record) (acts : List Act)
    (inside : .hub (.closeAll false) ∉ acts) :
    let start := World.new settings (.ofRecords records) true
    let w := start.play acts
    Hub.Exclusive w.hub → w.hub.pending = [] →
      List.Forall₂ (Current (start.registrations acts) w.hub) start.directory.records
        w.directory.records := by
  intro start w exclusive told_all
  have fresh : Tracked start.directory.records [] [] start :=
    ⟨Hub.held_run true [], Hub.consistent_run true [], rfl, rfl,
      ⟨fun _ member => by simp at member, fun _ _ => rfl⟩, (List.map_id _).symm⟩
  obtain ⟨told, tracked⟩ := fresh.play (Directory.nodup_ofRecords records) inside exclusive
  have followed := tracked.followed
  rw [told_all, List.append_nil] at followed
  rw [tracked.noted, List.forall₂_map_right_iff]
  exact List.forall₂_same.mpr fun r _ => current_marked followed r

/-- A phone is replaced by another of the same identifier, which its late farewell does not touch; a
laptop comes and goes; a tablet is never seen. The laptop's reports overtake the phone's. -/
theorem directory_follows_registry_overtaking :
    let user := Uuid.repeated 0
    let device (digit : Fin 16) : Record :=
      ⟨.repeated digit, user, "", "", "", false, false, false⟩
    let info (digit : Fin 16) := Device.Info.plain (.repeated digit) ""
    let acts : List Act := [.hub (.connect user (.repeated 1) (info 1) 4),
      .hub (.connect user (.repeated 2) (info 2) 4), .hub (.register 0), .hub (.register 1), .tell 1,
      .hub (.connect user (.repeated 1) (info 1) 4), .hub (.register 2), .hub (.unregister 0),
      .hub (.unregister 1), .tell 2, .tell 0, .tell 0]
    let start := World.new .standard (.ofRecords [device 1, device 2, device 3]) true
    let w := start.play acts
    w.hub.pending = [] ∧ ∃ phone laptop tablet, w.directory.records = [phone, laptop, tablet] ∧
      phone.isOnline = true ∧ laptop.isOnline = false ∧ tablet = device 3 := by
  intro user device info acts start w
  have told_all : w.hub.pending = [] := by decide +kernel
  have exclusive : w.hub.Exclusive := by
    unfold Hub.Exclusive
    decide +kernel
  have current := directory_follows_registry .standard [device 1, device 2, device 3] acts
    (by decide +kernel) exclusive told_all
  have began : start.directory.records = [device 1, device 2, device 3] := by decide +kernel
  have history : start.registrations acts = [0, 1, 2] := by decide +kernel
  rw [began, history] at current
  obtain ⟨phone, _, first, others, listed⟩ := List.forall₂_cons_left_iff.mp current
  obtain ⟨laptop, _, second, last, rfl⟩ := List.forall₂_cons_left_iff.mp others
  obtain ⟨tablet, _, third, nothing, rfl⟩ := List.forall₂_cons_left_iff.mp last
  obtain rfl := List.forall₂_nil_left_iff.mp nothing
  have unseen : ∀ id ∈ [0, 1, 2], ∀ owner, w.hub.hasKey owner (device 3).id id = false := by
    have others : ∀ id ∈ [0, 1, 2],
        (w.hub.connection? id).all (fun c => c.device != (device 3).id) = true := by decide +kernel
    intro id member owner
    have other := others id member
    cases found : w.hub.connection? id <;> simp_all [Hub.hasKey]
  refine ⟨told_all, phone, laptop, tablet, ?_, ?_, ?_, third.unused unseen⟩
  · dsimp only [w, start]
    exact listed
  · exact (first.presence 0 (by decide) user (by decide +kernel)).trans (by decide +kernel)
  · exact (second.presence 1 (by decide) user (by decide +kernel)).trans (by decide +kernel)

end World
end SignalHub
