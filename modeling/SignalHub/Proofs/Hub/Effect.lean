import SignalHub.Proofs.Hub.Run

/-! A step arranges the hub and then makes its offers; counters and pending reports apart, nothing
else happens (`step_alike`). An offer changes nothing but the queue that it goes to, which grows by
what it accepts (`connection?_sendAll`). A connection keeps its user, device and description for
good, and what was closed stays closed (`ages_step`). -/
namespace SignalHub

namespace Connection

/-- The connection has been served to the end. -/
def Finished (c : Connection) : Prop := c.phase = .closed ∧ c.senderOpen = false

/-- What a connection keeps for good, and what it can only lose. -/
structure Ages (c c' : Connection) : Prop where
  user : c'.user = c.user
  device : c'.device = c.device
  info : c'.info = c.info
  capacity : c'.capacity = c.capacity
  senderOpen : c'.senderOpen = true → c.senderOpen = true
  receiverOpen : c'.receiverOpen = true → c.receiverOpen = true
  finished : c.Finished → c'.Finished

theorem Ages.refl (c : Connection) : c.Ages c := ⟨rfl, rfl, rfl, rfl, id, id, id⟩

theorem Ages.trans {a b c : Connection} (first : a.Ages b) (second : b.Ages c) : a.Ages c :=
  ⟨second.user.trans first.user, second.device.trans first.device, second.info.trans first.info,
    second.capacity.trans first.capacity, first.senderOpen ∘ second.senderOpen,
    first.receiverOpen ∘ second.receiverOpen, second.finished ∘ first.finished⟩

theorem ages_offer (c : Connection) (o : Outbound) : c.Ages (c.offer o) := by
  unfold offer
  split
  · exact ⟨rfl, rfl, rfl, rfl, id, id, id⟩
  · exact .refl c

theorem ages_close (c : Connection) : c.Ages c.close := by
  unfold close
  split <;> constructor <;> simp_all [Finished]

theorem ages_markRegistered (c : Connection) : c.Ages c.markRegistered := by
  unfold markRegistered
  split
  · rename_i early
    exact ⟨rfl, rfl, rfl, rfl, id, id, fun finished => absurd (early.symm.trans finished.1) (by simp)⟩
  · exact .refl c

theorem ages_markActive (c : Connection) : c.Ages c.markActive := by
  unfold markActive
  split
  · rename_i early
    exact ⟨rfl, rfl, rfl, rfl, id, id, fun finished => absurd (early.symm.trans finished.1) (by simp)⟩
  · exact .refl c

theorem ages_markClosed (c : Connection) : c.Ages c.markClosed :=
  ⟨rfl, rfl, rfl, rfl, by simp [markClosed], id, fun _ => ⟨rfl, rfl⟩⟩

theorem ages_dropReceiver (c : Connection) : c.Ages c.dropReceiver :=
  ⟨rfl, rfl, rfl, rfl, id, by simp [dropReceiver], id⟩

theorem ages_dropFirst (c : Connection) : c.Ages c.dropFirst := ⟨rfl, rfl, rfl, rfl, id, id, id⟩

@[simp] theorem senderOpen_close (c : Connection) : c.close.senderOpen = false := by
  cases h : c.senderOpen <;> simp [close, h]

@[simp] theorem close_close (c : Connection) : c.close.close = c.close := by
  cases h : c.senderOpen <;> simp [close, h]

@[simp] theorem queue_close (c : Connection) : c.close.queue = c.queue := by
  unfold close
  split <;> rfl

@[simp] theorem queue_markRegistered (c : Connection) : c.markRegistered.queue = c.queue := by
  unfold markRegistered
  split <;> rfl

@[simp] theorem verdict_markRegistered (c : Connection) : c.markRegistered.verdict = c.verdict := by
  unfold markRegistered
  split <;> rfl

@[simp] theorem verdict_close (c : Connection) : c.close.verdict = .closed := by simp [verdict]

end Connection

namespace Hub

variable {h k : Hub}

@[simp] theorem registry_update (h : Hub) (id : ConnId) (f : Connection → Connection) :
    (h.update id f).registry = h.registry := rfl

theorem connection?_update (h : Hub) (id j : ConnId) (f : Connection → Connection) :
    (h.update id f).connection? j =
      if id = j then (h.connection? j).map f else h.connection? j := by
  by_cases same : id = j
  · subst same
    simp [connection?, update]
  · simp [connection?, update, same]

/-- Equal but for the counters and the reports that wait. -/
structure Alike (h k : Hub) : Prop where
  connections : h.connections = k.connections
  registry : h.registry = k.registry
  stopping : h.stopping = k.stopping
  alive : h.alive = k.alive

theorem Alike.refl (h : Hub) : Alike h h := ⟨rfl, rfl, rfl, rfl⟩

theorem Alike.trans {a b c : Hub} (first : Alike a b) (second : Alike b c) : Alike a c :=
  ⟨first.connections.trans second.connections, first.registry.trans second.registry,
    first.stopping.trans second.stopping, first.alive.trans second.alive⟩

theorem Alike.connection? (same : Alike h k) (id : ConnId) :
    h.connection? id = k.connection? id := by
  rw [Hub.connection?, Hub.connection?, same.connections]

theorem Alike.send (same : Alike h k) (id : ConnId) (o : Outbound) :
    Alike (h.send id o) (k.send id o) :=
  ⟨by simp [Hub.send, update, same.connections], same.registry, same.stopping, same.alive⟩

theorem Alike.sendAll (same : Alike h k) (offers : Offers) :
    Alike (h.sendAll offers) (k.sendAll offers) := by
  induction offers generalizing h k with
  | nil => exact same
  | cons p rest ih => exact ih (same.send p.1 p.2)

/-- An offer that is refused leaves the hub as it was, so every delivery is a sending. -/
theorem send_of_refused (h : Hub) (id : ConnId) (o : Outbound) (refused : h.verdict id ≠ .queued) :
    (h.send id o).connections = h.connections := by
  apply List.ext_getElem?
  intro j
  change (h.send id o).connection? j = h.connection? j
  rw [send, connection?_update]
  split
  · rename_i same
    subst same
    unfold verdict at refused
    cases found : h.connection? id with
    | none => rfl
    | some c =>
      simp only [found] at refused
      simp only [Option.map_some, Connection.offer]
  · rfl

theorem deliver_alike (h : Hub) (id : ConnId) (m : Message) :
    Alike (h.deliver id m).1 (h.send id (.message m)) := by
  unfold deliver
  split
  · exact .refl _
  · rename_i full
    exact ⟨(send_of_refused h id _ (by simp [full])).symm, rfl, rfl, rfl⟩
  · rename_i closed
    exact ⟨(send_of_refused h id _ (by simp [closed])).symm, rfl, rfl, rfl⟩

theorem deliverAll_alike (h : Hub) (ids : List ConnId) (m : Message) :
    Alike (h.deliverAll ids m).1 (h.sendAll (.ofMessage ids m)) := by
  induction ids generalizing h with
  | nil => exact .refl h
  | cons id rest ih => exact (ih _).trans ((deliver_alike h id m).sendAll _)

theorem broadcastVia_alike (h : Hub) (weak : Bool) (user : Uuid) (exclude : Option Uuid)
    (m : Message) :
    Alike (h.broadcastVia weak user exclude m).1
      (h.sendAll (h.broadcastOffers weak user exclude m)) := by
  cases weak <;> cases alive : h.alive <;>
    simp only [broadcastVia, broadcastWeak, broadcastOffers, alive, Bool.and_false, Bool.and_true,
      Bool.not_false, Bool.not_true, Bool.false_eq_true, ↓reduceIte]
  all_goals first
    | exact deliverAll_alike h _ m
    | exact .refl h

theorem forward_alike (h : Hub) (user target : Uuid) (m : Message) :
    Alike (h.forward user target m).1 (h.sendAll (h.forwardOffers false user target m)) := by
  unfold forward
  cases found : h.registry.lookup user target with
  | none =>
    simp only [forwardOffers, found, Bool.false_and, Bool.false_eq_true, ↓reduceIte]
    exact ⟨rfl, rfl, rfl, rfl⟩
  | some id =>
    have once := deliver_alike h id m
    simp only [forwardOffers, found, Bool.false_and, Bool.false_eq_true, ↓reduceIte]
    split
    · rename_i k delivered
      rw [delivered] at once
      exact ⟨once.connections, once.registry, once.stopping, once.alive⟩
    · rename_i k delivered
      rw [delivered] at once
      exact once

theorem forwardVia_alike (h : Hub) (weak : Bool) (user target : Uuid) (m : Message) :
    Alike (h.forwardVia weak user target m).1 (h.sendAll (h.forwardOffers weak user target m)) := by
  cases weak with
  | false => exact forward_alike h user target m
  | true =>
    cases alive : h.alive with
    | false =>
      simp only [forwardVia, forwardWeak, forwardOffers, alive, Bool.not_false, Bool.and_self,
        Bool.false_eq_true, ↓reduceIte]
      exact .refl h
    | true =>
      have direct := forward_alike h user target m
      simpa [forwardVia, forwardWeak, forwardOffers, alive] using direct

theorem report_alike (h : Hub) (device : Uuid) (online : Bool) :
    Alike (h.report device online) h := by
  unfold report
  split
  · exact ⟨rfl, rfl, rfl, rfl⟩
  · exact .refl h

theorem broadcast_alike (h : Hub) (user : Uuid) (exclude : Option Uuid) (m : Message) :
    Alike (h.broadcast user exclude m).1 (h.sendAll (h.broadcastOffers false user exclude m)) :=
  broadcastVia_alike h false user exclude m

theorem Alike.broadcastOffers (same : Alike h k) (weak : Bool) (user : Uuid) (exclude : Option Uuid)
    (m : Message) :
    h.broadcastOffers weak user exclude m = k.broadcastOffers weak user exclude m := by
  simp [Hub.broadcastOffers, audience, same.registry, same.alive]

theorem register_alike (h : Hub) (id : ConnId) :
    Alike (h.register id) ((h.arrangeRegister id).sendAll (h.registerOffers id)) := by
  unfold register arrangeRegister registerOffers
  cases h.connection? id with
  | none => exact .refl h
  | some c =>
    let k := h.enroll id c
    let list := Message.deviceList (k.onlineDevices c.user)
    have listed : Alike (k.deliver id list).1 (k.send id (.message list)) := deliver_alike k id list
    have told := broadcast_alike (k.deliver id list).1 c.user (some c.device) (.deviceOnline c.info)
    rw [listed.broadcastOffers] at told
    exact ((report_alike _ c.device true).trans told).trans (listed.sendAll _)

theorem unregister_alike (h : Hub) (id : ConnId) :
    Alike (h.unregister id).1 ((h.arrangeUnregister id).sendAll (h.unregisterOffers id)) := by
  unfold unregister arrangeUnregister unregisterOffers
  cases h.connection? id with
  | none => exact .refl h
  | some c =>
    dsimp only
    split
    · exact (report_alike _ c.device false).trans (broadcast_alike (h.withdraw id c) ..)
    · exact .refl h

theorem handleText_alike (h : Hub) (id : ConnId) (raw : String) :
    Alike (h.handleText id raw)
      ((h.update id Connection.markActive).sendAll (h.textOffers id raw)) := by
  unfold handleText textOffers
  dsimp only
  rw [connection?_update, if_pos rfl]
  cases h.connection? id with
  | none => exact .refl _
  | some c =>
    have aged := c.ages_markActive
    simp only [Option.map_some, aged.user, aged.device]
    cases Inbound.decode raw with
    | error refusal => exact .refl _
    | ok frame =>
      cases frame with
      | ping => exact .refl _
      | relay r => exact forwardVia_alike (h.update id Connection.markActive) true ..

/-- Counters and waiting reports apart, a step arranges the hub and makes its offers. -/
theorem step_alike (h : Hub) (s : Step) :
    Alike (h.step s) ((h.arrange s).sendAll (h.offers s)) := by
  cases s with
  | register id => exact register_alike h id
  | unregister id => exact unregister_alike h id
  | join id =>
    simp only [step, join, arrange, offers]
    split
    · exact register_alike h id
    · exact .refl h
  | leave id =>
    simp only [step, leave, arrange, offers]
    split
    · exact unregister_alike h id
    · exact .refl h
  | text id raw => exact handleText_alike h id raw
  | forward weak user target m => exact forwardVia_alike h weak user target m
  | broadcast weak user exclude m => exact broadcastVia_alike h weak user exclude m
  | streamStart user start => exact broadcast_alike h user none (.streamStart start)
  | streamEnd user stream => exact broadcast_alike h user none (.streamEnd stream)
  | connect | send | close | receive | dropReceiver | finish | halt | release | closeAll =>
    exact .refl _

@[simp] theorem registry_sendAll (h : Hub) (offers : Offers) :
    (h.sendAll offers).registry = h.registry := by
  induction offers generalizing h with
  | nil => rfl
  | cons p rest ih => exact ih _

@[simp] theorem stopping_sendAll (h : Hub) (offers : Offers) :
    (h.sendAll offers).stopping = h.stopping := by
  induction offers generalizing h with
  | nil => rfl
  | cons p rest ih => exact ih _

@[simp] theorem alive_sendAll (h : Hub) (offers : Offers) :
    (h.sendAll offers).alive = h.alive := by
  induction offers generalizing h with
  | nil => rfl
  | cons p rest ih => exact ih _

theorem registry_step (h : Hub) (s : Step) : (h.step s).registry = (h.arrange s).registry := by
  rw [(step_alike h s).registry, registry_sendAll]

theorem connection?_step (h : Hub) (s : Step) (id : ConnId) :
    (h.step s).connection? id = ((h.arrange s).sendAll (h.offers s)).connection? id :=
  (step_alike h s).connection? id

theorem connection?_send (h : Hub) (id j : ConnId) (o : Outbound) :
    (h.send id o).connection? j =
      if id = j then (h.connection? j).map (·.offer o) else h.connection? j :=
  connection?_update h id j _

theorem accepted_append (id : ConnId) (first rest : List Attempt) :
    accepted id (first ++ rest) = accepted id first ++ accepted id rest := by
  simp [accepted]

/-- A queue takes what is accepted of the offers to it, and an offer changes nothing else. -/
theorem connection?_sendAll (h : Hub) (offers : Offers) (id : ConnId) :
    (h.sendAll offers).connection? id =
      (h.connection? id).map fun c =>
        { c with queue := c.queue ++ accepted id (h.trials offers) } := by
  induction offers generalizing h with
  | nil => cases found : h.connection? id <;> simp [sendAll, trials, accepted, found]
  | cons p rest ih =>
    obtain ⟨target, o⟩ := p
    change ((h.send target o).sendAll rest).connection? id = _
    rw [ih, connection?_send]
    by_cases same : target = id
    · subst same
      cases found : h.connection? target with
      | none => simp
      | some c =>
        have verdict : h.verdict target = c.verdict := by simp [Hub.verdict, found]
        cases taken : c.verdict <;> simp [accepted, trials, verdict, taken, Connection.offer]
    · simp [same, accepted, trials]

theorem Alike.verdict (same : Alike h k) (id : ConnId) : h.verdict id = k.verdict id := by
  rw [Hub.verdict, Hub.verdict, same.connection?]

theorem Alike.trials (same : Alike h k) (offers : Offers) : h.trials offers = k.trials offers := by
  induction offers generalizing h k with
  | nil => rfl
  | cons p rest ih => rw [Hub.trials, Hub.trials, same.verdict, ih (same.send p.1 p.2)]

theorem deliver_snd (h : Hub) (id : ConnId) (m : Message) :
    (h.deliver id m).2 = (h.verdict id == .queued) := by
  unfold deliver
  split <;> simp_all

/-- What is counted is how many of the offers were taken. -/
theorem deliverAll_snd (h : Hub) (ids : List ConnId) (m : Message) :
    (h.deliverAll ids m).2 =
      (h.trials (.ofMessage ids m)).countP fun a => a.verdict == .queued := by
  induction ids generalizing h with
  | nil => rfl
  | cons id rest ih =>
    have more := ih (h.deliver id m).1
    rw [(deliver_alike h id m).trials] at more
    have first := deliver_snd h id m
    change (if (h.deliver id m).2 then 1 else 0) + ((h.deliver id m).1.deliverAll rest m).2 = _
    have tried : h.trials (.ofMessage (id :: rest) m) =
        Attempt.mk id (.message m) (h.verdict id) ::
          (h.send id (.message m)).trials (.ofMessage rest m) := rfl
    rw [more, first, tried, List.countP_cons, Nat.add_comm]

theorem broadcastVia_snd (h : Hub) (weak : Bool) (user : Uuid) (exclude : Option Uuid)
    (m : Message) :
    (h.broadcastVia weak user exclude m).2 =
      (h.trials (h.broadcastOffers weak user exclude m)).countP fun a => a.verdict == .queued := by
  have counted : (h.broadcast user exclude m).2 =
      (h.trials (.ofMessage (h.audience user exclude) m)).countP fun a => a.verdict == .queued :=
    deliverAll_snd h (h.audience user exclude) m
  cases weak with
  | false => exact counted
  | true =>
    cases alive : h.alive with
    | false => simp [broadcastVia, broadcastWeak, broadcastOffers, alive, trials]
    | true => simpa [broadcastVia, broadcastWeak, broadcastOffers, alive] using counted

theorem forwardVia_snd (h : Hub) (weak : Bool) (user target : Uuid) (m : Message) :
    (h.forwardVia weak user target m).2 =
      (h.trials (h.forwardOffers weak user target m)).any fun a => a.verdict == .queued := by
  have direct : (h.forward user target m).2 =
      (h.trials (h.forwardOffers false user target m)).any fun a => a.verdict == .queued := by
    unfold forward
    cases found : h.registry.lookup user target with
    | none => simp [forwardOffers, found, Offers.ofMessage, trials]
    | some id =>
      have taken := deliver_snd h id m
      simp only [forwardOffers, found, Offers.ofMessage, Option.toList_some, List.map_cons,
        List.map_nil, Bool.false_and, Bool.false_eq_true, ↓reduceIte, trials, List.any_cons,
        List.any_nil, Bool.or_false, ← taken]
      split <;> simp_all
  cases weak with
  | false => exact direct
  | true =>
    cases alive : h.alive with
    | false => simp [forwardVia, forwardWeak, forwardOffers, alive, trials]
    | true => simpa [forwardVia, forwardWeak, forwardOffers, alive] using direct

theorem mem_trials {h : Hub} {offers : Offers} {a : Attempt} (member : a ∈ h.trials offers) :
    (a.conn, a.item) ∈ offers := by
  induction offers generalizing h with
  | nil => simp [trials] at member
  | cons p rest ih =>
    rcases List.mem_cons.mp member with rfl | later
    · exact List.mem_cons_self
    · exact List.mem_cons_of_mem p (ih later)

theorem accepted_of_not_mem (h : Hub) (offers : Offers) (id : ConnId)
    (untouched : id ∉ offers.map Prod.fst) : accepted id (h.trials offers) = [] := by
  simp only [accepted, List.map_eq_nil_iff, List.filter_eq_nil_iff]
  intro a member
  have offered := mem_trials member
  have other : a.conn ≠ id := by
    rintro rfl
    exact untouched (List.mem_map.mpr ⟨_, offered, rfl⟩)
  simp [other]

theorem mem_ofMessage {ids : List ConnId} {m : Message} {p : ConnId × Outbound} :
    p ∈ Offers.ofMessage ids m ↔ p.1 ∈ ids ∧ p.2 = .message m := by
  constructor
  · intro member
    obtain ⟨id, inside, rfl⟩ := List.mem_map.mp member
    exact ⟨inside, rfl⟩
  · rintro ⟨inside, told⟩
    exact List.mem_map.mpr ⟨p.1, inside, by rw [← told]⟩

theorem of_mem_forwardOffers {weak : Bool} {user target : Uuid} {m : Message}
    {p : ConnId × Outbound} (offer : p ∈ h.forwardOffers weak user target m) :
    h.registry.lookup user target = some p.1 ∧ p.2 = .message m := by
  unfold forwardOffers at offer
  split at offer
  · simp at offer
  · simpa [mem_ofMessage] using offer

theorem of_mem_broadcastOffers {weak : Bool} {user : Uuid} {exclude : Option Uuid} {m : Message}
    {p : ConnId × Outbound} (offer : p ∈ h.broadcastOffers weak user exclude m) :
    p.1 ∈ h.audience user exclude ∧ p.2 = .message m := by
  unfold broadcastOffers at offer
  split at offer
  · simp at offer
  · exact mem_ofMessage.mp offer

/-- A text frame is answered to the client itself, or relayed to a device of its user. -/
theorem of_mem_textOffers {id : ConnId} {raw : String} {p : ConnId × Outbound}
    (offer : p ∈ h.textOffers id raw) :
    ∃ c, h.connection? id = some c ∧
      ((p.1 = id ∧ (p.2 = .message .reply ∨ ∃ report, p.2 = .message (.error report))) ∨
        ∃ target r, h.registry.lookup c.user target = some p.1 ∧ p.2 = .message (.relay r)) := by
  unfold textOffers at offer
  cases found : h.connection? id with
  | none => simp [found] at offer
  | some c =>
    rw [found] at offer
    refine ⟨c, rfl, ?_⟩
    dsimp only at offer
    split at offer
    · exact .inl (by simp [List.mem_singleton.mp offer])
    · exact .inr ⟨_, _, of_mem_forwardOffers offer⟩
    · exact .inl (by simp [List.mem_singleton.mp offer])

@[simp] theorem registry_supersede (h : Hub) (user device : Uuid) :
    (h.supersede user device).registry = h.registry := by
  unfold supersede
  split <;> rfl

theorem connection?_supersede (h : Hub) (user device : Uuid) (j : ConnId) :
    (h.supersede user device).connection? j =
      if h.registry.lookup user device = some j then (h.connection? j).map Connection.close
      else h.connection? j := by
  unfold supersede
  cases h.registry.lookup user device with
  | none => simp
  | some old =>
    simp only [Option.some.injEq]
    exact connection?_update h old j Connection.close

theorem registry_enroll (h : Hub) (id : ConnId) (c : Connection) :
    (h.enroll id c).registry = h.registry.enroll c.user c.device id := by
  simp [enroll]

/-- Whoever was registered for the device is closed, the newcomer itself included. -/
theorem connection?_enroll (h : Hub) (id j : ConnId) (c : Connection) :
    (h.enroll id c).connection? j =
      ((if h.registry.lookup c.user c.device = some j then (h.connection? j).map Connection.close
        else h.connection? j).map fun x => if id = j then x.markRegistered else x) := by
  have marked := connection?_update (h.supersede c.user c.device) id j Connection.markRegistered
  rw [connection?_supersede] at marked
  change ((h.supersede c.user c.device).update id _).connection? j = _
  rw [marked]
  by_cases same : id = j <;> simp [same]

theorem registry_withdraw (h : Hub) (id : ConnId) (c : Connection) :
    (h.withdraw id c).registry = h.registry.expel c.user c.device := rfl

theorem connection?_withdraw (h : Hub) (id j : ConnId) (c : Connection) :
    (h.withdraw id c).connection? j =
      if id = j then (h.connection? j).map Connection.close else h.connection? j :=
  connection?_update h id j _

theorem connection?_drain (inside : Bool) (h : Hub) (id j : ConnId) :
    (drain inside h id).connection? j =
      if id = j then (h.connection? j).map Connection.close else h.connection? j := by
  unfold drain
  cases found : h.connection? id with
  | none =>
    by_cases same : id = j
    · subst same
      simp [found]
    · simp [same]
  | some c =>
    have closed := connection?_update h id j Connection.close
    dsimp only
    split
    · exact ((report_alike _ c.device false).connection? j).trans closed
    · exact closed

theorem connection?_foldl_drain (inside : Bool) (ids : List ConnId) (h : Hub) (j : ConnId) :
    (ids.foldl (drain inside) h).connection? j =
      if j ∈ ids then (h.connection? j).map Connection.close else h.connection? j := by
  induction ids generalizing h with
  | nil => simp
  | cons id rest ih =>
    rw [List.foldl_cons, ih, connection?_drain]
    by_cases same : id = j
    · subst same
      by_cases again : id ∈ rest <;> simp [again, Function.comp_def]
    · simp [same, Ne.symm same]

theorem drain_frame (inside : Bool) (h : Hub) (id : ConnId) :
    (drain inside h id).registry = h.registry ∧ (drain inside h id).stopping = h.stopping ∧
      (drain inside h id).alive = h.alive := by
  unfold drain
  split
  · exact ⟨rfl, rfl, rfl⟩
  · rename_i c found
    dsimp only
    split
    · have same := report_alike (h.update id Connection.close) c.device false
      exact ⟨same.registry, same.stopping, same.alive⟩
    · exact ⟨rfl, rfl, rfl⟩

theorem foldl_drain_frame (inside : Bool) (ids : List ConnId) (h : Hub) :
    (ids.foldl (drain inside) h).registry = h.registry ∧
      (ids.foldl (drain inside) h).stopping = h.stopping ∧
      (ids.foldl (drain inside) h).alive = h.alive := by
  induction ids generalizing h with
  | nil => exact ⟨rfl, rfl, rfl⟩
  | cons id rest ih =>
    obtain ⟨registry, stopping, alive⟩ := drain_frame inside h id
    obtain ⟨restRegistry, restStopping, restAlive⟩ := ih (drain inside h id)
    exact ⟨restRegistry.trans registry, restStopping.trans stopping, restAlive.trans alive⟩

theorem registry_closeAll (h : Hub) (inside : Bool) : (h.closeAll inside).1.registry = [] :=
  (foldl_drain_frame inside h.registry.connections { h with registry := [] }).1

theorem stopping_closeAll (h : Hub) (inside : Bool) : (h.closeAll inside).1.stopping = h.stopping :=
  (foldl_drain_frame inside h.registry.connections { h with registry := [] }).2.1

theorem alive_closeAll (h : Hub) (inside : Bool) : (h.closeAll inside).1.alive = h.alive :=
  (foldl_drain_frame inside h.registry.connections { h with registry := [] }).2.2

theorem connection?_closeAll (h : Hub) (inside : Bool) (j : ConnId) :
    (h.closeAll inside).1.connection? j =
      if j ∈ h.registry.connections then (h.connection? j).map Connection.close
      else h.connection? j :=
  connection?_foldl_drain inside h.registry.connections { h with registry := [] } j

theorem connection?_add (h : Hub) (c : Connection) (j : ConnId) :
    (h.add c).1.connection? j =
      if j = h.connections.length then some c else h.connection? j := by
  simp only [connection?, add]
  rcases Nat.lt_trichotomy j h.connections.length with less | same | more
  · rw [List.getElem?_append_left less, if_neg (Nat.ne_of_lt less)]
  · simp [same]
  · rw [List.getElem?_eq_none (by simp; omega), List.getElem?_eq_none (by omega),
      if_neg (Nat.ne_of_gt more)]

/-- Every connection is still there, and has only aged. -/
def Ages (h k : Hub) : Prop :=
  ∀ id c, h.connection? id = some c → ∃ c', k.connection? id = some c' ∧ c.Ages c'

theorem Ages.refl (h : Hub) : Ages h h := fun _ c found => ⟨c, found, .refl c⟩

theorem Ages.trans {a b c : Hub} (first : Ages a b) (second : Ages b c) : Ages a c := by
  intro id x found
  obtain ⟨y, foundY, xy⟩ := first id x found
  obtain ⟨z, foundZ, yz⟩ := second id y foundY
  exact ⟨z, foundZ, xy.trans yz⟩

theorem Ages.known {id : ConnId} (aged : Ages h k)
    (known : (h.connection? id).isSome = true) : (k.connection? id).isSome = true := by
  obtain ⟨c, found⟩ := Option.isSome_iff_exists.mp known
  obtain ⟨c', found', -⟩ := aged id c found
  exact Option.isSome_iff_exists.mpr ⟨c', found'⟩

theorem ages_of_map (f : ConnId → Connection → Connection)
    (effect : ∀ id, k.connection? id = (h.connection? id).map (f id))
    (aging : ∀ id (c : Connection), c.Ages (f id c)) : Ages h k := by
  intro id c found
  exact ⟨f id c, by rw [effect, found, Option.map_some], aging id c⟩

theorem ages_of_ite (p : ConnId → Prop) [DecidablePred p] (f : Connection → Connection)
    (effect : ∀ id, k.connection? id = if p id then (h.connection? id).map f else h.connection? id)
    (aging : ∀ c : Connection, c.Ages (f c)) : Ages h k := by
  apply ages_of_map fun id c => if p id then f c else c
  · intro id
    rw [effect]
    split <;> simp
  · intro id c
    split
    · exact aging c
    · exact .refl c

theorem ages_update (h : Hub) (id : ConnId) {f : Connection → Connection}
    (aging : ∀ c : Connection, c.Ages (f c)) : Ages h (h.update id f) :=
  ages_of_ite (id = ·) f (fun j => connection?_update h id j f) aging

theorem ages_enroll (h : Hub) (id : ConnId) (c : Connection) : Ages h (h.enroll id c) :=
  have superseded : Ages h (h.supersede c.user c.device) :=
    ages_of_ite _ Connection.close (connection?_supersede h c.user c.device) Connection.ages_close
  superseded.trans (ages_update _ id Connection.ages_markRegistered)

theorem ages_withdraw (h : Hub) (id : ConnId) (c : Connection) : Ages h (h.withdraw id c) :=
  ages_update h id Connection.ages_close

theorem ages_arrange (h : Hub) (s : Step) : Ages h (h.arrange s) := by
  have registered (id) : Ages h (h.arrangeRegister id) := by
    unfold arrangeRegister
    split
    · exact .refl h
    · exact ages_enroll h id _
  have unregistered (id) : Ages h (h.arrangeUnregister id) := by
    unfold arrangeUnregister
    split
    · exact .refl h
    split
    · exact ages_withdraw h id _
    · exact .refl h
  cases s with
  | register id => exact registered id
  | unregister id => exact unregistered id
  | join id =>
    simp only [arrange]
    split
    · exact registered id
    · exact .refl h
  | leave id =>
    simp only [arrange]
    split
    · exact unregistered id
    · exact .refl h
  | text id => exact ages_update h id Connection.ages_markActive
  | close id => exact ages_update h id Connection.ages_close
  | receive id => exact ages_update h id Connection.ages_dropFirst
  | dropReceiver id => exact ages_update h id Connection.ages_dropReceiver
  | finish id => exact ages_update h id Connection.ages_markClosed
  | closeAll inside =>
    exact ages_of_ite _ Connection.close (connection?_closeAll h inside) Connection.ages_close
  | connect user device info capacity =>
    intro id c found
    refine ⟨c, ?_, .refl c⟩
    have bound := (List.getElem?_eq_some_iff.mp found).1
    exact (connection?_add h _ id).trans ((if_neg (Nat.ne_of_lt bound)).trans found)
  | forward | broadcast | streamStart | streamEnd | send => exact .refl h
  | halt | release => exact fun _ c found => ⟨c, found, .refl c⟩

theorem ages_sendAll (h : Hub) (offers : Offers) : Ages h (h.sendAll offers) :=
  ages_of_map _ (connection?_sendAll h offers) fun _ _ => ⟨rfl, rfl, rfl, rfl, id, id, id⟩

theorem ages_arrange_step (h : Hub) (s : Step) : Ages (h.arrange s) (h.step s) := by
  intro id c found
  rw [connection?_step]
  exact ages_sendAll _ _ id c found

theorem ages_step (h : Hub) (s : Step) : Ages h (h.step s) :=
  (ages_arrange h s).trans (ages_arrange_step h s)

theorem ages_run (h : Hub) (steps : List Step) : Ages h (h.run steps) := by
  induction steps generalizing h with
  | nil => exact .refl h
  | cons s rest ih => exact (ages_step h s).trans (ih _)

@[simp] theorem length_update (h : Hub) (id : ConnId) (f : Connection → Connection) :
    (h.update id f).connections.length = h.connections.length := by
  simp [update]

@[simp] theorem length_sendAll (h : Hub) (offers : Offers) :
    (h.sendAll offers).connections.length = h.connections.length := by
  induction offers generalizing h with
  | nil => rfl
  | cons p rest ih => exact (ih (h.send p.1 p.2)).trans (length_update h _ _)

@[simp] theorem length_enroll (h : Hub) (id : ConnId) (c : Connection) :
    (h.enroll id c).connections.length = h.connections.length := by
  have superseded : (h.supersede c.user c.device).connections.length = h.connections.length := by
    unfold supersede
    split
    · exact length_update h _ _
    · rfl
  exact (length_update (h.supersede c.user c.device) _ _).trans superseded

theorem length_drain (inside : Bool) (h : Hub) (id : ConnId) :
    (drain inside h id).connections.length = h.connections.length := by
  unfold drain
  split
  · rfl
  · rename_i c found
    dsimp only
    split
    · rw [(report_alike (h.update id Connection.close) c.device false).connections, length_update]
    · exact length_update h _ _

@[simp] theorem length_closeAll (h : Hub) (inside : Bool) :
    (h.closeAll inside).1.connections.length = h.connections.length := by
  have drained (ids : List ConnId) (k : Hub) :
      (ids.foldl (drain inside) k).connections.length = k.connections.length := by
    induction ids generalizing k with
    | nil => rfl
    | cons id rest ih => exact (ih _).trans (length_drain inside k id)
  exact drained h.registry.connections { h with registry := [] }

theorem length_arrange (h : Hub) (s : Step) :
    (h.arrange s).connections.length = h.connections.length + s.created.length := by
  have registered (id) : (h.arrangeRegister id).connections.length = h.connections.length := by
    unfold arrangeRegister
    split
    · rfl
    · exact length_enroll h id _
  have unregistered (id) : (h.arrangeUnregister id).connections.length = h.connections.length := by
    unfold arrangeUnregister
    split
    · rfl
    split
    · exact length_update h _ _
    · rfl
  cases s with
  | register id => exact registered id
  | unregister id => exact unregistered id
  | join id =>
    simp only [arrange]
    split
    · exact registered id
    · rfl
  | leave id =>
    simp only [arrange]
    split
    · exact unregistered id
    · rfl
  | connect => simp [arrange, step, add, Step.created]
  | text | close | receive | dropReceiver | finish => exact length_update h _ _
  | closeAll inside => exact length_closeAll h inside
  | forward | broadcast | streamStart | streamEnd | send | halt | release => rfl

theorem length_step (h : Hub) (s : Step) :
    (h.step s).connections.length = h.connections.length + s.created.length := by
  rw [(step_alike h s).connections, length_sendAll, length_arrange]

/-- A connection was there before, or has just been made. -/
theorem connection_of_step {h : Hub} {s : Step} {id : ConnId} {c : Connection}
    (found : (h.step s).connection? id = some c) :
    (∃ x, h.connection? id = some x ∧ x.Ages c) ∨ h.connection? id = none ∧ c ∈ s.created := by
  cases before : h.connection? id with
  | some x =>
    obtain ⟨c', found', aged⟩ := ages_step h s id x before
    obtain rfl := Option.some.inj (found.symm.trans found')
    exact .inl ⟨x, rfl, aged⟩
  | none =>
    right
    refine ⟨rfl, ?_⟩
    have within := (List.getElem?_eq_some_iff.mp found).1
    rw [length_step] at within
    have beyond := List.getElem?_eq_none_iff.mp before
    cases s with
    | connect user device info capacity =>
      have added := connection?_add h (.new user device info capacity) id
      rw [if_pos (Nat.le_antisymm (Nat.lt_succ_iff.mp within) beyond)] at added
      obtain rfl := Option.some.inj (added.symm.trans found)
      exact List.mem_singleton_self _
    | _ => exact absurd beyond (Nat.not_le_of_lt within)

end Hub
end SignalHub
