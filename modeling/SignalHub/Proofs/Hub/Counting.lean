import SignalHub.Proofs.Hub.Leave
import SignalHub.Proofs.Hub.Lifecycle

/-! A step moves each counter by the number of times that something has happened in it: connections
that were put into the registry, superseded or taken out, calls to forward that were delivered or
found no target, and offers of the hub that a full queue refused (`counted_step`). What a connection
answers its own client, and what somebody else writes to it, is on no counter
(`dropped_counts_hub_only`). -/
namespace SignalHub

/-- The counters by name. -/
inductive Counters.Entry where
  | registered | superseded | unregistered | forwarded | misses | dropped
  deriving DecidableEq, Repr

def Counters.get (c : Counters) : Entry → UInt64
  | .registered => c.registered
  | .superseded => c.superseded
  | .unregistered => c.unregistered
  | .forwarded => c.forwarded
  | .misses => c.misses
  | .dropped => c.dropped

namespace Hub

open Counters (Entry)

/-- Who makes the offers of a step. -/
inductive Account where
  | hub | connection | caller
  deriving DecidableEq, Repr

/-- A frame that has to be relayed is the hub's affair; every other one its connection answers. -/
def Step.account : Step → Account
  | .send .. => .caller
  | .text _ raw =>
    match Inbound.decode raw with
    | .ok (.relay _) => .hub
    | _ => .connection
  | _ => .hub

/-- What became of the offers of a step, if they are on this account. -/
def attemptsOf (account : Account) (h : Hub) (s : Step) : List Attempt :=
  if s.account = account then h.attempts s else []

/-- How many offers found a full queue. -/
def refusals (attempts : List Attempt) : Nat := attempts.countP fun a => a.verdict == .full

/-- A call to forward a message, with the hub as the call finds it. -/
structure Errand where
  hub : Hub
  user : Uuid
  target : Uuid
  message : Message

/-- The call tells that the message was queued. -/
def Errand.delivered (e : Errand) : Bool := (e.hub.forward e.user e.target e.message).2

/-- The target is not registered. -/
def Errand.missed (e : Errand) : Bool := !e.hub.isOnline e.user e.target

/-- A handle that does not keep the hub alive makes no call once the hub is gone. -/
def errandsVia (h : Hub) (weak : Bool) (user target : Uuid) (m : Message) : List Errand :=
  if weak && !h.alive then [] else [⟨h, user, target, m⟩]

/-- The calls to forward that a step makes: its own, or that of the frame it has to relay. -/
def errands (h : Hub) : Step → List Errand
  | .forward weak user target m => h.errandsVia weak user target m
  | .text id raw =>
    let h := h.update id Connection.markActive
    match h.connection? id with
    | none => []
    | some c =>
      match Inbound.decode raw with
      | .ok (.relay r) => h.errandsVia true c.user r.target (.relay (r.sentBy c.device))
      | _ => []
  | _ => []

/-- The connections that a step takes out of the registry by themselves. -/
def withdraws (h : Hub) : Step → List ConnId
  | .unregister id => h.withdrawn id
  | .leave id => if h.admits then h.withdrawn id else []
  | _ => []

/-- By how much each counter moves. -/
abbrev Tally := Entry → Nat

/-- What happens in a step, as far as it is counted. -/
def tally (h : Hub) (s : Step) : Tally
  | .registered => (h.enrolls s).toList.length
  | .superseded => ((h.enrolls s).toList.flatMap h.superseded).length
  | .unregistered => (h.withdraws s).length
  | .forwarded => (h.errands s).countP Errand.delivered
  | .misses => (h.errands s).countP Errand.missed
  | .dropped => refusals (h.attemptsOf .hub s)

namespace Tally

def zero : Tally := fun _ => 0

def plus (t u : Tally) : Tally := fun e => t e + u e

theorem plus_zero (t : Tally) : t.plus .zero = t := rfl

theorem zero_plus (t : Tally) : zero.plus t = t := funext fun _ => Nat.zero_add _

/-- Who came into the registry, who was superseded by it, and who left. -/
def moves (came old left : List ConnId) : Tally
  | .registered => came.length
  | .superseded => old.length
  | .unregistered => left.length
  | _ => 0

/-- Which offers of the hub found a full queue. -/
def drops (attempts : List Attempt) : Tally
  | .dropped => refusals attempts
  | _ => 0

/-- Which calls to forward were delivered, and which found no target. -/
def outcomes (calls : List Errand) : Tally
  | .forwarded => calls.countP Errand.delivered
  | .misses => calls.countP Errand.missed
  | _ => 0

theorem moves_nil : moves [] [] [] = zero := by
  funext e
  cases e <;> rfl

theorem drops_nil : drops [] = zero := by
  funext e
  cases e <;> rfl

theorem outcomes_nil : outcomes [] = zero := by
  funext e
  cases e <;> rfl

theorem drops_append (first rest : List Attempt) :
    drops (first ++ rest) = (drops first).plus (drops rest) := by
  funext e
  cases e with
  | dropped => exact List.countP_append
  | _ => rfl

end Tally

open Tally (moves drops outcomes)

theorem tally_eq (h : Hub) (s : Step) :
    h.tally s = (moves (h.enrolls s).toList ((h.enrolls s).toList.flatMap h.superseded)
      (h.withdraws s)).plus ((drops (h.attemptsOf .hub s)).plus (outcomes (h.errands s))) := by
  funext e
  cases e <;> simp [tally, Tally.plus, moves, drops, outcomes]

/-- The tally of a step that puts nobody into the registry and takes nobody out. -/
theorem tally_of_still {h : Hub} {s : Step} (nobody : h.enrolls s = none)
    (stays : h.withdraws s = []) :
    h.tally s = (drops (h.attemptsOf .hub s)).plus (outcomes (h.errands s)) := by
  rw [tally_eq, nobody, stays, Option.toList_none, List.flatMap_nil, Tally.moves_nil,
    Tally.zero_plus]

/-- From one state to the next, the counters have moved by so much. -/
def Counted (h k : Hub) (tally : Tally) : Prop :=
  ∀ e, k.counters.get e = h.counters.get e + .ofNat (tally e)

variable {h k : Hub}

theorem Counted.nothing (same : k.counters = h.counters) : Counted h k .zero := fun e => by
  rw [same]
  exact (UInt64.add_zero _).symm

theorem Counted.trans {a b c : Hub} {t u : Tally} (first : Counted a b t)
    (second : Counted b c u) : Counted a c (t.plus u) := fun e => by
  rw [second e, first e, Tally.plus, UInt64.ofNat_add, UInt64.add_assoc]

theorem Counted.then_nothing {a b c : Hub} {t : Tally} (first : Counted a b t)
    (same : c.counters = b.counters) : Counted a c t := fun e => by rw [same, first e]

theorem counted_deliver (h : Hub) (id : ConnId) (m : Message) :
    Counted h (h.deliver id m).1 (drops (h.trials [(id, .message m)])) := by
  intro e
  unfold deliver
  cases verdict : h.verdict id <;> cases e <;>
    simp [drops, refusals, trials, verdict, countDrop, send, update, Counters.get]

theorem counted_deliverAll (h : Hub) (ids : List ConnId) (m : Message) :
    Counted h (h.deliverAll ids m).1 (drops (h.trials (.ofMessage ids m))) := by
  induction ids generalizing h with
  | nil =>
    rw [Offers.ofMessage, List.map_nil, trials, Tally.drops_nil]
    exact .nothing rfl
  | cons id rest ih =>
    -- a delivery is a sending, counters apart, so the offers after it fare as they do in `trials`
    have more := ih (h.deliver id m).1
    rw [(deliver_alike h id m).trials] at more
    have split : drops (h.trials (.ofMessage (id :: rest) m)) =
        (drops (h.trials [(id, .message m)])).plus
          (drops ((h.send id (.message m)).trials (.ofMessage rest m))) :=
      Tally.drops_append [⟨id, .message m, h.verdict id⟩] _
    rw [split]
    exact (counted_deliver h id m).trans more

theorem counted_broadcast (h : Hub) (user : Uuid) (exclude : Option Uuid) (m : Message) :
    Counted h (h.broadcast user exclude m).1
      (drops (h.trials (h.broadcastOffers false user exclude m))) :=
  counted_deliverAll h (h.audience user exclude) m

theorem counted_broadcastVia (h : Hub) (weak : Bool) (user : Uuid) (exclude : Option Uuid)
    (m : Message) :
    Counted h (h.broadcastVia weak user exclude m).1
      (drops (h.trials (h.broadcastOffers weak user exclude m))) := by
  cases weak with
  | false => exact counted_broadcast h user exclude m
  | true =>
    cases alive : h.alive with
    | false =>
      simp only [broadcastVia, broadcastWeak, broadcastOffers, alive, Bool.not_false, Bool.and_self,
        Bool.false_eq_true, ↓reduceIte, trials, Tally.drops_nil]
      exact .nothing rfl
    | true =>
      have direct := counted_broadcast h user exclude m
      simpa [broadcastVia, broadcastWeak, broadcastOffers, alive] using direct

theorem counted_forward (h : Hub) (user target : Uuid) (m : Message) :
    Counted h (h.forward user target m).1
      ((drops (h.trials (h.forwardOffers false user target m))).plus
        (outcomes [⟨h, user, target, m⟩])) := by
  cases found : h.registry.lookup user target with
  | none =>
    intro e
    cases e <;>
      simp [forward, forwardOffers, Offers.ofMessage, trials, Tally.plus, drops, outcomes, refusals,
        Errand.delivered, Errand.missed, isOnline, found, countMiss, Counters.get]
  | some id =>
    have offered : h.forwardOffers false user target m = [(id, .message m)] := by
      simp [forwardOffers, Offers.ofMessage, found]
    have made : h.forward user target m =
        (if (h.deliver id m).2 then (h.deliver id m).1.countForward else (h.deliver id m).1,
          (h.deliver id m).2) := by
      unfold forward
      rw [found]
      dsimp only
      split <;> simp_all
    have ended : Counted (h.deliver id m).1 (h.forward user target m).1
        (outcomes [⟨h, user, target, m⟩]) := by
      intro e
      cases queued : (h.deliver id m).2 <;> cases e <;>
        simp [made, queued, outcomes, Errand.delivered, Errand.missed, isOnline, found,
          countForward, Counters.get]
    rw [offered]
    exact (counted_deliver h id m).trans ended

theorem counted_forwardVia (h : Hub) (weak : Bool) (user target : Uuid) (m : Message) :
    Counted h (h.forwardVia weak user target m).1
      ((drops (h.trials (h.forwardOffers weak user target m))).plus
        (outcomes (h.errandsVia weak user target m))) := by
  have direct := counted_forward h user target m
  cases weak with
  | false => exact direct
  | true =>
    cases alive : h.alive with
    | false =>
      have gone : (h.forwardVia true user target m).1 = h := by
        simp [forwardVia, forwardWeak, alive]
      have nothing : (drops (h.trials (h.forwardOffers true user target m))).plus
          (outcomes (h.errandsVia true user target m)) = .zero := by
        simp [forwardOffers, errandsVia, alive, trials, Tally.drops_nil, Tally.outcomes_nil,
          Tally.plus_zero]
      rw [gone, nothing]
      exact .nothing rfl
    | true => simpa [forwardVia, forwardWeak, forwardOffers, errandsVia, alive] using direct

/-- What a step to forward tells its caller is whether its call was delivered. -/
theorem answer_forward (h : Hub) (weak : Bool) (user target : Uuid) (m : Message) :
    h.answer (.forward weak user target m) =
      .flag ((h.errands (.forward weak user target m)).any Errand.delivered) := by
  cases weak <;> cases alive : h.alive <;>
    simp [answer, errands, errandsVia, forwardVia, forwardWeak, alive, Errand.delivered]

theorem counted_enroll (h : Hub) (id : ConnId) (c : Connection) :
    Counted h (h.enroll id c) (moves [id] (h.registry.lookup c.user c.device).toList []) := by
  intro e
  unfold enroll supersede
  cases h.registry.lookup c.user c.device <;> cases e <;> simp [moves, update, Counters.get]

theorem counted_withdraw (h : Hub) (id : ConnId) (c : Connection) :
    Counted h (h.withdraw id c) (moves [] [] [id]) := by
  intro e
  cases e <;> simp [withdraw, moves, update, Counters.get]

/-- A step that offers nothing for the hub and forwards nothing moves no counter. -/
theorem counted_quiet {s : Step} (same : (h.step s).counters = h.counters)
    (nobody : h.enrolls s = none) (stays : h.withdraws s = []) (silent : h.attemptsOf .hub s = [])
    (calls : h.errands s = []) : Counted h (h.step s) (h.tally s) := by
  rw [tally_of_still nobody stays, silent, calls, Tally.drops_nil, Tally.outcomes_nil]
  exact .nothing same

theorem counted_register (h : Hub) (id : ConnId) :
    Counted h (h.step (.register id)) (h.tally (.register id)) := by
  cases found : h.connection? id with
  | none =>
    exact counted_quiet (by simp [step, register, found]) (by simp [enrolls, found]) rfl
      (by simp [attemptsOf, attempts, offers, registerOffers, found, trials]) rfl
  | some c =>
    let k := h.enroll id c
    let list := Message.deviceList (k.onlineDevices c.user)
    let news := Message.deviceOnline c.info
    have told := counted_broadcast (k.deliver id list).1 c.user (some c.device) news
    rw [(deliver_alike k id list).broadcastOffers, (deliver_alike k id list).trials] at told
    have counted := (counted_enroll h id c).trans ((counted_deliver k id list).trans told)
    have made : h.step (.register id) =
        (((k.deliver id list).1.broadcast c.user (some c.device) news).1.report c.device true) := by
      simp [step, register, found, k, list, news]
    have came : h.enrolls (.register id) = some id := by simp [enrolls, found]
    have stays : h.withdraws (.register id) = [] := rfl
    have calls : h.errands (.register id) = [] := rfl
    have old : h.superseded id = (h.registry.lookup c.user c.device).toList := by
      simp [superseded, found]
    have tried : h.attemptsOf .hub (.register id) = k.trials [(id, .message list)] ++
        (k.send id (.message list)).trials
          (k.broadcastOffers false c.user (some c.device) news) := by
      simp [attemptsOf, Step.account, attempts, arrange, arrangeRegister, offers, registerOffers,
        found, trials, k, list, news]
    rw [made, tally_eq, came, Option.toList_some, List.flatMap_singleton, old, stays, tried, calls,
      Tally.outcomes_nil, Tally.plus_zero, Tally.drops_append]
    exact counted.then_nothing (counters_report _ _ _)

theorem counted_unregister (h : Hub) (id : ConnId) :
    Counted h (h.step (.unregister id)) (h.tally (.unregister id)) := by
  have untouched (same : h.step (.unregister id) = h) (nobody : h.withdrawn id = [])
      (silent : h.unregisterOffers id = []) :
      Counted h (h.step (.unregister id)) (h.tally (.unregister id)) :=
    counted_quiet (by rw [same]) rfl nobody
      (by simp [attemptsOf, attempts, offers, silent, trials]) rfl
  cases found : h.connection? id with
  | none =>
    exact untouched (by simp [step, unregister, found]) (by simp [withdrawn, found])
      (by simp [unregisterOffers, found])
  | some c =>
    by_cases current : h.registry.lookup c.user c.device = some id
    · let k := h.withdraw id c
      let news := Message.deviceOffline c.device
      have counted := (counted_withdraw h id c).trans
        (counted_broadcast k c.user (some c.device) news)
      have made : h.step (.unregister id) =
          (k.broadcast c.user (some c.device) news).1.report c.device false := by
        simp [step, unregister, found, current, k, news]
      have nobody : h.enrolls (.unregister id) = none := rfl
      have left : h.withdraws (.unregister id) = [id] := by
        simp [withdraws, withdrawn, found, current]
      have calls : h.errands (.unregister id) = [] := rfl
      have tried : h.attemptsOf .hub (.unregister id) =
          k.trials (k.broadcastOffers false c.user (some c.device) news) := by
        simp [attemptsOf, Step.account, attempts, arrange, arrangeUnregister, offers,
          unregisterOffers, found, current, k, news]
      rw [made, tally_eq, nobody, Option.toList_none, List.flatMap_nil, left, tried, calls,
        Tally.outcomes_nil, Tally.plus_zero]
      exact counted.then_nothing (counters_report _ _ _)
    · exact untouched (unregister_of_other found current) (by simp [withdrawn, found, current])
        (by simp [unregisterOffers, found, current])

theorem counters_drain (inside : Bool) (h : Hub) (id : ConnId) :
    (drain inside h id).counters = h.counters := by
  unfold drain
  split
  · rfl
  · dsimp only
    split
    · exact counters_report _ _ _
    · rfl

theorem counters_closeAll (h : Hub) (inside : Bool) :
    (h.closeAll inside).1.counters = h.counters := by
  have drained (ids : List ConnId) (k : Hub) :
      (ids.foldl (drain inside) k).counters = k.counters := by
    induction ids generalizing k with
    | nil => rfl
    | cons id rest ih => exact (ih _).trans (counters_drain inside k id)
  exact drained h.registry.connections { h with registry := [] }

theorem counted_text (h : Hub) (id : ConnId) (raw : String) :
    Counted h (h.step (.text id raw)) (h.tally (.text id raw)) := by
  let k := h.update id Connection.markActive
  have marked : k.connection? id = (h.connection? id).map Connection.markActive := by
    simp [k, connection?_update]
  cases found : h.connection? id with
  | none =>
    rw [found, Option.map_none] at marked
    have made : h.step (.text id raw) = k := by simp [step, handleText, marked, k]
    exact counted_quiet (by rw [made]; rfl) rfl rfl
      (by simp [attemptsOf, attempts, offers, textOffers, found, trials])
      (by simp [errands, marked, k])
  | some c =>
    rw [found, Option.map_some] at marked
    -- whatever the connection answers itself is on its own account, and no call is made
    have answered (m : Message) (made : h.step (.text id raw) = k.send id (.message m))
        (own : (Step.text id raw).account = .connection) (calls : h.errands (.text id raw) = []) :
        Counted h (h.step (.text id raw)) (h.tally (.text id raw)) :=
      counted_quiet (by rw [made]; rfl) rfl rfl (by simp [attemptsOf, own]) calls
    cases decoded : Inbound.decode raw with
    | error refusal =>
      exact answered (.error refusal.report) (by simp [step, handleText, marked, decoded, k])
        (by simp [Step.account, decoded]) (by simp [errands, marked, decoded, k])
    | ok frame =>
      cases frame with
      | ping =>
        exact answered .reply (by simp [step, handleText, marked, decoded, k])
          (by simp [Step.account, decoded]) (by simp [errands, marked, decoded, k])
      | relay r =>
        have aged := c.ages_markActive
        have made : h.step (.text id raw) =
            (k.forwardVia true c.user r.target (.relay (r.sentBy c.device))).1 := by
          simp [step, handleText, marked, decoded, forwardVia, aged.user, aged.device, k]
        have tried : h.attemptsOf .hub (.text id raw) =
            k.trials (k.forwardOffers true c.user r.target (.relay (r.sentBy c.device))) := by
          simp only [attemptsOf, Step.account, decoded, ↓reduceIte, attempts, arrange, offers,
            textOffers, found]
          rfl
        have called : h.errands (.text id raw) =
            k.errandsVia true c.user r.target (.relay (r.sentBy c.device)) := by
          simp [errands, marked, decoded, aged.user, aged.device, k]
        rw [made, tally_of_still rfl rfl, tried, called]
        exact (counted_forwardVia k true _ _ _ : Counted k _ _)

theorem step_join (open_ : h.admits = true) (id : ConnId) :
    h.step (.join id) = h.step (.register id) := by simp [step, join, open_]

theorem step_leave (open_ : h.admits = true) (id : ConnId) :
    h.step (.leave id) = h.step (.unregister id) := by simp [step, leave, open_]

theorem tally_join (open_ : h.admits = true) (id : ConnId) :
    h.tally (.join id) = h.tally (.register id) := by
  funext e
  cases e <;> simp [tally, enrolls, withdraws, errands, attemptsOf, Step.account, attempts, arrange,
    offers, open_]

theorem tally_leave (open_ : h.admits = true) (id : ConnId) :
    h.tally (.leave id) = h.tally (.unregister id) := by
  funext e
  cases e <;> simp [tally, enrolls, withdraws, errands, attemptsOf, Step.account, attempts, arrange,
    offers, open_]

/-- A step moves every counter by its tally. -/
theorem counted_step (h : Hub) (s : Step) : Counted h (h.step s) (h.tally s) := by
  have told {s : Step} {k : Hub} (counted : Counted h k (drops (h.attempts s)))
      (nobody : h.enrolls s = none) (stays : h.withdraws s = []) (own : s.account = .hub)
      (calls : h.errands s = []) : Counted h k (h.tally s) := by
    rw [tally_of_still nobody stays, attemptsOf, if_pos own, calls, Tally.outcomes_nil]
    exact counted
  cases s with
  | register id => exact counted_register h id
  | unregister id => exact counted_unregister h id
  | join id =>
    cases open_ : h.admits with
    | false =>
      exact counted_quiet (by simp [step, join, open_]) (by simp [enrolls, open_]) rfl
        (by simp [attemptsOf, attempts, offers, open_, trials]) rfl
    | true =>
      rw [step_join open_, tally_join open_]
      exact counted_register h id
  | leave id =>
    cases open_ : h.admits with
    | false =>
      exact counted_quiet (by simp [step, leave, open_]) rfl (by simp [withdraws, open_])
        (by simp [attemptsOf, attempts, offers, open_, trials]) rfl
    | true =>
      rw [step_leave open_, tally_leave open_]
      exact counted_unregister h id
  | text id raw => exact counted_text h id raw
  | forward weak user target m =>
    rw [tally_of_still rfl rfl]
    exact counted_forwardVia h weak user target m
  | broadcast weak user exclude m =>
    exact told (counted_broadcastVia h weak user exclude m) rfl rfl rfl rfl
  | streamStart user start => exact told (counted_broadcast h user none _) rfl rfl rfl rfl
  | streamEnd user stream => exact told (counted_broadcast h user none _) rfl rfl rfl rfl
  | closeAll inside => exact counted_quiet (counters_closeAll h inside) rfl rfl rfl rfl
  | connect | send | close | receive | dropReceiver | finish | halt | release =>
    exact counted_quiet rfl rfl rfl rfl rfl

/-- What the steps of a run bring, in order. -/
def along {α : Type} (f : Hub → Step → List α) : Hub → List Step → List α
  | _, [] => []
  | h, s :: rest => f h s ++ along f (h.step s) rest

/-- By how much a run moves each counter, if counters did not wrap. -/
def total : Hub → List Step → Tally
  | _, [] => .zero
  | h, s :: rest => (h.tally s).plus (total (h.step s) rest)

theorem counted_run (h : Hub) (steps : List Step) : Counted h (h.run steps) (h.total steps) := by
  induction steps generalizing h with
  | nil => exact .nothing rfl
  | cons s rest ih => exact (counted_step h s).trans (ih (h.step s))

/-- Counters start from zero. -/
theorem counters_run (reports : Bool) (steps : List Step) (e : Entry) :
    ((new reports).run steps).counters.get e = .ofNat ((new reports).total steps e) := by
  have started : (new reports).counters.get e = 0 := by cases e <;> rfl
  rw [counted_run (new reports) steps e, started, UInt64.zero_add]

/-- What each step counts of its own is what the run counts of all. -/
theorem total_eq_countP {α : Type} {f : Hub → Step → List α} {p : α → Bool} {e : Entry}
    (each : ∀ h s, h.tally s e = (f h s).countP p) (h : Hub) (steps : List Step) :
    h.total steps e = (h.along f steps).countP p := by
  induction steps generalizing h with
  | nil => rfl
  | cons s rest ih => rw [total, Tally.plus, each, ih, along, List.countP_append]

/-- How many offers on this account found a full queue during a run. -/
def refused (h : Hub) (account : Account) (steps : List Step) : Nat :=
  refusals (h.along (attemptsOf account) steps)

/-- Every offer is on one account. -/
theorem refusals_log (h : Hub) (steps : List Step) :
    refusals (h.log steps) =
      h.refused .hub steps + h.refused .connection steps + h.refused .caller steps := by
  induction steps generalizing h with
  | nil => rfl
  | cons s rest ih =>
    have each (account : Account) : h.refused account (s :: rest) =
        refusals (h.attemptsOf account s) + (h.step s).refused account rest := List.countP_append
    have one : refusals (h.attempts s) = refusals (h.attemptsOf .hub s) +
        refusals (h.attemptsOf .connection s) + refusals (h.attemptsOf .caller s) := by
      cases account : s.account <;> simp [attemptsOf, account, refusals]
    have both : refusals (h.log (s :: rest)) =
        refusals (h.attempts s) + refusals ((h.step s).log rest) := List.countP_append
    rw [both, one, ih, each, each, each]
    omega

theorem dropped_run (reports : Bool) (steps : List Step) :
    ((new reports).run steps).counters.dropped = .ofNat ((new reports).refused .hub steps) := by
  have counted := counters_run reports steps .dropped
  rwa [total_eq_countP (f := attemptsOf .hub) fun _ _ => rfl] at counted

/-- After every run, the offers of the hub that found a full queue have been counted, and what
connections tried to answer their own clients has not; so the counter tells all that the server has
lost to full queues exactly if none of those answers was lost, but for multiples of what a counter
holds. Every other loss is of something that somebody else wrote to a connection. -/
theorem dropped_counts_hub_only (reports : Bool) (steps : List Step) :
    let start := new reports
    let dropped := (start.run steps).counters.dropped
    dropped = .ofNat (start.refused .hub steps) ∧
      (dropped = .ofNat (start.refused .hub steps + start.refused .connection steps) ↔
        start.refused .connection steps % UInt64.size = 0) ∧
      refusals (start.log steps) = start.refused .hub steps + start.refused .connection steps +
        start.refused .caller steps := by
  intro start dropped
  have counted : dropped = .ofNat (start.refused .hub steps) := dropped_run reports steps
  refine ⟨counted, ?_, refusals_log start steps⟩
  have none_lost : UInt64.ofNat (start.refused .connection steps) = 0 ↔
      start.refused .connection steps % UInt64.size = 0 :=
    UInt64.ofNat_eq_iff_mod_eq_toNat _ 0
  rw [counted, UInt64.ofNat_add, UInt64.left_eq_add, none_lost]

/-- The answer to a ping that finds the queue full, which still holds the list of devices, is lost
and on no counter. -/
theorem dropped_answer_uncounted :
    let phone := Step.connect (.repeated 0) (.repeated 1) (.plain (.repeated 1) "phone") 1
    let steps : List Step := [phone, .register 0, .text 0 "\x7b\"type\":\"ping\"\x7d"]
    let start := new false
    (start.run steps).counters.dropped = 0 ∧ start.refused .connection steps = 1 ∧
      (start.run steps).counters.dropped ≠
        .ofNat (start.refused .hub steps + start.refused .connection steps) := by
  decide +kernel

end Hub
end SignalHub
