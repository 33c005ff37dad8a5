import OnosApps.Onos.IntentService
import OnosApps.UnicastDhcp.Connected
import OnosApps.VRouter.Submissions

/-!
# The virtual router: deactivation

When it is deactivated, the virtual router goes through the intents that the intent service holds,
requests the withdrawal of those it finds installed, and then the purge of those it finds
withdrawn. It looks at each intent twice and at no intent again, it does not ask whose intents
they are, and the service changes their states at any time in between. A run is therefore an
interleaving of the calls of the loop with changes of the service, of any kind.

## Main definitions

* `Clearing`: the state of the loop, and the service it works on
* `LoopAction`: a call of the loop, or a change of the service
* `deactivate`, `clearNext`: the loop, from call to call
* `Cleared`: there is a request on all intents of an application, and on no other
* `Finds`, `CarriesOut`: what the loop sees, and a service that changes only what is requested

## Main results

* `due_next_iff`: one action
* `todo_eq_nil_of_calls`: the loop ends
* `deactivate_clears_iff`: when the application clears its own intents and only them
* `dhcp_intent_withdrawn`: an intent of another application
-/

namespace VRouter

open Onos Runs

/-! ## The loop -/

/-- What can be requested of the intent service. -/
inductive IntentRequest where
  | withdraw
  | purge
deriving DecidableEq, Repr

/-- The calls that the body of the loop makes, in their order. -/
inductive LoopPoint where
  | first
  | withdraw
  | second
  | purge
deriving DecidableEq, Repr

/-- The loop of `deactivate`: the intents still to come, of which the first is being handled, the
next call, and the requests made so far. -/
structure Clearing where
  service : IntentService
  todo : List (Key × Intent)
  point : LoopPoint
  requests : List (Key × IntentRequest)

/-- An action of a run: the loop makes its next call, or the service has changed. -/
inductive LoopAction where
  | call
  | service (svc : IntentService)

/-- The start of the loop, on the intents that the service holds then. -/
def deactivate (svc : IntentService) : Clearing := ⟨svc, svc.getIntents, .first, []⟩

/-- One action. The answer to a request is not waited for. -/
def clearNext (s : Clearing) : LoopAction → Clearing
  | .service svc => { s with service := svc }
  | .call =>
    match s.todo, s.point with
    | [], _ => s
    | i :: _, .first =>
      if s.service.getIntentState i.1 = some .INSTALLED then { s with point := .withdraw }
      else { s with point := .second }
    | i :: _, .withdraw =>
      { s with point := .second, requests := s.requests ++ [(i.1, .withdraw)] }
    | i :: is, .second =>
      if s.service.getIntentState i.1 = some .WITHDRAWN then { s with point := .purge }
      else { s with point := .first, todo := is }
    | i :: is, .purge =>
      { s with point := .first, todo := is, requests := s.requests ++ [(i.1, .purge)] }

/-- There is a request on the intent with this key. -/
def Requested (requests : List (Key × IntentRequest)) (key : Key) : Prop :=
  ∃ request, (key, request) ∈ requests

/-- There is a request on every intent of the application `app` that `svc` holds, and on no intent
of another application. -/
structure Cleared (app : ApplicationId) (svc : IntentService)
    (requests : List (Key × IntentRequest)) : Prop where
  own : ∀ d ∈ svc.held, d.intent.appId = app → Requested requests d.key
  others : ∀ d ∈ svc.held, d.intent.appId ≠ app → ¬ Requested requests d.key

/-- In this action the loop finds the intent with this key to be installed at its first look, or
withdrawn at its second. -/
def Finds (key : Key) (s : Clearing) : LoopAction → Prop
  | .service _ => False
  | .call => (s.todo.head?.map Prod.fst = some key) ∧
    (s.point = .first ∧ s.service.getIntentState key = some .INSTALLED ∨
      s.point = .second ∧ s.service.getIntentState key = some .WITHDRAWN)

/-- The service changes the state of an intent only if there is a request on it. -/
def CarriesOut (s : Clearing) : LoopAction → Prop
  | .call => True
  | .service svc => ∀ key, ¬ Requested s.requests key →
    svc.getIntentState key = s.service.getIntentState key

@[simp] theorem not_requested_nil {key : Key} : ¬ Requested [] key := by
  rintro ⟨request, hmem⟩
  cases hmem

@[simp] theorem requested_snoc {requests : List (Key × IntentRequest)} {key key' : Key}
    {request : IntentRequest} :
    Requested (requests ++ [(key', request)]) key ↔ Requested requests key ∨ key' = key := by
  simp [Requested, exists_or, eq_comm]

/-! ## One call -/

/-- A call of the loop, by what it sees. -/
inductive Call : Clearing → Clearing → Prop
  | done {svc : IntentService} {point : LoopPoint} {requests : List (Key × IntentRequest)} :
      Call ⟨svc, [], point, requests⟩ ⟨svc, [], point, requests⟩
  | installed {svc : IntentService} {i : Key × Intent} {is : List (Key × Intent)}
      {requests : List (Key × IntentRequest)} (hstate : svc.getIntentState i.1 = some .INSTALLED) :
      Call ⟨svc, i :: is, .first, requests⟩ ⟨svc, i :: is, .withdraw, requests⟩
  | notInstalled {svc : IntentService} {i : Key × Intent} {is : List (Key × Intent)}
      {requests : List (Key × IntentRequest)} (hstate : svc.getIntentState i.1 ≠ some .INSTALLED) :
      Call ⟨svc, i :: is, .first, requests⟩ ⟨svc, i :: is, .second, requests⟩
  | withdraw {svc : IntentService} {i : Key × Intent} {is : List (Key × Intent)}
      {requests : List (Key × IntentRequest)} :
      Call ⟨svc, i :: is, .withdraw, requests⟩
        ⟨svc, i :: is, .second, requests ++ [(i.1, .withdraw)]⟩
  | withdrawn {svc : IntentService} {i : Key × Intent} {is : List (Key × Intent)}
      {requests : List (Key × IntentRequest)} (hstate : svc.getIntentState i.1 = some .WITHDRAWN) :
      Call ⟨svc, i :: is, .second, requests⟩ ⟨svc, i :: is, .purge, requests⟩
  | notWithdrawn {svc : IntentService} {i : Key × Intent} {is : List (Key × Intent)}
      {requests : List (Key × IntentRequest)} (hstate : svc.getIntentState i.1 ≠ some .WITHDRAWN) :
      Call ⟨svc, i :: is, .second, requests⟩ ⟨svc, is, .first, requests⟩
  | purge {svc : IntentService} {i : Key × Intent} {is : List (Key × Intent)}
      {requests : List (Key × IntentRequest)} :
      Call ⟨svc, i :: is, .purge, requests⟩ ⟨svc, is, .first, requests ++ [(i.1, .purge)]⟩

theorem call_clearNext (s : Clearing) : Call s (clearNext s .call) := by
  obtain ⟨svc, todo, point, requests⟩ := s
  cases todo with
  | nil => exact .done
  | cons i is =>
    cases point with
    | first =>
      by_cases hstate : svc.getIntentState i.1 = some .INSTALLED
      · simpa [clearNext, hstate] using Call.installed hstate
      · simpa [clearNext, hstate] using Call.notInstalled hstate
    | withdraw => exact .withdraw
    | second =>
      by_cases hstate : svc.getIntentState i.1 = some .WITHDRAWN
      · simpa [clearNext, hstate] using Call.withdrawn hstate
      · simpa [clearNext, hstate] using Call.notWithdrawn hstate
    | purge => exact .purge

/-! ## What the requests are on -/

/-- There is a request on the intent with this key, or it is the next call. -/
def Due (key : Key) (s : Clearing) : Prop :=
  Requested s.requests key ∨
    (s.point = .withdraw ∨ s.point = .purge) ∧ s.todo.head?.map Prod.fst = some key

theorem due_iff_of_todo_eq_nil {key : Key} {s : Clearing} (h : s.todo = []) :
    Due key s ↔ Requested s.requests key := by
  simp [Due, h]

theorem not_due_deactivate {key : Key} {svc : IntentService} : ¬ Due key (deactivate svc) := by
  simp [Due, deactivate]

/-- **One action** leads to a request exactly if the loop finds the intent installed or
withdrawn. -/
theorem due_next_iff (key : Key) (s : Clearing) (a : LoopAction) :
    Due key (clearNext s a) ↔ Due key s ∨ Finds key s a := by
  cases a with
  | service svc => simp [clearNext, Due, Finds]
  | call =>
    have hcall := call_clearNext s
    generalize clearNext s .call = s' at hcall
    cases hcall with
    | done => simp [Due, Finds]
    | installed hstate => grind [Due, Finds]
    | notInstalled hstate => grind [Due, Finds]
    | withdraw => simp [Due, Finds]
    | withdrawn hstate => grind [Due, Finds]
    | notWithdrawn hstate => grind [Due, Finds]
    | purge => simp [Due, Finds]

/-! ## The end of the loop -/

/-- The number of calls that are left of the body of the loop, at most. -/
def LoopPoint.callsLeft : LoopPoint → ℕ
  | .first => 4
  | .withdraw => 3
  | .second => 2
  | .purge => 1

/-- The number of calls that are left, at most. -/
def Clearing.callsLeft (s : Clearing) : ℕ :=
  match s.todo with
  | [] => 0
  | _ :: is => 4 * is.length + s.point.callsLeft

theorem Clearing.callsLeft_first {svc : IntentService} {is : List (Key × Intent)}
    {requests : List (Key × IntentRequest)} :
    Clearing.callsLeft ⟨svc, is, .first, requests⟩ = 4 * is.length := by
  cases is with
  | nil => rfl
  | cons i is => simp [callsLeft, LoopPoint.callsLeft, Nat.mul_add]

theorem Clearing.todo_eq_nil_of_callsLeft {s : Clearing} (h : s.callsLeft = 0) : s.todo = [] := by
  obtain ⟨svc, todo, point, requests⟩ := s
  cases todo with
  | nil => rfl
  | cons i is => cases point <;> simp [callsLeft, LoopPoint.callsLeft] at h

theorem callsLeft_call (s : Clearing) :
    (clearNext s .call).callsLeft ≤ s.callsLeft - 1 := by
  have hcall := call_clearNext s
  generalize clearNext s .call = s' at hcall
  cases hcall with
  | done => simp [Clearing.callsLeft]
  | installed => simp [Clearing.callsLeft, LoopPoint.callsLeft]
  | notInstalled => simp [Clearing.callsLeft, LoopPoint.callsLeft]
  | withdraw => simp [Clearing.callsLeft, LoopPoint.callsLeft]
  | withdrawn => simp [Clearing.callsLeft, LoopPoint.callsLeft]
  | notWithdrawn =>
    rw [Clearing.callsLeft_first]
    simp [Clearing.callsLeft, LoopPoint.callsLeft]
  | purge =>
    rw [Clearing.callsLeft_first]
    simp [Clearing.callsLeft, LoopPoint.callsLeft]

/-- The action is a call of the loop. -/
def LoopAction.isCall : LoopAction → Bool
  | .call => true
  | .service _ => false

theorem callsLeft_run (s : Clearing) (acts : List LoopAction) :
    (run clearNext s acts).callsLeft ≤ s.callsLeft - acts.countP LoopAction.isCall := by
  induction acts generalizing s with
  | nil => simp
  | cons a acts ih =>
    have hrest := ih (clearNext s a)
    cases a with
    | service svc =>
      rw [run_cons, List.countP_cons_of_neg (by simp [LoopAction.isCall])]
      exact hrest
    | call =>
      have hfirst := callsLeft_call s
      rw [run_cons, List.countP_cons_of_pos rfl]
      omega

/-- **The loop ends**: it makes at most four calls for an intent. -/
theorem todo_eq_nil_of_calls {svc : IntentService} {acts : List LoopAction}
    (h : 4 * svc.held.length ≤ acts.countP LoopAction.isCall) :
    (run clearNext (deactivate svc) acts).todo = [] := by
  have hleft := callsLeft_run (deactivate svc) acts
  rw [deactivate, Clearing.callsLeft_first, IntentService.getIntents, List.length_map] at hleft
  exact Clearing.todo_eq_nil_of_callsLeft (by rw [deactivate, IntentService.getIntents]; omega)

/-! ## A service that changes only what is requested -/

/-- The intent is one of those that the loop makes a request on. -/
def Clearable (svc : IntentService) (key : Key) : Prop :=
  svc.getIntentState key = some .INSTALLED ∨ svc.getIntentState key = some .WITHDRAWN

/-- The service has only changed what is requested since the start with `svc`, and the requests are
on those intents that could be cleared then. -/
structure CarriedOut (svc : IntentService) (s : Clearing) : Prop where
  kept : ∀ key, ¬ Requested s.requests key →
    s.service.getIntentState key = svc.getIntentState key
  due : ∀ key, Due key s → Clearable svc key
  looked : s.point = .second → ∀ i ∈ s.todo.head?, ¬ Requested s.requests i.1 →
    svc.getIntentState i.1 ≠ some .INSTALLED
  done : ∀ i ∈ svc.getIntents, i ∉ s.todo → Clearable svc i.1 → Requested s.requests i.1

theorem carriedOut_deactivate (svc : IntentService) : CarriedOut svc (deactivate svc) where
  kept _ _ := rfl
  due _ h := absurd h not_due_deactivate
  looked h := nomatch h
  done _ hi hdone := absurd hi hdone

theorem CarriedOut.due_next {svc : IntentService} {s : Clearing} (h : CarriedOut svc s)
    (a : LoopAction) (key : Key) (hdue : Due key (clearNext s a)) : Clearable svc key := by
  rcases (due_next_iff key s a).mp hdue with hdue | hfinds
  · exact h.due key hdue
  · by_cases hreq : Requested s.requests key
    · exact h.due key (.inl hreq)
    · -- the state that the loop finds is the one of the start
      cases a with
      | service svc' => exact hfinds.elim
      | call =>
        obtain ⟨-, hstate⟩ := hfinds
        rw [h.kept key hreq] at hstate
        exact hstate.imp And.right And.right

theorem CarriedOut.next {svc : IntentService} {s : Clearing} {a : LoopAction} (h : CarriedOut svc s)
    (ha : CarriesOut s a) : CarriedOut svc (clearNext s a) := by
  have hdue := h.due_next a
  cases a with
  | service svc' =>
    exact ⟨fun key hreq => (ha key hreq).trans (h.kept key hreq), hdue, h.looked, h.done⟩
  | call =>
    have hcall := call_clearNext s
    generalize clearNext s .call = s' at hcall hdue
    cases hcall with
    | done => exact h
    | installed hstate => exact ⟨h.kept, hdue, by simp, h.done⟩
    | notInstalled hstate =>
      refine ⟨h.kept, hdue, fun _ i hi hreq => ?_, h.done⟩
      obtain rfl := Option.some.inj hi
      exact h.kept _ hreq ▸ hstate
    | withdraw =>
      refine ⟨fun key hreq => h.kept key fun hold => hreq (requested_snoc.mpr (.inl hold)), hdue,
        fun _ i hi hreq => ?_,
        fun i hi hdone hclear => requested_snoc.mpr (.inl (h.done i hi hdone hclear))⟩
      obtain rfl := Option.some.inj hi
      exact absurd (requested_snoc.mpr (.inr rfl)) hreq
    | withdrawn hstate => exact ⟨h.kept, hdue, by simp, h.done⟩
    | @notWithdrawn service i is requests hstate =>
      refine ⟨h.kept, hdue, by simp, fun j hj hdone hclear => ?_⟩
      by_cases hji : j = i
      · -- the loop is through with this intent: without a request, both looks were in vain
        subst hji
        by_contra hreq
        have hkept : service.getIntentState j.1 = svc.getIntentState j.1 := h.kept _ hreq
        rcases hclear with hinstalled | hwithdrawn
        · exact h.looked rfl j rfl hreq hinstalled
        · exact hstate (hkept.trans hwithdrawn)
      · exact h.done j hj (fun hmem => (List.mem_cons.mp hmem).elim hji hdone) hclear
    | @purge service i is requests =>
      refine ⟨fun key hreq => h.kept key fun hold => hreq (requested_snoc.mpr (.inl hold)), hdue,
        by simp, fun j hj hdone hclear => ?_⟩
      by_cases hji : j = i
      · exact requested_snoc.mpr (.inr (hji ▸ rfl))
      · have hmem : j ∉ i :: is := fun hmem => (List.mem_cons.mp hmem).elim hji hdone
        exact requested_snoc.mpr (.inl (h.done j hj hmem hclear))

/-! ## Whose intents are cleared -/

theorem EventRequest.appId_eq {services : Services} {s : State} {e : Event} {sub : Submission}
    (h : EventRequest services s e sub) : sub.intent.appId = services.appId := by
  cases e with
  | config network e =>
    obtain ⟨config, -, hreq⟩ := h
    cases hreq <;> rfl
  | packetIn network inPkt =>
    obtain ⟨ipv4Pkt, -, hreq⟩ := h
    cases hreq <;> rfl

/-- All intents that the application submits are its own. -/
theorem appId_of_submitted (services : Services) (es : List Event) :
    ∀ sub ∈ (run (next services) State.init es).submitted, sub.intent.appId = services.appId :=
  run_invariant (P := fun s : State => ∀ sub ∈ s.submitted, sub.intent.appId = services.appId)
    (fun _ _ hs sub hsub => (request_of_mem_next hsub).elim (hs sub) EventRequest.appId_eq)
    (by simp [State.init]) es

/-- The requests are right exactly when they are on the intents of the application. -/
theorem cleared_iff {app : ApplicationId} {svc : IntentService}
    {requests : List (Key × IntentRequest)} :
    Cleared app svc requests ↔
      ∀ d ∈ svc.held, (d.intent.appId = app ↔ Requested requests d.key) := by
  constructor
  · intro h d hd
    exact ⟨h.own d hd, fun hreq => by_contra fun hother => h.others d hd hother hreq⟩
  · intro h
    exact ⟨fun d hd => (h d hd).mp, fun d hd hother hreq => hother ((h d hd).mpr hreq)⟩

theorem requested_iff_sometime {svc : IntentService} {acts : List LoopAction}
    (hend : (run clearNext (deactivate svc) acts).todo = []) (key : Key) :
    Requested (run clearNext (deactivate svc) acts).requests key ↔
      Sometime clearNext (Finds key) (deactivate svc) acts := by
  rw [← due_iff_of_todo_eq_nil hend, run_iff_sometime (due_next_iff key)]
  exact or_iff_right not_due_deactivate

theorem requested_iff_clearable {svc : IntentService} {acts : List LoopAction}
    (hend : (run clearNext (deactivate svc) acts).todo = [])
    (hcarries : Along clearNext CarriesOut (deactivate svc) acts) {d : IntentData}
    (hd : d ∈ svc.held) :
    Requested (run clearNext (deactivate svc) acts).requests d.key ↔
      d.state = .INSTALLED ∨ d.state = .WITHDRAWN := by
  have hinv : CarriedOut svc (run clearNext (deactivate svc) acts) :=
    hcarries.run_invariant (fun _ _ h ha => h.next ha) (carriedOut_deactivate svc)
  have hclear : Clearable svc d.key ↔ d.state = .INSTALLED ∨ d.state = .WITHDRAWN := by
    rw [Clearable, IntentService.getIntentState_of_mem hd, Option.some_inj, Option.some_inj]
  rw [← hclear]
  refine ⟨fun hreq => hinv.due _ (.inl hreq), fun h => ?_⟩
  exact hinv.done (d.key, d.intent) (IntentService.mem_getIntents.mpr ⟨d, hd, rfl⟩)
    (by rw [hend]; exact List.not_mem_nil) h

/-- **Whose intents are cleared.** Let the calls of the loop interleave in any way with changes of
the intent service of any kind. The loop ends after at most four calls for an intent. It then has
made requests on all intents of the application, which are those that it submits, and on no other,
exactly when these are the intents that it has found installed at its first look or withdrawn at its
second; if the service changes only what is requested, those that were installed or withdrawn at the
start. -/
theorem deactivate_clears_iff (services : Services) (svc : IntentService) (acts : List LoopAction) :
    (∀ es, ∀ sub ∈ (run (next services) State.init es).submitted,
      sub.intent.appId = services.appId) ∧
    (4 * svc.held.length ≤ acts.countP LoopAction.isCall →
      (run clearNext (deactivate svc) acts).todo = []) ∧
    ((run clearNext (deactivate svc) acts).todo = [] →
      (Cleared services.appId svc (run clearNext (deactivate svc) acts).requests ↔
        ∀ d ∈ svc.held, (d.intent.appId = services.appId ↔
          Sometime clearNext (Finds d.key) (deactivate svc) acts)) ∧
      (Along clearNext CarriesOut (deactivate svc) acts →
        (Cleared services.appId svc (run clearNext (deactivate svc) acts).requests ↔
          ∀ d ∈ svc.held, (d.intent.appId = services.appId ↔
            d.state = .INSTALLED ∨ d.state = .WITHDRAWN)))) := by
  refine ⟨appId_of_submitted services, todo_eq_nil_of_calls, fun hend => ⟨?_, fun hcarries => ?_⟩⟩
  · rw [cleared_iff]
    exact forall₂_congr fun d _ => by rw [requested_iff_sometime hend]
  · rw [cleared_iff]
    exact forall₂_congr fun d hd => by rw [requested_iff_clearable hend hcarries hd]

/-- The DHCP application as it is deployed beside the virtual router. -/
def deployedDhcp : UnicastDhcp.Services :=
  { UnicastDhcp.deployed with appId := ⟨"nycu.sdnfv.unicastdhcp"⟩ }

/-- The intent service with an intent of each application: from the speaker to the first peer, which
is installed, and from `h01` to the DHCP server. -/
def deployedIntents (dhcpState : IntentState) : IntentService where
  held := [
    ⟨⟨1⟩, .pointToPoint (bgpIntent deployed ⟨⟨2⟩, ⟨2⟩⟩ ⟨⟨2⟩, ⟨3⟩⟩
      (IpPrefix.valueOf ⟨0xac1e0102⟩ 24)), .INSTALLED⟩,
    ⟨⟨2⟩, .pointToPoint (UnicastDhcp.toServer deployedDhcp h01.mac h01.location ⟨⟨1⟩, ⟨5⟩⟩),
      dhcpState⟩]
  nodup := by simp

/-- With a DHCP intent that is still being installed, the intents are cleared as they should be. -/
theorem deactivate_clears_while_installing :
    Cleared deployed.appId (deployedIntents .INSTALLING)
      (run clearNext (deactivate (deployedIntents .INSTALLING))
        (List.replicate 5 .call)).requests := by
  have hcarries : Along clearNext CarriesOut (deactivate (deployedIntents .INSTALLING))
      (List.replicate 5 .call) := by simp [List.replicate, CarriesOut]
  refine (((deactivate_clears_iff deployed (deployedIntents .INSTALLING)
    (List.replicate 5 .call)).2.2 (by decide)).2 hcarries).mpr ?_
  decide

/-- **An intent of another application.** When the virtual router is deactivated beside the DHCP
application, the loop ends with a request to withdraw the intent from `h01` to the DHCP server. -/
theorem dhcp_intent_withdrawn :
    (run clearNext (deactivate (deployedIntents .INSTALLED)) (List.replicate 6 .call)).todo = [] ∧
      ¬ Cleared deployed.appId (deployedIntents .INSTALLED)
        (run clearNext (deactivate (deployedIntents .INSTALLED))
          (List.replicate 6 .call)).requests := by
  refine ⟨by decide, fun h => ?_⟩
  refine h.others ⟨⟨2⟩, .pointToPoint (UnicastDhcp.toServer deployedDhcp h01.mac h01.location
    ⟨⟨1⟩, ⟨5⟩⟩), .INSTALLED⟩ (by simp [deployedIntents]) (by decide) ⟨.withdraw, ?_⟩
  decide

end VRouter
