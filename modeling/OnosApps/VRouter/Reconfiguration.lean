import OnosApps.Runs.Run
import OnosApps.VRouter.Attempts

/-!
# The virtual router: configuration after configuration

A configuration event assigns and submits as it goes, and nothing is ever taken back: an event
that throws halfway leaves what it has done so far, and the intents of one configuration stay
when the next one arrives.

## Main definitions

* `bgpSubmissions`: the intents that a configuration event submits
* `bgpOf`: the same for any event of a run
* `Holds config s`: the fields of the state are those of the configuration

## Main results

* `finalState_event_eq`: the state after a configuration event
* `rejected_unchanged_iff`: when an event that throws changes nothing
* `submitted_kept_run`: what is submitted stays
* `submitted_run`: the intents after a run, those of the BGP sessions and the others
* `reconfiguration_withdraws_nothing`: what a sequence of configurations leaves behind
-/

namespace VRouter

open Onos Runs

section Event

variable (services : Services) (network : Network) (config : QuaggaConfig)

/-- All fields of the configuration can be parsed. -/
def Parses : Prop := none ∉ assignments services config

instance : Decidable (Parses services config) :=
  decidable_of_iff ((assignments services config).all Option.isSome) (by
    rw [Parses, List.all_eq_true]
    refine ⟨fun h hmem => by simpa using h none hmem, fun h o ho => ?_⟩
    exact Option.isSome_iff_ne_none.mpr fun hnone => h (hnone ▸ ho))

/-- The intents that an event with the configuration `config` submits: none if a field cannot be
parsed. -/
def bgpSubmissions : List Submission :=
  if Parses services config then succeeded (bgpAttempts services network config) else []

/-- The state after the assignments of an event, up to the first that fails. -/
def assigned (s : State) : State :=
  (Log.updates State).append s (succeeded (assignments services config))

/-- The fields of the state are those of the configuration. -/
structure Holds (s : State) : Prop where
  quaggaCp : s.quaggaCp = config.quaggaCp services
  quaggaMac : s.quaggaMac = config.quaggaMac services
  virtualIp : s.virtualIp = config.virtualIp services
  virtualMac : s.virtualMac = config.virtualMac services
  peersIp : s.peersIp = config.peersIp services

variable {services network config} {s : State} {e : NetworkConfigEvent QuaggaConfig}

theorem assigned_submitted (s : State) : (assigned services config s).submitted = s.submitted := by
  have hkeep : ∀ f ∈ succeeded (assignments services config), ∀ s : State,
      (f s).submitted = s.submitted := by
    intro f hf s
    have hmem := mem_of_mem_succeeded hf
    simp only [assignments, List.mem_cons, List.not_mem_nil, or_false, eq_comm (a := some f),
      Option.map_eq_some_iff] at hmem
    obtain ⟨_, -, rfl⟩ | ⟨_, -, rfl⟩ | ⟨_, -, rfl⟩ | ⟨_, -, rfl⟩ | ⟨_, -, rfl⟩ := hmem <;> rfl
  exact Log.updates_append_eq State.submitted hkeep s

/-- The assignments are to different fields, so that together they change nothing exactly when
each of them changes nothing. -/
theorem assigned_eq_self_iff :
    assigned services config s = s ↔ ∀ f ∈ succeeded (assignments services config), f s = s := by
  obtain ⟨a, b, c, d, ps, flag, subs⟩ := s
  unfold assigned assignments
  cases config.quaggaCp services <;> cases config.quaggaMac services <;>
    cases config.virtualIp services <;> cases config.virtualMac services <;>
    cases config.peersIp services <;> simp [Log.updates]

theorem Parses.exists (h : Parses services config) :
    ∃ quaggaCp quaggaMac virtualIp virtualMac peersIp,
      config.quaggaCp services = some quaggaCp ∧ config.quaggaMac services = some quaggaMac ∧
      config.virtualIp services = some virtualIp ∧ config.virtualMac services = some virtualMac ∧
      config.peersIp services = some peersIp := by
  simp only [Parses, assignments, List.mem_cons, List.not_mem_nil, or_false, not_or,
    eq_comm (a := none), Option.map_eq_none_iff, ← ne_eq, Option.ne_none_iff_exists'] at h
  obtain ⟨⟨quaggaCp, hcp⟩, ⟨quaggaMac, hmac⟩, ⟨virtualIp, hip⟩, ⟨virtualMac, hvmac⟩,
    ⟨peersIp, hpeers⟩⟩ := h
  exact ⟨quaggaCp, quaggaMac, virtualIp, virtualMac, peersIp, hcp, hmac, hip, hvmac, hpeers⟩

theorem Parses.holds_assigned (h : Parses services config) (s : State) :
    Holds services config (assigned services config s) := by
  obtain ⟨quaggaCp, quaggaMac, virtualIp, virtualMac, peersIp, hcp, hmac, hip, hvmac, hpeers⟩ :=
    h.exists
  constructor <;> simp [assigned, assignments, Log.updates, hcp, hmac, hip, hvmac, hpeers]

/-- **The state after a configuration event**: the assignments up to the first that fails, and
the intents of the BGP sessions up to the first that fails if all fields are assigned. -/
theorem finalState_event_eq (hread : e.read = some config) :
    finalState (QuaggaConfigListener.event services network e) s =
      State.log.append (assigned services config s) (bgpSubmissions services network config) := by
  rw [(tries_event services network config hread).finalState, eventAttempts, bgpSubmissions]
  split_ifs with h
  · rw [succeeded_append_of_notMem h, succeeded_map, ← (Log.updates State).append_append,
      State.log.updates_append_map, assigned]
  · rw [succeeded_append_of_mem (not_not.mp h), State.log.append_nil, assigned]

end Event

/-! ## Events that throw -/

/-- **When a rejected configuration changes nothing.** An event that throws leaves the
assignments it got to, and the intents it got to submit if it got to all assignments. So it
leaves everything as it was exactly when the values it got to assign were there before, and it
did not get to submit an intent. -/
theorem rejected_unchanged_iff {services : Services} {network : Network} {config : QuaggaConfig}
    {e : NetworkConfigEvent QuaggaConfig} {s s' : State} {err : JavaException}
    (hread : e.read = some config)
    (hthrow : QuaggaConfigListener.event services network e s = .error err s') :
    s' = State.log.append (assigned services config s) (bgpSubmissions services network config) ∧
      (s' = s ↔ (∀ f ∈ succeeded (assignments services config), f s = s) ∧
        bgpSubmissions services network config = []) := by
  have hs' : s' = State.log.append (assigned services config s)
      (bgpSubmissions services network config) := by
    rw [← finalState_event_eq hread, finalState, hthrow]
  refine ⟨hs', ?_⟩
  rw [hs', ← assigned_eq_self_iff]
  constructor
  · intro hsame
    -- the intents submitted before the event are there on both sides
    have hlog := congrArg State.submitted hsame
    have hnone : bgpSubmissions services network config = [] := by
      simpa [State.log, assigned_submitted] using hlog
    rw [hnone, State.log.append_nil] at hsame
    exact ⟨hsame, hnone⟩
  · rintro ⟨hassigned, hnone⟩
    rw [hnone, State.log.append_nil, hassigned]

/-- The deployed configuration without the addresses of the router. -/
def partialConfig : QuaggaConfig :=
  { deployedConfig with
    get := fun name => if name = "quagga" then some "of:0000000000000002/2" else none }

/-- The event of a configuration that cannot be parsed leaves what it got to. -/
theorem rejected_unchanged_iff_partial :
    finalState (QuaggaConfigListener.event deployed (deployedNetwork [])
        ⟨.CONFIG_ADDED, true, some partialConfig⟩) .init =
      State.log.append (assigned deployed partialConfig .init)
        (bgpSubmissions deployed (deployedNetwork []) partialConfig) :=
  (rejected_unchanged_iff (e := ⟨.CONFIG_ADDED, true, some partialConfig⟩) (s := .init) rfl rfl).1

/-- **A rejected configuration that changes the state**: the address of the BGP speaker is
missing, and its connect point is assigned. -/
theorem rejected_assigns_speaker :
    ∃ err s', QuaggaConfigListener.event deployed (deployedNetwork [])
        ⟨.CONFIG_ADDED, true, some partialConfig⟩ .init = .error err s' ∧
      s'.quaggaCp ≠ State.init.quaggaCp :=
  ⟨.illegalArgument, { quaggaCp := some ⟨⟨2⟩, ⟨2⟩⟩ }, rfl, by decide⟩

/-! ## Runs of configurations and packets -/

/-- The intent is for a BGP session. -/
def Submission.isBgp (sub : Submission) : Bool := sub.kind = .bgpOut ∨ sub.kind = .bgpIn

/-- The intents for BGP sessions that an event submits. -/
def bgpOf (services : Services) : Event → List Submission
  | .config network e => e.read.elim [] (bgpSubmissions services network)
  | .packetIn _ _ => []

/-- The event is a packet-in. -/
def Event.IsPacketIn : Event → Prop
  | .config _ _ => False
  | .packetIn _ _ => True

section Run

variable {services : Services} {s : State}

/-- A configuration event submits the intents for its BGP sessions, and no other. -/
theorem submittedBy_config (services : Services) (s : State) (network : Network)
    (e : NetworkConfigEvent QuaggaConfig) :
    submittedBy services s (.config network e) = bgpOf services (.config network e) ∧
      ∀ sub ∈ submittedBy services s (.config network e), sub.isBgp := by
  constructor
  · refine submittedBy_eq ?_
    rw [next, bgpOf]
    cases hread : e.read with
    | none => simp [QuaggaConfigListener.event, hread, finalState]
    | some config =>
      rw [finalState_event_eq hread]
      exact congrArg (· ++ _) (assigned_submitted s)
  · intro sub hsub
    obtain ⟨config, -, hreq⟩ := request_of_mem_submittedBy hsub
    cases hreq <;> rfl

/-- None of the requests of a packet-in is for a BGP session. -/
theorem PacketRequest.isBgp_eq_false {network : Network} {inPkt : InboundPacket} {ipv4Pkt : IPv4}
    {sub : Submission} (h : PacketRequest services network s inPkt ipv4Pkt sub) :
    sub.isBgp = false := by
  cases h <;> rfl

theorem filter_submittedBy (services : Services) (s : State) (e : Event) :
    (submittedBy services s e).filter Submission.isBgp = bgpOf services e := by
  cases e with
  | config network e =>
    obtain ⟨heq, hall⟩ := submittedBy_config services s network e
    rw [List.filter_eq_self.mpr hall, heq]
  | packetIn network inPkt =>
    refine List.filter_eq_nil_iff.mpr fun sub hsub => ?_
    obtain ⟨ipv4Pkt, -, hreq⟩ := request_of_mem_submittedBy hsub
    rw [hreq.isBgp_eq_false]
    exact Bool.false_ne_true

/-- What is submitted stays, in the order in which it was submitted. -/
theorem submitted_kept_run (services : Services) (es es' : List Event) :
    (run (next services) State.init es).submitted <+:
      (run (next services) State.init (es ++ es')).submitted := by
  rw [run_append]
  refine run_invariant (P := fun s : State =>
    (run (next services) State.init es).submitted <+: s.submitted)
    (fun s e hs => ?_) List.prefix_rfl es'
  rw [submitted_next]
  exact hs.trans (List.prefix_append _ _)

/-- **The intents after a run.** Those for BGP sessions are the ones of all configuration events,
one after the other, and every other one was requested by a packet-in, in the state it met. -/
theorem submitted_run (services : Services) (es : List Event) :
    (run (next services) State.init es).submitted.filter Submission.isBgp =
        es.flatMap (bgpOf services) ∧
      ∀ sub ∈ (run (next services) State.init es).submitted, sub.isBgp = false →
        ∃ es₁ network inPkt ipv4Pkt es₂, es = es₁ ++ .packetIn network inPkt :: es₂ ∧
          inPkt.parsed.payload = .ipv4 ipv4Pkt ∧
          PacketRequest services network (run (next services) State.init es₁) inPkt ipv4Pkt
            sub := by
  induction es using List.reverseRecOn with
  | nil => exact ⟨rfl, fun sub hsub => by cases hsub⟩
  | append_singleton es e ih =>
    obtain ⟨ihbgp, ihother⟩ := ih
    rw [run_snoc, submitted_next]
    constructor
    · rw [List.filter_append, ihbgp, filter_submittedBy, List.flatMap_append,
        List.flatMap_singleton]
    · intro sub hsub hbgp
      rcases List.mem_append.mp hsub with hsub | hsub
      · obtain ⟨es₁, network, inPkt, ipv4Pkt, es₂, rfl, hpay, hreq⟩ := ihother sub hsub hbgp
        exact ⟨es₁, network, inPkt, ipv4Pkt, es₂ ++ [e], by simp, hpay, hreq⟩
      · cases e with
        | config network e =>
          have := (submittedBy_config services _ network e).2 sub hsub
          rw [hbgp] at this
          cases this
        | packetIn network inPkt =>
          obtain ⟨ipv4Pkt, hpay, hreq⟩ := request_of_mem_submittedBy hsub
          exact ⟨es, network, inPkt, ipv4Pkt, [], rfl, hpay, hreq⟩

theorem Holds.next_packetIn {config : QuaggaConfig} (h : Holds services config s)
    (network : Network) (inPkt : InboundPacket) :
    Holds services config (next services s (.packetIn network inPkt)) := by
  rw [next]
  rcases finalState_process services network s inPkt with hs | ⟨_, -, -, hext⟩
  · rwa [hs]
  · exact ⟨hext.quaggaCp.trans h.quaggaCp, hext.quaggaMac.trans h.quaggaMac,
      hext.virtualIp.trans h.virtualIp, hext.virtualMac.trans h.virtualMac,
      hext.peersIp.trans h.peersIp⟩

/-- A configuration that can be parsed is in force until the next configuration event. -/
theorem holds_run {network : Network} {config : QuaggaConfig}
    {e : NetworkConfigEvent QuaggaConfig} (hread : e.read = some config)
    (hparses : Parses services config) {es : List Event} (hes : ∀ e' ∈ es, e'.IsPacketIn) :
    Holds services config (run (next services) s (.config network e :: es)) := by
  have hstart : Holds services config (next services s (.config network e)) := by
    rw [next, finalState_event_eq hread]
    exact { hparses.holds_assigned s with }
  rw [run_cons]
  refine (along_of_forall hes).run_invariant (fun s' e' hs' he' => ?_) hstart
  cases e' with
  | config network e => exact he'.elim
  | packetIn network inPkt => exact hs'.next_packetIn network inPkt

/-- An event that returns submits two intents for each peer. -/
theorem bgpSubmissions_of_returns {network : Network} {config : QuaggaConfig}
    (h : none ∉ eventAttempts services network config) :
    (bgpSubmissions services network config).map some = bgpAttempts services network config := by
  rw [eventAttempts, List.mem_append, not_or] at h
  rw [bgpSubmissions, if_pos (show Parses services config from h.1), map_some_succeeded]
  simpa using h.2

end Run

/-- **Reconfiguration withdraws nothing.** What was submitted at any time of the run is there at
its end. The intents for BGP sessions are those of all configuration events, one after the other;
every other intent was requested by a packet-in in the configuration that was in force then.
While a configuration is in force whose event returned, the intents for BGP sessions are the two
for each of its peers exactly when no event before it submitted any. -/
theorem reconfiguration_withdraws_nothing (services : Services) (es : List Event) :
    (∀ es₁ es₂, es = es₁ ++ es₂ → (run (next services) State.init es₁).submitted <+:
        (run (next services) State.init es).submitted) ∧
      (run (next services) State.init es).submitted.filter Submission.isBgp =
        es.flatMap (bgpOf services) ∧
      (∀ sub ∈ (run (next services) State.init es).submitted, sub.isBgp = false →
        ∃ es₁ network inPkt ipv4Pkt es₂, es = es₁ ++ .packetIn network inPkt :: es₂ ∧
          inPkt.parsed.payload = .ipv4 ipv4Pkt ∧
          PacketRequest services network (run (next services) State.init es₁) inPkt ipv4Pkt sub) ∧
      ∀ es₁ network e config es₂, es = es₁ ++ .config network e :: es₂ → e.read = some config →
        none ∉ eventAttempts services network config → (∀ e' ∈ es₂, Event.IsPacketIn e') →
        Holds services config (run (next services) State.init es) ∧
          ((((run (next services) State.init es).submitted.filter Submission.isBgp).map some).Perm
              (bgpAttempts services network config) ↔
            ∀ e' ∈ es₁, bgpOf services e' = []) := by
  obtain ⟨hbgp, hother⟩ := submitted_run services es
  refine ⟨fun es₁ es₂ hes => hes ▸ submitted_kept_run services es₁ es₂, hbgp, hother, ?_⟩
  rintro es₁ network e config es₂ rfl hread hreturns hes₂
  refine ⟨?_, ?_⟩
  · rw [run_append]
    exact holds_run hread (fun h => hreturns (List.mem_append_left _ h)) hes₂
  · have hlatest : bgpOf services (.config network e) = bgpSubmissions services network config := by
      rw [bgpOf, hread, Option.elim_some]
    have hpackets : es₂.flatMap (bgpOf services) = [] := by
      refine List.flatMap_eq_nil_iff.mpr fun e' he' => ?_
      cases e' with
      | config network e => exact (hes₂ _ he').elim
      | packetIn network inPkt => rfl
    rw [hbgp, List.flatMap_append, List.flatMap_cons, hpackets, List.append_nil, hlatest,
      List.map_append, bgpSubmissions_of_returns hreturns]
    -- what was submitted before is left over in the comparison
    rw [← List.flatMap_eq_nil_iff]
    constructor
    · intro hperm
      have hlength := hperm.length_eq
      rw [List.length_append, List.length_map] at hlength
      exact List.eq_nil_of_length_eq_zero (by omega)
    · intro hnil
      rw [hnil, List.map_nil, List.nil_append]

/-- The deployment, in which port 9 of switch 2 can be named as well. -/
def relocatable : Services :=
  { deployed with
    deviceConnectPoint := fun text =>
      if text = "of:0000000000000002/9" then some ⟨⟨2⟩, ⟨9⟩⟩ else deployed.deviceConnectPoint text }

/-- The deployed configuration, with the BGP speaker at port 9. -/
def relocatedConfig : QuaggaConfig :=
  { deployedConfig with
    get := fun name =>
      if name = "quagga" then some "of:0000000000000002/9" else deployedConfig.get name }

/-- **Intents of a configuration that is replaced**: the BGP speaker moves to port 9, and its
intents from port 2 are still there. -/
theorem replaced_speaker_intents_stay :
    let s := run (next relocatable) State.init
      [.config (deployedNetwork []) deployedEvent,
        .config (deployedNetwork []) ⟨.CONFIG_UPDATED, true, some relocatedConfig⟩]
    s.quaggaCp = some ⟨⟨2⟩, ⟨9⟩⟩ ∧ s.submitted.length = 12 ∧
      ∃ sub ∈ s.submitted, sub.kind = .bgpOut ∧ sub.intent.ingressPoints = {⟨⟨2⟩, ⟨2⟩⟩} := by
  refine ⟨by decide, by decide, by decide⟩

end VRouter
