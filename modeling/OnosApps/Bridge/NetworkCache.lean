import OnosApps.Bridge.Delivery

/-!
# The rules of a network of learning bridges as a cache

A frame that hits a rule is not seen by the controller, and which frames hit a rule depends on
when rules expire. In a network this makes no difference: the tables, the copies in flight and
what the hosts have received are those of the network without rules, in which every copy goes
to `process` at every switch.

## Main definitions

* `Net.withoutRules`, `plainNetNext`: the network without rules
* `NetEvent.isExpire`: the expiry of a rule

## Main results

* `PointsAtHosts.process_of_hit`: what `process` would have done with a copy that hits a rule
* `withoutRules_netNext`: one step of the network is one step of the network without rules
* `network_rules_transparent`: the same for whole runs, whenever the rules expire
-/

namespace Bridge

open Onos Runs

variable {H : Type}

/-- A network, its rules removed. -/
def Net.withoutRules (s : Net H) : Net H :=
  { s with bridge := ⟨s.bridge.macAddressTables, []⟩ }

/-- One step of the network without rules: a rule is removed as soon as it is installed, so every
copy goes to `process`. -/
def plainNetNext [DecidableEq H] (T : Topology H) (service : RuleService) (appId : ApplicationId)
    (s : Net H) (e : NetEvent H) : Net H :=
  (netNext T service appId s e).withoutRules

def NetEvent.isExpire : NetEvent H → Bool
  | .expire _ => true
  | _ => false

section Refinement

variable {T : Topology H} {service : RuleService} {appId : ApplicationId} {s : Net H}

/-- A recorded port is the port towards the host that owns the address. -/
theorem TablesPoint.eq_of_towards {t : MacAddressTables} {d : DeviceId} {p q : PortNumber} {h : H}
    (ht : TablesPoint T t) (hp : portOf t d (T.mac h) = some p) (hq : T.Towards ⟨d, q⟩ h) :
    p = q := by
  obtain ⟨h', hmac, hto⟩ := ht d _ p hp
  rw [T.mac_injective hmac] at hto
  exact hto.unique hq

variable (service) in
/-- **A hit is what `process` would have done**: for a copy that hits a rule, `process` would have
recorded nothing new, and would have sent the copy to the port of the rule. -/
theorem PointsAtHosts.process_of_hit {c : Copy H} {r : FlowRule} (hs : PointsAtHosts T appId s)
    (hc : CopyLeaves T c) (hr : hit s.bridge ⟨c.cp, c.frame.eth⟩ = some r) :
    (process service appId s.bridge.macAddressTables ⟨c.cp, c.frame.eth⟩).1 =
        s.bridge.macAddressTables ∧
      (process service appId s.bridge.macAddressTables ⟨c.cp, c.frame.eth⟩).2.send =
        r.treatment.output := by
  obtain ⟨hto, -, hsrc, hh⟩ := hc
  -- the rule was installed for the addresses of the frame, which are both recorded
  obtain ⟨q, h, hpair, hmac, hq, hm, hn⟩ := hs.rules.eq_of_hit hr
  obtain ⟨p, hp⟩ := Option.isSome_iff_exists.mp hm
  obtain ⟨q', hq'⟩ := Option.isSome_iff_exists.mp hn
  -- the source on the port the copy came in on, the destination on the port of the rule
  have hport : p = c.cp.port := by
    rw [show c.frame.eth.sourceMAC = T.mac c.frame.sender from hsrc] at hp
    exact hs.tables.eq_of_towards hp hto
  have hdst : q' = q := by
    rw [← hmac] at hq'
    exact hs.tables.eq_of_towards hq' hq
  have hsame : (process service appId s.bridge.macAddressTables ⟨c.cp, c.frame.eth⟩).1 =
      s.bridge.macAddressTables := by
    apply process_tables_of_recorded service appId hh
    rw [hp, hport]
  refine ⟨hsame, ?_⟩
  rw [(process_reaction service appId _ hh).1, hsame, hq', hdst, hpair]
  rfl

variable (service) in
/-- A copy leaves the same tables behind and is put out alike, whether it hits a rule or not. -/
theorem PointsAtHosts.plain_hop {c : Copy H} (hs : PointsAtHosts T appId s)
    (hc : CopyLeaves T c) :
    (cachedNext service appId s.bridge (.frame ⟨c.cp, c.frame.eth⟩)).macAddressTables =
        plainNext service appId s.bridge.macAddressTables (.frame ⟨c.cp, c.frame.eth⟩) ∧
      cachedOut service appId s.bridge (.frame ⟨c.cp, c.frame.eth⟩) =
        plainOut service appId s.bridge.macAddressTables (.frame ⟨c.cp, c.frame.eth⟩) := by
  cases hr : hit s.bridge ⟨c.cp, c.frame.eth⟩ with
  | none =>
    simp only [cachedNext, cachedOut, hr]
    exact ⟨rfl, rfl⟩
  | some r =>
    obtain ⟨htables, hsend⟩ := hs.process_of_hit service hc hr
    simp only [cachedNext, cachedOut, hr]
    exact ⟨htables.symm, hsend.symm⟩

variable [DecidableEq H]

/-- **One step of the network is one step of the network without rules**, and an expiry is
none. -/
theorem withoutRules_netNext (hs : PointsAtHosts T appId s) (e : NetEvent H) :
    (netNext T service appId s e).withoutRules =
      if !e.isExpire then plainNetNext T service appId s.withoutRules e else s.withoutRules := by
  cases e with
  | expire r => rfl
  | inject h eth =>
    rw [if_pos (show (!(NetEvent.inject h eth).isExpire) = true from rfl)]
    simp only [plainNetNext, netNext]
    split_ifs <;> rfl
  | hop c =>
    rw [if_pos (show (!(NetEvent.hop c).isExpire) = true from rfl), plainNetNext]
    by_cases hc : c ∈ s.inFlight
    · obtain ⟨htables, hout⟩ := hs.plain_hop service (hs.copies c hc)
      have hc' : c ∈ s.withoutRules.inFlight := hc
      rw [netNext_hop_of_mem hc, netNext_hop_of_mem hc']
      -- without rules there is no hit
      simp only [Net.withoutRules, htables, hout]
      rfl
    · have hc' : c ∉ s.withoutRules.inFlight := hc
      rw [netNext_hop_of_notMem hc, netNext_hop_of_notMem hc']
      rfl

end Refinement

/-- **The rules of a network are a transparent cache.** By every sequence of injections, hops and
expiries, the tables, the copies in flight and the receipts of a network of bridges are those
of the network without rules after the same injections and hops. So when rules expire has no
influence on them. -/
theorem network_rules_transparent [DecidableEq H] (T : Topology H) (service : RuleService)
    (appId : ApplicationId) (es : List (NetEvent H)) :
    (run (netNext T service appId) Net.init es).withoutRules =
      run (plainNetNext T service appId) Net.init (es.filter fun e => !e.isExpire) :=
  map_run_of_invariant (P := PointsAtHosts T appId) (fun _ e hs => hs.netNext e)
    (fun _ e hs => withoutRules_netNext hs e) pointsAtHosts_init es

end Bridge
