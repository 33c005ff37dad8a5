import OnosApps.Graph.FirstStep
import OnosApps.Onos.Address

/-!
# Trees of switches

A finite set of switches, joined by links into a tree, with every host on a port of its own.
On each switch one port leads towards a given host: the port of the host itself, or the port
of the link with which the path to the switch of the host starts.

## Main definitions

* `Attachment`, `Topology`: what the ports are connected to
* `Topology.Towards cp h`: the port `cp` leads towards the host `h`
* `Topology.Leads cp d`: the port `cp` leads to the switch `d`

## Main results

* `Towards.unique`, `exists_towards`: on every switch exactly one port leads towards a host
* `towards_link_iff`: one end of a link leads towards a host exactly when the other does not
* `towards_host_iff`: the port of a host leads towards that host only
* `Leads.unique`, `exists_leads`, `leads_link_iff`: the same for the switches
* `Leads.towards`: a host that is not in the direction of `d` is, seen from `d`, in the
  direction back
-/

namespace Bridge

open Onos AcyclicGraph

/-- What a port is connected to: a port of another switch, or a host. -/
inductive Attachment (H : Type) where
  | link (cp : ConnectPoint)
  | host (h : H)
deriving DecidableEq

/-- The switches joined by a link. -/
def linkGraph {H : Type} (attached : ConnectPoint → Option (Attachment H)) :
    SimpleGraph DeviceId :=
  SimpleGraph.fromRel fun d d' => ∃ p p', attached ⟨d, p⟩ = some (.link ⟨d', p'⟩)

/-- A finite tree of switches with hosts `H`. A port of a switch may be unconnected. -/
structure Topology (H : Type) where
  switches : Finset DeviceId
  ports : DeviceId → List PortNumber
  attached : ConnectPoint → Option (Attachment H)
  hostPort : H → ConnectPoint
  mac : H → MacAddress
  ports_nodup : ∀ d, (ports d).Nodup
  attached_mem : ∀ cp a, attached cp = some a → cp.port ∈ ports cp.deviceId
  link_symm : ∀ cp cp', attached cp = some (.link cp') → attached cp' = some (.link cp)
  link_mem : ∀ cp cp', attached cp = some (.link cp') → cp.deviceId ∈ switches
  /-- Two links do not join the same pair of switches, and no link joins a switch to itself. -/
  link_simple : ∀ d p q cp cp', attached ⟨d, p⟩ = some (.link cp) →
    attached ⟨d, q⟩ = some (.link cp') → cp.deviceId = cp'.deviceId → p = q
  link_ne : ∀ cp cp', attached cp = some (.link cp') → cp.deviceId ≠ cp'.deviceId
  /-- Every host has a port of its own, on a switch of the tree. -/
  attached_host : ∀ cp h, attached cp = some (.host h) ↔ hostPort h = cp
  hostPort_mem : ∀ h, (hostPort h).deviceId ∈ switches
  mac_injective : Function.Injective mac
  /-- The links join the switches into a tree. -/
  acyclic : (linkGraph attached).IsAcyclic
  connected : ∀ d ∈ switches, ∀ d' ∈ switches, (linkGraph attached).Reachable d d'

namespace Topology

variable {H : Type} (T : Topology H)

/-- The graph of the switches of a topology. -/
def graph : SimpleGraph DeviceId := linkGraph T.attached

/-- The port `cp` of its switch leads towards `h`: it is the port of `h`, or the path to the
switch of `h` starts with its link. -/
def Towards (cp : ConnectPoint) (h : H) : Prop :=
  T.hostPort h = cp ∨
    ∃ cp', T.attached cp = some (.link cp') ∧
      FirstStep T.graph cp.deviceId cp'.deviceId (T.hostPort h).deviceId

variable {T} {cp cp' : ConnectPoint} {h : H}

theorem adj_of_link (hl : T.attached cp = some (.link cp')) :
    T.graph.Adj cp.deviceId cp'.deviceId :=
  (SimpleGraph.fromRel_adj _ _ _).mpr ⟨T.link_ne cp cp' hl, Or.inl ⟨cp.port, cp'.port, hl⟩⟩

theorem exists_link_of_adj {d d' : DeviceId} (ha : T.graph.Adj d d') :
    ∃ p p', T.attached ⟨d, p⟩ = some (.link ⟨d', p'⟩) := by
  obtain ⟨-, ⟨p, p', hl⟩ | ⟨p, p', hl⟩⟩ := (SimpleGraph.fromRel_adj _ _ _).mp ha
  · exact ⟨p, p', hl⟩
  · exact ⟨p', p, T.link_symm _ _ hl⟩

/-- A port that leads towards a host is connected. -/
theorem Towards.attached (ht : T.Towards cp h) : (T.attached cp).isSome := by
  rcases ht with hp | ⟨cp', hl, -⟩
  · rw [(T.attached_host cp h).mpr hp]
    rfl
  · rw [hl]
    rfl

/-- On a switch at most one port leads towards a host. -/
theorem Towards.unique {d : DeviceId} {p q : PortNumber} (hp : T.Towards ⟨d, p⟩ h)
    (hq : T.Towards ⟨d, q⟩ h) : p = q := by
  -- no path starts with a link on the switch of the host itself
  rcases hp with hp | ⟨cp, hl, hs⟩ <;> rcases hq with hq | ⟨cp', hl', hs'⟩
  · rw [hp, ConnectPoint.mk.injEq] at hq
    exact hq.2
  · exact absurd (by rw [hp]) hs'.ne
  · exact absurd (by rw [hq]) hs.ne
  · exact T.link_simple d p q cp cp' hl hl' (hs.unique T.acyclic hs')

/-- On every switch some port leads towards a host. -/
theorem exists_towards {d : DeviceId} (hd : d ∈ T.switches) (h : H) : ∃ q, T.Towards ⟨d, q⟩ h := by
  by_cases hne : d = (T.hostPort h).deviceId
  · exact ⟨(T.hostPort h).port, Or.inl (by rw [hne])⟩
  -- on another switch: the port of the link with which the path starts
  · obtain ⟨d', hs⟩ := exists_firstStep (T.connected d hd _ (T.hostPort_mem h)) hne
    obtain ⟨p, p', hl⟩ := exists_link_of_adj hs.adj
    exact ⟨p, Or.inr ⟨_, hl, hs⟩⟩

/-- The port of a host leads towards that host only. -/
theorem towards_host_iff {h' : H} (hh : T.attached cp = some (.host h')) :
    T.Towards cp h ↔ h = h' := by
  constructor
  · rintro (hp | ⟨cp', hl, -⟩)
    · rw [(T.attached_host cp h).mpr hp] at hh
      exact Attachment.host.inj (Option.some.inj hh)
    · rw [hl] at hh
      simp at hh
  · rintro rfl
    exact Or.inl ((T.attached_host cp h).mp hh)

/-- The end of a link leads towards a host when its link is the first step. -/
theorem towards_of_link (hl : T.attached cp = some (.link cp')) :
    T.Towards cp h ↔ FirstStep T.graph cp.deviceId cp'.deviceId (T.hostPort h).deviceId := by
  constructor
  · rintro (hp | ⟨cp'', hl', hs⟩)
    · rw [(T.attached_host cp h).mpr hp] at hl
      simp at hl
    · rw [hl, Option.some.injEq, Attachment.link.injEq] at hl'
      rwa [hl']
  · intro hs
    exact Or.inr ⟨cp', hl, hs⟩

/-- **A link separates the hosts**: one of its ends leads towards a host exactly when the
other does not. -/
theorem towards_link_iff (hl : T.attached cp = some (.link cp')) :
    T.Towards cp' h ↔ ¬ T.Towards cp h := by
  have hl' := T.link_symm _ _ hl
  rw [towards_of_link hl, towards_of_link hl']
  constructor
  · exact fun hs => hs.not_symm T.acyclic
  · intro hn
    have hr := T.connected _ (T.link_mem _ _ hl') _ (T.hostPort_mem h)
    exact (firstStep_or_firstStep T.acyclic (adj_of_link hl) hr).resolve_left hn

/-! ## The port that leads to a switch -/

variable (T) in
/-- The port `cp` leads to the switch `d`: the path to `d` starts with its link. -/
def Leads (cp : ConnectPoint) (d : DeviceId) : Prop :=
  ∃ cp', T.attached cp = some (.link cp') ∧ FirstStep T.graph cp.deviceId cp'.deviceId d

variable {d e : DeviceId}

/-- No port of a switch leads to the switch itself. -/
theorem Leads.ne (hl : T.Leads cp d) : cp.deviceId ≠ d := by
  obtain ⟨cp', -, hs⟩ := hl
  exact hs.ne

theorem Leads.mem_ports (hl : T.Leads cp d) : cp.port ∈ T.ports cp.deviceId := by
  obtain ⟨cp', ha, -⟩ := hl
  exact T.attached_mem cp _ ha

/-- On a switch at most one port leads to another switch. -/
theorem Leads.unique {p q : PortNumber} (hp : T.Leads ⟨e, p⟩ d) (hq : T.Leads ⟨e, q⟩ d) :
    p = q := by
  obtain ⟨cp, hl, hs⟩ := hp
  obtain ⟨cp', hl', hs'⟩ := hq
  exact T.link_simple e p q cp cp' hl hl' (hs.unique T.acyclic hs')

/-- On every switch some port leads to every other switch. -/
theorem exists_leads (he : e ∈ T.switches) (hd : d ∈ T.switches) (hne : e ≠ d) :
    ∃ q, T.Leads ⟨e, q⟩ d := by
  obtain ⟨d', hs⟩ := exists_firstStep (T.connected e he d hd) hne
  obtain ⟨p, p', hl⟩ := exists_link_of_adj hs.adj
  exact ⟨p, _, hl, hs⟩

/-- The port of a host leads to no switch. -/
theorem not_leads_of_host (hh : T.attached cp = some (.host h)) : ¬ T.Leads cp d := by
  rintro ⟨cp', hl, -⟩
  rw [hh] at hl
  simp at hl

theorem leads_of_link (hl : T.attached cp = some (.link cp')) :
    T.Leads cp d ↔ FirstStep T.graph cp.deviceId cp'.deviceId d := by
  constructor
  · rintro ⟨cp'', hl', hs⟩
    rw [hl, Option.some.injEq, Attachment.link.injEq] at hl'
    rwa [hl']
  · exact fun hs => ⟨cp', hl, hs⟩

/-- **A link separates the switches**: one of its ends leads to a switch exactly when the other
does not. -/
theorem leads_link_iff (hl : T.attached cp = some (.link cp')) (hd : d ∈ T.switches) :
    T.Leads cp' d ↔ ¬ T.Leads cp d := by
  have hl' := T.link_symm _ _ hl
  rw [leads_of_link hl, leads_of_link hl']
  constructor
  · exact fun hs => hs.not_symm T.acyclic
  · intro hn
    have hr := T.connected _ (T.link_mem _ _ hl') _ hd
    exact (firstStep_or_firstStep T.acyclic (adj_of_link hl) hr).resolve_left hn

/-- **Seen from `d`, what lies in another direction lies back**: if the port of `e` that leads to
`d` is not the one towards a host, then the port of `d` that leads to `e` is. -/
theorem Leads.towards {p q : PortNumber} (hp : T.Leads ⟨e, p⟩ d) (hq : T.Leads ⟨d, q⟩ e)
    (hn : ¬ T.Towards ⟨e, p⟩ h) : T.Towards ⟨d, q⟩ h := by
  obtain ⟨cp, hl, hs⟩ := hp
  obtain ⟨cp', hl', hs'⟩ := hq
  refine Or.inr ⟨cp', hl', ?_⟩
  by_cases he : e = (T.hostPort h).deviceId
  · rwa [← he]
  · -- the path from `d` goes to `e` and on to the host
    obtain ⟨w, hw⟩ := exists_firstStep
      (T.connected e (T.link_mem _ _ hl) _ (T.hostPort_mem h)) he
    refine hs'.through T.acyclic hs hw ?_
    rintro rfl
    exact hn (Or.inr ⟨cp, hl, hw⟩)

end Topology

end Bridge
