import OnosApps.VRouter.Reconfiguration
import OnosApps.VRouter.Transit

/-!
# The virtual router: BGP sessions

A configuration event connects the BGP speaker with each peer. The outgoing intent takes the
whole /24 around the address of the peer, whatever the subnet of the interface is, and the
incoming one takes the subnet of the first address of the interface, whatever the subnet of the
peer is. So the sessions reach the right peer exactly when no two ports share a /24 of peers, and
the address of an interface that its peer is next to is the first one.

## Main definitions

* `InterfacesOf`: the configured interfaces, with disjoint subnets that contain the peers
* `SessionsReach`: the sessions with all peers reach the right end in both directions
* `Separable`: the condition on peers and interfaces under which they do

## Main results

* `mem_submittedBy_config`: the intents of a configuration event
* `sessionsReach_iff_separable`: when the sessions reach the right peer
* `session_of_second_address`: a session that does not reach the speaker
-/

namespace VRouter

open Onos Runs

/-- The interfaces behind the interface service: it answers with an interface of a subnet that
contains the address, the subnets are disjoint, and each peer is in one of them. -/
structure InterfacesOf (network : Network) (interfaces : List Interface)
    (peersIp : List Ip4Address) : Prop where
  matching : ∀ ip intf, network.getMatchingInterface ip = some intf → intf ∈ interfaces ∧
    ∃ address ∈ intf.ipAddressesList, address.subnetAddress.contains ip
  own : ∀ intf ∈ interfaces, ∀ address ∈ intf.ipAddressesList,
    address.subnetAddress.contains address.ipAddress
  disjoint : ∀ intf ∈ interfaces, ∀ address ∈ intf.ipAddressesList, ∀ intf' ∈ interfaces,
    ∀ address' ∈ intf'.ipAddressesList, address.subnetAddress.Overlaps address'.subnetAddress →
      intf = intf' ∧ address = address'
  peers : ∀ ip ∈ peersIp, ∃ intf, network.getMatchingInterface ip = some intf

/-- The frame carries an IPv4 packet to `ip`. -/
def AddressedTo (eth : Ethernet) (ip : Ip4Address) : Prop :=
  ∃ ipv4Pkt, eth.payload = .ipv4 ipv4Pkt ∧ ipv4Pkt.destinationAddress = ip

/-- Among the intents `subs`, those that take a packet of the speaker at `quaggaCp` to a peer lead
to the port of the peer, and there is one; and one takes the packets at the port of the peer to
the address of the interface in the subnet of the peer to the speaker. -/
def SessionsReach (network : Network) (quaggaCp : ConnectPoint) (peersIp : List Ip4Address)
    (subs : List Submission) : Prop :=
  ∀ peerIp ∈ peersIp, ∀ intf, network.getMatchingInterface peerIp = some intf →
    (∀ eth, AddressedTo eth peerIp →
      (∀ sub ∈ subs, sub.intent.Accepts quaggaCp eth →
        sub.intent.egressPoint = intf.connectPoint) ∧
      ∃ sub ∈ subs, sub.intent.Accepts quaggaCp eth) ∧
    ∀ address ∈ intf.ipAddressesList, address.subnetAddress.contains peerIp →
      ∀ eth, AddressedTo eth address.ipAddress →
        ∃ sub ∈ subs, sub.intent.Accepts intf.connectPoint eth ∧ sub.intent.egressPoint = quaggaCp

/-- The builder accepts the port of every peer (any port other than that of the speaker), peers in
one /24 are at one port, and the address of an interface in the subnet of its peer is the first
one. (At the port of the speaker it can also be in the /24 of a peer there.) -/
def Separable (services : Services) (network : Network) (quaggaCp : ConnectPoint)
    (peersIp : List Ip4Address) : Prop :=
  ∀ peerIp ∈ peersIp, ∀ intf, network.getMatchingInterface peerIp = some intf →
    services.checks.pointToPoint quaggaCp intf.connectPoint ∧
    (∀ peerIp' ∈ peersIp, ∀ intf', network.getMatchingInterface peerIp' = some intf' →
      IpPrefix.valueOf peerIp' 24 = IpPrefix.valueOf peerIp 24 →
      intf'.connectPoint = intf.connectPoint) ∧
    ∀ address ∈ intf.ipAddressesList, address.subnetAddress.contains peerIp →
      intf.ipAddressesList.head? = some address ∨
      intf.connectPoint = quaggaCp ∧ ∃ peerIp' ∈ peersIp, ∃ intf',
        network.getMatchingInterface peerIp' = some intf' ∧ intf'.connectPoint = quaggaCp ∧
          (IpPrefix.valueOf peerIp' 24).contains address.ipAddress

section Intents

variable {services : Services} {network : Network} {config : QuaggaConfig}
  {e : NetworkConfigEvent QuaggaConfig} {s : State} {quaggaCp : ConnectPoint}
  {peersIp : List Ip4Address}

/-- The two intents of the session with a peer at the interface `intf`. -/
inductive SessionIntent (services : Services) (quaggaCp : ConnectPoint) (peerIp : Ip4Address)
    (intf : Interface) : Submission → Prop
  | out : services.checks.pointToPoint quaggaCp intf.connectPoint →
      SessionIntent services quaggaCp peerIp intf ⟨.bgpOut, .pointToPoint
        (bgpIntent services quaggaCp intf.connectPoint (IpPrefix.valueOf peerIp 24))⟩
  | into {address : InterfaceIpAddress} : intf.ipAddressesList.head? = some address →
      services.checks.pointToPoint intf.connectPoint quaggaCp →
      SessionIntent services quaggaCp peerIp intf ⟨.bgpIn, .pointToPoint
        (bgpIntent services intf.connectPoint quaggaCp address.subnetAddress)⟩

theorem pointToPointAttempt_eq_some {kind : IntentKind} {intent : PointToPointIntent}
    {sub : Submission} :
    pointToPointAttempt services kind intent = some sub ↔
      services.checks.pointToPoint intent.filteredIngressPoint intent.filteredEgressPoint ∧
        ⟨kind, .pointToPoint intent⟩ = sub := by
  rw [pointToPointAttempt, Option.ite_none_right_eq_some, Option.some.injEq]

theorem mem_peerAttempts {peerIp : Ip4Address} {sub : Submission} :
    some sub ∈ peerAttempts services network quaggaCp peerIp ↔
      ∃ intf, network.getMatchingInterface peerIp = some intf ∧
        SessionIntent services quaggaCp peerIp intf sub := by
  unfold peerAttempts
  cases hintf : network.getMatchingInterface peerIp with
  | none => simp
  | some intf =>
    simp only [Option.elim_some, List.mem_pair, Option.some.injEq, exists_eq_left']
    rw [eq_comm, pointToPointAttempt_eq_some, eq_comm (a := some sub), Option.bind_eq_some_iff]
    simp only [pointToPointAttempt_eq_some]
    constructor
    · rintro (⟨hcheck, rfl⟩ | ⟨address, haddress, hcheck, rfl⟩)
      · exact .out hcheck
      · exact .into haddress hcheck
    · rintro (hcheck | ⟨haddress, hcheck⟩)
      · exact .inl ⟨hcheck, rfl⟩
      · exact .inr ⟨_, haddress, hcheck, rfl⟩

theorem bgpAttempts_eq (hcp : config.quaggaCp services = some quaggaCp)
    (hpeers : config.peersIp services = some peersIp) :
    bgpAttempts services network config =
      peersIp.flatMap (peerAttempts services network quaggaCp) := by
  rw [bgpAttempts, hcp, hpeers]

theorem submittedBy_config_eq (hread : e.read = some config) (hparses : Parses services config) :
    submittedBy services s (.config network e) =
      succeeded (bgpAttempts services network config) := by
  rw [(submittedBy_config services s network e).1, bgpOf, hread, Option.elim_some, bgpSubmissions,
    if_pos hparses]

/-- Every intent of a configuration event is of the session with a peer. -/
theorem sessionIntent_of_mem (hread : e.read = some config) (hparses : Parses services config)
    (hcp : config.quaggaCp services = some quaggaCp)
    (hpeers : config.peersIp services = some peersIp) {sub : Submission}
    (hsub : sub ∈ submittedBy services s (.config network e)) :
    ∃ peerIp ∈ peersIp, ∃ intf, network.getMatchingInterface peerIp = some intf ∧
      SessionIntent services quaggaCp peerIp intf sub := by
  rw [submittedBy_config_eq hread hparses, bgpAttempts_eq hcp hpeers] at hsub
  obtain ⟨peerIp, hpeer, hmem⟩ := List.mem_flatMap.mp (mem_of_mem_succeeded hsub)
  exact ⟨peerIp, hpeer, mem_peerAttempts.mp hmem⟩

/-- If the builder accepts the ports of the peers, the event submits the intents of all
sessions. -/
theorem mem_submittedBy_config (hread : e.read = some config) (hparses : Parses services config)
    (hcp : config.quaggaCp services = some quaggaCp)
    (hpeers : config.peersIp services = some peersIp)
    (hall : ∀ ip ∈ peersIp, ∃ intf, network.getMatchingInterface ip = some intf ∧
      services.checks.pointToPoint quaggaCp intf.connectPoint ∧ intf.ipAddressesList ≠ [])
    {peerIp : Ip4Address} (hpeer : peerIp ∈ peersIp) {intf : Interface}
    (hintf : network.getMatchingInterface peerIp = some intf) {sub : Submission}
    (hsub : SessionIntent services quaggaCp peerIp intf sub) :
    sub ∈ submittedBy services s (.config network e) := by
  have hnone : none ∉ peersIp.flatMap (peerAttempts services network quaggaCp) := by
    intro hmem
    obtain ⟨ip, hip, hmem⟩ := List.mem_flatMap.mp hmem
    obtain ⟨intf, hintf, hcheck, haddresses⟩ := hall ip hip
    obtain ⟨address, rest, haddress⟩ := List.exists_cons_of_ne_nil haddresses
    simp [peerAttempts, pointToPointAttempt, hintf, haddress, bgpIntent, hcheck,
      services.checks.pointToPoint_comm hcheck] at hmem
  rw [submittedBy_config_eq hread hparses, bgpAttempts_eq hcp hpeers]
  have hmem := List.mem_flatMap.mpr ⟨peerIp, hpeer, mem_peerAttempts.mpr ⟨intf, hintf, hsub⟩⟩
  rw [← map_some_succeeded hnone] at hmem
  obtain ⟨sub', hsub', heq⟩ := List.mem_map.mp hmem
  rwa [← Option.some.inj heq]

theorem accepts_bgpIntent {ingressPoint egressPoint cp : ConnectPoint} {p : IpPrefix}
    {eth : Ethernet} {ip : Ip4Address} (h : AddressedTo eth ip) :
    (Intent.pointToPoint (bgpIntent services ingressPoint egressPoint p)).Accepts cp eth ↔
      cp = ingressPoint ∧ p.contains ip := by
  obtain ⟨ipv4Pkt, hpay, rfl⟩ := h
  refine and_congr Finset.mem_singleton (matches_dstSelector.trans ?_)
  simp [hpay]

theorem exists_addressedTo (ip : Ip4Address) : ∃ eth, AddressedTo eth ip :=
  ⟨⟨MacAddress.ZERO, MacAddress.ZERO, .ipv4 ⟨Ip4Address.ZERO, ip, .udp 0 0⟩⟩, _, rfl, rfl⟩

theorem InterfacesOf.ne_nil {interfaces : List Interface}
    (henv : InterfacesOf network interfaces peersIp) {ip : Ip4Address} {intf : Interface}
    (hintf : network.getMatchingInterface ip = some intf) : intf.ipAddressesList ≠ [] := by
  obtain ⟨-, address, haddress, -⟩ := henv.matching ip intf hintf
  exact List.ne_nil_of_mem haddress

/-- The subnets are disjoint, so an address is in the subnet of one address of one interface. -/
theorem InterfacesOf.unique {interfaces : List Interface}
    (henv : InterfacesOf network interfaces peersIp) {ip ip₁ ip₂ : Ip4Address}
    {intf intf' : Interface} (hintf : network.getMatchingInterface ip₁ = some intf)
    (hintf' : network.getMatchingInterface ip₂ = some intf') {address address' : InterfaceIpAddress}
    (haddress : address ∈ intf.ipAddressesList) (haddress' : address' ∈ intf'.ipAddressesList)
    (hip : address.subnetAddress.contains ip) (hip' : address'.subnetAddress.contains ip) :
    intf = intf' ∧ address = address' :=
  henv.disjoint intf (henv.matching ip₁ intf hintf).1 address haddress intf'
    (henv.matching ip₂ intf' hintf').1 address' haddress' ⟨ip, hip, hip'⟩

end Intents

/-! ## Sessions and the condition for them -/

section Sessions

variable {services : Services} {network : Network} {config : QuaggaConfig}
  {e : NetworkConfigEvent QuaggaConfig} {quaggaCp : ConnectPoint} {peersIp : List Ip4Address}
  {interfaces : List Interface} {s : State} (hread : e.read = some config)
  (hparses : Parses services config) (hcp : config.quaggaCp services = some quaggaCp)
  (hpeers : config.peersIp services = some peersIp)

include hread hparses hcp hpeers

/-- A session that reaches the peer has an intent between the two ports. -/
theorem SessionsReach.accepted
    (hreach : SessionsReach network quaggaCp peersIp (submittedBy services s (.config network e)))
    {ip : Ip4Address} (hip : ip ∈ peersIp) {intf : Interface}
    (hintf : network.getMatchingInterface ip = some intf) :
    services.checks.pointToPoint quaggaCp intf.connectPoint := by
  obtain ⟨eth, heth⟩ := exists_addressedTo ip
  obtain ⟨hall, sub, hsub, hacc⟩ := (hreach ip hip intf hintf).1 eth heth
  have hegress := hall sub hsub hacc
  obtain ⟨ip', -, intf', -, hsession⟩ := sessionIntent_of_mem hread hparses hcp hpeers hsub
  cases hsession with
  | out hcheck => exact hegress ▸ hcheck
  | into _ hcheck =>
    -- an incoming intent at the port of the speaker, which is then that of the peer
    rw [← ((accepts_bgpIntent heth).mp hacc).1] at hcheck
    exact hegress ▸ hcheck

variable (henv : InterfacesOf network interfaces peersIp)

include henv

/-- The intents of all sessions are submitted, if the builder accepts the ports of the peers. -/
theorem InterfacesOf.mem_submittedBy
    (hchecks : ∀ ip ∈ peersIp, ∀ intf, network.getMatchingInterface ip = some intf →
      services.checks.pointToPoint quaggaCp intf.connectPoint)
    {ip : Ip4Address} (hip : ip ∈ peersIp) {intf : Interface}
    (hintf : network.getMatchingInterface ip = some intf) {sub : Submission}
    (hsub : SessionIntent services quaggaCp ip intf sub) :
    sub ∈ submittedBy services s (.config network e) := by
  refine mem_submittedBy_config hread hparses hcp hpeers (fun ip' hip' => ?_) hip hintf hsub
  obtain ⟨intf', hintf'⟩ := henv.peers ip' hip'
  exact ⟨intf', hintf', hchecks ip' hip' intf' hintf', henv.ne_nil hintf'⟩

theorem SessionsReach.separable
    (hreach : SessionsReach network quaggaCp peersIp
      (submittedBy services s (.config network e))) :
    Separable services network quaggaCp peersIp := by
  have hchecks : ∀ ip ∈ peersIp, ∀ intf, network.getMatchingInterface ip = some intf →
      services.checks.pointToPoint quaggaCp intf.connectPoint := fun ip hip intf hintf =>
    hreach.accepted hread hparses hcp hpeers hip hintf
  refine fun ip hip intf hintf => ⟨hchecks ip hip intf hintf, ?_, ?_⟩
  · intro ip' hip' intf' hintf' hsame
    obtain ⟨eth, heth⟩ := exists_addressedTo ip
    -- the outgoing intent of the other peer takes the packets to this one
    have hmem := henv.mem_submittedBy (s := s) hread hparses hcp hpeers hchecks hip' hintf'
      (.out (hchecks ip' hip' intf' hintf'))
    refine ((hreach ip hip intf hintf).1 eth heth).1 _ hmem ?_
    rw [accepts_bgpIntent heth, hsame]
    exact ⟨rfl, IpPrefix.contains_valueOf.mpr rfl⟩
  · intro address haddress hcontains
    obtain ⟨eth, heth⟩ := exists_addressedTo address.ipAddress
    obtain ⟨sub, hsub, hacc, hegress⟩ :=
      (hreach ip hip intf hintf).2 address haddress hcontains eth heth
    obtain ⟨ip', hip', intf', hintf', hsession⟩ :=
      sessionIntent_of_mem hread hparses hcp hpeers hsub
    cases hsession with
    | out _ =>
      obtain ⟨hport, hin⟩ := (accepts_bgpIntent heth).mp hacc
      exact .inr ⟨hport, ip', hip', intf', hintf', hegress, hin⟩
    | into hhead _ =>
      -- the subnet of an incoming intent that takes the packet is the one of the address
      obtain ⟨rfl, rfl⟩ := henv.unique hintf hintf' haddress (List.mem_of_mem_head? hhead)
        (henv.own intf (henv.matching ip intf hintf).1 address haddress)
        ((accepts_bgpIntent heth).mp hacc).2
      exact .inl hhead

/-- What takes the packets of the speaker to a peer leads to the port of the peer. -/
theorem Separable.egressPoint_eq (hsep : Separable services network quaggaCp peersIp)
    {ip : Ip4Address} (hip : ip ∈ peersIp) {intf : Interface}
    (hintf : network.getMatchingInterface ip = some intf) {eth : Ethernet}
    (heth : AddressedTo eth ip) {sub : Submission}
    (hsub : sub ∈ submittedBy services s (.config network e))
    (hacc : sub.intent.Accepts quaggaCp eth) : sub.intent.egressPoint = intf.connectPoint := by
  obtain ⟨ip', hip', intf', hintf', hsession⟩ := sessionIntent_of_mem hread hparses hcp hpeers hsub
  cases hsession with
  | out _ =>
    have hcontains := ((accepts_bgpIntent heth).mp hacc).2
    exact (hsep ip hip intf hintf).2.1 ip' hip' intf' hintf'
      (IpPrefix.valueOf_eq_valueOf_iff.mpr (IpPrefix.contains_valueOf.mp hcontains).symm)
  | into hhead _ =>
    -- at the port of the speaker, it is the incoming intent of the interface of this peer
    obtain ⟨hport, hcontains⟩ := (accepts_bgpIntent heth).mp hacc
    obtain ⟨-, address, haddress, hin⟩ := henv.matching ip intf hintf
    obtain ⟨rfl, -⟩ := henv.unique hintf hintf' haddress (List.mem_of_mem_head? hhead) hin hcontains
    exact hport

theorem Separable.sessionsReach (hsep : Separable services network quaggaCp peersIp) :
    SessionsReach network quaggaCp peersIp (submittedBy services s (.config network e)) := by
  intro ip hip intf hintf
  have hchecks := fun ip hip intf hintf => (hsep ip hip intf hintf).1
  have hcheck := hchecks ip hip intf hintf
  have hmem : ∀ ip' ∈ peersIp, ∀ intf', network.getMatchingInterface ip' = some intf' →
      ∀ sub, SessionIntent services quaggaCp ip' intf' sub →
        sub ∈ submittedBy services s (.config network e) := fun ip' hip' intf' hintf' sub =>
    henv.mem_submittedBy hread hparses hcp hpeers hchecks hip' hintf'
  constructor
  · intro eth heth
    refine ⟨fun sub hsub hacc =>
      hsep.egressPoint_eq hread hparses hcp hpeers henv hip hintf heth hsub hacc, ?_⟩
    refine ⟨_, hmem ip hip intf hintf _ (.out hcheck), ?_⟩
    exact (accepts_bgpIntent heth).mpr ⟨rfl, IpPrefix.contains_valueOf.mpr rfl⟩
  · intro address haddress hcontains eth heth
    rcases (hsep ip hip intf hintf).2.2 address haddress hcontains with
      hhead | ⟨hport, ip', hip', intf', hintf', hport', hin⟩
    · have hback := services.checks.pointToPoint_comm hcheck
      refine ⟨_, hmem ip hip intf hintf _ (.into hhead hback), ?_, rfl⟩
      exact (accepts_bgpIntent heth).mpr
        ⟨rfl, henv.own intf (henv.matching ip intf hintf).1 address haddress⟩
    · -- the outgoing intent of the other peer comes in and leaves at the port of the speaker
      refine ⟨_, hmem ip' hip' intf' hintf' _ (.out (hchecks ip' hip' intf' hintf')), ?_, hport'⟩
      exact (accepts_bgpIntent heth).mpr ⟨hport, hin⟩

end Sessions

/-- **When the BGP sessions reach the right peer.** Let the interface service answer with an
interface of a subnet that contains the address, and let the subnets be disjoint. The intents of
a configuration event then reach the right end of every session exactly when the builder accepts
the ports of the peers, the peers in one /24 are at one port, and the first address of the
interface of each peer is the one in its subnet. -/
theorem sessionsReach_iff_separable {services : Services} {network : Network}
    {config : QuaggaConfig} {e : NetworkConfigEvent QuaggaConfig} {quaggaCp : ConnectPoint}
    {peersIp : List Ip4Address} {interfaces : List Interface} (s : State)
    (hread : e.read = some config) (hparses : Parses services config)
    (hcp : config.quaggaCp services = some quaggaCp)
    (hpeers : config.peersIp services = some peersIp)
    (henv : InterfacesOf network interfaces peersIp) :
    SessionsReach network quaggaCp peersIp (submittedBy services s (.config network e)) ↔
      Separable services network quaggaCp peersIp := by
  constructor
  · exact fun hreach => hreach.separable hread hparses hcp hpeers henv
  · exact fun hsep => hsep.sessionsReach hread hparses hcp hpeers henv

/-- The network in which `interfaces` are configured. -/
def interfacesNetwork (interfaces : List Interface) : Network where
  getMatchingInterface ip :=
    interfaces.find? fun intf => intf.ipAddressesList.any (·.subnetAddress.contains ip)
  routeTables := []
  hosts := []

theorem interfacesOf_interfacesNetwork {interfaces : List Interface} {peersIp : List Ip4Address}
    (own : ∀ intf ∈ interfaces, ∀ address ∈ intf.ipAddressesList,
      address.subnetAddress.contains address.ipAddress)
    (disjoint : ∀ intf ∈ interfaces, ∀ address ∈ intf.ipAddressesList, ∀ intf' ∈ interfaces,
      ∀ address' ∈ intf'.ipAddressesList, address.subnetAddress.Overlaps address'.subnetAddress →
        intf = intf' ∧ address = address')
    (peers : ∀ ip ∈ peersIp, ((interfacesNetwork interfaces).getMatchingInterface ip).isSome) :
    InterfacesOf (interfacesNetwork interfaces) interfaces peersIp where
  matching ip intf h := by
    have hany := List.find?_some
      (p := fun intf : Interface => intf.ipAddressesList.any (·.subnetAddress.contains ip)) h
    exact ⟨List.mem_of_find?_eq_some h, List.any_eq_true.mp hany⟩
  own := own
  disjoint := disjoint
  peers ip hip := Option.isSome_iff_exists.mp (peers ip hip)

/-- The interfaces of the deployment. -/
def deployedInterfaces : List Interface :=
  [interfaceAt ⟨⟨2⟩, ⟨3⟩⟩ ⟨0xac1e0101⟩, interfaceAt ⟨⟨2⟩, ⟨4⟩⟩ ⟨0xac1e0201⟩,
    interfaceAt ⟨⟨1⟩, ⟨4⟩⟩ ⟨0xac1e0301⟩]

/-- The sessions of the deployment reach the right peers. -/
theorem sessionsReach_deployed :
    SessionsReach (interfacesNetwork deployedInterfaces) ⟨⟨2⟩, ⟨2⟩⟩ deployedPeers
      (submittedBy deployed .init
        (.config (interfacesNetwork deployedInterfaces) deployedEvent)) := by
  refine (sessionsReach_iff_separable .init (show deployedEvent.read = some deployedConfig from rfl)
    (by decide) rfl rfl
    (interfacesOf_interfacesNetwork (by decide) (by decide) (by decide))).mpr ?_
  have hports : ∀ ip ∈ deployedPeers,
      ∀ intf ∈ (interfacesNetwork deployedInterfaces).getMatchingInterface ip,
        deployed.checks.pointToPoint ⟨⟨2⟩, ⟨2⟩⟩ intf.connectPoint ∧
        (∀ ip' ∈ deployedPeers,
          ∀ intf' ∈ (interfacesNetwork deployedInterfaces).getMatchingInterface ip',
          IpPrefix.valueOf ip' 24 = IpPrefix.valueOf ip 24 →
            intf'.connectPoint = intf.connectPoint) ∧
        ∀ address ∈ intf.ipAddressesList, intf.ipAddressesList.head? = some address := by
    decide
  intro ip hip intf hintf
  obtain ⟨hcheck, hsubnet, hfirst⟩ := hports ip hip intf hintf
  exact ⟨hcheck, hsubnet, fun address haddress _ => .inl (hfirst address haddress)⟩

/-- The interfaces of the deployment, the first with another address listed first. -/
def twoAddresses : List Interface :=
  [⟨⟨⟨2⟩, ⟨3⟩⟩, [⟨⟨0x0a000001⟩, IpPrefix.valueOf ⟨0x0a000001⟩ 24⟩,
      ⟨⟨0xac1e0101⟩, IpPrefix.valueOf ⟨0xac1e0101⟩ 24⟩]⟩,
    interfaceAt ⟨⟨2⟩, ⟨4⟩⟩ ⟨0xac1e0201⟩, interfaceAt ⟨⟨1⟩, ⟨4⟩⟩ ⟨0xac1e0301⟩]

/-- **A session that does not reach the speaker**: the subnet of the first peer is that of the
second address of its interface, and no intent takes the packets of the peer to that address. -/
theorem session_of_second_address :
    InterfacesOf (interfacesNetwork twoAddresses) twoAddresses deployedPeers ∧
      ¬ SessionsReach (interfacesNetwork twoAddresses) ⟨⟨2⟩, ⟨2⟩⟩ deployedPeers
        (submittedBy deployed .init
          (.config (interfacesNetwork twoAddresses) deployedEvent)) := by
  refine ⟨interfacesOf_interfacesNetwork (by decide) (by decide) (by decide), fun h => ?_⟩
  obtain ⟨sub, hsub, hacc, -⟩ := (h ⟨0xac1e0102⟩ (by decide)
    ⟨⟨⟨2⟩, ⟨3⟩⟩, [⟨⟨0x0a000001⟩, IpPrefix.valueOf ⟨0x0a000001⟩ 24⟩,
      ⟨⟨0xac1e0101⟩, IpPrefix.valueOf ⟨0xac1e0101⟩ 24⟩]⟩ (by decide)).2
    ⟨⟨0xac1e0101⟩, IpPrefix.valueOf ⟨0xac1e0101⟩ 24⟩ (by decide) (by decide)
    ⟨⟨2⟩, ⟨3⟩, .ipv4 ⟨⟨0xac1e0102⟩, ⟨0xac1e0101⟩, .udp 179 179⟩⟩ ⟨_, rfl, rfl⟩
  have hnone : ∀ sub ∈ submittedBy deployed .init
      (.config (interfacesNetwork twoAddresses) deployedEvent), ¬ sub.intent.Accepts ⟨⟨2⟩, ⟨3⟩⟩
        ⟨⟨2⟩, ⟨3⟩, .ipv4 ⟨⟨0xac1e0102⟩, ⟨0xac1e0101⟩, .udp 179 179⟩⟩ := by decide
  exact hnone sub hsub hacc

end VRouter
