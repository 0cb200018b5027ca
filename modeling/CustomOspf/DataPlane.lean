import CustomOspf.Delivery
import CustomOspf.SharedTable

/-!
Where the packets go. The kernel of a router takes the longest of the routes that
cover an address; what the tables have put into the kernels carries a packet to
its subnet by a shortest walk.
-/

namespace CustomOspf

open SimpleRoutingProtocol HopDistance

/-! A property of tables that every change keeps is kept by every event of a router. -/

section Events

variable {κ : Type} [IpNetwork] [NetRoute κ] (I : TableInvariant κ)

theorem TableInvariant.purge (ids : List String) {p : SimpleRoutingProtocol κ} (h : I.holds p.router.routingTable) :
    I.holds (ids.foldl purgeDeadNeighbor p).router.routingTable := by
  induction ids generalizing p with
  | nil => exact h
  | cons id ids ih =>
    apply ih
    unfold purgeDeadNeighbor
    split
    · exact I.removeVia _ _ h
    · exact h

theorem TableInvariant.event {p : SimpleRoutingProtocol κ} (h : I.holds p.router.routingTable) {e : Event}
    (he : ∀ message addr now, e = .update message addr now → ∀ key r, (key, r) ∈ accepted message addr now p →
      I.offered p.router.routingTable.localNetworks r) : I.holds (p.step e).router.routingTable := by
  cases e with
  | hello message addr now =>
    obtain ⟨neighbors, hn⟩ := handleHelloMessageStatic_eq message addr now p
    rw [SimpleRoutingProtocol.step, hn]
    exact h
  | update message addr now =>
    rw [SimpleRoutingProtocol.step, handleUpdateMessageStatic_eq]
    apply I.updateRoutes h
    intro r hr
    obtain ⟨⟨key, route⟩, hk, rfl⟩ := List.mem_map.mp hr
    exact he message addr now rfl key route hk
  | cleanup now =>
    rw [SimpleRoutingProtocol.step, performCleanup_eq]
    apply I.purge
    exact I.removeDestinations _ h

end Events

namespace SystemRoute

open LawfulNetRoute

variable [IpNetwork]

def Covers (route : SystemRoute) (ip : Ipv4Addr) : Prop :=
  (⟨route.destination, route.prefixLen⟩ : Ipv4Network).contains ip = true

/-- The route by which a packet leaves: none that covers its address is longer. -/
structure Taken {κ : Type} [NetRoute κ] [LawfulNetRoute κ] (kernel : κ) (ip : Ipv4Addr) (route : SystemRoute) : Prop where
  present : route ∈ held kernel
  covers : route.Covers ip
  longest : ∀ other ∈ held kernel, other.Covers ip → other.prefixLen ≤ route.prefixLen

/-- The host's own route to a network that one of its interfaces is on. -/
def connected (d : Ipv4Network) : SystemRoute := ⟨d.network, d.prefixLen, .unspecified⟩

theorem covers_iff {d : Ipv4Network} {route : SystemRoute} (hdest : route.destination = d.network)
    (hlen : route.prefixLen = d.prefixLen) (ip : Ipv4Addr) : route.Covers ip ↔ d.contains ip = true := by
  have hsame : (⟨route.destination, route.prefixLen⟩ : Ipv4Network) = d.subnet := by rw [hdest, hlen]; rfl
  rw [Covers, hsame, Ipv4Network.contains_of_subnet_eq (Ipv4Network.subnet_subnet d)]

theorem taken_iff {κ : Type} [NetRoute κ] [LawfulNetRoute κ] {kernel : κ} {ip : Ipv4Addr} {route : SystemRoute}
    (hroute : route ∈ held kernel) (hcovers : route.Covers ip)
    (hshort : ∀ other ∈ held kernel, other.Covers ip → other = route ∨ other.prefixLen < route.prefixLen)
    (other : SystemRoute) : Taken kernel ip other ↔ other = route := by
  constructor
  · intro h
    rcases hshort other h.present h.covers with he | hlt
    · exact he
    · exact absurd (h.longest route hroute hcovers) hlt.not_ge
  · rintro rfl
    refine ⟨hroute, hcovers, ?_⟩
    intro third hthird hcov
    rcases hshort third hthird hcov with rfl | hlt
    · exact le_refl _
    · exact hlt.le

end SystemRoute

theorem Ipv4Network.subnet_eq_of_contains [IpNetwork] {m n : Ipv4Network} (hlen : m.prefixLen = n.prefixLen)
    {ip : Ipv4Addr} (hm : m.contains ip = true) (hn : n.contains ip = true) : m.subnet = n.subnet := by
  rw [Ipv4Network.subnet_eq_iff]
  refine ⟨?_, hlen⟩
  unfold contains at hm hn
  rw [IpNetwork.contains_iff] at hm hn
  rw [← hlen] at hn
  exact hm.symm.trans hn

namespace System

open Kernel LawfulNetRoute

section Kernels

variable {ι κ : Type} [DecidableEq ι] [IpNetwork] [NetRoute κ] [LawfulNetRoute κ]
  {start : ι → SimpleRoutingProtocol κ}

def kernel (s : System ι κ) (i : ι) : κ := (s.nodes i).router.routingTable.routeHandle

/-- Before the protocol starts a kernel has the routes of its interfaces, and others that are shorter than any subnet,
as a default route is. It takes the addresses of the routers on its subnets for gateways. -/
structure HostRoutes (start : ι → SimpleRoutingProtocol κ) : Prop where
  connected : ∀ i d, Attached (start i) d → SystemRoute.connected d ∈ held (kernel (boot start) i)
  others : ∀ i, ∀ route ∈ held (kernel (boot start) i), (∃ d, Attached (start i) d ∧ route = SystemRoute.connected d) ∨
    ∀ k d, Attached (start k) d → route.prefixLen < d.prefixLen
  gateways : ∀ i d, Attached (start i) d → ∀ k, ∀ ip ∈ (start k).ourIps, d.contains ip = true →
    ∀ route : SystemRoute, route.gateway = ip → Takes (kernel (boot start) i) route

/-! Every network that is ever advertised or learned is one of the subnets. -/

section Sources

omit [LawfulNetRoute κ]

theorem Derived.unknown (ht : LocalTopology start) {s : System ι κ} (hs : Derived start s)
    {d : Ipv4Network} (hd : d.subnet = d) (hnone : ∀ k, ¬ Attached (start k) d) :
    DistanceVector.Unknown (view start s d) := by
  have hboot : DistanceVector.Unknown (view start (boot start) d) := by
    refine ⟨?_, (view_boot ht d hd).adverts⟩
    intro i
    cases hheld : (view start (boot start) d).held i with
    | none => rfl
    | some e =>
      obtain ⟨e', he', -⟩ := Option.map_eq_some_iff.mp hheld
      have he' : reach (start i) d = some e' := he'
      exact absurd (boot_attached ht hd (by rw [he']; rfl)) (hnone i)
  exact hboot.of_reachable (hs.reachable d hd)

theorem Derived.route_attached (ht : LocalTopology start) {s : System ι κ} (hs : Derived start s)
    {i : ι} {r : RouteEntry} (hr : r ∈ (s.nodes i).router.routingTable.routes) :
    ∃ k, Attached (start k) r.destination.subnet := by
  by_contra hnone
  obtain ⟨installed, hw, hl⟩ := ht.node hs.sound i
  have hentry : reach (s.nodes i) r.destination.subnet = some (r.metric, r.nextHop) := Observed.reach_entry hw hl hr
  have hheld := (hs.unknown ht (Ipv4Network.subnet_subnet r.destination) (not_exists.mp hnone)).held i
  simp [view, hentry] at hheld

theorem Derived.advert_attached (ht : LocalTopology start) {s : System ι κ} (hs : Derived start s)
    {g : Datagram ι} (hg : g ∈ s.sent) {info : RouteInfo} (hinfo : info ∈ g.update.routes) {d : Ipv4Network}
    (hd : RouteManager.destinationOf info.destination = some d) {ip : Ipv4Addr}
    (hip : Ipv4Addr.parse info.nextHop = some ip) : ∃ k, Attached (start k) d := by
  by_contra hnone
  have hadverts := (hs.unknown ht (RouteManager.destinationOf_subnet hd) (not_exists.mp hnone)).adverts
  have hmem : (⟨g.origin, entry start (info.metric, ip)⟩ : DistanceVector.Advert ι) ∈ (view start s d).adverts :=
    ⟨g, hg, info, hinfo, ip, hd, hip, rfl⟩
  rw [hadverts] at hmem
  exact Set.notMem_empty _ hmem

end Sources

omit [DecidableEq ι] in
theorem agrees_boot (ht : Topology start) (i : ι) :
    TableAgrees (kernel (boot start) i) ((boot start).nodes i).router.routingTable := by
  obtain ⟨routerId, hosts, hostsAtTable, names, port, handle, hnew⟩ := ht.booted i
  unfold SimpleRoutingProtocol.new at hnew
  split at hnew
  · cases hnew
  · next router hrouter =>
    have hagrees := TableAgrees.new hrouter
    obtain ⟨interfaces, -, rfl⟩ := Router.new_ok hrouter
    have hhandle := (Router.addDirectRoutes_spec interfaces.entries
      (t := RoutingTable.new handle hostsAtTable) List.nodup_nil (by simp [RoutingTable.new])).2.2.1
    have hstart := (Except.ok.inj hnew).symm
    simp only [kernel, boot, hstart]
    rw [hhandle]
    exact hagrees

omit [DecidableEq ι] in
theorem unclaimed (ht : LocalTopology start) (hhosts : HostRoutes start) {s : System ι κ}
    (hs : Sound start s) {i k : ι} {d : Ipv4Network} (hk : Attached (start k) d)
    (hremote : ∀ net ∈ (s.nodes i).router.routingTable.localNetworks, d.subnet ≠ net.subnet) :
    Unclaimed (kernel (boot start) i) d := by
  rintro route hroute ⟨hdest, hlen⟩
  rcases hhosts.others i route hroute with ⟨own, ⟨name, info, hlookup, rfl⟩, rfl⟩ | hshort
  · -- the network of an interface is local
    apply hremote info.network
    · rw [(hs.same i).localNetworks]
      exact ht.listed i name info hlookup
    · rw [Ipv4Network.subnet_eq_iff]
      exact ⟨hdest.symm.trans (Ipv4Network.subnet_network info.network), hlen.symm⟩
  · have hlt := hshort k d hk
    rw [hlen] at hlt
    exact absurd hlt (lt_irrefl _)

theorem agrees_moves (ht : LocalTopology start) (hhosts : HostRoutes start) {s t : System ι κ}
    {a : Action ι} (hs : Sound start s) (h : Moves s a t)
    (hknown : ∀ g ∈ s.sent, ∀ info ∈ g.update.routes, ∀ d ip, RouteManager.destinationOf info.destination = some d →
      Ipv4Addr.parse info.nextHop = some ip → ∃ k, Attached (start k) d)
    (hagrees : ∀ i, TableAgrees (kernel (boot start) i) (s.nodes i).router.routingTable) (i : ι) :
    TableAgrees (kernel (boot start) i) (t.nodes i).router.routingTable := by
  have hevent (e : Event) (he : ∀ message addr now, e = .update message addr now →
      ∀ key r, (key, r) ∈ accepted message addr now (s.nodes i) →
        (kernelOf (kernel (boot start) i)).offered (s.nodes i).router.routingTable.localNetworks r) :
      TableAgrees (kernel (boot start) i) ((s.nodes i).step e).router.routingTable :=
    (kernelOf (kernel (boot start) i)).event (hagrees i) he
  have hmove (j : ι) (e : Event) (hself : i = j → TableAgrees (kernel (boot start) i)
      ((s.nodes i).step e).router.routingTable) :
      TableAgrees (kernel (boot start) i) ((s.move j ((s.nodes j).step e)).nodes i).router.routingTable := by
    by_cases hi : i = j
    · have hend := hself hi
      subst hi
      rw [move_nodes_self]
      exact hend
    · rw [move_nodes_of_ne s hi]
      exact hagrees i
  cases h with
  | stay => exact hagrees i
  | send j =>
    obtain ⟨sequence, hq⟩ := broadcast_nodes s j i
    rw [hq]
    exact hagrees i
  | deliver k j now g hg hattached =>
    apply hmove
    rintro rfl
    apply hevent
    intro message addr now' he key r hr
    obtain ⟨rfl, rfl, rfl⟩ := Event.update.inj he
    obtain ⟨-, sender, -, info, hinfo, rfl, hprocessed, -⟩ := mem_accepted.mp hr
    obtain ⟨d, nh, name, iface, hd, hnh, -, -, rfl, -⟩ := RouteManager.processSingleRoute_iff.mp hprocessed
    obtain ⟨k', hk'⟩ := hknown g hg info hinfo d nh hd hnh
    have hnormal := RouteManager.destinationOf_subnet hd
    exact offered_kernelOf rfl hnormal (fun hremote => unclaimed ht hhosts hs hk' hremote)
  | hello message addr j now =>
    apply hmove
    intro _
    apply hevent
    intro message' addr' now' he
    cases he
  | cleanup j now =>
    apply hmove
    intro _
    apply hevent
    intro message' addr' now' he
    cases he

theorem agrees_run (ht : LocalTopology start) (hhosts : HostRoutes start) (actions : List (Action ι)) (i : ι) :
    TableAgrees (kernel (boot start) i) (((boot start).run actions).nodes i).router.routingTable := by
  induction actions using List.reverseRecOn generalizing i with
  | nil => exact agrees_boot ht.toTopology i
  | append_singleton actions a ih =>
    have hs := (Sound.boot ht.toTopology).run actions
    rw [run_append]
    apply agrees_moves ht hhosts hs (step_moves _ a) _ ih
    intro g hg info hinfo d ip hd hip
    exact (Derived.run ht actions).advert_attached ht hg hinfo hd hip

structure Mirrored (start : ι → SimpleRoutingProtocol κ) (s : System ι κ) : Prop
    extends Derived start s where
  agrees : ∀ i, TableAgrees (kernel (boot start) i) (s.nodes i).router.routingTable

theorem Mirrored.run (ht : LocalTopology start) (hhosts : HostRoutes start) (actions : List (Action ι)) :
    Mirrored start ((boot start).run actions) := ⟨Derived.run ht actions, agrees_run ht hhosts actions⟩

end Kernels

section Packets

variable {ι κ : Type} [IpNetwork] {start : ι → SimpleRoutingProtocol κ}

structure Home (start : ι → SimpleRoutingProtocol κ) (ip : Ipv4Addr) (d : Ipv4Network) : Prop where
  contains : d.contains ip = true
  attached : ∃ k, Attached (start k) d
  longest : ∀ k d', Attached (start k) d' → d'.contains ip = true → d'.prefixLen ≤ d.prefixLen

theorem attached_subnet {i : ι} {d : Ipv4Network} (h : Attached (start i) d) : d.subnet = d := by
  obtain ⟨name, info, -, rfl⟩ := h
  exact Ipv4Network.subnet_subnet info.network

theorem Home.subnet_eq {ip : Ipv4Addr} {d : Ipv4Network} (h : Home start ip d) : d.subnet = d := by
  obtain ⟨k, hk⟩ := h.attached
  exact attached_subnet hk

theorem Home.eq_or_lt {ip : Ipv4Addr} {d d' : Ipv4Network} (h : Home start ip d) {k : ι} (hk : Attached (start k) d')
    (hcontains : d'.contains ip = true) : d' = d ∨ d'.prefixLen < d.prefixLen := by
  rcases (h.longest k d' hk hcontains).eq_or_lt with hlen | hlt
  · left
    rw [← attached_subnet hk, ← h.subnet_eq]
    exact Ipv4Network.subnet_eq_of_contains hlen hcontains h.contains
  · exact Or.inr hlt

variable [NetRoute κ] [LawfulNetRoute κ]

/-- The packet leaves by a route whose gateway is an address of the other router. -/
def PassesOn (s : System ι κ) (ip : Ipv4Addr) (i k : ι) : Prop :=
  ∃ route, SystemRoute.Taken (kernel s i) ip route ∧ route.gateway.isUnspecified = false ∧
    route.gateway ∈ (s.nodes k).ourIps

variable [DecidableEq ι]

theorem Mirrored.learned_not_attached (ht : LocalTopology start) {s : System ι κ}
    (hs : Mirrored start s) {i : ι} {r : RouteEntry} (hr : r ∈ (s.nodes i).router.routingTable.routes)
    (hsrc : r.source = .protocol) : r.destination.subnet = r.destination ∧ ¬ Attached (start i) r.destination := by
  obtain ⟨installed, hw, hl⟩ := ht.node hs.sound i
  have hno : ¬ Attached (s.nodes i) r.destination.subnet := Observed.protocol_not_attached hw hl hr hsrc
  obtain ⟨hnormal, -⟩ := Observed.reach_protocol hw hl hr hsrc
  rw [hnormal, (hs.sound.same i).attached] at hno
  exact ⟨hnormal, hno⟩

section Routes

variable (ht : LocalTopology start) (hhosts : HostRoutes start) {ip : Ipv4Addr} {d : Ipv4Network}
  (hhome : Home start ip d) {s : System ι κ} (hs : Mirrored start s) {i : ι}

include ht hhosts hhome hs

theorem Mirrored.covering_cases {route : SystemRoute} (hroute : route ∈ held (kernel s i)) (hcovers : route.Covers ip) :
    route.prefixLen < d.prefixLen ∨ (Attached (start i) d ∧ route = SystemRoute.connected d) ∨
      ∃ r ∈ (s.nodes i).router.routingTable.routes, r.source = .protocol ∧ r.destination = d ∧
        route = RoutingTable.systemRoute r := by
  rcases (TableAgrees.mem_iff (hs.agrees i) route).mp hroute with hinitial | ⟨r, hr, hsrc, -, rfl⟩
  · rcases hhosts.others i route hinitial with ⟨own, hown, rfl⟩ | hshort
    · have hcontains := (SystemRoute.covers_iff rfl rfl ip).mp hcovers
      rcases hhome.eq_or_lt hown hcontains with rfl | hlt
      · exact Or.inr (Or.inl ⟨hown, rfl⟩)
      · exact Or.inl hlt
    · obtain ⟨k, hk⟩ := hhome.attached
      exact Or.inl (hshort k d hk)
  · obtain ⟨k, hk⟩ := hs.route_attached ht hr
    rw [(hs.learned_not_attached ht hr hsrc).1] at hk
    have hcontains := (SystemRoute.covers_iff rfl rfl ip).mp hcovers
    rcases hhome.eq_or_lt hk hcontains with he | hlt
    · exact Or.inr (Or.inr ⟨r, hr, hsrc, he, rfl⟩)
    · exact Or.inl hlt

theorem Mirrored.taken_attached (hattached : Attached (start i) d) (route : SystemRoute) :
    SystemRoute.Taken (kernel s i) ip route ↔ route = SystemRoute.connected d := by
  apply SystemRoute.taken_iff
  · exact (TableAgrees.mem_iff (hs.agrees i) _).mpr (Or.inl (hhosts.connected i d hattached))
  · exact (SystemRoute.covers_iff rfl rfl ip).mpr hhome.contains
  · intro other hother hcovers
    obtain hlt | ⟨-, rfl⟩ | ⟨r, hr, hsrc, rfl, -⟩ := hs.covering_cases ht hhosts hhome hother hcovers
    · exact Or.inr hlt
    · exact Or.inl rfl
    · exact absurd hattached (hs.learned_not_attached ht hr hsrc).2

theorem Mirrored.taken_learned {r : RouteEntry} (hr : r ∈ (s.nodes i).router.routingTable.routes)
    (hsrc : r.source = .protocol) (htakes : Takes (kernel (boot start) i) (RoutingTable.systemRoute r))
    (hrd : r.destination = d) (route : SystemRoute) :
    SystemRoute.Taken (kernel s i) ip route ↔ route = RoutingTable.systemRoute r := by
  subst hrd
  apply SystemRoute.taken_iff
  · exact (TableAgrees.mem_iff (hs.agrees i) _).mpr (Or.inr ⟨r, hr, hsrc, htakes, rfl⟩)
  · exact (SystemRoute.covers_iff rfl rfl ip).mpr hhome.contains
  · intro other hother hcovers
    obtain hlt | ⟨hattached, -⟩ | ⟨r', hr', -, hsame, rfl⟩ := hs.covering_cases ht hhosts hhome hother hcovers
    · exact Or.inr hlt
    · exact absurd hattached (hs.learned_not_attached ht hr hsrc).2
    · left
      obtain ⟨installed, hw⟩ := hs.sound.node i
      rw [List.inj_on_of_nodup_map hw.distinct hr' hr hsame]

theorem Mirrored.passesOn_iff (htakes : ∀ r ∈ (s.nodes i).router.routingTable.routes, r.source = .protocol →
    Takes (kernel (boot start) i) (RoutingTable.systemRoute r))
    (hfound : ∃ r ∈ (s.nodes i).router.routingTable.routes, r.destination.subnet = d) (k : ι) :
    PassesOn s ip i k ↔ Forwards s d i k := by
  obtain ⟨installed, hw⟩ := hs.sound.node i
  constructor
  · rintro ⟨route, htaken, hgateway, hk⟩
    obtain ⟨r, hr, hrd⟩ := hfound
    obtain ⟨name, info, hlookup, rfl⟩ | ⟨hsrc, hnormal, -⟩ := hw.routes r hr
    · have hattached : Attached (start i) d := ((hs.sound.same i).attached d).mp ⟨name, info, hlookup, hrd⟩
      obtain rfl := (hs.taken_attached ht hhosts hhome hattached route).mp htaken
      cases hgateway
    · rw [hnormal] at hrd
      obtain rfl := (hs.taken_learned ht hhosts hhome hr hsrc (htakes r hr hsrc) hrd route).mp htaken
      exact ⟨r, hr, hsrc, hrd, hk⟩
  · rintro ⟨r, hr, hsrc, hrd, hk⟩
    refine ⟨_, (hs.taken_learned ht hhosts hhome hr hsrc (htakes r hr hsrc) hrd _).mpr rfl, ?_, hk⟩
    exact ((RoutingTable.isValidRoute_protocol hsrc).mp (hw.valid r hr)).2.1

end Routes

theorem Mirrored.takes_learned (ht : Static start) (hhosts : HostRoutes start) {s : System ι κ} (hs : Mirrored start s)
    {i : ι} {r : RouteEntry} (hr : r ∈ (s.nodes i).router.routingTable.routes) (hsrc : r.source = .protocol)
    (hpointed : ∃ k, r.nextHop ∈ (start k).ourIps ∧ Linked start i k) :
    Takes (kernel (boot start) i) (RoutingTable.systemRoute r) := by
  obtain ⟨installed, hw⟩ := hs.sound.node i
  obtain ⟨-, -, -, net, hnet, hin⟩ := (RoutingTable.isValidRoute_protocol hsrc).mp (hw.valid r hr)
  obtain ⟨k, hk, -⟩ := hpointed
  have hlocal : net ∈ (start i).router.routingTable.localNetworks := by
    rw [← (hs.sound.same i).localNetworks]
    exact hnet
  obtain ⟨name, info, hlookup, rfl⟩ := ht.only i net hlocal
  apply hhosts.gateways i info.network.subnet ⟨name, info, hlookup, rfl⟩ k r.nextHop hk _ _ rfl
  rw [Ipv4Network.contains_of_subnet_eq (Ipv4Network.subnet_subnet info.network)]
  exact hin

theorem Mirrored.delivers (ht : Static start) (hhosts : HostRoutes start) {ip : Ipv4Addr} {d : Ipv4Network}
    (hhome : Home start ip d) {s : System ι κ} (hs : Mirrored start s) {n : ℕ}
    (hc : Converged start s d n) (i : ι) (hi : dist start d i ≤ n) :
    (∀ k, PassesOn s ip i k → (linkGraph start).Adj i k ∧ dist start d i = dist start d k + 1) ∧
      ∃ t, (Attached (start t) d ∧
          ∀ route, SystemRoute.Taken (kernel s t) ip route ↔ route = SystemRoute.connected d) ∧
        ∃ p : (linkGraph start).Walk i t, (p.length : ℕ∞) = dist start d i ∧ ∀ a ∈ p.darts, PassesOn s ip a.fst a.snd := by
  have hd := hhome.subnet_eq
  have hfollows : ∀ i k, dist start d i ≤ n → (PassesOn s ip i k ↔ Forwards s d i k) := fun i k hi =>
    hs.passesOn_iff ht.topology hhosts hhome
      (fun r hr hsrc => hs.takes_learned ht hhosts hr hsrc (hc.pointed i r hr hsrc)) (hc.entries ht hi).1 k
  have hnear : ∀ i k, dist start d i ≤ n → PassesOn s ip i k →
      (linkGraph start).Adj i k ∧ dist start d i = dist start d k + 1 := by
    intro i k hi hpass
    exact hc.forwards_nearer ht hd hi ((hfollows i k hi).mp hpass)
  have hon : ∀ i, dist start d i ≤ n → i ∉ {k | Attached (start k) d} → ∃ k, PassesOn s ip i k := by
    intro i hi hout
    obtain ⟨k, hk⟩ := hc.forwards_somewhere ht hd hi hout
    exact ⟨k, (hfollows i k hi).mpr hk⟩
  refine ⟨fun k => hnear i k hi, ?_⟩
  obtain ⟨t, hattached, p, hlength, hdarts⟩ := exists_walk_of_descent hnear hon i hi
  exact ⟨t, ⟨hattached, hs.taken_attached ht.topology hhosts hhome hattached⟩, p, hlength, hdarts⟩

section Delivered

variable [Fintype ι] (ht : Static start) (hplan : AddressPlan start) (hhosts : HostRoutes start) {ip : Ipv4Addr}
  {d : Ipv4Network} (hhome : Home start ip d) {before rest : List (Action ι)} (hcalm : Calm start before rest d) {n : ℕ}
  (h : Rounds System.run (Round start) n ((boot start).run before) rest)

include ht hplan hhosts hhome hcalm h

end Delivered

end Packets

/-! Two routers, of which "B" has a default route beside that of its link, and a packet for the network of "A". -/

section Pair

def pairHosts : Bool → List NetworkInterface
  | false => [.up "eth0" (.new 10 9 0 1) 24, .up "eth1" (.new 10 0 0 1) 24]
  | true => [.up "eth0" (.new 10 0 0 2) 24]

def pairKernel : Bool → MainTable
  | false => ⟨{⟨.new 10 9 0 0, 24, .unspecified⟩, ⟨.new 10 0 0 0, 24, .unspecified⟩}, {.new 10 9 0 255, .new 10 0 0 255}⟩
  | true => ⟨{⟨.new 10 0 0 0, 24, .unspecified⟩, ⟨.new 0 0 0 0, 0, .new 10 0 0 254⟩}, {.new 10 0 0 255}⟩

def pairNew (i : Bool) : Except String (SimpleRoutingProtocol MainTable) :=
  SimpleRoutingProtocol.new (if i then "B" else "A") (pairHosts i) (pairHosts i) ["eth0", "eth1"] 5555 (pairKernel i)

theorem pair_isOk : ∀ i, (pairNew i).isOk = true := by decide +kernel

def pair (i : Bool) : SimpleRoutingProtocol MainTable := started (pairNew i) (pair_isOk i)

theorem pair_static : Static pair := by
  have haddresses : ∀ i j, ∀ ip ∈ (pair i).ourIps, ip ∈ (pair j).ourIps → i = j := by decide +kernel
  have hids : ∀ i j, (pair i).router.id = (pair j).router.id → i = j := by decide +kernel
  have hentries : ∀ i, ∀ e ∈ (pair i).router.interfaces.entries, e.2.network ∈ (pair i).router.routingTable.localNetworks ∧
      e.2.network.contains .unspecified = false ∧ 8 ≤ e.2.network.prefixLen.val ∧
      e.2.network.addr.isLoopback = false := by decide +kernel
  have honly : ∀ i, ∀ net ∈ (pair i).router.routingTable.localNetworks,
      ∃ e ∈ (pair i).router.interfaces.entries, e.2.network = net := by decide +kernel
  have hsound (i : Bool) : Observed.SoundInterfaces (pair i).router := Observed.SoundInterfaces.of_entries (hentries i)
  refine ⟨⟨⟨fun i => ⟨_, _, _, _, _, _, started_ok (pair_isOk i)⟩, haddresses⟩, fun i => (hsound i).listed⟩, hids,
    hsound, ?_⟩
  intro i net hnet
  obtain ⟨⟨name, info⟩, he, hinfo⟩ := honly i net hnet
  exact ⟨name, info, Dictionary.mem_entries.mp he, hinfo⟩

theorem pair_attached {P : Bool → Ipv4Network → Prop}
    (h : ∀ i, ∀ e ∈ (pair i).router.interfaces.entries, P i e.2.network.subnet) {i : Bool} {d : Ipv4Network}
    (hd : Attached (pair i) d) : P i d := by
  obtain ⟨name, info, hlookup, rfl⟩ := hd
  exact h i ⟨name, info⟩ (Dictionary.mem_entries.mpr hlookup)

theorem pair_plan : AddressPlan pair := AddressPlan.of_entries (by decide +kernel)

theorem pair_hosts : HostRoutes pair := by
  have hconnected : ∀ i, ∀ e ∈ (pair i).router.interfaces.entries,
      SystemRoute.connected e.2.network.subnet ∈ (pair i).router.routingTable.routeHandle.routes := by decide +kernel
  have hlength : ∀ i, ∀ e ∈ (pair i).router.interfaces.entries, e.2.network.subnet.prefixLen = 24 := by decide +kernel
  have hothers : ∀ i, ∀ route ∈ (pair i).router.routingTable.routeHandle.routes,
      (∃ e ∈ (pair i).router.interfaces.entries, route = SystemRoute.connected e.2.network.subnet) ∨
        route.prefixLen < 24 := by decide +kernel
  have htaken : ∀ i k, ∀ ip ∈ (pair k).ourIps, ip ∉ (pair i).router.routingTable.routeHandle.refused := by decide +kernel
  refine ⟨?_, ?_, ?_⟩
  · intro i d hd
    exact pair_attached (P := fun i d => SystemRoute.connected d ∈ (pair i).router.routingTable.routeHandle.routes)
      hconnected hd
  · intro i route hroute
    rcases hothers i route hroute with ⟨⟨name, info⟩, he, hroute⟩ | hshort
    · exact Or.inl ⟨_, ⟨name, info, Dictionary.mem_entries.mp he, rfl⟩, hroute⟩
    · right
      intro k d hd
      rw [pair_attached (P := fun _ d => d.prefixLen = 24) hlength hd]
      exact hshort
  · rintro i d - k ip hip - route rfl
    exact htaken i k route.gateway hip

def pairRound : List (Action Bool) := [.send false, .send true, .deliver 0 true 0, .deliver 2 false 0]

theorem pair_rounds : Rounds System.run (Round pair) 1 (boot pair) pairRound := by
  have hround : Round pair (boot pair) pairRound := by
    have hfirst : ((boot pair).run [.send false]).sent.length = 2 := by decide +kernel
    have hsent : (∃ g ∈ ((boot pair).broadcast false).sent[0]?, Attached (pair true) g.subnet) ∧
        ∃ g ∈ (((boot pair).run [.send false]).broadcast true).sent[2]?, Attached (pair false) g.subnet := by
      decide +kernel
    intro j k hjk _
    cases j with
    | true =>
      obtain rfl : k = false := by simpa using hjk.symm
      exact ⟨[], [.send true], _, 0, 0, rfl, le_refl _, hsent.1⟩
    | false =>
      obtain rfl : k = true := by simpa using hjk.symm
      exact ⟨[.send false], [.deliver 0 true 0], [], 2, 0, rfl, hfirst.le, hsent.2⟩
  rw [← List.append_nil pairRound]
  exact Rounds.succ hround (Rounds.zero _ _)

theorem pair_home : Home pair (.new 10 9 0 77) farNetwork := by
  have hlongest : ∀ i, ∀ e ∈ (pair i).router.interfaces.entries, e.2.network.subnet.prefixLen ≤ farNetwork.prefixLen := by
    decide +kernel
  exact ⟨by decide +kernel, ⟨false, by decide +kernel⟩, fun k d' hd _ =>
    pair_attached (P := fun _ d => d.prefixLen ≤ farNetwork.prefixLen) hlongest hd⟩

theorem pair_dist : dist pair farNetwork true ≤ (1 : ℕ) := by
  have hlinked : Linked pair true false := ⟨⟨.new 10 0 0 0, 24⟩, by decide +kernel, by decide +kernel⟩
  have hzero : dist pair farNetwork false = 0 := dist_eq_zero_iff.mpr (by decide +kernel)
  calc dist pair farNetwork true ≤ dist pair farNetwork false + 1 := dist_linked hlinked
    _ = (1 : ℕ) := by rw [hzero]; rfl

end Pair

end System

end CustomOspf
