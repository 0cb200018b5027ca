import CustomOspf.NextHops

/-!
What `process_single_route` makes of one advertised route: the interface it
names beside the next hop, and the networks of the router itself.
-/

namespace CustomOspf

def RouteSource.debug : RouteSource → String
  | .direct => "Direct"
  | .protocol => "Protocol"
  | .static => "Static"

structure RoutingTableRow where
  destination : String
  nextHop : String
  interface : String
  metric : UInt32
  source : String
deriving DecidableEq

def SimpleRoutingProtocol.getRoutingTable {κ : Type} [IpNetwork] (p : SimpleRoutingProtocol κ) :
    List RoutingTableRow :=
  p.router.routingTable.routes.map (fun route =>
    { destination := route.destination.toString
      nextHop := if route.nextHop.isUnspecified then "direct" else route.nextHop.toString
      interface := route.interface
      metric := route.metric
      source := route.source.debug })

namespace RouteManager

section Entry

variable [IpNetwork] {interfaces : Interfaces} {info : RouteInfo} {advertiser : String} {sender : Ipv4Addr}
  {now : Instant}

def NamesInterface (interfaces : Interfaces) (name : String) (nextHop : Ipv4Addr) : Prop :=
  ∃ iface, interfaces.lookup name = some iface ∧ iface.network.contains nextHop = true

def BehindSender (interfaces : Interfaces) (sender : Ipv4Addr) (info : RouteInfo) : Prop :=
  ∀ nextHop, Ipv4Addr.parse info.nextHop = some nextHop → nextHop.isUnspecified = true ∨
    (∀ name iface, interfaces.lookup name = some iface → iface.network.contains nextHop = false) ∨
    ∃ name iface, findBestInterfaceForSender sender interfaces = some (name, iface) ∧
      iface.network.contains nextHop = true

theorem processSingleRoute_names_iff {route : RouteEntry} {state : RouteState}
    (h : processSingleRoute info advertiser sender interfaces now = some (route, state)) :
    NamesInterface interfaces route.interface route.nextHop ↔ BehindSender interfaces sender info := by
  obtain ⟨d, nh, name, iface, -, hn, -, hbest, rfl, -⟩ := processSingleRoute_iff.mp h
  obtain ⟨hl, hsender⟩ := findBestInterfaceForSender_some hbest
  have hnames (ip : Ipv4Addr) : NamesInterface interfaces name ip ↔ iface.network.contains ip = true := by
    simp [NamesInterface, hl]
  have hbehind : BehindSender interfaces sender info ↔ nh.isUnspecified = true ∨
      (∀ name iface, interfaces.lookup name = some iface → iface.network.contains nh = false) ∨
      iface.network.contains nh = true := by
    simp [BehindSender, hn, hbest]
  rw [hbehind, hnames]
  dsimp only
  unfold determineNextHop
  split
  · next hu => exact iff_of_true hsender (Or.inl hu)
  · next hu =>
    split
    · next hany =>
      simp only [List.any_eq_true, Sigma.exists, Dictionary.mem_entries] at hany
      obtain ⟨name', iface', hl', hc⟩ := hany
      constructor
      · exact fun hin => Or.inr (Or.inr hin)
      · rintro (hu' | hnone | hin)
        · exact absurd hu' hu
        · rw [hnone name' iface' hl'] at hc
          cases hc
        · exact hin
    · next hany =>
      refine iff_of_true hsender (Or.inr (Or.inl fun name' iface' hl' => ?_))
      rw [Bool.eq_false_iff]
      intro hc
      exact hany (List.any_eq_true.mpr ⟨⟨name', iface'⟩, Dictionary.mem_entries.mpr hl', hc⟩)

def OwnSubnet (interfaces : Interfaces) (d : Ipv4Network) : Prop :=
  ∃ name iface, interfaces.lookup name = some iface ∧ iface.network.subnet = d

/-- An interface is configured with the address of the network itself, or the entry is of no use at all. -/
def Filtered (interfaces : Interfaces) (sender : Ipv4Addr) (info : RouteInfo) : Prop :=
  (∃ name iface, interfaces.lookup name = some iface ∧ destinationOf info.destination = some iface.network) ∨
    Ipv4Addr.parse info.nextHop = none ∨ findBestInterfaceForSender sender interfaces = none

theorem processSingleRoute_none_iff {d : Ipv4Network} (hd : destinationOf info.destination = some d) :
    processSingleRoute info advertiser sender interfaces now = none ↔ Filtered interfaces sender info := by
  have hours : isOurNetwork d interfaces = true ↔ ∃ name iface, interfaces.lookup name = some iface ∧
      destinationOf info.destination = some iface.network := by
    rw [isOurNetwork_iff, hd]
    simp only [Option.some.injEq, eq_comm]
  rw [Option.eq_none_iff_forall_ne_some]
  constructor
  · intro hnone
    by_contra hpass
    unfold Filtered at hpass
    rw [← hours] at hpass
    push Not at hpass
    obtain ⟨hforeign, hn, hbest⟩ := hpass
    obtain ⟨nh, hn⟩ := Option.ne_none_iff_exists'.mp hn
    obtain ⟨⟨name, iface⟩, hbest⟩ := Option.ne_none_iff_exists'.mp hbest
    exact hnone _ (processSingleRoute_iff.mpr
      ⟨d, nh, name, iface, hd, hn, by simpa using hforeign, hbest, rfl, rfl⟩)
  · rintro hfiltered ⟨route, state⟩ hp
    obtain ⟨d', nh, name, iface, hd', hn, hforeign, hbest, -, -⟩ := processSingleRoute_iff.mp hp
    obtain rfl := Option.some.inj (hd.symm.trans hd')
    rcases hfiltered with hown | hnone | hnone
    · rw [hours.mpr hown] at hforeign
      cases hforeign
    · rw [hn] at hnone
      cases hnone
    · rw [hbest] at hnone
      cases hnone

end Entry

section Update

variable {κ : Type} [IpNetwork]

theorem accepted_foreign {update : RoutingUpdate} {sender : Ipv4Addr} {now : Instant} {router : Router κ}
    (hfiltered : ∀ info ∈ update.routes, ∀ d, OwnSubnet router.interfaces d →
      destinationOf info.destination = some d → Filtered router.interfaces sender info)
    {key : String} {route : RouteEntry} (h : (key, route) ∈ acceptedRoutes update sender now router) :
    destinationOf key = some route.destination ∧ ¬ OwnSubnet router.interfaces route.destination := by
  obtain ⟨info, hinfo, rfl, hp, -⟩ := mem_acceptedRoutes.mp h
  obtain ⟨d, nh, name, iface, hd, -, -, -, rfl, -⟩ := processSingleRoute_iff.mp hp
  refine ⟨hd, fun hown => ?_⟩
  have hnone : processSingleRoute info update.routerId sender router.interfaces now = none :=
    (processSingleRoute_none_iff hd).mpr (hfiltered info hinfo d hown hd)
  rw [hp] at hnone
  cases hnone

variable [NetRoute κ]

theorem ownNetworks_learned_iff (update : RoutingUpdate) (sender : Ipv4Addr) (port : UInt16) (now : Instant)
    (router : Router κ) (states : RouteStates) :
    (∀ info ∈ update.routes, ∀ d, OwnSubnet router.interfaces d → destinationOf info.destination = some d →
      (processSingleRoute info update.routerId sender router.interfaces now = none ↔
        Filtered router.interfaces sender info)) ∧
    ((∀ info ∈ update.routes, ∀ d, OwnSubnet router.interfaces d → destinationOf info.destination = some d →
        Filtered router.interfaces sender info) →
      (∀ route ∈ (update.routes.foldl (collectRoute update.routerId sender router.interfaces now router) ([], [])).1,
        ¬ OwnSubnet router.interfaces route.destination) ∧
      ∃ router' states', processRoutingUpdate update ⟨.v4 sender, port⟩ now router states = .ok (router', states') ∧
        ∀ key d, OwnSubnet router.interfaces d → destinationOf key = some d →
          states'.lookup key = states.lookup key) := by
  refine ⟨fun info _ d _ hd => processSingleRoute_none_iff hd, fun hfiltered => ⟨?_, ?_⟩⟩
  · intro route hroute
    rw [collect_eq] at hroute
    obtain ⟨⟨key, route⟩, hmem, rfl⟩ := List.mem_map.mp hroute
    exact (accepted_foreign hfiltered hmem).2
  · refine ⟨_, _, processRoutingUpdate_v4 update sender port now router states, ?_⟩
    intro key d hown hd
    apply Dictionary.lookup_insertAll_of_notMem
    intro hmem
    rw [List.map_map] at hmem
    obtain ⟨⟨key', route⟩, hacc, rfl⟩ := List.mem_map.mp hmem
    obtain ⟨hd', hforeign⟩ := accepted_foreign hfiltered hacc
    obtain rfl := Option.some.inj (hd.symm.trans hd')
    exact hforeign hown

end Update

end RouteManager

/-! What the routing table of a run reports. -/

namespace Observed

open RouteManager

section Reports

variable {κ : Type} [IpNetwork] [NetRoute κ] {o : Observed κ}

def AdmitsBehindSender (o : Observed κ) (e : SimpleRoutingProtocol.Event) : Prop :=
  ∀ message addr now, e = .update message addr now → ∀ info r, Admitted o message addr now info r →
    ∀ sender, addr.ip = .v4 sender → BehindSender o.interfaces sender info

theorem ReachableUnder.names (h : ReachableUnder AdmitsBehindSender o) :
    ∀ r ∈ o.table.routes, r.source = .protocol → NamesInterface o.interfaces r.interface r.nextHop := by
  have hinterfaces {o : Observed κ} (ho : WellFormed o) (e : SimpleRoutingProtocol.Event) :
      (o.step e).interfaces = o.interfaces := by
    rw [interfaces, step_protocol]
    exact (SimpleRoutingProtocol.step_same ho.distinct e).interfaces
  apply h.protocolRoutes (P := fun o r => NamesInterface o.interfaces r.interface r.nextHop)
  · intro o e r ho _ _ hnames
    rw [hinterfaces ho]
    exact hnames
  · intro o message addr now info r ho he hadm
    obtain ⟨-, -, ⟨sender, haddr, hp⟩, -, -⟩ := id hadm
    rw [hinterfaces ho]
    exact (processSingleRoute_names_iff hp).mpr (he message addr now rfl info r hadm sender haddr)

omit [NetRoute κ] in
theorem mem_getRoutingTable (ho : WellFormed o) {row : RoutingTableRow} (hrow : row ∈ o.protocol.getRoutingTable)
    (hs : row.source = "Protocol") :
    ∃ r ∈ o.table.routes, r.source = .protocol ∧ row.interface = r.interface ∧ row.nextHop = r.nextHop.toString := by
  obtain ⟨r, hr, rfl⟩ := List.mem_map.mp hrow
  have hsource : r.source = .protocol := by
    cases hsrc : r.source with
    | protocol => rfl
    | direct =>
      simp only [hsrc] at hs
      revert hs
      decide
    | static =>
      simp only [hsrc] at hs
      revert hs
      decide
  have hv := (RoutingTable.isValidRoute_protocol hsource).mp (ho.valid r hr)
  exact ⟨r, hr, hsource, rfl, by simp [hv.2.1]⟩

theorem learned_interface :
    (∀ info advertiser sender (interfaces : Interfaces) now route state,
      processSingleRoute info advertiser sender interfaces now = some (route, state) →
        (NamesInterface interfaces route.interface route.nextHop ↔ BehindSender interfaces sender info)) ∧
    ∀ o : Observed κ, ReachableUnder AdmitsBehindSender o → ∀ row ∈ o.protocol.getRoutingTable,
      row.source = "Protocol" → ∃ nextHop, Ipv4Addr.parse row.nextHop = some nextHop ∧
        NamesInterface o.interfaces row.interface nextHop := by
  refine ⟨fun _ _ _ _ _ _ _ h => processSingleRoute_names_iff h, ?_⟩
  intro o h row hrow hs
  obtain ⟨r, hr, hsource, hi, hn⟩ := mem_getRoutingTable h.reachable.wellFormed hrow hs
  rw [hi, hn]
  exact ⟨r.nextHop, Ipv4Addr.parse_toString r.nextHop, h.names r hr hsource⟩

end Reports

theorem learned_interface_witness :
    (NamesInterface lan.protocol.router.interfaces "eth0" (.new 10 0 0 2) ↔
      BehindSender lan.protocol.router.interfaces (.new 10 0 0 2) ⟨"10.2.0.0/24", 0, "0.0.0.0"⟩) ∧
    ∀ row ∈ (lan.run [advert 0]).protocol.getRoutingTable, row.source = "Protocol" →
      ∃ nextHop, Ipv4Addr.parse row.nextHop = some nextHop ∧
        NamesInterface (lan.run [advert 0]).interfaces row.interface nextHop := by
  have h := learned_interface (κ := Finset SystemRoute)
  refine ⟨h.1 _ _ _ _ _ _ _ (advert_processed 0), h.2 _ ?_⟩
  have hlan : ReachableUnder AdmitsBehindSender lan := .start lan_new
  refine hlan.step (advert 0) ?_
  intro message addr now he info r hadm sender _ nextHop hnextHop
  obtain ⟨rfl, -, -⟩ := SimpleRoutingProtocol.Event.update.inj he
  obtain rfl := List.mem_singleton.mp hadm.2.1
  have hunspecified : Ipv4Addr.parse "0.0.0.0" = some .unspecified := by decide +kernel
  obtain rfl := Option.some.inj (hunspecified.symm.trans hnextHop)
  exact Or.inl rfl

/-! A router with two links: "B" on the first advertises a next hop on the second. -/

def twoLinks : List NetworkInterface := [.up "eth0" (.new 10 0 0 1) 24, .up "eth1" (.new 10 1 0 1) 24]

def thirdParty : RouteInfo := ⟨"10.2.0.0/24", 0, "10.1.0.9"⟩

theorem twoLinks_isOk : (Network.discoverInterfaces twoLinks ["eth0", "eth1"]).isOk = true := by decide +kernel

theorem learned_interface_fails :
    ¬ ∀ info advertiser sender (interfaces : Interfaces) now route state,
      processSingleRoute info advertiser sender interfaces now = some (route, state) →
        NamesInterface interfaces route.interface route.nextHop := by
  intro h
  let route : RouteEntry := ⟨⟨.new 10 2 0 0, 24⟩, .new 10 1 0 9, "eth0", 1, .protocol⟩
  have hnames := h thirdParty "B" (.new 10 0 0 2) (started _ twoLinks_isOk) 0 route ⟨route, 0, "B"⟩ (by decide +kernel)
  obtain ⟨iface, hl, hc⟩ := hnames
  have hlink : (started _ twoLinks_isOk).lookup "eth0" = some ⟨"eth0", .new 10 0 0 1, ⟨.new 10 0 0 1, 24⟩, 1⟩ := by
    decide +kernel
  obtain rfl := Option.some.inj (hlink.symm.trans hl)
  revert hc
  decide +kernel

end Observed

/-! A peer on the LAN advertises the network of the LAN. -/

namespace RouteManager

theorem ownNetworks_learned_fails :
    ¬ ∀ info advertiser sender (interfaces : Interfaces) now d, OwnSubnet interfaces d →
      destinationOf info.destination = some d →
        processSingleRoute info advertiser sender interfaces now = none := by
  intro h
  have hl : Observed.lan.protocol.router.interfaces.lookup "eth0" =
      some ⟨"eth0", .new 10 0 0 1, ⟨.new 10 0 0 1, 24⟩, 1⟩ := by decide +kernel
  have hnone := h ⟨"10.0.0.0/24", 0, "0.0.0.0"⟩ "B" (.new 10 0 0 2) Observed.lan.protocol.router.interfaces 0
    ⟨.new 10 0 0 0, 24⟩ ⟨"eth0", _, hl, by decide +kernel⟩ (by decide +kernel)
  revert hnone
  decide +kernel

end RouteManager

end CustomOspf
