import CustomOspf.Types

/-!
Processing of a received update: each advertised route is corrected, filtered
and tested against the table as it stands; the accepted ones are written to the
route states first and to the table afterwards.
-/

namespace CustomOspf.RouteManager

variable [IpNetwork]

def hostToNetworkRoute (hostWithPrefix : String) : Option String :=
  (Ipv4Network.parse hostWithPrefix).map (fun network => cidr network.network network.prefixLen)

def isOurNetwork (destination : Ipv4Network) (routerInterfaces : Interfaces) : Bool :=
  routerInterfaces.entries.any (fun e => e.2.network = destination)

-- one turn of the loop of `find_best_interface_for_sender`
def betterInterface (senderIp : Ipv4Addr) (best : Option (String × InterfaceInfo) × UInt32)
    (e : Σ _ : String, InterfaceInfo) : Option (String × InterfaceInfo) × UInt32 :=
  if e.2.network.contains senderIp then
    if e.2.metric < best.2 then (some (e.1, e.2), e.2.metric) else best
  else best

def findBestInterfaceForSender (senderIp : Ipv4Addr) (routerInterfaces : Interfaces) :
    Option (String × InterfaceInfo) :=
  (routerInterfaces.entries.foldl (betterInterface senderIp) (none, 0xffffffff)).1

def determineNextHop (advertisedNextHop senderIp : Ipv4Addr) (routerInterfaces : Interfaces) : Ipv4Addr :=
  if advertisedNextHop.isUnspecified then senderIp
  else if routerInterfaces.entries.any (fun e => e.2.network.contains advertisedNextHop) then advertisedNextHop
  else senderIp

-- a release build: the increment of the metric wraps
def processSingleRoute (routeInfo : RouteInfo) (advertisingRouter : String) (senderIp : Ipv4Addr)
    (routerInterfaces : Interfaces) (now : Instant) : Option (RouteEntry × RouteState) := do
  let correctedDestination ← hostToNetworkRoute routeInfo.destination
  let destination ← Ipv4Network.parse correctedDestination
  let advertisedNextHop ← Ipv4Addr.parse routeInfo.nextHop
  if isOurNetwork destination routerInterfaces then none
  else do
    let (interfaceName, _) ← findBestInterfaceForSender senderIp routerInterfaces
    let actualNextHop := determineNextHop advertisedNextHop senderIp routerInterfaces
    let route : RouteEntry :=
      { destination := destination, nextHop := actualNextHop, interface := interfaceName,
        metric := routeInfo.metric + 1, source := .protocol }
    some (route, { route := route, lastAdvertised := now, advertisingNeighbor := advertisingRouter })

section Table

variable {κ : Type} [NetRoute κ]

def shouldAcceptRoute (route : RouteEntry) (router : Router κ) : Bool :=
  match router.routingTable.findRoute route.destination with
  | some existing =>
    route.metric < existing.metric ∨ (route.metric = existing.metric ∧ route.nextHop ≠ existing.nextHop)
  | none => true

def collectRoute (advertisingRouter : String) (senderIp : Ipv4Addr) (routerInterfaces : Interfaces)
    (now : Instant) (router : Router κ) (collected : List RouteEntry × List (String × RouteState))
    (routeInfo : RouteInfo) : List RouteEntry × List (String × RouteState) :=
  match processSingleRoute routeInfo advertisingRouter senderIp routerInterfaces now with
  | some (route, routeState) =>
    if shouldAcceptRoute route router then
      (collected.1 ++ [route], collected.2 ++ [(routeInfo.destination, routeState)])
    else collected
  | none => collected

def updateRouteStates (routeStates : RouteStates) (updatedRouteStates : List (String × RouteState)) :
    RouteStates := routeStates.insertAll updatedRouteStates

def applyNewRoutes (router : Router κ) (newRoutes : List RouteEntry) : Router κ :=
  router.updateRoutingTable newRoutes

def processRoutingUpdate (update : RoutingUpdate) (senderAddr : SocketAddr) (now : Instant)
    (router : Router κ) (routeStates : RouteStates) : Except String (Router κ × RouteStates) :=
  match senderAddr.ip with
  | .v6 _ => .error "Only IPv4 addresses supported"
  | .v4 senderIp =>
    let (newRoutes, updatedRouteStates) := update.routes.foldl
      (collectRoute update.routerId senderIp router.interfaces now router) ([], [])
    let routeStates := updateRouteStates routeStates updatedRouteStates
    if !newRoutes.isEmpty then .ok (applyNewRoutes router newRoutes, routeStates)
    else .ok (router, routeStates)

def removeDestination (s : Router κ × RouteStates) (destination : String) : Router κ × RouteStates :=
  match s.2.lookup destination with
  | some routeState =>
    ({ s.1 with routingTable := s.1.routingTable.removeRoute routeState.route }, s.2.erase destination)
  | none => s

def removeRoutesViaNexthop (destinations : List String) (router : Router κ) (routeStates : RouteStates) :
    Router κ × RouteStates := destinations.foldl removeDestination (router, routeStates)

end Table

def getNeighborIp (neighborId : String) (neighbors : Neighbors) : Option Ipv4Addr :=
  match neighbors.lookup neighborId with
  | some neighborInfo =>
    match neighborInfo.socketAddr.ip with
    | .v4 ipv4 => some ipv4
    | .v6 _ => none
  | none => none

def destinationOf (advertised : String) : Option Ipv4Network :=
  (Ipv4Network.parse advertised).map Ipv4Network.subnet

theorem destinationOf_eq (advertised : String) :
    (hostToNetworkRoute advertised).bind Ipv4Network.parse = destinationOf advertised := by
  cases h : Ipv4Network.parse advertised with
  | none => simp [hostToNetworkRoute, destinationOf, h]
  | some network => simp [hostToNetworkRoute, destinationOf, h, Ipv4Network.subnet]

theorem destinationOf_subnet {advertised : String} {d : Ipv4Network} (h : destinationOf advertised = some d) :
    d.subnet = d := by
  obtain ⟨network, -, rfl⟩ := Option.map_eq_some_iff.mp h
  exact Ipv4Network.subnet_subnet network

theorem destinationOf_toString (n : Ipv4Network) : destinationOf n.toString = some n.subnet := by
  simp [destinationOf]

omit [IpNetwork] in
theorem isOurNetwork_iff {d : Ipv4Network} {interfaces : Interfaces} :
    isOurNetwork d interfaces = true ↔ ∃ name info, interfaces.lookup name = some info ∧ info.network = d := by
  simp only [isOurNetwork, List.any_eq_true, decide_eq_true_eq, Sigma.exists, ← Dictionary.mem_entries]

theorem determineNextHop_cases (advertised sender : Ipv4Addr) (interfaces : Interfaces) :
    determineNextHop advertised sender interfaces = sender ∨
      (determineNextHop advertised sender interfaces = advertised ∧ advertised.isUnspecified = false ∧
        ∃ name info, interfaces.lookup name = some info ∧ info.network.contains advertised = true) := by
  unfold determineNextHop
  split
  · exact Or.inl rfl
  · next hu =>
    split
    · next hc =>
      simp only [List.any_eq_true, Sigma.exists, Dictionary.mem_entries] at hc
      exact Or.inr ⟨rfl, by simpa using hu, hc⟩
    · exact Or.inl rfl

theorem findBestInterfaceForSender_some {sender : Ipv4Addr} {interfaces : Interfaces} {name : String}
    {info : InterfaceInfo} (h : findBestInterfaceForSender sender interfaces = some (name, info)) :
    interfaces.lookup name = some info ∧ info.network.contains sender = true := by
  let Found (best : Option (String × InterfaceInfo) × UInt32) : Prop := ∀ name info,
    best.1 = some (name, info) → interfaces.lookup name = some info ∧ info.network.contains sender = true
  refine List.foldlRecOn (motive := Found) interfaces.entries _ (by intro _ _ hn; cases hn) ?_ name info h
  intro best ih e he name' info' hb
  unfold betterInterface at hb
  split at hb
  · next hc =>
    split at hb
    · obtain ⟨rfl, rfl⟩ := Prod.mk.inj (Option.some.inj hb)
      exact ⟨Dictionary.mem_entries.mp he, hc⟩
    · exact ih name' info' hb
  · exact ih name' info' hb

theorem findBestInterfaceForSender_isSome {sender : Ipv4Addr} {interfaces : Interfaces} {name : String}
    {info : InterfaceInfo} (hl : interfaces.lookup name = some info)
    (hc : info.network.contains sender = true) (hm : info.metric < 0xffffffff) :
    (findBestInterfaceForSender sender interfaces).isSome = true := by
  rw [← Dictionary.mem_entries] at hl
  -- until an interface is chosen the best metric is the maximum, which `info` is below
  suffices hs : ∀ (l : List (Σ _ : String, InterfaceInfo)) (best : Option (String × InterfaceInfo) × UInt32),
      best.1.isSome = true ∨ (best.2 = 0xffffffff ∧ (⟨name, info⟩ : Σ _ : String, InterfaceInfo) ∈ l) →
      (l.foldl (betterInterface sender) best).1.isSome = true from hs _ _ (Or.inr ⟨rfl, hl⟩)
  intro l
  induction l with
  | nil => intro best hb; simpa using hb
  | cons e l ih =>
    intro best hb
    apply ih
    rcases hb with hb | ⟨hbest, hmem⟩
    · left
      unfold betterInterface
      split
      · split
        · rfl
        · exact hb
      · exact hb
    · rcases List.mem_cons.mp hmem with rfl | hmem
      · left
        simp [betterInterface, hc, hbest, hm]
      · unfold betterInterface
        split
        · split
          · exact Or.inl rfl
          · exact Or.inr ⟨hbest, hmem⟩
        · exact Or.inr ⟨hbest, hmem⟩

theorem processSingleRoute_iff {info : RouteInfo} {advertiser : String} {sender : Ipv4Addr}
    {interfaces : Interfaces} {now : Instant} {route : RouteEntry} {state : RouteState} :
    processSingleRoute info advertiser sender interfaces now = some (route, state) ↔
      ∃ d nh name iface, destinationOf info.destination = some d ∧ Ipv4Addr.parse info.nextHop = some nh ∧
        isOurNetwork d interfaces = false ∧ findBestInterfaceForSender sender interfaces = some (name, iface) ∧
        route = ⟨d, determineNextHop nh sender interfaces, name, info.metric + 1, .protocol⟩ ∧
        state = ⟨route, now, advertiser⟩ := by
  rw [← destinationOf_eq]
  unfold processSingleRoute
  cases hh : hostToNetworkRoute info.destination with
  | none => simp
  | some corrected =>
    cases hd : Ipv4Network.parse corrected with
    | none => simp [hd]
    | some d =>
      cases hn : Ipv4Addr.parse info.nextHop with
      | none => simp [hd]
      | some nh =>
        cases ho : isOurNetwork d interfaces with
        | true => simp [hd, ho]
        | false =>
          cases hf : findBestInterfaceForSender sender interfaces with
          | none => simp [hd]
          | some best =>
            obtain ⟨name, iface⟩ := best
            simp only [hd, ho, Option.bind_eq_bind, Option.bind_some, Bool.false_eq_true, if_false,
              Option.some.injEq, Prod.mk.injEq, exists_and_left, exists_eq_left', true_and]
            constructor
            · rintro ⟨rfl, rfl⟩
              exact ⟨name, iface, ⟨rfl, rfl⟩, rfl, rfl⟩
            · rintro ⟨_, _, ⟨rfl, rfl⟩, rfl, rfl⟩
              exact ⟨rfl, rfl⟩

theorem processSingleRoute_onLink {info : RouteInfo} {advertiser : String} {sender : Ipv4Addr}
    {interfaces : Interfaces} {now : Instant} {route : RouteEntry} {state : RouteState}
    (h : processSingleRoute info advertiser sender interfaces now = some (route, state)) :
    ∃ name iface, interfaces.lookup name = some iface ∧ iface.network.contains route.nextHop = true := by
  obtain ⟨d, nh, name, iface, -, -, -, hbest, rfl, -⟩ := processSingleRoute_iff.mp h
  rcases determineNextHop_cases nh sender interfaces with he | ⟨he, -, hin⟩
  · rw [he]
    exact ⟨name, iface, findBestInterfaceForSender_some hbest⟩
  · rw [he]
    exact hin

section Processing

variable {κ : Type}

/-- The accepted routes, each with the string it was advertised under. -/
def acceptedRoutes (update : RoutingUpdate) (sender : Ipv4Addr) (now : Instant) (router : Router κ) :
    List (String × RouteEntry) :=
  update.routes.filterMap (fun info =>
    match processSingleRoute info update.routerId sender router.interfaces now with
    | some (route, _) => if shouldAcceptRoute route router then some (info.destination, route) else none
    | none => none)

omit [IpNetwork] in
theorem shouldAcceptRoute_iff {route : RouteEntry} {router : Router κ} :
    shouldAcceptRoute route router = true ↔
      ∀ existing ∈ router.routingTable.findRoute route.destination, Router.Supersedes route existing := by
  unfold shouldAcceptRoute
  cases router.routingTable.findRoute route.destination with
  | none => simp
  | some existing => simp [Router.Supersedes]

theorem mem_acceptedRoutes {update : RoutingUpdate} {sender : Ipv4Addr} {now : Instant} {router : Router κ}
    {key : String} {route : RouteEntry} :
    (key, route) ∈ acceptedRoutes update sender now router ↔
      ∃ info ∈ update.routes, info.destination = key ∧
        processSingleRoute info update.routerId sender router.interfaces now =
          some (route, ⟨route, now, update.routerId⟩) ∧ shouldAcceptRoute route router = true := by
  simp only [acceptedRoutes, List.mem_filterMap]
  refine exists_congr fun info => and_congr_right fun _ => ?_
  cases hp : processSingleRoute info update.routerId sender router.interfaces now with
  | none => simp
  | some result =>
    obtain ⟨r, state⟩ := result
    obtain ⟨d, nh, name, iface, -, -, -, -, -, rfl⟩ := processSingleRoute_iff.mp hp
    simp only [Option.ite_none_right_eq_some, Option.some.injEq, Prod.mk.injEq]
    constructor
    · rintro ⟨ha, rfl, rfl⟩
      exact ⟨rfl, ⟨rfl, rfl⟩, ha⟩
    · rintro ⟨rfl, ⟨rfl, -⟩, ha⟩
      exact ⟨ha, rfl, rfl⟩

theorem collect_eq (update : RoutingUpdate) (sender : Ipv4Addr) (now : Instant) (router : Router κ) :
    update.routes.foldl (collectRoute update.routerId sender router.interfaces now router) ([], []) =
      ((acceptedRoutes update sender now router).map Prod.snd,
        (acceptedRoutes update sender now router).map (fun a => (a.1, ⟨a.2, now, update.routerId⟩))) := by
  suffices h : ∀ (l : List RouteInfo) (acc : List RouteEntry × List (String × RouteState)),
      l.foldl (collectRoute update.routerId sender router.interfaces now router) acc =
        (acc.1 ++ (acceptedRoutes { update with routes := l } sender now router).map Prod.snd,
          acc.2 ++ (acceptedRoutes { update with routes := l } sender now router).map
            (fun a => (a.1, ⟨a.2, now, update.routerId⟩))) by
    simpa using h update.routes ([], [])
  intro l
  induction l with
  | nil => simp [acceptedRoutes]
  | cons info l ih =>
    intro acc
    rw [List.foldl_cons, ih]
    simp only [acceptedRoutes, List.filterMap_cons, collectRoute]
    cases hp : processSingleRoute info update.routerId sender router.interfaces now with
    | none => rfl
    | some result =>
      obtain ⟨r, state⟩ := result
      obtain ⟨d, nh, name, iface, -, -, -, -, -, rfl⟩ := processSingleRoute_iff.mp hp
      cases ha : shouldAcceptRoute r router <;> simp [ha]

variable [NetRoute κ]

theorem processRoutingUpdate_v4 (update : RoutingUpdate) (sender : Ipv4Addr) (port : UInt16) (now : Instant)
    (router : Router κ) (states : RouteStates) :
    processRoutingUpdate update ⟨.v4 sender, port⟩ now router states =
      .ok (router.updateRoutingTable ((acceptedRoutes update sender now router).map Prod.snd),
        states.insertAll ((acceptedRoutes update sender now router).map
          (fun a => (a.1, ⟨a.2, now, update.routerId⟩)))) := by
  simp only [processRoutingUpdate, collect_eq, updateRouteStates, applyNewRoutes]
  cases acceptedRoutes update sender now router <;> rfl

theorem mem_removeRoute {t : RoutingTable κ} (ht : t.Distinct) {route r : RouteEntry} :
    r ∈ (t.removeRoute route).routes ↔ r ∈ t.routes ∧ route.destination ≠ r.destination := by
  have hd := RoutingTable.removeRoute_distinct ht route
  have h := RoutingTable.findRoute_removeRoute ht route r.destination
  have hl : r ∈ (t.removeRoute route).routes ↔ (t.removeRoute route).findRoute r.destination = some r := by
    simp [RoutingTable.findRoute_iff hd]
  have hr : r ∈ t.routes ↔ t.findRoute r.destination = some r := by simp [RoutingTable.findRoute_iff ht]
  rw [hl, hr, h]
  by_cases he : route.destination = r.destination <;> simp [he]

theorem removeDestination_keeps (s : Router κ × RouteStates) (k : String) :
    (removeDestination s k).1.id = s.1.id ∧ (removeDestination s k).1.interfaces = s.1.interfaces ∧
      (removeDestination s k).1.routingTable.localNetworks = s.1.routingTable.localNetworks := by
  unfold removeDestination
  split <;> simp

theorem removeDestination_distinct {s : Router κ × RouteStates} (hs : s.1.routingTable.Distinct) (k : String) :
    (removeDestination s k).1.routingTable.Distinct := by
  unfold removeDestination
  split
  · exact RoutingTable.removeRoute_distinct hs _
  · exact hs

theorem lookup_removeDestination (s : Router κ × RouteStates) (k k' : String) :
    (removeDestination s k).2.lookup k' = if k' = k then none else s.2.lookup k' := by
  unfold removeDestination
  by_cases hk : k' = k
  · subst hk
    cases h : s.2.lookup k' <;> simp [h]
  · split <;> simp [hk, AList.lookup_erase_ne hk]

theorem mem_removeDestination {s : Router κ × RouteStates} (hs : s.1.routingTable.Distinct) {k : String}
    {r : RouteEntry} : r ∈ (removeDestination s k).1.routingTable.routes ↔
      r ∈ s.1.routingTable.routes ∧ ∀ state, s.2.lookup k = some state → state.route.destination ≠ r.destination := by
  unfold removeDestination
  cases h : s.2.lookup k with
  | none => simp
  | some state => simp [mem_removeRoute hs]

theorem removeRoutesViaNexthop_spec (destinations : List String) {router : Router κ} {states : RouteStates}
    (ht : router.routingTable.Distinct) :
    let s := removeRoutesViaNexthop destinations router states
    s.1.id = router.id ∧ s.1.interfaces = router.interfaces ∧
      s.1.routingTable.localNetworks = router.routingTable.localNetworks ∧ s.1.routingTable.Distinct ∧
      (∀ k, s.2.lookup k = if k ∈ destinations then none else states.lookup k) ∧
      ∀ r, r ∈ s.1.routingTable.routes ↔ r ∈ router.routingTable.routes ∧
        ∀ k ∈ destinations, ∀ state, states.lookup k = some state → state.route.destination ≠ r.destination := by
  unfold removeRoutesViaNexthop
  induction destinations generalizing router states with
  | nil => exact ⟨rfl, rfl, rfl, ht, by simp, by simp⟩
  | cons k ks ih =>
    obtain ⟨hid, hif, hln⟩ := removeDestination_keeps (router, states) k
    have hd := removeDestination_distinct (s := (router, states)) ht k
    obtain ⟨h1, h2, h3, h4, h5, h6⟩ := @ih _ (removeDestination (router, states) k).2 hd
    refine ⟨h1.trans hid, h2.trans hif, h3.trans hln, h4, ?_, ?_⟩
    · intro k'
      rw [List.foldl_cons, h5, lookup_removeDestination]
      by_cases hk : k' = k <;> simp [hk]
    · intro r
      rw [List.foldl_cons, h6, mem_removeDestination (s := (router, states)) ht, and_assoc]
      refine and_congr_right fun _ => ?_
      simp only [lookup_removeDestination, List.forall_mem_cons]
      refine and_congr_right fun hk => ?_
      refine forall_congr' fun k' => forall_congr' fun _ => ?_
      -- the record of a key that comes twice is gone the second time, and was tested the first time
      by_cases he : k' = k
      · subst he
        simpa using hk
      · simp [he]

end Processing

end CustomOspf.RouteManager
