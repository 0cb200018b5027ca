import CustomOspf.RouteManager

/-!
The state of one running router, its packet handlers, its periodic cleanup and
the update it sends. A handler that reaches a failing `unwrap` or `expect` keeps
what it had written before and reports the panic.
-/

namespace CustomOspf

structure SimpleRoutingProtocol (κ : Type) where
  router : Router κ
  neighbors : Neighbors
  routeStates : RouteStates
  sequence : UInt64
  port : UInt16
  ourIps : List Ipv4Addr

inductive Outcome where
  | ok
  | panicked (message : String)
deriving DecidableEq

namespace SimpleRoutingProtocol

def NEIGHBOR_TIMEOUT : Duration := Duration.fromSecs 12

def ROUTE_TIMEOUT : Duration := Duration.fromSecs 16

def HELLO_INTERVAL : Duration := Duration.fromSecs 4

def CLEANUP_INTERVAL : Duration := Duration.fromSecs 5

variable {κ : Type} [IpNetwork] [NetRoute κ]

def new (routerId : String) (hosts hostsAtTable : List NetworkInterface) (interfaceNames : List String)
    (port : UInt16) (routeHandle : κ) : Except String (SimpleRoutingProtocol κ) :=
  match Router.new routerId hosts hostsAtTable interfaceNames routeHandle with
  | .error e => .error e
  | .ok router => .ok
    { router := router, neighbors := ∅, routeStates := ∅, sequence := 0, port := port,
      ourIps := router.interfaces.entries.map (fun e => e.2.ip) }

-- `parse().unwrap()` on the text of the peer panics when it is not an address
def helloInterface (name ip : String) : Option InterfaceInfo :=
  (Ipv4Network.parse (ip ++ "/32")).map (fun network =>
    { name := name, ip := (Ipv4Addr.parse ip).getD (.new 0 0 0 0), network := network, metric := 1 })

def helloInterfaces (hello : HelloMessage) : Option Interfaces :=
  hello.interfaces.entries.foldlM (fun (found : Interfaces) e =>
    (helloInterface e.1 e.2).map (fun info => found.insert e.1 info)) ∅

def handleHelloMessageStatic (hello : HelloMessage) (addr : SocketAddr) (now : Instant)
    (p : SimpleRoutingProtocol κ) : SimpleRoutingProtocol κ × Outcome :=
  if hello.routerId = p.router.id then (p, .ok)
  else match helloInterfaces hello with
  | none => (p, .panicked "called `Result::unwrap()` on an `Err` value")
  | some interfaces =>
    let neighborInfo : NeighborInfo :=
      { routerInfo := ⟨hello.routerId, interfaces⟩, lastSeen := now, socketAddr := addr, isAlive := true }
    ({ p with neighbors := p.neighbors.insert hello.routerId neighborInfo }, .ok)

def touchNeighbor (routerId : String) (now : Instant) (neighbors : Neighbors) : Neighbors :=
  match neighbors.lookup routerId with
  | some info => neighbors.insert routerId { info with lastSeen := now, isAlive := true }
  | none => neighbors

def handleUpdateMessageStatic (update : RoutingUpdate) (addr : SocketAddr) (now : Instant)
    (p : SimpleRoutingProtocol κ) : SimpleRoutingProtocol κ × Outcome :=
  if update.routerId = p.router.id then (p, .ok)
  else
    let p := { p with neighbors := touchNeighbor update.routerId now p.neighbors }
    match RouteManager.processRoutingUpdate update addr now p.router p.routeStates with
    | .error _ => (p, .panicked "Failed to process routing update")
    | .ok (router, routeStates) => ({ p with router := router, routeStates := routeStates }, .ok)

/-! The cleanup pass, one function for each section under a lock. -/

def scanNeighbor (now : Instant) (info : NeighborInfo) : NeighborInfo × Bool :=
  if NEIGHBOR_TIMEOUT < now.durationSince info.lastSeen then
    if info.isAlive then ({ info with isAlive := false }, true) else (info, false)
  else if !info.isAlive then ({ info with isAlive := true }, false)
  else (info, false)

def scanNeighbors (now : Instant) (neighbors : Neighbors) : Neighbors × List String :=
  (neighbors.mapValues (fun info => (scanNeighbor now info).1),
    (neighbors.entries.filter (fun e => (scanNeighbor now e.2).2)).map (fun e => e.1))

def staleRoutes (now : Instant) (routeStates : RouteStates) : List String :=
  (routeStates.entries.filter (fun e => ROUTE_TIMEOUT < now.durationSince e.2.lastAdvertised)).map (fun e => e.1)

def routesToRemove (deadNeighbors staleRoutes : List String) (routeStates : RouteStates) : List String :=
  (routeStates.entries.filter (fun e =>
    deadNeighbors.contains e.2.advertisingNeighbor || staleRoutes.contains e.1)).map (fun e => e.1)

def removeRoutes (destinations : List String) (p : SimpleRoutingProtocol κ) : SimpleRoutingProtocol κ :=
  let (router, routeStates) := RouteManager.removeRoutesViaNexthop destinations p.router p.routeStates
  { p with router := router, routeStates := routeStates }

def removeExpired (deadNeighbors staleRoutes : List String) (p : SimpleRoutingProtocol κ) :
    SimpleRoutingProtocol κ :=
  if !deadNeighbors.isEmpty || !staleRoutes.isEmpty then
    let destinations := routesToRemove deadNeighbors staleRoutes p.routeStates
    if !destinations.isEmpty then removeRoutes destinations p else p
  else p

def purgeNexthop (ip : Ipv4Addr) (p : SimpleRoutingProtocol κ) : SimpleRoutingProtocol κ :=
  { p with router := { p.router with routingTable := (p.router.routingTable.removeRoutesViaNexthop ip).1 } }

def purgeDeadNeighbor (p : SimpleRoutingProtocol κ) (neighborId : String) : SimpleRoutingProtocol κ :=
  match RouteManager.getNeighborIp neighborId p.neighbors with
  | some ip => purgeNexthop ip p
  | none => p

def performCleanup (now : Instant) (p : SimpleRoutingProtocol κ) : SimpleRoutingProtocol κ :=
  let (neighbors, deadNeighbors) := scanNeighbors now p.neighbors
  let p := { p with neighbors := neighbors }
  let staleRoutes := staleRoutes now p.routeStates
  let p := removeExpired deadNeighbors staleRoutes p
  deadNeighbors.foldl purgeDeadNeighbor p

/-! The update a router sends, one datagram for each interface. -/

def buildUpdate (sequence : UInt64) (router : Router κ) : RoutingUpdate :=
  { routerId := router.id, sequence := sequence,
    routes := router.routingTable.routes.map (fun route =>
      { destination := route.destination.toString, metric := route.metric, nextHop := route.nextHop.toString }) }

def sendRoutingUpdates (p : SimpleRoutingProtocol κ) :
    SimpleRoutingProtocol κ × List (InterfaceInfo × RoutingUpdate) :=
  let p := { p with sequence := p.sequence + 1 }
  (p, p.router.interfaces.entries.map (fun e => (e.2, buildUpdate p.sequence p.router)))

/-- The listen loop drops what comes from one of the router's own addresses. -/
def receiveUpdate (update : RoutingUpdate) (addr : SocketAddr) (now : Instant)
    (p : SimpleRoutingProtocol κ) : SimpleRoutingProtocol κ × Outcome :=
  match addr.ip with
  | .v4 ip => if p.ourIps.contains ip then (p, .ok) else handleUpdateMessageStatic update addr now p
  | .v6 _ => handleUpdateMessageStatic update addr now p

/-! Runs of one router. -/

inductive Event where
  | hello (message : HelloMessage) (addr : SocketAddr) (now : Instant)
  | update (message : RoutingUpdate) (addr : SocketAddr) (now : Instant)
  | cleanup (now : Instant)
deriving DecidableEq

def Event.time : Event → Instant
  | .hello _ _ now => now
  | .update _ _ now => now
  | .cleanup now => now

def step (p : SimpleRoutingProtocol κ) : Event → SimpleRoutingProtocol κ
  | .hello message addr now => (handleHelloMessageStatic message addr now p).1
  | .update message addr now => (handleUpdateMessageStatic message addr now p).1
  | .cleanup now => performCleanup now p

structure SameRouter (p q : SimpleRoutingProtocol κ) : Prop where
  id : q.router.id = p.router.id
  interfaces : q.router.interfaces = p.router.interfaces
  localNetworks : q.router.routingTable.localNetworks = p.router.routingTable.localNetworks
  ourIps : q.ourIps = p.ourIps

omit [IpNetwork] [NetRoute κ] in
theorem SameRouter.refl (p : SimpleRoutingProtocol κ) : SameRouter p p := ⟨rfl, rfl, rfl, rfl⟩

omit [IpNetwork] [NetRoute κ] in
theorem SameRouter.trans {p q r : SimpleRoutingProtocol κ} (hpq : SameRouter p q) (hqr : SameRouter q r) :
    SameRouter p r :=
  ⟨hqr.id.trans hpq.id, hqr.interfaces.trans hpq.interfaces, hqr.localNetworks.trans hpq.localNetworks,
    hqr.ourIps.trans hpq.ourIps⟩

def accepted (update : RoutingUpdate) (addr : SocketAddr) (now : Instant) (p : SimpleRoutingProtocol κ) :
    List (String × RouteEntry) :=
  if update.routerId = p.router.id then []
  else match addr.ip with
  | .v4 sender => RouteManager.acceptedRoutes update sender now p.router
  | .v6 _ => []

omit [NetRoute κ] in
theorem mem_accepted {update : RoutingUpdate} {addr : SocketAddr} {now : Instant} {p : SimpleRoutingProtocol κ}
    {key : String} {route : RouteEntry} :
    (key, route) ∈ accepted update addr now p ↔ update.routerId ≠ p.router.id ∧ ∃ sender, addr.ip = .v4 sender ∧
      ∃ info ∈ update.routes, info.destination = key ∧
        RouteManager.processSingleRoute info update.routerId sender p.router.interfaces now =
          some (route, ⟨route, now, update.routerId⟩) ∧
        RouteManager.shouldAcceptRoute route p.router = true := by
  unfold accepted
  by_cases hid : update.routerId = p.router.id
  · simp [hid]
  · cases haddr : addr.ip with
    | v4 sender => simp [hid, RouteManager.mem_acceptedRoutes]
    | v6 bits => simp [hid]

omit [IpNetwork] in
theorem lookup_touchNeighbor (routerId : String) (now : Instant) (neighbors : Neighbors) (id : String) :
    (touchNeighbor routerId now neighbors).lookup id = if id = routerId then
      (neighbors.lookup id).map (fun info => { info with lastSeen := now, isAlive := true })
    else neighbors.lookup id := by
  unfold touchNeighbor
  split_ifs with hid
  · subst hid
    cases hl : neighbors.lookup id with
    | none => exact hl
    | some info => exact AList.lookup_insert neighbors
  · cases neighbors.lookup routerId with
    | none => rfl
    | some info => exact AList.lookup_insert_ne hid

theorem handleUpdateMessageStatic_eq (update : RoutingUpdate) (addr : SocketAddr) (now : Instant)
    (p : SimpleRoutingProtocol κ) :
    (handleUpdateMessageStatic update addr now p).1 =
      { p with
        neighbors :=
          if update.routerId = p.router.id then p.neighbors else touchNeighbor update.routerId now p.neighbors
        router := p.router.updateRoutingTable ((accepted update addr now p).map Prod.snd)
        routeStates := p.routeStates.insertAll
          ((accepted update addr now p).map (fun a => (a.1, ⟨a.2, now, update.routerId⟩))) } := by
  obtain ⟨ip, port⟩ := addr
  unfold handleUpdateMessageStatic accepted
  by_cases hid : update.routerId = p.router.id
  · simp [hid, Router.updateRoutingTable]
  · cases ip with
    | v4 sender => simp [hid, RouteManager.processRoutingUpdate_v4]
    | v6 bits => simp [hid, RouteManager.processRoutingUpdate, Router.updateRoutingTable]

theorem handleUpdateMessageStatic_same (update : RoutingUpdate) (addr : SocketAddr) (now : Instant)
    (p : SimpleRoutingProtocol κ) : SameRouter p (handleUpdateMessageStatic update addr now p).1 := by
  rw [handleUpdateMessageStatic_eq]
  exact ⟨rfl, rfl, Router.updateRoutes_localNetworks _ _, rfl⟩

theorem findRoute_update {p : SimpleRoutingProtocol κ} (ht : p.router.routingTable.Distinct)
    (update : RoutingUpdate) (addr : SocketAddr) (now : Instant) (d : Ipv4Network) :
    (handleUpdateMessageStatic update addr now p).1.router.routingTable.findRoute d =
      (((accepted update addr now p).map Prod.snd).filter (fun route => route.destination = d)).foldl
        (fun entry route => Router.offer (p.router.routingTable.isValidRoute route) route entry)
        (p.router.routingTable.findRoute d) := by
  rw [handleUpdateMessageStatic_eq]
  exact Router.findRoute_updateRoutes ht _ d

theorem findRoute_update_origin {p : SimpleRoutingProtocol κ} (ht : p.router.routingTable.Distinct)
    {update : RoutingUpdate} {addr : SocketAddr} {now : Instant} {d : Ipv4Network} {r : RouteEntry}
    (h : (handleUpdateMessageStatic update addr now p).1.router.routingTable.findRoute d = some r) :
    p.router.routingTable.findRoute d = some r ∨
      (∃ key, (key, r) ∈ accepted update addr now p) ∧ p.router.routingTable.isValidRoute r = true := by
  rw [findRoute_update ht] at h
  rcases Router.offers_origin r h with h | ⟨hr, hv⟩
  · exact Or.inl h
  · have hmem := List.mem_of_mem_filter hr
    obtain ⟨⟨key, route⟩, hk, rfl⟩ := List.mem_map.mp hmem
    exact Or.inr ⟨⟨key, hk⟩, hv⟩

theorem findRoute_update_of_notMem {p : SimpleRoutingProtocol κ} (ht : p.router.routingTable.Distinct)
    {update : RoutingUpdate} {addr : SocketAddr} {now : Instant} {d : Ipv4Network}
    (h : ∀ key r, (key, r) ∈ accepted update addr now p → r.destination ≠ d) :
    (handleUpdateMessageStatic update addr now p).1.router.routingTable.findRoute d =
      p.router.routingTable.findRoute d := by
  have hnil : ((accepted update addr now p).map Prod.snd).filter (fun route => route.destination = d) = [] := by
    rw [List.filter_eq_nil_iff]
    intro r hr
    obtain ⟨⟨key, route⟩, hk, rfl⟩ := List.mem_map.mp hr
    simpa using h key route hk
  rw [findRoute_update ht, hnil]
  rfl

omit [NetRoute κ] in
theorem accepted_supersedes {p : SimpleRoutingProtocol κ} {update : RoutingUpdate} {addr : SocketAddr}
    {now : Instant} {key : String} {r : RouteEntry} (h : (key, r) ∈ accepted update addr now p) :
    ∀ existing ∈ p.router.routingTable.findRoute r.destination, Router.Supersedes r existing := by
  obtain ⟨-, -, -, -, -, -, -, ha⟩ := mem_accepted.mp h
  exact RouteManager.shouldAcceptRoute_iff.mp ha

omit [NetRoute κ] in
theorem accepted_ne {p : SimpleRoutingProtocol κ} {update : RoutingUpdate} {addr : SocketAddr}
    {now : Instant} {key : String} {r : RouteEntry} (h : (key, r) ∈ accepted update addr now p) :
    p.router.routingTable.findRoute r.destination ≠ some r := by
  intro hr
  have hs := accepted_supersedes h r hr
  simp [Router.Supersedes] at hs

def declaredDead (now : Instant) (p : SimpleRoutingProtocol κ) : List String :=
  (scanNeighbors now p.neighbors).2

def Expires (now : Instant) (p : SimpleRoutingProtocol κ) (state : RouteState) : Prop :=
  ROUTE_TIMEOUT < now.durationSince state.lastAdvertised ∨ state.advertisingNeighbor ∈ declaredDead now p

def DeadNextHop (now : Instant) (p : SimpleRoutingProtocol κ) (ip : Ipv4Addr) : Prop :=
  ∃ id ∈ declaredDead now p, RouteManager.getNeighborIp id p.neighbors = some ip

omit [IpNetwork] in
theorem mem_staleRoutes {now : Instant} {states : RouteStates} {k : String} :
    k ∈ staleRoutes now states ↔
      ∃ state, states.lookup k = some state ∧ ROUTE_TIMEOUT < now.durationSince state.lastAdvertised := by
  simp [staleRoutes, Dictionary.mem_entries]

omit [IpNetwork] in
theorem mem_routesToRemove {dead stale : List String} {states : RouteStates} {k : String} :
    k ∈ routesToRemove dead stale states ↔
      ∃ state, states.lookup k = some state ∧ (state.advertisingNeighbor ∈ dead ∨ k ∈ stale) := by
  simp [routesToRemove, Dictionary.mem_entries]

omit [IpNetwork] [NetRoute κ] in
theorem mem_expired {now : Instant} {p : SimpleRoutingProtocol κ} {k : String} :
    k ∈ routesToRemove (declaredDead now p) (staleRoutes now p.routeStates) p.routeStates ↔
      ∃ state, p.routeStates.lookup k = some state ∧ Expires now p state := by
  rw [mem_routesToRemove]
  refine exists_congr fun state => and_congr_right fun hs => ?_
  have hstale : k ∈ staleRoutes now p.routeStates ↔ ROUTE_TIMEOUT < now.durationSince state.lastAdvertised := by
    rw [mem_staleRoutes]
    simp [hs]
  rw [hstale, Expires, or_comm]

theorem removeExpired_eq (dead stale : List String) (p : SimpleRoutingProtocol κ) :
    removeExpired dead stale p = removeRoutes (routesToRemove dead stale p.routeStates) p := by
  have hnil : removeRoutes [] p = p := rfl
  unfold removeExpired
  cases hr : routesToRemove dead stale p.routeStates with
  | nil => simp [hnil]
  | cons k ks =>
    have hk : k ∈ routesToRemove dead stale p.routeStates := by simp [hr]
    obtain ⟨state, -, hd | hs⟩ := mem_routesToRemove.mp hk
    · have hne : dead.isEmpty = false := by
        cases dead with
        | nil => simp at hd
        | cons _ _ => rfl
      simp [hne]
    · have hne : stale.isEmpty = false := by
        cases stale with
        | nil => simp at hs
        | cons _ _ => rfl
      simp [hne]

omit [IpNetwork] in
theorem getNeighborIp_scanNeighbors (now : Instant) (neighbors : Neighbors) (id : String) :
    RouteManager.getNeighborIp id (scanNeighbors now neighbors).1 = RouteManager.getNeighborIp id neighbors := by
  have hsame (info : NeighborInfo) : (scanNeighbor now info).1.socketAddr = info.socketAddr := by
    unfold scanNeighbor
    split
    · split <;> rfl
    · split <;> rfl
  unfold RouteManager.getNeighborIp scanNeighbors
  rw [Dictionary.lookup_mapValues]
  cases neighbors.lookup id with
  | none => rfl
  | some info => simp [hsame]

theorem performCleanup_eq (now : Instant) (p : SimpleRoutingProtocol κ) :
    performCleanup now p = (declaredDead now p).foldl purgeDeadNeighbor
      (removeRoutes (routesToRemove (declaredDead now p) (staleRoutes now p.routeStates) p.routeStates)
        { p with neighbors := (scanNeighbors now p.neighbors).1 }) := by
  simp only [performCleanup, removeExpired_eq, declaredDead]

theorem purge_spec (ids : List String) {p : SimpleRoutingProtocol κ} (ht : p.router.routingTable.Distinct) :
    let q := ids.foldl purgeDeadNeighbor p
    SameRouter p q ∧ q.neighbors = p.neighbors ∧ q.routeStates = p.routeStates ∧
      q.router.routingTable.Distinct ∧ ∀ r, r ∈ q.router.routingTable.routes ↔
        r ∈ p.router.routingTable.routes ∧ ¬ (r.source = .protocol ∧
          ∃ id ∈ ids, RouteManager.getNeighborIp id p.neighbors = some r.nextHop) := by
  induction ids generalizing p with
  | nil => exact ⟨SameRouter.refl p, rfl, rfl, ht, by simp⟩
  | cons id ids ih =>
    have hone : SameRouter p (purgeDeadNeighbor p id) ∧ (purgeDeadNeighbor p id).neighbors = p.neighbors ∧
        (purgeDeadNeighbor p id).routeStates = p.routeStates ∧
        (purgeDeadNeighbor p id).router.routingTable.Distinct ∧
        ∀ r, r ∈ (purgeDeadNeighbor p id).router.routingTable.routes ↔ r ∈ p.router.routingTable.routes ∧
          ¬ (r.source = .protocol ∧ RouteManager.getNeighborIp id p.neighbors = some r.nextHop) := by
      unfold purgeDeadNeighbor
      cases hip : RouteManager.getNeighborIp id p.neighbors with
      | none => exact ⟨SameRouter.refl p, rfl, rfl, ht, by simp⟩
      | some ip =>
        refine ⟨⟨rfl, rfl, rfl, rfl⟩, rfl, rfl, RoutingTable.removeRoutesViaNexthop_distinct ht ip, ?_⟩
        intro r
        have hmem : r ∈ (purgeNexthop ip p).router.routingTable.routes ↔ r ∈ p.router.routingTable.routes ∧
            ¬ (r.nextHop = ip ∧ r.source = .protocol) := RoutingTable.mem_removeRoutesViaNexthop
        rw [hmem]
        simp only [Option.some.injEq, and_comm, eq_comm]
    obtain ⟨hsame, hn, hs, hd, hr⟩ := hone
    obtain ⟨hsame', hn', hs', hd', hr'⟩ := ih hd
    rw [List.foldl_cons]
    refine ⟨hsame.trans hsame', hn'.trans hn, hs'.trans hs, hd', ?_⟩
    intro r
    rw [hr', hr, hn, and_assoc, ← not_or, ← and_or_left]
    simp only [List.mem_cons, exists_eq_or_imp]

def Cleaned (now : Instant) (p q : SimpleRoutingProtocol κ) : Prop :=
  SameRouter p q ∧ q.neighbors = (scanNeighbors now p.neighbors).1 ∧ q.router.routingTable.Distinct ∧
    (∀ k state, q.routeStates.lookup k = some state ↔ p.routeStates.lookup k = some state ∧ ¬ Expires now p state) ∧
    ∀ r, r ∈ q.router.routingTable.routes ↔ r ∈ p.router.routingTable.routes ∧
      (∀ k state, p.routeStates.lookup k = some state → Expires now p state →
        state.route.destination ≠ r.destination) ∧
      ¬ (r.source = .protocol ∧ DeadNextHop now p r.nextHop)

/-- In whatever order the sets and maps of the program give the records to remove and the dead neighbours. -/
theorem cleaned_in_any_order (now : Instant) {p : SimpleRoutingProtocol κ} (ht : p.router.routingTable.Distinct)
    {keys ids : List String}
    (hkeys : keys.Perm (routesToRemove (declaredDead now p) (staleRoutes now p.routeStates) p.routeStates))
    (hids : ids.Perm (declaredDead now p)) :
    Cleaned now p (ids.foldl purgeDeadNeighbor
      (removeRoutes keys { p with neighbors := (scanNeighbors now p.neighbors).1 })) := by
  let scanned := { p with neighbors := (scanNeighbors now p.neighbors).1 }
  obtain ⟨hid, hif, hln, hd, hs, hr⟩ :=
    @RouteManager.removeRoutesViaNexthop_spec _ κ _ keys p.router p.routeStates ht
  obtain ⟨hsame, hn, hs', hd', hr'⟩ := purge_spec ids (p := removeRoutes keys scanned) hd
  have hremove : SameRouter p (removeRoutes keys scanned) := ⟨hid, hif, hln, rfl⟩
  have hexpired {k : String} : k ∈ keys ↔ ∃ state, p.routeStates.lookup k = some state ∧ Expires now p state :=
    hkeys.mem_iff.trans mem_expired
  refine ⟨hremove.trans hsame, hn, hd', ?_, ?_⟩
  · intro k state
    rw [hs']
    have hk : (removeRoutes keys scanned).routeStates.lookup k = if k ∈ keys then none else p.routeStates.lookup k :=
      hs k
    rw [hk]
    by_cases hmem : k ∈ keys
    · obtain ⟨state', hl, he⟩ := hexpired.mp hmem
      simp only [hmem, if_true, reduceCtorEq, hl, Option.some.injEq, false_iff, not_and, not_not]
      rintro rfl
      exact he
    · simp only [hmem, if_false, iff_self_and]
      intro hl he
      exact hmem (hexpired.mpr ⟨state, hl, he⟩)
  · intro r
    rw [hr']
    have hmem : r ∈ (removeRoutes keys scanned).router.routingTable.routes ↔ r ∈ p.router.routingTable.routes ∧
        ∀ k ∈ keys, ∀ state, p.routeStates.lookup k = some state → state.route.destination ≠ r.destination := hr r
    rw [hmem, and_assoc]
    refine and_congr_right fun _ => and_congr ?_ (not_congr (and_congr_right fun _ => ?_))
    · constructor
      · intro h k state hl he
        exact h k (hexpired.mpr ⟨state, hl, he⟩) state hl
      · intro h k hk state hl
        obtain ⟨state', hl', he⟩ := hexpired.mp hk
        obtain rfl := Option.some.inj (hl.symm.trans hl')
        exact h k state hl he
    · refine exists_congr fun id => ?_
      change id ∈ ids ∧ RouteManager.getNeighborIp id (scanNeighbors now p.neighbors).1 = _ ↔ _
      rw [hids.mem_iff, getNeighborIp_scanNeighbors]

theorem performCleanup_spec (now : Instant) {p : SimpleRoutingProtocol κ}
    (ht : p.router.routingTable.Distinct) : Cleaned now p (performCleanup now p) := by
  rw [performCleanup_eq]
  exact cleaned_in_any_order now ht (List.Perm.refl _) (List.Perm.refl _)

omit [NetRoute κ] in
theorem handleHelloMessageStatic_eq (hello : HelloMessage) (addr : SocketAddr) (now : Instant)
    (p : SimpleRoutingProtocol κ) :
    ∃ neighbors, (handleHelloMessageStatic hello addr now p).1 = { p with neighbors := neighbors } := by
  unfold handleHelloMessageStatic
  split
  · exact ⟨p.neighbors, rfl⟩
  · split
    · exact ⟨p.neighbors, rfl⟩
    · exact ⟨_, rfl⟩

theorem step_distinct {p : SimpleRoutingProtocol κ} (ht : p.router.routingTable.Distinct) (e : Event) :
    (step p e).router.routingTable.Distinct := by
  cases e with
  | hello message addr now =>
    obtain ⟨neighbors, hn⟩ := handleHelloMessageStatic_eq message addr now p
    simp only [step, hn]
    exact ht
  | update message addr now =>
    simp only [step, handleUpdateMessageStatic_eq]
    exact Router.updateRoutes_distinct ht _
  | cleanup now => exact (performCleanup_spec now ht).2.2.1

theorem step_same {p : SimpleRoutingProtocol κ} (ht : p.router.routingTable.Distinct) (e : Event) :
    SameRouter p (step p e) := by
  cases e with
  | hello message addr now =>
    obtain ⟨neighbors, hn⟩ := handleHelloMessageStatic_eq message addr now p
    simp only [step, hn]
    exact ⟨rfl, rfl, rfl, rfl⟩
  | update message addr now => exact handleUpdateMessageStatic_same message addr now p
  | cleanup now => exact (performCleanup_spec now ht).1

end SimpleRoutingProtocol

end CustomOspf
