import CustomOspf.Runs

/-!
The sections under a lock of an update reception and of a cleanup pass, as
atomic steps of the listen loops and of the cleanup task of one router.
-/

namespace CustomOspf

open SimpleRoutingProtocol

inductive ListenPhase where
  | idle
  | touching (update : RoutingUpdate) (addr : SocketAddr)
  | starting (update : RoutingUpdate) (sender : Ipv4Addr)
  | testing (advertiser : String) (sender : Ipv4Addr) (interfaces : Interfaces) (now : Instant)
      (routes : List RouteInfo) (collected : List RouteEntry × List (String × RouteState))
  | applying (newRoutes : List RouteEntry)

inductive CleanPhase where
  | idle
  | scanningStates (now : Instant) (dead : List String)
  | collecting (dead stale : List String)
  | removing (dead destinations : List String)
  | purging (id : String) (rest : List String)
  | purgingVia (ip : Ipv4Addr) (rest : List String)

def purgeNext : List String → CleanPhase
  | [] => .idle
  | id :: rest => .purging id rest

section Sections

variable {κ : Type} [IpNetwork] [NetRoute κ]

/-- The next section of `handle_update_message_static` and of `process_routing_update` in it. -/
def listen (now : Instant) (phase : ListenPhase) (p : SimpleRoutingProtocol κ) :
    ListenPhase × SimpleRoutingProtocol κ :=
  match phase with
  | .idle => (.idle, p)
  | .touching update addr =>
    let next := match addr.ip with
      | .v4 sender => ListenPhase.starting update sender
      | .v6 _ => .idle
    (next, { p with neighbors := touchNeighbor update.routerId now p.neighbors })
  | .starting update sender =>
    (.testing update.routerId sender p.router.interfaces now update.routes ([], []), p)
  | .testing advertiser sender interfaces started (info :: routes) collected =>
    (.testing advertiser sender interfaces started routes
      (RouteManager.collectRoute advertiser sender interfaces started p.router collected info), p)
  | .testing _ _ _ _ [] (newRoutes, updatedRouteStates) =>
    (if !newRoutes.isEmpty then .applying newRoutes else .idle,
      { p with routeStates := RouteManager.updateRouteStates p.routeStates updatedRouteStates })
  | .applying newRoutes => (.idle, { p with router := RouteManager.applyNewRoutes p.router newRoutes })

/-- The next section of `perform_cleanup`. -/
def clean (now : Instant) (phase : CleanPhase) (p : SimpleRoutingProtocol κ) :
    CleanPhase × SimpleRoutingProtocol κ :=
  match phase with
  | .idle =>
    let (neighbors, dead) := scanNeighbors now p.neighbors
    (.scanningStates now dead, { p with neighbors := neighbors })
  | .scanningStates started dead =>
    let stale := staleRoutes started p.routeStates
    (if !dead.isEmpty || !stale.isEmpty then .collecting dead stale else purgeNext dead, p)
  | .collecting dead stale =>
    let destinations := routesToRemove dead stale p.routeStates
    (if !destinations.isEmpty then .removing dead destinations else purgeNext dead, p)
  | .removing dead destinations => (purgeNext dead, removeRoutes destinations p)
  | .purging id rest =>
    (match RouteManager.getNeighborIp id p.neighbors with
      | some ip => .purgingVia ip rest
      | none => purgeNext rest, p)
  | .purgingVia ip rest => (purgeNext rest, purgeNexthop ip p)

theorem listen_same (now : Instant) (phase : ListenPhase) (p : SimpleRoutingProtocol κ) :
    SameRouter p (listen now phase p).2 := by
  cases phase with
  | testing advertiser sender interfaces started routes collected =>
    cases routes with
    | nil => exact ⟨rfl, rfl, rfl, rfl⟩
    | cons info routes => exact SameRouter.refl p
  | applying newRoutes => exact ⟨rfl, rfl, Router.updateRoutes_localNetworks _ _, rfl⟩
  | idle => exact SameRouter.refl p
  | touching update addr => exact ⟨rfl, rfl, rfl, rfl⟩
  | starting update sender => exact SameRouter.refl p

theorem clean_same {p : SimpleRoutingProtocol κ} (h : p.router.routingTable.Distinct) (phase : CleanPhase)
    (now : Instant) : SameRouter p (clean now phase p).2 := by
  cases phase with
  | removing dead destinations =>
    obtain ⟨hid, hif, hln, -⟩ :=
      @RouteManager.removeRoutesViaNexthop_spec _ κ _ destinations p.router p.routeStates h
    exact ⟨hid, hif, hln, rfl⟩
  | idle => exact ⟨rfl, rfl, rfl, rfl⟩
  | purgingVia ip rest => exact ⟨rfl, rfl, rfl, rfl⟩
  | scanningStates started dead => exact SameRouter.refl p
  | collecting dead stale => exact SameRouter.refl p
  | purging id rest => exact SameRouter.refl p

/-! Without interleaving the sections make up the whole operations. -/

def listenAll (now : Instant) (n : ℕ) (s : ListenPhase × SimpleRoutingProtocol κ) :
    ListenPhase × SimpleRoutingProtocol κ := (fun s => listen now s.1 s.2)^[n] s

def cleanAll (now : Instant) (n : ℕ) (s : CleanPhase × SimpleRoutingProtocol κ) :
    CleanPhase × SimpleRoutingProtocol κ := (fun s => clean now s.1 s.2)^[n] s

theorem listenAll_add (now : Instant) (m n : ℕ) (s : ListenPhase × SimpleRoutingProtocol κ) :
    listenAll now (m + n) s = listenAll now m (listenAll now n s) := Function.iterate_add_apply _ m n s

theorem cleanAll_add (now : Instant) (m n : ℕ) (s : CleanPhase × SimpleRoutingProtocol κ) :
    cleanAll now (m + n) s = cleanAll now m (cleanAll now n s) := Function.iterate_add_apply _ m n s

theorem listenAll_testing (now : Instant) (advertiser : String) (sender : Ipv4Addr) (interfaces : Interfaces)
    (started : Instant) (routes : List RouteInfo) (collected : List RouteEntry × List (String × RouteState))
    (p : SimpleRoutingProtocol κ) :
    listenAll now routes.length (.testing advertiser sender interfaces started routes collected, p) =
      (.testing advertiser sender interfaces started []
        (routes.foldl (RouteManager.collectRoute advertiser sender interfaces started p.router) collected), p) := by
  induction routes generalizing collected with
  | nil => rfl
  | cons info routes ih =>
    rw [List.length_cons, listenAll_add, List.foldl_cons]
    exact ih _

theorem listenAll_update (update : RoutingUpdate) (addr : SocketAddr) (now : Instant) (p : SimpleRoutingProtocol κ)
    (hid : update.routerId ≠ p.router.id) :
    ∃ n, listenAll now n (.touching update addr, p) = (.idle, (handleUpdateMessageStatic update addr now p).1) := by
  obtain ⟨ip, port⟩ := addr
  let touched := { p with neighbors := touchNeighbor update.routerId now p.neighbors }
  cases ip with
  | v6 bits =>
    refine ⟨1, ?_⟩
    simp [listenAll, listen, handleUpdateMessageStatic, hid, RouteManager.processRoutingUpdate]
  | v4 sender =>
    obtain ⟨⟨newRoutes, updated⟩, hc⟩ : ∃ collected, collected = update.routes.foldl
      (RouteManager.collectRoute update.routerId sender p.router.interfaces now p.router) ([], []) := ⟨_, rfl⟩
    have htests : listenAll now (update.routes.length + 2) (.touching update ⟨.v4 sender, port⟩, p) =
        (.testing update.routerId sender p.router.interfaces now [] (newRoutes, updated), touched) := by
      rw [hc, listenAll_add]
      exact listenAll_testing now update.routerId sender p.router.interfaces now update.routes ([], []) touched
    unfold handleUpdateMessageStatic
    rw [if_neg hid]
    simp only [RouteManager.processRoutingUpdate, ← hc]
    cases newRoutes with
    | nil =>
      refine ⟨1 + (update.routes.length + 2), ?_⟩
      rw [listenAll_add, htests]
      rfl
    | cons route routes =>
      refine ⟨2 + (update.routes.length + 2), ?_⟩
      rw [listenAll_add, htests]
      rfl

theorem cleanAll_purge (now : Instant) (ids : List String) (p : SimpleRoutingProtocol κ) :
    ∃ n, cleanAll now n (purgeNext ids, p) = (.idle, ids.foldl purgeDeadNeighbor p) := by
  induction ids generalizing p with
  | nil => exact ⟨0, rfl⟩
  | cons id ids ih =>
    obtain ⟨n, hn⟩ := ih (purgeDeadNeighbor p id)
    cases hip : RouteManager.getNeighborIp id p.neighbors with
    | none =>
      have hp : purgeDeadNeighbor p id = p := by simp [purgeDeadNeighbor, hip]
      have hstep : cleanAll now 1 (purgeNext (id :: ids), p) = (purgeNext ids, p) := by
        simp [cleanAll, purgeNext, clean, hip]
      refine ⟨n + 1, ?_⟩
      rw [cleanAll_add, hstep, List.foldl_cons, ← hn, hp]
    | some ip =>
      have hp : purgeDeadNeighbor p id = purgeNexthop ip p := by simp [purgeDeadNeighbor, hip]
      have hstep : cleanAll now 2 (purgeNext (id :: ids), p) = (purgeNext ids, purgeNexthop ip p) := by
        simp [cleanAll, purgeNext, clean, hip]
      refine ⟨n + 2, ?_⟩
      rw [cleanAll_add, hstep, List.foldl_cons, ← hn, hp]

theorem cleanAll_cleanup (now : Instant) (p : SimpleRoutingProtocol κ) :
    ∃ n, cleanAll now (n + 1) (.idle, p) = (.idle, performCleanup now p) := by
  let dead := declaredDead now p
  let stale := staleRoutes now p.routeStates
  let scanned := { p with neighbors := (scanNeighbors now p.neighbors).1 }
  obtain ⟨n, hn⟩ := cleanAll_purge now dead (removeExpired dead stale scanned)
  have hpass : performCleanup now p = dead.foldl purgeDeadNeighbor (removeExpired dead stale scanned) := rfl
  have hfirst (m : ℕ) : cleanAll now (m + 2) (.idle, p) =
      cleanAll now m (if !dead.isEmpty || !stale.isEmpty then .collecting dead stale else purgeNext dead, scanned) :=
    cleanAll_add now m 2 _
  rw [hpass]
  by_cases hany : (!dead.isEmpty || !stale.isEmpty) = true
  · by_cases hkeys : (!(routesToRemove dead stale p.routeStates).isEmpty) = true
    · refine ⟨n + 3, ?_⟩
      have hremove : removeExpired dead stale scanned = removeRoutes (routesToRemove dead stale p.routeStates) scanned := by
        unfold removeExpired
        rw [if_pos hany]
        exact if_pos hkeys
      have hcollect : cleanAll now 1 (.collecting dead stale, scanned) =
          (.removing dead (routesToRemove dead stale p.routeStates), scanned) := by
        simp only [cleanAll, Function.iterate_one, clean]
        rw [if_pos hkeys]
      have hstep : cleanAll now 1 (.removing dead (routesToRemove dead stale p.routeStates), scanned) =
          (purgeNext dead, removeExpired dead stale scanned) := by
        rw [hremove]
        rfl
      rw [hfirst (n + 2), if_pos hany, cleanAll_add now (n + 1) 1, hcollect, cleanAll_add now n 1, hstep, hn]
    · refine ⟨n + 2, ?_⟩
      have hremove : removeExpired dead stale scanned = scanned := by
        unfold removeExpired
        rw [if_pos hany]
        exact if_neg hkeys
      have hcollect : cleanAll now 1 (.collecting dead stale, scanned) = (purgeNext dead, scanned) := by
        simp only [cleanAll, Function.iterate_one, clean]
        rw [if_neg hkeys]
      rw [hfirst (n + 1), if_pos hany, cleanAll_add now n 1, hcollect, ← hn, hremove]
  · refine ⟨n + 1, ?_⟩
    have hremove : removeExpired dead stale scanned = scanned := by
      unfold removeExpired
      exact if_neg hany
    rw [hfirst n, if_neg hany, ← hn, hremove]

/-! What the sections keep: every protocol route has a record of its network. -/

def Recorded (p : SimpleRoutingProtocol κ) (d : Ipv4Network) : Prop :=
  ∃ k state, p.routeStates.lookup k = some state ∧ state.route.destination = d

structure NoOrphan (p : SimpleRoutingProtocol κ) : Prop where
  distinct : p.router.routingTable.Distinct
  keys : ∀ k state, p.routeStates.lookup k = some state →
    RouteManager.destinationOf k = some state.route.destination
  recorded : ∀ r ∈ p.router.routingTable.routes, r.source = .protocol → Recorded p r.destination

structure Collected (collected : List RouteEntry × List (String × RouteState)) : Prop where
  keys : ∀ k state, (k, state) ∈ collected.2 → RouteManager.destinationOf k = some state.route.destination
  routes : ∀ r ∈ collected.1, ∃ k state, (k, state) ∈ collected.2 ∧ state.route.destination = r.destination

def Ready (p : SimpleRoutingProtocol κ) : ListenPhase → Prop
  | .testing _ _ _ _ _ collected => Collected collected
  | .applying newRoutes => ∀ r ∈ newRoutes, p.router.routingTable.isValidRoute r = true → Recorded p r.destination
  | _ => True

section Sections

omit [NetRoute κ]

theorem Ready.mono {p q : SimpleRoutingProtocol κ} {phase : ListenPhase} (h : Ready p phase)
    (hlocal : q.router.routingTable.localNetworks = p.router.routingTable.localNetworks)
    (hrec : ∀ d, Recorded p d → Recorded q d) : Ready q phase := by
  cases phase with
  | testing => exact h
  | applying newRoutes =>
    intro r hr hv
    apply hrec
    apply h r hr
    rw [← hv]
    exact RoutingTable.isValidRoute_congr hlocal.symm r
  | idle => trivial
  | touching => trivial
  | starting => trivial

theorem Collected.collect {collected : List RouteEntry × List (String × RouteState)} (h : Collected collected)
    (advertiser : String) (sender : Ipv4Addr) (interfaces : Interfaces) (now : Instant) (router : Router κ)
    (info : RouteInfo) :
    Collected (RouteManager.collectRoute advertiser sender interfaces now router collected info) := by
  unfold RouteManager.collectRoute
  split
  · next route state hp =>
    obtain ⟨d, nh, name, iface, hd, -, -, -, hroute, rfl⟩ := RouteManager.processSingleRoute_iff.mp hp
    split
    · refine ⟨?_, ?_⟩
      · intro k state hmem
        rcases List.mem_append.mp hmem with hmem | hmem
        · exact h.keys k state hmem
        · obtain ⟨rfl, rfl⟩ := Prod.mk.inj (List.mem_singleton.mp hmem)
          rw [hd, hroute]
      · intro r hr
        rcases List.mem_append.mp hr with hr | hr
        · obtain ⟨k, state, hmem, hdest⟩ := h.routes r hr
          exact ⟨k, state, List.mem_append_left _ hmem, hdest⟩
        · obtain rfl := List.mem_singleton.mp hr
          exact ⟨_, _, List.mem_append_right _ (List.mem_singleton_self _), rfl⟩
    · exact h
  · exact h

theorem NoOrphan.write {p : SimpleRoutingProtocol κ} (h : NoOrphan p) {updated : List (String × RouteState)}
    (hkeys : ∀ k state, (k, state) ∈ updated → RouteManager.destinationOf k = some state.route.destination) :
    let q := { p with routeStates := RouteManager.updateRouteStates p.routeStates updated }
    NoOrphan q ∧ (∀ d, Recorded p d → Recorded q d) ∧
      ∀ k state, (k, state) ∈ updated → Recorded q state.route.destination := by
  intro q
  have hnew : ∀ k state, (k, state) ∈ updated → Recorded q state.route.destination := by
    intro k state hmem
    obtain ⟨state', hmem', hl⟩ := Dictionary.lookup_insertAll_of_mem (d := p.routeStates)
      (List.mem_map.mpr ⟨(k, state), hmem, rfl⟩)
    have hdest := hkeys k state' hmem'
    rw [hkeys k state hmem] at hdest
    exact ⟨k, state', hl, (Option.some.inj hdest).symm⟩
  have hold : ∀ d, Recorded p d → Recorded q d := by
    rintro d ⟨k, state, hl, rfl⟩
    by_cases hk : k ∈ updated.map Prod.fst
    · obtain ⟨⟨k', state'⟩, hmem, rfl⟩ := List.mem_map.mp hk
      have hdest := hkeys k' state' hmem
      rw [h.keys k' state hl] at hdest
      rw [Option.some.inj hdest]
      exact hnew k' state' hmem
    · exact ⟨k, state, (Dictionary.lookup_insertAll_of_notMem hk).trans hl, rfl⟩
  refine ⟨⟨h.distinct, ?_, fun r hr hs => hold _ (h.recorded r hr hs)⟩, hold, hnew⟩
  intro k state hl
  rcases Dictionary.lookup_insertAll hl with hmem | ⟨-, hl⟩
  · exact hkeys k state hmem
  · exact h.keys k state hl

end Sections

theorem NoOrphan.apply {p : SimpleRoutingProtocol κ} (h : NoOrphan p) {newRoutes : List RouteEntry}
    (hready : ∀ r ∈ newRoutes, p.router.routingTable.isValidRoute r = true → Recorded p r.destination) :
    NoOrphan { p with router := RouteManager.applyNewRoutes p.router newRoutes } := by
  have hd := Router.updateRoutes_distinct h.distinct newRoutes
  refine ⟨hd, h.keys, ?_⟩
  intro r hr hs
  have hf : (newRoutes.foldl Router.updateRoute p.router.routingTable).findRoute r.destination = some r :=
    (RoutingTable.findRoute_iff hd).mpr ⟨hr, rfl⟩
  rw [Router.findRoute_updateRoutes h.distinct] at hf
  rcases Router.offers_origin r hf with hold | ⟨hnew, hv⟩
  · exact h.recorded r (RoutingTable.findRoute_mem hold) hs
  · exact hready r (List.mem_of_mem_filter hnew) hv

theorem listen_keeps {p : SimpleRoutingProtocol κ} (h : NoOrphan p) {phase : ListenPhase} (hready : Ready p phase)
    (now : Instant) :
    NoOrphan (listen now phase p).2 ∧ Ready (listen now phase p).2 (listen now phase p).1 ∧
      ∀ d, Recorded p d → Recorded (listen now phase p).2 d := by
  cases phase with
  | idle => exact ⟨h, trivial, fun d hd => hd⟩
  | touching update addr =>
    refine ⟨⟨h.distinct, h.keys, h.recorded⟩, ?_, fun d hd => hd⟩
    obtain ⟨ip, port⟩ := addr
    cases ip <;> trivial
  | starting update sender =>
    have hempty : Collected ([], []) := ⟨by simp, by simp⟩
    exact ⟨h, hempty, fun d hd => hd⟩
  | testing advertiser sender interfaces started routes collected =>
    cases routes with
    | cons info routes =>
      exact ⟨h, hready.collect advertiser sender interfaces started p.router info, fun d hd => hd⟩
    | nil =>
      obtain ⟨newRoutes, updated⟩ := collected
      obtain ⟨hno, hrec, hnew⟩ := h.write hready.keys
      refine ⟨hno, ?_, hrec⟩
      cases hroutes : newRoutes with
      | nil => trivial
      | cons route rest =>
        intro r hr _
        obtain ⟨k, state, hmem, hdest⟩ := hready.routes r (by rw [hroutes]; exact hr)
        rw [← hdest]
        exact hnew k state hmem
  | applying newRoutes => exact ⟨h.apply hready, trivial, fun d hd => hd⟩

theorem NoOrphan.remove {p : SimpleRoutingProtocol κ} (h : NoOrphan p) (destinations : List String) :
    NoOrphan (removeRoutes destinations p) ∧
      ∀ k state, p.routeStates.lookup k = some state → k ∉ destinations →
        Recorded (removeRoutes destinations p) state.route.destination := by
  obtain ⟨-, -, -, hd, hs, hr⟩ :=
    @RouteManager.removeRoutesViaNexthop_spec _ κ _ destinations p.router p.routeStates h.distinct
  have hkept : ∀ k state, p.routeStates.lookup k = some state → k ∉ destinations →
      Recorded (removeRoutes destinations p) state.route.destination := by
    intro k state hl hk
    exact ⟨k, state, (hs k).trans (by rw [if_neg hk, hl]), rfl⟩
  refine ⟨⟨hd, ?_, ?_⟩, hkept⟩
  · intro k state hl
    have hk : (if k ∈ destinations then none else p.routeStates.lookup k) = some state := (hs k).symm.trans hl
    split at hk
    · cases hk
    · exact h.keys k state hk
  · intro r hmem hsrc
    obtain ⟨hold, hremoved⟩ := (hr r).mp hmem
    obtain ⟨k, state, hl, hdest⟩ := h.recorded r hold hsrc
    rw [← hdest]
    exact hkept k state hl (fun hk => hremoved k hk state hl hdest)

theorem clean_keeps {p : SimpleRoutingProtocol κ} (h : NoOrphan p) (phase : CleanPhase) (now : Instant) :
    NoOrphan (clean now phase p).2 ∧
      ∀ k state, p.routeStates.lookup k = some state →
        (∀ dead destinations, phase = .removing dead destinations → k ∉ destinations) →
          Recorded (clean now phase p).2 state.route.destination := by
  have hstays {q : SimpleRoutingProtocol κ} (hq : q.routeStates = p.routeStates) :
      ∀ k state, p.routeStates.lookup k = some state → Recorded q state.route.destination := by
    intro k state hl
    exact ⟨k, state, by rw [hq, hl], rfl⟩
  cases phase with
  | removing dead destinations =>
    obtain ⟨hno, hkept⟩ := h.remove destinations
    exact ⟨hno, fun k state hl hk => hkept k state hl (hk dead destinations rfl)⟩
  | purgingVia ip rest =>
    refine ⟨⟨RoutingTable.removeRoutesViaNexthop_distinct h.distinct ip, h.keys, ?_⟩,
      fun k state hl _ => hstays rfl k state hl⟩
    intro r hr hs
    exact h.recorded r (RoutingTable.mem_removeRoutesViaNexthop.mp hr).1 hs
  | idle =>
    exact ⟨⟨h.distinct, h.keys, h.recorded⟩, fun k state hl _ => hstays rfl k state hl⟩
  | scanningStates started dead => exact ⟨h, fun k state hl _ => hstays rfl k state hl⟩
  | collecting dead stale => exact ⟨h, fun k state hl _ => hstays rfl k state hl⟩
  | purging id rest => exact ⟨h, fun k state hl _ => hstays rfl k state hl⟩

end Sections

/-! Any number of listen loops, one for each socket, beside the cleanup task. -/

structure Concurrent (ι κ : Type) where
  shared : SimpleRoutingProtocol κ
  listeners : ι → ListenPhase
  cleaner : CleanPhase

inductive Section (ι : Type) where
  | hello (i : ι) (message : HelloMessage) (addr : SocketAddr) (now : Instant)
  | receive (i : ι) (update : RoutingUpdate) (addr : SocketAddr)
  | listen (i : ι) (now : Instant)
  | clean (now : Instant)

namespace Concurrent

section Steps

variable {ι κ : Type} [DecidableEq ι] [IpNetwork] [NetRoute κ]

def step (c : Concurrent ι κ) : Section ι → Concurrent ι κ
  | .hello i message addr now =>
    match c.listeners i with
    | .idle => { c with shared := (handleHelloMessageStatic message addr now c.shared).1 }
    | _ => c
  | .receive i update addr =>
    match c.listeners i with
    | .idle =>
      if update.routerId = c.shared.router.id then c
      else { c with listeners := Function.update c.listeners i (.touching update addr) }
    | _ => c
  | .listen i now =>
    let (phase, shared) := CustomOspf.listen now (c.listeners i) c.shared
    { c with shared := shared, listeners := Function.update c.listeners i phase }
  | .clean now =>
    let (phase, shared) := CustomOspf.clean now c.cleaner c.shared
    { c with shared := shared, cleaner := phase }

def start (p : SimpleRoutingProtocol κ) : Concurrent ι κ := ⟨p, fun _ => .idle, .idle⟩

inductive Reachable (C : Concurrent ι κ → Section ι → Prop) : Concurrent ι κ → Prop where
  | start {routerId : String} {hosts hostsAtTable : List NetworkInterface} {names : List String} {port : UInt16}
      {handle : κ} {p : SimpleRoutingProtocol κ}
      (h : SimpleRoutingProtocol.new routerId hosts hostsAtTable names port handle = .ok p) : Reachable C (start p)
  | step {c : Concurrent ι κ} (a : Section ι) (ha : C c a) (h : Reachable C c) : Reachable C (c.step a)

def Quiet (c : Concurrent ι κ) : Prop := c.cleaner = .idle ∧ ∀ i, c.listeners i = .idle

/-- When the cleanup task removes records, a valid route that waits to be applied keeps one of its network. -/
def KeepsWaiting (c : Concurrent ι κ) (a : Section ι) : Prop :=
  ∀ now dead destinations, a = .clean now → c.cleaner = .removing dead destinations →
    ∀ i newRoutes, c.listeners i = .applying newRoutes →
      ∀ r ∈ newRoutes, c.shared.router.routingTable.isValidRoute r = true →
        ∃ k state, c.shared.routeStates.lookup k = some state ∧ state.route.destination = r.destination ∧
          k ∉ destinations

structure Invariant (c : Concurrent ι κ) : Prop where
  shared : NoOrphan c.shared
  listeners : ∀ i, Ready c.shared (c.listeners i)

theorem Invariant.listen {c : Concurrent ι κ} (h : Invariant c) (i : ι) (now : Instant) :
    Invariant (c.step (.listen i now)) := by
  obtain ⟨hno, hready, hrec⟩ := listen_keeps h.shared (h.listeners i) now
  have hsame := listen_same now (c.listeners i) c.shared
  refine ⟨hno, ?_⟩
  intro j
  by_cases hj : j = i
  · subst hj
    simpa [step] using hready
  · simpa [step, hj] using (h.listeners j).mono hsame.localNetworks hrec

theorem Invariant.clean {c : Concurrent ι κ} (h : Invariant c) {now : Instant}
    (hkeeps : KeepsWaiting c (.clean now)) : Invariant (c.step (.clean now)) := by
  obtain ⟨hno, hkept⟩ := clean_keeps h.shared c.cleaner now
  have hsame := clean_same h.shared.distinct c.cleaner now
  refine ⟨hno, ?_⟩
  intro i
  have hi := h.listeners i
  change Ready (CustomOspf.clean now c.cleaner c.shared).2 (c.listeners i)
  cases hphase : c.listeners i with
  | applying newRoutes =>
    rw [hphase] at hi
    intro r hr hv
    have hv' : c.shared.router.routingTable.isValidRoute r = true := by
      rw [← hv]
      exact RoutingTable.isValidRoute_congr hsame.localNetworks.symm r
    cases hc : c.cleaner with
    | removing dead destinations =>
      obtain ⟨k, state, hl, hdest, hk⟩ := hkeeps now dead destinations rfl hc i newRoutes hphase r hr hv'
      rw [← hdest, ← hc]
      apply hkept k state hl
      intro dead' destinations' he
      rw [hc] at he
      obtain ⟨rfl, rfl⟩ := CleanPhase.removing.inj he
      exact hk
    | _ =>
      obtain ⟨k, state, hl, hdest⟩ := hi r hr hv'
      rw [← hdest, ← hc]
      apply hkept k state hl
      intro dead destinations he
      rw [hc] at he
      cases he
  | testing =>
    rw [hphase] at hi
    exact hi
  | idle => trivial
  | touching => trivial
  | starting => trivial

theorem Invariant.step {c : Concurrent ι κ} (h : Invariant c) {a : Section ι} (hkeeps : KeepsWaiting c a) :
    Invariant (c.step a) := by
  cases a with
  | hello i message addr now =>
    simp only [Concurrent.step]
    split
    · obtain ⟨neighbors, hn⟩ := handleHelloMessageStatic_eq message addr now c.shared
      rw [hn]
      exact ⟨⟨h.shared.distinct, h.shared.keys, h.shared.recorded⟩,
        fun i => (h.listeners i).mono rfl (fun d hd => hd)⟩
    · exact h
  | receive i update addr =>
    simp only [Concurrent.step]
    split
    · split
      · exact h
      · refine ⟨h.shared, ?_⟩
        intro j
        by_cases hj : j = i
        · subst hj
          simp [Ready]
        · simpa [hj] using h.listeners j
    · exact h
  | listen i now => exact h.listen i now
  | clean now => exact h.clean hkeeps

theorem recorded_under_interleaving {c : Concurrent ι κ} (h : Reachable KeepsWaiting c) :
    ∀ r ∈ c.shared.router.routingTable.routes, r.source = .protocol → Recorded c.shared r.destination := by
  have hinv : Invariant c := by
    induction h with
    | start h =>
      have hw := Observed.WellFormed.new h
      refine ⟨⟨hw.distinct, fun k state hl => (hw.records k state hl).1, ?_⟩, fun i => trivial⟩
      intro r hr hs
      rcases hw.routes r hr with ⟨name, info, -, rfl⟩ | ⟨-, -, -, hi⟩
      · cases hs
      · cases hi
    | step a ha _ ih => exact ih.step ha
  exact hinv.shared.recorded

end Steps

/-! One loop on the LAN: the route of "B" has timed out when "C" advertises the network. -/

def lanRun (actions : List (Section Unit)) : Concurrent Unit (Finset SystemRoute) :=
  actions.foldl step (start Observed.lan.protocol)

def receiveAll (routerId : String) (host : Fin 256) (secs : ℕ) : List (Section Unit) :=
  [.receive () ⟨routerId, 1, [⟨"10.2.0.0/24", 0, "0.0.0.0"⟩]⟩ (Observed.lanPeer host),
    .listen () (Duration.fromSecs secs), .listen () (Duration.fromSecs secs), .listen () (Duration.fromSecs secs),
    .listen () (Duration.fromSecs secs)]

/-- The set to remove is computed before "C" writes its record, and removed before "C" applies its route. -/
def overtaken : List (Section Unit) :=
  receiveAll "B" 2 0 ++ [.listen () 0, .clean (Duration.fromSecs 17), .clean (Duration.fromSecs 17),
    .clean (Duration.fromSecs 17)] ++
  receiveAll "C" 3 17 ++ [.clean (Duration.fromSecs 17), .listen () (Duration.fromSecs 17)]

theorem reachable_lanRun {C : Concurrent Unit (Finset SystemRoute) → Section Unit → Prop} {actions : List (Section Unit)}
    (hC : ∀ c, ∀ a ∈ actions, C c a) : Reachable C (lanRun actions) := by
  have hstart : Reachable C (start Observed.lan.protocol) := .start Observed.lan_new
  have hrun (c : Concurrent Unit (Finset SystemRoute)) (hc : Reachable C c) : Reachable C (actions.foldl step c) := by
    induction actions generalizing c with
    | nil => exact hc
    | cons a actions ih =>
      apply ih (fun c a' ha' => hC c a' (List.mem_cons_of_mem a ha'))
      exact hc.step a (hC c a List.mem_cons_self)
  exact hrun _ hstart

def keepsWaiting (c : Concurrent Unit (Finset SystemRoute)) : Bool :=
  match c.cleaner, c.listeners () with
  | .removing _ destinations, .applying newRoutes => newRoutes.all (fun r =>
      c.shared.routeStates.entries.any (fun e => e.2.route.destination = r.destination && !destinations.contains e.1))
  | _, _ => true

theorem keepsWaiting_sound {c : Concurrent Unit (Finset SystemRoute)} (h : keepsWaiting c = true) (a : Section Unit) :
    KeepsWaiting c a := by
  intro now dead destinations _ hc i newRoutes hi r hr _
  simp only [keepsWaiting, hc, hi, List.all_eq_true] at h
  obtain ⟨⟨k, state⟩, he, hk⟩ := List.any_eq_true.mp (h r hr)
  simp only [Bool.and_eq_true, decide_eq_true_eq, Bool.not_eq_true', List.contains_eq_mem,
    decide_eq_false_iff_not] at hk
  exact ⟨k, state, Dictionary.mem_entries.mp he, hk⟩

theorem reachable_keepsWaiting {actions : List (Section Unit)}
    (h : ∀ n < actions.length, keepsWaiting (lanRun (actions.take n)) = true) :
    Reachable KeepsWaiting (lanRun actions) := by
  induction actions using List.reverseRecOn with
  | nil => exact .start Observed.lan_new
  | append_singleton actions a ih =>
    have hlast : keepsWaiting (lanRun actions) = true := by
      have hn := h actions.length (by simp)
      rwa [List.take_left] at hn
    have hbefore : ∀ n < actions.length, keepsWaiting (lanRun (actions.take n)) = true := by
      intro n hn
      have hlong := h n (by rw [List.length_append]; omega)
      rwa [List.take_append_of_le_length hn.le] at hlong
    have hstep : lanRun (actions ++ [a]) = (lanRun actions).step a := List.foldl_concat _ _ _ _
    rw [hstep]
    exact (ih hbefore).step a (keepsWaiting_sound hlast a)

/-- The timed-out route of "B" is removed while one of "C" to another network waits to be applied. -/
def beside : List (Section Unit) :=
  receiveAll "B" 2 0 ++ .listen () 0 :: List.replicate 3 (.clean (Duration.fromSecs 17)) ++
  .receive () ⟨"C", 1, [⟨"10.3.0.0/24", 0, "0.0.0.0"⟩]⟩ (Observed.lanPeer 3) ::
    List.replicate 4 (.listen () (Duration.fromSecs 17)) ++
  [.clean (Duration.fromSecs 17), .listen () (Duration.fromSecs 17)]

theorem recorded_under_interleaving_witness :
    (∃ r ∈ (lanRun beside).shared.router.routingTable.routes, r.source = .protocol) ∧
      ∀ r ∈ (lanRun beside).shared.router.routingTable.routes, r.source = .protocol →
        Recorded (lanRun beside).shared r.destination := by
  refine ⟨by decide +kernel, recorded_under_interleaving (reachable_keepsWaiting ?_)⟩
  decide +kernel

-- the removal meets the waiting route
example : (lanRun (beside.take 14)).cleaner = .removing [] ["10.2.0.0/24"] ∧ ∃ r,
    (lanRun (beside.take 14)).listeners () = .applying [r] := ⟨rfl, _, rfl⟩

theorem recorded_under_interleaving_fails :
    ¬ ∀ c : Concurrent Unit (Finset SystemRoute), Reachable (fun _ _ => True) c → Quiet c →
      ∀ r ∈ c.shared.router.routingTable.routes, r.source = .protocol → Recorded c.shared r.destination := by
  intro h
  have hquiet : Quiet (lanRun overtaken) := ⟨rfl, fun _ => rfl⟩
  have hroute : ⟨⟨.new 10 2 0 0, 24⟩, .new 10 0 0 3, "eth0", 1, .protocol⟩ ∈
      (lanRun overtaken).shared.router.routingTable.routes := by decide +kernel
  have hrecords : (lanRun overtaken).shared.routeStates.entries = [] := by decide +kernel
  obtain ⟨k, state, hl, -⟩ := h _ (reachable_lanRun (fun _ _ _ => trivial)) hquiet _ hroute rfl
  rw [← Dictionary.mem_entries, hrecords] at hl
  simp at hl

end Concurrent

end CustomOspf
