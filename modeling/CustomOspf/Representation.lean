import CustomOspf.Expiry
import CustomOspf.Interleaving

/-!
What the routing table looks like in every reachable state, and the direct
routes that no interleaving of the sections takes out of it.
-/

namespace CustomOspf

section Table

variable {κ : Type} [IpNetwork]

structure Representation (t : RoutingTable κ) : Prop where
  distinct : (t.routes.map RouteEntry.destination).Nodup
  hostBits : ∀ r ∈ t.routes, r.source = .protocol → r.destination.addr = r.destination.network
  single : ∀ r ∈ t.routes, ∀ s ∈ t.routes, r.source = .protocol → s.source = .protocol →
    r.destination.network = s.destination.network → r.destination.prefixLen = s.destination.prefixLen → r = s
  foreign : ∀ r ∈ t.routes, r.source = .protocol → ∀ net ∈ t.localNetworks,
    ¬ (r.destination.network = net.network ∧ r.destination.prefixLen = net.prefixLen)
  nextHop : ∀ r ∈ t.routes, r.source = .protocol → r.nextHop.isLoopback = false ∧
    r.nextHop.isUnspecified = false ∧ ∃ net ∈ t.localNetworks, net.contains r.nextHop = true

theorem addr_of_subnet {d : Ipv4Network} (h : d.subnet = d) : d.addr = d.network := by
  rw [← congrArg Ipv4Network.addr h, Ipv4Network.subnet]

end Table

namespace Observed

variable {κ : Type} [IpNetwork]

theorem WellFormed.subnet {o : Observed κ} (ho : WellFormed o) {r : RouteEntry} (hr : r ∈ o.table.routes)
    (hs : r.source = .protocol) : r.destination.subnet = r.destination := by
  rcases ho.routes r hr with ⟨name, info, -, rfl⟩ | ⟨-, hsub, -⟩
  · cases hs
  · exact hsub

variable [NetRoute κ]

theorem representation {o : Observed κ} (ho : Reachable o) : Representation o.table := by
  have hw := ho.wellFormed
  refine ⟨hw.distinct, ?_, ?_, ?_, ?_⟩
  · intro r hr hs
    exact addr_of_subnet (hw.subnet hr hs)
  · intro r hr s hs hrs hss hnet hlen
    have hdest : r.destination = s.destination := by
      rw [← hw.subnet hr hrs, ← hw.subnet hs hss]
      exact (Ipv4Network.subnet_eq_iff _ _).mpr ⟨hnet, hlen⟩
    have hfind := (mem_routes_iff hw.distinct).mp hs
    rw [← hdest, (mem_routes_iff hw.distinct).mp hr] at hfind
    exact Option.some.inj hfind
  · intro r hr hs net hnet he
    have hv := (RoutingTable.isValidRoute_protocol hs).mp (hw.valid r hr)
    exact hv.2.2.1 net hnet ((Ipv4Network.subnet_eq_iff _ _).mpr he)
  · intro r hr hs
    obtain ⟨hloop, hspec, -, hin⟩ := (RoutingTable.isValidRoute_protocol hs).mp (hw.valid r hr)
    exact ⟨hloop, hspec, hin⟩

end Observed

theorem Observed.representation_witness : Representation (Observed.lan.run Observed.twoSpellings).table :=
  Observed.representation (Observed.lan_reachable _)

/-! The direct routes. The filter of `process_single_route` covers what is recorded and what waits to be applied. -/

section Direct

variable {κ : Type} [NetRoute κ]

def Foreign (p : SimpleRoutingProtocol κ) (d : Ipv4Network) : Prop :=
  RouteManager.isOurNetwork d p.router.interfaces = false

omit [NetRoute κ] in
theorem Foreign.ne {p : SimpleRoutingProtocol κ} {d : Ipv4Network} (h : Foreign p d) {name : String}
    {info : InterfaceInfo} (hl : p.router.interfaces.lookup name = some info) : d ≠ info.network := by
  rintro rfl
  rw [Foreign, Bool.eq_false_iff] at h
  exact h (RouteManager.isOurNetwork_iff.mpr ⟨name, info, hl, rfl⟩)

variable [IpNetwork]

structure Permanent (p : SimpleRoutingProtocol κ) : Prop where
  distinct : p.router.routingTable.Distinct
  direct : ∀ name info, p.router.interfaces.lookup name = some info →
    ∃ r ∈ p.router.routingTable.routes, r.destination = info.network ∧ r.source = .direct ∧ r.metric = 0 ∧
      r.nextHop = .unspecified
  records : ∀ k state, p.routeStates.lookup k = some state → Foreign p state.route.destination

def Carries (p : SimpleRoutingProtocol κ) : ListenPhase → Prop
  | .testing _ _ interfaces _ _ collected => interfaces = p.router.interfaces ∧
      (∀ r ∈ collected.1, Foreign p r.destination) ∧
      ∀ k state, (k, state) ∈ collected.2 → Foreign p state.route.destination
  | .applying newRoutes => ∀ r ∈ newRoutes, Foreign p r.destination
  | _ => True

omit [IpNetwork] [NetRoute κ] in
theorem Carries.congr {p q : SimpleRoutingProtocol κ} {phase : ListenPhase} (h : Carries p phase)
    (hsame : SimpleRoutingProtocol.SameRouter p q) : Carries q phase := by
  have hforeign {d : Ipv4Network} (hd : Foreign p d) : Foreign q d := by
    rw [Foreign, hsame.interfaces]
    exact hd
  cases phase with
  | testing advertiser sender interfaces now routes collected =>
    obtain ⟨hi, hr, hs⟩ := h
    exact ⟨hi.trans hsame.interfaces.symm, fun r hm => hforeign (hr r hm), fun k state hm => hforeign (hs k state hm)⟩
  | applying newRoutes => exact fun r hr => hforeign (h r hr)
  | idle => trivial
  | touching => trivial
  | starting => trivial

omit [NetRoute κ] in
theorem Carries.collect {p : SimpleRoutingProtocol κ} {interfaces : Interfaces} {advertiser : String}
    {sender : Ipv4Addr} {now : Instant} {info : RouteInfo} {routes : List RouteInfo}
    {collected : List RouteEntry × List (String × RouteState)}
    (h : Carries p (.testing advertiser sender interfaces now (info :: routes) collected)) :
    Carries p (.testing advertiser sender interfaces now routes
      (RouteManager.collectRoute advertiser sender interfaces now p.router collected info)) := by
  obtain ⟨hi, hr, hs⟩ := h
  refine ⟨hi, ?_⟩
  unfold RouteManager.collectRoute
  split
  · next route state hp =>
    obtain ⟨d, nh, name, iface, -, -, ho, -, hroute, rfl⟩ := RouteManager.processSingleRoute_iff.mp hp
    have hnew : Foreign p route.destination := by
      rw [hroute, Foreign, ← hi]
      exact ho
    split
    · refine ⟨?_, ?_⟩
      · intro r hm
        rcases List.mem_append.mp hm with hm | hm
        · exact hr r hm
        · obtain rfl := List.mem_singleton.mp hm
          exact hnew
      · intro k state hm
        rcases List.mem_append.mp hm with hm | hm
        · exact hs k state hm
        · obtain ⟨-, rfl⟩ := Prod.mk.inj (List.mem_singleton.mp hm)
          exact hnew
    · exact ⟨hr, hs⟩
  · exact ⟨hr, hs⟩

omit [IpNetwork] [NetRoute κ] in
theorem Permanent.write {p : SimpleRoutingProtocol κ} (h : Permanent p) {updated : List (String × RouteState)}
    (hupdated : ∀ k state, (k, state) ∈ updated → Foreign p state.route.destination) :
    Permanent { p with routeStates := RouteManager.updateRouteStates p.routeStates updated } := by
  refine ⟨h.distinct, h.direct, ?_⟩
  intro k state hl
  rcases Dictionary.lookup_insertAll hl with hm | ⟨-, hl⟩
  · exact hupdated k state hm
  · exact h.records k state hl

theorem Permanent.apply {p : SimpleRoutingProtocol κ} (h : Permanent p) {newRoutes : List RouteEntry}
    (hnew : ∀ r ∈ newRoutes, Foreign p r.destination) :
    Permanent { p with router := RouteManager.applyNewRoutes p.router newRoutes } := by
  refine ⟨Router.updateRoutes_distinct h.distinct newRoutes, ?_, h.records⟩
  intro name info hl
  obtain ⟨r, hr, hdest, hdirect⟩ := h.direct name info hl
  have hnone : newRoutes.filter (fun route => route.destination = info.network) = [] := by
    rw [List.filter_eq_nil_iff]
    intro route hm
    simpa using (hnew route hm).ne hl
  have hkept : (newRoutes.foldl Router.updateRoute p.router.routingTable).findRoute info.network = some r := by
    rw [Router.findRoute_updateRoutes h.distinct, hnone]
    exact (RoutingTable.findRoute_iff h.distinct).mpr ⟨hr, hdest⟩
  exact ⟨r, RoutingTable.findRoute_mem hkept, hdest, hdirect⟩

theorem Permanent.listen {p : SimpleRoutingProtocol κ} (h : Permanent p) {phase : ListenPhase}
    (hc : Carries p phase) (now : Instant) :
    Permanent (listen now phase p).2 ∧ Carries (listen now phase p).2 (listen now phase p).1 := by
  cases phase with
  | idle => exact ⟨h, trivial⟩
  | touching update addr =>
    refine ⟨⟨h.distinct, h.direct, h.records⟩, ?_⟩
    obtain ⟨ip, port⟩ := addr
    cases ip <;> trivial
  | starting update sender => exact ⟨h, ⟨rfl, by simp, by simp⟩⟩
  | testing advertiser sender interfaces started routes collected =>
    cases routes with
    | cons info routes => exact ⟨h, hc.collect⟩
    | nil =>
      obtain ⟨newRoutes, updated⟩ := collected
      obtain ⟨-, hr, hs⟩ := hc
      refine ⟨h.write hs, ?_⟩
      cases hroutes : newRoutes with
      | nil => trivial
      | cons route rest =>
        rw [hroutes] at hr
        exact hr
  | applying newRoutes => exact ⟨h.apply hc, trivial⟩

theorem Permanent.clean {p : SimpleRoutingProtocol κ} (h : Permanent p) (phase : CleanPhase) (now : Instant) :
    Permanent (clean now phase p).2 := by
  cases phase with
  | idle => exact ⟨h.distinct, h.direct, h.records⟩
  | scanningStates started dead => exact h
  | collecting dead stale => exact h
  | removing dead destinations =>
    obtain ⟨-, hif, -, hd, hs, hr⟩ :=
      @RouteManager.removeRoutesViaNexthop_spec _ κ _ destinations p.router p.routeStates h.distinct
    refine ⟨hd, ?_, ?_⟩
    · intro name info hl
      obtain ⟨r, hm, hdest, hdirect⟩ := h.direct name info (by rw [← hif]; exact hl)
      refine ⟨r, (hr r).mpr ⟨hm, ?_⟩, hdest, hdirect⟩
      intro k _ state hk
      rw [hdest]
      exact (h.records k state hk).ne (by rw [← hif]; exact hl)
    · intro k state hl
      have hk : (if k ∈ destinations then none else p.routeStates.lookup k) = some state := (hs k).symm.trans hl
      have hforeign : Foreign p state.route.destination := by
        split at hk
        · cases hk
        · exact h.records k state hk
      rw [Foreign, ← hif] at hforeign
      exact hforeign
  | purging id rest => exact h
  | purgingVia ip rest =>
    refine ⟨RoutingTable.removeRoutesViaNexthop_distinct h.distinct ip, ?_, h.records⟩
    intro name info hl
    obtain ⟨r, hr, hdest, hs, hdirect⟩ := h.direct name info hl
    refine ⟨r, RoutingTable.mem_removeRoutesViaNexthop.mpr ⟨hr, ?_⟩, hdest, hs, hdirect⟩
    rintro ⟨-, hprotocol⟩
    rw [hs] at hprotocol
    cases hprotocol

theorem Permanent.new {routerId : String} {hosts hostsAtTable : List NetworkInterface} {names : List String}
    {port : UInt16} {handle : κ} {p : SimpleRoutingProtocol κ}
    (h : SimpleRoutingProtocol.new routerId hosts hostsAtTable names port handle = .ok p) : Permanent p := by
  have hw := Observed.WellFormed.new h
  refine ⟨hw.distinct, ?_, fun k state hl => (hw.records k state hl).2⟩
  intro name info hl
  obtain ⟨r, hr, hs, hdest⟩ := hw.direct name info hl
  rcases hw.routes r hr with ⟨name', info', -, rfl⟩ | ⟨hprotocol, -⟩
  · exact ⟨_, hr, hdest, rfl, rfl, rfl⟩
  · rw [hs] at hprotocol
    cases hprotocol

end Direct

namespace Concurrent

section Steps

variable {ι κ : Type} [DecidableEq ι] [IpNetwork] [NetRoute κ]

structure KeepsDirect (p : SimpleRoutingProtocol κ) (c : Concurrent ι κ) : Prop where
  shared : Permanent c.shared
  listeners : ∀ i, Carries c.shared (c.listeners i)
  same : SimpleRoutingProtocol.SameRouter p c.shared

theorem KeepsDirect.step {p : SimpleRoutingProtocol κ} {c : Concurrent ι κ} (h : KeepsDirect p c) (a : Section ι) :
    KeepsDirect p (c.step a) := by
  cases a with
  | hello i message addr now =>
    simp only [Concurrent.step]
    split
    · obtain ⟨neighbors, hn⟩ := SimpleRoutingProtocol.handleHelloMessageStatic_eq message addr now c.shared
      rw [hn]
      have hsame : SimpleRoutingProtocol.SameRouter c.shared { c.shared with neighbors := neighbors } :=
        ⟨rfl, rfl, rfl, rfl⟩
      exact ⟨⟨h.shared.distinct, h.shared.direct, h.shared.records⟩, fun j => (h.listeners j).congr hsame,
        h.same.trans hsame⟩
    · exact h
  | receive i update addr =>
    simp only [Concurrent.step]
    split
    · split
      · exact h
      · refine ⟨h.shared, ?_, h.same⟩
        intro j
        by_cases hj : j = i
        · subst hj
          simp [Carries]
        · simpa [hj] using h.listeners j
    · exact h
  | listen i now =>
    obtain ⟨hp, hc⟩ := h.shared.listen (h.listeners i) now
    have hsame := listen_same now (c.listeners i) c.shared
    refine ⟨hp, ?_, h.same.trans hsame⟩
    intro j
    by_cases hj : j = i
    · subst hj
      simpa [Concurrent.step] using hc
    · simpa [Concurrent.step, hj] using (h.listeners j).congr hsame
  | clean now =>
    have hsame := clean_same h.shared.distinct c.cleaner now
    exact ⟨h.shared.clean c.cleaner now, fun j => (h.listeners j).congr hsame, h.same.trans hsame⟩

theorem KeepsDirect.run {p : SimpleRoutingProtocol κ} {c : Concurrent ι κ} (h : KeepsDirect p c)
    (actions : List (Section ι)) : KeepsDirect p (actions.foldl Concurrent.step c) := by
  induction actions generalizing c with
  | nil => exact h
  | cons a actions ih => exact ih (h.step a)

theorem direct_permanent {routerId : String} {hosts hostsAtTable : List NetworkInterface} {names : List String}
    {port : UInt16} {handle : κ} {p : SimpleRoutingProtocol κ}
    (h : SimpleRoutingProtocol.new routerId hosts hostsAtTable names port handle = .ok p)
    (actions : List (Section ι)) {name : String} {info : InterfaceInfo}
    (hl : p.router.interfaces.lookup name = some info) :
    ∃ r ∈ (actions.foldl Concurrent.step (start p)).shared.router.routingTable.routes,
      r.destination = info.network ∧ r.source = .direct ∧ r.metric = 0 ∧ r.nextHop = .unspecified := by
  have hstart : KeepsDirect p (start p : Concurrent ι κ) := ⟨Permanent.new h, fun i => trivial, .refl p⟩
  have hrun := hstart.run actions
  apply hrun.shared.direct name info
  rw [hrun.same.interfaces]
  exact hl

end Steps

theorem direct_permanent_witness :
    ∃ r ∈ (overtaken.foldl step (start Observed.lan.protocol)).shared.router.routingTable.routes,
      r.destination = ⟨.new 10 0 0 1, 24⟩ ∧ r.source = .direct ∧ r.metric = 0 ∧ r.nextHop = .unspecified := by
  have hl : Observed.lan.protocol.router.interfaces.lookup "eth0" =
      some ⟨"eth0", .new 10 0 0 1, ⟨.new 10 0 0 1, 24⟩, 1⟩ := by decide +kernel
  have hrun := direct_permanent Observed.lan_new overtaken hl
  exact hrun

end Concurrent

end CustomOspf
