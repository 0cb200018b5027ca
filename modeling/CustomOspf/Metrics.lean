import CustomOspf.NextHops
import CustomOspf.Selection

/-!
The metric of a learned route: what becomes of it when its own next hop is
advertised anew, and the increment in the 32 bits of a release build.
-/

namespace CustomOspf.Observed

open SimpleRoutingProtocol RouteManager

section Metrics

variable {κ : Type} [IpNetwork] [NetRoute κ] {o : Observed κ}

/-- An update of the neighbour from that address installed the entry, which has stayed since. -/
inductive InstalledFrom (d : Ipv4Network) (r : RouteEntry) (neighbor : String) (sender : Ipv4Addr) :
    Observed κ → Prop where
  | install {o : Observed κ} {message : RoutingUpdate} {port : UInt16} {now : Instant} (ho : Reachable o)
      (hid : message.routerId = neighbor) (hnew : o.table.findRoute d ≠ some r)
      (hr : (o.step (.update message ⟨.v4 sender, port⟩ now)).table.findRoute d = some r) :
      InstalledFrom d r neighbor sender (o.step (.update message ⟨.v4 sender, port⟩ now))
  | stay {o : Observed κ} (e : Event) (h : InstalledFrom d r neighbor sender o)
      (hr : (o.step e).table.findRoute d = some r) : InstalledFrom d r neighbor sender (o.step e)

section Installed

variable {d : Ipv4Network} {r : RouteEntry} {neighbor : String} {sender : Ipv4Addr}

theorem InstalledFrom.reachable (h : InstalledFrom d r neighbor sender o) : Reachable o := by
  induction h with
  | install ho => exact ho.step _
  | stay e _ _ ih => exact ih.step e

theorem InstalledFrom.entry (h : InstalledFrom d r neighbor sender o) : o.table.findRoute d = some r := by
  cases h with
  | install _ _ _ hr => exact hr
  | stay _ _ hr => exact hr

theorem InstalledFrom.onLink (h : InstalledFrom d r neighbor sender o) :
    r.source = .protocol ∧ OnLink o.protocol.router sender := by
  have hkept {o : Observed κ} (ho : Reachable o) (e : Event) (hon : OnLink o.protocol.router sender) :
      OnLink (o.step e).protocol.router sender := by
    unfold OnLink
    rw [step_protocol, (step_same ho.wellFormed.distinct e).interfaces]
    exact hon
  induction h with
  | @install o message port now ho _ hnew hr =>
    rw [step_table] at hr
    obtain hold | ⟨⟨key, hk⟩, -⟩ := findRoute_update_origin ho.wellFormed.distinct hr
    · exact absurd hold hnew
    · obtain ⟨-, sender', haddr, info, -, -, hp, -⟩ := mem_accepted.mp hk
      obtain rfl := IpAddr.v4.inj haddr
      obtain ⟨-, -, name, iface, -, -, -, hbest, -, -⟩ := processSingleRoute_iff.mp hp
      exact ⟨(accepted_shape hk).1, hkept ho _ ⟨name, iface, findBestInterfaceForSender_some hbest⟩⟩
  | stay e h _ ih => exact ⟨ih.1, hkept h.reachable e ih.2⟩

theorem InstalledFrom.built (h : InstalledFrom d r neighbor sender o) (update : RoutingUpdate) {info : RouteInfo}
    (hd : destinationOf info.destination = some d)
    (hhop : resolvedNextHop o.protocol.router sender info = some r.nextHop) (now : Instant) :
    ∃ new, new.destination = d ∧ new.nextHop = r.nextHop ∧ Built o.protocol.router update sender now info new ∧
      o.table.isValidRoute new = true := by
  have hw := h.reachable.wellFormed
  obtain ⟨hsource, hon⟩ := h.onLink
  have hdest := RoutingTable.findRoute_destination h.entry
  have hmem := RoutingTable.findRoute_mem h.entry
  have hvalid := (RoutingTable.isValidRoute_protocol hsource).mp (hw.valid r hmem)
  have hforeign : isOurNetwork d o.interfaces = false := by
    rcases hw.routes r hmem with ⟨name, iface, -, rfl⟩ | ⟨-, -, hour, -⟩
    · cases hsource
    · rw [← hdest]
      exact hour
  have hadmissible : Admissible o.protocol.router d info := by
    refine ⟨hd, ?_, hforeign, ?_⟩
    · obtain ⟨nh, hn, -⟩ := Option.map_eq_some_iff.mp hhop
      rw [hn]
      rfl
    · rw [← hdest]
      exact hvalid.2.2.1
  obtain ⟨new, hnew, hb⟩ : ∃ new, new.destination = d ∧ Built o.protocol.router update sender now info new :=
    admissible_built hw hon hadmissible
  obtain ⟨-, -, -, hnewSource, -, hnext, -⟩ := built_shape hb
  have hnextHop : new.nextHop = r.nextHop := Option.some.inj (hnext.symm.trans hhop)
  refine ⟨new, hnew, hnextHop, hb, ?_⟩
  rw [RoutingTable.isValidRoute_protocol hnewSource, hnew, hnextHop, ← hdest]
  exact hvalid

section ListedOnce

variable {update : RoutingUpdate} {info : RouteInfo} {now : Instant} {new : RouteEntry}
  (honce : update.routes.filter (fun i => destinationOf i.destination = some d) = [info])
  (hb : Built o.protocol.router update sender now info new)

include honce hb

omit [NetRoute κ] in
theorem batch_once {r' : RouteEntry} (hr' : r' ∈ batch o update sender now d) : r' = new := by
  obtain ⟨rfl, info', hinfo', hb', -⟩ := mem_batch.mp hr'
  have hd' := (built_shape hb').1
  have hlisted : info' ∈ update.routes.filter (fun i => destinationOf i.destination = some r'.destination) :=
    List.mem_filter.mpr ⟨hinfo', by simpa using hd'⟩
  rw [honce, List.mem_singleton] at hlisted
  subst hlisted
  exact (Prod.mk.inj (Option.some.inj (hb'.symm.trans hb))).1

theorem findRoute_process_once (ho : WellFormed o) (hd : new.destination = d)
    (hv : o.table.isValidRoute new = true) :
    (o.protocol.router.updateRoutingTable
      ((acceptedRoutes update sender now o.protocol.router).map Prod.snd)).routingTable.findRoute d =
        if shouldAcceptRoute new o.protocol.router = true then some new else o.table.findRoute d := by
  have hlisted : info ∈ update.routes.filter (fun i => destinationOf i.destination = some d) := by simp [honce]
  have hinfo := (List.mem_filter.mp hlisted).1
  rw [findRoute_process ho]
  split_ifs with hacc
  · have hmem : new ∈ batch o update sender now d := mem_batch.mpr ⟨hd, info, hinfo, hb, hacc⟩
    have hvalid : ∀ r' ∈ batch o update sender now d, o.table.isValidRoute r' = true := by
      intro r' hr'
      rw [batch_once honce hb hr']
      exact hv
    obtain ⟨r', hfind, hr'⟩ := offers_batch hvalid (List.ne_nil_of_mem hmem)
    rw [batch_once honce hb hr'] at hfind
    exact hfind
  · have hnone : batch o update sender now d = [] := by
      rw [List.eq_nil_iff_forall_not_mem]
      intro r' hr'
      obtain ⟨-, -, -, -, hacc'⟩ := mem_batch.mp hr'
      rw [batch_once honce hb hr'] at hacc'
      exact hacc hacc'
    rw [hnone]
    rfl

end ListedOnce

theorem processRoutingUpdate_follows (h : InstalledFrom d r neighbor sender o) {update : RoutingUpdate}
    {info : RouteInfo}
    (honce : update.routes.filter (fun i => destinationOf i.destination = some d) = [info])
    (hhop : resolvedNextHop o.protocol.router sender info = some r.nextHop)
    (hm : info.metric.toNat < 0xffffffff) (port : UInt16) (now : Instant) :
    ∃ router states, processRoutingUpdate update ⟨.v4 sender, port⟩ now o.protocol.router o.protocol.routeStates =
        .ok (router, states) ∧
      ((∃ r', router.routingTable.findRoute d = some r' ∧ r'.metric.toNat = info.metric.toNat + 1) ↔
        info.metric.toNat + 1 ≤ r.metric.toNat) := by
  have hlisted : info ∈ update.routes.filter (fun i => destinationOf i.destination = some d) := by simp [honce]
  have hd := (List.mem_filter.mp hlisted).2
  simp only [decide_eq_true_eq] at hd
  obtain ⟨new, hnew, hnextHop, hb, hvalid⟩ := h.built update hd hhop now
  obtain ⟨-, -, -, -, hmetric, -⟩ := built_shape hb
  have hsucc : new.metric.toNat = info.metric.toNat + 1 := by rw [hmetric, metric_succ hm]
  -- the entry's own next hop has to offer less than the entry
  have haccept : shouldAcceptRoute new o.protocol.router = true ↔ info.metric.toNat + 1 < r.metric.toNat := by
    have hentry : o.protocol.router.routingTable.findRoute d = some r := h.entry
    rw [shouldAcceptRoute_iff, hnew, hentry]
    simp [Router.Supersedes, hnextHop, UInt32.lt_iff_toNat_lt, hsucc]
  refine ⟨_, _, processRoutingUpdate_v4 update sender port now o.protocol.router o.protocol.routeStates, ?_⟩
  rw [findRoute_process_once honce hb h.reachable.wellFormed hnew hvalid]
  split_ifs with hacc
  · have hlower := haccept.mp hacc
    exact iff_of_true ⟨new, rfl, hsucc⟩ hlower.le
  · rw [haccept] at hacc
    rw [h.entry]
    simp only [Option.some.injEq, exists_eq_left']
    omega

end Installed

/-! The increment wraps on the largest metric only, and a wrapped metric beats any other. -/

def Learned (info : RouteInfo) (r : RouteEntry) : Prop :=
  ∃ advertiser sender interfaces now state, processSingleRoute info advertiser sender interfaces now = some (r, state)

def Proposed (o : Observed κ) (message : RoutingUpdate) (addr : SocketAddr) (now : Instant) (info : RouteInfo)
    (r : RouteEntry) : Prop :=
  message.routerId ≠ o.protocol.router.id ∧ info ∈ message.routes ∧ (∃ sender, addr.ip = .v4 sender ∧
    processSingleRoute info message.routerId sender o.interfaces now = some (r, ⟨r, now, message.routerId⟩)) ∧
  shouldAcceptRoute r o.protocol.router = true

def NoWrap (o : Observed κ) (e : Event) : Prop :=
  ∀ message addr now, e = .update message addr now → ∀ info r, Admitted o message addr now info r →
    info.metric ≠ 0xffffffff

structure MetricsGrow (o : Observed κ) (e : Event) : Prop where
  installed : ∀ message addr now, e = .update message addr now → ∀ info r, Admitted o message addr now info r →
    info.metric < r.metric
  positive : ∀ r ∈ o.table.routes, r.source = .protocol → r.metric ≠ 0
  -- one turn of `update_routing_table`, at whatever point of the batch
  ordered : ∀ message addr now, e = .update message addr now → ∀ info₁ r₁ info₂ r₂, Learned info₁ r₁ →
    Proposed o message addr now info₂ r₂ → info₁.metric < info₂.metric →
    ∀ t : RoutingTable κ, t.localNetworks = o.table.localNetworks → t.findRoute r₂.destination = some r₁ →
      Router.updateRoute t r₂ = t

theorem Learned.metric {info : RouteInfo} {r : RouteEntry} (h : Learned info r) : r.metric = info.metric + 1 := by
  obtain ⟨advertiser, sender, interfaces, now, state, hp⟩ := h
  obtain ⟨-, -, -, -, -, -, -, -, rfl, -⟩ := processSingleRoute_iff.mp hp
  rfl

omit [IpNetwork] in
theorem lt_succ_iff {m : UInt32} : m < m + 1 ↔ m ≠ 0xffffffff := by
  have hlt := m.toNat_lt
  have hmax : (0xffffffff : UInt32).toNat = 2 ^ 32 - 1 := rfl
  rw [UInt32.lt_iff_toNat_lt, ne_eq, ← UInt32.toNat_inj, UInt32.toNat_add, UInt32.toNat_one, hmax]
  omega

omit [NetRoute κ] in
theorem Proposed.learned {message : RoutingUpdate} {addr : SocketAddr} {now : Instant} {info : RouteInfo}
    {r : RouteEntry} (h : Proposed o message addr now info r) : Learned info r := by
  obtain ⟨-, -, ⟨sender, -, hp⟩, -⟩ := h
  exact ⟨_, _, _, _, _, hp⟩

omit [NetRoute κ] in
theorem admitted_iff {message : RoutingUpdate} {addr : SocketAddr} {now : Instant} {info : RouteInfo}
    {r : RouteEntry} : Admitted o message addr now info r ↔
      Proposed o message addr now info r ∧ o.table.isValidRoute r = true := by
  simp only [Admitted, Proposed, and_assoc]

theorem ReachableUnder.positive (h : ReachableUnder NoWrap o) :
    ∀ r ∈ o.table.routes, r.source = .protocol → r.metric ≠ 0 := by
  apply h.protocolRoutes (P := fun _ r => r.metric ≠ 0)
  · intro o e r _ _ _ hr
    exact hr
  · intro o message addr now info r _ he hadm
    have hgrows := lt_succ_iff.mpr (he message addr now rfl info r hadm)
    rw [← (admitted_iff.mp hadm).1.learned.metric, UInt32.lt_iff_toNat_lt] at hgrows
    rintro hzero
    rw [hzero] at hgrows
    exact absurd hgrows (Nat.not_lt_zero _)

theorem updateRoute_ordered {info₁ info₂ : RouteInfo} {r₁ r₂ : RouteEntry} (h₁ : Learned info₁ r₁)
    (h₂ : Learned info₂ r₂) (hlt : info₁.metric < info₂.metric) {t : RoutingTable κ}
    (hr : t.findRoute r₂.destination = some r₁) (hwrap : info₂.metric = 0xffffffff → t.isValidRoute r₂ = false) :
    Router.updateRoute t r₂ = t := by
  have hbound := info₂.metric.toNat_lt
  rw [UInt32.lt_iff_toNat_lt] at hlt
  have hnear : r₁.metric.toNat = info₁.metric.toNat + 1 := by rw [h₁.metric, metric_succ (by omega)]
  by_cases hmax : info₂.metric = 0xffffffff
  · -- the wrapped metric is zero, so that only validation keeps the route out
    have hzero : r₂.metric = 0 := by rw [h₂.metric, hmax]; rfl
    have hne : r₁.metric ≠ 0 := by
      rw [ne_eq, ← UInt32.toNat_inj, hnear]
      exact Nat.succ_ne_zero _
    have hkept := RoutingTable.addRoute_of_invalid (hwrap hmax)
    simp [Router.updateRoute, RoutingTable.hasBetterRoute, hr, hzero, hne, hkept]
  · have hgrows := lt_succ_iff.mpr hmax
    rw [← h₂.metric, UInt32.lt_iff_toNat_lt] at hgrows
    have hbetter : r₁.metric < r₂.metric := by
      rw [UInt32.lt_iff_toNat_lt]
      omega
    simp [Router.updateRoute, RoutingTable.hasBetterRoute, hr, hbetter]

theorem metricsGrow_iff (h : ReachableUnder NoWrap o) (e : Event) : MetricsGrow o e ↔ NoWrap o e := by
  constructor
  · intro hgrow message addr now he info r hadm
    have hlt := hgrow.installed message addr now he info r hadm
    rw [(admitted_iff.mp hadm).1.learned.metric] at hlt
    exact lt_succ_iff.mp hlt
  · intro hno
    refine ⟨?_, h.positive, ?_⟩
    · intro message addr now he info r hadm
      rw [(admitted_iff.mp hadm).1.learned.metric]
      exact lt_succ_iff.mpr (hno message addr now he info r hadm)
    · intro message addr now he info₁ r₁ info₂ r₂ h₁ h₂ hlt t hlocal hr
      apply updateRoute_ordered h₁ h₂.learned hlt hr
      intro hmax
      rw [RoutingTable.isValidRoute_congr hlocal, Bool.eq_false_iff]
      intro hv
      exact hno message addr now he info₂ r₂ (admitted_iff.mpr ⟨h₂, hv⟩) hmax

end Metrics

/-! Neighbour "B" advertises 10.2.0.0/24 again with another metric, and at last with the largest there is. -/

theorem advert_installed :
    InstalledFrom advertised.destination advertised "B" (.new 10 0 0 2) (lan.step (advert 0)) := by
  have hnew : lan.table.findRoute advertised.destination ≠ some advertised := by decide +kernel
  have hr : (lan.step (advert 0)).table.findRoute advertised.destination = some advertised := by decide +kernel
  exact InstalledFrom.install (lan_reachable []) rfl hnew hr

def readvertise (metric : UInt32) : RoutingUpdate := ⟨"B", 2, [⟨"10.2.0.0/24", metric, "0.0.0.0"⟩]⟩

theorem processRoutingUpdate_follows_witness :
    ∃ router states, processRoutingUpdate (readvertise 0) ⟨.v4 (.new 10 0 0 2), 5555⟩ 1
        (lan.step (advert 0)).protocol.router (lan.step (advert 0)).protocol.routeStates = .ok (router, states) ∧
      ((∃ r', router.routingTable.findRoute advertised.destination = some r' ∧ r'.metric.toNat = 0 + 1) ↔
        0 + 1 ≤ advertised.metric.toNat) := by
  have honce : (readvertise 0).routes.filter (fun i => destinationOf i.destination = some advertised.destination) =
      [⟨"10.2.0.0/24", 0, "0.0.0.0"⟩] := by decide +kernel
  exact processRoutingUpdate_follows advert_installed honce (by decide +kernel) (by decide) 5555 1

/-- The path has become worse, and the table keeps the metric it no longer has. -/
theorem processRoutingUpdate_follows_fails :
    ¬ ∀ (o : Observed (Finset SystemRoute)) d r neighbor sender, InstalledFrom d r neighbor sender o →
      ∀ (update : RoutingUpdate) info, update.routerId = neighbor →
        update.routes.filter (fun i => destinationOf i.destination = some d) = [info] →
        resolvedNextHop o.protocol.router sender info = some r.nextHop → info.metric.toNat < 0xffffffff →
        ∀ port now, ∃ router states,
          processRoutingUpdate update ⟨.v4 sender, port⟩ now o.protocol.router o.protocol.routeStates =
            .ok (router, states) ∧
          ∃ r', router.routingTable.findRoute d = some r' ∧ r'.metric.toNat = info.metric.toNat + 1 := by
  intro h
  have honce : (readvertise 5).routes.filter (fun i => destinationOf i.destination = some advertised.destination) =
      [⟨"10.2.0.0/24", 5, "0.0.0.0"⟩] := by decide +kernel
  obtain ⟨router, states, hok, r', hr', hmetric⟩ := h _ _ _ _ _ advert_installed (readvertise 5) _ rfl honce
    (by decide +kernel) (by decide) 5555 1
  rw [processRoutingUpdate_v4] at hok
  obtain ⟨rfl, -⟩ := Prod.mk.inj (Except.ok.inj hok)
  have hkept : ((lan.step (advert 0)).protocol.router.updateRoutingTable
      ((acceptedRoutes (readvertise 5) (.new 10 0 0 2) 1 (lan.step (advert 0)).protocol.router).map
        Prod.snd)).routingTable.findRoute advertised.destination = some advertised := by decide +kernel
  obtain rfl := Option.some.inj (hkept.symm.trans hr')
  revert hmetric
  decide

theorem metricsGrow_iff_witness :
    MetricsGrow lan (.update (readvertise 0xffffffff) (lanPeer 2) 0) ↔
      NoWrap lan (.update (readvertise 0xffffffff) (lanPeer 2) 0) :=
  metricsGrow_iff (.start lan_new) _

theorem metricsGrow_fails :
    ¬ ∀ (o : Observed (Finset SystemRoute)) (e : Event), Reachable o → MetricsGrow o e := by
  intro h
  have hpositive := (h _ (.cleanup 1) (lan_reachable [.update (readvertise 0xffffffff) (lanPeer 2) 0])).positive
  have hwrapped : (⟨advertised.destination, .new 10 0 0 2, "eth0", 0, .protocol⟩ : RouteEntry) ∈
      (lan.run [.update (readvertise 0xffffffff) (lanPeer 2) 0]).table.routes := by decide +kernel
  exact hpositive _ hwrapped rfl rfl

end CustomOspf.Observed
