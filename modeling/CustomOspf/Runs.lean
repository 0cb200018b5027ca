import CustomOspf.Kernel
import CustomOspf.Protocol

/-!
Runs of one router. Beside the state of the router a run carries which update
installed the entry of each destination; the router itself does not record it.
-/

namespace CustomOspf

structure Installation where
  router : String
  time : Instant
deriving DecidableEq

structure Observed (κ : Type) where
  protocol : SimpleRoutingProtocol κ
  installed : Ipv4Network → Option Installation

namespace Observed

open SimpleRoutingProtocol

section Observation

variable {κ : Type} [IpNetwork] [NetRoute κ]

def table (o : Observed κ) : RoutingTable κ := o.protocol.router.routingTable

def interfaces (o : Observed κ) : Interfaces := o.protocol.router.interfaces

def start (p : SimpleRoutingProtocol κ) : Observed κ := ⟨p, fun _ => none⟩

/-- An update installs the entries it changes, and a cleanup forgets those it removes. -/
def step (o : Observed κ) (e : Event) : Observed κ :=
  let after := o.protocol.step e
  let entry := after.router.routingTable.findRoute
  match e with
  | .hello _ _ _ => ⟨after, o.installed⟩
  | .update message _ now => ⟨after, fun d =>
      if entry d = o.table.findRoute d then o.installed d
      else (entry d).map (fun _ => ⟨message.routerId, now⟩)⟩
  | .cleanup _ => ⟨after, fun d => (entry d).bind (fun _ => o.installed d)⟩

def run (o : Observed κ) (es : List Event) : Observed κ := es.foldl step o

inductive Reachable : Observed κ → Prop where
  | start {routerId : String} {hosts hostsAtTable : List NetworkInterface} {names : List String} {port : UInt16}
      {handle : κ} {p : SimpleRoutingProtocol κ}
      (h : SimpleRoutingProtocol.new routerId hosts hostsAtTable names port handle = .ok p) : Reachable (start p)
  | step {o : Observed κ} (e : Event) (h : Reachable o) : Reachable (o.step e)

@[simp] theorem step_protocol (o : Observed κ) (e : Event) : (o.step e).protocol = o.protocol.step e := by
  cases e <;> rfl

theorem step_table (o : Observed κ) (e : Event) : (o.step e).table = (o.protocol.step e).router.routingTable := by
  rw [table, step_protocol]

section Installed

variable {o : Observed κ} {message : RoutingUpdate} {addr : SocketAddr} {now : Instant} {d : Ipv4Network}

theorem installed_unchanged (h : (o.step (.update message addr now)).table.findRoute d = o.table.findRoute d) :
    (o.step (.update message addr now)).installed d = o.installed d := by
  rw [step_table] at h
  exact if_pos h

theorem installed_changed {r : RouteEntry}
    (h : (o.step (.update message addr now)).table.findRoute d = some r) (hne : o.table.findRoute d ≠ some r) :
    (o.step (.update message addr now)).installed d = some ⟨message.routerId, now⟩ := by
  rw [step_table] at h
  have hc : (o.protocol.step (.update message addr now)).router.routingTable.findRoute d ≠ o.table.findRoute d := by
    rw [h]
    exact hne.symm
  exact (if_neg hc).trans (by rw [h]; rfl)

theorem installed_kept {r : RouteEntry} (h : (o.step (.cleanup now)).table.findRoute d = some r) :
    (o.step (.cleanup now)).installed d = o.installed d := by
  rw [step_table] at h
  change Option.bind _ _ = _
  rw [h]
  rfl

end Installed

theorem Reachable.run {o : Observed κ} (h : Reachable o) (es : List Event) : Reachable (o.run es) := by
  induction es generalizing o with
  | nil => exact h
  | cons e es ih => exact ih (h.step e)

section Cleanup

variable {o : Observed κ} (ho : o.table.Distinct) {now : Instant}

include ho

theorem mem_step_cleanup {r : RouteEntry} : r ∈ (o.step (.cleanup now)).table.routes ↔
    r ∈ o.table.routes ∧
      (∀ k state, o.protocol.routeStates.lookup k = some state → Expires now o.protocol state →
        state.route.destination ≠ r.destination) ∧
      ¬ (r.source = .protocol ∧ DeadNextHop now o.protocol r.nextHop) :=
  (performCleanup_spec now ho).2.2.2.2 r

theorem lookup_step_cleanup {k : String} {state : RouteState} :
    (o.step (.cleanup now)).protocol.routeStates.lookup k = some state ↔
      o.protocol.routeStates.lookup k = some state ∧ ¬ Expires now o.protocol state :=
  (performCleanup_spec now ho).2.2.2.1 k state

end Cleanup

structure WellFormed (o : Observed κ) : Prop where
  distinct : o.table.Distinct
  interfaces : ∀ name info, o.interfaces.lookup name = some info →
    info.ip = info.network.addr ∧ info.ip.isLoopback = false ∧ info.metric = 1
  routes : ∀ r ∈ o.table.routes,
    (∃ name info, o.interfaces.lookup name = some info ∧ r = Router.directRoute name info) ∨
    (r.source = .protocol ∧ r.destination.subnet = r.destination ∧
      RouteManager.isOurNetwork r.destination o.interfaces = false ∧ (o.installed r.destination).isSome = true)
  valid : ∀ r ∈ o.table.routes, o.table.isValidRoute r = true
  direct : ∀ name info, o.interfaces.lookup name = some info →
    ∃ r ∈ o.table.routes, r.source = .direct ∧ r.destination = info.network
  records : ∀ k state, o.protocol.routeStates.lookup k = some state →
    RouteManager.destinationOf k = some state.route.destination ∧
      RouteManager.isOurNetwork state.route.destination o.interfaces = false

omit [IpNetwork] [NetRoute κ] in
theorem mem_routes_iff {o : Observed κ} (ho : o.table.Distinct) {r : RouteEntry} :
    r ∈ o.table.routes ↔ o.table.findRoute r.destination = some r := by
  simp [RoutingTable.findRoute_iff ho]

omit [NetRoute κ] in
theorem accepted_shape {p : SimpleRoutingProtocol κ} {update : RoutingUpdate} {addr : SocketAddr}
    {now : Instant} {key : String} {r : RouteEntry} (h : (key, r) ∈ accepted update addr now p) :
    r.source = .protocol ∧ RouteManager.destinationOf key = some r.destination ∧
      RouteManager.isOurNetwork r.destination p.router.interfaces = false := by
  obtain ⟨-, sender, -, info, -, rfl, hp, -⟩ := mem_accepted.mp h
  obtain ⟨d, nh, name, iface, hd, -, ho, -, rfl, -⟩ := RouteManager.processSingleRoute_iff.mp hp
  exact ⟨rfl, hd, ho⟩

theorem WellFormed.new {routerId : String} {hosts hostsAtTable : List NetworkInterface} {names : List String}
    {port : UInt16} {handle : κ} {p : SimpleRoutingProtocol κ}
    (h : SimpleRoutingProtocol.new routerId hosts hostsAtTable names port handle = .ok p) :
    WellFormed (Observed.start p) := by
  unfold SimpleRoutingProtocol.new at h
  split at h
  · cases h
  · next router hr =>
    obtain rfl := Except.ok.inj h
    obtain ⟨interfaces, hi, rfl⟩ := Router.new_ok hr
    obtain ⟨hd, -, -, hroutes, -, hinterfaces⟩ := Router.addDirectRoutes_spec interfaces.entries
      (t := RoutingTable.new handle hostsAtTable) List.nodup_nil (by simp [RoutingTable.new])
    have hdirect : ∀ r ∈ (interfaces.entries.foldl (fun table e => table.addRoute (Router.directRoute e.1 e.2))
        (RoutingTable.new handle hostsAtTable)).routes,
        ∃ name info, interfaces.lookup name = some info ∧ r = Router.directRoute name info := by
      intro r hr
      rcases hroutes r hr with hr | ⟨⟨name, info⟩, he, rfl⟩
      · simp [RoutingTable.new] at hr
      · exact ⟨name, info, Dictionary.mem_entries.mp he, rfl⟩
    refine ⟨hd, (Network.discoverInterfaces_ok hi).2, fun r hr => Or.inl (hdirect r hr), ?_, ?_, ?_⟩
    · intro r hr
      obtain ⟨name, info, -, rfl⟩ := hdirect r hr
      exact RoutingTable.isValidRoute_direct rfl
    · intro name info hl
      obtain ⟨r, hr, hdest⟩ := hinterfaces ⟨name, info⟩ (Dictionary.mem_entries.mpr hl)
      obtain ⟨name', info', -, rfl⟩ := hdirect r hr
      exact ⟨_, hr, rfl, hdest⟩
    · intro k state hl
      simp [start] at hl

theorem start_direct {routerId : String} {hosts hostsAtTable : List NetworkInterface} {names : List String}
    {port : UInt16} {handle : κ} {p : SimpleRoutingProtocol κ}
    (h : SimpleRoutingProtocol.new routerId hosts hostsAtTable names port handle = .ok p) {r : RouteEntry}
    (hr : r ∈ (start p).table.routes) : r.source = .direct := by
  rcases (WellFormed.new h).routes r hr with ⟨name, info, -, rfl⟩ | ⟨-, -, -, hi⟩
  · rfl
  · cases hi

theorem mem_step_update {o : Observed κ} (ho : o.table.Distinct) {message : RoutingUpdate} {addr : SocketAddr}
    {now : Instant} {r : RouteEntry} (hr : r ∈ (o.step (.update message addr now)).table.routes) :
    r ∈ o.table.routes ∨
      (∃ key, (key, r) ∈ accepted message addr now o.protocol) ∧ o.table.isValidRoute r = true := by
  have hd : (o.step (.update message addr now)).table.Distinct := step_distinct ho (.update message addr now)
  have hf := (mem_routes_iff hd).mp hr
  rw [step_table] at hf
  obtain h | h := findRoute_update_origin ho hf
  · exact Or.inl (RoutingTable.findRoute_mem h)
  · exact Or.inr h

theorem WellFormed.update {o : Observed κ} (ho : WellFormed o) (message : RoutingUpdate) (addr : SocketAddr)
    (now : Instant) : WellFormed (o.step (.update message addr now)) := by
  have hd : (o.step (.update message addr now)).table.Distinct := step_distinct ho.distinct (.update message addr now)
  have hsame := step_same ho.distinct (.update message addr now)
  have hinterfaces : (o.step (.update message addr now)).interfaces = o.interfaces := hsame.interfaces
  have hvalid (r : RouteEntry) : (o.step (.update message addr now)).table.isValidRoute r = o.table.isValidRoute r :=
    RoutingTable.isValidRoute_congr hsame.localNetworks r
  refine ⟨hd, ?_, ?_, ?_, ?_, ?_⟩
  · rw [hinterfaces]
    exact ho.interfaces
  · rw [hinterfaces]
    intro r hr
    have hf : (o.step (.update message addr now)).table.findRoute r.destination = some r :=
      (mem_routes_iff hd).mp hr
    obtain h | ⟨⟨key, hk⟩, -⟩ := mem_step_update ho.distinct hr
    · rcases ho.routes r h with hdirect | ⟨hs, hn, hour, hi⟩
      · exact Or.inl hdirect
      · have hkept := installed_unchanged (hf.trans ((mem_routes_iff ho.distinct).mp h).symm)
        exact Or.inr ⟨hs, hn, hour, by rw [hkept]; exact hi⟩
    · obtain ⟨hs, hdest, hour⟩ := accepted_shape hk
      have hnew := installed_changed hf (accepted_ne hk)
      exact Or.inr ⟨hs, RouteManager.destinationOf_subnet hdest, hour, by rw [hnew]; rfl⟩
  · intro r hr
    rw [hvalid]
    obtain h | ⟨-, hv⟩ := mem_step_update ho.distinct hr
    · exact ho.valid r h
    · exact hv
  · rw [hinterfaces]
    intro name info hl
    obtain ⟨r, hr, hs, hdest⟩ := ho.direct name info hl
    -- an accepted route never leads to a network of the router itself
    have hno : ∀ key r', (key, r') ∈ accepted message addr now o.protocol → r'.destination ≠ info.network := by
      intro key r' hr' he
      have hour := (accepted_shape hr').2.2
      rw [he, Bool.eq_false_iff] at hour
      exact hour (RouteManager.isOurNetwork_iff.mpr ⟨name, info, hl, rfl⟩)
    have hkept := (findRoute_update_of_notMem ho.distinct hno).trans
      ((RoutingTable.findRoute_iff ho.distinct).mpr ⟨hr, hdest⟩)
    exact ⟨r, RoutingTable.findRoute_mem hkept, hs, hdest⟩
  · rw [hinterfaces]
    intro k state hl
    rw [step_protocol, SimpleRoutingProtocol.step, handleUpdateMessageStatic_eq] at hl
    rcases Dictionary.lookup_insertAll hl with hk | ⟨-, hl⟩
    · obtain ⟨⟨key, r⟩, hr, he⟩ := List.mem_map.mp hk
      obtain ⟨rfl, rfl⟩ := Prod.mk.inj he
      exact (accepted_shape hr).2
    · exact ho.records k state hl

theorem step_cleanup_findRoute {o : Observed κ} (ho : o.table.Distinct) {now : Instant} {d : Ipv4Network}
    {r : RouteEntry} (h : (o.step (.cleanup now)).table.findRoute d = some r) :
    o.table.findRoute d = some r ∧ (o.step (.cleanup now)).installed d = o.installed d := by
  have hd : (o.step (.cleanup now)).table.Distinct := step_distinct ho (.cleanup now)
  obtain ⟨hr, rfl⟩ := (RoutingTable.findRoute_iff hd).mp h
  exact ⟨(mem_routes_iff ho).mp ((mem_step_cleanup ho).mp hr).1, installed_kept h⟩

theorem WellFormed.cleanup {o : Observed κ} (ho : WellFormed o) (now : Instant) :
    WellFormed (o.step (.cleanup now)) := by
  have hd : (o.step (.cleanup now)).table.Distinct := step_distinct ho.distinct (.cleanup now)
  have hsame := (performCleanup_spec now ho.distinct).1
  have hsub : ∀ r ∈ (o.step (.cleanup now)).table.routes, r ∈ o.table.routes := fun r hr =>
    ((mem_step_cleanup ho.distinct).mp hr).1
  have hinterfaces : (o.step (.cleanup now)).interfaces = o.interfaces := hsame.interfaces
  refine ⟨hd, ?_, ?_, ?_, ?_, ?_⟩
  · rw [hinterfaces]
    exact ho.interfaces
  · rw [hinterfaces]
    intro r hr
    rcases ho.routes r (hsub r hr) with hdirect | ⟨hs, hn, hour, hi⟩
    · exact Or.inl hdirect
    · have hf : (o.step (.cleanup now)).table.findRoute r.destination = some r := (mem_routes_iff hd).mp hr
      refine Or.inr ⟨hs, hn, hour, ?_⟩
      rw [(step_cleanup_findRoute ho.distinct hf).2]
      exact hi
  · intro r hr
    exact (RoutingTable.isValidRoute_congr hsame.localNetworks r).trans (ho.valid r (hsub r hr))
  · rw [hinterfaces]
    intro name info hl
    obtain ⟨r, hr, hs, hdest⟩ := ho.direct name info hl
    refine ⟨r, (mem_step_cleanup ho.distinct).mpr ⟨hr, ?_, ?_⟩, hs, hdest⟩
    · intro k state hk _ he
      have hour := (ho.records k state hk).2
      rw [he, hdest, Bool.eq_false_iff] at hour
      exact hour (RouteManager.isOurNetwork_iff.mpr ⟨name, info, hl, rfl⟩)
    · rintro ⟨hsrc, -⟩
      rw [hs] at hsrc
      cases hsrc
  · rw [hinterfaces]
    intro k state hl
    exact ho.records k state ((lookup_step_cleanup ho.distinct).mp hl).1

theorem step_hello_eq (o : Observed κ) (message : HelloMessage) (addr : SocketAddr) (now : Instant) :
    ∃ neighbors, o.step (.hello message addr now) = ⟨{ o.protocol with neighbors := neighbors }, o.installed⟩ := by
  obtain ⟨neighbors, hn⟩ := handleHelloMessageStatic_eq message addr now o.protocol
  refine ⟨neighbors, ?_⟩
  rw [← hn]
  rfl

theorem WellFormed.step {o : Observed κ} (ho : WellFormed o) (e : Event) : WellFormed (o.step e) := by
  cases e with
  | hello message addr now =>
    obtain ⟨neighbors, hn⟩ := step_hello_eq o message addr now
    rw [hn]
    exact ⟨ho.distinct, ho.interfaces, ho.routes, ho.valid, ho.direct, ho.records⟩
  | update message addr now => exact ho.update message addr now
  | cleanup now => exact ho.cleanup now

theorem run_same {o : Observed κ} (ho : WellFormed o) (es : List Event) :
    SameRouter o.protocol (o.run es).protocol := by
  induction es generalizing o with
  | nil => exact SameRouter.refl o.protocol
  | cons e es ih =>
    have hstep : SameRouter o.protocol (o.step e).protocol := by
      rw [step_protocol]
      exact step_same ho.distinct e
    exact hstep.trans (ih (ho.step e))

theorem WellFormed.run {o : Observed κ} (ho : WellFormed o) (es : List Event) : WellFormed (o.run es) := by
  induction es generalizing o with
  | nil => exact ho
  | cons e es ih => exact ih (ho.step e)

theorem Reachable.wellFormed {o : Observed κ} (h : Reachable o) : WellFormed o := by
  induction h with
  | start h => exact WellFormed.new h
  | step e _ ih => exact ih.step e

end Observation

/-! A router alone on 10.0.0.0/24, for runs on concrete messages. -/

section Lan

def lanHosts : List NetworkInterface := [.up "eth0" (.new 10 0 0 1) 24]

theorem lan_isOk : (SimpleRoutingProtocol.new "A" lanHosts lanHosts ["eth0"] 5555
    (∅ : Finset SystemRoute)).isOk = true := by decide +kernel

def lan : Observed (Finset SystemRoute) := start (started _ lan_isOk)

theorem lan_new : SimpleRoutingProtocol.new "A" lanHosts lanHosts ["eth0"] 5555 ∅ = .ok lan.protocol :=
  started_ok lan_isOk

theorem lan_reachable (es : List Event) : Reachable (lan.run es) := (Reachable.start lan_new).run es

theorem lan_wellFormed : WellFormed lan := WellFormed.new lan_new

def lanPeer (host : Fin 256) : SocketAddr := ⟨.v4 (.new 10 0 0 host), 5555⟩

def lanUpdate (routerId : String) (host : Fin 256) (routes : List RouteInfo) (secs : ℕ) : Event :=
  .update ⟨routerId, 1, routes⟩ (lanPeer host) (Duration.fromSecs secs)

def lanHello (routerId : String) (host : Fin 256) (secs : ℕ) : Event :=
  .hello ⟨routerId, AList.insert "eth0" (Ipv4Addr.new 10 0 0 host).toString ∅⟩ (lanPeer host) (Duration.fromSecs secs)

def lanCleanup (secs : ℕ) : Event := .cleanup (Duration.fromSecs secs)

def advert (secs : ℕ) : Event := lanUpdate "B" 2 [⟨"10.2.0.0/24", 0, "0.0.0.0"⟩] secs

def advertised : RouteEntry := ⟨⟨.new 10 2 0 0, 24⟩, .new 10 0 0 2, "eth0", 1, .protocol⟩

theorem advert_processed (now : Instant) :
    RouteManager.processSingleRoute ⟨"10.2.0.0/24", 0, "0.0.0.0"⟩ "B" (.new 10 0 0 2)
      lan.protocol.router.interfaces now = some (advertised, ⟨advertised, now, "B"⟩) := by
  refine RouteManager.processSingleRoute_iff.mpr ⟨advertised.destination, .new 0 0 0 0, "eth0",
    ⟨"eth0", .new 10 0 0 1, ⟨.new 10 0 0 1, 24⟩, 1⟩, ?_, ?_, ?_, ?_, ?_, rfl⟩ <;> decide +kernel

end Lan

end Observed

end CustomOspf
