import CustomOspf.Kernel
import CustomOspf.Representation

/-!
What the shared routing table keeps while the sections of any number of listen
loops and of the cleanup task interleave: its shape, and its agreement with the
kernel.
-/

namespace CustomOspf

open SimpleRoutingProtocol

/-! One rule for both: a property of tables that every change made under the lock keeps. -/

section Rule

variable {κ : Type} [IpNetwork] [NetRoute κ]

/-- `offered` is asked of a route before the table takes it, with the networks of the host at hand. -/
structure TableInvariant (κ : Type) [IpNetwork] [NetRoute κ] where
  offered : List Ipv4Network → RouteEntry → Prop
  holds : RoutingTable κ → Prop
  distinct : ∀ t, holds t → t.Distinct
  updateRoute : ∀ t r, holds t → offered t.localNetworks r → holds (Router.updateRoute t r)
  removeRoute : ∀ t r, holds t → holds (t.removeRoute r)
  removeVia : ∀ t nextHop, holds t → holds (t.removeRoutesViaNexthop nextHop).1

namespace TableInvariant

variable (I : TableInvariant κ)

theorem updateRoutes {t : RoutingTable κ} (h : I.holds t) {routes : List RouteEntry}
    (ho : ∀ r ∈ routes, I.offered t.localNetworks r) : I.holds (routes.foldl Router.updateRoute t) := by
  induction routes generalizing t with
  | nil => exact h
  | cons route routes ih =>
    apply ih (I.updateRoute t route h (ho route List.mem_cons_self))
    intro r hr
    rw [Router.updateRoute_localNetworks]
    exact ho r (List.mem_cons_of_mem route hr)

theorem removeDestinations (destinations : List String) {s : Router κ × RouteStates} (h : I.holds s.1.routingTable) :
    I.holds (destinations.foldl RouteManager.removeDestination s).1.routingTable := by
  induction destinations generalizing s with
  | nil => exact h
  | cons k ks ih =>
    apply ih
    unfold RouteManager.removeDestination
    split
    · exact I.removeRoute _ _ h
    · exact h

def Offered (p : SimpleRoutingProtocol κ) (route : RouteEntry) : Prop :=
  I.offered p.router.routingTable.localNetworks route

def Admits (p : SimpleRoutingProtocol κ) (advertiser : String) (sender : Ipv4Addr) (routes : List RouteInfo) : Prop :=
  ∀ info ∈ routes, ∀ now route state,
    RouteManager.processSingleRoute info advertiser sender p.router.interfaces now = some (route, state) →
      I.Offered p route

def Pending (p : SimpleRoutingProtocol κ) : ListenPhase → Prop
  | .idle => True
  | .touching update addr => ∀ sender, addr.ip = .v4 sender → I.Admits p update.routerId sender update.routes
  | .starting update sender => I.Admits p update.routerId sender update.routes
  | .testing advertiser sender interfaces _ routes collected => interfaces = p.router.interfaces ∧
    I.Admits p advertiser sender routes ∧ ∀ r ∈ collected.1, I.Offered p r
  | .applying newRoutes => ∀ r ∈ newRoutes, I.Offered p r

variable {I}

theorem Admits.collect {p : SimpleRoutingProtocol κ} {advertiser : String} {sender : Ipv4Addr} {info : RouteInfo}
    {routes : List RouteInfo} (h : I.Admits p advertiser sender (info :: routes))
    {collected : List RouteEntry × List (String × RouteState)} (hc : ∀ r ∈ collected.1, I.Offered p r)
    (now : Instant) (router : Router κ) :
    ∀ r ∈ (RouteManager.collectRoute advertiser sender p.router.interfaces now router collected info).1,
      I.Offered p r := by
  unfold RouteManager.collectRoute
  split
  · next route state hp =>
    split
    · intro r hr
      rcases List.mem_append.mp hr with hr | hr
      · exact hc r hr
      · obtain rfl := List.mem_singleton.mp hr
        exact h info List.mem_cons_self _ _ _ hp
    · exact hc
  · exact hc

theorem Pending.imp {J : TableInvariant κ} {p : SimpleRoutingProtocol κ} (hoffered : ∀ r, I.Offered p r → J.Offered p r)
    {phase : ListenPhase} (h : I.Pending p phase) : J.Pending p phase := by
  have hadmits {advertiser : String} {sender : Ipv4Addr} {routes : List RouteInfo}
      (h : I.Admits p advertiser sender routes) : J.Admits p advertiser sender routes :=
    fun info hm now route state hp => hoffered route (h info hm now route state hp)
  cases phase with
  | idle => trivial
  | touching update addr => exact fun sender hs => hadmits (h sender hs)
  | starting update sender => exact hadmits h
  | testing advertiser sender interfaces now routes collected =>
    exact ⟨h.1, hadmits h.2.1, fun r hr => hoffered r (h.2.2 r hr)⟩
  | applying newRoutes => exact fun r hr => hoffered r (h r hr)

theorem Admits.tail {p : SimpleRoutingProtocol κ} {advertiser : String} {sender : Ipv4Addr} {info : RouteInfo}
    {routes : List RouteInfo} (h : I.Admits p advertiser sender (info :: routes)) :
    I.Admits p advertiser sender routes :=
  fun other hm => h other (List.mem_cons_of_mem info hm)

theorem listen {p q : SimpleRoutingProtocol κ} (hsame : SameRouter p q) (h : I.holds q.router.routingTable)
    {phase : ListenPhase} (hp : I.Pending p phase) (now : Instant) :
    I.holds (CustomOspf.listen now phase q).2.router.routingTable ∧ I.Pending p (CustomOspf.listen now phase q).1 := by
  cases phase with
  | idle => exact ⟨h, trivial⟩
  | touching update addr =>
    refine ⟨h, ?_⟩
    obtain ⟨ip, port⟩ := addr
    cases ip with
    | v4 sender => exact hp sender rfl
    | v6 bits => trivial
  | starting update sender => exact ⟨h, hsame.interfaces, hp, by simp⟩
  | testing advertiser sender interfaces started routes collected =>
    obtain ⟨rfl, hadmits, hcollected⟩ := hp
    cases routes with
    | cons info routes => exact ⟨h, rfl, hadmits.tail, hadmits.collect hcollected started q.router⟩
    | nil =>
      refine ⟨h, ?_⟩
      obtain ⟨newRoutes, updated⟩ := collected
      cases newRoutes with
      | nil => trivial
      | cons route rest => exact hcollected
  | applying newRoutes =>
    refine ⟨I.updateRoutes h ?_, trivial⟩
    intro r hr
    rw [hsame.localNetworks]
    exact hp r hr

theorem clean {p : SimpleRoutingProtocol κ} (h : I.holds p.router.routingTable) (phase : CleanPhase) (now : Instant) :
    I.holds (CustomOspf.clean now phase p).2.router.routingTable := by
  cases phase with
  | removing dead destinations => exact I.removeDestinations destinations h
  | purgingVia ip rest => exact I.removeVia _ ip h
  | idle => exact h
  | scanningStates started dead => exact h
  | collecting dead stale => exact h
  | purging id rest => exact h

end TableInvariant

end Rule

namespace TableInvariant

section Steps

variable {ι κ : Type} [IpNetwork] [NetRoute κ] {I : TableInvariant κ}

def Fits (I : TableInvariant κ) (p : SimpleRoutingProtocol κ) : Section ι → Prop
  | .receive _ update addr => ∀ sender, addr.ip = .v4 sender → I.Admits p update.routerId sender update.routes
  | _ => True

theorem Fits.imp {J : TableInvariant κ} {p : SimpleRoutingProtocol κ} (hoffered : ∀ r, I.Offered p r → J.Offered p r)
    {a : Section ι} (h : I.Fits p a) : J.Fits p a := by
  cases a with
  | receive i update addr =>
    have hpending : I.Pending p (.touching update addr) := h
    exact hpending.imp hoffered
  | _ => trivial

variable [DecidableEq ι]

structure Kept (I : TableInvariant κ) (p : SimpleRoutingProtocol κ) (c : Concurrent ι κ) : Prop where
  table : I.holds c.shared.router.routingTable
  same : SameRouter p c.shared
  listeners : ∀ i, I.Pending p (c.listeners i)

theorem Kept.listener {p : SimpleRoutingProtocol κ} {c : Concurrent ι κ} (h : I.Kept p c) (i : ι) {phase : ListenPhase}
    (hp : I.Pending p phase) : ∀ j, I.Pending p (Function.update c.listeners i phase j) := by
  intro j
  by_cases hj : j = i
  · subst hj
    rw [Function.update_self]
    exact hp
  · rw [Function.update_of_ne hj]
    exact h.listeners j

theorem Kept.step {p : SimpleRoutingProtocol κ} {c : Concurrent ι κ} (h : I.Kept p c) {a : Section ι}
    (ha : I.Fits p a) : I.Kept p (c.step a) := by
  cases a with
  | hello i message addr now =>
    simp only [Concurrent.step]
    split
    · obtain ⟨neighbors, hn⟩ := handleHelloMessageStatic_eq message addr now c.shared
      rw [hn]
      exact ⟨h.table, h.same.trans ⟨rfl, rfl, rfl, rfl⟩, h.listeners⟩
    · exact h
  | receive i update addr =>
    simp only [Concurrent.step]
    split
    · split
      · exact h
      · exact ⟨h.table, h.same, h.listener i ha⟩
    · exact h
  | listen i now =>
    obtain ⟨htable, hpending⟩ := listen h.same h.table (h.listeners i) now
    exact ⟨htable, h.same.trans (listen_same now (c.listeners i) c.shared), h.listener i hpending⟩
  | clean now =>
    have hsame := clean_same (I.distinct _ h.table) c.cleaner now
    exact ⟨clean h.table c.cleaner now, h.same.trans hsame, h.listeners⟩

omit [DecidableEq ι] in
theorem Kept.start {p : SimpleRoutingProtocol κ} (h : I.holds p.router.routingTable) :
    I.Kept p (Concurrent.start p : Concurrent ι κ) := ⟨h, .refl p, fun _ => trivial⟩

theorem interleaved (I : TableInvariant κ) {p : SimpleRoutingProtocol κ} (h : I.holds p.router.routingTable)
    {actions : List (Section ι)} (ha : ∀ a ∈ actions, I.Fits p a) :
    I.holds (actions.foldl Concurrent.step (Concurrent.start p)).shared.router.routingTable := by
  have hrun (c : Concurrent ι κ) (hc : I.Kept p c) : I.Kept p (actions.foldl Concurrent.step c) := by
    induction actions generalizing c with
    | nil => exact hc
    | cons a actions ih =>
      apply ih (fun a' ha' => ha a' (List.mem_cons_of_mem a ha'))
      exact hc.step (ha a List.mem_cons_self)
  exact (hrun _ (Kept.start h)).table

end Steps

end TableInvariant

def EntryInvariant.toTable {κ : Type} [IpNetwork] [NetRoute κ] (E : EntryInvariant κ) : TableInvariant κ where
  offered nets r := ∀ t : RoutingTable κ, t.localNetworks = nets → E.Entered t r
  holds := E.Holds
  distinct _ h := h.distinct
  updateRoute t _ h ho := h.updateRoute (ho t rfl)
  removeRoute _ route h := h.removeRoute route
  removeVia _ nextHop h := h.removeRoutesViaNexthop nextHop

section Shape

variable {κ : Type} [IpNetwork]

structure WellShaped (t : RoutingTable κ) : Prop where
  distinct : t.Distinct
  learned : ∀ r ∈ t.routes, r.source = .protocol → r.destination.subnet = r.destination ∧ t.isValidRoute r = true

theorem WellShaped.toRepresentation {t : RoutingTable κ} (h : WellShaped t) : Representation t := by
  have hvalid (r : RouteEntry) (hr : r ∈ t.routes) (hs : r.source = .protocol) :=
    (RoutingTable.isValidRoute_protocol hs).mp (h.learned r hr hs).2
  refine ⟨h.distinct, fun r hr hs => addr_of_subnet (h.learned r hr hs).1, ?_, ?_, ?_⟩
  · intro r hr s hs hrs hss hnet hlen
    have hdest : r.destination = s.destination := by
      rw [← (h.learned r hr hrs).1, ← (h.learned s hs hss).1]
      exact (Ipv4Network.subnet_eq_iff _ _).mpr ⟨hnet, hlen⟩
    exact List.inj_on_of_nodup_map h.distinct hr hs hdest
  · intro r hr hs net hnet he
    obtain ⟨-, -, hforeign, -⟩ := hvalid r hr hs
    exact hforeign net hnet ((Ipv4Network.subnet_eq_iff _ _).mpr he)
  · intro r hr hs
    obtain ⟨hloop, hspec, -, hin⟩ := hvalid r hr hs
    exact ⟨hloop, hspec, hin⟩

variable [NetRoute κ]

theorem WellShaped.updateRoute {t : RoutingTable κ} (h : WellShaped t) {route : RouteEntry}
    (hn : route.destination.subnet = route.destination) : WellShaped (Router.updateRoute t route) := by
  have hd := Router.updateRoute_distinct h.distinct route
  refine ⟨hd, ?_⟩
  intro r hr hs
  rw [RoutingTable.isValidRoute_congr (Router.updateRoute_localNetworks t route)]
  have hf : (Router.updateRoute t route).findRoute r.destination = some r :=
    (RoutingTable.findRoute_iff hd).mpr ⟨hr, rfl⟩
  rw [Router.findRoute_updateRoute h.distinct] at hf
  split at hf
  · have horigin := @Router.offers_origin t.isValidRoute [route] (t.findRoute r.destination) r hf
    rcases horigin with hold | ⟨hnew, hv⟩
    · exact h.learned r (RoutingTable.findRoute_mem hold) hs
    · obtain rfl := List.mem_singleton.mp hnew
      exact ⟨hn, hv⟩
  · exact h.learned r (RoutingTable.findRoute_mem hf) hs

omit [NetRoute κ] in
theorem WellShaped.of_mem {t t' : RoutingTable κ} (h : WellShaped t) (hd : t'.Distinct)
    (hlocal : t'.localNetworks = t.localNetworks) (hmem : ∀ r ∈ t'.routes, r ∈ t.routes) : WellShaped t' := by
  refine ⟨hd, ?_⟩
  intro r hr hs
  rw [RoutingTable.isValidRoute_congr hlocal]
  exact h.learned r (hmem r hr) hs

theorem WellShaped.new {routerId : String} {hosts hostsAtTable : List NetworkInterface} {names : List String}
    {port : UInt16} {handle : κ} {p : SimpleRoutingProtocol κ}
    (h : SimpleRoutingProtocol.new routerId hosts hostsAtTable names port handle = .ok p) :
    WellShaped p.router.routingTable := by
  have hw := Observed.WellFormed.new h
  refine ⟨hw.distinct, ?_⟩
  intro r hr hs
  exact ⟨hw.subnet hr hs, hw.valid r hr⟩

def shape : TableInvariant κ where
  offered _ r := r.destination.subnet = r.destination
  holds := WellShaped
  distinct _ h := h.distinct
  updateRoute _ _ h hn := h.updateRoute hn
  removeRoute t route h := by
    apply h.of_mem (RoutingTable.removeRoute_distinct h.distinct route) (RoutingTable.removeRoute_localNetworks t route)
    intro r hr
    exact ((RouteManager.mem_removeRoute h.distinct).mp hr).1
  removeVia t nextHop h := by
    apply h.of_mem (RoutingTable.removeRoutesViaNexthop_distinct h.distinct nextHop)
      (RoutingTable.removeRoutesViaNexthop_localNetworks t nextHop)
    intro r hr
    exact (RoutingTable.mem_removeRoutesViaNexthop.mp hr).1

theorem shape_admits (p : SimpleRoutingProtocol κ) (advertiser : String) (sender : Ipv4Addr) (routes : List RouteInfo) :
    (shape : TableInvariant κ).Admits p advertiser sender routes := by
  intro info _ now route state hp
  obtain ⟨d, nh, name, iface, hd, -, -, -, rfl, -⟩ := RouteManager.processSingleRoute_iff.mp hp
  exact RouteManager.destinationOf_subnet hd

theorem Concurrent.always_representation {ι : Type} [DecidableEq ι] {routerId : String}
    {hosts hostsAtTable : List NetworkInterface} {names : List String} {port : UInt16} {handle : κ}
    {p : SimpleRoutingProtocol κ} (h : SimpleRoutingProtocol.new routerId hosts hostsAtTable names port handle = .ok p)
    (actions : List (Section ι)) :
    Representation (actions.foldl step (start p)).shared.router.routingTable := by
  have hfits : ∀ a ∈ actions, (shape : TableInvariant κ).Fits p a := by
    intro a _
    cases a with
    | receive i update addr => exact fun sender _ => shape_admits _ _ sender _
    | _ => trivial
  have hshape : WellShaped (actions.foldl step (start p)).shared.router.routingTable :=
    shape.interleaved (WellShaped.new h) hfits
  exact hshape.toRepresentation

end Shape

theorem Concurrent.always_representation_witness :
    Representation (overtaken.foldl step (start Observed.lan.protocol)).shared.router.routingTable :=
  always_representation Observed.lan_new overtaken

/-! The agreement with the kernel, which is `initial` at the start. -/

section Agreement

open Kernel LawfulNetRoute

variable {κ : Type} [IpNetwork] [NetRoute κ] [LawfulNetRoute κ]

def kernelOf (initial : κ) : TableInvariant κ := (agreement initial).toTable

theorem offered_kernelOf {initial : κ} {nets : List Ipv4Network} {r : RouteEntry} (hs : r.source = .protocol)
    (hn : r.destination.subnet = r.destination)
    (hu : (∀ net ∈ nets, r.destination.subnet ≠ net.subnet) → Unclaimed initial r.destination) :
    (kernelOf initial).offered nets r := by
  rintro t rfl hv
  exact ⟨hs, hn, hu ((RoutingTable.isValidRoute_protocol hs).mp hv).2.2.1⟩

/-- Nobody else has a route of a network that the update advertises and that no interface of the host is on. -/
def LeavesToUs (initial : κ) (nets : List Ipv4Network) (update : RoutingUpdate) : Prop :=
  ∀ info ∈ update.routes, ∀ d, RouteManager.destinationOf info.destination = some d →
    (∀ net ∈ nets, d ≠ net.subnet) → Unclaimed initial d

theorem LeavesToUs.admits {initial : κ} {p : SimpleRoutingProtocol κ}
    {update : RoutingUpdate} (h : LeavesToUs initial p.router.routingTable.localNetworks update) (sender : Ipv4Addr) :
    (kernelOf initial).Admits p update.routerId sender update.routes := by
  intro info hm now route state hp
  obtain ⟨d, nh, name, iface, hd, -, -, -, rfl, -⟩ := RouteManager.processSingleRoute_iff.mp hp
  have hn := RouteManager.destinationOf_subnet hd
  apply offered_kernelOf rfl hn
  intro hne
  apply h info hm d hd
  intro net hnet
  rw [← hn]
  exact hne net hnet

namespace Concurrent

variable {ι : Type} [DecidableEq ι]

/-- At every moment the kernel has the routes of others and those learned ones whose gateways it takes, and a
shutdown leaves the former. -/
theorem always_kernel_agrees {routerId : String} {hosts hostsAtTable : List NetworkInterface} {names : List String}
    {port : UInt16} {initial : κ} {p : SimpleRoutingProtocol κ}
    (h : SimpleRoutingProtocol.new routerId hosts hostsAtTable names port initial = .ok p) {actions : List (Section ι)}
    (hours : ∀ i update addr, .receive i update addr ∈ actions →
      LeavesToUs initial p.router.routingTable.localNetworks update) :
    let t := (actions.foldl step (start p)).shared.router.routingTable
    (∀ s, s ∈ held t.routeHandle ↔ s ∈ held initial ∨ ∃ r ∈ t.routes, r.source = .protocol ∧ Takes initial s ∧
      s = ⟨r.destination.network, r.destination.prefixLen, r.nextHop⟩) ∧ held t.drop = held initial := by
  have hfits : ∀ a ∈ actions, (kernelOf initial).Fits p a := by
    intro a ha
    cases a with
    | receive i update addr => exact fun sender _ => (hours i update addr ha).admits sender
    | _ => trivial
  have hstart : TableAgrees initial p.router.routingTable := by
    unfold SimpleRoutingProtocol.new at h
    split at h
    · cases h
    · next router hrouter =>
      cases h
      exact TableAgrees.new hrouter
  have hend : TableAgrees initial (actions.foldl step (start p)).shared.router.routingTable :=
    (kernelOf initial).interleaved hstart hfits
  exact ⟨TableAgrees.mem_iff hend, TableAgrees.held_drop hend⟩

end Concurrent

end Agreement

theorem Concurrent.always_kernel_agrees_witness :
    let initial : MainTable := ⟨{⟨.new 0 0 0 0, 0, .new 10 0 0 254⟩}, {.new 10 0 0 255}⟩
    ∃ p, SimpleRoutingProtocol.new "A" Observed.lanHosts Observed.lanHosts ["eth0"] 5555 initial = .ok p ∧
      let t := (overtaken.foldl step (start p)).shared.router.routingTable
      (∀ s, s ∈ LawfulNetRoute.held t.routeHandle ↔ s ∈ LawfulNetRoute.held initial ∨ ∃ r ∈ t.routes,
        r.source = .protocol ∧ LawfulNetRoute.Takes initial s ∧
          s = ⟨r.destination.network, r.destination.prefixLen, r.nextHop⟩) ∧
        LawfulNetRoute.held t.drop = LawfulNetRoute.held initial := by
  intro initial
  have hok : (SimpleRoutingProtocol.new "A" Observed.lanHosts Observed.lanHosts ["eth0"] 5555 initial).isOk = true := by
    decide +kernel
  refine ⟨started _ hok, started_ok hok, always_kernel_agrees (started_ok hok) ?_⟩
  intro i update addr hm info hi d hd _ s hs
  have hroutes : update.routes = [⟨"10.2.0.0/24", 0, "0.0.0.0"⟩] := by
    simp only [overtaken, receiveAll, List.mem_append, List.mem_cons, reduceCtorEq, Section.receive.injEq,
      List.not_mem_nil, or_false] at hm
    rcases hm with ⟨-, rfl, -⟩ | ⟨-, rfl, -⟩ <;> rfl
  rw [hroutes] at hi
  obtain rfl := List.mem_singleton.mp hi
  have hd' : RouteManager.destinationOf "10.2.0.0/24" = some ⟨.new 10 2 0 0, 24⟩ := by decide +kernel
  obtain rfl := Option.some.inj (hd'.symm.trans hd)
  obtain rfl := Finset.mem_singleton.mp hs
  decide +kernel

end CustomOspf
