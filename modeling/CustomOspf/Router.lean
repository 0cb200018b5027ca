import CustomOspf.RoutingTable
import CustomOspf.Library.Dictionary

/-!
Interface discovery, the start of a router with its direct routes, and the
application of a batch of learned routes to the table.
-/

namespace CustomOspf

structure InterfaceInfo where
  name : String
  ip : Ipv4Addr
  network : Ipv4Network
  metric : UInt32
deriving DecidableEq

abbrev Interfaces := Dictionary String InterfaceInfo

structure RouterInfo where
  routerId : String
  interfaces : Interfaces
deriving DecidableEq

inductive IpNet where
  | v4 (network : Ipv4Network)
  | v6 (bits : BitVec 128) (prefixLen : Fin 129)
deriving DecidableEq

def IpNet.toV4 : IpNet → Option Ipv4Network
  | .v4 network => some network
  | .v6 _ _ => none

structure NetworkInterface where
  name : String
  isUp : Bool
  isLoopback : Bool
  ips : List IpNet
deriving DecidableEq

def NetworkInterface.up (name : String) (addr : Ipv4Addr) (prefixLen : Fin 33) : NetworkInterface :=
  { name := name, isUp := true, isLoopback := false, ips := [.v4 ⟨addr, prefixLen⟩] }

def started {α : Type} : (result : Except String α) → result.isOk = true → α
  | .ok a, _ => a
  | .error _, h => absurd h Bool.false_ne_true

theorem started_ok {α : Type} {result : Except String α} (h : result.isOk = true) :
    result = .ok (started result h) := by
  cases result with
  | ok a => rfl
  | error e => exact absurd h Bool.false_ne_true

namespace Network

def getInterfaceInfo (hosts : List NetworkInterface) (interfaceName : String) : Except String InterfaceInfo :=
  match hosts.find? (fun iface => iface.name = interfaceName) with
  | none => .error s!"Interface {interfaceName} not found"
  | some target =>
    if !target.isUp then .error s!"Interface {interfaceName} is not up"
    else match (target.ips.filterMap IpNet.toV4).find? (fun network => !network.addr.isLoopback) with
    | some network => .ok { name := interfaceName, ip := network.addr, network := network, metric := 1 }
    | none => .error s!"No IPv4 address found for interface {interfaceName}"

def discoverInterfaces (hosts : List NetworkInterface) (interfaceNames : List String) :
    Except String Interfaces :=
  let interfaces : Interfaces := interfaceNames.foldl (fun found name =>
    match getInterfaceInfo hosts name with
    | .ok info => found.insert name info
    | .error _ => found) ∅
  if interfaces.entries.isEmpty then .error "No valid interfaces found" else .ok interfaces

theorem getInterfaceInfo_ok {hosts : List NetworkInterface} {name : String} {info : InterfaceInfo}
    (h : getInterfaceInfo hosts name = .ok info) :
    info.ip = info.network.addr ∧ info.ip.isLoopback = false ∧ info.metric = 1 := by
  unfold getInterfaceInfo at h
  split at h
  · cases h
  · split at h
    · cases h
    · split at h
      · next network hfind =>
        obtain rfl := Except.ok.inj h
        exact ⟨rfl, by simpa using List.find?_some hfind, rfl⟩
      · cases h

theorem discoverInterfaces_ok {hosts : List NetworkInterface} {names : List String} {interfaces : Interfaces}
    (h : discoverInterfaces hosts names = .ok interfaces) :
    interfaces.entries ≠ [] ∧ ∀ name info, interfaces.lookup name = some info →
      info.ip = info.network.addr ∧ info.ip.isLoopback = false ∧ info.metric = 1 := by
  simp only [discoverInterfaces] at h
  split at h
  · cases h
  · next hne =>
    obtain rfl := Except.ok.inj h
    refine ⟨by simpa using hne, ?_⟩
    refine List.foldlRecOn (motive := fun found : Interfaces => ∀ name info, found.lookup name = some info →
      info.ip = info.network.addr ∧ info.ip.isLoopback = false ∧ info.metric = 1) names _ (by simp) ?_
    intro found ih name _ name' info' hl
    split at hl
    · next info hinfo =>
      by_cases hn : name' = name
      · subst hn
        rw [AList.lookup_insert] at hl
        obtain rfl := Option.some.inj hl
        exact getInterfaceInfo_ok hinfo
      · rw [AList.lookup_insert_ne hn] at hl
        exact ih name' info' hl
    · exact ih name' info' hl

end Network

namespace RoutingTable

def discoverLocalNetworks (hosts : List NetworkInterface) : List Ipv4Network :=
  hosts.flatMap (fun iface =>
    if iface.isUp && !iface.isLoopback then iface.ips.filterMap IpNet.toV4 else [])

def new {κ : Type} (routeHandle : κ) (hosts : List NetworkInterface) : RoutingTable κ :=
  { routes := [], routeHandle := routeHandle, localNetworks := discoverLocalNetworks hosts }

end RoutingTable

structure Router (κ : Type) where
  id : String
  interfaces : Interfaces
  routingTable : RoutingTable κ

namespace Router

section Entry

def Supersedes (route existing : RouteEntry) : Prop :=
  route.metric < existing.metric ∨ (route.metric = existing.metric ∧ route.nextHop ≠ existing.nextHop)

instance (route existing : RouteEntry) : Decidable (Supersedes route existing) :=
  inferInstanceAs (Decidable (_ ∨ _))

/-- The entry left by one turn of the loop. A route that is not valid can only empty it, on equal metrics. -/
def offer (valid : Bool) (route : RouteEntry) : Option RouteEntry → Option RouteEntry
  | none => if valid then some route else none
  | some existing =>
    if Supersedes route existing then
      if valid then some route
      else if route.metric = existing.metric then none else some existing
    else some existing

-- the fold over the routes of one destination
variable {valid : RouteEntry → Bool} {routes : List RouteEntry} {entry : Option RouteEntry}

theorem offers_origin (r : RouteEntry)
    (h : routes.foldl (fun entry route => offer (valid route) route entry) entry = some r) :
    entry = some r ∨ (r ∈ routes ∧ valid r = true) := by
  induction routes generalizing entry with
  | nil => exact Or.inl h
  | cons route routes ih =>
    rcases ih h with ho | ⟨hr, hv⟩
    · cases entry with
      | none =>
        simp only [offer, Option.ite_none_right_eq_some, Option.some.injEq] at ho
        exact Or.inr ⟨by simp [ho.2], ho.2 ▸ ho.1⟩
      | some existing =>
        simp only [offer] at ho
        split at ho
        · split at ho
          · next hv => exact Or.inr ⟨by simp [Option.some.inj ho], Option.some.inj ho ▸ hv⟩
          · split at ho
            · cases ho
            · exact Or.inl ho
        · exact Or.inl ho
    · exact Or.inr ⟨List.mem_cons_of_mem route hr, hv⟩

theorem offer_valid_some {route : RouteEntry} (hv : valid route = true) (entry : Option RouteEntry) :
    ∃ r, offer (valid route) route entry = some r ∧ r.metric.toNat ≤ route.metric.toNat ∧
      ∀ existing ∈ entry, r.metric.toNat ≤ existing.metric.toNat := by
  cases entry with
  | none => exact ⟨route, by simp [offer, hv], le_refl _, by simp⟩
  | some existing =>
    by_cases hs : Supersedes route existing
    · refine ⟨route, by simp [offer, hs, hv], le_refl _, ?_⟩
      unfold Supersedes at hs
      simp only [UInt32.lt_iff_toNat_lt, ← UInt32.toNat_inj] at hs
      simp only [Option.mem_def, Option.some.injEq, forall_eq']
      omega
    · refine ⟨existing, by simp [offer, hs], ?_, by simp⟩
      unfold Supersedes at hs
      simp only [UInt32.lt_iff_toNat_lt] at hs
      omega

theorem offers_least (hv : ∀ route ∈ routes, valid route = true)
    {m : ℕ} (hm : (∃ existing ∈ entry, existing.metric.toNat ≤ m) ∨ ∃ route ∈ routes, route.metric.toNat ≤ m) :
    ∃ r, routes.foldl (fun entry route => offer (valid route) route entry) entry = some r ∧
      r.metric.toNat ≤ m := by
  induction routes generalizing entry with
  | nil =>
    rcases hm with ⟨existing, he, hle⟩ | ⟨route, hr, -⟩
    · exact ⟨existing, he, hle⟩
    · simp at hr
  | cons route routes ih =>
    obtain ⟨r, ho, hroute, hentry⟩ := offer_valid_some (hv route List.mem_cons_self) entry
    apply ih (fun r hr => hv r (List.mem_cons_of_mem route hr))
    rcases hm with ⟨existing, he, hle⟩ | ⟨r', hr', hle⟩
    · exact Or.inl ⟨r, ho, (hentry existing he).trans hle⟩
    · rcases List.mem_cons.mp hr' with rfl | hr'
      · exact Or.inl ⟨r, ho, hroute.trans hle⟩
      · exact Or.inr ⟨r', hr', hle⟩

theorem offers_installed {route : RouteEntry} (hv : valid route = true)
    (hall : ∀ r ∈ routes, valid r = true) (hs : ∀ existing ∈ entry, Supersedes route existing) :
    ∃ r, (route :: routes).foldl (fun entry route => offer (valid route) route entry) entry = some r ∧
      r ∈ route :: routes := by
  have hfirst : offer (valid route) route entry = some route := by
    cases entry with
    | none => simp [offer, hv]
    | some existing => simp [offer, hv, hs existing rfl]
  obtain ⟨r, hr, -⟩ := offers_least (m := route.metric.toNat) hall
    (Or.inl ⟨route, Option.mem_some_self route, le_refl _⟩)
  refine ⟨r, by rw [List.foldl_cons, hfirst, hr], ?_⟩
  rcases offers_origin r hr with h | ⟨h, -⟩
  · obtain rfl := Option.some.inj h
    exact List.mem_cons_self
  · exact List.mem_cons_of_mem route h

end Entry

variable {κ : Type} [IpNetwork] [NetRoute κ]

def directRoute (name : String) (info : InterfaceInfo) : RouteEntry :=
  { destination := info.network, nextHop := .new 0 0 0 0, interface := name, metric := 0, source := .direct }

/-- The host's interfaces are read once for the router's own and once for the table's local networks. -/
def new (id : String) (hosts hostsAtTable : List NetworkInterface) (interfaceNames : List String)
    (routeHandle : κ) : Except String (Router κ) :=
  match Network.discoverInterfaces hosts interfaceNames with
  | .error e => .error e
  | .ok interfaces => .ok
    { id := id, interfaces := interfaces,
      routingTable := interfaces.entries.foldl (fun table e => table.addRoute (directRoute e.1 e.2))
        (RoutingTable.new routeHandle hostsAtTable) }

def updateRoute (table : RoutingTable κ) (route : RouteEntry) : RoutingTable κ :=
  if !table.hasBetterRoute route then
    match table.findRoute route.destination with
    | some existing =>
      if existing.metric = route.metric ∧ existing.nextHop ≠ route.nextHop then table.replaceRoute route
      else table.addRoute route
    | none => table.addRoute route
  else table

def updateRoutingTable (router : Router κ) (newRoutes : List RouteEntry) : Router κ :=
  { router with routingTable := newRoutes.foldl updateRoute router.routingTable }

theorem updateRoute_distinct {t : RoutingTable κ} (ht : t.Distinct) (route : RouteEntry) :
    (updateRoute t route).Distinct := by
  unfold updateRoute
  split
  · split
    · split
      · exact RoutingTable.replaceRoute_distinct ht route
      · exact RoutingTable.addRoute_distinct ht route
    · exact RoutingTable.addRoute_distinct ht route
  · exact ht

@[simp] theorem updateRoute_localNetworks (t : RoutingTable κ) (route : RouteEntry) :
    (updateRoute t route).localNetworks = t.localNetworks := by
  unfold updateRoute
  split
  · split
    · split <;> simp
    · simp
  · rfl

theorem findRoute_updateRoute {t : RoutingTable κ} (ht : t.Distinct) (route : RouteEntry) (d : Ipv4Network) :
    (updateRoute t route).findRoute d =
      if route.destination = d then offer (t.isValidRoute route) route (t.findRoute d) else t.findRoute d := by
  by_cases hd : route.destination = d
  · subst hd
    rw [if_pos rfl]
    unfold updateRoute RoutingTable.hasBetterRoute
    cases he : t.findRoute route.destination with
    | none => simp [RoutingTable.findRoute_addRoute, he, offer]
    | some existing =>
      by_cases hlt : existing.metric < route.metric
      · have hs : ¬ Supersedes route existing := by
          unfold Supersedes
          simp only [UInt32.lt_iff_toNat_lt, ← UInt32.toNat_inj] at hlt ⊢
          omega
        simp [hlt, offer, hs, he]
      · by_cases heq : existing.metric = route.metric
        · by_cases hnh : existing.nextHop = route.nextHop
          · have hs : ¬ Supersedes route existing := by simp [Supersedes, heq, hnh]
            have hu : ¬ RoutingTable.Updates route existing := by simp [RoutingTable.Updates, heq, hnh]
            simp [heq, hnh, offer, hs, RoutingTable.findRoute_addRoute, he, hu]
          · have hs : Supersedes route existing := Or.inr ⟨heq.symm, fun h => hnh h.symm⟩
            simp [heq, hnh, offer, hs, RoutingTable.findRoute_replaceRoute ht]
        · have hgt : route.metric < existing.metric := by
            simp only [UInt32.lt_iff_toNat_lt, ← UInt32.toNat_inj] at hlt heq ⊢
            omega
          have hs : Supersedes route existing := Or.inl hgt
          have hu : RoutingTable.Updates route existing := Or.inl hgt
          have hne : route.metric ≠ existing.metric := fun h => heq h.symm
          simp [hlt, heq, offer, hs, RoutingTable.findRoute_addRoute, he, hu, hne]
  · rw [if_neg hd]
    unfold updateRoute
    split
    · split
      · split
        · rw [RoutingTable.findRoute_replaceRoute ht, if_neg hd]
        · rw [RoutingTable.findRoute_addRoute, if_neg (fun hc => hd hc.1)]
      · rw [RoutingTable.findRoute_addRoute, if_neg (fun hc => hd hc.1)]
    · rfl

theorem updateRoutes_localNetworks (t : RoutingTable κ) (routes : List RouteEntry) :
    (routes.foldl updateRoute t).localNetworks = t.localNetworks := by
  induction routes generalizing t with
  | nil => rfl
  | cons route routes ih => rw [List.foldl_cons, ih, updateRoute_localNetworks]

theorem updateRoutes_distinct {t : RoutingTable κ} (ht : t.Distinct) (routes : List RouteEntry) :
    (routes.foldl updateRoute t).Distinct := by
  induction routes generalizing t with
  | nil => exact ht
  | cons route routes ih => exact ih (updateRoute_distinct ht route)

theorem findRoute_updateRoutes {t : RoutingTable κ} (ht : t.Distinct) (routes : List RouteEntry) (d : Ipv4Network) :
    (routes.foldl updateRoute t).findRoute d =
      (routes.filter (fun route => route.destination = d)).foldl
        (fun entry route => offer (t.isValidRoute route) route entry) (t.findRoute d) := by
  induction routes generalizing t with
  | nil => rfl
  | cons route routes ih =>
    have hvalid (r : RouteEntry) : (updateRoute t route).isValidRoute r = t.isValidRoute r :=
      RoutingTable.isValidRoute_congr (updateRoute_localNetworks t route) r
    rw [List.foldl_cons, ih (updateRoute_distinct ht route), findRoute_updateRoute ht]
    simp only [hvalid]
    by_cases hd : route.destination = d <;> simp [hd]

theorem new_ok {id : String} {hosts hostsAtTable : List NetworkInterface} {names : List String} {handle : κ}
    {router : Router κ} (h : new id hosts hostsAtTable names handle = .ok router) :
    ∃ interfaces, Network.discoverInterfaces hosts names = .ok interfaces ∧ router =
      ⟨id, interfaces, interfaces.entries.foldl (fun table e => table.addRoute (directRoute e.1 e.2))
        (RoutingTable.new handle hostsAtTable)⟩ := by
  unfold new at h
  split at h
  · cases h
  · next interfaces hi => exact ⟨interfaces, hi, (Except.ok.inj h).symm⟩

theorem addDirectRoute_cases {t : RoutingTable κ}
    (hdir : ∀ r ∈ t.routes, ∃ name info, r = directRoute name info) (name : String) (info : InterfaceInfo) :
    (t.addRoute (directRoute name info) = t ∧ ∃ r ∈ t.routes, r.destination = info.network) ∨
      t.addRoute (directRoute name info) =
        ⟨t.routes ++ [directRoute name info], t.routeHandle, t.localNetworks⟩ := by
  have hno : ∀ r ∈ t.routes, ¬ RoutingTable.Updates (directRoute name info) r := by
    intro r hr
    obtain ⟨name', info', rfl⟩ := hdir r hr
    simp [RoutingTable.Updates, directRoute]
  rcases RoutingTable.addRoute_cases t (directRoute name info) with
    ⟨h, hv | ⟨r, hr, -⟩⟩ | ⟨-, index, -, hu, -⟩ | ⟨-, -, h⟩
  · rw [RoutingTable.isValidRoute_direct rfl] at hv
    cases hv
  · exact Or.inl ⟨h, r, RoutingTable.findRoute_mem hr, RoutingTable.findRoute_destination hr⟩
  · exact absurd hu (hno _ (List.get_mem _ _))
  · exact Or.inr h

theorem addDirectRoutes_spec (entries : List (Σ _ : String, InterfaceInfo)) {t : RoutingTable κ}
    (ht : t.Distinct) (hdir : ∀ r ∈ t.routes, ∃ name info, r = directRoute name info) :
    let t' := entries.foldl (fun table e => table.addRoute (directRoute e.1 e.2)) t
    t'.Distinct ∧ t'.localNetworks = t.localNetworks ∧ t'.routeHandle = t.routeHandle ∧
      (∀ r ∈ t'.routes, r ∈ t.routes ∨ ∃ e ∈ entries, r = directRoute e.1 e.2) ∧
      (∀ r ∈ t.routes, r ∈ t'.routes) ∧ ∀ e ∈ entries, ∃ r ∈ t'.routes, r.destination = e.2.network := by
  induction entries generalizing t with
  | nil => exact ⟨ht, rfl, rfl, fun r hr => Or.inl hr, fun r hr => hr, by simp⟩
  | cons e entries ih =>
    have hd := RoutingTable.addRoute_distinct ht (directRoute e.1 e.2)
    rcases addDirectRoute_cases hdir e.1 e.2 with ⟨h, r, hr, hre⟩ | h
    · obtain ⟨h1, h2, h3, h4, h5, h6⟩ := ih ht hdir
      simp only [List.foldl_cons, h]
      refine ⟨h1, h2, h3, ?_, h5, ?_⟩
      · intro r' hr'
        rcases h4 r' hr' with hr' | ⟨e', he', rfl⟩
        · exact Or.inl hr'
        · exact Or.inr ⟨e', List.mem_cons_of_mem e he', rfl⟩
      · intro e' he'
        rcases List.mem_cons.mp he' with rfl | he'
        · exact ⟨r, h5 r hr, hre⟩
        · exact h6 e' he'
    · rw [h] at hd
      have hdir' : ∀ r ∈ t.routes ++ [directRoute e.1 e.2], ∃ name info, r = directRoute name info := by
        intro r hr
        rcases List.mem_append.mp hr with hr | hr
        · exact hdir r hr
        · exact ⟨e.1, e.2, List.mem_singleton.mp hr⟩
      obtain ⟨h1, h2, h3, h4, h5, h6⟩ := ih hd hdir'
      simp only [List.foldl_cons, h]
      refine ⟨h1, h2, h3, ?_, fun r hr => h5 r (List.mem_append_left _ hr), ?_⟩
      · intro r' hr'
        rcases h4 r' hr' with hr' | ⟨e', he', rfl⟩
        · rcases List.mem_append.mp hr' with hr' | hr'
          · exact Or.inl hr'
          · exact Or.inr ⟨e, List.mem_cons_self, List.mem_singleton.mp hr'⟩
        · exact Or.inr ⟨e', List.mem_cons_of_mem e he', rfl⟩
      · intro e' he'
        rcases List.mem_cons.mp he' with rfl | he'
        · exact ⟨_, h5 _ (List.mem_append_right _ (List.mem_singleton_self _)), rfl⟩
        · exact h6 e' he'

end Router

end CustomOspf
