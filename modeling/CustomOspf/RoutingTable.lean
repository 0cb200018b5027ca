import CustomOspf.Addresses
import CustomOspf.Library.KeyedList

/-!
The routing table and the kernel calls it makes. The table swallows every
kernel error, so each operation ends in `Ok` and is a total function here.
-/

namespace CustomOspf

inductive RouteSource where
  | direct
  | protocol
  | static
deriving DecidableEq

structure RouteEntry where
  destination : Ipv4Network
  nextHop : Ipv4Addr
  interface : String
  metric : UInt32
  source : RouteSource
deriving DecidableEq

structure SystemRoute where
  destination : Ipv4Addr
  prefixLen : Fin 33
  gateway : Ipv4Addr
deriving DecidableEq

/-- The handle of the `net_route` crate: each call changes the kernel and reports success. -/
class NetRoute (κ : Type) where
  add : κ → SystemRoute → κ × Bool
  delete : κ → SystemRoute → κ × Bool

structure RoutingTable (κ : Type) where
  routes : List RouteEntry
  routeHandle : κ
  localNetworks : List Ipv4Network

namespace RoutingTable

variable {κ : Type}

def findRoute (t : RoutingTable κ) (destination : Ipv4Network) : Option RouteEntry :=
  t.routes.find? (fun route => route.destination = destination)

def findRouteIndex (t : RoutingTable κ) (destination : Ipv4Network) : Option (Fin t.routes.length) :=
  t.routes.findFinIdx? (fun route => route.destination = destination)

def hasBetterRoute (t : RoutingTable κ) (route : RouteEntry) : Bool :=
  match t.findRoute route.destination with
  | some existing => existing.metric < route.metric
  | none => false

def Distinct (t : RoutingTable κ) : Prop := KeyedList.Distinct RouteEntry.destination t.routes

theorem findRoute_destination {t : RoutingTable κ} {d : Ipv4Network} {route : RouteEntry}
    (h : t.findRoute d = some route) : route.destination = d := by
  simpa using List.find?_some h

theorem findRoute_mem {t : RoutingTable κ} {d : Ipv4Network} {route : RouteEntry}
    (h : t.findRoute d = some route) : route ∈ t.routes := List.mem_of_find?_eq_some h

theorem findRoute_iff {t : RoutingTable κ} (ht : t.Distinct) {d : Ipv4Network} {route : RouteEntry} :
    t.findRoute d = some route ↔ route ∈ t.routes ∧ route.destination = d := KeyedList.find_iff ht

theorem findRoute_eq_none {t : RoutingTable κ} {d : Ipv4Network} :
    t.findRoute d = none ↔ ∀ route ∈ t.routes, route.destination ≠ d := by
  simp [findRoute, List.find?_eq_none]

theorem findRoute_of_index {t : RoutingTable κ} {d : Ipv4Network} {index : Fin t.routes.length}
    (h : t.findRouteIndex d = some index) : t.findRoute d = some (t.routes.get index) :=
  KeyedList.find_of_position h

theorem findRoute_of_no_index {t : RoutingTable κ} {d : Ipv4Network} (h : t.findRouteIndex d = none) :
    t.findRoute d = none := KeyedList.find_of_no_position h

section Validation

variable [IpNetwork]

def isValidRoute (t : RoutingTable κ) (route : RouteEntry) : Bool :=
  if route.source = .direct then true
  else if route.nextHop.isLoopback then false
  else if route.nextHop.isUnspecified ∧ route.source ≠ .direct then false
  else if t.localNetworks.any (fun net =>
      route.destination.network = net.network ∧ route.destination.prefixLen = net.prefixLen) then false
  else if !route.nextHop.isUnspecified then t.localNetworks.any (fun net => net.contains route.nextHop)
  else true

theorem isValidRoute_congr {t t' : RoutingTable κ} (h : t.localNetworks = t'.localNetworks)
    (route : RouteEntry) : t.isValidRoute route = t'.isValidRoute route := by
  simp only [isValidRoute, h]

theorem isValidRoute_direct {t : RoutingTable κ} {route : RouteEntry} (hs : route.source = .direct) :
    t.isValidRoute route = true := by
  simp [isValidRoute, hs]

theorem isValidRoute_protocol {t : RoutingTable κ} {route : RouteEntry} (hs : route.source = .protocol) :
    t.isValidRoute route = true ↔
      route.nextHop.isLoopback = false ∧ route.nextHop.isUnspecified = false ∧
      (∀ net ∈ t.localNetworks, route.destination.subnet ≠ net.subnet) ∧
      ∃ net ∈ t.localNetworks, net.contains route.nextHop = true := by
  simp only [isValidRoute, hs, reduceCtorEq, if_false, ne_eq, Ipv4Network.subnet_eq_iff]
  cases hl : route.nextHop.isLoopback <;> cases hu : route.nextHop.isUnspecified <;> simp

end Validation

section Kernel

variable [IpNetwork] [NetRoute κ]

def systemRoute (route : RouteEntry) : SystemRoute :=
  ⟨route.destination.network, route.destination.prefixLen, route.nextHop⟩

/-- Add, and when that fails delete and add once more; the outcome of the second attempt is ignored. -/
def install (handle : κ) (route : SystemRoute) : κ :=
  match NetRoute.add handle route with
  | (handle, true) => handle
  | (handle, false) => (NetRoute.add (NetRoute.delete handle route).1 route).1

def uninstall (handle : κ) (route : SystemRoute) : κ := (NetRoute.delete handle route).1

def addSystemRoute (t : RoutingTable κ) (route : RouteEntry) : RoutingTable κ :=
  { t with routeHandle := install t.routeHandle (systemRoute route) }

def deleteSystemRoute (t : RoutingTable κ) (route : RouteEntry) : RoutingTable κ :=
  { t with routeHandle := uninstall t.routeHandle (systemRoute route) }

def addRoute (t : RoutingTable κ) (route : RouteEntry) : RoutingTable κ :=
  if !t.isValidRoute route then t
  else match t.findRouteIndex route.destination with
  | some index =>
    let existing := t.routes.get index
    if route.metric < existing.metric ∨
        (route.source = existing.source ∧ route.nextHop ≠ existing.nextHop) then
      let cleared := if existing.source ≠ .direct then t.deleteSystemRoute existing else t
      let updated : RoutingTable κ := { cleared with routes := t.routes.set index route }
      if route.source ≠ .direct then updated.addSystemRoute route else updated
    else t
  | none =>
    let pushed : RoutingTable κ := { t with routes := t.routes ++ [route] }
    if route.source ≠ .direct then pushed.addSystemRoute route else pushed

def removeRoute (t : RoutingTable κ) (route : RouteEntry) : RoutingTable κ :=
  match t.findRouteIndex route.destination with
  | some index =>
    let existing := t.routes.get index
    let cleared := if existing.source ≠ .direct then t.deleteSystemRoute existing else t
    { cleared with routes := t.routes.eraseIdx index }
  | none => t

def removeRoutesViaNexthop (t : RoutingTable κ) (nextHop : Ipv4Addr) : RoutingTable κ × List RouteEntry :=
  let indices := IndexedRemoval.positions
    (fun route : RouteEntry => route.nextHop = nextHop ∧ route.source = .protocol) t.routes
  let result := indices.reverse.foldl
    (IndexedRemoval.removeAt fun s route => (uninstall s.1 (systemRoute route), s.2 ++ [route]))
    (t.routes, t.routeHandle, [])
  ({ t with routes := result.1, routeHandle := result.2.1 }, result.2.2)

def replaceRoute (t : RoutingTable κ) (route : RouteEntry) : RoutingTable κ :=
  let emptied : RoutingTable κ := match t.findRouteIndex route.destination with
    | some index =>
      let existing := t.routes.get index
      let cleared := if existing.source ≠ .direct then t.deleteSystemRoute existing else t
      { cleared with routes := t.routes.eraseIdx index }
    | none => t
  emptied.addRoute route

def drop (t : RoutingTable κ) : κ :=
  t.routes.foldl (fun handle route =>
    if route.source = .protocol then uninstall handle (systemRoute route) else handle) t.routeHandle

@[simp] theorem addSystemRoute_routes (t : RoutingTable κ) (route : RouteEntry) :
    (t.addSystemRoute route).routes = t.routes := rfl

@[simp] theorem addSystemRoute_localNetworks (t : RoutingTable κ) (route : RouteEntry) :
    (t.addSystemRoute route).localNetworks = t.localNetworks := rfl

@[simp] theorem deleteSystemRoute_routes (t : RoutingTable κ) (route : RouteEntry) :
    (t.deleteSystemRoute route).routes = t.routes := rfl

@[simp] theorem deleteSystemRoute_localNetworks (t : RoutingTable κ) (route : RouteEntry) :
    (t.deleteSystemRoute route).localNetworks = t.localNetworks := rfl

def Updates (route existing : RouteEntry) : Prop :=
  route.metric < existing.metric ∨ (route.source = existing.source ∧ route.nextHop ≠ existing.nextHop)

instance (route existing : RouteEntry) : Decidable (Updates route existing) :=
  inferInstanceAs (Decidable (_ ∨ _))

def announce (handle : κ) (route : RouteEntry) : κ :=
  if route.source ≠ .direct then install handle (systemRoute route) else handle

def withdraw (handle : κ) (route : RouteEntry) : κ :=
  if route.source ≠ .direct then uninstall handle (systemRoute route) else handle

theorem addRoute_cases (t : RoutingTable κ) (route : RouteEntry) :
    (t.addRoute route = t ∧ (t.isValidRoute route = false ∨
      ∃ existing, t.findRoute route.destination = some existing ∧ ¬ Updates route existing)) ∨
    (t.isValidRoute route = true ∧ ∃ index, t.findRouteIndex route.destination = some index ∧
      Updates route (t.routes.get index) ∧ t.addRoute route = ⟨t.routes.set index route,
        announce (withdraw t.routeHandle (t.routes.get index)) route, t.localNetworks⟩) ∨
    (t.isValidRoute route = true ∧ t.findRouteIndex route.destination = none ∧
      t.addRoute route = ⟨t.routes ++ [route], announce t.routeHandle route, t.localNetworks⟩) := by
  unfold addRoute
  cases hv : t.isValidRoute route with
  | false => exact Or.inl ⟨by simp, Or.inl rfl⟩
  | true =>
    simp only [Bool.not_true, Bool.false_eq_true, if_false]
    cases hi : t.findRouteIndex route.destination with
    | none =>
      refine Or.inr (Or.inr ⟨trivial, rfl, ?_⟩)
      by_cases hs : route.source = .direct <;> simp [hs, announce, addSystemRoute]
    | some index =>
      by_cases hu : Updates route (t.routes.get index)
      · refine Or.inr (Or.inl ⟨trivial, index, rfl, hu, ?_⟩)
        unfold Updates at hu
        dsimp only
        rw [if_pos hu]
        by_cases hs : route.source = .direct <;> by_cases he : (t.routes.get index).source = .direct <;>
          simp only [hs, he, ne_eq, not_true_eq_false, not_false_eq_true, if_true, if_false, announce,
            withdraw, addSystemRoute, deleteSystemRoute]
      · refine Or.inl ⟨?_, Or.inr ⟨_, findRoute_of_index hi, hu⟩⟩
        exact if_neg hu

theorem addRoute_of_invalid {t : RoutingTable κ} {route : RouteEntry} (h : t.isValidRoute route = false) :
    t.addRoute route = t := by
  simp [addRoute, h]

theorem removeRoute_cases (t : RoutingTable κ) (route : RouteEntry) :
    (t.findRouteIndex route.destination = none ∧ t.removeRoute route = t) ∨
    ∃ index, t.findRouteIndex route.destination = some index ∧
      t.removeRoute route = ⟨t.routes.eraseIdx index,
        withdraw t.routeHandle (t.routes.get index), t.localNetworks⟩ := by
  unfold removeRoute
  cases hi : t.findRouteIndex route.destination with
  | none => exact Or.inl ⟨rfl, rfl⟩
  | some index =>
    refine Or.inr ⟨index, rfl, ?_⟩
    by_cases he : (t.routes.get index).source = .direct <;>
      simp only [he, ne_eq, not_true_eq_false, not_false_eq_true, if_true, if_false, withdraw, deleteSystemRoute]

theorem replaceRoute_eq (t : RoutingTable κ) (route : RouteEntry) :
    t.replaceRoute route = (t.removeRoute route).addRoute route := rfl

@[simp] theorem addRoute_localNetworks (t : RoutingTable κ) (route : RouteEntry) :
    (t.addRoute route).localNetworks = t.localNetworks := by
  rcases addRoute_cases t route with ⟨h, -⟩ | ⟨-, index, -, -, h⟩ | ⟨-, -, h⟩ <;> rw [h]

@[simp] theorem removeRoute_localNetworks (t : RoutingTable κ) (route : RouteEntry) :
    (t.removeRoute route).localNetworks = t.localNetworks := by
  rcases removeRoute_cases t route with ⟨-, h⟩ | ⟨index, -, h⟩ <;> rw [h]

@[simp] theorem replaceRoute_localNetworks (t : RoutingTable κ) (route : RouteEntry) :
    (t.replaceRoute route).localNetworks = t.localNetworks := by simp [replaceRoute_eq]

theorem addRoute_distinct {t : RoutingTable κ} (ht : t.Distinct) (route : RouteEntry) :
    (t.addRoute route).Distinct := by
  rcases addRoute_cases t route with ⟨h, -⟩ | ⟨-, index, hi, -, h⟩ | ⟨-, hi, h⟩
  · rw [h]; exact ht
  · rw [h]; exact KeyedList.Distinct.set ht hi
  · rw [h]; exact KeyedList.Distinct.append_new ht (findRoute_of_no_index hi)

theorem removeRoute_distinct {t : RoutingTable κ} (ht : t.Distinct) (route : RouteEntry) :
    (t.removeRoute route).Distinct := by
  rcases removeRoute_cases t route with ⟨-, h⟩ | ⟨index, -, h⟩
  · rw [h]; exact ht
  · rw [h]; exact KeyedList.Distinct.eraseIdx ht index

theorem replaceRoute_distinct {t : RoutingTable κ} (ht : t.Distinct) (route : RouteEntry) :
    (t.replaceRoute route).Distinct := addRoute_distinct (removeRoute_distinct ht route) route

theorem findRoute_addRoute (t : RoutingTable κ) (route : RouteEntry) (d : Ipv4Network) :
    (t.addRoute route).findRoute d =
      if route.destination = d ∧ t.isValidRoute route = true ∧ ∀ existing ∈ t.findRoute d, Updates route existing
      then some route else t.findRoute d := by
  rcases addRoute_cases t route with ⟨h, hno⟩ | ⟨hv, index, hi, hu, h⟩ | ⟨hv, hi, h⟩
  · rw [h, if_neg]
    rintro ⟨rfl, hv, hall⟩
    rcases hno with hv' | ⟨existing, he, hu⟩
    · rw [hv] at hv'
      cases hv'
    · exact hu (hall existing he)
  · rw [h]
    unfold findRoute
    rw [KeyedList.find_set hi]
    by_cases hd : route.destination = d
    · subst hd
      rw [if_pos rfl, if_pos]
      refine ⟨rfl, hv, ?_⟩
      intro existing he
      obtain rfl := Option.some.inj ((findRoute_of_index hi).symm.trans he)
      exact hu
    · rw [if_neg hd, if_neg (fun hc => hd hc.1)]
  · rw [h]
    unfold findRoute
    rw [KeyedList.find_append_new (findRoute_of_no_index hi)]
    by_cases hd : route.destination = d
    · subst hd
      rw [if_pos rfl, if_pos]
      refine ⟨rfl, hv, ?_⟩
      intro existing he
      cases (findRoute_of_no_index hi).symm.trans he
    · rw [if_neg hd, if_neg (fun hc => hd hc.1)]

theorem findRoute_removeRoute {t : RoutingTable κ} (ht : t.Distinct) (route : RouteEntry) (d : Ipv4Network) :
    (t.removeRoute route).findRoute d = if route.destination = d then none else t.findRoute d := by
  rcases removeRoute_cases t route with ⟨hi, h⟩ | ⟨index, hi, h⟩
  · rw [h]
    by_cases hd : route.destination = d
    · subst hd
      rw [if_pos rfl, findRoute_of_no_index hi]
    · rw [if_neg hd]
  · rw [h]
    exact KeyedList.find_eraseIdx ht hi d

/-- A forced replacement empties the entry of its destination when the new route is not valid. -/
theorem findRoute_replaceRoute {t : RoutingTable κ} (ht : t.Distinct) (route : RouteEntry) (d : Ipv4Network) :
    (t.replaceRoute route).findRoute d =
      if route.destination = d then (if t.isValidRoute route = true then some route else none)
      else t.findRoute d := by
  have hvalid : (t.removeRoute route).isValidRoute route = t.isValidRoute route :=
    isValidRoute_congr (removeRoute_localNetworks t route) route
  rw [replaceRoute_eq, findRoute_addRoute, findRoute_removeRoute ht, hvalid]
  by_cases hd : route.destination = d
  · simp [hd]
  · simp [hd]

theorem removeRoutesViaNexthop_eq (t : RoutingTable κ) (nextHop : Ipv4Addr) :
    let dead := fun route : RouteEntry => decide (route.nextHop = nextHop ∧ route.source = .protocol)
    t.removeRoutesViaNexthop nextHop =
      (⟨t.routes.filter (fun route => !dead route),
        (t.routes.filter dead).reverse.foldl (fun handle route => uninstall handle (systemRoute route)) t.routeHandle,
        t.localNetworks⟩, (t.routes.filter dead).reverse) := by
  have hpair (l : List RouteEntry) (handle : κ) (removed : List RouteEntry) :
      l.foldl (fun s route => (uninstall s.1 (systemRoute route), s.2 ++ [route])) (handle, removed) =
        (l.foldl (fun handle route => uninstall handle (systemRoute route)) handle, removed ++ l) := by
    induction l generalizing handle removed with
    | nil => simp
    | cons route l ih => simp [ih]
  simp only [removeRoutesViaNexthop, IndexedRemoval.removeAt_positions, hpair, List.nil_append]

theorem drop_eq (t : RoutingTable κ) :
    t.drop = (t.routes.filter (fun r => r.source = .protocol)).foldl
      (fun handle r => uninstall handle (systemRoute r)) t.routeHandle := by
  have hfold (routes : List RouteEntry) (handle : κ) :
      routes.foldl (fun handle r => if r.source = .protocol then uninstall handle (systemRoute r) else handle) handle =
        (routes.filter (fun r => r.source = .protocol)).foldl
          (fun handle r => uninstall handle (systemRoute r)) handle := by
    induction routes generalizing handle with
    | nil => rfl
    | cons r routes ih => by_cases hs : r.source = .protocol <;> simp [hs, ih]
  exact hfold t.routes t.routeHandle

theorem removeRoutesViaNexthop_distinct {t : RoutingTable κ} (ht : t.Distinct) (nextHop : Ipv4Addr) :
    (t.removeRoutesViaNexthop nextHop).1.Distinct := by
  rw [removeRoutesViaNexthop_eq]
  exact ht.sublist (List.filter_sublist.map _)

@[simp] theorem removeRoutesViaNexthop_localNetworks (t : RoutingTable κ) (nextHop : Ipv4Addr) :
    (t.removeRoutesViaNexthop nextHop).1.localNetworks = t.localNetworks := rfl

theorem mem_removeRoutesViaNexthop {t : RoutingTable κ} {nextHop : Ipv4Addr} {route : RouteEntry} :
    route ∈ (t.removeRoutesViaNexthop nextHop).1.routes ↔
      route ∈ t.routes ∧ ¬ (route.nextHop = nextHop ∧ route.source = .protocol) := by
  rw [removeRoutesViaNexthop_eq, List.mem_filter]
  simp only [Bool.not_eq_true', decide_eq_false_iff_not]

end Kernel

end RoutingTable

end CustomOspf
