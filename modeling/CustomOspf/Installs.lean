import CustomOspf.Handlers
import CustomOspf.Kernel

/-!
What `add_route` and `replace_route` leave in a table and in the kernel, whatever
they held before. Both end in `Ok` on every outcome.
-/

namespace CustomOspf

namespace Kernel

open LawfulNetRoute
open RoutingTable (systemRoute install announce Updates)

section Installs

variable {κ : Type}

def Enters (t : RoutingTable κ) (route : RouteEntry) : Prop :=
  ∀ existing ∈ t.findRoute route.destination, Updates route existing

variable [IpNetwork] [NetRoute κ] [LawfulNetRoute κ] [DeletesNetwork κ]

/-- A route that enters the table gets past whatever the kernel has of its network. For one that the table keeps
out, or holds already, the kernel is not called. -/
theorem addRoute_installs {t t' : RoutingTable κ} {route : RouteEntry}
    (hvalid : t.isValidRoute route = true) (hsource : route.source ≠ .direct)
    (hok : t.addRouteChecked route = .returned t') :
    (Enters t route → route ∈ t'.routes ∧
      (⟨route.destination.network, route.destination.prefixLen, route.nextHop⟩ ∈ held t'.routeHandle ↔
        Takes t.routeHandle (systemRoute route))) ∧
    (¬ Enters t route → t' = t) := by
  rw [RoutingTable.addRouteChecked_eq] at hok
  obtain rfl := Checked.returned.inj hok
  change (_ → route ∈ (t.addRoute route).routes ∧ (systemRoute route ∈ held (t.addRoute route).routeHandle ↔ _)) ∧ _
  have hannounce (kernel : κ) : announce kernel route = install kernel (systemRoute route) := if_pos hsource
  have hwithdraw (existing : RouteEntry) : Takes (RoutingTable.withdraw t.routeHandle existing) = Takes t.routeHandle := by
    unfold RoutingTable.withdraw
    split
    · exact takes_uninstall
    · rfl
  rcases RoutingTable.addRoute_cases t route with ⟨h, hno⟩ | ⟨-, index, hi, hu, h⟩ | ⟨-, hi, h⟩
  · refine ⟨fun henters => ?_, fun _ => h⟩
    rcases hno with hv | ⟨existing, he, hu⟩
    · rw [hvalid] at hv
      cases hv
    · exact absurd (henters existing he) hu
  · have henters : Enters t route := by
      intro existing he
      obtain rfl := Option.some.inj ((RoutingTable.findRoute_of_index hi).symm.trans he)
      exact hu
    refine ⟨fun _ => ?_, fun hkept => absurd henters hkept⟩
    rw [h, hannounce, mem_install_self, hwithdraw]
    exact ⟨List.mem_set index.isLt route, Iff.rfl⟩
  · have henters : Enters t route := by
      intro existing he
      rw [RoutingTable.findRoute_of_no_index hi] at he
      cases he
    refine ⟨fun _ => ?_, fun hkept => absurd henters hkept⟩
    rw [h, hannounce, mem_install_self]
    exact ⟨List.mem_append_right t.routes (List.mem_singleton_self route), Iff.rfl⟩

end Installs

/-! Routes to 10.2.0.0/24 on 10.0.0.0/24. -/

def onLan {κ : Type} (routes : List RouteEntry) (handle : κ) : RoutingTable κ :=
  ⟨routes, handle, [⟨.new 10 0 0 1, 24⟩]⟩

def routeVia (gateway : Ipv4Addr) (metric : UInt32) : RouteEntry :=
  ⟨⟨.new 10 2 0 0, 24⟩, gateway, "eth0", metric, .protocol⟩

theorem addRoute_installs_witness :
    let t := onLan [] (⟨{⟨.new 10 2 0 0, 24, .new 10 0 0 254⟩}, {.new 10 0 0 255}⟩ : MainTable)
    let route := routeVia (.new 10 0 0 2) 1
    route ∈ (t.addRoute route).routes ∧ ⟨.new 10 2 0 0, 24, .new 10 0 0 2⟩ ∈ held (t.addRoute route).routeHandle := by
  intro t route
  have hnetwork : route.destination.network = .new 10 2 0 0 := by decide +kernel
  have hvalid : t.isValidRoute route = true := by decide +kernel
  have henters : Enters t route := fun existing he => by cases he
  have htakes : Takes t.routeHandle (systemRoute route) := by
    change (Ipv4Addr.new 10 0 0 2) ∉ ({.new 10 0 0 255} : Finset Ipv4Addr)
    decide
  obtain ⟨hmem, hheld⟩ :=
    (addRoute_installs hvalid (by decide) (RoutingTable.addRouteChecked_eq t route)).1 henters
  rw [hnetwork] at hheld
  exact ⟨hmem, hheld.mpr htakes⟩

/-- The table has the route and the kernel has lost it. -/
theorem addRoute_installs_fails :
    (¬ ∀ (t t' : RoutingTable (Finset SystemRoute)) (route : RouteEntry), t.isValidRoute route = true →
      route.source ≠ .direct → t.addRouteChecked route = .returned t' → route ∈ t'.routes →
        ⟨route.destination.network, route.destination.prefixLen, route.nextHop⟩ ∈ t'.routeHandle) ∧
    ¬ ∀ (t t' : RoutingTable MainTable) (route : RouteEntry), t.isValidRoute route = true →
      route.source ≠ .direct → t.addRouteChecked route = .returned t' → route ∈ t'.routes →
        ⟨route.destination.network, route.destination.prefixLen, route.nextHop⟩ ∈ t'.routeHandle.routes := by
  let route := routeVia (.new 10 0 0 2) 1
  constructor
  · intro h
    let t := onLan [route] (∅ : Finset SystemRoute)
    have hinstalled := h t (t.addRoute route) route (by decide +kernel) (by decide)
      (RoutingTable.addRouteChecked_eq t route) (by decide +kernel)
    revert hinstalled
    decide +kernel
  · intro h
    let t := onLan [route] (⟨∅, ∅⟩ : MainTable)
    have hinstalled := h t (t.addRoute route) route (by decide +kernel) (by decide)
      (RoutingTable.addRouteChecked_eq t route) (by decide +kernel)
    revert hinstalled
    decide +kernel

end Kernel

namespace RoutingTable

section Replacement

variable {κ : Type} [IpNetwork] [NetRoute κ]

/-- Either the table holds the given route and no other for its destination, or nothing has changed. -/
def Replaced (t t' : RoutingTable κ) (route : RouteEntry) : Prop :=
  (route ∈ t'.routes ∧ ∀ r ∈ t'.routes, r.destination = route.destination → r = route) ∨
    (t.isValidRoute route = false ∧ t' = t)

def LosesNone (t t' : RoutingTable κ) : Prop :=
  ∀ r ∈ t.routes, ∃ r' ∈ t'.routes, r'.destination = r.destination

theorem removeRoute_of_absent {t : RoutingTable κ} {route : RouteEntry}
    (h : ∀ r ∈ t.routes, r.destination ≠ route.destination) : t.removeRoute route = t := by
  rcases removeRoute_cases t route with ⟨-, he⟩ | ⟨index, hi, -⟩
  · exact he
  · have hex := findRoute_of_index hi
    exact absurd (findRoute_destination hex) (h _ (findRoute_mem hex))

theorem replaceRoute_keeps {t t' : RoutingTable κ} (ht : t.Distinct) {route : RouteEntry}
    (hok : t.replaceRouteChecked route = .returned t') :
    (Replaced t t' route ∧ LosesNone t t') ↔
      t.isValidRoute route = true ∨ ∀ r ∈ t.routes, r.destination ≠ route.destination := by
  rw [replaceRouteChecked_eq] at hok
  obtain rfl := Checked.returned.inj hok
  have hd := replaceRoute_distinct ht route
  have hfind := findRoute_replaceRoute ht route
  cases hv : t.isValidRoute route with
  | true =>
    have hnew : (t.replaceRoute route).findRoute route.destination = some route := by simp [hfind, hv]
    refine iff_of_true ⟨Or.inl ⟨findRoute_mem hnew, ?_⟩, ?_⟩ (Or.inl rfl)
    · intro r hr he
      have hr' := (findRoute_iff hd).mpr ⟨hr, he⟩
      exact Option.some.inj (hr'.symm.trans hnew)
    · intro r hr
      by_cases he : route.destination = r.destination
      · exact ⟨route, findRoute_mem hnew, he⟩
      · have hkept : (t.replaceRoute route).findRoute r.destination = some r := by
          rw [hfind, if_neg he]
          exact (findRoute_iff ht).mpr ⟨hr, rfl⟩
        exact ⟨r, findRoute_mem hkept, rfl⟩
  | false =>
    have hgone : (t.replaceRoute route).findRoute route.destination = none := by simp [hfind, hv]
    constructor
    · rintro ⟨-, hloses⟩
      refine Or.inr fun r hr he => ?_
      obtain ⟨r', hr', he'⟩ := hloses r hr
      exact findRoute_eq_none.mp hgone r' hr' (he'.trans he)
    · rintro (hvalid | habsent)
      · cases hvalid
      · have hsame : t.replaceRoute route = t := by
          rw [replaceRoute_eq, removeRoute_of_absent habsent, addRoute_of_invalid hv]
        rw [hsame]
        exact ⟨Or.inr ⟨hv, rfl⟩, fun r hr => ⟨r, hr, rfl⟩⟩

end Replacement

open Kernel (onLan routeVia)

theorem replaceRoute_keeps_witness :
    let t := onLan [routeVia (.new 10 0 0 3) 1] ({⟨.new 10 2 0 0, 24, .new 10 0 0 3⟩} : Finset SystemRoute)
    let route := routeVia (.new 10 0 0 2) 1
    (Replaced t (t.replaceRoute route) route ∧ LosesNone t (t.replaceRoute route)) ↔
      t.isValidRoute route = true ∨ ∀ r ∈ t.routes, r.destination ≠ route.destination := by
  intro t route
  exact replaceRoute_keeps (t := t) (List.nodup_singleton _) (replaceRouteChecked_eq t route)

/-- The new gateway is in no local network, and the old route is gone. -/
theorem replaceRoute_keeps_fails :
    ¬ ∀ (t t' : RoutingTable (Finset SystemRoute)) (route : RouteEntry), t.Distinct →
      t.replaceRouteChecked route = .returned t' → Replaced t t' route ∧ LosesNone t t' := by
  intro h
  let t := onLan [routeVia (.new 10 0 0 3) 1] ({⟨.new 10 2 0 0, 24, .new 10 0 0 3⟩} : Finset SystemRoute)
  obtain ⟨-, hloses⟩ := h t (t.replaceRoute (routeVia (.new 192 168 9 9) 1)) (routeVia (.new 192 168 9 9) 1)
    (List.nodup_singleton _) (replaceRouteChecked_eq t _)
  obtain ⟨r, hr, -⟩ := hloses (routeVia (.new 10 0 0 3) 1) List.mem_cons_self
  have hempty : (t.replaceRoute (routeVia (.new 192 168 9 9) 1)).routes = [] := by decide +kernel
  rw [hempty] at hr
  cases hr

end RoutingTable

end CustomOspf
