import CustomOspf.Router

/-!
Every change of the table takes single entries out and puts single entries in, each
with its kernel calls. What a property of tables and kernels needs is asked of these
two alone.
-/

namespace CustomOspf

/-- `entered` is asked of a route that the table has found valid. -/
structure EntryInvariant (κ : Type) [IpNetwork] [NetRoute κ] where
  entered : RouteEntry → Prop
  holds : (Ipv4Network → Option RouteEntry) → κ → Prop
  withdraw : ∀ find kernel d r, holds find kernel → find d = some r →
    holds (Function.update find d none) (RoutingTable.withdraw kernel r)
  announce : ∀ find kernel r, holds find kernel → entered r → find r.destination = none →
    holds (Function.update find r.destination (some r)) (RoutingTable.announce kernel r)

namespace EntryInvariant

variable {κ : Type} [IpNetwork] [NetRoute κ] (E : EntryInvariant κ) {t : RoutingTable κ}

structure Holds (t : RoutingTable κ) : Prop where
  distinct : t.Distinct
  entries : E.holds t.findRoute t.routeHandle

def Entered (t : RoutingTable κ) (route : RouteEntry) : Prop := t.isValidRoute route = true → E.entered route

variable {E}

theorem Entered.congr {t' : RoutingTable κ} {route : RouteEntry} (h : E.Entered t route)
    (hl : t'.localNetworks = t.localNetworks) : E.Entered t' route := by
  intro hv
  apply h
  rw [← RoutingTable.isValidRoute_congr hl]
  exact hv

theorem Holds.removeRoute (h : E.Holds t) (route : RouteEntry) : E.Holds (t.removeRoute route) := by
  refine ⟨RoutingTable.removeRoute_distinct h.distinct route, ?_⟩
  rcases RoutingTable.removeRoute_cases t route with ⟨-, he⟩ | ⟨index, hi, he⟩
  · rw [he]
    exact h.entries
  · have hfind : (t.removeRoute route).findRoute = Function.update t.findRoute route.destination none := by
      funext d
      rw [RoutingTable.findRoute_removeRoute h.distinct]
      by_cases hd : route.destination = d
      · subst hd
        rw [if_pos rfl, Function.update_self]
      · rw [if_neg hd, Function.update_of_ne (Ne.symm hd)]
    rw [hfind, he]
    exact E.withdraw _ _ _ _ h.entries (RoutingTable.findRoute_of_index hi)

theorem Holds.addRoute (h : E.Holds t) {route : RouteEntry} (hr : E.Entered t route) : E.Holds (t.addRoute route) := by
  refine ⟨RoutingTable.addRoute_distinct h.distinct route, ?_⟩
  have hfind (hv : t.isValidRoute route = true)
      (hall : ∀ existing ∈ t.findRoute route.destination, RoutingTable.Updates route existing) :
      (t.addRoute route).findRoute = Function.update t.findRoute route.destination (some route) := by
    funext d
    rw [RoutingTable.findRoute_addRoute]
    by_cases hd : route.destination = d
    · subst hd
      rw [if_pos ⟨rfl, hv, hall⟩, Function.update_self]
    · rw [if_neg (fun hc => hd hc.1), Function.update_of_ne (Ne.symm hd)]
  rcases RoutingTable.addRoute_cases t route with ⟨he, -⟩ | ⟨hv, index, hi, hu, he⟩ | ⟨hv, hi, he⟩
  · rw [he]
    exact h.entries
  · have hold := RoutingTable.findRoute_of_index hi
    rw [hfind hv (by rw [hold]; simpa using hu), he, ← Function.update_idem (a := route.destination) none]
    exact E.announce _ _ _ (E.withdraw _ _ _ _ h.entries hold) (hr hv) (Function.update_self _ _ _)
  · have hnone := RoutingTable.findRoute_of_no_index hi
    rw [hfind hv (by simp [hnone]), he]
    exact E.announce _ _ _ h.entries (hr hv) hnone

theorem Holds.updateRoute (h : E.Holds t) {route : RouteEntry} (hr : E.Entered t route) :
    E.Holds (Router.updateRoute t route) := by
  unfold Router.updateRoute
  split
  · split
    · split
      · rw [RoutingTable.replaceRoute_eq]
        exact (h.removeRoute route).addRoute (hr.congr (RoutingTable.removeRoute_localNetworks t route))
      · exact h.addRoute hr
    · exact h.addRoute hr
  · exact h

theorem Holds.updateRoutes (h : E.Holds t) {routes : List RouteEntry} (hr : ∀ r ∈ routes, E.Entered t r) :
    E.Holds (routes.foldl Router.updateRoute t) := by
  induction routes generalizing t with
  | nil => exact h
  | cons route routes ih =>
    apply ih (h.updateRoute (hr route List.mem_cons_self))
    intro r hm
    exact (hr r (List.mem_cons_of_mem route hm)).congr (Router.updateRoute_localNetworks t route)

theorem withdrawAll {removed : List RouteEntry} {find : Ipv4Network → Option RouteEntry} {kernel : κ}
    (h : E.holds find kernel) (hd : (removed.map RouteEntry.destination).Nodup)
    (hr : ∀ r ∈ removed, find r.destination = some r ∧ r.source = .protocol) :
    E.holds (fun d => if d ∈ removed.map RouteEntry.destination then none else find d)
      (removed.foldl (fun kernel r => RoutingTable.uninstall kernel (RoutingTable.systemRoute r)) kernel) := by
  induction removed generalizing find kernel with
  | nil => simpa using h
  | cons r rest ih =>
    obtain ⟨hnew, hd⟩ := List.nodup_cons.mp hd
    obtain ⟨hfound, hs⟩ := hr r List.mem_cons_self
    have hfirst := E.withdraw _ _ _ _ h hfound
    rw [RoutingTable.withdraw, if_pos (by simp [hs])] at hfirst
    have hstill : ∀ r' ∈ rest, Function.update find r.destination none r'.destination = some r' ∧
        r'.source = .protocol := by
      intro r' hr'
      have hne : r'.destination ≠ r.destination := by
        intro he
        rw [← he] at hnew
        exact hnew (List.mem_map_of_mem hr')
      rw [Function.update_of_ne hne]
      exact hr r' (List.mem_cons_of_mem r hr')
    have hrest := ih hfirst hd hstill
    rw [List.foldl_cons]
    convert hrest using 2 with d
    by_cases hdr : d = r.destination
    · subst hdr
      simp
    · simp [hdr]

theorem Holds.removeRoutesViaNexthop (h : E.Holds t) (nextHop : Ipv4Addr) :
    E.Holds (t.removeRoutesViaNexthop nextHop).1 := by
  have hd := RoutingTable.removeRoutesViaNexthop_distinct h.distinct nextHop
  refine ⟨hd, ?_⟩
  let removed := (t.routes.filter (fun r => decide (r.nextHop = nextHop ∧ r.source = .protocol))).reverse
  have hmem {r : RouteEntry} : r ∈ removed ↔ r ∈ t.routes ∧ r.nextHop = nextHop ∧ r.source = .protocol := by
    simp [removed]
  have hfound {r : RouteEntry} (hr : r ∈ t.routes) : t.findRoute r.destination = some r :=
    (RoutingTable.findRoute_iff h.distinct).mpr ⟨hr, rfl⟩
  have hnodup : (removed.map RouteEntry.destination).Nodup := by
    rw [List.map_reverse, List.nodup_reverse]
    exact h.distinct.sublist (List.filter_sublist.map _)
  have hall := withdrawAll h.entries hnodup (fun r hr => ⟨hfound (hmem.mp hr).1, (hmem.mp hr).2.2⟩)
  have hfind : (t.removeRoutesViaNexthop nextHop).1.findRoute = fun d =>
      if d ∈ removed.map RouteEntry.destination then none else t.findRoute d := by
    funext d
    ext r
    rw [RoutingTable.findRoute_iff hd, RoutingTable.mem_removeRoutesViaNexthop]
    split
    · next hgone =>
      obtain ⟨r', hr', rfl⟩ := List.mem_map.mp hgone
      refine iff_of_false ?_ (by simp)
      rintro ⟨⟨hr, hlive⟩, he⟩
      have hsame := hfound hr
      rw [he, hfound (hmem.mp hr').1] at hsame
      obtain rfl := Option.some.inj hsame
      exact hlive (hmem.mp hr').2
    · next hstays =>
      rw [RoutingTable.findRoute_iff h.distinct]
      refine and_congr_left ?_
      rintro rfl
      rw [and_iff_left_iff_imp]
      intro hr hdead
      exact hstays (List.mem_map_of_mem (hmem.mpr ⟨hr, hdead⟩))
  rw [hfind, RoutingTable.removeRoutesViaNexthop_eq]
  exact hall

/-- Of the entries a table leaves behind those not learned are no matter of the kernel's. -/
theorem Holds.drop (h : E.Holds t) :
    E.holds (fun d => (t.findRoute d).filter (fun r => r.source ≠ .protocol)) t.drop := by
  let learned := t.routes.filter (fun r => decide (r.source = .protocol))
  have hmem {r : RouteEntry} : r ∈ learned ↔ r ∈ t.routes ∧ r.source = .protocol := by
    simp [learned]
  have hfound {r : RouteEntry} (hr : r ∈ t.routes) : t.findRoute r.destination = some r :=
    (RoutingTable.findRoute_iff h.distinct).mpr ⟨hr, rfl⟩
  have hall := withdrawAll h.entries (h.distinct.sublist (List.filter_sublist.map _))
    (fun r hr => ⟨hfound (hmem.mp hr).1, (hmem.mp hr).2⟩)
  have hfind : (fun d => (t.findRoute d).filter (fun r => r.source ≠ .protocol)) = fun d =>
      if d ∈ learned.map RouteEntry.destination then none else t.findRoute d := by
    funext d
    split
    · next hgone =>
      obtain ⟨r, hr, rfl⟩ := List.mem_map.mp hgone
      simp [hfound (hmem.mp hr).1, (hmem.mp hr).2]
    · next hstays =>
      cases hr : t.findRoute d with
      | none => rfl
      | some r =>
        apply Option.filter_some_pos
        have hs : r.source ≠ .protocol := by
          intro hs
          rw [← RoutingTable.findRoute_destination hr] at hstays
          exact hstays (List.mem_map_of_mem (hmem.mpr ⟨RoutingTable.findRoute_mem hr, hs⟩))
        exact decide_eq_true hs
  rw [hfind, RoutingTable.drop_eq]
  exact hall

end EntryInvariant

end CustomOspf
