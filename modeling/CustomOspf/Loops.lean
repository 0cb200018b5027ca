import CustomOspf.Distances

/-!
How far metrics can grow, and when routers forward in a circle. Both depend on
how often routers have lost what they held for the network.
-/

namespace CustomOspf.System

open SimpleRoutingProtocol

section Runs

variable {ι κ : Type} [DecidableEq ι] [IpNetwork] [NetRoute κ] {start : ι → SimpleRoutingProtocol κ}

def CountBounded [Fintype ι] (s : System ι κ) : Prop :=
  ∀ i, ∀ r ∈ (s.nodes i).router.routingTable.routes, r.source = .protocol → r.metric.toNat ≤ Fintype.card ι - 1

def LoopFree (s : System ι κ) : Prop :=
  ∀ d i k, i ≠ k → Relation.TransGen (Forwards s d) i k → ¬ Relation.TransGen (Forwards s d) k i

theorem reachable_view (ht : LocalTopology start) {d : Ipv4Network} (hd : d.subnet = d) (actions : List (Action ι)) :
    DistanceVector.Reachable incr (Linked start) (view start (boot start) d)
      (view start ((boot start).run actions) d) :=
  view_run ht (Sound.boot ht.toTopology) hd actions

omit [DecidableEq ι] in
theorem view_held (ht : LocalTopology start) {s : System ι κ} (hs : Sound start s) {i : ι} {r : RouteEntry}
    (hr : r ∈ (s.nodes i).router.routingTable.routes) (hsrc : r.source = .protocol) :
    r.destination.subnet = r.destination ∧
      (view start s r.destination).held i = some ⟨r.metric.toNat, owner start r.nextHop⟩ := by
  obtain ⟨installed, hw, hl⟩ := ht.node hs i
  obtain ⟨hd, hreach⟩ := Observed.reach_protocol hw hl hr hsrc
  have hspecified : r.nextHop.isUnspecified = false :=
    ((RoutingTable.isValidRoute_protocol hsrc).mp (hw.valid r hr)).2.1
  refine ⟨hd, ?_⟩
  simp only [view, hreach, Option.map_some, entry, hspecified, Bool.false_eq_true, if_false]

theorem metric_le [Fintype ι] (ht : LocalTopology start) (actions : List (Action ι)) (i : ι) (r : RouteEntry)
    (hr : r ∈ (((boot start).run actions).nodes i).router.routingTable.routes) (hsrc : r.source = .protocol) :
    r.metric.toNat ≤ Fintype.card ι - 1 + ((boot start).run actions).removed r.destination := by
  have hs := (Sound.boot ht.toTopology).run actions
  obtain ⟨hd, hheld⟩ := view_held ht hs hr hsrc
  have hlt := DistanceVector.metric_lt incr_le (view_boot ht r.destination hd) (reachable_view ht hd actions) hheld
  have hpos : 0 < Fintype.card ι := Fintype.card_pos_iff.mpr ⟨i⟩
  change r.metric.toNat < _ + ((boot start).run actions).removed r.destination at hlt
  omega

omit [DecidableEq ι] in
theorem forwards_view (ht : LocalTopology start) {s : System ι κ} (hs : Sound start s) {d : Ipv4Network} {i k : ι}
    (h : Forwards s d i k) : d.subnet = d ∧ DistanceVector.Forwards (view start s d) i k := by
  obtain ⟨r, hr, hsrc, rfl, hk⟩ := h
  obtain ⟨hd, hheld⟩ := view_held ht hs hr hsrc
  rw [(hs.same k).ourIps] at hk
  rw [owner_eq ht hk] at hheld
  exact ⟨hd, r.metric.toNat, hheld⟩

theorem forwards_of_route (ht : Topology start) {actions : List (Action ι)} {i k : ι} {r : RouteEntry}
    (hr : r ∈ (((boot start).run actions).nodes i).router.routingTable.routes) (hsrc : r.source = .protocol)
    (hk : r.nextHop ∈ (start k).ourIps) : Forwards ((boot start).run actions) r.destination i k := by
  have hsame := ((Sound.boot ht).run actions).same k
  exact ⟨r, hr, hsrc, rfl, by rw [hsame.ourIps]; exact hk⟩

theorem no_forwarding_cycle [Fintype ι] (ht : LocalTopology start) (actions : List (Action ι)) (d : Ipv4Network)
    (hlost : ((boot start).run actions).removed d = 0) (i : ι) :
    ¬ Relation.TransGen (Forwards ((boot start).run actions) d) i i := by
  have hs := (Sound.boot ht.toTopology).run actions
  intro h
  obtain ⟨k, hik, -⟩ := Relation.TransGen.head'_iff.mp h
  have hd := (forwards_view ht hs hik).1
  have hranked := DistanceVector.Ranked.of_reachable incr_le (incr_exact ht) (view_boot ht d hd)
    (reachable_view ht hd actions) hlost
  have hforwards : Forwards ((boot start).run actions) d ≤
      DistanceVector.Forwards (view start ((boot start).run actions) d) := fun i k hik => (forwards_view ht hs hik).2
  exact hranked.acyclic i (Relation.TransGen.mono hforwards i i h)

end Runs

/-! A run in which "A" falls silent after its first update, "B" loses its network and learns it back from "E". -/

section Ring

def farRoute (nextHop : Ipv4Addr) (name : String) (metric : UInt32) : RouteEntry :=
  ⟨farNetwork, nextHop, name, metric, .protocol⟩

def staleRun : List (Action (Fin 4)) :=
  [.send 0, .deliver 0 1 (Duration.fromSecs 0), .send 1, .deliver 3 2 (Duration.fromSecs 10), .send 2,
    .deliver 5 3 (Duration.fromSecs 12), .cleanup 1 (Duration.fromSecs 17), .send 3,
    .deliver 7 1 (Duration.fromSecs 17)]

theorem stale_routes :
    farRoute (.new 10 3 0 4) "eth2" 4 ∈ (((boot ring).run staleRun).nodes 1).router.routingTable.routes ∧
      farRoute (.new 10 1 0 2) "eth0" 2 ∈ (((boot ring).run staleRun).nodes 2).router.routingTable.routes ∧
      farRoute (.new 10 2 0 3) "eth0" 3 ∈ (((boot ring).run staleRun).nodes 3).router.routingTable.routes := by
  decide +kernel

theorem metric_le_stale : ((boot ring).run staleRun).removed farNetwork = 1 ∧
    (farRoute (.new 10 3 0 4) "eth2" 4).metric.toNat ≤
      Fintype.card (Fin 4) - 1 + ((boot ring).run staleRun).removed farNetwork :=
  ⟨by decide +kernel, metric_le ring_topology staleRun 1 _ stale_routes.1 rfl⟩

theorem no_forwarding_cycle_fresh : ((boot ring).run (staleRun.take 6)).removed farNetwork = 0 ∧
    ¬ Relation.TransGen (Forwards ((boot ring).run (staleRun.take 6)) farNetwork) 1 1 := by
  have hlost : ((boot ring).run (staleRun.take 6)).removed farNetwork = 0 := by decide +kernel
  exact ⟨hlost, no_forwarding_cycle ring_topology (staleRun.take 6) farNetwork hlost 1⟩

end Ring

theorem unlisted_routes :
    farRoute (.new 10 2 0 3) "eth1" 3 ∈ (((boot triangle).run unlistedRun).nodes 0).router.routingTable.routes ∧
      farRoute (.new 10 0 0 1) "eth0" 1 ∈ (((boot triangle).run unlistedRun).nodes 1).router.routingTable.routes ∧
      farRoute (.new 10 1 0 2) "eth0" 2 ∈ (((boot triangle).run unlistedRun).nodes 2).router.routingTable.routes := by
  decide +kernel

/-- "B" counts to 4 among four routers, and "A" to 3 among three without any loss. -/
theorem metric_exceeds :
    (LocalTopology ring ∧ ¬ CountBounded ((boot ring).run staleRun)) ∧
      Topology triangle ∧ ((boot triangle).run unlistedRun).removed farNetwork = 0 ∧
        ¬ CountBounded ((boot triangle).run unlistedRun) := by
  refine ⟨⟨ring_topology, fun h => ?_⟩, triangle_topology, by decide +kernel, fun h => ?_⟩
  · have hle := h 1 _ stale_routes.1 rfl
    revert hle
    decide
  · have hle := h 0 _ unlisted_routes.1 rfl
    revert hle
    decide

/-- "B", "E" and "C" forward in a circle, and so do "A", "C" and "B" without any loss. -/
theorem forwarding_cycle :
    (LocalTopology ring ∧ ¬ LoopFree ((boot ring).run staleRun)) ∧
      Topology triangle ∧ ((boot triangle).run unlistedRun).removed farNetwork = 0 ∧
        ¬ LoopFree ((boot triangle).run unlistedRun) := by
  refine ⟨⟨ring_topology, fun h => ?_⟩, triangle_topology, by decide +kernel, fun h => ?_⟩
  · obtain ⟨h1, h2, h3⟩ := stale_routes
    have hbe := forwards_of_route (k := 3) ring_topology.toTopology h1 rfl (by decide +kernel)
    have hec := forwards_of_route (k := 2) ring_topology.toTopology h3 rfl (by decide +kernel)
    have hcb := forwards_of_route (k := 1) ring_topology.toTopology h2 rfl (by decide +kernel)
    exact h farNetwork 1 3 (by decide) (.single hbe) (.tail (.single hec) hcb)
  · obtain ⟨h0, h1, h2⟩ := unlisted_routes
    have hac := forwards_of_route (k := 2) triangle_topology h0 rfl (by decide +kernel)
    have hcb := forwards_of_route (k := 1) triangle_topology h2 rfl (by decide +kernel)
    have hba := forwards_of_route (k := 0) triangle_topology h1 rfl (by decide +kernel)
    exact h farNetwork 0 2 (by decide) (.single hac) (.tail (.single hcb) hba)

end CustomOspf.System
