import CustomOspf.Distances
import CustomOspf.Library.HopDistance

/-!
A network in which nothing is cleaned up. No metric is below the distance, and
when no router has anything to learn from another every metric is the distance.
-/

namespace CustomOspf.System

open SimpleRoutingProtocol HopDistance

section Paths

variable {ι κ : Type} [IpNetwork]

def linkGraph (start : ι → SimpleRoutingProtocol κ) : SimpleGraph ι where
  Adj i k := i ≠ k ∧ Linked start i k
  symm := ⟨fun _ _ h => ⟨h.1.symm, h.2.imp (fun _ hd => hd.symm)⟩⟩
  loopless := ⟨fun _ h => h.1 rfl⟩

/-- The least number of hops to a router attached to the subnet. -/
noncomputable def dist (start : ι → SimpleRoutingProtocol κ) (d : Ipv4Network) (i : ι) : ℕ∞ :=
  hops (linkGraph start) {k | Attached (start k) d} i

theorem dist_linked {start : ι → SimpleRoutingProtocol κ} {d : Ipv4Network} {j k : ι} (h : Linked start j k) :
    dist start d j ≤ dist start d k + 1 := by
  by_cases hjk : j = k
  · subst hjk
    exact le_self_add
  · exact hops_le_of_adj ⟨hjk, h⟩

variable [NetRoute κ]

structure Static (start : ι → SimpleRoutingProtocol κ) : Prop where
  topology : LocalTopology start
  ids : ∀ i j, (start i).router.id = (start j).router.id → i = j
  sound : ∀ i, Observed.SoundInterfaces (start i).router
  only : ∀ i, ∀ net ∈ (start i).router.routingTable.localNetworks,
    ∃ name info, (start i).router.interfaces.lookup name = some info ∧ info.network = net

/-- No router changes a metric when it receives what another one holds now. -/
def Settled (s : System ι κ) (now : Instant) : Prop :=
  ∀ i j, ∀ m ∈ (sendRoutingUpdates (s.nodes i)).2, Attached (s.nodes j) m.1.network.subnet → ∀ d,
    (reach (receiveUpdate m.2 ⟨.v4 m.1.ip, (s.nodes i).port⟩ now (s.nodes j)).1 d).map Prod.fst =
      (reach (s.nodes j) d).map Prod.fst

variable {start : ι → SimpleRoutingProtocol κ} (ht : Static start)

include ht

theorem Static.node {s : System ι κ} (hs : Sound start s) (j : ι) :
    Observed.SoundInterfaces (s.nodes j).router ∧ ∀ net ∈ (s.nodes j).router.routingTable.localNetworks,
      ∃ name info, (s.nodes j).router.interfaces.lookup name = some info ∧ info.network = net := by
  have hsame := hs.same j
  refine ⟨(Observed.SoundInterfaces.congr hsame).mpr (ht.sound j), ?_⟩
  rw [hsame.localNetworks, hsame.interfaces]
  exact ht.only j

variable [DecidableEq ι]

theorem removed_moves {s t : System ι κ} {a : Action ι} (hs : Sound start s) (h : Moves s a t)
    (ha : ∀ j now, a ≠ .cleanup j now) {d : Ipv4Network} (hd : d.subnet = d) : t.removed d = s.removed d := by
  cases h with
  | stay => rfl
  | send i => rfl
  | deliver k j now g hg hattached =>
    obtain ⟨installed, hw⟩ := hs.node j
    obtain ⟨hsound, honly⟩ := ht.node hs j
    rw [removed_move ht.topology hs hd, if_neg]
    rintro ⟨hsome, hnone⟩
    obtain ⟨⟨m, ip⟩, hm⟩ := Option.isSome_iff_exists.mp hsome
    have hkept : ∃ n nh, reach ((s.nodes j).step (.update g.update g.source now)) d = some (n, nh) ∧
        n.toNat ≤ m.toNat := Observed.reach_update_le hw hsound honly hd (Or.inl ⟨m, ip, hm, le_refl _⟩)
    obtain ⟨n, nh, hn, -⟩ := hkept
    rw [hn] at hnone
    cases hnone
  | hello message addr j now =>
    obtain ⟨installed, hw, hl⟩ := ht.topology.node hs j
    have hkeep : reach ((s.nodes j).step (.hello message addr now)) d = reach (s.nodes j) d :=
      Observed.reach_hello message addr now
    rw [removed_move ht.topology hs hd, hkeep, if_neg]
    rintro ⟨hsome, hnone⟩
    rw [hnone] at hsome
    cases hsome
  | cleanup j now => exact absurd rfl (ha j now)

theorem removed_run {s : System ι κ} (hs : Sound start s) {actions : List (Action ι)}
    (ha : ∀ j now, Action.cleanup j now ∉ actions) {d : Ipv4Network} (hd : d.subnet = d) :
    (s.run actions).removed d = s.removed d := by
  induction actions generalizing s with
  | nil => rfl
  | cons a actions ih =>
    have hstep := step_moves s a
    have hone : (s.step a).removed d = s.removed d := by
      apply removed_moves ht hs hstep _ hd
      rintro j now rfl
      exact ha j now List.mem_cons_self
    exact (ih (hs.moves hstep) (fun j now hmem => ha j now (List.mem_cons_of_mem a hmem))).trans hone

theorem dist_le_reach [Fintype ι] {actions : List (Action ι)} (ha : ∀ j now, Action.cleanup j now ∉ actions)
    {d : Ipv4Network} (hd : d.subnet = d) {i : ι} {m : UInt32} {ip : Ipv4Addr}
    (hm : reach (((boot start).run actions).nodes i) d = some (m, ip)) : dist start d i ≤ m.toNat := by
  have hlost := removed_run ht (Sound.boot ht.topology.toTopology) ha hd
  have hreach := view_run ht.topology (Sound.boot ht.topology.toTopology) hd actions
  have hzero : ∀ i e, (view start (boot start) d).held i = some e → dist start d i = 0 := by
    intro i e he
    obtain ⟨e', he', -⟩ := Option.map_eq_some_iff.mp he
    have he' : reach (start i) d = some e' := he'
    exact hops_of_mem (boot_attached ht.topology hd (by rw [he']; rfl))
  have hleast := DistanceVector.AtLeast.of_reachable (fun j k h => dist_linked h) incr_le
    (incr_exact ht.topology) (view_boot ht.topology d hd) hzero hreach hlost
  apply hleast.held i (entry start (m, ip))
  simp only [view, hm, Option.map_some]

omit [DecidableEq ι] in
theorem reach_receive {s : System ι κ} (hs : Sound start s) {j k : ι} (hjk : j ≠ k) {d : Ipv4Network}
    (hd : d.subnet = d) (hna : ¬ Attached (s.nodes j) d) {m : UInt32} {ip : Ipv4Addr}
    (hm : reach (s.nodes k) d = some (m, ip)) (hlink : Linked start j k) (now : Instant) :
    ∃ msg ∈ (sendRoutingUpdates (s.nodes k)).2, Attached (s.nodes j) msg.1.network.subnet ∧
      ∃ n nh, reach (receiveUpdate msg.2 ⟨.v4 msg.1.ip, (s.nodes k).port⟩ now (s.nodes j)).1 d = some (n, nh) ∧
        n.toNat ≤ m.toNat + 1 := by
  obtain ⟨c, ⟨nameJ, ifaceJ, hlookupJ, hcj⟩, nameK, ifaceK, hlookupK, hck⟩ := hlink
  obtain ⟨installedJ, hwJ⟩ := hs.node j
  obtain ⟨installedK, hwK⟩ := hs.node k
  obtain ⟨hsound, honly⟩ := ht.node hs j
  have hforeign : (s.nodes j).ourIps.contains ifaceK.ip = false := by
    rw [Bool.eq_false_iff, (hs.same j).ourIps]
    intro hmem
    have hk := ht.topology.ourIps.mpr ⟨nameK, ifaceK, hlookupK, rfl⟩
    exact hjk (ht.topology.addresses j k ifaceK.ip (List.contains_iff_mem.mp hmem) hk)
  have hid : (s.nodes k).router.id ≠ (s.nodes j).router.id := by
    rw [(hs.same k).id, (hs.same j).id]
    exact fun h => hjk (ht.ids k j h).symm
  rw [← (hs.same j).interfaces] at hlookupJ
  rw [← (hs.same k).interfaces] at hlookupK
  let msg := (ifaceK, buildUpdate ((s.nodes k).sequence + 1) (s.nodes k).router)
  have hmsg : msg ∈ (sendRoutingUpdates (s.nodes k)).2 :=
    List.mem_map.mpr ⟨⟨nameK, ifaceK⟩, Dictionary.mem_entries.mpr hlookupK, rfl⟩
  -- the entry of the other router, as it stands in the message
  obtain ⟨r, hr, he⟩ := Option.map_eq_some_iff.mp hm
  obtain ⟨rfl, rfl⟩ := Prod.mk.inj he
  have hrd : r.destination.subnet = d := by simpa using List.find?_some hr
  let info : RouteInfo := ⟨r.destination.toString, r.metric, r.nextHop.toString⟩
  have hinfo : info ∈ msg.2.routes := List.mem_map.mpr ⟨r, List.mem_of_find?_eq_some hr, rfl⟩
  -- the interface it comes in by
  have hcontains : ifaceJ.network.contains ifaceK.ip = true := by
    rw [Ipv4Network.contains_of_subnet_eq (hcj.trans hck.symm), (hwK.interfaces nameK ifaceK hlookupK).1]
    exact Ipv4Network.contains_addr ifaceK.network
  obtain ⟨route, hprocessed, hroute, hmetric⟩ := Observed.processSingleRoute_entry hwJ hd hna hlookupJ hcontains hrd
    msg.2.routerId now
  have hbound : ∃ n nh, reach ((s.nodes j).step (.update msg.2 ⟨.v4 ifaceK.ip, (s.nodes k).port⟩ now)) d =
      some (n, nh) ∧ n.toNat ≤ route.metric.toNat :=
    Observed.reach_update_processed hwJ hsound honly hd hna hid rfl hinfo hprocessed hroute
  obtain ⟨n, nh, hn, hle⟩ := hbound
  refine ⟨msg, hmsg, ⟨nameJ, ifaceJ, hlookupJ, hcj.trans hck.symm⟩, n, nh, ?_, ?_⟩
  · rw [← hn]
    simp only [receiveUpdate, msg, hforeign, Bool.false_eq_true, if_false]
    rfl
  · calc n.toNat ≤ route.metric.toNat := hle
      _ = (r.metric + 1).toNat := congrArg UInt32.toNat hmetric
      _ = incr r.metric.toNat := (incr_toNat r.metric).symm
      _ ≤ r.metric.toNat + 1 := incr_le r.metric.toNat

noncomputable def metricAt (s : System ι κ) (d : Ipv4Network) (i : ι) : ℕ∞ :=
  ((reach (s.nodes i) d).map (fun e => (e.1.toNat : ℕ∞))).getD ⊤

omit [DecidableEq ι] in
theorem metricAt_le_dist {s : System ι κ} (hs : Sound start s) {now : Instant} (hsettled : Settled s now)
    {d : Ipv4Network} (hd : d.subnet = d) (i : ι) : metricAt s d i ≤ dist start d i := by
  have hzero : ∀ t ∈ {k | Attached (start k) d}, metricAt s d t = 0 := by
    intro t hattached
    obtain ⟨installed, hw, hl⟩ := ht.topology.node hs t
    have hheld : reach (s.nodes t) d = _ := Observed.reach_attached hw hl (((hs.same t).attached d).mpr hattached)
    simp [metricAt, hheld]
  apply le_hops hzero
  rintro j k ⟨hjk, hlink⟩
  by_cases hattached : Attached (s.nodes j) d
  · rw [hzero j (((hs.same j).attached d).mp hattached)]
    exact zero_le
  · cases hk : reach (s.nodes k) d with
    | none =>
      have htop : metricAt s d k = ⊤ := by simp [metricAt, hk]
      rw [htop]
      exact le_top
    | some e =>
      obtain ⟨m, ip⟩ := e
      obtain ⟨msg, hmsg, hsubnet, n, nh, hn, hle⟩ := reach_receive ht hs hjk hd hattached hk hlink now
      have hkept := hsettled k j msg hmsg hsubnet d
      rw [hn] at hkept
      obtain ⟨⟨n', nh'⟩, hheld, hmetric⟩ := Option.map_eq_some_iff.mp hkept.symm
      obtain rfl : n' = n := hmetric
      simp only [metricAt, hheld, hk, Option.map_some, Option.getD_some]
      exact_mod_cast hle

theorem metrics_are_distances [Fintype ι] (actions : List (Action ι)) (ha : ∀ j now, Action.cleanup j now ∉ actions) :
    let s := (boot start).run actions
    (∀ i, ∀ r ∈ (s.nodes i).router.routingTable.routes, dist start r.destination.subnet i ≤ r.metric.toNat) ∧
      ∀ now, Settled s now → ∀ i d, d.subnet = d →
        ((∃ r ∈ (s.nodes i).router.routingTable.routes, r.destination.subnet = d) ↔ dist start d i ≠ ⊤) ∧
        ∀ r ∈ (s.nodes i).router.routingTable.routes, r.destination.subnet = d →
          (r.metric.toNat : ℕ∞) = dist start d i := by
  intro s
  have hs : Sound start s := (Sound.boot ht.topology.toTopology).run actions
  have hentry : ∀ i, ∀ r ∈ (s.nodes i).router.routingTable.routes,
      reach (s.nodes i) r.destination.subnet = some (r.metric, r.nextHop) := by
    intro i r hr
    obtain ⟨installed, hw, hl⟩ := ht.topology.node hs i
    exact Observed.reach_entry hw hl hr
  have hlower : ∀ i, ∀ r ∈ (s.nodes i).router.routingTable.routes,
      dist start r.destination.subnet i ≤ r.metric.toNat := by
    intro i r hr
    exact dist_le_reach ht ha (Ipv4Network.subnet_subnet r.destination) (hentry i r hr)
  refine ⟨hlower, ?_⟩
  intro now hsettled i d hd
  have hupper := metricAt_le_dist ht hs hsettled hd i
  refine ⟨⟨?_, ?_⟩, ?_⟩
  · rintro ⟨r, hr, rfl⟩
    exact ne_top_of_le_ne_top (ENat.natCast_ne_top r.metric.toNat) (hlower i r hr)
  · intro hfinite
    cases hheld : reach (s.nodes i) d with
    | none =>
      have htop : metricAt s d i = ⊤ := by simp [metricAt, hheld]
      rw [htop] at hupper
      exact absurd (top_le_iff.mp hupper) hfinite
    | some e =>
      obtain ⟨r, hr, -⟩ := Option.map_eq_some_iff.mp hheld
      exact ⟨r, List.mem_of_find?_eq_some hr, by simpa using List.find?_some hr⟩
  · rintro r hr rfl
    have hmetric : metricAt s r.destination.subnet i = r.metric.toNat := by simp [metricAt, hentry i r hr]
    rw [hmetric] at hupper
    exact le_antisymm hupper (hlower i r hr)

end Paths

/-! The line of three routers, once every update has arrived that brings something new. -/

section Line

theorem line_static : Static line := by
  have haddresses : ∀ i j, ∀ ip ∈ (line i).ourIps, ip ∈ (line j).ourIps → i = j := by decide +kernel
  have hids : ∀ i j, (line i).router.id = (line j).router.id → i = j := by decide +kernel
  have hentries : ∀ i, ∀ e ∈ (line i).router.interfaces.entries, e.2.network ∈ (line i).router.routingTable.localNetworks ∧
      e.2.network.contains .unspecified = false ∧ 8 ≤ e.2.network.prefixLen.val ∧
      e.2.network.addr.isLoopback = false := by decide +kernel
  have honly : ∀ i, ∀ net ∈ (line i).router.routingTable.localNetworks,
      ∃ e ∈ (line i).router.interfaces.entries, e.2.network = net := by decide +kernel
  have hsound (i : Fin 3) : Observed.SoundInterfaces (line i).router := Observed.SoundInterfaces.of_entries (hentries i)
  refine ⟨⟨⟨fun i => ⟨_, _, _, _, _, _, started_ok (line_isOk i)⟩, haddresses⟩, fun i => (hsound i).listed⟩, hids,
    hsound, ?_⟩
  intro i net hnet
  obtain ⟨⟨name, info⟩, he, hinfo⟩ := honly i net hnet
  exact ⟨name, info, Dictionary.mem_entries.mp he, hinfo⟩

theorem line_settled : Settled ((boot line).run lineRun) 0 := by
  have hroutes : ∀ i j, ∀ m ∈ (sendRoutingUpdates (((boot line).run lineRun).nodes i)).2,
      Attached (((boot line).run lineRun).nodes j) m.1.network.subnet →
      (receiveUpdate m.2 ⟨.v4 m.1.ip, (((boot line).run lineRun).nodes i).port⟩ 0
        (((boot line).run lineRun).nodes j)).1.router.routingTable.routes =
        (((boot line).run lineRun).nodes j).router.routingTable.routes := by decide +kernel
  intro i j m hm ha d
  unfold reach
  rw [hroutes i j m hm ha]

theorem line_metrics_are_distances :
    let s := (boot line).run lineRun
    (∃ r ∈ (s.nodes 2).router.routingTable.routes, r.destination.subnet = farNetwork) ∧ dist line farNetwork 2 = 2 := by
  let far : RouteEntry := ⟨farNetwork, .new 10 1 0 2, "eth0", 2, .protocol⟩
  have hfar : far ∈ (((boot line).run lineRun).nodes 2).router.routingTable.routes := by decide +kernel
  have hsubnet : far.destination.subnet = farNetwork := by decide +kernel
  have hclean : ∀ j now, Action.cleanup j now ∉ lineRun := by simp [lineRun]
  obtain ⟨-, hall⟩ := metrics_are_distances line_static lineRun hclean
  obtain ⟨-, hmetric⟩ := hall 0 line_settled 2 farNetwork (by decide +kernel)
  exact ⟨⟨far, hfar, hsubnet⟩, (hmetric far hfar hsubnet).symm⟩

end Line

end CustomOspf.System
