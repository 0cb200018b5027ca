import CustomOspf.Convergence

/-!
Where the learned routes lead. On a sound plan of addresses every next hop is a
router on a shared subnet; after the rounds it takes to learn a network, or to
learn it again, going from next hop to next hop reaches it by a shortest walk.
-/

namespace CustomOspf.System

open SimpleRoutingProtocol HopDistance

section Hops

variable {ι κ : Type} [IpNetwork]

/-- An address inside the network of another router's interface is on the same subnet. -/
def AddressPlan (start : ι → SimpleRoutingProtocol κ) : Prop :=
  ∀ i k name info name' info', (start i).router.interfaces.lookup name = some info →
    (start k).router.interfaces.lookup name' = some info' → info.network.contains info'.ip = true →
    info'.network.subnet = info.network.subnet

theorem AddressPlan.of_entries {start : ι → SimpleRoutingProtocol κ}
    (h : ∀ i k, ∀ e ∈ (start i).router.interfaces.entries, ∀ e' ∈ (start k).router.interfaces.entries,
      e.2.network.contains e'.2.ip = true → e'.2.network.subnet = e.2.network.subnet) : AddressPlan start := by
  intro i k name info name' info' hl hl' hc
  exact h i k ⟨name, info⟩ (Dictionary.mem_entries.mpr hl) ⟨name', info'⟩ (Dictionary.mem_entries.mpr hl') hc

structure Pointed (start : ι → SimpleRoutingProtocol κ) (s : System ι κ) : Prop where
  table : ∀ i, ∀ r ∈ (s.nodes i).router.routingTable.routes, r.source = .protocol →
    ∃ k, r.nextHop ∈ (start k).ourIps ∧ Linked start i k
  sent : ∀ g ∈ s.sent, ∀ info ∈ g.update.routes, ∀ ip, Ipv4Addr.parse info.nextHop = some ip →
    ip.isUnspecified = false → ∃ k, ip ∈ (start k).ourIps

variable [DecidableEq ι] {start : ι → SimpleRoutingProtocol κ}

theorem Pointed.quiet {s : System ι κ} (hp : Pointed start s) (j : ι) {q : SimpleRoutingProtocol κ}
    (hq : ∀ r ∈ q.router.routingTable.routes, r ∈ (s.nodes j).router.routingTable.routes) : Pointed start (s.move j q) := by
  refine ⟨?_, hp.sent⟩
  intro i r hr hsrc
  by_cases hi : i = j
  · subst hi
    rw [move_nodes_self] at hr
    exact hp.table i r (hq r hr) hsrc
  · rw [move_nodes_of_ne s hi] at hr
    exact hp.table i r hr hsrc

theorem Pointed.broadcast {s : System ι κ} (hp : Pointed start s) (hs : Sound start s) (i : ι) :
    Pointed start (s.broadcast i) := by
  constructor
  · intro j r hr hsrc
    obtain ⟨sequence, hq⟩ := broadcast_nodes s i j
    rw [hq] at hr
    exact hp.table j r hr hsrc
  · intro g hg info hinfo ip hip hspecified
    obtain hg | ⟨name, iface, hlookup, rfl⟩ := mem_broadcast_sent.mp hg
    · exact hp.sent g hg info hinfo ip hip hspecified
    · obtain ⟨r, hr, rfl⟩ := List.mem_map.mp hinfo
      rw [Ipv4Addr.parse_toString] at hip
      obtain rfl := Option.some.inj hip
      obtain ⟨installed, hw⟩ := hs.node i
      obtain ⟨name', info', -, rfl⟩ | ⟨hsrc, -⟩ := hw.routes r hr
      · cases hspecified
      · obtain ⟨k, hk, -⟩ := hp.table i r hr hsrc
        exact ⟨k, hk⟩

variable [NetRoute κ] (ht : Topology start) (hplan : AddressPlan start)

include ht

section Plans

omit [DecidableEq ι]

theorem Pointed.boot : Pointed start (boot start) := by
  refine ⟨?_, fun g hg => absurd hg List.not_mem_nil⟩
  intro i r hr hsrc
  obtain ⟨routerId, hosts, hostsAtTable, names, port, handle, hnew⟩ := ht.booted i
  cases hsrc.symm.trans (Observed.start_direct hnew hr)

include hplan

theorem linked_of_contains {i k : ι} {name : String} {info : InterfaceInfo} {ip : Ipv4Addr}
    (hlookup : (start i).router.interfaces.lookup name = some info) (hip : ip ∈ (start k).ourIps)
    (hcontains : info.network.contains ip = true) : Linked start i k := by
  obtain ⟨name', info', hlookup', rfl⟩ := ht.ourIps.mp hip
  have hsubnet := hplan i k name info name' info' hlookup hlookup' hcontains
  exact ⟨info.network.subnet, ⟨name, info, hlookup, rfl⟩, name', info', hlookup', hsubnet⟩

theorem nextHop_of_advert {g : Datagram ι}
    (hsource : ∃ name info, (start g.origin).router.interfaces.lookup name = some info ∧ g.source.ip = .v4 info.ip ∧
      g.subnet = info.network.subnet) {j : ι} (hattached : Attached (start j) g.subnet) {sender : Ipv4Addr}
    (hsender : g.source.ip = .v4 sender) {info : RouteInfo}
    (hadvertised : ∀ ip, Ipv4Addr.parse info.nextHop = some ip → ip.isUnspecified = false → ∃ k, ip ∈ (start k).ourIps)
    {advertiser : String} {now : Instant} {r : RouteEntry} {state : RouteState}
    (hp : RouteManager.processSingleRoute info advertiser sender (start j).router.interfaces now = some (r, state)) :
    ∃ k, r.nextHop ∈ (start k).ourIps ∧ Linked start j k := by
  obtain ⟨name, iface, hlookup, hip, hsubnet⟩ := hsource
  obtain rfl := IpAddr.v4.inj (hsender.symm.trans hip)
  obtain ⟨d, ip, out, outInfo, -, hparse, -, -, rfl, -⟩ := RouteManager.processSingleRoute_iff.mp hp
  obtain hchosen | ⟨hchosen, hspecified, name', info', hlookup', hcontains⟩ :=
    RouteManager.determineNextHop_cases ip iface.ip (start j).router.interfaces
  · refine ⟨g.origin, ?_, g.subnet, hattached, name, iface, hlookup, hsubnet.symm⟩
    change RouteManager.determineNextHop ip iface.ip (start j).router.interfaces ∈ _
    rw [hchosen]
    exact ht.ourIps.mpr ⟨name, iface, hlookup, rfl⟩
  · obtain ⟨k, hk⟩ := hadvertised ip hparse hspecified
    refine ⟨k, ?_, linked_of_contains ht hplan hlookup' hk hcontains⟩
    change RouteManager.determineNextHop ip iface.ip (start j).router.interfaces ∈ _
    rw [hchosen]
    exact hk

end Plans

include hplan

theorem Pointed.deliver {s : System ι κ} (hp : Pointed start s) (hs : Sound start s) {g : Datagram ι} (hg : g ∈ s.sent)
    {j : ι} (hattached : Attached (s.nodes j) g.subnet) (now : Instant) :
    Pointed start (s.move j ((s.nodes j).step (.update g.update g.source now))) := by
  refine ⟨?_, hp.sent⟩
  intro i r hr hsrc
  by_cases hi : i = j
  · subst hi
    obtain ⟨installed, hw⟩ := hs.node i
    rw [move_nodes_self, ← Observed.step_protocol ⟨s.nodes i, installed⟩] at hr
    obtain hold | ⟨⟨key, hk⟩, -⟩ := Observed.mem_step_update hw.distinct hr
    · exact hp.table i r hold hsrc
    · obtain ⟨-, sender, hsender, info, hinfo, rfl, hprocessed, -⟩ := mem_accepted.mp hk
      have hsame : (s.nodes i).router.interfaces = (start i).router.interfaces := (hs.same i).interfaces
      rw [hsame] at hprocessed
      exact nextHop_of_advert ht hplan (hs.sent g hg) (((hs.same i).attached g.subnet).mp hattached) hsender
        (hp.sent g hg info hinfo) hprocessed
  · rw [move_nodes_of_ne s hi] at hr
    exact hp.table i r hr hsrc

theorem Pointed.moves {s t : System ι κ} {a : Action ι} (hp : Pointed start s) (hs : Sound start s) (h : Moves s a t) :
    Pointed start t := by
  cases h with
  | stay => exact hp
  | send i => exact hp.broadcast hs i
  | deliver k j now g hg ha => exact hp.deliver ht hplan hs hg ha now
  | hello message addr j now =>
    apply hp.quiet j
    intro r hr
    obtain ⟨neighbors, hn⟩ := handleHelloMessageStatic_eq message addr now (s.nodes j)
    rw [SimpleRoutingProtocol.step, hn] at hr
    exact hr
  | cleanup j now =>
    apply hp.quiet j
    intro r hr
    obtain ⟨installed, hw⟩ := hs.node j
    rw [← Observed.step_protocol ⟨s.nodes j, installed⟩] at hr
    exact ((Observed.mem_step_cleanup hw.distinct).mp hr).1

theorem Pointed.run {s : System ι κ} (hp : Pointed start s) (hs : Sound start s) (actions : List (Action ι)) :
    Pointed start (s.run actions) := by
  induction actions generalizing s with
  | nil => exact hp
  | cons a actions ih =>
    have hstep := step_moves s a
    exact ih (hp.moves ht hplan hs hstep) (hs.moves hstep)

theorem nextHop_linked (actions : List (Action ι)) (i : ι) (r : RouteEntry)
    (hr : r ∈ (((boot start).run actions).nodes i).router.routingTable.routes) (hsrc : r.source = .protocol) :
    ∃ k, r.nextHop ∈ (start k).ourIps ∧ Linked start i k :=
  ((Pointed.boot ht).run ht hplan (Sound.boot ht) actions).table i r hr hsrc

end Hops

section Forwarding

variable {ι κ : Type} [DecidableEq ι] [IpNetwork] [NetRoute κ] {start : ι → SimpleRoutingProtocol κ}

structure Converged (start : ι → SimpleRoutingProtocol κ) (s : System ι κ) (d : Ipv4Network) (n : ℕ) : Prop where
  sound : Sound start s
  pointed : ∀ i, ∀ r ∈ (s.nodes i).router.routingTable.routes, r.source = .protocol →
    ∃ k, r.nextHop ∈ (start k).ourIps ∧ Linked start i k
  behind : DistanceVector.Behind (dist start d) (view start s d)
  metric : ∀ i, dist start d i ≤ n → metricAt s d i = dist start d i

section State

variable (ht : Static start) {s : System ι κ} {d : Ipv4Network} (hd : d.subnet = d) {n : ℕ} (hc : Converged start s d n)

include ht hd hc

section Paths

omit [DecidableEq ι]

theorem Converged.forwards_somewhere {i : ι} (hi : dist start d i ≤ n) (hna : ¬ Attached (start i) d) :
    ∃ k, Forwards s d i k := by
  have hmetric := hc.metric i hi
  have hfinite : dist start d i ≠ ⊤ := ne_top_of_le_ne_top (ENat.natCast_ne_top n) hi
  obtain ⟨⟨r, hr, rfl⟩, -⟩ := entries_of_metricAt ht hc.sound (by rw [hmetric]; exact hfinite)
  obtain ⟨installed, hw⟩ := hc.sound.node i
  obtain ⟨name, info, hlookup, rfl⟩ | ⟨hsrc, hn, -⟩ := hw.routes r hr
  · have hattached := ((hc.sound.same i).attached info.network.subnet).mp ⟨name, info, hlookup, rfl⟩
    exact absurd hattached hna
  · obtain ⟨k, hk, -⟩ := hc.pointed i r hr hsrc
    exact ⟨k, r, hr, hsrc, hn.symm, by rw [(hc.sound.same k).ourIps]; exact hk⟩

theorem Converged.forwards_nearer {i k : ι} (hi : dist start d i ≤ n) (hf : Forwards s d i k) :
    (linkGraph start).Adj i k ∧ dist start d i = dist start d k + 1 := by
  obtain ⟨-, m, hheld⟩ := forwards_view ht.topology hc.sound hf
  obtain ⟨r, hr, hsrc, hrd, hk⟩ := hf
  obtain ⟨k', hk', hlink⟩ := hc.pointed i r hr hsrc
  rw [(hc.sound.same k).ourIps] at hk
  obtain rfl := ht.topology.addresses k k' r.nextHop hk hk'
  obtain ⟨-, hheld'⟩ := view_held ht.topology hc.sound hr hsrc
  rw [hrd, hheld] at hheld'
  have hm : m = r.metric.toNat := (DistanceVector.Entry.mk.inj (Option.some.inj hheld')).1
  have hfinite : dist start d i ≠ ⊤ := ne_top_of_le_ne_top (ENat.natCast_ne_top n) hi
  have hmetric := hc.metric i hi
  have hexact : (r.metric.toNat : ℕ∞) = dist start d i := by
    rw [← hmetric]
    exact (entries_of_metricAt ht hc.sound (by rw [hmetric]; exact hfinite)).2 r hr (by rw [hrd, hd])
  -- the next hop is nearer than the metric says, and the metric is the distance
  have hstrict : dist start d k + 1 ≤ dist start d i := by
    rw [← hexact, ← hm]
    exact hc.behind.held_via i m k hheld
  have hle : dist start d i ≤ dist start d k + 1 := dist_linked hlink
  refine ⟨⟨?_, hlink⟩, le_antisymm hle hstrict⟩
  rintro rfl
  exact absurd hstrict (ENat.lt_add_one_iff hfinite |>.mpr (le_refl _)).not_ge

theorem Converged.delivers {i : ι} (hi : dist start d i ≤ n) :
    (∀ k, Forwards s d i k → (linkGraph start).Adj i k ∧ dist start d i = dist start d k + 1) ∧
      ∃ t, Attached (start t) d ∧ ∃ p : (linkGraph start).Walk i t, (p.length : ℕ∞) = dist start d i ∧
        ∀ a ∈ p.darts, Forwards s d a.fst a.snd := by
  refine ⟨fun k hf => hc.forwards_nearer ht hd hi hf, ?_⟩
  exact exists_walk_of_descent (T := {k | Attached (start k) d}) (fun u v hu hf => hc.forwards_nearer ht hd hu hf)
    (fun u hu hout => hc.forwards_somewhere ht hd hu hout) i hi

end Paths

omit hd [DecidableEq ι] in
theorem Converged.entries {i : ι} (hi : dist start d i ≤ n) :
    (∃ r ∈ (s.nodes i).router.routingTable.routes, r.destination.subnet = d) ∧
      ∀ r ∈ (s.nodes i).router.routingTable.routes, r.destination.subnet = d →
        (r.metric.toNat : ℕ∞) = dist start d i := by
  have hmetric := hc.metric i hi
  have hfinite : metricAt s d i ≠ ⊤ := by
    rw [hmetric]
    exact ne_top_of_le_ne_top (ENat.natCast_ne_top n) hi
  rw [← hmetric]
  exact entries_of_metricAt ht hc.sound hfinite

end State

variable [Fintype ι] (ht : Static start) (hplan : AddressPlan start) {before rest : List (Action ι)} {d : Ipv4Network}
  (hd : d.subnet = d) (hcalm : Calm start before rest d) {n : ℕ}
  (h : Rounds System.run (Round start) n ((boot start).run before) rest)

include ht hplan hd hcalm h

theorem converged : Converged start ((boot start).run (before ++ rest)) d n := by
  have hs : Derived start ((boot start).run (before ++ rest)) := Derived.run ht.topology (before ++ rest)
  exact ⟨hs.sound, nextHop_linked ht.topology.toTopology hplan (before ++ rest), hs.behind ht hd hcalm.few_after,
    fun _ hi => metricAt_converged ht hd hcalm h hi⟩

/-- Every next hop is one hop nearer, and following them ends at a router of the network. -/
theorem forwarding_delivers (i : ι) (hi : dist start d i ≤ n) :
    let s := (boot start).run (before ++ rest)
    (∀ k, Forwards s d i k → (linkGraph start).Adj i k ∧ dist start d i = dist start d k + 1) ∧
      ∃ t, Attached (start t) d ∧ ∃ p : (linkGraph start).Walk i t, (p.length : ℕ∞) = dist start d i ∧
        ∀ a ∈ p.darts, Forwards s d a.fst a.snd :=
  (converged ht hplan hd hcalm h).delivers ht hd hi

end Forwarding

section Line

theorem line_plan : AddressPlan line := AddressPlan.of_entries (by decide +kernel)

theorem line_delivers :
    let s := (boot line).run (lineLost ++ lineAgain)
    (∀ k, Forwards s farNetwork 2 k →
        (linkGraph line).Adj 2 k ∧ dist line farNetwork 2 = dist line farNetwork k + 1) ∧
      ∃ t, Attached (line t) farNetwork ∧ ∃ p : (linkGraph line).Walk 2 t, (p.length : ℕ∞) = dist line farNetwork 2 ∧
        ∀ a ∈ p.darts, Forwards s farNetwork a.fst a.snd := by
  have hd : farNetwork.subnet = farNetwork := by decide +kernel
  exact forwarding_delivers line_static line_plan hd line_calm line_rounds 2 line_dist

end Line

end CustomOspf.System
