import CustomOspf.Network
import CustomOspf.Library.DistanceVector

/-!
What the routers hold for one network, seen as distances to it: every action of
the system is a step of the distance vectors.
-/

namespace CustomOspf.System

open SimpleRoutingProtocol

variable {ι κ : Type}

-- the metric is a 32-bit number
def incr (m : ℕ) : ℕ := (m + 1) % 2 ^ 32

theorem incr_le (m : ℕ) : incr m ≤ m + 1 := Nat.mod_le _ _

theorem incr_toNat (m : UInt32) : incr m.toNat = (m + 1).toNat := by
  rw [UInt32.toNat_add]
  rfl

variable [IpNetwork] [NetRoute κ]

def Linked (start : ι → SimpleRoutingProtocol κ) (i k : ι) : Prop :=
  ∃ d, Attached (start i) d ∧ Attached (start k) d

open Classical in
noncomputable def owner (start : ι → SimpleRoutingProtocol κ) (ip : Ipv4Addr) : Option ι :=
  if h : ∃ i, ip ∈ (start i).ourIps then some h.choose else none

noncomputable def entry (start : ι → SimpleRoutingProtocol κ) (e : UInt32 × Ipv4Addr) : DistanceVector.Entry ι :=
  ⟨e.1.toNat, if e.2.isUnspecified then none else owner start e.2⟩

noncomputable def view (start : ι → SimpleRoutingProtocol κ) (s : System ι κ) (d : Ipv4Network) :
    DistanceVector.State ι where
  held i := (reach (s.nodes i) d).map (entry start)
  adverts := {a | ∃ g ∈ s.sent, ∃ info ∈ g.update.routes, ∃ ip, RouteManager.destinationOf info.destination = some d ∧
    Ipv4Addr.parse info.nextHop = some ip ∧ a = ⟨g.origin, entry start (info.metric, ip)⟩}
  lost := s.removed d

theorem owner_eq {start : ι → SimpleRoutingProtocol κ} (ht : LocalTopology start) {ip : Ipv4Addr} {i : ι}
    (h : ip ∈ (start i).ourIps) : owner start ip = some i := by
  have hex : ∃ i, ip ∈ (start i).ourIps := ⟨i, h⟩
  unfold owner
  rw [dif_pos hex]
  congr 1
  exact ht.addresses _ _ ip hex.choose_spec h

theorem LocalTopology.node {start : ι → SimpleRoutingProtocol κ} (ht : LocalTopology start) {s : System ι κ}
    (hs : Sound start s) (j : ι) : ∃ installed, Observed.WellFormed ⟨s.nodes j, installed⟩ ∧ Listed (s.nodes j) := by
  obtain ⟨installed, hw⟩ := hs.node j
  exact ⟨installed, hw, (hs.same j).listed.mpr (ht.listed j)⟩

section View

variable [DecidableEq ι] {start : ι → SimpleRoutingProtocol κ} {s : System ι κ} {d : Ipv4Network} {j : ι}
  {q : SimpleRoutingProtocol κ}

section Views

omit [NetRoute κ]

theorem view_same (hq : reach q d = reach (s.nodes j) d) (hr : (s.move j q).removed d = s.removed d) :
    view start (s.move j q) d = view start s d := by
  have hheld : (view start (s.move j q) d).held = (view start s d).held := by
    funext i
    by_cases hi : i = j
    · subst hi
      simp only [view, move_nodes_self, hq]
    · simp only [view, move_nodes_of_ne s hi]
  exact DistanceVector.State.ext hheld rfl hr

theorem view_take {e : UInt32 × Ipv4Addr} (hq : reach q d = some e) (hr : (s.move j q).removed d = s.removed d) :
    view start (s.move j q) d = (view start s d).take j (entry start e) := by
  have hheld : (view start (s.move j q) d).held = ((view start s d).take j (entry start e)).held := by
    funext i
    by_cases hi : i = j
    · subst hi
      rw [DistanceVector.State.take_held_self]
      simp only [view, move_nodes_self, hq, Option.map_some]
    · rw [DistanceVector.State.take_held_of_ne _ hi]
      simp only [view, move_nodes_of_ne s hi]
  exact DistanceVector.State.ext hheld rfl hr

theorem view_drop (hq : reach q d = none) (hr : (s.move j q).removed d = s.removed d + 1) :
    view start (s.move j q) d = (view start s d).drop j := by
  have hheld : (view start (s.move j q) d).held = ((view start s d).drop j).held := by
    funext i
    by_cases hi : i = j
    · subst hi
      simp only [view, move_nodes_self, hq, Option.map_none, DistanceVector.State.drop, Function.update_self]
    · simp only [view, move_nodes_of_ne s hi, DistanceVector.State.drop, Function.update_of_ne hi]
  exact DistanceVector.State.ext hheld rfl hr

end Views

variable (ht : LocalTopology start) (hs : Sound start s) (hd : d.subnet = d)

include ht hs hd

theorem removed_move (e : Event) : (s.move j ((s.nodes j).step e)).removed d =
    if (reach (s.nodes j) d).isSome = true ∧ reach ((s.nodes j).step e) d = none then s.removed d + 1
    else s.removed d := by
  obtain ⟨installed, hw, hl⟩ := ht.node hs j
  have hloses := Observed.loses_iff hw hl hd e
  simp only [move, hloses]

theorem view_quiet {e : Event}
    (h : reach ((s.nodes j).step e) d = reach (s.nodes j) d ∨ reach ((s.nodes j).step e) d = none) :
    DistanceVector.Step incr (Linked start) (view start s d) (view start (s.move j ((s.nodes j).step e)) d) := by
  have hr := removed_move ht hs hd e (j := j)
  by_cases hlost : (reach (s.nodes j) d).isSome = true ∧ reach ((s.nodes j).step e) d = none
  · rw [if_pos hlost] at hr
    rw [view_drop hlost.2 hr]
    apply DistanceVector.Step.lose
    simp only [view, Option.isSome_map, hlost.1]
  · rw [if_neg hlost] at hr
    have hsame : reach ((s.nodes j).step e) d = reach (s.nodes j) d := by
      obtain h | h := h
      · exact h
      · rw [h]
        cases hj : reach (s.nodes j) d with
        | none => rfl
        | some e => exact absurd ⟨by rw [hj]; rfl, h⟩ hlost
    rw [view_same hsame hr]
    exact DistanceVector.Step.stay _

omit hd in
theorem view_learn {g : Datagram ι} (hg : g ∈ s.sent) (ha : Attached (s.nodes j) g.subnet) {sender : Ipv4Addr}
    (hsender : g.source.ip = .v4 sender) {info : RouteInfo} (hinfo : info ∈ g.update.routes) {interfaces : Interfaces}
    {now : Instant} {r : RouteEntry} {state : RouteState}
    (hp : RouteManager.processSingleRoute info g.update.routerId sender interfaces now = some (r, state))
    (hv : (s.nodes j).router.routingTable.isValidRoute r = true) (hq : reach q r.destination = some (r.metric, r.nextHop))
    (hr : (s.move j q).removed r.destination = s.removed r.destination)
    (hle : ∀ m ip, reach (s.nodes j) r.destination = some (m, ip) → r.metric.toNat ≤ m.toNat) :
    DistanceVector.Step incr (Linked start) (view start s r.destination) (view start (s.move j q) r.destination) := by
  rw [view_take hq hr]
  obtain ⟨name, iface, hlookup, hsource, hsubnet⟩ := hs.sent g hg
  obtain ⟨d, ip, out, outInfo, hdest, hip, -, -, rfl, -⟩ := RouteManager.processSingleRoute_iff.mp hp
  rw [hsource] at hsender
  obtain rfl := IpAddr.v4.inj hsender
  have hspecified : (RouteManager.determineNextHop ip iface.ip interfaces).isUnspecified = false := by
    exact ((RoutingTable.isValidRoute_protocol rfl).mp hv).2.1
  have hentry : entry start (info.metric + 1, RouteManager.determineNextHop ip iface.ip interfaces) =
      ⟨incr info.metric.toNat, owner start (RouteManager.determineNextHop ip iface.ip interfaces)⟩ := by
    simp only [entry, hspecified, incr_toNat, Bool.false_eq_true, if_false]
  rw [hentry]
  refine DistanceVector.Step.receive (view start s d) j ⟨g.origin, entry start (info.metric, ip)⟩ ?_ ?_ _ ?_ ?_
  · exact ⟨g, hg, info, hinfo, ip, hdest, hip, rfl⟩
  · have hj := ((hs.same j).attached g.subnet).mp ha
    exact ⟨g.subnet, hj, name, iface, hlookup, hsubnet.symm⟩
  · obtain hsender | ⟨hadv, hun, -⟩ := RouteManager.determineNextHop_cases ip iface.ip interfaces
    · left
      rw [hsender]
      exact owner_eq ht (ht.ourIps.mpr ⟨name, iface, hlookup, rfl⟩)
    · right
      rw [hadv]
      simp only [entry, hun, Bool.false_eq_true, if_false]
  · intro e he
    obtain ⟨⟨m, nh⟩, hm, rfl⟩ := Option.map_eq_some_iff.mp he
    have hbound := hle m nh hm
    simp only [entry, incr_toNat]
    exact hbound

theorem view_deliver {g : Datagram ι} (hg : g ∈ s.sent) (ha : Attached (s.nodes j) g.subnet) (now : Instant) :
    DistanceVector.Step incr (Linked start) (view start s d)
      (view start (s.move j ((s.nodes j).step (.update g.update g.source now))) d) := by
  obtain ⟨installed, hw, hl⟩ := ht.node hs j
  obtain h | ⟨-, h⟩ | ⟨key, r, hk, rfl, hv, hq, hle⟩ := Observed.reach_update hw hl hd g.update g.source now
  · exact view_quiet ht hs hd (Or.inl h)
  · exact view_quiet ht hs hd (Or.inr h)
  · have hr := removed_move ht hs hd (.update g.update g.source now) (j := j)
    rw [if_neg (fun hlost => by rw [hq] at hlost; cases hlost.2)] at hr
    obtain ⟨-, sender, haddr, info, hinfo, rfl, hp, -⟩ := mem_accepted.mp hk
    exact view_learn ht hs hg ha haddr hinfo hp hv hq hr hle

theorem view_broadcast (i : ι) :
    DistanceVector.Step incr (Linked start) (view start s d) (view start (s.broadcast i) d) := by
  obtain ⟨installed, hw, hl⟩ := ht.node hs i
  have hheld : (view start (s.broadcast i) d).held = (view start s d).held := by
    funext j
    obtain ⟨sequence, hq⟩ := broadcast_nodes s i j
    simp only [view, hq]
    rfl
  let A : Set (DistanceVector.Advert ι) :=
    {a | a ∈ (view start (s.broadcast i) d).adverts ∧ (view start s d).held a.origin = some a.entry}
  have hadverts : (view start (s.broadcast i) d).adverts = (view start s d).adverts ∪ A := by
    ext a
    constructor
    · intro ha
      obtain ⟨g, hg, info, hinfo, ip, hdest, hip, rfl⟩ := ha
      obtain hold | ⟨name, iface, hlookup, rfl⟩ := mem_broadcast_sent.mp hg
      · exact Or.inl ⟨g, hold, info, hinfo, ip, hdest, hip, rfl⟩
      · right
        refine ⟨⟨_, hg, info, hinfo, ip, hdest, hip, rfl⟩, ?_⟩
        obtain ⟨r, hr, rfl⟩ := List.mem_map.mp hinfo
        rw [RouteManager.destinationOf_toString] at hdest
        rw [Ipv4Addr.parse_toString] at hip
        obtain rfl := Option.some.inj hdest
        obtain rfl := Option.some.inj hip
        simp only [view, Observed.reach_entry hw hl hr, Option.map_some]
    · rintro (⟨g, hg, info, hinfo, ip, hdest, hip, rfl⟩ | ⟨ha, -⟩)
      · exact ⟨g, mem_broadcast_sent.mpr (Or.inl hg), info, hinfo, ip, hdest, hip, rfl⟩
      · exact ha
  have hview : view start (s.broadcast i) d = { view start s d with adverts := (view start s d).adverts ∪ A } :=
    DistanceVector.State.ext hheld hadverts rfl
  rw [hview]
  exact DistanceVector.Step.advertise _ A (fun a ha => ha.2)

theorem view_moves {a : Action ι} {t : System ι κ} (h : Moves s a t) :
    DistanceVector.Step incr (Linked start) (view start s d) (view start t d) := by
  cases h with
  | stay => exact DistanceVector.Step.stay _
  | send i => exact view_broadcast ht hs hd i
  | deliver k j now g hg ha => exact view_deliver ht hs hd hg ha now
  | hello message addr j now =>
    obtain ⟨installed, hw, hl⟩ := ht.node hs j
    exact view_quiet ht hs hd (Or.inl (Observed.reach_hello message addr now))
  | cleanup j now =>
    obtain ⟨installed, hw, hl⟩ := ht.node hs j
    obtain h | ⟨-, h⟩ := Observed.reach_cleanup hw hl hd now
    · exact view_quiet ht hs hd (Or.inl h)
    · exact view_quiet ht hs hd (Or.inr h)

theorem view_run (actions : List (Action ι)) :
    DistanceVector.Reachable incr (Linked start) (view start s d) (view start (s.run actions) d) := by
  induction actions generalizing s with
  | nil => exact Relation.ReflTransGen.refl
  | cons a actions ih =>
    have hstep := view_moves ht hs hd (step_moves s a)
    exact Relation.ReflTransGen.head hstep (ih (hs.moves (step_moves s a)))

end View

section Boot

variable {start : ι → SimpleRoutingProtocol κ} (ht : LocalTopology start)

include ht

theorem boot_attached {d : Ipv4Network} (hd : d.subnet = d) {i : ι} (h : (reach (start i) d).isSome = true) :
    Attached (start i) d := by
  obtain ⟨routerId, hosts, hostsAtTable, names, port, handle, hnew⟩ := ht.booted i
  have hw := Observed.WellFormed.new hnew
  by_contra ha
  have hfind : reach (start i) d = _ := Observed.reach_of_not_attached hw hd ha
  rw [hfind, Option.isSome_map] at h
  obtain ⟨r, hr⟩ := Option.isSome_iff_exists.mp h
  obtain ⟨hmem, rfl⟩ := (RoutingTable.findRoute_iff hw.distinct).mp hr
  -- nothing has been installed yet, so the entry is a direct one
  obtain ⟨name, info, hlookup, rfl⟩ | ⟨-, -, -, hi⟩ := hw.routes r hmem
  · exact ha ⟨name, info, hlookup, hd⟩
  · cases hi

theorem view_boot (d : Ipv4Network) (hd : d.subnet = d) : DistanceVector.Initial (view start (boot start) d) := by
  have hempty : (view start (boot start) d).adverts = ∅ := by
    ext a
    constructor
    · rintro ⟨g, hg, -⟩
      exact absurd hg List.not_mem_nil
    · intro ha
      exact absurd ha (Set.notMem_empty a)
  refine ⟨?_, hempty, rfl⟩
  intro i e he
  obtain ⟨⟨m, ip⟩, hm, rfl⟩ := Option.map_eq_some_iff.mp he
  obtain ⟨installed, hw⟩ := (Sound.boot ht.toTopology).node i
  have hm : reach (start i) d = some (m, ip) := hm
  have ha := boot_attached ht hd (by rw [hm]; rfl)
  have hzero := Observed.reach_attached hw (ht.listed i) ha
  obtain ⟨rfl, rfl⟩ := Prod.mk.inj (Option.some.inj (hm.symm.trans hzero))
  rfl

theorem LocalTopology.interface (i : ι) : ∃ ip ∈ (start i).ourIps, ip.isLoopback = false := by
  obtain ⟨routerId, hosts, hostsAtTable, names, port, handle, hnew⟩ := ht.booted i
  have hw := Observed.WellFormed.new hnew
  unfold SimpleRoutingProtocol.new at hnew
  split at hnew
  · cases hnew
  · next router hr =>
    obtain ⟨interfaces, hi, rfl⟩ := Router.new_ok hr
    obtain ⟨⟨name, info⟩, hmem⟩ := List.exists_mem_of_ne_nil _ (Network.discoverInterfaces_ok hi).1
    have h := Except.ok.inj hnew
    rw [← h]
    exact ⟨info.ip, List.mem_map.mpr ⟨_, hmem, rfl⟩,
      ((Network.discoverInterfaces_ok hi).2 name info (Dictionary.mem_entries.mp hmem)).2.1⟩

theorem LocalTopology.card_lt [Fintype ι] : Fintype.card ι < 2 ^ 32 := by
  choose address hours hloop using ht.interface
  let f (i : ι) : Fin (2 ^ 32) := (address i).bits.toFin
  have hinj : Function.Injective f := by
    intro i j h
    have heq : address i = address j := by
      have hbits := BitVec.toFin_inj.mp h
      cases hi : address i
      cases hj : address j
      rw [hi, hj] at hbits
      exact congrArg Ipv4Addr.mk hbits
    have hj := hours j
    rw [← heq] at hj
    exact ht.addresses i j (address i) (hours i) hj
  have hno : (Ipv4Addr.new 127 0 0 1).bits.toFin ∉ Set.range f := by
    rintro ⟨i, hi⟩
    have hbits := BitVec.toFin_inj.mp hi
    have heq : address i = Ipv4Addr.new 127 0 0 1 := by
      cases hi : address i
      rw [hi] at hbits
      exact congrArg Ipv4Addr.mk hbits
    have hl := hloop i
    rw [heq] at hl
    revert hl
    decide
  have hcard := Fintype.card_lt_of_injective_of_notMem f hinj hno
  rwa [Fintype.card_fin] at hcard

theorem incr_exact [Fintype ι] (m : ℕ) (hm : m < Fintype.card ι) : incr m = m + 1 := by
  have hcard := ht.card_lt
  unfold incr
  exact Nat.mod_eq_of_lt (by omega)

end Boot

end CustomOspf.System
