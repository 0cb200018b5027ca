import CustomOspf.Loops
import CustomOspf.ShortestPaths

/-!
How long a network takes to learn its distances, anew after what it has lost. In a
round every router sends an update and its neighbours receive it, in any order and
among any other actions; after as many rounds as a network is hops away, without a
loss on the way, its metric is the distance.
-/

namespace CustomOspf.System

open SimpleRoutingProtocol HopDistance

section Rounds

variable {ι κ : Type} [DecidableEq ι] [IpNetwork] [NetRoute κ]

theorem run_append (s : System ι κ) (a b : List (Action ι)) : s.run (a ++ b) = (s.run a).run b := List.foldl_append

theorem sent_moves {s t : System ι κ} {a : Action ι} (h : Moves s a t) : s.sent <+: t.sent := by
  cases h with
  | send i => exact List.prefix_append _ _
  | _ => exact List.prefix_refl _

theorem sent_run (s : System ι κ) (actions : List (Action ι)) : s.sent <+: (s.run actions).sent := by
  induction actions generalizing s with
  | nil => exact List.prefix_refl _
  | cons a actions ih => exact (sent_moves (step_moves s a)).trans (ih (s.step a))

omit [NetRoute κ] in
theorem broadcast_new {s : System ι κ} {k : ι} {n : ℕ} {g : Datagram ι} (hnew : s.sent.length ≤ n)
    (hg : (s.broadcast k).sent[n]? = some g) :
    ∃ name info, (s.nodes k).router.interfaces.lookup name = some info ∧
      g = ⟨k, ⟨.v4 info.ip, (s.nodes k).port⟩, info.network.subnet,
        buildUpdate ((s.nodes k).sequence + 1) (s.nodes k).router⟩ := by
  simp only [broadcast, sendRoutingUpdates, List.map_map] at hg
  rw [List.getElem?_append_right hnew] at hg
  obtain ⟨⟨name, info⟩, hentry, rfl⟩ := List.mem_map.mp (List.mem_of_getElem? hg)
  exact ⟨name, info, Dictionary.mem_entries.mp hentry, rfl⟩

theorem deliver_eq {s : System ι κ} {n : ℕ} {j : ι} {g : Datagram ι} (hg : s.sent[n]? = some g)
    (ha : Attached (s.nodes j) g.subnet) (now : Instant) :
    s.deliver n j now = s.move j (receiveUpdate g.update g.source now (s.nodes j)).1 := by
  unfold System.deliver
  rw [hg]
  exact if_pos ha

/-- An update that the router `k` sends in the run is delivered to the router `j` later in the run. -/
def Exchanged (start : ι → SimpleRoutingProtocol κ) (s : System ι κ) (actions : List (Action ι)) (j k : ι) : Prop :=
  ∃ before between after n now, actions = before ++ .send k :: (between ++ .deliver n j now :: after) ∧
    (s.run before).sent.length ≤ n ∧ ∃ g ∈ ((s.run before).broadcast k).sent[n]?, Attached (start j) g.subnet

def Round (start : ι → SimpleRoutingProtocol κ) (s : System ι κ) (actions : List (Action ι)) : Prop :=
  ∀ j k, j ≠ k → Linked start j k → Exchanged start s actions j k

def Keeps (s : System ι κ) (actions : List (Action ι)) (d : Ipv4Network) : Prop := (s.run actions).removed d = s.removed d

theorem removed_moves_le {s t : System ι κ} {a : Action ι} (h : Moves s a t) (d : Ipv4Network) :
    s.removed d ≤ t.removed d := by
  have hmove (j : ι) (q : SimpleRoutingProtocol κ) : s.removed d ≤ (s.move j q).removed d := by
    simp only [move]
    split <;> omega
  cases h with
  | stay => exact le_refl _
  | send i => exact le_refl _
  | deliver k j now g hg ha => exact hmove j _
  | hello message addr j now => exact hmove j _
  | cleanup j now => exact hmove j _

theorem removed_run_le (s : System ι κ) (actions : List (Action ι)) (d : Ipv4Network) :
    s.removed d ≤ (s.run actions).removed d := by
  induction actions generalizing s with
  | nil => exact le_refl _
  | cons a actions ih => exact (removed_moves_le (step_moves s a) d).trans (ih (s.step a))

theorem Keeps.append {s : System ι κ} {a b : List (Action ι)} {d : Ipv4Network} (h : Keeps s (a ++ b) d) :
    Keeps s a d ∧ Keeps (s.run a) b d := by
  unfold Keeps at h ⊢
  rw [run_append] at h
  have hfirst := removed_run_le s a d
  have hrest := removed_run_le (s.run a) b d
  constructor
  · omega
  · omega

structure Calm [Fintype ι] (start : ι → SimpleRoutingProtocol κ) (before rest : List (Action ι)) (d : Ipv4Network) :
    Prop where
  keeps : Keeps ((boot start).run before) rest d
  few : Fintype.card ι + ((boot start).run before).removed d < 2 ^ 32

theorem Calm.few_after [Fintype ι] {start : ι → SimpleRoutingProtocol κ} {before rest : List (Action ι)}
    {d : Ipv4Network} (h : Calm start before rest d) :
    Fintype.card ι + ((boot start).run (before ++ rest)).removed d < 2 ^ 32 := by
  rw [run_append, h.keeps]
  exact h.few

omit [DecidableEq ι] [NetRoute κ] in
theorem metricAt_le_iff {s : System ι κ} {d : Ipv4Network} {i : ι} {m : ℕ} :
    metricAt s d i ≤ m ↔ ∃ n ip, reach (s.nodes i) d = some (n, ip) ∧ n.toNat ≤ m := by
  unfold metricAt
  cases hreach : reach (s.nodes i) d with
  | none => simp
  | some e =>
    obtain ⟨n, ip⟩ := e
    simp

omit [DecidableEq ι] [NetRoute κ] in
theorem metricAt_le_of_bound {s t : System ι κ} {d : Ipv4Network} {i k : ι} {c : ℕ∞}
    (h : ∀ m : ℕ, metricAt s d k ≤ m → metricAt t d i ≤ m + c) : metricAt t d i ≤ metricAt s d k + c := by
  by_cases htop : metricAt s d k = ⊤
  · rw [htop, top_add]
    exact le_top
  · obtain ⟨m, hm⟩ := ENat.ne_top_iff_exists.mp htop
    rw [← hm]
    exact h m hm.symm.le

variable {start : ι → SimpleRoutingProtocol κ}

omit [DecidableEq ι] [NetRoute κ] in
theorem dist_eq_zero_iff {d : Ipv4Network} {i : ι} : dist start d i = 0 ↔ Attached (start i) d :=
  hops_eq_zero_iff (G := linkGraph start) (T := {k | Attached (start k) d})

variable (ht : Static start)

include ht

omit [DecidableEq ι] in
theorem metricAt_attached {s : System ι κ} (hs : Sound start s) {d : Ipv4Network} {i : ι} (h : Attached (start i) d) :
    metricAt s d i = 0 := by
  obtain ⟨installed, hw, hl⟩ := ht.topology.node hs i
  have hheld : reach (s.nodes i) d = _ := Observed.reach_attached hw hl (((hs.same i).attached d).mpr h)
  simp [metricAt, hheld]

theorem metricAt_moves {s t : System ι κ} {a : Action ι} (hs : Sound start s) (h : Moves s a t) {d : Ipv4Network}
    (hd : d.subnet = d) (hkept : t.removed d = s.removed d) (i : ι) : metricAt t d i ≤ metricAt s d i := by
  have hother {j : ι} (hi : i ≠ j) (q : SimpleRoutingProtocol κ) : metricAt (s.move j q) d i ≤ metricAt s d i := by
    simp only [metricAt, move_nodes_of_ne s hi]
    exact le_refl _
  cases h with
  | stay => exact le_refl _
  | send k =>
    obtain ⟨sequence, hq⟩ := broadcast_nodes s k i
    simp only [metricAt, hq]
    exact le_refl _
  | deliver k j now g hg hattached =>
    by_cases hi : i = j
    · subst hi
      obtain ⟨installed, hw⟩ := hs.node i
      obtain ⟨hsound, honly⟩ := ht.node hs i
      rw [← add_zero (metricAt s d i)]
      apply metricAt_le_of_bound
      intro m hm
      obtain ⟨n, ip, hn, hle⟩ := metricAt_le_iff.mp hm
      rw [add_zero, metricAt_le_iff]
      rw [move_nodes_self]
      exact Observed.reach_update_le hw hsound honly hd (Or.inl ⟨n, ip, hn, hle⟩)
    · exact hother hi _
  | hello message addr j now =>
    by_cases hi : i = j
    · subst hi
      obtain ⟨installed, hw, hl⟩ := ht.topology.node hs i
      have hkeep : reach ((s.nodes i).step (.hello message addr now)) d = reach (s.nodes i) d :=
        Observed.reach_hello message addr now
      simp only [metricAt, move_nodes_self, hkeep]
      exact le_refl _
    · exact hother hi _
  | cleanup j now =>
    by_cases hi : i = j
    · subst hi
      obtain ⟨installed, hw, hl⟩ := ht.topology.node hs i
      obtain hkeep | ⟨-, hnone⟩ := Observed.reach_cleanup hw hl hd now
      · simp only [metricAt, move_nodes_self, hkeep]
        exact le_refl _
      · -- the count would grow if there had been a route
        cases hreach : reach (s.nodes i) d with
        | none =>
          have htop : metricAt s d i = ⊤ := by simp [metricAt, hreach]
          rw [htop]
          exact le_top
        | some e =>
          rw [removed_move ht.topology hs hd, if_pos ⟨by rw [hreach]; rfl, hnone⟩] at hkept
          omega
    · exact hother hi _

theorem metricAt_run {s : System ι κ} (hs : Sound start s) {actions : List (Action ι)} {d : Ipv4Network}
    (hd : d.subnet = d) (hkept : Keeps s actions d) (i : ι) : metricAt (s.run actions) d i ≤ metricAt s d i := by
  induction actions generalizing s with
  | nil => exact le_refl _
  | cons a actions ih =>
    have hstep := step_moves s a
    obtain ⟨hone, hrest⟩ := Keeps.append (a := [a]) hkept
    exact (ih (hs.moves hstep) hrest).trans (metricAt_moves ht hs hstep hd hone i)

omit [DecidableEq ι] in
theorem reach_delivered {s : System ι κ} (hs : Sound start s) {j k : ι} (hjk : j ≠ k) {d : Ipv4Network}
    (hd : d.subnet = d) (hna : ¬ Attached (start j) d) {router : Router κ} (hrouter : router.id = (start k).router.id)
    {r : RouteEntry} (hr : r ∈ router.routingTable.routes) (hrd : r.destination.subnet = d) {name : String}
    {info : InterfaceInfo} (hlookup : (start k).router.interfaces.lookup name = some info)
    (hattached : Attached (start j) info.network.subnet) (sequence : UInt64) (port : UInt16) (now : Instant) :
    ∃ n nh, reach (receiveUpdate (buildUpdate sequence router) ⟨.v4 info.ip, port⟩ now (s.nodes j)).1 d =
      some (n, nh) ∧ n.toNat ≤ r.metric.toNat + 1 := by
  obtain ⟨installed, hw⟩ := hs.node j
  obtain ⟨hsound, honly⟩ := ht.node hs j
  have hk : info.ip ∈ (start k).ourIps := ht.topology.ourIps.mpr ⟨name, info, hlookup, rfl⟩
  have hforeign : (s.nodes j).ourIps.contains info.ip = false := by
    rw [Bool.eq_false_iff, (hs.same j).ourIps]
    intro hmem
    exact hjk (ht.topology.addresses j k info.ip (List.contains_iff_mem.mp hmem) hk)
  have hid : router.id ≠ (s.nodes j).router.id := by
    rw [hrouter, (hs.same j).id]
    exact fun h => hjk (ht.ids k j h).symm
  -- the interface it comes in by
  obtain ⟨nameJ, ifaceJ, hlookupJ, hsubnet⟩ := hattached
  rw [← (hs.same j).interfaces] at hlookupJ
  have hcontains : ifaceJ.network.contains info.ip = true := by
    obtain ⟨installedK, hwK⟩ := (Sound.boot ht.topology.toTopology).node k
    rw [Ipv4Network.contains_of_subnet_eq hsubnet, (hwK.interfaces name info hlookup).1]
    exact Ipv4Network.contains_addr info.network
  have hna' : ¬ Attached (s.nodes j) d := fun h => hna (((hs.same j).attached d).mp h)
  obtain ⟨route, hprocessed, hroute, hmetric⟩ := Observed.processSingleRoute_entry hw hd hna' hlookupJ hcontains hrd
    router.id now
  let entry : RouteInfo := ⟨r.destination.toString, r.metric, r.nextHop.toString⟩
  have hentry : entry ∈ (buildUpdate sequence router).routes := List.mem_map.mpr ⟨r, hr, rfl⟩
  have hbound : ∃ n nh, reach ((s.nodes j).step (.update (buildUpdate sequence router) ⟨.v4 info.ip, port⟩ now)) d =
      some (n, nh) ∧ n.toNat ≤ route.metric.toNat :=
    Observed.reach_update_processed hw hsound honly hd hna' hid rfl hentry hprocessed hroute
  obtain ⟨n, nh, hn, hle⟩ := hbound
  refine ⟨n, nh, ?_, ?_⟩
  · rw [← hn]
    simp only [receiveUpdate, hforeign, Bool.false_eq_true, if_false]
    rfl
  · calc n.toNat ≤ route.metric.toNat := hle
      _ = (r.metric + 1).toNat := congrArg UInt32.toNat hmetric
      _ = incr r.metric.toNat := (incr_toNat r.metric).symm
      _ ≤ r.metric.toNat + 1 := incr_le r.metric.toNat

theorem metricAt_deliver {s t : System ι κ} (hs : Sound start s) (ht' : Sound start t) {j k : ι} (hjk : j ≠ k)
    {d : Ipv4Network} (hd : d.subnet = d) {n : ℕ} {g : Datagram ι} (hnew : s.sent.length ≤ n)
    (hg : (s.broadcast k).sent[n]? = some g) (hkept : t.sent[n]? = some g) (hattached : Attached (start j) g.subnet)
    (now : Instant) : metricAt (t.deliver n j now) d j ≤ metricAt s d k + 1 := by
  by_cases hna : Attached (start j) d
  · have hsound : Sound start (t.deliver n j now) := ht'.moves (deliver_moves t n j now)
    rw [metricAt_attached ht hsound hna]
    exact zero_le
  · apply metricAt_le_of_bound
    intro m hm
    obtain ⟨e, ip, hreach, hle⟩ := metricAt_le_iff.mp hm
    obtain ⟨r, hr, he⟩ := Option.map_eq_some_iff.mp hreach
    obtain ⟨rfl, rfl⟩ := Prod.mk.inj he
    have hrd : r.destination.subnet = d := by simpa using List.find?_some hr
    obtain ⟨name, info, hlookup, rfl⟩ := broadcast_new hnew hg
    rw [(hs.same k).interfaces] at hlookup
    obtain ⟨n', nh, hn', hle'⟩ := reach_delivered ht ht' hjk hd hna (hs.same k).id (List.mem_of_find?_eq_some hr) hrd
      hlookup hattached ((s.nodes k).sequence + 1) (s.nodes k).port now
    have hreceived := deliver_eq hkept (((ht'.same j).attached _).mpr hattached) now
    have hbound : metricAt (t.deliver n j now) d j ≤ (m + 1 : ℕ) := by
      rw [metricAt_le_iff, hreceived, move_nodes_self]
      exact ⟨n', nh, hn', by omega⟩
    exact_mod_cast hbound

theorem metricAt_exchanged {s : System ι κ} (hs : Sound start s) {actions : List (Action ι)} {d : Ipv4Network}
    (hd : d.subnet = d) (hkept : Keeps s actions d) {j k : ι} (hjk : j ≠ k) (h : Exchanged start s actions j k) :
    metricAt (s.run actions) d j ≤ metricAt s d k + 1 := by
  obtain ⟨before, between, after, n, now, rfl, hnew, g, hg, hattached⟩ := h
  let sending := s.run before
  let waiting := (sending.broadcast k).run between
  have hsending : Sound start sending := hs.run before
  have hwaiting : Sound start waiting := (hsending.broadcast k).run between
  have harrives : waiting.sent[n]? = some g := by
    obtain ⟨later, hlater⟩ := sent_run (sending.broadcast k) between
    obtain ⟨hlt, -⟩ := List.getElem?_eq_some_iff.mp hg
    rw [← hg, ← List.getElem?_append_left hlt, hlater]
  have hdelivered : Sound start (waiting.deliver n j now) := hwaiting.moves (deliver_moves waiting n j now)
  have hrun : s.run (before ++ .send k :: (between ++ .deliver n j now :: after)) =
      (waiting.deliver n j now).run after := by
    rw [run_append]
    exact run_append (sending.broadcast k) between _
  -- nothing is lost before the update is sent, nor after it has arrived
  obtain ⟨hbefore, hrest⟩ := hkept.append
  obtain ⟨-, hrest⟩ := Keeps.append (a := [.send k]) hrest
  obtain ⟨-, hrest⟩ := hrest.append
  obtain ⟨-, hafter⟩ := Keeps.append (a := [.deliver n j now]) hrest
  rw [hrun]
  calc metricAt ((waiting.deliver n j now).run after) d j
      ≤ metricAt (waiting.deliver n j now) d j := metricAt_run ht hdelivered hd hafter j
    _ ≤ metricAt sending d k + 1 := metricAt_deliver ht hsending hwaiting hjk hd hnew hg harrives hattached now
    _ ≤ metricAt s d k + 1 := by gcongr; exact metricAt_run ht hs hd hbefore k

theorem metricAt_rounds {n : ℕ} {s : System ι κ} {actions : List (Action ι)} (hs : Sound start s) {d : Ipv4Network}
    (hd : d.subnet = d) (hkept : Keeps s actions d) (h : Rounds System.run (Round start) n s actions) (i : ι)
    (hi : dist start d i ≤ n) : metricAt (s.run actions) d i ≤ dist start d i := by
  have hfall : ∀ s as, Sound start s → Keeps s as d → ∀ i, metricAt (s.run as) d i ≤ metricAt s d i :=
    fun s as hs has i => metricAt_run ht hs hd has i
  have hzero : ∀ s, Sound start s → ∀ t ∈ {k | Attached (start k) d}, metricAt s d t = 0 :=
    fun s hs t hattached => metricAt_attached ht hs hattached
  have hround : ∀ s as, Sound start s → Keeps s as d → Round start s as →
      ∀ j k, (linkGraph start).Adj j k → metricAt (s.run as) d j ≤ metricAt s d k + 1 := by
    rintro s as hs has hround j k ⟨hjk, hlink⟩
    exact metricAt_exchanged ht hs hd has hjk (hround j k hjk hlink)
  have hbase : ∀ i, dist start d i ≤ (0 : ℕ) → metricAt s d i ≤ dist start d i := by
    intro i hi
    rw [hzero s hs i (dist_eq_zero_iff.mp (le_antisymm hi zero_le))]
    exact zero_le
  apply le_hops_of_rounds run_append (fun s a b => Keeps.append) (fun s as hs => hs.run as) hfall hzero hround h hs hkept
    hbase
  rw [Nat.zero_add]
  exact hi

/-! The lower bound holds as long as no metric can reach the largest one. -/

/-- The network has come here from its start by what routers may do to the distances. -/
structure Derived (start : ι → SimpleRoutingProtocol κ) (s : System ι κ) : Prop where
  sound : Sound start s
  reachable : ∀ d : Ipv4Network, d.subnet = d →
    DistanceVector.Reachable incr (Linked start) (view start (boot start) d) (view start s d)

omit ht in
theorem Derived.run (ht : LocalTopology start) (actions : List (Action ι)) : Derived start ((boot start).run actions) :=
  ⟨(Sound.boot ht.toTopology).run actions, fun _ hd => reachable_view ht hd actions⟩

theorem Derived.behind [Fintype ι] {s : System ι κ} (hs : Derived start s) {d : Ipv4Network} (hd : d.subnet = d)
    (hfew : Fintype.card ι + s.removed d < 2 ^ 32) : DistanceVector.Behind (dist start d) (view start s d) := by
  have hzero : ∀ i e, (view start (boot start) d).held i = some e → dist start d i = 0 := by
    intro i e he
    obtain ⟨e', he', -⟩ := Option.map_eq_some_iff.mp he
    have he' : reach (start i) d = some e' := he'
    exact hops_of_mem (boot_attached ht.topology hd (by rw [he']; rfl))
  apply DistanceVector.Behind.of_reachable (fun j k h => dist_linked h) incr_le (view_boot ht.topology d hd) hzero
    (hs.reachable d hd)
  intro m hm
  change m < _ + s.removed d at hm
  unfold incr
  exact Nat.mod_eq_of_lt (by omega)

theorem Derived.dist_le_metricAt [Fintype ι] {s : System ι κ} (hs : Derived start s) {d : Ipv4Network} (hd : d.subnet = d)
    (hfew : Fintype.card ι + s.removed d < 2 ^ 32) (i : ι) : dist start d i ≤ metricAt s d i := by
  unfold metricAt
  cases hreach : reach (s.nodes i) d with
  | none => exact le_top
  | some e =>
    apply (hs.behind ht hd hfew).held i (entry start e)
    simp only [view, hreach, Option.map_some]

omit [DecidableEq ι] in
theorem entries_of_metricAt {s : System ι κ} (hs : Sound start s) {d : Ipv4Network} {i : ι}
    (hfinite : metricAt s d i ≠ ⊤) :
    (∃ r ∈ (s.nodes i).router.routingTable.routes, r.destination.subnet = d) ∧
      ∀ r ∈ (s.nodes i).router.routingTable.routes, r.destination.subnet = d →
        (r.metric.toNat : ℕ∞) = metricAt s d i := by
  obtain ⟨m, hm⟩ := ENat.ne_top_iff_exists.mp hfinite
  obtain ⟨e, ip, hreach, -⟩ := metricAt_le_iff.mp (le_of_eq hm.symm)
  constructor
  · obtain ⟨r, hr, -⟩ := Option.map_eq_some_iff.mp hreach
    exact ⟨r, List.mem_of_find?_eq_some hr, by simpa using List.find?_some hr⟩
  · rintro r hr rfl
    obtain ⟨installed, hw, hl⟩ := ht.topology.node hs i
    have hentry : reach (s.nodes i) r.destination.subnet = some (r.metric, r.nextHop) := Observed.reach_entry hw hl hr
    simp [metricAt, hentry]

theorem dist_le_route [Fintype ι] {actions : List (Action ι)} {i : ι} {r : RouteEntry}
    (hfew : Fintype.card ι + ((boot start).run actions).removed r.destination.subnet < 2 ^ 32)
    (hr : r ∈ (((boot start).run actions).nodes i).router.routingTable.routes) :
    dist start r.destination.subnet i ≤ r.metric.toNat := by
  have hs : Sound start ((boot start).run actions) := (Sound.boot ht.topology.toTopology).run actions
  obtain ⟨installed, hw, hl⟩ := ht.topology.node hs i
  have hentry : reach (((boot start).run actions).nodes i) r.destination.subnet = some (r.metric, r.nextHop) :=
    Observed.reach_entry hw hl hr
  have hle := (Derived.run ht.topology actions).dist_le_metricAt ht (Ipv4Network.subnet_subnet r.destination) hfew i
  simpa [metricAt, hentry] using hle

theorem metricAt_converged [Fintype ι] {before rest : List (Action ι)} {d : Ipv4Network} (hd : d.subnet = d)
    (hcalm : Calm start before rest d) {n : ℕ} (h : Rounds System.run (Round start) n ((boot start).run before) rest)
    {i : ι} (hi : dist start d i ≤ n) : metricAt ((boot start).run (before ++ rest)) d i = dist start d i := by
  have hbefore : Sound start ((boot start).run before) := (Sound.boot ht.topology.toTopology).run before
  apply le_antisymm
  · rw [run_append]
    exact metricAt_rounds ht hbefore hd hcalm.keeps h i hi
  · exact (Derived.run ht.topology (before ++ rest)).dist_le_metricAt ht hd hcalm.few_after i

/-- After `n` rounds without a loss a network at most `n` hops away is in the table, with its distance for a metric. -/
theorem converges [Fintype ι] {before rest : List (Action ι)} {d : Ipv4Network} (hd : d.subnet = d)
    (hcalm : Calm start before rest d) {n : ℕ} (h : Rounds System.run (Round start) n ((boot start).run before) rest) :
    let s := (boot start).run (before ++ rest)
    ∀ i, dist start d i ≤ n →
      (∃ r ∈ (s.nodes i).router.routingTable.routes, r.destination.subnet = d) ∧
        ∀ r ∈ (s.nodes i).router.routingTable.routes, r.destination.subnet = d →
          (r.metric.toNat : ℕ∞) = dist start d i := by
  intro s i hi
  have hs : Sound start s := (Sound.boot ht.topology.toTopology).run (before ++ rest)
  have hmetric : metricAt s d i = dist start d i := metricAt_converged ht hd hcalm h hi
  rw [← hmetric]
  apply entries_of_metricAt ht hs
  rw [hmetric]
  exact ne_top_of_le_ne_top (ENat.natCast_ne_top n) hi

end Rounds

/-! The line of three routers in two rounds after a loss, with the updates of each round crossing. -/

section Line

theorem linked_iff {i k : Fin 3} : Linked line i k ↔ (line i).router.interfaces.entries.any (fun e =>
    (line k).router.interfaces.entries.any (fun e' => e'.2.network.subnet = e.2.network.subnet)) = true := by
  simp only [Linked, Attached, List.any_eq_true, decide_eq_true_eq, Sigma.exists, Dictionary.mem_entries]
  constructor
  · rintro ⟨d, ⟨name, info, hl, rfl⟩, name', info', hl', hd⟩
    exact ⟨name, info, hl, name', info', hl', hd⟩
  · rintro ⟨name, info, hl, name', info', hl', hd⟩
    exact ⟨_, ⟨name, info, hl, rfl⟩, name', info', hl', hd⟩

theorem line_links {j k : Fin 3} (hjk : j ≠ k) (hlink : Linked line j k) :
    (j = 1 ∧ k = 0) ∨ (j = 0 ∧ k = 1) ∨ (j = 2 ∧ k = 1) ∨ (j = 1 ∧ k = 2) := by
  rw [linked_iff] at hlink
  revert j k
  decide +kernel

local instance neZeroLine : NeZero 3 := ⟨by decide⟩

def lineRound (n : ℕ) (now : Instant) : List (Action (Fin 3)) :=
  [.send 0, .send 1, .send 2, .deliver n 1 now, .deliver (n + 3) 0 now, .deliver (n + 2) 2 now, .deliver (n + 4) 1 now]

def lineLost : List (Action (Fin 3)) :=
  lineRound 0 0 ++ (lineRound 5 0 ++ [.cleanup 1 (Duration.fromSecs 20), .cleanup 2 (Duration.fromSecs 20)])

def lineAgain : List (Action (Fin 3)) := lineRound 10 (Duration.fromSecs 21) ++ lineRound 15 (Duration.fromSecs 21)

theorem line_round {s : System (Fin 3) (Finset SystemRoute)} {n : ℕ} (now : Instant)
    (h : (s.sent.length = n ∧ ((s.run [.send 0]).sent.length = n + 2 ∧ (s.run [.send 0, .send 1]).sent.length = n + 4)) ∧
      (∃ g ∈ (s.broadcast 0).sent[n]?, Attached (line 1) g.subnet) ∧
      (∃ g ∈ ((s.run [.send 0]).broadcast 1).sent[n + 3]?, Attached (line 0) g.subnet) ∧
      (∃ g ∈ ((s.run [.send 0]).broadcast 1).sent[n + 2]?, Attached (line 2) g.subnet) ∧
      ∃ g ∈ ((s.run [.send 0, .send 1]).broadcast 2).sent[n + 4]?, Attached (line 1) g.subnet) :
    Round line s (lineRound n now) := by
  obtain ⟨⟨h0, h1, h2⟩, h01, h10, h12, h21⟩ := h
  intro j k hjk hlink
  rcases line_links hjk hlink with ⟨rfl, rfl⟩ | ⟨rfl, rfl⟩ | ⟨rfl, rfl⟩ | ⟨rfl, rfl⟩
  · exact ⟨[], [.send 1, .send 2], _, n, now, rfl, h0.le, h01⟩
  · exact ⟨[.send 0], [.send 2, .deliver n 1 now], _, n + 3, now, rfl, h1.trans_le (by omega), h10⟩
  · exact ⟨[.send 0], [.send 2, .deliver n 1 now, .deliver (n + 3) 0 now], _, n + 2, now, rfl, h1.le, h12⟩
  · exact ⟨[.send 0, .send 1], [.deliver n 1 now, .deliver (n + 3) 0 now, .deliver (n + 2) 2 now], _, n + 4, now, rfl,
      h2.le, h21⟩

theorem line_rounds : Rounds System.run (Round line) 2 ((boot line).run lineLost) lineAgain := by
  rw [lineAgain, ← List.append_nil (lineRound 15 _)]
  apply Rounds.succ
  · apply line_round
    decide +kernel
  · apply Rounds.succ
    · apply line_round
      decide +kernel
    · exact Rounds.zero _ _

theorem line_calm : Calm line lineLost lineAgain farNetwork := by
  have hlost : ((boot line).run lineLost).removed farNetwork = 2 := by decide +kernel
  have hagain : (((boot line).run lineLost).run lineAgain).removed farNetwork = 2 := by decide +kernel
  have hcard : Fintype.card (Fin 3) = 3 := rfl
  constructor
  · exact hagain.trans hlost.symm
  · omega

theorem line_dist : dist line farNetwork 2 ≤ (2 : ℕ) := by
  have hlinked : ∀ i k, (i = 2 ∧ k = 1) ∨ (i = 1 ∧ k = 0) → Linked line i k := by
    simp only [linked_iff]
    decide +kernel
  have hfar : dist line farNetwork 0 = 0 := dist_eq_zero_iff.mpr (by decide +kernel)
  calc dist line farNetwork 2 ≤ dist line farNetwork 1 + 1 := dist_linked (hlinked 2 1 (by decide))
    _ ≤ dist line farNetwork 0 + 1 + 1 := by gcongr; exact dist_linked (hlinked 1 0 (by decide))
    _ = (2 : ℕ) := by rw [hfar]; rfl

theorem line_converges :
    let s := (boot line).run (lineLost ++ lineAgain)
    (∃ r ∈ (s.nodes 2).router.routingTable.routes, r.destination.subnet = farNetwork) ∧
      ∀ r ∈ (s.nodes 2).router.routingTable.routes, r.destination.subnet = farNetwork →
        (r.metric.toNat : ℕ∞) = dist line farNetwork 2 := by
  have hd : farNetwork.subnet = farNetwork := by decide +kernel
  exact converges line_static hd line_calm line_rounds 2 line_dist

end Line

end CustomOspf.System
