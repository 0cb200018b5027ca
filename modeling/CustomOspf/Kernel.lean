import CustomOspf.Entries
import CustomOspf.RouteManager
import CustomOspf.SystemRoutes

/-!
The agreement of the kernel with the routing table over sequences of table operations.
-/

namespace CustomOspf

namespace Kernel

open LawfulNetRoute
open RoutingTable (systemRoute)

section Agreement

variable {κ : Type} [IpNetwork] [NetRoute κ] [LawfulNetRoute κ]

/-! What the entries of the table and the kernel have in common, with `initial` the kernel of others. -/

def Unclaimed (initial : κ) (d : Ipv4Network) : Prop :=
  ∀ s ∈ held initial, ¬ (s.destination = d.network ∧ s.prefixLen = d.prefixLen)

structure Agrees (initial : κ) (find : Ipv4Network → Option RouteEntry) (kernel : κ) : Prop where
  destination : ∀ d r, find d = some r → r.destination = d
  learned : ∀ d r, find d = some r → r.source = .direct ∨
    (r.source = .protocol ∧ d.subnet = d ∧ Unclaimed initial d)
  takes : Takes kernel = Takes initial
  kernel_iff : ∀ s, s ∈ held kernel ↔ s ∈ held initial ∨
    ∃ d r, find d = some r ∧ r.source = .protocol ∧ Takes initial s ∧ s = systemRoute r

variable {initial kernel : κ} {find : Ipv4Network → Option RouteEntry}

theorem Agrees.protocol (h : Agrees initial find kernel) {d : Ipv4Network} {r : RouteEntry}
    (hr : find d = some r) (hs : r.source = .protocol) : d.subnet = d ∧ Unclaimed initial d := by
  rcases h.learned d r hr with hd | ⟨-, hn, hu⟩
  · rw [hs] at hd
    cases hd
  · exact ⟨hn, hu⟩

theorem Agrees.same_network (h : Agrees initial find kernel) {d d' : Ipv4Network} {r r' : RouteEntry}
    (hr : find d = some r) (hs : r.source = .protocol) (hr' : find d' = some r')
    (hn' : d'.subnet = d') (he : (systemRoute r).SameNetwork (systemRoute r')) : d = d' := by
  have hd := h.destination d r hr
  have hd' := h.destination d' r' hr'
  subst hd hd'
  have hsub := (Ipv4Network.subnet_eq_iff r.destination r'.destination).mpr he
  rw [(h.protocol hr hs).1, hn'] at hsub
  exact hsub

theorem Agrees.only (h : Agrees initial find kernel) {d : Ipv4Network} {r : RouteEntry} (hr : find d = some r)
    (hs : r.source = .protocol) : ∀ s ∈ held kernel, s.SameNetwork (systemRoute r) → s = systemRoute r := by
  intro s hk hsame
  obtain ⟨hn, hu⟩ := h.protocol hr hs
  rcases (h.kernel_iff s).mp hk with hi | ⟨d', r', hr', hs', -, rfl⟩
  · have hd := h.destination d r hr
    subst hd
    exact absurd hsame (hu s hi)
  · obtain rfl := h.same_network hr' hs' hr hn hsame
    obtain rfl := Option.some.inj (hr.symm.trans hr')
    rfl

theorem Agrees.not_initial (h : Agrees initial find kernel) {d : Ipv4Network} {r : RouteEntry}
    (hr : find d = some r) (hs : r.source = .protocol) : systemRoute r ∉ held initial := by
  intro hi
  have hd := h.destination d r hr
  subst hd
  exact (h.protocol hr hs).2 _ hi ⟨rfl, rfl⟩

theorem Agrees.free (h : Agrees initial find kernel) {r : RouteEntry} (hn : r.destination.subnet = r.destination)
    (hu : Unclaimed initial r.destination) (hd : find r.destination = none) :
    ∀ s ∈ held kernel, ¬ s.SameNetwork (systemRoute r) := by
  intro s hk hsame
  rcases (h.kernel_iff s).mp hk with hi | ⟨d', r', hr', hs', -, rfl⟩
  · exact hu s hi hsame
  · have hd' := h.destination d' r' hr'
    subst hd'
    have hsub := (Ipv4Network.subnet_eq_iff r'.destination r.destination).mpr hsame
    rw [(h.protocol hr' hs').1, hn] at hsub
    rw [hsub, hd] at hr'
    cases hr'

theorem Agrees.withdraw (h : Agrees initial find kernel) {d : Ipv4Network} {existing : RouteEntry}
    (hd : find d = some existing) :
    Agrees initial (Function.update find d none) (RoutingTable.withdraw kernel existing) := by
  have hold {d' : Ipv4Network} {r : RouteEntry} (hr : Function.update find d none d' = some r) :
      d' ≠ d ∧ find d' = some r := by
    by_cases he : d' = d
    · subst he
      simp at hr
    · rw [Function.update_of_ne he] at hr
      exact ⟨he, hr⟩
  have hdest : ∀ d' r, Function.update find d none d' = some r → r.destination = d' :=
    fun d' r hr => h.destination d' r (hold hr).2
  have hlearned : ∀ d' r, Function.update find d none d' = some r → r.source = .direct ∨
      (r.source = .protocol ∧ d'.subnet = d' ∧ Unclaimed initial d') := fun d' r hr => h.learned d' r (hold hr).2
  rcases h.learned d existing hd with hsrc | ⟨hsrc, hn, hu⟩
  · -- a direct route is in no kernel
    have hsame : RoutingTable.withdraw kernel existing = kernel := by simp [RoutingTable.withdraw, hsrc]
    rw [hsame]
    refine ⟨hdest, hlearned, h.takes, fun s => ?_⟩
    rw [h.kernel_iff]
    apply or_congr_right
    constructor
    · rintro ⟨d', r, hr, hs, htakes, rfl⟩
      refine ⟨d', r, ?_, hs, htakes, rfl⟩
      rw [Function.update_of_ne, hr]
      rintro rfl
      obtain rfl := Option.some.inj (hd.symm.trans hr)
      rw [hsrc] at hs
      cases hs
    · rintro ⟨d', r, hr, hs⟩
      exact ⟨d', r, (hold hr).2, hs⟩
  · have hgone : RoutingTable.withdraw kernel existing = RoutingTable.uninstall kernel (systemRoute existing) := by
      simp [RoutingTable.withdraw, hsrc]
    rw [hgone]
    refine ⟨hdest, hlearned, takes_uninstall.trans h.takes, fun s => ?_⟩
    rw [held_uninstall (h.only hd hsrc), h.kernel_iff]
    constructor
    · rintro ⟨hi | ⟨d', r, hr, hs, htakes, rfl⟩, hne⟩
      · exact Or.inl hi
      · refine Or.inr ⟨d', r, ?_, hs, htakes, rfl⟩
        rw [Function.update_of_ne, hr]
        rintro rfl
        obtain rfl := Option.some.inj (hd.symm.trans hr)
        exact hne rfl
    · rintro (hi | ⟨d', r, hr, hs, htakes, rfl⟩)
      · exact ⟨Or.inl hi, fun he => h.not_initial hd hsrc (he ▸ hi)⟩
      · obtain ⟨hne, hr⟩ := hold hr
        refine ⟨Or.inr ⟨d', r, hr, hs, htakes, rfl⟩, fun he => hne ?_⟩
        exact h.same_network hr hs hd hn (by rw [he]; exact ⟨rfl, rfl⟩)

theorem Agrees.announce (h : Agrees initial find kernel) {r : RouteEntry} (hs : r.source = .protocol)
    (hn : r.destination.subnet = r.destination) (hu : Unclaimed initial r.destination)
    (hd : find r.destination = none) :
    Agrees initial (Function.update find r.destination (some r)) (RoutingTable.announce kernel r) := by
  have hcases {d' : Ipv4Network} {r' : RouteEntry}
      (hr' : Function.update find r.destination (some r) d' = some r') :
      (d' = r.destination ∧ r' = r) ∨ find d' = some r' := by
    by_cases he : d' = r.destination
    · subst he
      rw [Function.update_self] at hr'
      exact Or.inl ⟨rfl, (Option.some.inj hr').symm⟩
    · rw [Function.update_of_ne he] at hr'
      exact Or.inr hr'
  have hinstall : RoutingTable.announce kernel r = RoutingTable.install kernel (systemRoute r) := by
    simp [RoutingTable.announce, hs]
  rw [hinstall]
  refine ⟨?_, ?_, takes_install.trans h.takes, ?_⟩
  · intro d' r' hr'
    rcases hcases hr' with ⟨rfl, rfl⟩ | hr'
    · rfl
    · exact h.destination d' r' hr'
  · intro d' r' hr'
    rcases hcases hr' with ⟨rfl, rfl⟩ | hr'
    · exact Or.inr ⟨hs, hn, hu⟩
    · exact h.learned d' r' hr'
  · intro s
    rw [held_install (h.free hn hu hd), h.kernel_iff, h.takes]
    constructor
    · rintro ((hi | ⟨d', r', hr', hs', htakes, rfl⟩) | ⟨htakes, rfl⟩)
      · exact Or.inl hi
      · refine Or.inr ⟨d', r', ?_, hs', htakes, rfl⟩
        rw [Function.update_of_ne, hr']
        rintro rfl
        rw [hd] at hr'
        cases hr'
      · exact Or.inr ⟨r.destination, r, Function.update_self _ _ _, hs, htakes, rfl⟩
    · rintro (hi | ⟨d', r', hr', hs', htakes, rfl⟩)
      · exact Or.inl (Or.inl hi)
      · rcases hcases hr' with ⟨-, rfl⟩ | hr'
        · exact Or.inr ⟨htakes, rfl⟩
        · exact Or.inl (Or.inr ⟨d', r', hr', hs', htakes, rfl⟩)

def agreement (initial : κ) : EntryInvariant κ where
  entered r := r.source = .protocol ∧ r.destination.subnet = r.destination ∧ Unclaimed initial r.destination
  holds := Agrees initial
  withdraw _ _ _ _ h hd := h.withdraw hd
  announce _ _ _ h hr hd := h.announce hr.1 hr.2.1 hr.2.2 hd

abbrev TableAgrees (initial : κ) (t : RoutingTable κ) : Prop := (agreement initial).Holds t

variable {t : RoutingTable κ}

theorem TableAgrees.mem_iff (h : TableAgrees initial t) (s : SystemRoute) :
    s ∈ held t.routeHandle ↔ s ∈ held initial ∨ ∃ r ∈ t.routes, r.source = .protocol ∧ Takes initial s ∧
      s = systemRoute r := by
  rw [h.entries.kernel_iff]
  refine or_congr_right ⟨?_, ?_⟩
  · rintro ⟨d, r, hr, hs⟩
    exact ⟨r, RoutingTable.findRoute_mem hr, hs⟩
  · rintro ⟨r, hr, hs⟩
    exact ⟨r.destination, r, (RoutingTable.findRoute_iff h.distinct).mpr ⟨hr, rfl⟩, hs⟩

theorem TableAgrees.held_drop (h : TableAgrees initial t) : held t.drop = held initial := by
  ext s
  rw [h.drop.kernel_iff]
  refine or_iff_left ?_
  rintro ⟨d, r, hr, hs, -⟩
  have hkept := (Option.filter_eq_some_iff.mp hr).2
  simp [hs] at hkept

/-! Sequences of operations on the table of a router. -/

inductive TableOp where
  | update (routes : List RouteEntry)
  | remove (route : RouteEntry)
  | removeVia (nextHop : Ipv4Addr)

def TableOp.apply (router : Router κ) : TableOp → Router κ
  | .update routes => router.updateRoutingTable routes
  | .remove route => { router with routingTable := router.routingTable.removeRoute route }
  | .removeVia nextHop => { router with routingTable := (router.routingTable.removeRoutesViaNexthop nextHop).1 }

def Processed (r : RouteEntry) : Prop :=
  ∃ info advertiser sender interfaces now state,
    RouteManager.processSingleRoute info advertiser sender interfaces now = some (r, state)

def Learns (initial : κ) (t : RoutingTable κ) (op : TableOp) : Prop :=
  ∀ routes, op = .update routes → ∀ r ∈ routes, Processed r ∧
    (t.isValidRoute r = true → Unclaimed initial r.destination)

theorem Processed.entered {r : RouteEntry} (hp : Processed r)
    (hu : t.isValidRoute r = true → Unclaimed initial r.destination) : (agreement initial).Entered t r := by
  obtain ⟨info, advertiser, sender, interfaces, now, state, hp⟩ := hp
  obtain ⟨d, nh, name, iface, hd, -, -, -, rfl, -⟩ := RouteManager.processSingleRoute_iff.mp hp
  exact fun hv => ⟨rfl, RouteManager.destinationOf_subnet hd, hu hv⟩

omit [LawfulNetRoute κ] in
theorem apply_localNetworks (router : Router κ) (op : TableOp) :
    (op.apply router).routingTable.localNetworks = router.routingTable.localNetworks := by
  cases op with
  | update routes => exact Router.updateRoutes_localNetworks _ routes
  | remove route => exact RoutingTable.removeRoute_localNetworks _ route
  | removeVia nextHop => rfl

theorem TableAgrees.apply {router : Router κ} (h : TableAgrees initial router.routingTable)
    {op : TableOp} (hop : Learns initial router.routingTable op) :
    TableAgrees initial (op.apply router).routingTable := by
  cases op with
  | update routes =>
    apply h.updateRoutes
    intro r hr
    obtain ⟨hp, hu⟩ := hop routes rfl r hr
    exact hp.entered hu
  | remove route => exact h.removeRoute route
  | removeVia nextHop => exact h.removeRoutesViaNexthop nextHop

theorem TableAgrees.run {router : Router κ} (h : TableAgrees initial router.routingTable)
    {ops : List TableOp} (hops : ∀ op ∈ ops, Learns initial router.routingTable op) :
    TableAgrees initial (ops.foldl TableOp.apply router).routingTable := by
  induction ops generalizing router with
  | nil => exact h
  | cons op ops ih =>
    apply ih (TableAgrees.apply h (hops op List.mem_cons_self))
    intro op' hop' routes he r hr
    obtain ⟨hp, hu⟩ := hops op' (List.mem_cons_of_mem op hop') routes he r hr
    refine ⟨hp, fun hv => hu ?_⟩
    rw [← hv]
    exact (RoutingTable.isValidRoute_congr (apply_localNetworks router op) r).symm

theorem TableAgrees.new {id : String} {hosts hostsAtTable : List NetworkInterface} {names : List String}
    {router : Router κ} (h : Router.new id hosts hostsAtTable names initial = .ok router) :
    TableAgrees initial router.routingTable := by
  obtain ⟨interfaces, -, rfl⟩ := Router.new_ok h
  obtain ⟨hd, -, hhandle, hroutes, -, -⟩ := Router.addDirectRoutes_spec interfaces.entries
    (t := RoutingTable.new initial hostsAtTable) List.nodup_nil (by simp [RoutingTable.new])
  have hdirect : ∀ r ∈ (interfaces.entries.foldl (fun table e => table.addRoute (Router.directRoute e.1 e.2))
      (RoutingTable.new initial hostsAtTable)).routes, r.source = .direct := by
    intro r hr
    rcases hroutes r hr with hr | ⟨e, -, rfl⟩
    · simp [RoutingTable.new] at hr
    · rfl
  refine ⟨hd, fun d r hr => RoutingTable.findRoute_destination hr,
    fun d r hr => Or.inl (hdirect r (RoutingTable.findRoute_mem hr)), congrArg Takes hhandle, ?_⟩
  intro s
  simp only [hhandle]
  refine (or_iff_left ?_).symm
  rintro ⟨d, r, hr, hs, -⟩
  have := hdirect r (RoutingTable.findRoute_mem hr)
  rw [hs] at this
  cases this

theorem kernel_agrees {id : String} {hosts hostsAtTable : List NetworkInterface} {names : List String}
    {initial : Finset SystemRoute} {router : Router (Finset SystemRoute)}
    (hnew : Router.new id hosts hostsAtTable names initial = .ok router) {ops : List TableOp}
    (hops : ∀ op ∈ ops, Learns initial router.routingTable op) :
    let t := (ops.foldl TableOp.apply router).routingTable
    (∀ s, s ∈ t.routeHandle ↔ s ∈ initial ∨ ∃ r ∈ t.routes, r.source = .protocol ∧
      s = ⟨r.destination.network, r.destination.prefixLen, r.nextHop⟩) ∧ t.drop = initial := by
  have h := TableAgrees.run (TableAgrees.new hnew) hops
  refine ⟨fun s => ?_, Finset.coe_injective (TableAgrees.held_drop h)⟩
  simpa [systemRoute] using TableAgrees.mem_iff h s

end Agreement

theorem kernel_agrees_witness :
    let eth := NetworkInterface.up "eth0" (.new 10 0 0 1) 24
    let other : SystemRoute := ⟨.new 0 0 0 0, 0, .new 10 0 0 254⟩
    let learned : RouteEntry := ⟨⟨.new 10 2 0 0, 24⟩, .new 10 0 0 2, "eth0", 1, .protocol⟩
    ∃ router : Router (Finset SystemRoute), Router.new "A" [eth] [eth] ["eth0"] {other} = .ok router ∧
      let t := ([TableOp.update [learned], TableOp.removeVia (.new 10 0 0 3)].foldl TableOp.apply router).routingTable
      (∀ s, s ∈ t.routeHandle ↔ s ∈ ({other} : Finset SystemRoute) ∨ ∃ r ∈ t.routes, r.source = .protocol ∧
        s = ⟨r.destination.network, r.destination.prefixLen, r.nextHop⟩) ∧ t.drop = {other} := by
  intro eth other learned
  have hok : (Router.new "A" [eth] [eth] ["eth0"] ({other} : Finset SystemRoute)).isOk = true := by decide +kernel
  have hp : Processed learned :=
    ⟨⟨"10.2.0.2/24", 0, "0.0.0.0"⟩, "B", .new 10 0 0 2, AList.insert "eth0"
      ⟨"eth0", .new 10 0 0 1, ⟨.new 10 0 0 1, 24⟩, 1⟩ ∅, 0, ⟨learned, 0, "B"⟩, by decide +kernel⟩
  have hu : Unclaimed ({other} : Finset SystemRoute) learned.destination := by
    unfold Unclaimed
    decide +kernel
  refine ⟨started _ hok, started_ok hok, kernel_agrees (started_ok hok) ?_⟩
  intro op hop routes he r hr
  simp only [List.mem_cons, List.not_mem_nil, or_false] at hop
  rcases hop with rfl | rfl
  · cases he
    obtain rfl := List.mem_singleton.mp hr
    exact ⟨hp, fun _ => hu⟩
  · cases he

end Kernel

end CustomOspf
