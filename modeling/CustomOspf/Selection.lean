import CustomOspf.Expiry
import Mathlib.Order.Bounds.Basic

/-!
The route a whole update leaves for one network. The four tests an entry goes
through agree on the least metric, in whatever order the entries are listed.
-/

namespace CustomOspf

namespace RouteManager

variable {κ : Type} [IpNetwork]

structure Admissible (router : Router κ) (d : Ipv4Network) (info : RouteInfo) : Prop where
  destination : destinationOf info.destination = some d
  nextHop : (Ipv4Addr.parse info.nextHop).isSome = true
  foreign : isOurNetwork d router.interfaces = false
  remote : ∀ net ∈ router.routingTable.localNetworks, d.subnet ≠ net.subnet

def OnLink (router : Router κ) (sender : Ipv4Addr) : Prop :=
  ∃ name info, router.interfaces.lookup name = some info ∧ info.network.contains sender = true

def resolvedNextHop (router : Router κ) (sender : Ipv4Addr) (info : RouteInfo) : Option Ipv4Addr :=
  (Ipv4Addr.parse info.nextHop).map (fun nh => determineNextHop nh sender router.interfaces)

/-- The metrics in competition for a network: the installed one, and that of each admissible entry plus one. -/
def candidates (router : Router κ) (update : RoutingUpdate) (d : Ipv4Network) : Set ℕ :=
  {m | (∃ existing ∈ router.routingTable.findRoute d, existing.metric.toNat = m) ∨
    ∃ info ∈ update.routes, Admissible router d info ∧ info.metric.toNat + 1 = m}

def Improves (router : Router κ) (d : Ipv4Network) (info : RouteInfo) : Prop :=
  ∀ existing ∈ router.routingTable.findRoute d, info.metric.toNat + 1 ≤ existing.metric.toNat

def Built (router : Router κ) (update : RoutingUpdate) (sender : Ipv4Addr) (now : Instant) (info : RouteInfo)
    (r : RouteEntry) : Prop :=
  processSingleRoute info update.routerId sender router.interfaces now = some (r, ⟨r, now, update.routerId⟩)

end RouteManager

namespace Observed

open RouteManager

section Selection

variable {κ : Type} [IpNetwork] [NetRoute κ]
variable {o : Observed κ} {update : RoutingUpdate} {sender : Ipv4Addr} {now : Instant} {d : Ipv4Network}

omit [IpNetwork] in
theorem metric_succ {info : RouteInfo} (h : info.metric.toNat < 0xffffffff) :
    (info.metric + 1).toNat = info.metric.toNat + 1 := by
  rw [UInt32.toNat_add, UInt32.toNat_one]
  exact Nat.mod_eq_of_lt (by omega)

def batch (o : Observed κ) (update : RoutingUpdate) (sender : Ipv4Addr) (now : Instant) (d : Ipv4Network) :
    List RouteEntry :=
  ((acceptedRoutes update sender now o.protocol.router).map Prod.snd).filter (fun route => route.destination = d)

omit [NetRoute κ] in
theorem mem_batch {r : RouteEntry} : r ∈ batch o update sender now d ↔ r.destination = d ∧
    ∃ info ∈ update.routes, Built o.protocol.router update sender now info r ∧
      shouldAcceptRoute r o.protocol.router = true := by
  simp only [batch, List.mem_filter, List.mem_map, Prod.exists, decide_eq_true_eq]
  constructor
  · rintro ⟨⟨key, r', hm, rfl⟩, hd⟩
    obtain ⟨info, hinfo, -, hp, ha⟩ := mem_acceptedRoutes.mp hm
    exact ⟨hd, info, hinfo, hp, ha⟩
  · rintro ⟨hd, info, hinfo, hp, ha⟩
    exact ⟨⟨info.destination, r, mem_acceptedRoutes.mpr ⟨info, hinfo, rfl, hp, ha⟩, rfl⟩, hd⟩

theorem findRoute_process (ho : WellFormed o) : (o.protocol.router.updateRoutingTable
    ((acceptedRoutes update sender now o.protocol.router).map Prod.snd)).routingTable.findRoute d =
      (batch o update sender now d).foldl
        (fun entry route => Router.offer (o.table.isValidRoute route) route entry) (o.table.findRoute d) :=
  Router.findRoute_updateRoutes ho.distinct _ d

section Shapes

omit [NetRoute κ]

theorem built_shape {info : RouteInfo} {r : RouteEntry} (h : Built o.protocol.router update sender now info r) :
    destinationOf info.destination = some r.destination ∧ (Ipv4Addr.parse info.nextHop).isSome = true ∧
      isOurNetwork r.destination o.interfaces = false ∧ r.source = .protocol ∧ r.metric = info.metric + 1 ∧
      resolvedNextHop o.protocol.router sender info = some r.nextHop ∧
      ∃ name info, o.interfaces.lookup name = some info ∧ info.network.contains r.nextHop = true := by
  have honLink := processSingleRoute_onLink h
  obtain ⟨d', nh, name, iface, hd, hn, hour, -, rfl, -⟩ := processSingleRoute_iff.mp h
  exact ⟨hd, by rw [hn]; rfl, hour, rfl, rfl, by rw [resolvedNextHop, hn]; rfl, honLink⟩

theorem built_valid (hs : SoundInterfaces o.protocol.router) {info : RouteInfo} {r : RouteEntry}
    (h : Built o.protocol.router update sender now info r) :
    o.table.isValidRoute r = true ↔ Admissible o.protocol.router r.destination info := by
  obtain ⟨hd, hn, hour, hsrc, -, -, name, iface, hl, hc⟩ := built_shape h
  have hvalid := hs.isValidRoute_iff hsrc hl hc
  exact ⟨fun hv => ⟨hd, hn, hour, hvalid.mp hv⟩, fun hadmissible => hvalid.mpr hadmissible.remote⟩

theorem admissible_built (ho : WellFormed o) (hon : OnLink o.protocol.router sender) {info : RouteInfo}
    (h : Admissible o.protocol.router d info) :
    ∃ r, r.destination = d ∧ Built o.protocol.router update sender now info r := by
  obtain ⟨name, iface, hl, hc⟩ := hon
  have hmetric : iface.metric < 0xffffffff := by
    rw [(ho.interfaces name iface hl).2.2]
    decide
  obtain ⟨⟨best, bestInfo⟩, hbest⟩ := Option.isSome_iff_exists.mp (findBestInterfaceForSender_isSome hl hc hmetric)
  obtain ⟨nh, hn⟩ := Option.isSome_iff_exists.mp h.nextHop
  exact ⟨_, rfl, processSingleRoute_iff.mpr
    ⟨d, nh, best, bestInfo, h.destination, hn, h.foreign, hbest, rfl, rfl⟩⟩

end Shapes

/-! Without an admissible entry every route of the batch is refused, and then there is nothing to lose. -/

theorem findRoute_process_of_none (ho : Reachable o) (hs : SoundInterfaces o.protocol.router)
    (hno : ∀ info ∈ update.routes, ¬ Admissible o.protocol.router d info) :
    (o.protocol.router.updateRoutingTable
      ((acceptedRoutes update sender now o.protocol.router).map Prod.snd)).routingTable.findRoute d =
        o.table.findRoute d := by
  have hw := ho.wellFormed
  have hinvalid : ∀ r ∈ batch o update sender now d, o.table.isValidRoute r ≠ true := by
    intro r hr hv
    obtain ⟨rfl, info, hinfo, hb, -⟩ := mem_batch.mp hr
    exact hno info hinfo ((built_valid hs hb).mp hv)
  rw [findRoute_process hw]
  cases hbatch : batch o update sender now d with
  | nil => rfl
  | cons first rest =>
    have hfirst : first ∈ batch o update sender now d := by simp [hbatch]
    obtain ⟨rfl, info, hinfo, hb, -⟩ := mem_batch.mp hfirst
    have habsent : o.table.findRoute first.destination = none := by
      cases he : o.table.findRoute first.destination with
      | none => rfl
      | some existing =>
        have hdest := RoutingTable.findRoute_destination he
        have hmem := RoutingTable.findRoute_mem he
        obtain ⟨hd, hn, hour, -⟩ := built_shape hb
        rcases hw.routes existing hmem with ⟨name, iface, hl, rfl⟩ | ⟨hsrc, -, -, -⟩
        · have hours : isOurNetwork first.destination o.interfaces = true :=
            isOurNetwork_iff.mpr ⟨name, iface, hl, hdest⟩
          rw [hour] at hours
          cases hours
        · have hv := (RoutingTable.isValidRoute_protocol hsrc).mp (hw.valid existing hmem)
          rw [hdest] at hv
          exact absurd ⟨hd, hn, hour, hv.2.2.1⟩ (hno info hinfo)
    rw [habsent, ← hbatch]
    cases hfold : (batch o update sender now first.destination).foldl
        (fun entry route => Router.offer (o.table.isValidRoute route) route entry) none with
    | none => rfl
    | some r =>
      rcases Router.offers_origin r hfold with h | ⟨hr, hv⟩
      · cases h
      · exact absurd hv (hinvalid r hr)

section Admitted

variable (ho : Reachable o) (hs : SoundInterfaces o.protocol.router) (hon : OnLink o.protocol.router sender)
  (hm : ∀ info ∈ update.routes, info.metric.toNat < 0xffffffff)
  (hhop : ∀ info ∈ update.routes, Admissible o.protocol.router d info →
    ∀ existing ∈ o.table.findRoute d, resolvedNextHop o.protocol.router sender info ≠ some existing.nextHop)

include hm hhop in
omit [NetRoute κ] in
theorem accept_iff {info : RouteInfo} (hinfo : info ∈ update.routes) (ha : Admissible o.protocol.router d info)
    {r : RouteEntry} (hd : r.destination = d) (hb : Built o.protocol.router update sender now info r) :
    shouldAcceptRoute r o.protocol.router = true ↔ Improves o.protocol.router d info := by
  obtain ⟨-, -, -, -, hmetric, hnext, -⟩ := built_shape hb
  rw [shouldAcceptRoute_iff, hd]
  refine forall_congr' fun existing => forall_congr' fun he => ?_
  have hne : r.nextHop ≠ existing.nextHop := by
    intro heq
    exact hhop info hinfo ha existing he (by rw [hnext, heq])
  have hsucc := metric_succ (hm info hinfo)
  rw [← hmetric] at hsucc
  simp only [Router.Supersedes, UInt32.lt_iff_toNat_lt, ← UInt32.toNat_inj, hsucc]
  constructor
  · rintro (h | ⟨h, -⟩) <;> omega
  · intro h
    rcases Nat.lt_or_eq_of_le h with h | h
    · exact Or.inl h
    · exact Or.inr ⟨h, hne⟩

include hm in
omit [NetRoute κ] in
theorem batch_admissible (hlocal : ∀ net ∈ o.protocol.router.routingTable.localNetworks, d.subnet ≠ net.subnet)
    {r : RouteEntry} (hr : r ∈ batch o update sender now d) :
    ∃ info ∈ update.routes, Admissible o.protocol.router d info ∧ info.metric.toNat + 1 = r.metric.toNat ∧
      Built o.protocol.router update sender now info r := by
  obtain ⟨rfl, info, hinfo, hb, -⟩ := mem_batch.mp hr
  obtain ⟨hd, hn, hour, -, hmetric, -⟩ := built_shape hb
  exact ⟨info, hinfo, ⟨hd, hn, hour, hlocal⟩, by rw [hmetric, metric_succ (hm info hinfo)], hb⟩

include ho hon hm hhop in
theorem mem_batch_of_improves {info : RouteInfo} (hinfo : info ∈ update.routes)
    (ha : Admissible o.protocol.router d info) (hi : Improves o.protocol.router d info) :
    ∃ r ∈ batch o update sender now d, r.metric.toNat = info.metric.toNat + 1 := by
  obtain ⟨r, hd, hb⟩ : ∃ r, r.destination = d ∧ Built o.protocol.router update sender now info r :=
    admissible_built ho.wellFormed hon ha
  have hacc := (accept_iff hm hhop hinfo ha hd hb).mpr hi
  obtain ⟨-, -, -, -, hmetric, -⟩ := built_shape hb
  exact ⟨r, mem_batch.mpr ⟨hd, info, hinfo, hb, hacc⟩, by rw [hmetric, metric_succ (hm info hinfo)]⟩

omit [NetRoute κ] in
/-- The first route of the batch is installed, and none of the later ones empties the place again. -/
theorem offers_batch (hvalid : ∀ r ∈ batch o update sender now d, o.table.isValidRoute r = true)
    (hne : batch o update sender now d ≠ []) :
    ∃ r, (batch o update sender now d).foldl
      (fun entry route => Router.offer (o.table.isValidRoute route) route entry) (o.table.findRoute d) = some r ∧
        r ∈ batch o update sender now d := by
  cases hroutes : batch o update sender now d with
  | nil => exact absurd hroutes hne
  | cons first rest =>
    have hfirst : first ∈ batch o update sender now d := by simp [hroutes]
    obtain ⟨hd, info, -, -, hacc⟩ := mem_batch.mp hfirst
    have hsup := shouldAcceptRoute_iff.mp hacc
    rw [hd] at hsup
    exact Router.offers_installed (hvalid first hfirst) (fun r hr => hvalid r (by simp [hroutes, hr])) hsup

include ho hs hon hm hhop

theorem findRoute_process_of_improves {info : RouteInfo} (hinfo : info ∈ update.routes)
    (ha : Admissible o.protocol.router d info) (hi : Improves o.protocol.router d info) :
    ∃ r, (o.protocol.router.updateRoutingTable
        ((acceptedRoutes update sender now o.protocol.router).map Prod.snd)).routingTable.findRoute d = some r ∧
      IsLeast (candidates o.protocol.router update d) r.metric.toNat ∧
      ∃ info ∈ update.routes, Admissible o.protocol.router d info ∧ info.metric.toNat + 1 = r.metric.toNat ∧
        Built o.protocol.router update sender now info r := by
  have hshape {r : RouteEntry} (hr : r ∈ batch o update sender now d) := batch_admissible hm ha.remote hr
  have hvalid : ∀ r ∈ batch o update sender now d, o.table.isValidRoute r = true := by
    intro r hr
    obtain ⟨info', -, ha', -, hb⟩ := hshape hr
    obtain ⟨rfl, -⟩ := mem_batch.mp hr
    exact (built_valid hs hb).mpr ha'
  obtain ⟨r₀, hr₀, -⟩ := mem_batch_of_improves ho hon hm hhop hinfo ha hi
  obtain ⟨r, hfind, hr⟩ := offers_batch hvalid (List.ne_nil_of_mem hr₀)
  have hleast {m : ℕ} (h : (∃ existing ∈ o.table.findRoute d, existing.metric.toNat ≤ m) ∨
      ∃ route ∈ batch o update sender now d, route.metric.toNat ≤ m) : r.metric.toNat ≤ m := by
    obtain ⟨r', hfind', hle⟩ := Router.offers_least hvalid h
    obtain rfl := Option.some.inj (hfind.symm.trans hfind')
    exact hle
  refine ⟨r, (findRoute_process ho.wellFormed).trans hfind, ⟨?_, ?_⟩, hshape hr⟩
  · obtain ⟨info', hinfo', ha', hmetric, -⟩ := hshape hr
    exact Or.inr ⟨info', hinfo', ha', hmetric⟩
  · rintro m (⟨existing, he, rfl⟩ | ⟨info', hinfo', ha', rfl⟩)
    · exact hleast (Or.inl ⟨existing, he, le_refl _⟩)
    · by_cases hi' : Improves o.protocol.router d info'
      · obtain ⟨r', hr', hmetric⟩ := mem_batch_of_improves ho hon hm hhop hinfo' ha' hi'
        exact hleast (Or.inr ⟨r', hr', hmetric.le⟩)
      · unfold Improves at hi'
        push Not at hi'
        obtain ⟨existing, he, hlt⟩ := hi'
        exact hleast (Or.inl ⟨existing, he, by omega⟩)

omit hs hon in
theorem findRoute_process_of_worse {info : RouteInfo} (hinfo : info ∈ update.routes)
    (ha : Admissible o.protocol.router d info)
    (hno : ∀ info ∈ update.routes, Admissible o.protocol.router d info → ¬ Improves o.protocol.router d info) :
    ∃ r, o.table.findRoute d = some r ∧ IsLeast (candidates o.protocol.router update d) r.metric.toNat ∧
      (o.protocol.router.updateRoutingTable
        ((acceptedRoutes update sender now o.protocol.router).map Prod.snd)).routingTable.findRoute d = some r := by
  have hw := ho.wellFormed
  have hnil : batch o update sender now d = [] := by
    rw [List.eq_nil_iff_forall_not_mem]
    intro r hr
    obtain ⟨rfl, info', hinfo', hb, hacc⟩ := mem_batch.mp hr
    obtain ⟨hd, hn, hour, -⟩ := built_shape hb
    have ha' : Admissible o.protocol.router r.destination info' := ⟨hd, hn, hour, ha.remote⟩
    exact hno info' hinfo' ha' ((accept_iff hm hhop hinfo' ha' rfl hb).mp hacc)
  have hworse : ∀ info ∈ update.routes, Admissible o.protocol.router d info →
      ∃ existing, o.table.findRoute d = some existing ∧ existing.metric.toNat < info.metric.toNat + 1 := by
    intro info' hinfo' ha'
    have hno' := hno info' hinfo' ha'
    unfold Improves at hno'
    push Not at hno'
    exact hno'
  obtain ⟨r, hr, -⟩ := hworse info hinfo ha
  refine ⟨r, hr, ⟨Or.inl ⟨r, hr, rfl⟩, ?_⟩, by rw [findRoute_process hw, hnil]; exact hr⟩
  rintro m (⟨existing, he, rfl⟩ | ⟨info', hinfo', ha', rfl⟩)
  · obtain rfl := Option.some.inj (hr.symm.trans he)
    exact le_refl _
  · obtain ⟨existing, he, hlt⟩ := hworse info' hinfo' ha'
    obtain rfl := Option.some.inj (hr.symm.trans he)
    exact hlt.le

theorem processRoutingUpdate_selects (port : UInt16) :
    ∃ router states, processRoutingUpdate update ⟨.v4 sender, port⟩ now o.protocol.router o.protocol.routeStates =
        .ok (router, states) ∧
      ((∀ info ∈ update.routes, ¬ Admissible o.protocol.router d info) →
        router.routingTable.findRoute d = o.table.findRoute d) ∧
      ((∃ info ∈ update.routes, Admissible o.protocol.router d info) →
        ∃ r, router.routingTable.findRoute d = some r ∧
          IsLeast (candidates o.protocol.router update d) r.metric.toNat ∧
          ((∃ info ∈ update.routes, Admissible o.protocol.router d info ∧ Improves o.protocol.router d info) →
            ∃ info ∈ update.routes, Admissible o.protocol.router d info ∧
              info.metric.toNat + 1 = r.metric.toNat ∧ Built o.protocol.router update sender now info r) ∧
          ((∀ info ∈ update.routes, Admissible o.protocol.router d info → ¬ Improves o.protocol.router d info) →
            o.table.findRoute d = some r)) := by
  refine ⟨_, _, processRoutingUpdate_v4 update sender port now o.protocol.router o.protocol.routeStates,
    findRoute_process_of_none ho hs, ?_⟩
  rintro ⟨info, hinfo, ha⟩
  by_cases hi : ∃ info ∈ update.routes, Admissible o.protocol.router d info ∧ Improves o.protocol.router d info
  · obtain ⟨info', hinfo', ha', hi'⟩ := hi
    obtain ⟨r, hr, hleast, hbuilt⟩ := findRoute_process_of_improves ho hs hon hm hhop hinfo' ha' hi'
    exact ⟨r, hr, hleast, fun _ => hbuilt, fun hno => absurd hi' (hno info' hinfo' ha')⟩
  · have hno : ∀ info ∈ update.routes, Admissible o.protocol.router d info → ¬ Improves o.protocol.router d info :=
      fun info hinfo ha himp => hi ⟨info, hinfo, ha, himp⟩
    obtain ⟨r, hr, hleast, hkept⟩ := findRoute_process_of_worse ho hm hhop hinfo ha hno
    exact ⟨r, hkept, hleast, fun h => absurd h hi, fun _ => hr⟩

end Admitted

end Selection

/-! The route of "B" is replaced by one of "C" of the same cost, advertised under two spellings. -/

def offerOfC : RoutingUpdate :=
  ⟨"C", 1, [⟨"10.2.0.9/24", 4, "0.0.0.0"⟩, ⟨"10.2.0.0/24", 0, "0.0.0.0"⟩]⟩

theorem processRoutingUpdate_selects_witness :
    let o := lan.run [advert 0]
    let d := advertised.destination
    ∃ router states, processRoutingUpdate offerOfC ⟨.v4 (.new 10 0 0 3), 5555⟩ 0 o.protocol.router
        o.protocol.routeStates = .ok (router, states) ∧
      ((∀ info ∈ offerOfC.routes, ¬ Admissible o.protocol.router d info) →
        router.routingTable.findRoute d = o.table.findRoute d) ∧
      ((∃ info ∈ offerOfC.routes, Admissible o.protocol.router d info) →
        ∃ r, router.routingTable.findRoute d = some r ∧
          IsLeast (candidates o.protocol.router offerOfC d) r.metric.toNat ∧
          ((∃ info ∈ offerOfC.routes, Admissible o.protocol.router d info ∧ Improves o.protocol.router d info) →
            ∃ info ∈ offerOfC.routes, Admissible o.protocol.router d info ∧
              info.metric.toNat + 1 = r.metric.toNat ∧
              Built o.protocol.router offerOfC (.new 10 0 0 3) 0 info r) ∧
          ((∀ info ∈ offerOfC.routes, Admissible o.protocol.router d info → ¬ Improves o.protocol.router d info) →
            o.table.findRoute d = some r)) := by
  have hon : OnLink (lan.run [advert 0]).protocol.router (.new 10 0 0 3) :=
    ⟨"eth0", ⟨"eth0", .new 10 0 0 1, ⟨.new 10 0 0 1, 24⟩, 1⟩, by decide +kernel, by decide +kernel⟩
  have hm : ∀ info ∈ offerOfC.routes, info.metric.toNat < 0xffffffff := by decide
  have hfind : (lan.run [advert 0]).table.findRoute advertised.destination = some advertised := by decide +kernel
  have hnext : ∀ info ∈ offerOfC.routes,
      resolvedNextHop (lan.run [advert 0]).protocol.router (.new 10 0 0 3) info = some (.new 10 0 0 3) := by
    decide +kernel
  have hhop : ∀ info ∈ offerOfC.routes, Admissible (lan.run [advert 0]).protocol.router advertised.destination info →
      ∀ existing ∈ (lan.run [advert 0]).table.findRoute advertised.destination,
        resolvedNextHop (lan.run [advert 0]).protocol.router (.new 10 0 0 3) info ≠ some existing.nextHop := by
    intro info hinfo _ existing he
    obtain rfl := Option.some.inj (hfind.symm.trans he)
    rw [hnext info hinfo]
    decide
  exact processRoutingUpdate_selects (lan_reachable [advert 0]) (lan_sound [advert 0]) hon hm hhop 5555

end Observed

end CustomOspf
