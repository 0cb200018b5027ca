import CustomOspf.Deadlines

/-!
The routing table and the neighbour map as what the router has heard: the least
of the routes offered for a network since it was last removed, and the newest
hello of each neighbour.
-/

namespace CustomOspf.Observed

open SimpleRoutingProtocol

section Offers

variable {κ : Type} [IpNetwork]

/-- The routes an event offers, whether they are accepted or not. -/
def offers (p : SimpleRoutingProtocol κ) : Event → List RouteEntry
  | .update message addr now =>
    if message.routerId = p.router.id then []
    else match addr.ip with
    | .v4 sender => message.routes.filterMap (fun info =>
        (RouteManager.processSingleRoute info message.routerId sender p.router.interfaces now).map Prod.fst)
    | .v6 _ => []
  | _ => []

theorem offers_congr {p q : SimpleRoutingProtocol κ} (h : SameRouter p q) : offers q = offers p := by
  funext e
  unfold offers
  rw [h.id, h.interfaces]

theorem mem_offers {p : SimpleRoutingProtocol κ} {message : RoutingUpdate} {addr : SocketAddr} {now : Instant}
    {r : RouteEntry} : r ∈ offers p (.update message addr now) ↔ message.routerId ≠ p.router.id ∧
      ∃ sender, addr.ip = .v4 sender ∧ ∃ info ∈ message.routes,
        RouteManager.processSingleRoute info message.routerId sender p.router.interfaces now =
          some (r, ⟨r, now, message.routerId⟩) := by
  unfold offers
  by_cases hid : message.routerId = p.router.id
  · simp [hid]
  · cases haddr : addr.ip with
    | v6 bits => simp [hid, haddr]
    | v4 sender =>
      simp only [hid, haddr, if_false, List.mem_filterMap, Option.map_eq_some_iff, ne_eq, not_false_eq_true, true_and,
        IpAddr.v4.injEq, exists_eq_left']
      constructor
      · rintro ⟨info, hinfo, ⟨route, state⟩, hp, rfl⟩
        obtain ⟨d, nh, name, iface, -, -, -, -, -, rfl⟩ := RouteManager.processSingleRoute_iff.mp hp
        exact ⟨info, hinfo, hp⟩
      · rintro ⟨info, hinfo, hp⟩
        exact ⟨info, hinfo, _, hp, rfl⟩

theorem accepted_iff_offered {p : SimpleRoutingProtocol κ} {message : RoutingUpdate} {addr : SocketAddr}
    {now : Instant} {r : RouteEntry} : (∃ key, (key, r) ∈ accepted message addr now p) ↔
      r ∈ offers p (.update message addr now) ∧ RouteManager.shouldAcceptRoute r p.router = true := by
  simp only [mem_accepted, mem_offers]
  constructor
  · rintro ⟨key, hid, sender, haddr, info, hinfo, -, hp, ha⟩
    exact ⟨⟨hid, sender, haddr, info, hinfo, hp⟩, ha⟩
  · rintro ⟨⟨hid, sender, haddr, info, hinfo, hp⟩, ha⟩
    exact ⟨info.destination, hid, sender, haddr, info, hinfo, rfl, hp, ha⟩

variable [NetRoute κ]

omit [NetRoute κ] in
theorem offered_valid {p : SimpleRoutingProtocol κ} (hs : SoundInterfaces p.router) {e : Event} {r : RouteEntry}
    (h : r ∈ offers p e) (hremote : ∀ net ∈ p.router.routingTable.localNetworks, r.destination.subnet ≠ net.subnet) :
    p.router.routingTable.isValidRoute r = true := by
  cases e with
  | hello | cleanup => cases h
  | update message addr now =>
    obtain ⟨-, sender, -, info, -, hp⟩ := mem_offers.mp h
    obtain ⟨name, iface, hl, hc⟩ := RouteManager.processSingleRoute_onLink hp
    obtain ⟨d, nh, name', iface', -, -, -, -, rfl, -⟩ := RouteManager.processSingleRoute_iff.mp hp
    exact (hs.isValidRoute_iff rfl hl hc).mpr hremote

structure Cheapest (entry : Option RouteEntry) (offered : List RouteEntry) : Prop where
  origin : ∀ r ∈ entry, r ∈ offered
  least : ∀ r' ∈ offered, ∃ r ∈ entry, r.metric.toNat ≤ r'.metric.toNat

omit [IpNetwork] in
theorem Cheapest.none : Cheapest none [] := by
  constructor
  · intro r hr
    cases hr
  · intro r hr
    cases hr

omit [IpNetwork] in
theorem Cheapest.eq_none_iff {entry : Option RouteEntry} {offered : List RouteEntry} (h : Cheapest entry offered) :
    entry = .none ↔ offered = [] := by
  constructor
  · rintro rfl
    rw [List.eq_nil_iff_forall_not_mem]
    intro r hr
    obtain ⟨existing, hnone, -⟩ := h.least r hr
    cases hnone
  · rintro rfl
    rw [Option.eq_none_iff_forall_not_mem]
    intro r hr
    exact absurd (h.origin r hr) List.not_mem_nil

def offersTo (p : SimpleRoutingProtocol κ) (d : Ipv4Network) (es : List Event) : List RouteEntry :=
  (es.flatMap (offers p)).filter (fun r => r.destination = d)

section OffersTo

omit [NetRoute κ]

theorem mem_offersTo {p : SimpleRoutingProtocol κ} {d : Ipv4Network} {es : List Event} {r : RouteEntry} :
    r ∈ offersTo p d es ↔ (∃ e ∈ es, r ∈ offers p e) ∧ r.destination = d := by
  simp [offersTo]

theorem offersTo_append (p : SimpleRoutingProtocol κ) (d : Ipv4Network) (es es' : List Event) :
    offersTo p d (es ++ es') = offersTo p d es ++ offersTo p d es' := by
  rw [offersTo, List.flatMap_append, List.filter_append]
  rfl

theorem offersTo_congr {p q : SimpleRoutingProtocol κ} (h : SameRouter p q) (d : Ipv4Network) (es : List Event) :
    offersTo q d es = offersTo p d es := by
  rw [offersTo, offers_congr h]
  rfl

theorem offersTo_quiet {p : SimpleRoutingProtocol κ} {e : Event} (h : offers p e = []) (d : Ipv4Network) :
    offersTo p d [e] = [] := by
  rw [offersTo, List.flatMap_singleton, h]
  rfl

end OffersTo

section Step

variable {o : Observed κ} (ho : WellFormed o) (hs : SoundInterfaces o.protocol.router) {d : Ipv4Network}
  (hremote : ∀ net ∈ o.protocol.router.routingTable.localNetworks, d.subnet ≠ net.subnet)

include ho hs hremote

theorem Cheapest.update {offered : List RouteEntry} (h : Cheapest (o.table.findRoute d) offered)
    (message : RoutingUpdate) (addr : SocketAddr) (now : Instant) :
    Cheapest ((o.step (.update message addr now)).table.findRoute d)
      (offered ++ offersTo o.protocol d [.update message addr now]) := by
  let batch := ((accepted message addr now o.protocol).map Prod.snd).filter (fun route => route.destination = d)
  have hbatch : ∀ r, r ∈ batch ↔ r ∈ offersTo o.protocol d [.update message addr now] ∧
      RouteManager.shouldAcceptRoute r o.protocol.router = true := by
    intro r
    have hacc : (∃ key, (key, r) ∈ accepted message addr now o.protocol) ↔ _ := accepted_iff_offered
    simp only [batch, List.mem_filter, List.mem_map, Prod.exists, exists_eq_right, decide_eq_true_eq, mem_offersTo,
      List.mem_singleton, exists_eq_left, hacc]
    exact and_right_comm
  have hvalid : ∀ r ∈ batch, o.table.isValidRoute r = true := by
    intro r hr
    obtain ⟨⟨e, -, hoffer⟩, rfl⟩ := mem_offersTo.mp ((hbatch r).mp hr).1
    exact offered_valid hs hoffer hremote
  have hfold : (o.step (.update message addr now)).table.findRoute d = batch.foldl
      (fun entry route => Router.offer (o.table.isValidRoute route) route entry) (o.table.findRoute d) := by
    rw [step_table, SimpleRoutingProtocol.step, findRoute_update ho.distinct]
    rfl
  rw [hfold]
  constructor
  · intro r hr
    rcases Router.offers_origin r hr with hold | ⟨hnew, -⟩
    · exact List.mem_append_left _ (h.origin r hold)
    · exact List.mem_append_right _ ((hbatch r).mp hnew).1
  · intro r' hr'
    apply Router.offers_least hvalid
    rcases List.mem_append.mp hr' with hold | hnew
    · exact Or.inl (h.least r' hold)
    · cases hacc : RouteManager.shouldAcceptRoute r' o.protocol.router with
      | true => exact Or.inr ⟨r', (hbatch r').mpr ⟨hnew, hacc⟩, le_refl _⟩
      | false =>
        left
        have hrefused : ¬ ∀ existing ∈ o.table.findRoute d, Router.Supersedes r' existing := by
          rw [← (mem_offersTo.mp hnew).2, table, ← RouteManager.shouldAcceptRoute_iff, hacc]
          exact Bool.false_ne_true
        push Not at hrefused
        obtain ⟨existing, hmem, hno⟩ := hrefused
        refine ⟨existing, hmem, ?_⟩
        unfold Router.Supersedes at hno
        simp only [UInt32.lt_iff_toNat_lt] at hno
        omega

end Step

def Withdraws (o : Observed κ) (d : Ipv4Network) (e : Event) : Prop :=
  o.table.findRoute d ≠ none ∧ (o.step e).table.findRoute d = none

omit [NetRoute κ] in
theorem start_absent {p : SimpleRoutingProtocol κ} (ho : WellFormed (start p)) (hs : SoundInterfaces p.router)
    {d : Ipv4Network} (hremote : ∀ net ∈ p.router.routingTable.localNetworks, d.subnet ≠ net.subnet) :
    (start p).table.findRoute d = none := by
  rw [Option.eq_none_iff_forall_not_mem]
  intro r hr
  obtain ⟨hmem, rfl⟩ := (RoutingTable.findRoute_iff ho.distinct).mp hr
  rcases ho.routes r hmem with ⟨name, info, hl, rfl⟩ | ⟨-, -, -, hi⟩
  · exact hremote info.network (hs.listed name info hl) rfl
  · cases hi

theorem findRoute_cleanup {o : Observed κ} (ho : WellFormed o) {d : Ipv4Network} {now : Instant}
    (h : ¬ Withdraws o d (.cleanup now)) : (o.step (.cleanup now)).table.findRoute d = o.table.findRoute d := by
  cases hafter : (o.step (.cleanup now)).table.findRoute d with
  | some r => exact (step_cleanup_findRoute ho.distinct hafter).1.symm
  | none =>
    by_contra hbefore
    exact h ⟨Ne.symm hbefore, hafter⟩

theorem Cheapest.step {o : Observed κ} (ho : WellFormed o) (hs : SoundInterfaces o.protocol.router) {d : Ipv4Network}
    (hremote : ∀ net ∈ o.protocol.router.routingTable.localNetworks, d.subnet ≠ net.subnet)
    {offered : List RouteEntry} (h : Cheapest (o.table.findRoute d) offered) {e : Event} (hkept : ¬ Withdraws o d e) :
    Cheapest ((o.step e).table.findRoute d) (offered ++ offersTo o.protocol d [e]) := by
  cases e with
  | hello message addr now =>
    obtain ⟨neighbors, hn⟩ := step_hello_eq o message addr now
    rw [hn, offersTo_quiet rfl, List.append_nil]
    exact h
  | update message addr now => exact h.update ho hs hremote message addr now
  | cleanup now =>
    rw [findRoute_cleanup ho hkept, offersTo_quiet rfl, List.append_nil]
    exact h

/-- At any time the entry of a foreign network is the least of the routes offered since a pass last removed it. -/
theorem cheapest_since_removed {routerId : String} {hosts hostsAtTable : List NetworkInterface} {names : List String}
    {port : UInt16} {handle : κ} {p : SimpleRoutingProtocol κ}
    (h : SimpleRoutingProtocol.new routerId hosts hostsAtTable names port handle = .ok p)
    (hs : SoundInterfaces p.router) (es : List Event) {d : Ipv4Network}
    (hremote : ∀ net ∈ p.router.routingTable.localNetworks, d.subnet ≠ net.subnet) :
    ∃ before after, es = before ++ after ∧
      (before = [] ∨ ∃ earlier e, before = earlier ++ [e] ∧ Withdraws ((start p).run earlier) d e) ∧
      (∀ mid e, mid ++ [e] <+: after → ¬ Withdraws ((start p).run (before ++ mid)) d e) ∧
      Cheapest (((start p).run es).table.findRoute d) (offersTo p d after) := by
  have hstart := WellFormed.new h
  induction es using List.reverseRecOn with
  | nil =>
    refine ⟨[], [], rfl, Or.inl rfl, ?_, ?_⟩
    · intro mid e hprefix
      simp at hprefix
    · rw [run, List.foldl_nil, start_absent hstart hs hremote]
      exact Cheapest.none
  | append_singleton es e ih =>
    obtain ⟨before, after, rfl, hbefore, hafter, hcheapest⟩ := ih
    by_cases hremoved : Withdraws ((start p).run (before ++ after)) d e
    · refine ⟨before ++ after ++ [e], [], (List.append_nil _).symm, Or.inr ⟨_, e, rfl, hremoved⟩, ?_, ?_⟩
      · intro mid e hprefix
        simp at hprefix
      · rw [run, List.foldl_append]
        change Cheapest ((((start p).run (before ++ after)).step e).table.findRoute d) []
        rw [hremoved.2]
        exact Cheapest.none
    · refine ⟨before, after ++ [e], by rw [List.append_assoc], hbefore, ?_, ?_⟩
      · intro mid e' hprefix
        rcases List.prefix_concat_iff.mp hprefix with hlast | hold
        · obtain ⟨rfl, hsame⟩ := List.append_inj' hlast rfl
          obtain rfl := List.singleton_inj.mp hsame
          exact hremoved
        · exact hafter mid e' hold
      · have hsame : SameRouter p ((start p).run (before ++ after)).protocol := run_same hstart _
        have hsound := (SoundInterfaces.congr hsame).mpr hs
        have hforeign := hremote
        rw [← hsame.localNetworks] at hforeign
        have hstep := hcheapest.step (hstart.run _) hsound hforeign hremoved
        rw [offersTo_congr hsame, ← offersTo_append] at hstep
        rw [run, List.foldl_append]
        exact hstep

end Offers

/-! The offer of "B" takes the place of the costlier one of "C", until a pass 19 s later removes it. -/

def twoOffers : List Event :=
  [lanHello "C" 3 1, lanUpdate "C" 3 [⟨"10.2.0.9/24", 4, "0.0.0.0"⟩] 1, advert 2, lanCleanup 5, lanHello "C" 3 9,
    lanCleanup 21, lanUpdate "C" 3 [⟨"10.2.0.9/24", 4, "0.0.0.0"⟩] 22]

theorem cheapest_since_removed_witness :
    ∃ before after, twoOffers = before ++ after ∧
      (before = [] ∨ ∃ earlier e, before = earlier ++ [e] ∧ Withdraws (lan.run earlier) advertised.destination e) ∧
      (∀ mid e, mid ++ [e] <+: after → ¬ Withdraws (lan.run (before ++ mid)) advertised.destination e) ∧
      Cheapest ((lan.run twoOffers).table.findRoute advertised.destination)
        (offersTo lan.protocol advertised.destination after) := by
  have hremote : ∀ net ∈ lan.protocol.router.routingTable.localNetworks,
      advertised.destination.subnet ≠ net.subnet := by decide +kernel
  exact cheapest_since_removed lan_new (lan_sound []) twoOffers hremote

section Records

variable {κ : Type} [IpNetwork] [NetRoute κ]

/-- A hello that `handle_hello_message_static` keeps, with the interfaces it lists. -/
structure Introduces (own id : String) (e : Event) (addr : SocketAddr) (interfaces : Interfaces) : Prop where
  foreign : id ≠ own
  hello : ∃ message now, e = .hello message addr now ∧ message.routerId = id ∧
    helloInterfaces message = some interfaces

def Hello (own id : String) (e : Event) : Prop := ∃ addr interfaces, Introduces own id e addr interfaces

theorem neighbor_introduced {o : Observed κ} {id : String} {e : Event} {addr : SocketAddr} {interfaces : Interfaces}
    (h : Introduces o.protocol.router.id id e addr interfaces) :
    (o.step e).neighbor id = some ⟨⟨id, interfaces⟩, e.time, addr, true⟩ := by
  obtain ⟨hforeign, message, now, rfl, rfl, hi⟩ := h
  rw [neighbor, step_protocol, SimpleRoutingProtocol.step, handleHelloMessageStatic, if_neg hforeign, hi]
  exact AList.lookup_insert _

def identity (info : NeighborInfo) : RouterInfo × SocketAddr := (info.routerInfo, info.socketAddr)

theorem identity_kept {o : Observed κ} (ho : WellFormed o) {id : String} {e : Event}
    (h : ¬ Hello o.protocol.router.id id e) : ((o.step e).neighbor id).map identity = (o.neighbor id).map identity := by
  cases e with
  | hello message addr now =>
    rw [neighbor_hello]
    rintro ⟨hid, hforeign, hsome⟩
    obtain ⟨interfaces, hi⟩ := Option.isSome_iff_exists.mp hsome
    exact h ⟨addr, interfaces, hforeign, message, now, rfl, hid, hi⟩
  | update message addr now =>
    rw [neighbor_update]
    split_ifs
    · rfl
    · rw [lookup_touchNeighbor]
      split_ifs
      · rw [Option.map_map]
        rfl
      · rfl
  | cleanup now =>
    have hspec := (performCleanup_spec now ho.distinct).2.1
    rw [neighbor, step_protocol, SimpleRoutingProtocol.step, hspec, scanNeighbors, Dictionary.lookup_mapValues,
      Option.map_map]
    apply congrArg (fun f => Option.map f (o.neighbor id))
    funext info
    simp only [Function.comp_apply, scanNeighbor]
    split_ifs <;> rfl

variable {routerId : String} {hosts hostsAtTable : List NetworkInterface} {names : List String} {port : UInt16}
  {handle : κ} {p : SimpleRoutingProtocol κ}
  (h : SimpleRoutingProtocol.new routerId hosts hostsAtTable names port handle = .ok p)

include h

theorem start_unknown (id : String) : (start p).neighbor id = none :=
  Option.map_eq_none_iff.mp (start_watched h id)

theorem last_hello (es : List Event) (id : String) :
    ((∀ e ∈ es, ¬ Hello p.router.id id e) ∧ ((start p).run es).neighbor id = none) ∨
      ∃ before e after addr interfaces, es = before ++ e :: after ∧ Introduces p.router.id id e addr interfaces ∧
        (∀ e' ∈ after, ¬ Hello p.router.id id e') ∧
        (((start p).run es).neighbor id).map identity = some (⟨id, interfaces⟩, addr) := by
  have hstart := WellFormed.new h
  induction es using List.reverseRecOn with
  | nil => exact Or.inl ⟨by simp, start_unknown h id⟩
  | append_singleton es e ih =>
    have hself : ((start p).run es).protocol.router.id = p.router.id := (run_same hstart es).id
    rw [run, List.foldl_append]
    by_cases he : Hello p.router.id id e
    · right
      obtain ⟨addr, interfaces, hi⟩ := he
      refine ⟨es, e, [], addr, interfaces, rfl, hi, by simp, ?_⟩
      rw [← hself] at hi
      exact congrArg (Option.map identity) (neighbor_introduced hi)
    · have hquiet := he
      rw [← hself] at hquiet
      have hkept := identity_kept (hstart.run es) hquiet
      rcases ih with ⟨hnone, hunknown⟩ | ⟨before, e', after, addr, interfaces, rfl, hi, hafter, hidentity⟩
      · left
        rw [hunknown] at hkept
        refine ⟨?_, Option.map_eq_none_iff.mp hkept⟩
        rw [List.forall_mem_append]
        exact ⟨hnone, by simpa using he⟩
      · right
        refine ⟨before, e', after ++ [e], addr, interfaces, by simp, hi, ?_, hkept.trans hidentity⟩
        rw [List.forall_mem_append]
        exact ⟨hafter, by simpa using he⟩

/-- The map has a record of exactly the routers that said hello, with the addresses of the newest hello
and the time at which the router was last heard. -/
theorem neighbor_record (es : List Event) (id : String) :
    (((start p).run es).neighbor id = none ↔ ∀ e ∈ es, ¬ Hello p.router.id id e) ∧
    ∀ info, ((start p).run es).neighbor id = some info → info.routerInfo.routerId = id ∧
      (∃ before e after, es = before ++ e :: after ∧
        Introduces p.router.id id e info.socketAddr info.routerInfo.interfaces ∧
        ∀ e' ∈ after, ¬ Hello p.router.id id e') ∧
      ∃ before e silence, es = before ++ e :: silence ∧ SilentAfter p.router.id id e silence ∧
        info.lastSeen = e.time := by
  rcases last_hello h es id with ⟨hnone, hunknown⟩ | ⟨before, e, after, addr, interfaces, hes, hi, hafter, hidentity⟩
  · refine ⟨iff_of_true hunknown hnone, ?_⟩
    intro info hinfo
    rw [hunknown] at hinfo
    cases hinfo
  · have hmem : e ∈ es := by simp [hes]
    obtain ⟨known, hknown, hsame⟩ := Option.map_eq_some_iff.mp hidentity
    constructor
    · rw [hknown]
      exact iff_of_false (Option.some_ne_none _) (fun hnone => hnone e hmem ⟨addr, interfaces, hi⟩)
    · intro info hinfo
      obtain rfl := Option.some.inj (hknown.symm.trans hinfo)
      obtain ⟨hrouter, hsocket⟩ := Prod.mk.inj hsame
      obtain ⟨earlier, e', silence, hlast, hs, -, hseen⟩ := known_since h hknown
      refine ⟨by rw [hrouter], ⟨before, e, after, hes, ?_, hafter⟩, earlier, e', silence, hlast, hs, hseen⟩
      rw [hrouter, hsocket]
      exact hi

end Records

theorem neighbor_record_witness :
    ((lan.run twoOffers).neighbor "C" = none ↔ ∀ e ∈ twoOffers, ¬ Hello lan.protocol.router.id "C" e) ∧
    ∀ info, (lan.run twoOffers).neighbor "C" = some info → info.routerInfo.routerId = "C" ∧
      (∃ before e after, twoOffers = before ++ e :: after ∧
        Introduces lan.protocol.router.id "C" e info.socketAddr info.routerInfo.interfaces ∧
        ∀ e' ∈ after, ¬ Hello lan.protocol.router.id "C" e') ∧
      ∃ before e silence, twoOffers = before ++ e :: silence ∧ SilentAfter lan.protocol.router.id "C" e silence ∧
        info.lastSeen = e.time :=
  neighbor_record lan_new twoOffers "C"

end CustomOspf.Observed
