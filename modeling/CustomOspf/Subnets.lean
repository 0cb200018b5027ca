import CustomOspf.Expiry
import Mathlib.Data.List.Find

/-!
What one router holds for a subnet: a direct route when it is attached to it, and
otherwise at most one protocol route; and how its steps change that.
-/

namespace CustomOspf

variable {κ : Type}

namespace SimpleRoutingProtocol

def Listed (p : SimpleRoutingProtocol κ) : Prop :=
  ∀ name info, p.router.interfaces.lookup name = some info → info.network ∈ p.router.routingTable.localNetworks

theorem listed_iff {p : SimpleRoutingProtocol κ} :
    p.router.interfaces.entries.all (fun e => e.2.network ∈ p.router.routingTable.localNetworks) = true ↔ Listed p := by
  simp [Listed, ← Dictionary.mem_entries, Sigma.forall]

theorem SameRouter.listed {p q : SimpleRoutingProtocol κ} (h : SameRouter p q) : Listed q ↔ Listed p := by
  unfold Listed
  rw [h.interfaces, h.localNetworks]

def learned (p : SimpleRoutingProtocol κ) (d : Ipv4Network) : Bool :=
  p.router.routingTable.routes.any (fun r => r.source = .protocol ∧ r.destination = d)

theorem learned_iff {p : SimpleRoutingProtocol κ} {d : Ipv4Network} :
    learned p d = true ↔ ∃ r ∈ p.router.routingTable.routes, r.source = .protocol ∧ r.destination = d := by
  simp [learned]

variable [IpNetwork]

def Attached (p : SimpleRoutingProtocol κ) (d : Ipv4Network) : Prop :=
  ∃ name info, p.router.interfaces.lookup name = some info ∧ info.network.subnet = d

theorem attached_iff {p : SimpleRoutingProtocol κ} {d : Ipv4Network} :
    p.router.interfaces.entries.any (fun e => e.2.network.subnet = d) = true ↔ Attached p d := by
  simp [Attached, Dictionary.mem_entries]

instance (p : SimpleRoutingProtocol κ) (d : Ipv4Network) : Decidable (Attached p d) :=
  decidable_of_iff _ attached_iff

theorem SameRouter.attached {p q : SimpleRoutingProtocol κ} (h : SameRouter p q) (d : Ipv4Network) :
    Attached q d ↔ Attached p d := by
  unfold Attached
  rw [h.interfaces]

/-- The metric and the next hop of the first entry that leads to the subnet. -/
def reach (p : SimpleRoutingProtocol κ) (d : Ipv4Network) : Option (UInt32 × Ipv4Addr) :=
  (p.router.routingTable.routes.find? (fun r => r.destination.subnet = d)).map (fun r => (r.metric, r.nextHop))

end SimpleRoutingProtocol

namespace Observed

open SimpleRoutingProtocol

variable [IpNetwork]

theorem reach_hello [NetRoute κ] {p : SimpleRoutingProtocol κ} {d : Ipv4Network} (message : HelloMessage)
    (addr : SocketAddr) (now : Instant) : reach (p.step (.hello message addr now)) d = reach p d := by
  obtain ⟨neighbors, hn⟩ := handleHelloMessageStatic_eq message addr now p
  rw [SimpleRoutingProtocol.step, hn]
  rfl

variable {o : Observed κ} (ho : WellFormed o) {d : Ipv4Network}

include ho

theorem reach_of_not_attached (hd : d.subnet = d) (hna : ¬ Attached o.protocol d) :
    reach o.protocol d = (o.table.findRoute d).map (fun r => (r.metric, r.nextHop)) := by
  unfold reach RoutingTable.findRoute
  congr 1
  apply List.find?_congr
  intro r hr
  rw [decide_eq_decide]
  obtain ⟨name, info, hlookup, rfl⟩ | ⟨-, hn, -⟩ := ho.routes r hr
  · have hsub : info.network.subnet ≠ d := fun he => hna ⟨name, info, hlookup, he⟩
    have hnet : info.network ≠ d := by
      rintro rfl
      exact hsub hd
    exact iff_of_false hsub hnet
  · rw [hn]

theorem learned_iff_reach (hd : d.subnet = d) (hna : ¬ Attached o.protocol d) :
    learned o.protocol d = true ↔ (reach o.protocol d).isSome = true := by
  rw [reach_of_not_attached ho hd hna, Option.isSome_map, learned_iff]
  constructor
  · rintro ⟨r, hr, -, rfl⟩
    rw [(mem_routes_iff ho.distinct).mp hr]
    rfl
  · intro hsome
    obtain ⟨r, hr⟩ := Option.isSome_iff_exists.mp hsome
    obtain ⟨hmem, rfl⟩ := (RoutingTable.findRoute_iff ho.distinct).mp hr
    obtain ⟨name, info, hlookup, rfl⟩ | ⟨hs, -⟩ := ho.routes r hmem
    · exact absurd ⟨name, info, hlookup, hd⟩ hna
    · exact ⟨r, hmem, hs, rfl⟩

theorem reach_step_of_not_attached [NetRoute κ] (hd : d.subnet = d) (hna : ¬ Attached o.protocol d) (e : Event) :
    reach (o.protocol.step e) d = ((o.step e).table.findRoute d).map (fun r => (r.metric, r.nextHop)) := by
  have hsame := step_same ho.distinct e
  rw [← step_protocol] at hsame ⊢
  exact reach_of_not_attached (ho.step e) hd (fun h => hna ((hsame.attached d).mp h))

theorem processSingleRoute_entry (hd : d.subnet = d) (hna : ¬ Attached o.protocol d) {name : String}
    {info : InterfaceInfo} (hlookup : o.interfaces.lookup name = some info) {sender : Ipv4Addr}
    (hcontains : info.network.contains sender = true) {r : RouteEntry} (hrd : r.destination.subnet = d)
    (advertiser : String) (now : Instant) :
    ∃ route, RouteManager.processSingleRoute ⟨r.destination.toString, r.metric, r.nextHop.toString⟩ advertiser sender
        o.interfaces now = some (route, ⟨route, now, advertiser⟩) ∧
      route.destination = d ∧ route.metric = r.metric + 1 := by
  have hmetric : info.metric < 0xffffffff := by
    rw [(ho.interfaces name info hlookup).2.2]
    decide
  have hbest := RouteManager.findBestInterfaceForSender_isSome hlookup hcontains hmetric
  obtain ⟨⟨name', info'⟩, hbest⟩ := Option.isSome_iff_exists.mp hbest
  have hours : RouteManager.isOurNetwork d o.interfaces = false := by
    rw [Bool.eq_false_iff]
    intro h
    obtain ⟨name, info, hlookup, rfl⟩ := RouteManager.isOurNetwork_iff.mp h
    exact hna ⟨name, info, hlookup, hd⟩
  have hdest : RouteManager.destinationOf r.destination.toString = some d := by
    rw [RouteManager.destinationOf_toString, hrd]
  refine ⟨⟨d, RouteManager.determineNextHop r.nextHop sender o.interfaces, name', r.metric + 1, .protocol⟩, ?_, rfl, rfl⟩
  apply RouteManager.processSingleRoute_iff.mpr
  exact ⟨d, r.nextHop, name', info', hdest, Ipv4Addr.parse_toString r.nextHop, hours, hbest, rfl, rfl⟩

section Listed

variable (hl : Listed o.protocol)

include hl

theorem protocol_not_attached {r : RouteEntry} (hr : r ∈ o.table.routes) (hs : r.source = .protocol) :
    ¬ Attached o.protocol r.destination.subnet := by
  rintro ⟨name, info, hlookup, hsub⟩
  have hv := (RoutingTable.isValidRoute_protocol hs).mp (ho.valid r hr)
  exact hv.2.2.1 info.network (hl name info hlookup) hsub.symm

theorem reach_attached (ha : Attached o.protocol d) : reach o.protocol d = some (0, .unspecified) := by
  obtain ⟨name, info, hlookup, rfl⟩ := ha
  obtain ⟨r₁, hr₁, -, hd₁⟩ := ho.direct name info hlookup
  unfold reach
  cases hf : o.protocol.router.routingTable.routes.find? (fun r => r.destination.subnet = info.network.subnet) with
  | none =>
    have hno := List.find?_eq_none.mp hf r₁ hr₁
    simp [hd₁] at hno
  | some r =>
    have hr : r ∈ o.table.routes := List.mem_of_find?_eq_some hf
    have hd : r.destination.subnet = info.network.subnet := by simpa using List.find?_some hf
    obtain ⟨name', info', -, rfl⟩ | ⟨hs, -⟩ := ho.routes r hr
    · rfl
    · have hno := protocol_not_attached ho hl hr hs
      rw [hd] at hno
      exact absurd ⟨name, info, hlookup, rfl⟩ hno

theorem reach_entry {r : RouteEntry} (hr : r ∈ o.table.routes) :
    reach o.protocol r.destination.subnet = some (r.metric, r.nextHop) := by
  obtain ⟨name, info, hlookup, rfl⟩ | ⟨hs, hn, -⟩ := ho.routes r hr
  · exact reach_attached ho hl ⟨name, info, hlookup, rfl⟩
  · have hna := protocol_not_attached ho hl hr hs
    rw [hn] at hna ⊢
    rw [reach_of_not_attached ho hn hna, (mem_routes_iff ho.distinct).mp hr]
    rfl

theorem reach_protocol {r : RouteEntry} (hr : r ∈ o.table.routes) (hs : r.source = .protocol) :
    r.destination.subnet = r.destination ∧ reach o.protocol r.destination = some (r.metric, r.nextHop) := by
  have hentry := reach_entry ho hl hr
  obtain ⟨name, info, hlookup, rfl⟩ | ⟨-, hn, -⟩ := ho.routes r hr
  · cases hs
  · rw [hn] at hentry
    exact ⟨hn, hentry⟩

variable [NetRoute κ]

theorem reach_step_attached (ha : Attached o.protocol d) (e : Event) :
    reach (o.protocol.step e) d = some (0, .unspecified) := by
  have hsame := step_same ho.distinct e
  have hw := ho.step e
  rw [← step_protocol] at hsame ⊢
  exact reach_attached hw (hsame.listed.mpr hl) ((hsame.attached d).mpr ha)

theorem loses_iff (hd : d.subnet = d) (e : Event) :
    (learned o.protocol d && !learned (o.protocol.step e) d) = true ↔
      (reach o.protocol d).isSome = true ∧ reach (o.protocol.step e) d = none := by
  by_cases ha : Attached o.protocol d
  · have hno : learned o.protocol d = false := by
      rw [Bool.eq_false_iff]
      intro h
      obtain ⟨r, hr, hs, rfl⟩ := learned_iff.mp h
      have hna := protocol_not_attached ho hl hr hs
      rw [hd] at hna
      exact hna ha
    rw [hno, reach_step_attached ho hl ha e]
    simp
  · have hsame := step_same ho.distinct e
    rw [← step_protocol] at hsame ⊢
    have hna : ¬ Attached (o.step e).protocol d := fun h => ha ((hsame.attached d).mp h)
    rw [Bool.and_eq_true, learned_iff_reach ho hd ha, Bool.not_eq_true', Bool.eq_false_iff, ne_eq,
      learned_iff_reach (ho.step e) hd hna, Option.not_isSome_iff_eq_none]

/-! The effect of the steps on what is held for one subnet. -/

theorem reach_update (hd : d.subnet = d) (message : RoutingUpdate) (addr : SocketAddr) (now : Instant) :
    let q := o.protocol.step (.update message addr now)
    reach q d = reach o.protocol d ∨ (¬ Attached o.protocol d ∧ reach q d = none) ∨
      ∃ key r, (key, r) ∈ accepted message addr now o.protocol ∧ r.destination = d ∧
        o.table.isValidRoute r = true ∧ reach q d = some (r.metric, r.nextHop) ∧
        ∀ m ip, reach o.protocol d = some (m, ip) → r.metric.toNat ≤ m.toNat := by
  intro q
  by_cases ha : Attached o.protocol d
  · left
    rw [reach_step_attached ho hl ha, reach_attached ho hl ha]
  · rw [reach_step_of_not_attached ho hd ha, reach_of_not_attached ho hd ha]
    cases hf : (o.step (.update message addr now)).table.findRoute d with
    | none => exact Or.inr (Or.inl ⟨ha, rfl⟩)
    | some r =>
      rw [step_table] at hf
      obtain hold | ⟨⟨key, hk⟩, hv⟩ := findRoute_update_origin ho.distinct hf
      · left
        rw [table, hold]
      · have hrd := RoutingTable.findRoute_destination hf
        refine Or.inr (Or.inr ⟨key, r, hk, hrd, hv, rfl, ?_⟩)
        intro m ip hm
        obtain ⟨r₀, hr₀, he⟩ := Option.map_eq_some_iff.mp hm
        obtain ⟨rfl, rfl⟩ := Prod.mk.inj he
        have hsup := accepted_supersedes hk r₀ (by rw [hrd]; exact hr₀)
        unfold Router.Supersedes at hsup
        simp only [UInt32.lt_iff_toNat_lt, ← UInt32.toNat_inj] at hsup
        omega

theorem reach_cleanup (hd : d.subnet = d) (now : Instant) :
    let q := o.protocol.step (.cleanup now)
    reach q d = reach o.protocol d ∨ (¬ Attached o.protocol d ∧ reach q d = none) := by
  intro q
  by_cases ha : Attached o.protocol d
  · left
    rw [reach_step_attached ho hl ha, reach_attached ho hl ha]
  · rw [reach_step_of_not_attached ho hd ha, reach_of_not_attached ho hd ha]
    cases hf : (o.step (.cleanup now)).table.findRoute d with
    | none => exact Or.inr ⟨ha, rfl⟩
    | some r =>
      left
      rw [(step_cleanup_findRoute ho.distinct hf).1]

end Listed

variable [NetRoute κ]

/-! When the networks of the interfaces are sound and the only local ones, an update never loses a subnet. -/

theorem reach_update_le (hs : SoundInterfaces o.protocol.router)
    (honly : ∀ net ∈ o.table.localNetworks, ∃ name info, o.interfaces.lookup name = some info ∧ info.network = net)
    (hd : d.subnet = d) {message : RoutingUpdate} {addr : SocketAddr} {now : Instant} {m : ℕ}
    (hm : (∃ n ip, reach o.protocol d = some (n, ip) ∧ n.toNat ≤ m) ∨
      ∃ key r, (key, r) ∈ accepted message addr now o.protocol ∧ r.destination = d ∧ r.metric.toNat ≤ m) :
    ∃ n ip, reach (o.protocol.step (.update message addr now)) d = some (n, ip) ∧ n.toNat ≤ m := by
  by_cases ha : Attached o.protocol d
  · exact ⟨0, .unspecified, reach_step_attached ho hs.listed ha _, Nat.zero_le m⟩
  · let batch := ((accepted message addr now o.protocol).map Prod.snd).filter (fun route => route.destination = d)
    have hvalid : ∀ r ∈ batch, o.table.isValidRoute r = true := by
      intro r hr
      obtain ⟨hmem, hrd⟩ := List.mem_filter.mp hr
      obtain ⟨⟨key, route⟩, hk, rfl⟩ := List.mem_map.mp hmem
      obtain rfl := of_decide_eq_true hrd
      apply (accepted_valid hs hk).mpr
      intro net hnet he
      obtain ⟨name, info, hlookup, rfl⟩ := honly net hnet
      exact ha ⟨name, info, hlookup, he.symm.trans hd⟩
    have hleast : (∃ existing ∈ o.table.findRoute d, existing.metric.toNat ≤ m) ∨
        ∃ route ∈ batch, route.metric.toNat ≤ m := by
      rw [reach_of_not_attached ho hd ha] at hm
      obtain ⟨n, ip, hn, hle⟩ | ⟨key, r, hk, hrd, hle⟩ := hm
      · obtain ⟨r₀, hr₀, he⟩ := Option.map_eq_some_iff.mp hn
        obtain ⟨rfl, rfl⟩ := Prod.mk.inj he
        exact Or.inl ⟨r₀, hr₀, hle⟩
      · exact Or.inr ⟨r, List.mem_filter.mpr ⟨List.mem_map.mpr ⟨_, hk, rfl⟩, decide_eq_true hrd⟩, hle⟩
    obtain ⟨r, hr, hle⟩ := Router.offers_least hvalid hleast
    rw [reach_step_of_not_attached ho hd ha, step_table, SimpleRoutingProtocol.step, findRoute_update ho.distinct]
    exact ⟨r.metric, r.nextHop, by rw [← table, hr, Option.map_some], hle⟩

theorem reach_update_processed (hs : SoundInterfaces o.protocol.router)
    (honly : ∀ net ∈ o.table.localNetworks, ∃ name info, o.interfaces.lookup name = some info ∧ info.network = net)
    (hd : d.subnet = d) (hna : ¬ Attached o.protocol d) {message : RoutingUpdate} {addr : SocketAddr} {now : Instant}
    {sender : Ipv4Addr} (hid : message.routerId ≠ o.protocol.router.id) (haddr : addr.ip = .v4 sender)
    {info : RouteInfo} (hinfo : info ∈ message.routes) {r : RouteEntry}
    (hp : RouteManager.processSingleRoute info message.routerId sender o.interfaces now =
      some (r, ⟨r, now, message.routerId⟩)) (hrd : r.destination = d) :
    ∃ n ip, reach (o.protocol.step (.update message addr now)) d = some (n, ip) ∧ n.toNat ≤ r.metric.toNat := by
  apply reach_update_le ho hs honly hd
  by_cases ha : RouteManager.shouldAcceptRoute r o.protocol.router = true
  · right
    exact ⟨info.destination, r, mem_accepted.mpr ⟨hid, sender, haddr, info, hinfo, rfl, hp, ha⟩, hrd, le_refl _⟩
  · left
    rw [RouteManager.shouldAcceptRoute_iff, hrd] at ha
    push Not at ha
    obtain ⟨existing, he, hno⟩ := ha
    rw [reach_of_not_attached ho hd hna]
    refine ⟨existing.metric, existing.nextHop, Option.map_eq_some_iff.mpr ⟨existing, he, rfl⟩, ?_⟩
    unfold Router.Supersedes at hno
    simp only [UInt32.lt_iff_toNat_lt] at hno
    omega

end Observed

end CustomOspf
