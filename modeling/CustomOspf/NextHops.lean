import CustomOspf.Runs

/-!
Which next hops the protocol routes never have. An update is the only step that
brings in a next hop, so a property of next hops that no step takes away from an
address holds in every state as long as the accepted routes have it.
-/

namespace CustomOspf.Observed

open SimpleRoutingProtocol

section Runs

variable {κ : Type} [IpNetwork] [NetRoute κ]

inductive ReachableUnder (C : Observed κ → Event → Prop) : Observed κ → Prop where
  | start {routerId : String} {hosts hostsAtTable : List NetworkInterface} {names : List String} {port : UInt16}
      {handle : κ} {p : SimpleRoutingProtocol κ}
      (h : SimpleRoutingProtocol.new routerId hosts hostsAtTable names port handle = .ok p) :
      ReachableUnder C (start p)
  | step {o : Observed κ} (e : Event) (he : C o e) (h : ReachableUnder C o) : ReachableUnder C (o.step e)

variable {C : Observed κ → Event → Prop} {o : Observed κ}

theorem ReachableUnder.reachable (h : ReachableUnder C o) : Reachable o := by
  induction h with
  | start h => exact Reachable.start h
  | step e _ _ ih => exact ih.step e

def Avoids (bad : SimpleRoutingProtocol κ → Ipv4Addr → Prop) (o : Observed κ) : Prop :=
  ∀ r ∈ o.table.routes, r.source = .protocol → ¬ bad o.protocol r.nextHop

def Admitted (o : Observed κ) (message : RoutingUpdate) (addr : SocketAddr) (now : Instant) (info : RouteInfo)
    (r : RouteEntry) : Prop :=
  message.routerId ≠ o.protocol.router.id ∧ info ∈ message.routes ∧ (∃ sender, addr.ip = .v4 sender ∧
    RouteManager.processSingleRoute info message.routerId sender o.interfaces now =
      some (r, ⟨r, now, message.routerId⟩)) ∧
  RouteManager.shouldAcceptRoute r o.protocol.router = true ∧ o.table.isValidRoute r = true

def Admits (bad : SimpleRoutingProtocol κ → Ipv4Addr → Prop) (o : Observed κ) (e : Event) : Prop :=
  ∀ message addr now, e = .update message addr now → ∀ info r, Admitted o message addr now info r →
    ¬ bad (o.step e).protocol r.nextHop

theorem routes_step (ho : WellFormed o) {e : Event} {r : RouteEntry} (hr : r ∈ (o.step e).table.routes) :
    r ∈ o.table.routes ∨ ∃ message addr now info, e = .update message addr now ∧
      Admitted o message addr now info r := by
  cases e with
  | hello message addr now =>
    obtain ⟨neighbors, hn⟩ := step_hello_eq o message addr now
    rw [hn] at hr
    exact Or.inl hr
  | update message addr now =>
    obtain h | ⟨⟨key, hk⟩, hv⟩ := mem_step_update ho.distinct hr
    · exact Or.inl h
    · obtain ⟨hid, sender, haddr, info, hinfo, -, hp, hacc⟩ := mem_accepted.mp hk
      exact Or.inr ⟨message, addr, now, info, rfl, hid, hinfo, ⟨sender, haddr, hp⟩, hacc, hv⟩
  | cleanup now => exact Or.inl ((mem_step_cleanup ho.distinct).mp hr).1

def Grows (bad : SimpleRoutingProtocol κ → Ipv4Addr → Prop) : Prop :=
  ∀ (p : SimpleRoutingProtocol κ) (e : Event) (ip : Ipv4Addr), p.router.routingTable.Distinct →
    bad (p.step e) ip → bad p ip ∨ ∃ now, e = .cleanup now ∧ DeadNextHop now p ip

theorem ReachableUnder.protocolRoutes {P : Observed κ → RouteEntry → Prop}
    (hkept : ∀ o e r, WellFormed o → r ∈ (o.step e).table.routes → r.source = .protocol → P o r → P (o.step e) r)
    (hadmitted : ∀ o message addr now info r, WellFormed o → C o (.update message addr now) →
      Admitted o message addr now info r → P (o.step (.update message addr now)) r)
    (h : ReachableUnder C o) : ∀ r ∈ o.table.routes, r.source = .protocol → P o r := by
  induction h with
  | start h =>
    intro r hr hs
    cases hs.symm.trans (start_direct h hr)
  | @step o e he h ih =>
    have hw := h.reachable.wellFormed
    intro r hr hs
    rcases routes_step hw hr with hold | ⟨message, addr, now, info, rfl, hadm⟩
    · exact hkept o e r hw hr hs (ih r hold hs)
    · exact hadmitted o message addr now info r hw he hadm

theorem ReachableUnder.avoids {bad : SimpleRoutingProtocol κ → Ipv4Addr → Prop} (hgrows : Grows bad)
    (hC : ∀ o e, WellFormed o → C o e → Admits bad o e) (h : ReachableUnder C o) : Avoids bad o := by
  apply h.protocolRoutes (P := fun o r => ¬ bad o.protocol r.nextHop)
  · intro o e r ho hr hs hgood hbad
    rw [step_protocol] at hbad
    rcases hgrows o.protocol e r.nextHop ho.distinct hbad with hbad | ⟨now, rfl, hdead⟩
    · exact hgood hbad
    · exact ((mem_step_cleanup ho.distinct).mp hr).2.2 ⟨hs, hdead⟩
  · intro o message addr now info r ho he hadm
    exact hC o _ ho he message addr now rfl info r hadm

def DeadNeighbor (p : SimpleRoutingProtocol κ) (ip : Ipv4Addr) : Prop :=
  ∃ id info, p.neighbors.lookup id = some info ∧ info.isAlive = false ∧ info.socketAddr.ip = .v4 ip

omit [IpNetwork] in
theorem touchNeighbor_alive {id id' : String} {now : Instant} {neighbors : Neighbors} {info : NeighborInfo}
    (h : (touchNeighbor id now neighbors).lookup id' = some info) :
    neighbors.lookup id' = some info ∨ info.isAlive = true := by
  rw [lookup_touchNeighbor] at h
  split_ifs at h
  · obtain ⟨old, -, rfl⟩ := Option.map_eq_some_iff.mp h
    exact Or.inr rfl
  · exact Or.inl h

omit [NetRoute κ] in
theorem lookup_hello {hello : HelloMessage} {addr : SocketAddr} {now : Instant} {p : SimpleRoutingProtocol κ}
    {id : String} {info : NeighborInfo}
    (h : (handleHelloMessageStatic hello addr now p).1.neighbors.lookup id = some info) :
    p.neighbors.lookup id = some info ∨ info.isAlive = true := by
  unfold handleHelloMessageStatic at h
  split at h
  · exact Or.inl h
  · split at h
    · exact Or.inl h
    · by_cases hid : id = hello.routerId
      · subst hid
        rw [AList.lookup_insert] at h
        obtain rfl := Option.some.inj h
        exact Or.inr rfl
      · rw [AList.lookup_insert_ne hid] at h
        exact Or.inl h

omit [IpNetwork] in
theorem scanNeighbor_dead {now : Instant} {info : NeighborInfo} (h : (scanNeighbor now info).1.isAlive = false) :
    (scanNeighbor now info).1.socketAddr = info.socketAddr ∧
      (info.isAlive = false ∨ (scanNeighbor now info).2 = true) := by
  unfold scanNeighbor at h ⊢
  cases ha : info.isAlive <;> by_cases ht : NEIGHBOR_TIMEOUT < now.durationSince info.lastSeen <;>
    simp_all

theorem deadNeighbor_grows : Grows (DeadNeighbor (κ := κ)) := by
  intro p e ip ht
  rintro ⟨id, info, hl, ha, hip⟩
  cases e with
  | hello message addr now =>
    rcases lookup_hello hl with hl | halive
    · exact Or.inl ⟨id, info, hl, ha, hip⟩
    · rw [ha] at halive
      cases halive
  | update message addr now =>
    rw [SimpleRoutingProtocol.step, handleUpdateMessageStatic_eq] at hl
    dsimp only at hl
    split at hl
    · exact Or.inl ⟨id, info, hl, ha, hip⟩
    · rcases touchNeighbor_alive hl with hl | halive
      · exact Or.inl ⟨id, info, hl, ha, hip⟩
      · rw [ha] at halive
        cases halive
  | cleanup now =>
    rw [SimpleRoutingProtocol.step, (performCleanup_spec now ht).2.1, scanNeighbors,
      Dictionary.lookup_mapValues] at hl
    obtain ⟨old, hold, rfl⟩ := Option.map_eq_some_iff.mp hl
    obtain ⟨haddr, hdead | hdeclared⟩ := scanNeighbor_dead ha
    · rw [haddr] at hip
      exact Or.inl ⟨id, old, hold, hdead, hip⟩
    · rw [haddr] at hip
      refine Or.inr ⟨now, rfl, id, ?_, ?_⟩
      · simp only [declaredDead, scanNeighbors, List.mem_map, List.mem_filter, Sigma.exists]
        exact ⟨id, old, ⟨Dictionary.mem_entries.mpr hold, hdeclared⟩, rfl⟩
      · simp [RouteManager.getNeighborIp, hold, hip]

/-- No admitted route leads to the address of a dead neighbour, the sender apart, which the update revives. -/
def NoDeadNextHop (o : Observed κ) (e : Event) : Prop :=
  ∀ message addr now, e = .update message addr now → ∀ info r, Admitted o message addr now info r →
    ∀ id neighbor, o.protocol.neighbors.lookup id = some neighbor → id ≠ message.routerId →
      neighbor.isAlive = false → neighbor.socketAddr.ip ≠ .v4 r.nextHop

theorem admits_deadNeighbor {e : Event} (hno : NoDeadNextHop o e) : Admits DeadNeighbor o e := by
  rintro message addr now rfl info r hadm ⟨id, neighbor, hl, ha, hip⟩
  rw [step_protocol, SimpleRoutingProtocol.step, handleUpdateMessageStatic_eq] at hl
  dsimp only at hl
  rw [if_neg hadm.1] at hl
  by_cases hid : id = message.routerId
  · subst hid
    unfold touchNeighbor at hl
    split at hl
    · rw [AList.lookup_insert] at hl
      obtain rfl := Option.some.inj hl
      cases ha
    · next hnone =>
      rw [hnone] at hl
      cases hl
  · rcases touchNeighbor_alive hl with hl | halive
    · exact hno message addr now rfl info r hadm id neighbor hl hid ha hip
    · rw [ha] at halive
      cases halive

theorem noRoute_through_deadNeighbor (h : ReachableUnder NoDeadNextHop o) : Avoids DeadNeighbor o :=
  h.avoids deadNeighbor_grows (fun _ _ _ he => admits_deadNeighbor he)

def OwnAddress (p : SimpleRoutingProtocol κ) (ip : Ipv4Addr) : Prop :=
  ∃ name info, p.router.interfaces.lookup name = some info ∧ info.ip = ip

/-- An update is neither sent from one of the router's addresses nor under its id. -/
def Foreign (o : Observed κ) (e : Event) : Prop :=
  ∀ message addr now, e = .update message addr now →
    message.routerId ≠ o.protocol.router.id ∧ ∀ ip, OwnAddress o.protocol ip → addr.ip ≠ .v4 ip

def NoOwnNextHop (o : Observed κ) (e : Event) : Prop :=
  ∀ message addr now, e = .update message addr now → ∀ info r, Admitted o message addr now info r →
    ∀ ip, OwnAddress o.protocol ip → Ipv4Addr.parse info.nextHop ≠ some ip

theorem ownAddress_grows : Grows (OwnAddress (κ := κ)) := by
  intro p e ip ht
  rintro ⟨name, info, hl, hip⟩
  rw [(step_same ht e).interfaces] at hl
  exact Or.inl ⟨name, info, hl, hip⟩

theorem admits_ownAddress (ho : WellFormed o) {e : Event} (hforeign : Foreign o e) (hno : NoOwnNextHop o e) :
    Admits OwnAddress o e := by
  rintro message addr now rfl info r hadm hown
  have hown' : OwnAddress o.protocol r.nextHop := by
    rw [step_protocol] at hown
    rcases ownAddress_grows o.protocol _ r.nextHop ho.distinct hown with h | ⟨now', he, -⟩
    · exact h
    · cases he
  have hadvertised := hno message addr now rfl info r hadm r.nextHop hown'
  obtain ⟨-, -, ⟨sender, haddr, hp⟩, -, -⟩ := hadm
  obtain ⟨d, nh, name, iface, -, hnh, -, -, rfl, -⟩ := RouteManager.processSingleRoute_iff.mp hp
  rcases RouteManager.determineNextHop_cases nh sender o.interfaces with he | ⟨he, -, -⟩
  · rw [he] at hown'
    exact (hforeign message addr now rfl).2 sender hown' haddr
  · rw [he] at hadvertised
    exact hadvertised hnh

theorem noRoute_to_self (h : ReachableUnder (fun o e => Foreign o e ∧ NoOwnNextHop o e) o) : Avoids OwnAddress o :=
  h.avoids ownAddress_grows (fun _ _ ho he => admits_ownAddress ho he.1 he.2)

end Runs

/-! Runs on the LAN: neighbour "C" dies, and neighbour "B" advertises a network. -/

theorem lan_cDies : ReachableUnder NoDeadNextHop (lan.run [lanHello "C" 3 0, lanCleanup 13]) := by
  have hlan : ReachableUnder NoDeadNextHop lan := .start lan_new
  have hhello : ReachableUnder NoDeadNextHop (lan.step (lanHello "C" 3 0)) := by
    apply hlan.step
    intro message addr now he
    cases he
  apply hhello.step (lanCleanup 13)
  intro message addr now he
  cases he

theorem noRoute_through_deadNeighbor_witness :
    Avoids DeadNeighbor (lan.run [lanHello "C" 3 0, lanCleanup 13, advert 14]) := by
  apply noRoute_through_deadNeighbor
  refine .step (advert 14) ?_ lan_cDies
  intro message addr now he info r hadm id neighbor hl _ ha
  have hothers : ∀ e ∈ (lan.run [lanHello "C" 3 0, lanCleanup 13]).protocol.neighbors.entries,
      e.2.isAlive = false → e.2.socketAddr.ip ≠ .v4 advertised.nextHop := by decide +kernel
  have hinterfaces : ((lan.step (lanHello "C" 3 0)).step (lanCleanup 13)).interfaces =
      lan.protocol.router.interfaces := (run_same lan_wellFormed [lanHello "C" 3 0, lanCleanup 13]).interfaces
  cases he
  obtain ⟨-, hinfo, ⟨sender, haddr, hp⟩, -, -⟩ := hadm
  obtain rfl := List.mem_singleton.mp hinfo
  obtain rfl := IpAddr.v4.inj haddr
  rw [hinterfaces, advert_processed] at hp
  obtain ⟨rfl, -⟩ := Prod.mk.inj (Option.some.inj hp)
  exact hothers _ (Dictionary.mem_entries.mpr hl) ha

theorem noRoute_through_deadNeighbor_fails :
    ¬ ∀ o : Observed (Finset SystemRoute), Reachable o → Avoids DeadNeighbor o := by
  intro h
  let es := [lanHello "C" 3 0, lanCleanup 13, lanUpdate "B" 2 [⟨"10.2.0.0/24", 1, "10.0.0.3"⟩] 14]
  have hroute : ⟨⟨.new 10 2 0 0, 24⟩, .new 10 0 0 3, "eth0", 2, .protocol⟩ ∈ (lan.run es).table.routes := by
    decide +kernel
  have hdead : ((lan.run es).protocol.neighbors.lookup "C").map (fun info => (info.isAlive, info.socketAddr.ip)) =
      some (false, .v4 (.new 10 0 0 3)) := by decide +kernel
  obtain ⟨info, hl, he⟩ := Option.map_eq_some_iff.mp hdead
  obtain ⟨ha, hip⟩ := Prod.mk.inj he
  exact h _ (lan_reachable es) _ hroute rfl ⟨"C", info, hl, ha, hip⟩

theorem lan_ownAddress {es : List Event} {ip : Ipv4Addr} (h : OwnAddress (lan.run es).protocol ip) :
    ip = .new 10 0 0 1 := by
  obtain ⟨name, info, hl, rfl⟩ := h
  have hips : ∀ e ∈ lan.protocol.router.interfaces.entries, e.2.ip = .new 10 0 0 1 := by decide +kernel
  rw [(run_same lan_wellFormed es).interfaces] at hl
  exact hips _ (Dictionary.mem_entries.mpr hl)

theorem lan_foreign (es : List Event) {routerId : String} {host : Fin 256} {routes : List RouteInfo} {secs : ℕ}
    (hid : routerId ≠ "A") (hhost : Ipv4Addr.new 10 0 0 host ≠ .new 10 0 0 1) :
    Foreign (lan.run es) (lanUpdate routerId host routes secs) := by
  have hown : lan.protocol.router.id = "A" := by decide +kernel
  intro message addr now he
  obtain ⟨rfl, rfl, rfl⟩ := Event.update.inj he
  refine ⟨?_, ?_⟩
  · rw [(run_same lan_wellFormed es).id, hown]
    exact hid
  · rintro ip hip haddr
    rw [lan_ownAddress hip] at haddr
    exact hhost (IpAddr.v4.inj haddr)

theorem noRoute_to_self_witness : Avoids OwnAddress (lan.run [advert 0]) := by
  apply noRoute_to_self
  have hlan : ReachableUnder (fun o e => Foreign o e ∧ NoOwnNextHop o e) lan := .start lan_new
  refine hlan.step (advert 0) ⟨lan_foreign [] (by decide) (by decide), ?_⟩
  intro message addr now he info r hadm ip hip
  have hadvertised : Ipv4Addr.parse "0.0.0.0" ≠ some (.new 10 0 0 1) := by decide +kernel
  have hown : ip = .new 10 0 0 1 := @lan_ownAddress [] ip hip
  rw [hown]
  obtain ⟨rfl, -, -⟩ := Event.update.inj he
  obtain rfl := List.mem_singleton.mp hadm.2.1
  exact hadvertised

theorem noRoute_to_self_fails :
    ¬ ∀ o : Observed (Finset SystemRoute), ReachableUnder Foreign o → Avoids OwnAddress o := by
  intro h
  have hlan : ReachableUnder Foreign lan := .start lan_new
  have hforeign : Foreign lan (lanUpdate "B" 2 [⟨"10.2.0.0/24", 1, "10.0.0.1"⟩] 0) :=
    lan_foreign [] (by decide) (by decide)
  have hreach := hlan.step _ hforeign
  have hroute : ⟨⟨.new 10 2 0 0, 24⟩, .new 10 0 0 1, "eth0", 2, .protocol⟩ ∈
      (lan.step (lanUpdate "B" 2 [⟨"10.2.0.0/24", 1, "10.0.0.1"⟩] 0)).table.routes := by decide +kernel
  have hown : (((lan.step (lanUpdate "B" 2 [⟨"10.2.0.0/24", 1, "10.0.0.1"⟩] 0)).protocol.router.interfaces.lookup
      "eth0").map InterfaceInfo.ip) = some (.new 10 0 0 1) := by decide +kernel
  obtain ⟨info, hl, hip⟩ := Option.map_eq_some_iff.mp hown
  exact h _ hreach _ hroute rfl ⟨"eth0", info, hl, hip⟩

end CustomOspf.Observed
