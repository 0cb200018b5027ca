import CustomOspf.Runs

/-!
What a cleanup pass removes and what it leaves. A route is backed when a record
of its network carries the installer and the time of its installation.
-/

namespace CustomOspf.Observed

open SimpleRoutingProtocol

section Passes

variable {κ : Type} [IpNetwork]

/-! Interfaces whose networks pass the validation of the table. -/

structure SoundInterfaces (router : Router κ) : Prop where
  listed : ∀ name info, router.interfaces.lookup name = some info →
    info.network ∈ router.routingTable.localNetworks
  specified : ∀ name info, router.interfaces.lookup name = some info →
    info.network.contains .unspecified = false
  loopback : ∀ name info, router.interfaces.lookup name = some info →
    ∀ ip, ip.isLoopback = true → info.network.contains ip = false

theorem SoundInterfaces.congr {p q : SimpleRoutingProtocol κ} (h : SameRouter p q) :
    SoundInterfaces q.router ↔ SoundInterfaces p.router := by
  constructor
  · rintro ⟨hl, hs, hb⟩
    rw [h.interfaces] at hl hs hb
    rw [h.localNetworks] at hl
    exact ⟨hl, hs, hb⟩
  · rintro ⟨hl, hs, hb⟩
    rw [← h.interfaces] at hl hs hb
    rw [← h.localNetworks] at hl
    exact ⟨hl, hs, hb⟩

theorem SoundInterfaces.isValidRoute_iff {router : Router κ} (hs : SoundInterfaces router) {r : RouteEntry}
    (hsrc : r.source = .protocol) {name : String} {info : InterfaceInfo}
    (hl : router.interfaces.lookup name = some info) (hc : info.network.contains r.nextHop = true) :
    router.routingTable.isValidRoute r = true ↔
      ∀ net ∈ router.routingTable.localNetworks, r.destination.subnet ≠ net.subnet := by
  rw [RoutingTable.isValidRoute_protocol hsrc]
  constructor
  · exact fun hv => hv.2.2.1
  · intro hlocal
    refine ⟨?_, ?_, hlocal, info.network, hs.listed name info hl, hc⟩
    · by_contra hb
      have hno := hs.loopback name info hl r.nextHop (by simpa using hb)
      rw [hc] at hno
      cases hno
    · by_contra hu
      have hun := (Ipv4Addr.isUnspecified_iff r.nextHop).mp (by simpa using hu)
      have hno := hs.specified name info hl
      rw [← hun, hc] at hno
      cases hno

theorem accepted_valid {p : SimpleRoutingProtocol κ} (hs : SoundInterfaces p.router) {update : RoutingUpdate}
    {addr : SocketAddr} {now : Instant} {key : String} {r : RouteEntry}
    (h : (key, r) ∈ accepted update addr now p) :
    p.router.routingTable.isValidRoute r = true ↔
      ∀ net ∈ p.router.routingTable.localNetworks, r.destination.subnet ≠ net.subnet := by
  obtain ⟨-, sender, -, info, -, rfl, hp, -⟩ := mem_accepted.mp h
  obtain ⟨name, iface, hl, hc⟩ := RouteManager.processSingleRoute_onLink hp
  exact hs.isValidRoute_iff (accepted_shape h).1 hl hc

variable [NetRoute κ]

theorem update_installs {o : Observed κ} (ho : WellFormed o) (hs : SoundInterfaces o.protocol.router)
    {message : RoutingUpdate} {addr : SocketAddr} {now : Instant} {key : String} {r : RouteEntry}
    (h : (key, r) ∈ accepted message addr now o.protocol) (hv : o.table.isValidRoute r = true) :
    ∃ key' r', (key', r') ∈ accepted message addr now o.protocol ∧ r'.destination = r.destination ∧
      (o.step (.update message addr now)).table.findRoute r.destination = some r' ∧
      (o.step (.update message addr now)).installed r.destination = some ⟨message.routerId, now⟩ := by
  let batch := ((accepted message addr now o.protocol).map Prod.snd).filter
    (fun route => route.destination = r.destination)
  have hbatch : ∀ r' ∈ batch, ∃ key', (key', r') ∈ accepted message addr now o.protocol ∧
      r'.destination = r.destination := by
    intro r' hr'
    obtain ⟨hmem, hd⟩ := List.mem_filter.mp hr'
    obtain ⟨⟨key', route⟩, hk, rfl⟩ := List.mem_map.mp hmem
    exact ⟨key', hk, of_decide_eq_true hd⟩
  have hvalid : ∀ r' ∈ batch, o.table.isValidRoute r' = true := by
    intro r' hr'
    obtain ⟨key', hk, hd⟩ := hbatch r' hr'
    rw [table, accepted_valid hs hk, hd]
    exact (accepted_valid hs h).mp hv
  have hr : r ∈ batch := List.mem_filter.mpr ⟨List.mem_map.mpr ⟨_, h, rfl⟩, by simp⟩
  obtain ⟨r', hfind, hr'⟩ : ∃ r', (o.step (.update message addr now)).table.findRoute r.destination = some r' ∧
      r' ∈ batch := by
    rw [step_table, SimpleRoutingProtocol.step, findRoute_update ho.distinct]
    change ∃ r', batch.foldl _ _ = some r' ∧ r' ∈ batch
    cases hb : batch with
    | nil => simp [hb] at hr
    | cons first rest =>
      obtain ⟨key', hk, hd⟩ := hbatch first (by simp [hb])
      have hsup := accepted_supersedes hk
      rw [hd] at hsup
      have hrest : ∀ r' ∈ rest, o.table.isValidRoute r' = true := fun r' hr' => hvalid r' (by simp [hb, hr'])
      exact Router.offers_installed (hvalid first (by simp [hb])) hrest hsup
  obtain ⟨key', hk, hd⟩ := hbatch r' hr'
  have hne := accepted_ne hk
  rw [hd] at hne
  exact ⟨key', r', hk, hd, hfind, installed_changed hfind hne⟩

theorem lookup_update_of_mem {p : SimpleRoutingProtocol κ} {message : RoutingUpdate} {addr : SocketAddr}
    {now : Instant} {key : String} {r : RouteEntry} (h : (key, r) ∈ accepted message addr now p) :
    ∃ r', r'.destination = r.destination ∧
      (p.step (.update message addr now)).routeStates.lookup key = some ⟨r', now, message.routerId⟩ := by
  have hkey : key ∈ ((accepted message addr now p).map
      (fun a => (a.1, (⟨a.2, now, message.routerId⟩ : RouteState)))).map Prod.fst := by
    rw [List.map_map]
    exact List.mem_map.mpr ⟨_, h, rfl⟩
  obtain ⟨state, hmem, hl⟩ := Dictionary.lookup_insertAll_of_mem (d := p.routeStates) hkey
  obtain ⟨⟨key', r'⟩, hr', he⟩ := List.mem_map.mp hmem
  obtain ⟨rfl, rfl⟩ := Prod.mk.inj he
  refine ⟨r', ?_, ?_⟩
  · have hd := (accepted_shape h).2.1
    rw [(accepted_shape hr').2.1] at hd
    exact Option.some.inj hd
  · rw [SimpleRoutingProtocol.step, handleUpdateMessageStatic_eq]
    exact hl

theorem lookup_update_of_notMem {p : SimpleRoutingProtocol κ} {message : RoutingUpdate} {addr : SocketAddr}
    {now : Instant} {key : String} {d : Ipv4Network} (hd : RouteManager.destinationOf key = some d)
    (h : ∀ key r, (key, r) ∈ accepted message addr now p → r.destination ≠ d) :
    (p.step (.update message addr now)).routeStates.lookup key = p.routeStates.lookup key := by
  rw [SimpleRoutingProtocol.step, handleUpdateMessageStatic_eq]
  apply Dictionary.lookup_insertAll_of_notMem
  rw [List.map_map]
  intro hk
  obtain ⟨⟨key', r⟩, hr, he⟩ := List.mem_map.mp hk
  obtain rfl : key' = key := he
  have hd' := (accepted_shape hr).2.1
  rw [hd] at hd'
  exact h _ r hr (Option.some.inj hd').symm

def Backed (o : Observed κ) : Prop :=
  ∀ r ∈ o.table.routes, r.source = .protocol → ∃ k state, o.protocol.routeStates.lookup k = some state ∧
    state.route.destination = r.destination ∧
    o.installed r.destination = some ⟨state.advertisingNeighbor, state.lastAdvertised⟩

theorem Backed.update {o : Observed κ} (hb : Backed o) (ho : WellFormed o)
    (hs : SoundInterfaces o.protocol.router) (message : RoutingUpdate) (addr : SocketAddr) (now : Instant) :
    Backed (o.step (.update message addr now)) := by
  have ho' := ho.step (.update message addr now)
  intro r hr hsrc
  have hfind : (o.step (.update message addr now)).table.findRoute r.destination = some r :=
    (mem_routes_iff ho'.distinct).mp hr
  by_cases hacc : ∃ key r', (key, r') ∈ accepted message addr now o.protocol ∧ r'.destination = r.destination
  · obtain ⟨key, r₁, h₁, hd₁⟩ := hacc
    -- the destination is no local network, since its entry is valid
    have hvalid : o.table.isValidRoute r₁ = true := by
      have hv := ho'.valid r hr
      rw [RoutingTable.isValidRoute_protocol hsrc] at hv
      have hlocal := hv.2.2.1
      rw [table, accepted_valid hs h₁, hd₁, ← (step_same ho.distinct (.update message addr now)).localNetworks]
      rw [step_table] at hlocal
      exact hlocal
    obtain ⟨key', r', h', hd', hfind', hi⟩ := update_installs ho hs h₁ hvalid
    rw [hd₁] at hfind' hi
    obtain ⟨r'', hd'', hl⟩ := lookup_update_of_mem h'
    refine ⟨key', _, by rw [step_protocol, hl], ?_, hi⟩
    rw [hd'', hd', hd₁]
  · push Not at hacc
    have hsame : (o.step (.update message addr now)).table.findRoute r.destination = o.table.findRoute r.destination := by
      rw [step_table]
      exact findRoute_update_of_notMem ho.distinct hacc
    rw [hsame] at hfind
    obtain ⟨k, state, hl, hd, hi⟩ := hb r (RoutingTable.findRoute_mem hfind) hsrc
    refine ⟨k, state, ?_, hd, ?_⟩
    · rw [step_protocol, lookup_update_of_notMem _ hacc, hl]
      rw [(ho.records k state hl).1, hd]
    · rw [installed_unchanged hsame, hi]

theorem Backed.cleanup {o : Observed κ} (hb : Backed o) (ho : WellFormed o) (now : Instant) :
    Backed (o.step (.cleanup now)) := by
  intro r hr hsrc
  have hfind := (mem_routes_iff (ho.cleanup now).distinct).mp hr
  obtain ⟨hold, hexpired, -⟩ := (mem_step_cleanup ho.distinct).mp hr
  obtain ⟨k, state, hl, hd, hi⟩ := hb r hold hsrc
  refine ⟨k, state, (lookup_step_cleanup ho.distinct).mpr ⟨hl, fun he => hexpired k state hl he hd⟩, hd, ?_⟩
  rw [(step_cleanup_findRoute ho.distinct hfind).2, hi]

theorem Reachable.backed {o : Observed κ} (h : Reachable o) (hs : SoundInterfaces o.protocol.router) : Backed o := by
  induction h with
  | start h =>
    intro r hr hsrc
    cases hsrc.symm.trans (start_direct h hr)
  | @step o e ho ih =>
    have hs' : SoundInterfaces o.protocol.router := by
      rw [step_protocol] at hs
      exact (SoundInterfaces.congr (step_same ho.wellFormed.distinct e)).mp hs
    have hb := ih hs'
    cases e with
    | hello message addr now =>
      obtain ⟨neighbors, hn⟩ := step_hello_eq o message addr now
      rw [hn]
      exact hb
    | update message addr now =>
      exact hb.update ho.wellFormed hs' message addr now
    | cleanup now => exact hb.cleanup ho.wellFormed now

theorem sound_run {o : Observed κ} (ho : WellFormed o) (es : List Event) :
    SoundInterfaces (o.run es).protocol.router ↔ SoundInterfaces o.protocol.router := by
  induction es generalizing o with
  | nil => exact Iff.rfl
  | cons e es ih =>
    have hstep : SoundInterfaces (o.step e).protocol.router ↔ SoundInterfaces o.protocol.router := by
      rw [step_protocol]
      exact SoundInterfaces.congr (step_same ho.distinct e)
    exact (ih (ho.step e)).trans hstep

theorem cleanup_complete {o : Observed κ} (ho : Reachable o) (hs : SoundInterfaces o.protocol.router)
    (now : Instant) :
    (∀ r ∈ (o.step (.cleanup now)).table.routes, r.source = .protocol →
      ∃ i, (o.step (.cleanup now)).installed r.destination = some i ∧
        now.durationSince i.time ≤ ROUTE_TIMEOUT ∧ i.router ∉ declaredDead now o.protocol) ∧
    ∀ k state, (o.step (.cleanup now)).protocol.routeStates.lookup k = some state →
      now.durationSince state.lastAdvertised ≤ ROUTE_TIMEOUT ∧
        state.advertisingNeighbor ∉ declaredDead now o.protocol := by
  have hrecords : ∀ k state, (o.step (.cleanup now)).protocol.routeStates.lookup k = some state →
      now.durationSince state.lastAdvertised ≤ ROUTE_TIMEOUT ∧
        state.advertisingNeighbor ∉ declaredDead now o.protocol := by
    intro k state hl
    have hno := ((lookup_step_cleanup ho.wellFormed.distinct).mp hl).2
    simp only [Expires, not_or, Nat.not_lt] at hno
    exact hno
  refine ⟨?_, hrecords⟩
  intro r hr hsrc
  have hb := (ho.backed hs).cleanup ho.wellFormed now
  obtain ⟨k, state, hl, -, hi⟩ := hb r hr hsrc
  exact ⟨_, hi, hrecords k state hl⟩

/-! A pass removes a route for its own sake, or because of a record left behind. -/

/-- The installer of the route is declared dead, its installation is stale, or its next hop is dead. -/
def Removable (o : Observed κ) (now : Instant) (r : RouteEntry) : Prop :=
  (∃ i, o.installed r.destination = some i ∧
    (i.router ∈ declaredDead now o.protocol ∨ ROUTE_TIMEOUT < now.durationSince i.time)) ∨
  DeadNextHop now o.protocol r.nextHop

def RemovesOnlyRemovable (o : Observed κ) (now : Instant) : Prop :=
  ∀ r ∈ o.table.routes, r.source = .protocol → r ∉ (o.step (.cleanup now)).table.routes → Removable o now r

/-- A record of the route's network that stems from another installation. -/
def LeftBehind (o : Observed κ) (r : RouteEntry) (k : String) (state : RouteState) : Prop :=
  o.protocol.routeStates.lookup k = some state ∧ state.route.destination = r.destination ∧
    o.installed r.destination ≠ some ⟨state.advertisingNeighbor, state.lastAdvertised⟩

omit [IpNetwork] [NetRoute κ] in
theorem mem_declaredDead {now : Instant} {p : SimpleRoutingProtocol κ} {id : String} :
    id ∈ declaredDead now p ↔ ∃ info, p.neighbors.lookup id = some info ∧ info.isAlive = true ∧
      NEIGHBOR_TIMEOUT < now.durationSince info.lastSeen := by
  have hscan (info : NeighborInfo) : (scanNeighbor now info).2 = true ↔
      info.isAlive = true ∧ NEIGHBOR_TIMEOUT < now.durationSince info.lastSeen := by
    unfold scanNeighbor
    by_cases ht : NEIGHBOR_TIMEOUT < now.durationSince info.lastSeen <;>
      cases ha : info.isAlive <;> simp [ht]
  simp [declaredDead, scanNeighbors, hscan, Dictionary.mem_entries]

theorem removesOnlyRemovable_iff {o : Observed κ} (ho : Reachable o) (now : Instant) :
    RemovesOnlyRemovable o now ↔ ∀ r ∈ o.table.routes, r.source = .protocol →
      ∀ k state, LeftBehind o r k state → Expires now o.protocol state → Removable o now r := by
  have hgone (r : RouteEntry) (hr : r ∈ o.table.routes) : r ∉ (o.step (.cleanup now)).table.routes ↔
      (∃ k state, o.protocol.routeStates.lookup k = some state ∧ Expires now o.protocol state ∧
        state.route.destination = r.destination) ∨ (r.source = .protocol ∧ DeadNextHop now o.protocol r.nextHop) := by
    rw [mem_step_cleanup ho.wellFormed.distinct, and_iff_right hr, not_and_or, not_not]
    push Not
    rfl
  constructor
  · rintro h r hr hs k state ⟨hl, hd, -⟩ he
    exact h r hr hs ((hgone r hr).mpr (Or.inl ⟨k, state, hl, he, hd⟩))
  · intro h r hr hs hnot
    rcases (hgone r hr).mp hnot with ⟨k, state, hl, he, hd⟩ | ⟨-, hdead⟩
    · by_cases hi : o.installed r.destination = some ⟨state.advertisingNeighbor, state.lastAdvertised⟩
      · rcases he with hstale | hdead
        · exact Or.inl ⟨_, hi, Or.inr hstale⟩
        · exact Or.inl ⟨_, hi, Or.inl hdead⟩
      · exact h r hr hs k state ⟨hl, hd, hi⟩ he
    · exact Or.inr hdead

end Passes

theorem SoundInterfaces.of_entries {κ : Type} {router : Router κ}
    (h : ∀ e ∈ router.interfaces.entries, e.2.network ∈ router.routingTable.localNetworks ∧
      e.2.network.contains .unspecified = false ∧ 8 ≤ e.2.network.prefixLen.val ∧
      e.2.network.addr.isLoopback = false) : SoundInterfaces router := by
  have hentry : ∀ name info, router.interfaces.lookup name = some info → _ :=
    fun name info hl => h ⟨name, info⟩ (Dictionary.mem_entries.mpr hl)
  refine ⟨fun name info hl => (hentry name info hl).1, fun name info hl => (hentry name info hl).2.1, ?_⟩
  intro name info hl ip hip
  obtain ⟨-, -, hlen, hno⟩ := hentry name info hl
  by_contra hc
  have hoctet := Crate.octet_of_contains hlen (Bool.not_eq_false _ ▸ hc)
  rw [Ipv4Addr.isLoopback, hoctet] at hip
  rw [Ipv4Addr.isLoopback, hip] at hno
  cases hno

theorem lan_sound (es : List Event) : SoundInterfaces (lan.run es).protocol.router := by
  rw [sound_run lan_wellFormed]
  apply SoundInterfaces.of_entries
  decide +kernel

def twoSpellings : List Event :=
  [lanUpdate "B" 2 [⟨"10.2.0.2/24", 0, "0.0.0.0"⟩] 0, lanHello "B" 2 8,
    lanHello "C" 3 8, lanUpdate "C" 3 [⟨"10.2.0.4/24", 0, "0.0.0.0"⟩] 10]

theorem cleanup_complete_witness :
    let o := lan.run twoSpellings
    let now := Duration.fromSecs 12
    (∀ r ∈ (o.step (.cleanup now)).table.routes, r.source = .protocol →
      ∃ i, (o.step (.cleanup now)).installed r.destination = some i ∧
        Instant.durationSince now i.time ≤ ROUTE_TIMEOUT ∧ i.router ∉ declaredDead now o.protocol) ∧
    ∀ k state, (o.step (.cleanup now)).protocol.routeStates.lookup k = some state →
      Instant.durationSince now state.lastAdvertised ≤ ROUTE_TIMEOUT ∧
        state.advertisingNeighbor ∉ declaredDead now o.protocol :=
  cleanup_complete (lan_reachable _) (lan_sound _) _

theorem removesOnlyRemovable_witness :
    let o := lan.run twoSpellings
    let now := Duration.fromSecs 12
    RemovesOnlyRemovable o now ↔ ∀ r ∈ o.table.routes, r.source = .protocol →
      ∀ k state, LeftBehind o r k state → Expires now o.protocol state → Removable o now r :=
  removesOnlyRemovable_iff (lan_reachable _) _

/-- After 17 s the record of the first spelling takes out the route that is seven seconds old. -/
theorem removesOnlyRemovable_fails :
    ¬ ∀ o : Observed (Finset SystemRoute), Reachable o → ∀ now, RemovesOnlyRemovable o now := by
  intro h
  let fresh : RouteEntry := ⟨⟨.new 10 2 0 0, 24⟩, .new 10 0 0 3, "eth0", 1, .protocol⟩
  have hin : fresh ∈ (lan.run twoSpellings).table.routes := by decide +kernel
  have hout : fresh ∉ ((lan.run twoSpellings).step (lanCleanup 17)).table.routes := by decide +kernel
  have hinstalled : (lan.run twoSpellings).installed fresh.destination = some ⟨"C", Duration.fromSecs 10⟩ := by
    decide +kernel
  have hdead : declaredDead (Duration.fromSecs 17) (lan.run twoSpellings).protocol = [] := by decide +kernel
  rcases h _ (lan_reachable twoSpellings) (Duration.fromSecs 17) fresh hin rfl hout with
    ⟨i, hi, hd | ht⟩ | ⟨id, hid, -⟩
  · simp [hdead] at hd
  · obtain rfl := Option.some.inj (hinstalled.symm.trans hi)
    revert ht
    decide +kernel
  · simp [hdead] at hid

end CustomOspf.Observed
