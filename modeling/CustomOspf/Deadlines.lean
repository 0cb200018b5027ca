import CustomOspf.Liveness

/-!
How soon the cleanup passes act when they come at regular times: how long a
learned route lasts, when a silent neighbour is declared dead, and how many
hellos in a row may be lost before that.
-/

namespace CustomOspf.Observed

open SimpleRoutingProtocol Watchdog

theorem passTimes_append (es : List Event) (e : Event) :
    passTimes (es ++ [e]) = passTimes es ++ (passTime e).toList := by
  rw [passTimes, List.filterMap_append]
  cases he : passTime e <;> simp [passTimes, he]

theorem mem_passTimes {es : List Event} {now : Instant} : now ∈ passTimes es ↔ .cleanup now ∈ es := by
  unfold passTimes
  rw [List.mem_filterMap]
  constructor
  · rintro ⟨e, he, hnow⟩
    obtain rfl := passTime_some hnow
    exact he
  · intro he
    exact ⟨.cleanup now, he, rfl⟩

theorem passTimes_le_last {es : List Event} {e : Event} (h : ((es ++ [e]).map Event.time).Pairwise (· ≤ ·)) :
    ∀ now ∈ passTimes es, now ≤ e.time := by
  intro now hnow
  rw [List.map_append, List.pairwise_append] at h
  exact h.2.2 now (List.mem_map.mpr ⟨_, mem_passTimes.mp hnow, rfl⟩) e.time (by simp)

section Runs

variable {κ : Type} [IpNetwork] [NetRoute κ]

/-! No route and no record outlives a pass that finds it older than `ROUTE_TIMEOUT`. -/

structure Fresh (o : Observed κ) (nows : List Instant) : Prop where
  routes : ∀ r ∈ o.table.routes, r.source = .protocol →
    ∃ i, o.installed r.destination = some i ∧ ∀ now ∈ nows, now ≤ i.time + ROUTE_TIMEOUT
  records : ∀ k state, o.protocol.routeStates.lookup k = some state →
    ∀ now ∈ nows, now ≤ state.lastAdvertised + ROUTE_TIMEOUT

theorem Fresh.update {o : Observed κ} {nows : List Instant} (hf : Fresh o nows) (ho : WellFormed o)
    (message : RoutingUpdate) (addr : SocketAddr) {now : Instant} (hnow : ∀ time ∈ nows, time ≤ now) :
    Fresh (o.step (.update message addr now)) nows := by
  have hlater : ∀ time ∈ nows, time ≤ now + ROUTE_TIMEOUT := fun time htime =>
    (hnow time htime).trans (Nat.le_add_right now ROUTE_TIMEOUT)
  constructor
  · intro r hr hsrc
    have hfind : (o.step (.update message addr now)).table.findRoute r.destination = some r :=
      (mem_routes_iff (ho.step _).distinct).mp hr
    by_cases hsame : o.table.findRoute r.destination = some r
    · rw [installed_unchanged (hfind.trans hsame.symm)]
      exact hf.routes r (RoutingTable.findRoute_mem hsame) hsrc
    · exact ⟨_, installed_changed hfind hsame, hlater⟩
  · intro k state hl
    rw [step_protocol, SimpleRoutingProtocol.step, handleUpdateMessageStatic_eq] at hl
    rcases Dictionary.lookup_insertAll hl with hk | ⟨-, hl⟩
    · obtain ⟨⟨key, r⟩, -, he⟩ := List.mem_map.mp hk
      obtain ⟨rfl, rfl⟩ := Prod.mk.inj he
      exact hlater
    · exact hf.records k state hl

theorem Fresh.cleanup {o : Observed κ} {nows : List Instant} (hf : Fresh o nows) (ho : WellFormed o) (hb : Backed o)
    (now : Instant) : Fresh (o.step (.cleanup now)) (nows ++ [now]) := by
  have hrecords : ∀ k state, (o.step (.cleanup now)).protocol.routeStates.lookup k = some state →
      ∀ time ∈ nows ++ [now], time ≤ state.lastAdvertised + ROUTE_TIMEOUT := by
    intro k state hl
    obtain ⟨hold, hno⟩ := (lookup_step_cleanup ho.distinct).mp hl
    rw [List.forall_mem_append]
    refine ⟨hf.records k state hold, ?_⟩
    have hage : now.durationSince state.lastAdvertised ≤ ROUTE_TIMEOUT := not_lt.mp (fun h => hno (Or.inl h))
    rw [List.forall_mem_singleton]
    exact Nat.sub_le_iff_le_add'.mp hage
  refine ⟨?_, hrecords⟩
  intro r hr hsrc
  obtain ⟨k, state, hl, -, hi⟩ := hb.cleanup ho now r hr hsrc
  exact ⟨_, hi, hrecords k state hl⟩

theorem fresh_run {routerId : String} {hosts hostsAtTable : List NetworkInterface} {names : List String}
    {port : UInt16} {handle : κ} {p : SimpleRoutingProtocol κ}
    (h : SimpleRoutingProtocol.new routerId hosts hostsAtTable names port handle = .ok p)
    (hs : SoundInterfaces p.router) {es : List Event} (hsorted : (es.map Event.time).Pairwise (· ≤ ·)) :
    Fresh ((start p).run es) (passTimes es) := by
  induction es using List.reverseRecOn with
  | nil =>
    refine ⟨?_, fun k state _ now hnow => absurd hnow List.not_mem_nil⟩
    intro r hr hsrc
    cases hsrc.symm.trans (start_direct h hr)
  | append_singleton es e ih =>
    have hr := (Reachable.start h).run es
    have hprefix : (es.map Event.time).Pairwise (· ≤ ·) := by
      rw [List.map_append, List.pairwise_append] at hsorted
      exact hsorted.1
    have hnow := passTimes_le_last hsorted
    rw [run, List.foldl_append, passTimes_append]
    cases e with
    | hello message addr now =>
      obtain ⟨neighbors, hn⟩ := step_hello_eq ((start p).run es) message addr now
      obtain ⟨hroutes, hrecords⟩ := ih hprefix
      simp only [passTime, Option.toList_none, List.append_nil]
      change Fresh (((start p).run es).step (.hello message addr now)) (passTimes es)
      rw [hn]
      exact ⟨hroutes, hrecords⟩
    | update message addr now =>
      simp only [passTime, Option.toList_none, List.append_nil]
      exact (ih hprefix).update hr.wellFormed message addr hnow
    | cleanup now =>
      have hsound : SoundInterfaces ((start p).run es).protocol.router :=
        (sound_run (WellFormed.new h) es).mpr hs
      exact (ih hprefix).cleanup hr.wellFormed (hr.backed hsound) now

/-- A learned route is at most `ROUTE_TIMEOUT` and one period older than its last installation. -/
theorem installed_recently {routerId : String} {hosts hostsAtTable : List NetworkInterface} {names : List String}
    {port : UInt16} {handle : κ} {p : SimpleRoutingProtocol κ}
    (h : SimpleRoutingProtocol.new routerId hosts hostsAtTable names port handle = .ok p)
    (hs : SoundInterfaces p.router) {es : List Event} (hsorted : (es.map Event.time).Pairwise (· ≤ ·))
    {period : Duration} {since now : Instant} (hpunctual : Punctual period since now (passTimes es)) :
    (∀ r ∈ ((start p).run es).table.routes, r.source = .protocol →
      ∃ i, ((start p).run es).installed r.destination = some i ∧ now < max since (i.time + ROUTE_TIMEOUT) + period) ∧
    ∀ k state, ((start p).run es).protocol.routeStates.lookup k = some state →
      now < max since (state.lastAdvertised + ROUTE_TIMEOUT) + period := by
  obtain ⟨hroutes, hrecords⟩ := fresh_run h hs hsorted
  constructor
  · intro r hr hsrc
    obtain ⟨i, hi, htimes⟩ := hroutes r hr hsrc
    exact ⟨i, hi, hpunctual.lt htimes⟩
  · intro k state hl
    exact hpunctual.lt (hrecords k state hl)

end Runs

/-! "B" falls silent after its update, and of the hellos of "C" every other one is lost. -/

def silence : List Event :=
  [lanHello "C" 3 1, lanCleanup 5, lanHello "C" 3 9, lanCleanup 10, lanCleanup 15, lanHello "C" 3 16, lanCleanup 20]

def silentPeer : List Event := [lanCleanup 0, lanHello "B" 2 0] ++ advert 1 :: silence

theorem silentPeer_sorted : (silentPeer.map Event.time).Pairwise (· ≤ ·) := by decide

theorem silentPeer_punctual : Punctual (CLEANUP_INTERVAL + 0) 0 (Duration.fromSecs 20) (passTimes silentPeer) := by
  have hpos : 0 < CLEANUP_INTERVAL := by decide
  apply punctual_of_ticks hpos
  intro k hk
  have hcases : k = 0 ∨ k = 1 ∨ k = 2 ∨ k = 3 ∨ k = 4 := by
    simp only [CLEANUP_INTERVAL, Duration.fromSecs] at hk
    omega
  rcases hcases with rfl | rfl | rfl | rfl | rfl <;> decide

theorem installed_recently_witness :
    (∀ r ∈ (lan.run silentPeer).table.routes, r.source = .protocol →
      ∃ i, (lan.run silentPeer).installed r.destination = some i ∧
        Duration.fromSecs 20 < max 0 (i.time + ROUTE_TIMEOUT) + (CLEANUP_INTERVAL + 0)) ∧
    ∀ k state, (lan.run silentPeer).protocol.routeStates.lookup k = some state →
      Duration.fromSecs 20 < max 0 (state.lastAdvertised + ROUTE_TIMEOUT) + (CLEANUP_INTERVAL + 0) :=
  installed_recently lan_new (lan_sound []) silentPeer_sorted silentPeer_punctual

section Silence

variable {κ : Type} [IpNetwork] [NetRoute κ]

/-! A neighbour that falls silent: the pass that declares it dead takes all it has installed. -/

def Unbacked (o : Observed κ) (id : String) : Prop :=
  ∀ k state, o.protocol.routeStates.lookup k = some state → state.advertisingNeighbor ≠ id

theorem Unbacked.quiet {o : Observed κ} {id : String} (hu : Unbacked o id) {e : Event}
    (hquiet : ¬ Hears o.protocol.router.id id e) (ho : WellFormed o) : Unbacked (o.step e) id := by
  intro k state hl
  cases e with
  | hello message addr now =>
    obtain ⟨neighbors, hn⟩ := step_hello_eq o message addr now
    rw [hn] at hl
    exact hu k state hl
  | update message addr now =>
    rw [step_protocol, SimpleRoutingProtocol.step, handleUpdateMessageStatic_eq] at hl
    rcases Dictionary.lookup_insertAll hl with hk | ⟨-, hl⟩
    · obtain ⟨⟨key, r⟩, hr, he⟩ := List.mem_map.mp hk
      obtain ⟨rfl, rfl⟩ := Prod.mk.inj he
      rintro rfl
      exact hquiet ⟨rfl, (mem_accepted.mp hr).1⟩
    · exact hu k state hl
  | cleanup now => exact hu k state ((lookup_step_cleanup ho.distinct).mp hl).1

theorem neighbor_silent {o : Observed κ} (ho : WellFormed o) {id : String} {e : Event} {silence : List Event}
    (hs : SilentAfter o.protocol.router.id id e silence) {info : NeighborInfo}
    (hknown : (o.step e).neighbor id = some info) :
    ∃ info, ((o.step e).run silence).neighbor id = some info ∧ info.lastSeen = e.time := by
  have hquiet : ∀ e' ∈ silence, ¬ Hears (o.step e).protocol.router.id id e' := by
    rw [step_self ho]
    exact hs.quiet
  have hwatch := (silence_watch (ho.step e) hquiet).1
  have hheard : (o.step e).watched id = some ⟨e.time, true⟩ :=
    (congrArg (Option.map watch) hknown).trans (congrArg some (watch_heard hs.heard hknown))
  rw [hheard] at hwatch
  obtain ⟨info, hinfo, hlast⟩ := Option.map_eq_some_iff.mp hwatch
  refine ⟨info, hinfo, ?_⟩
  have htime := congrArg Watch.lastHeard hlast
  rw [passes_lastHeard] at htime
  exact htime

theorem SilentAfter.unbacked {o : Observed κ} (ho : WellFormed o) {id : String} {e : Event} {silence : List Event}
    (hs : SilentAfter o.protocol.router.id id e silence) (hsorted : (passTimes silence).Pairwise (· ≤ ·))
    (hknown : ((o.step e).neighbor id).isSome = true) (hfound : FoundSilent e silence) :
    Unbacked ((o.step e).run silence) id := by
  obtain ⟨heard, hheard⟩ := Option.isSome_iff_exists.mp hknown
  induction silence using List.reverseRecOn with
  | nil =>
    obtain ⟨now, hnow, -⟩ := hfound
    exact absurd hnow List.not_mem_nil
  | append_singleton silence e' ih =>
    have hbefore : SilentAfter o.protocol.router.id id e silence :=
      ⟨hs.heard, fun e'' he'' => hs.quiet e'' (List.mem_append_left _ he'')⟩
    have hw : WellFormed ((o.step e).run silence) := (ho.step e).run silence
    have hself : ((o.step e).run silence).protocol.router.id = o.protocol.router.id :=
      (run_same (ho.step e) silence).id.trans (step_self ho e)
    have hprefix : (passTimes silence).Pairwise (· ≤ ·) := by
      rw [passTimes_append, List.pairwise_append] at hsorted
      exact hsorted.1
    rw [run, List.foldl_append]
    by_cases hearly : FoundSilent e silence
    · have hquiet : ¬ Hears ((o.step e).run silence).protocol.router.id id e' := by
        rw [hself]
        exact hs.quiet e' (List.mem_append_right _ (List.mem_singleton_self e'))
      exact (ih hbefore hprefix hearly).quiet hquiet hw
    · -- the last step is the pass that declares the neighbour dead
      obtain ⟨now, hnow, hlate⟩ := hfound
      rw [passTimes_append, List.mem_append] at hnow
      obtain hold | hlast := hnow
      · exact absurd ⟨now, hold, hlate⟩ hearly
      · obtain rfl := passTime_some (Option.mem_toList.mp hlast)
        obtain ⟨info, hinfo, hseen⟩ := neighbor_silent ho hbefore hheard
        have halive : info.isAlive = true := by
          have hlive := (hbefore.liveness ho hprefix).1 info hinfo
          cases hdead : info.isAlive with
          | false => exact absurd (hlive.mp hdead) hearly
          | true => rfl
        have hdeclared : id ∈ declaredDead now ((o.step e).run silence).protocol :=
          mem_declaredDead.mpr ⟨info, hinfo, halive, by rw [hseen]; exact hlate⟩
        rintro k state hl rfl
        exact ((lookup_step_cleanup hw.distinct).mp hl).2 (Or.inr hdeclared)

theorem found_by_deadline {before silence : List Event} {e : Event} {own id : String} (hears : Hears own id e)
    (hsorted : ((before ++ e :: silence).map Event.time).Pairwise (· ≤ ·)) {period : Duration} {since now : Instant}
    (hpunctual : Punctual period since now (passTimes (before ++ e :: silence)))
    (hsince : since ≤ e.time + NEIGHBOR_TIMEOUT) (hdeadline : e.time + NEIGHBOR_TIMEOUT + period ≤ now) :
    FoundSilent e silence := by
  obtain ⟨time, hmem, hlate, -⟩ := hpunctual (e.time + NEIGHBOR_TIMEOUT) hsince hdeadline
  have hlater : e.time < time := (Nat.le_add_right _ _).trans_lt hlate
  rw [mem_passTimes, List.mem_append, List.mem_cons] at hmem
  obtain hbefore | rfl | hsilence := hmem
  · rw [List.map_append, List.pairwise_append] at hsorted
    have hle : time ≤ e.time := hsorted.2.2 time (List.mem_map.mpr ⟨_, hbefore, rfl⟩) e.time (by simp)
    exact absurd hlater hle.not_gt
  · exact hears.elim
  · exact ⟨time, mem_passTimes.mpr hsilence, Nat.lt_sub_iff_add_lt'.mpr hlate⟩

/-- `NEIGHBOR_TIMEOUT` and one period after a neighbour was last heard it is dead, and nothing it installed is left. -/
theorem silent_neighbor_removed {routerId : String} {hosts hostsAtTable : List NetworkInterface} {names : List String}
    {port : UInt16} {handle : κ} {p : SimpleRoutingProtocol κ}
    (h : SimpleRoutingProtocol.new routerId hosts hostsAtTable names port handle = .ok p)
    (hs : SoundInterfaces p.router) {before silence : List Event} {e : Event} {id : String}
    (hsorted : ((before ++ e :: silence).map Event.time).Pairwise (· ≤ ·))
    (hsilent : SilentAfter p.router.id id e silence)
    (hknown : (((start p).run (before ++ [e])).neighbor id).isSome = true) {period : Duration} {since now : Instant}
    (hpunctual : Punctual period since now (passTimes (before ++ e :: silence)))
    (hsince : since ≤ e.time + NEIGHBOR_TIMEOUT) (hdeadline : e.time + NEIGHBOR_TIMEOUT + period ≤ now) :
    let o := (start p).run (before ++ e :: silence)
    (∃ info, o.neighbor id = some info ∧ info.isAlive = false) ∧
      (∀ r ∈ o.table.routes, r.source = .protocol → ∀ i, o.installed r.destination = some i → i.router ≠ id) ∧
      ∀ k state, o.protocol.routeStates.lookup k = some state → state.advertisingNeighbor ≠ id := by
  intro o
  let o₁ := (start p).run before
  have hw : WellFormed o₁ := (WellFormed.new h).run before
  have hself : o₁.protocol.router.id = p.router.id := (run_same (WellFormed.new h) before).id
  have hrun : o = (o₁.step e).run silence := List.foldl_append
  have hheard : (start p).run (before ++ [e]) = o₁.step e := List.foldl_append
  rw [← hself] at hsilent
  rw [hheard] at hknown
  have hpasses : (passTimes silence).Pairwise (· ≤ ·) := by
    apply passTimes_sorted hsorted
    exact (List.sublist_cons_self e silence).trans (List.sublist_append_right before _)
  have hfound := found_by_deadline hsilent.heard hsorted hpunctual hsince hdeadline
  have hunbacked : Unbacked o id := by
    rw [hrun]
    exact hsilent.unbacked hw hpasses hknown hfound
  refine ⟨?_, ?_, hunbacked⟩
  · obtain ⟨heard, hheard⟩ := Option.isSome_iff_exists.mp hknown
    obtain ⟨info, hinfo, -⟩ := neighbor_silent hw hsilent hheard
    have hlive := (hsilent.liveness hw hpasses).1 info hinfo
    rw [hrun]
    exact ⟨info, hinfo, hlive.mpr hfound⟩
  · intro r hr hsrc i hi
    have hsound : SoundInterfaces o.protocol.router := (sound_run (WellFormed.new h) _).mpr hs
    obtain ⟨k, state, hl, -, hstate⟩ := ((Reachable.start h).run _).backed hsound r hr hsrc
    obtain rfl := Option.some.inj (hi.symm.trans hstate)
    exact hunbacked k state hl

end Silence

theorem silent_neighbor_removed_witness :
    let o := lan.run silentPeer
    (∃ info, o.neighbor "B" = some info ∧ info.isAlive = false) ∧
      (∀ r ∈ o.table.routes, r.source = .protocol → ∀ i, o.installed r.destination = some i → i.router ≠ "B") ∧
      ∀ k state, o.protocol.routeStates.lookup k = some state → state.advertisingNeighbor ≠ "B" := by
  have hself : lan.protocol.router.id = "A" := by decide +kernel
  have hsound : SoundInterfaces lan.protocol.router := lan_sound []
  have hsilent : SilentAfter lan.protocol.router.id "B" (advert 1) silence := by
    rw [hself]
    refine ⟨⟨rfl, by decide⟩, ?_⟩
    simp [silence, Hears, lanCleanup, lanHello]
  have hknown : ((lan.run ([lanCleanup 0, lanHello "B" 2 0] ++ [advert 1])).neighbor "B").isSome = true := by
    decide +kernel
  exact silent_neighbor_removed lan_new hsound silentPeer_sorted hsilent hknown silentPeer_punctual (Nat.zero_le _)
    (by decide)

section Heard

variable {κ : Type} [IpNetwork] [NetRoute κ]

/-! A neighbour that is heard often enough is never declared dead. -/

def HeardInTime (own id : String) (es : List Event) : Prop :=
  ∀ before now after, es = before ++ .cleanup now :: after →
    (∀ e ∈ before, ¬ Hears own id e) ∨ ∃ e ∈ before, Hears own id e ∧ now ≤ e.time + NEIGHBOR_TIMEOUT

theorem HeardInTime.prefix {own id : String} {es more : List Event} (h : HeardInTime own id (es ++ more)) :
    HeardInTime own id es := by
  rintro before now after rfl
  exact h before now (after ++ more) (by simp)

theorem purges_append (id : String) (o : Observed κ) (es more : List Event) :
    purges id o (es ++ more) = purges id o es + purges id (o.run es) more := by
  induction es generalizing o with
  | nil => exact (Nat.zero_add _).symm
  | cons e es ih =>
    rw [List.cons_append]
    cases e with
    | cleanup now =>
      rw [purges, purges, ih, Nat.add_assoc]
      rfl
    | hello message addr now => exact ih _
    | update message addr now => exact ih _

section Known

variable {routerId : String} {hosts hostsAtTable : List NetworkInterface} {names : List String} {port : UInt16}
  {handle : κ} {p : SimpleRoutingProtocol κ}
  (h : SimpleRoutingProtocol.new routerId hosts hostsAtTable names port handle = .ok p)

include h

theorem known_since {es : List Event} {id : String} {info : NeighborInfo}
    (hinfo : ((start p).run es).neighbor id = some info) :
    ∃ before e silence, es = before ++ e :: silence ∧ SilentAfter p.router.id id e silence ∧
      (((start p).run before).step e).run silence = (start p).run es ∧ info.lastSeen = e.time := by
  have hstart := WellFormed.new h
  rcases last_heard p.router.id id es with hnone | ⟨before, e, silence, rfl, hs⟩
  · have hwatch := (silence_watch hstart hnone).1
    rw [watched, hinfo, start_watched h] at hwatch
    cases hwatch
  · have hw : WellFormed ((start p).run before) := hstart.run before
    have hself : ((start p).run before).protocol.router.id = p.router.id := (run_same hstart before).id
    have hrun : (start p).run (before ++ e :: silence) = (((start p).run before).step e).run silence := List.foldl_append
    rw [← hself] at hs
    have hquiet : ∀ e' ∈ silence, ¬ Hears (((start p).run before).step e).protocol.router.id id e' := by
      rw [step_self hw]
      exact hs.quiet
    have hwatch := (silence_watch (hw.step e) hquiet).1
    rw [← hrun, watched, hinfo] at hwatch
    obtain ⟨w, hw', -⟩ := Option.map_eq_some_iff.mp hwatch.symm
    obtain ⟨heard, hheard, -⟩ := Option.map_eq_some_iff.mp hw'
    obtain ⟨info', hinfo', hseen⟩ := neighbor_silent hw hs hheard
    rw [← hrun, hinfo] at hinfo'
    obtain rfl := Option.some.inj hinfo'
    rw [hself] at hs
    exact ⟨before, e, silence, rfl, hs, hrun.symm, hseen⟩

theorem heard_le_lastSeen {es : List Event} (hsorted : (es.map Event.time).Pairwise (· ≤ ·)) {id : String}
    {info : NeighborInfo} (hinfo : ((start p).run es).neighbor id = some info) {e : Event} (he : e ∈ es)
    (hears : Hears p.router.id id e) : e.time ≤ info.lastSeen := by
  obtain ⟨before, last, silence, rfl, hs, -, hseen⟩ := known_since h hinfo
  rw [hseen]
  rw [List.mem_append, List.mem_cons] at he
  obtain hbefore | rfl | hsilence := he
  · rw [List.map_append, List.pairwise_append] at hsorted
    exact hsorted.2.2 e.time (List.mem_map.mpr ⟨_, hbefore, rfl⟩) last.time (by simp)
  · exact le_refl _
  · exact absurd hears (hs.quiet e hsilence)

theorem heardInTime_alive {es : List Event} (hsorted : (es.map Event.time).Pairwise (· ≤ ·)) {id : String}
    (hprompt : HeardInTime p.router.id id es) : purges id (start p) es = 0 ∧
      ∀ info, ((start p).run es).neighbor id = some info → info.isAlive = true := by
  have hstart := WellFormed.new h
  induction es using List.reverseRecOn with
  | nil =>
    refine ⟨rfl, ?_⟩
    intro info hinfo
    have hunknown := start_watched h id
    change (start p).neighbor id = some info at hinfo
    rw [watched, hinfo] at hunknown
    cases hunknown
  | append_singleton es e ih =>
    have hprefix : (es.map Event.time).Pairwise (· ≤ ·) := by
      rw [List.map_append, List.pairwise_append] at hsorted
      exact hsorted.1
    obtain ⟨hnone, halive⟩ := ih hprefix hprompt.prefix
    have hw : WellFormed ((start p).run es) := hstart.run es
    have hself : ((start p).run es).protocol.router.id = p.router.id := (run_same hstart es).id
    have hlast : (start p).run (es ++ [e]) = ((start p).run es).step e := List.foldl_append
    rw [purges_append, hnone, hlast, Nat.zero_add]
    cases hpass : passTime e with
    | none =>
      refine ⟨purges_cons_of_none id _ [] hpass, ?_⟩
      intro info hinfo
      by_cases hears : Hears ((start p).run es).protocol.router.id id e
      · have hwatch := watch_heard hears hinfo
        exact congrArg Watch.alive hwatch
      · rw [neighbor_quiet hears hpass] at hinfo
        exact halive info hinfo
    | some now =>
      obtain rfl := passTime_some hpass
      -- the pass finds the neighbour heard in time, if it knows it at all
      have hseen : ∀ info, ((start p).run es).neighbor id = some info → late info.lastSeen now = false := by
        intro info hinfo
        rcases hprompt es now [] rfl with hunheard | ⟨e, he, hears, htime⟩
        · obtain ⟨before, e, silence, rfl, hs, -, -⟩ := known_since h hinfo
          exact absurd hs.heard (hunheard e (by simp))
        · have hle := heard_le_lastSeen h hprefix hinfo he hears
          rw [Bool.eq_false_iff, ne_eq, late_iff, not_lt]
          exact Nat.sub_le_iff_le_add'.mpr (htime.trans (Nat.add_le_add_right hle _))
      constructor
      · rw [purges, count_declaredDead, watched]
        cases hinfo : ((start p).run es).neighbor id with
        | none => rfl
        | some info => simp [purges, fires, watch, hseen info hinfo]
      · intro info hinfo
        have hwatch := watched_cleanup hw now id
        rw [watched, hinfo, watched] at hwatch
        obtain ⟨w, hw', hpassed⟩ := Option.map_eq_some_iff.mp hwatch.symm
        obtain ⟨info', hinfo', rfl⟩ := Option.map_eq_some_iff.mp hw'
        have hflag := congrArg Watch.alive hpassed
        simp only [Watchdog.pass, watch, hseen info' hinfo', Bool.not_false] at hflag
        exact hflag.symm

/-- Up to `lost` hellos in a row may be lost, and the others late by `delay`, within the timeout. -/
theorem tolerates_lost_hellos {es : List Event} (hsorted : (es.map Event.time).Pairwise (· ≤ ·)) {id : String}
    {lost : ℕ} {delay : Duration} (hbudget : (lost + 1) * HELLO_INTERVAL + delay ≤ NEIGHBOR_TIMEOUT) {first : Instant}
    (hfirst : ∀ e ∈ es, Hears p.router.id id e → first ≤ e.time)
    (hbeats : ∀ now ∈ passTimes es, Beats HELLO_INTERVAL delay lost first now
      (fun time => ∃ e ∈ es, Hears p.router.id id e ∧ e.time = time)) :
    purges id (start p) es = 0 ∧ ∀ info, ((start p).run es).neighbor id = some info → info.isAlive = true := by
  apply heardInTime_alive h hsorted
  rintro before now after rfl
  by_cases hheard : ∃ e ∈ before, Hears p.router.id id e
  · right
    obtain ⟨e₀, he₀, hears₀⟩ := hheard
    by_cases hearly : now ≤ first + lost * HELLO_INTERVAL + delay
    · have hle := hfirst e₀ (List.mem_append_left _ he₀) hears₀
      have hone : (lost + 1) * HELLO_INTERVAL = lost * HELLO_INTERVAL + HELLO_INTERVAL := Nat.succ_mul _ _
      have hshort : lost * HELLO_INTERVAL + delay ≤ NEIGHBOR_TIMEOUT := by omega
      rw [Nat.add_assoc] at hearly
      exact ⟨e₀, he₀, hears₀, hearly.trans (Nat.add_le_add hle hshort)⟩
    · have hpos : 0 < HELLO_INTERVAL := by decide
      have hnow : now ∈ passTimes (before ++ .cleanup now :: after) := mem_passTimes.mpr (by simp)
      obtain ⟨_, ⟨e, he, hears, rfl⟩, hlt, hle⟩ := (hbeats now hnow).recent hpos (not_le.mp hearly)
      refine ⟨e, ?_, hears, hle.trans (Nat.add_le_add_left hbudget _)⟩
      rw [List.mem_append, List.mem_cons] at he
      obtain hbefore | rfl | hafter := he
      · exact hbefore
      · exact hears.elim
      · rw [List.map_append, List.pairwise_append, List.map_cons, List.pairwise_cons] at hsorted
        have hge : now ≤ e.time := hsorted.2.1.1 e.time (List.mem_map.mpr ⟨e, hafter, rfl⟩)
        exact absurd hlt hge.not_gt
  · left
    intro e he hears
    exact hheard ⟨e, he, hears⟩

end Known

end Heard

theorem tolerates_lost_hellos_witness :
    purges "C" lan silentPeer = 0 ∧ ∀ info, (lan.run silentPeer).neighbor "C" = some info → info.isAlive = true := by
  have hself : lan.protocol.router.id = "A" := by decide +kernel
  have hears (secs : ℕ) : Hears lan.protocol.router.id "C" (lanHello "C" 3 secs) := by
    have hparses : (helloInterfaces ⟨"C", AList.insert "eth0" (Ipv4Addr.new 10 0 0 3).toString ∅⟩).isSome = true := by
      decide +kernel
    rw [hself]
    exact ⟨rfl, by decide, hparses⟩
  have hbudget : (1 + 1) * HELLO_INTERVAL + Duration.fromSecs 4 ≤ NEIGHBOR_TIMEOUT := by decide
  have hfirst : ∀ e ∈ silentPeer, Hears lan.protocol.router.id "C" e → Duration.fromSecs 1 ≤ e.time := by
    rw [hself]
    simp [silentPeer, silence, Hears, lanCleanup, lanHello, advert, lanUpdate, Event.time, Duration.fromSecs]
  apply tolerates_lost_hellos lan_new silentPeer_sorted hbudget hfirst
  have hlast : ∀ now ∈ passTimes silentPeer, now ≤ Duration.fromSecs 20 := by decide
  intro now hnow k hk
  have hcases : k = 0 ∨ k = 1 ∨ k = 2 := by
    have hbound := lt_of_lt_of_le hk (hlast now hnow)
    simp only [HELLO_INTERVAL, Duration.fromSecs] at hbound
    omega
  rcases hcases with rfl | rfl | rfl
  · exact ⟨Duration.fromSecs 1, ⟨_, by simp [silentPeer, silence], hears 1, rfl⟩, by decide, by decide⟩
  · exact ⟨Duration.fromSecs 9, ⟨_, by simp [silentPeer, silence], hears 9, rfl⟩, by decide, by decide⟩
  · exact ⟨Duration.fromSecs 9, ⟨_, by simp [silentPeer, silence], hears 9, rfl⟩, by decide, by decide⟩

end CustomOspf.Observed
