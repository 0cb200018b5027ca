import CustomOspf.Expiry
import CustomOspf.Library.Watchdog

/-!
The liveness of a neighbour. While nothing is heard from it its record is a watch
that only the cleanup passes touch, and hearing it again starts a new watch.
-/

namespace CustomOspf.Observed

open SimpleRoutingProtocol Watchdog

def passTime : Event → Option Instant
  | .cleanup now => some now
  | _ => none

def passTimes (es : List Event) : List Instant := es.filterMap passTime

def late (last now : Instant) : Bool := decide (NEIGHBOR_TIMEOUT < now.durationSince last)

@[simp] theorem late_iff {last now : Instant} :
    late last now = true ↔ NEIGHBOR_TIMEOUT < now.durationSince last := decide_eq_true_iff

def FoundSilent (e : Event) (silence : List Event) : Prop :=
  ∃ now ∈ passTimes silence, NEIGHBOR_TIMEOUT < now.durationSince e.time

instance (e : Event) (silence : List Event) : Decidable (FoundSilent e silence) :=
  inferInstanceAs (Decidable (∃ now ∈ passTimes silence, NEIGHBOR_TIMEOUT < now.durationSince e.time))

theorem foundSilent_iff {e : Event} {silence : List Event} :
    FoundSilent e silence ↔ ∃ now ∈ passTimes silence, late e.time now = true := by
  simp [FoundSilent]

theorem late_mono (last now now' : Instant) (hle : now ≤ now') (h : late last now = true) :
    late last now' = true := by
  rw [late_iff] at h ⊢
  exact h.trans_le (Nat.sub_le_sub_right hle last)

theorem passTimes_sorted {es silence : List Event} (h : (es.map Event.time).Pairwise (· ≤ ·))
    (hsub : silence.Sublist es) : (passTimes silence).Pairwise (· ≤ ·) := by
  have hsilence := h.sublist (hsub.map Event.time)
  rw [List.pairwise_map] at hsilence
  apply List.Pairwise.filterMap passTime _ hsilence
  intro e e' hle now hnow now' hnow'
  cases e <;> cases e' <;> simp_all [passTime, Event.time]

section Runs

variable {κ : Type} [IpNetwork] [NetRoute κ]

/-- A hello whose addresses parse, or an update, of another router. -/
def Hears (own id : String) : Event → Prop
  | .hello message _ _ => message.routerId = id ∧ id ≠ own ∧ (helloInterfaces message).isSome = true
  | .update message _ _ => message.routerId = id ∧ id ≠ own
  | .cleanup _ => False

structure SilentAfter (own id : String) (e : Event) (silence : List Event) : Prop where
  heard : Hears own id e
  quiet : ∀ e' ∈ silence, ¬ Hears own id e'

def neighbor (o : Observed κ) (id : String) : Option NeighborInfo := o.protocol.neighbors.lookup id

/-- How often the run purges the routes of the neighbour. -/
def purges (id : String) : Observed κ → List Event → ℕ
  | _, [] => 0
  | o, .cleanup now :: es =>
    (declaredDead now o.protocol).count id + purges id (o.step (.cleanup now)) es
  | o, e :: es => purges id (o.step e) es

/-- The list that is counted is the one that the pass goes through, one purge for each of its neighbours. -/
theorem cleanup_purges (o : Observed κ) (now : Instant) :
    (o.step (.cleanup now)).protocol = (declaredDead now o.protocol).foldl purgeDeadNeighbor
      (removeRoutes (routesToRemove (declaredDead now o.protocol) (staleRoutes now o.protocol.routeStates)
        o.protocol.routeStates) { o.protocol with neighbors := (scanNeighbors now o.protocol.neighbors).1 }) := by
  rw [step_protocol]
  exact performCleanup_eq now o.protocol

def watch (info : NeighborInfo) : Watch Instant := ⟨info.lastSeen, info.isAlive⟩

def watched (o : Observed κ) (id : String) : Option (Watch Instant) := (o.neighbor id).map watch

omit [IpNetwork] in
theorem watch_scanNeighbor (now : Instant) (info : NeighborInfo) :
    watch (scanNeighbor now info).1 = Watchdog.pass late (watch info) now ∧
      (scanNeighbor now info).2 = fires late (watch info) now := by
  unfold scanNeighbor
  by_cases ht : NEIGHBOR_TIMEOUT < now.durationSince info.lastSeen
  · have hlate := late_iff.mpr ht
    cases ha : info.isAlive <;> simp [watch, Watchdog.pass, fires, ht, hlate, ha]
  · have hlate := Bool.not_eq_true _ ▸ mt late_iff.mp ht
    cases ha : info.isAlive <;> simp [watch, Watchdog.pass, fires, ht, hlate, ha]

theorem watched_cleanup {o : Observed κ} (ho : WellFormed o) (now : Instant) (id : String) :
    (o.step (.cleanup now)).watched id = (o.watched id).map (fun w => Watchdog.pass late w now) := by
  have hspec := (performCleanup_spec now ho.distinct).2.1
  rw [watched, neighbor, step_protocol, SimpleRoutingProtocol.step, hspec, scanNeighbors, Dictionary.lookup_mapValues,
    watched, neighbor]
  cases o.protocol.neighbors.lookup id with
  | none => rfl
  | some info => exact congrArg some (watch_scanNeighbor now info).1

omit [IpNetwork] [NetRoute κ] in
theorem declaredDead_nodup (now : Instant) (p : SimpleRoutingProtocol κ) : (declaredDead now p).Nodup := by
  apply List.Nodup.sublist (List.Sublist.map _ List.filter_sublist)
  exact p.neighbors.nodupKeys

omit [IpNetwork] [NetRoute κ] in
theorem count_declaredDead (o : Observed κ) (now : Instant) (id : String) :
    (declaredDead now o.protocol).count id = (o.watched id).elim 0 (fun w => (fires late w now).toNat) := by
  have hmem : id ∈ declaredDead now o.protocol ↔ (o.watched id).any (fun w => fires late w now) = true := by
    rw [mem_declaredDead, watched, neighbor]
    cases o.protocol.neighbors.lookup id <;> simp [fires, watch]
  cases hw : o.watched id with
  | none =>
    apply List.count_eq_zero.mpr
    simp [hmem, hw]
  | some w =>
    cases hf : fires late w now with
    | true =>
      have hdead : id ∈ declaredDead now o.protocol := by simp [hmem, hw, hf]
      simpa [hf] using List.count_eq_one_of_mem (declaredDead_nodup now o.protocol) hdead
    | false =>
      have halive : id ∉ declaredDead now o.protocol := by simp [hmem, hw, hf]
      simpa [hf] using List.count_eq_zero.mpr halive

theorem neighbor_hello {o : Observed κ} {message : HelloMessage} {addr : SocketAddr} {now : Instant} {id : String}
    (hquiet : ¬ Hears o.protocol.router.id id (.hello message addr now)) :
    (o.step (.hello message addr now)).neighbor id = o.neighbor id := by
  rw [neighbor, step_protocol, SimpleRoutingProtocol.step, handleHelloMessageStatic]
  split
  · rfl
  · next hself =>
    cases hi : helloInterfaces message with
    | none => rfl
    | some interfaces =>
      have hne : id ≠ message.routerId := by
        rintro rfl
        exact hquiet ⟨rfl, hself, by simp [hi]⟩
      exact AList.lookup_insert_ne hne

theorem neighbor_update (o : Observed κ) (message : RoutingUpdate) (addr : SocketAddr) (now : Instant) (id : String) :
    (o.step (.update message addr now)).neighbor id =
      if message.routerId = o.protocol.router.id then o.neighbor id
      else (touchNeighbor message.routerId now o.protocol.neighbors).lookup id := by
  rw [neighbor, step_protocol, SimpleRoutingProtocol.step, handleUpdateMessageStatic_eq]
  split_ifs <;> rfl

theorem neighbor_quiet {o : Observed κ} {e : Event} {id : String} (hquiet : ¬ Hears o.protocol.router.id id e)
    (hpass : passTime e = none) : (o.step e).neighbor id = o.neighbor id := by
  cases e with
  | hello message addr now => exact neighbor_hello hquiet
  | update message addr now =>
    rw [neighbor_update]
    split_ifs with hself
    · rfl
    · have hne : id ≠ message.routerId := by
        rintro rfl
        exact hquiet ⟨rfl, hself⟩
      rw [lookup_touchNeighbor, if_neg hne]
      rfl
  | cleanup now => cases hpass

theorem watch_heard {o : Observed κ} {e : Event} {id : String} (hears : Hears o.protocol.router.id id e)
    {info : NeighborInfo} (h : (o.step e).neighbor id = some info) : watch info = ⟨e.time, true⟩ := by
  cases e with
  | hello message addr now =>
    obtain ⟨rfl, hself, hsome⟩ := hears
    obtain ⟨interfaces, hi⟩ := Option.isSome_iff_exists.mp hsome
    simp only [neighbor, step_protocol, SimpleRoutingProtocol.step, handleHelloMessageStatic, if_neg hself, hi] at h
    obtain rfl := Option.some.inj ((AList.lookup_insert _).symm.trans h)
    rfl
  | update message addr now =>
    obtain ⟨rfl, hself⟩ := hears
    rw [neighbor_update, if_neg hself, lookup_touchNeighbor, if_pos rfl, Option.map_eq_some_iff] at h
    obtain ⟨info', -, rfl⟩ := h
    rfl
  | cleanup now => exact hears.elim

/-! A silence, with the watch that runs through it. -/

omit [IpNetwork] in
theorem passTime_some {e : Event} {now : Instant} (h : passTime e = some now) : e = .cleanup now := by
  cases e with
  | cleanup now' =>
    obtain rfl := Option.some.inj h
    rfl
  | hello | update => cases h

theorem purges_cons_of_none (id : String) (o : Observed κ) {e : Event} (es : List Event) (h : passTime e = none) :
    purges id o (e :: es) = purges id (o.step e) es := by
  cases e with
  | hello | update => rfl
  | cleanup now => cases h

theorem step_self {o : Observed κ} (ho : WellFormed o) (e : Event) :
    (o.step e).protocol.router.id = o.protocol.router.id := by
  rw [step_protocol]
  exact (step_same ho.distinct e).id

theorem quiet_tail {o : Observed κ} (ho : WellFormed o) {id : String} {e : Event} {es : List Event}
    (hquiet : ∀ e' ∈ e :: es, ¬ Hears o.protocol.router.id id e') :
    ∀ e' ∈ es, ¬ Hears (o.step e).protocol.router.id id e' := by
  intro e' he'
  rw [step_self ho]
  exact hquiet e' (List.mem_cons_of_mem e he')

theorem silence_watch {o : Observed κ} (ho : WellFormed o) {id : String} {silence : List Event}
    (hquiet : ∀ e ∈ silence, ¬ Hears o.protocol.router.id id e) :
    (o.run silence).watched id = (o.watched id).map (fun w => passes late w (passTimes silence)) ∧
      purges id o silence = (o.watched id).elim 0 (fun w => firings late w (passTimes silence)) := by
  induction silence generalizing o with
  | nil => cases hw : o.watched id <;> simp [run, purges, passTimes, passes, firings, hw]
  | cons e es ih =>
    obtain ⟨hwatch, hpurges⟩ := ih (ho.step e) (quiet_tail ho hquiet)
    cases hp : passTime e with
    | none =>
      have hsame : (o.step e).watched id = o.watched id :=
        congrArg (Option.map watch) (neighbor_quiet (hquiet e List.mem_cons_self) hp)
      have htimes : passTimes (e :: es) = passTimes es := List.filterMap_cons_none hp
      rw [hsame] at hwatch hpurges
      rw [htimes, purges_cons_of_none id o es hp]
      exact ⟨hwatch, hpurges⟩
    | some now =>
      obtain rfl := passTime_some hp
      rw [watched_cleanup ho] at hwatch hpurges
      rw [purges, hpurges, count_declaredDead, run, List.foldl_cons]
      cases hw : o.watched id with
      | none =>
        rw [hw] at hwatch
        exact ⟨hwatch, rfl⟩
      | some w =>
        rw [hw] at hwatch
        exact ⟨hwatch, rfl⟩

theorem last_heard (own id : String) (es : List Event) : (∀ e ∈ es, ¬ Hears own id e) ∨
    ∃ before e silence, es = before ++ e :: silence ∧ SilentAfter own id e silence := by
  induction es using List.reverseRecOn with
  | nil =>
    left
    simp
  | append_singleton es e ih =>
    by_cases he : Hears own id e
    · right
      exact ⟨es, e, [], rfl, he, by simp⟩
    · rcases ih with hnone | ⟨before, e', silence, rfl, hheard, hquiet⟩
      · left
        rw [List.forall_mem_append]
        exact ⟨hnone, by simpa using he⟩
      · right
        refine ⟨before, e', silence ++ [e], by simp, hheard, ?_⟩
        rw [List.forall_mem_append]
        exact ⟨hquiet, by simpa using he⟩

theorem SilentAfter.liveness {o : Observed κ} (ho : WellFormed o) {id : String} {e : Event} {silence : List Event}
    (hs : SilentAfter o.protocol.router.id id e silence) (hsorted : (passTimes silence).Pairwise (· ≤ ·)) :
    (∀ info, ((o.step e).run silence).neighbor id = some info → (info.isAlive = false ↔ FoundSilent e silence)) ∧
    purges id (o.step e) silence =
      if ((o.step e).neighbor id).isSome = true ∧ FoundSilent e silence then 1 else 0 := by
  have hquiet : ∀ e' ∈ silence, ¬ Hears (o.step e).protocol.router.id id e' := by
    rw [step_self ho]
    exact hs.quiet
  obtain ⟨hwatch, hpurges⟩ := silence_watch (ho.step e) hquiet
  cases hn : (o.step e).neighbor id with
  | none =>
    have hunknown : (o.step e).watched id = none := congrArg (Option.map watch) hn
    rw [hunknown] at hwatch hpurges
    refine ⟨?_, by simpa using hpurges⟩
    intro info hinfo
    rw [watched, hinfo] at hwatch
    cases hwatch
  | some heard =>
    have hheard : (o.step e).watched id = some ⟨e.time, true⟩ :=
      (congrArg (Option.map watch) hn).trans (congrArg some (watch_heard hs.heard hn))
    rw [hheard] at hwatch hpurges
    have halive : (⟨e.time, true⟩ : Watch Instant).alive = true := rfl
    have hdead := alive_iff late_mono halive hsorted
    have hfirings := firings_eq late_mono halive hsorted
    constructor
    · intro info hinfo
      rw [watched, hinfo] at hwatch
      have hsame : watch info = passes late ⟨e.time, true⟩ (passTimes silence) := Option.some.inj hwatch
      rw [← hsame, ← foundSilent_iff] at hdead
      exact hdead
    · refine hpurges.trans (hfirings.trans ?_)
      simp [foundSilent_iff]

theorem start_watched {routerId : String} {hosts hostsAtTable : List NetworkInterface} {names : List String}
    {port : UInt16} {handle : κ} {p : SimpleRoutingProtocol κ}
    (h : SimpleRoutingProtocol.new routerId hosts hostsAtTable names port handle = .ok p) (id : String) :
    (start p).watched id = none := by
  unfold SimpleRoutingProtocol.new at h
  split at h
  · cases h
  · obtain rfl := Except.ok.inj h
    rfl

/-- A neighbour is dead when a pass has found it silent for too long since it was last heard,
and each such silence purges its routes in one pass. -/
theorem neighbor_liveness {routerId : String} {hosts hostsAtTable : List NetworkInterface} {names : List String}
    {port : UInt16} {handle : κ} {p : SimpleRoutingProtocol κ}
    (h : SimpleRoutingProtocol.new routerId hosts hostsAtTable names port handle = .ok p) {es : List Event}
    (hsorted : (es.map Event.time).Pairwise (· ≤ ·)) (id : String) :
    (∀ info, ((start p).run es).neighbor id = some info → ∃ before e silence,
      es = before ++ e :: silence ∧ SilentAfter p.router.id id e silence ∧
        (info.isAlive = false ↔ FoundSilent e silence)) ∧
    (∀ before e silence after, es = before ++ e :: (silence ++ after) → SilentAfter p.router.id id e silence →
      purges id ((start p).run (before ++ [e])) silence =
        if (((start p).run (before ++ [e])).neighbor id).isSome = true ∧ FoundSilent e silence then 1 else 0) ∧
    ∀ silence after, es = silence ++ after → (∀ e ∈ silence, ¬ Hears p.router.id id e) →
      purges id (start p) silence = 0 := by
  have hstart := WellFormed.new h
  have hbefore (before : List Event) : WellFormed ((start p).run before) ∧
      ((start p).run before).protocol.router.id = p.router.id :=
    ⟨((Reachable.start h).run before).wellFormed, (run_same hstart before).id⟩
  have hunknown := start_watched h id
  refine ⟨?_, ?_, ?_⟩
  · intro info hinfo
    rcases last_heard p.router.id id es with hnone | ⟨before, e, silence, rfl, hs⟩
    · have hwatch := (silence_watch hstart hnone).1
      rw [watched, hinfo, hunknown] at hwatch
      cases hwatch
    · refine ⟨before, e, silence, rfl, hs, ?_⟩
      obtain ⟨ho, hself⟩ := hbefore before
      rw [← hself] at hs
      rw [run, List.foldl_append] at hinfo
      have hsub : silence.Sublist (before ++ e :: silence) :=
        (List.sublist_cons_self e silence).trans (List.sublist_append_right before _)
      exact (hs.liveness ho (passTimes_sorted hsorted hsub)).1 info hinfo
  · rintro before e silence after rfl hs
    obtain ⟨ho, hself⟩ := hbefore before
    rw [← hself] at hs
    have hsub : silence.Sublist (before ++ e :: (silence ++ after)) :=
      ((List.sublist_append_left silence after).cons e).trans (List.sublist_append_right before _)
    rw [run, List.foldl_append]
    exact (hs.liveness ho (passTimes_sorted hsorted hsub)).2
  · rintro silence after rfl hquiet
    rw [(silence_watch hstart hquiet).2, hunknown]
    rfl

end Runs

/-! C falls silent for 14 s, and is heard again. -/

def silences : List Event :=
  [lanHello "C" 3 0, lanCleanup 13, lanCleanup 14, lanHello "C" 3 15, lanCleanup 16]

theorem neighbor_liveness_witness :
    purges "C" (lan.run [lanHello "C" 3 0]) [lanCleanup 13, lanCleanup 14] = 1 ∧
      ∀ info, (lan.run silences).neighbor "C" = some info → ∃ before e silence, silences = before ++ e :: silence ∧
        SilentAfter "A" "C" e silence ∧ (info.isAlive = false ↔ FoundSilent e silence) := by
  have hsorted : (silences.map Event.time).Pairwise (· ≤ ·) := by decide
  have hlive := neighbor_liveness lan_new hsorted "C"
  have hself : lan.protocol.router.id = "A" := by decide +kernel
  have hs : SilentAfter "A" "C" (lanHello "C" 3 0) [lanCleanup 13, lanCleanup 14] := by
    refine ⟨⟨rfl, by decide, by decide +kernel⟩, ?_⟩
    simp [Hears, lanCleanup]
  rw [hself] at hlive
  refine ⟨?_, hlive.1⟩
  have hpurges := hlive.2.1 [] _ _ _ rfl hs
  have hknown : ((lan.run [lanHello "C" 3 0]).neighbor "C").isSome = true := by decide +kernel
  have hfound : FoundSilent (lanHello "C" 3 0) [lanCleanup 13, lanCleanup 14] := by decide
  exact hpurges.trans (if_pos ⟨hknown, hfound⟩)

end CustomOspf.Observed
