import CustomOspf.Interleaving

/-!
The suspension points of a cleanup pass, and what an abort leaves behind when
it takes effect at one of them. The kernel call in hand may have been executed.
-/

namespace CustomOspf

open SimpleRoutingProtocol
open LawfulNetRoute (held deleted)

/-- Where a pass waits: for a lock, or for the answer of the kernel to a deletion. -/
inductive PassPoint where
  | scanning
  | scanningStates (dead : List String)
  | collecting (dead stale : List String)
  | removing (dead destinations : List String)
  | deleting (dead : List String) (route : RouteEntry) (rest : List String)
  | purging (id : String) (rest : List String)
  | purgingVia (ip : Ipv4Addr) (rest : List String)
  | deletingVia (route : RouteEntry) (indices : List ℕ) (rest : List String)
  | finished

namespace PassPoint

def purge : List String → PassPoint
  | [] => .finished
  | id :: rest => .purging id rest

section Pass

variable {κ : Type} [IpNetwork] [NetRoute κ]

def setTable (table : RoutingTable κ) (p : SimpleRoutingProtocol κ) : SimpleRoutingProtocol κ :=
  { p with router := { p.router with routingTable := table } }

-- the record goes first, then `remove_route` waits for the kernel before it takes out the entry
def removeKeys (dead : List String) : List String → SimpleRoutingProtocol κ → PassPoint × SimpleRoutingProtocol κ
  | [], p => (purge dead, p)
  | k :: ks, p =>
    match p.routeStates.lookup k with
    | none => removeKeys dead ks p
    | some routeState =>
      let p := { p with routeStates := p.routeStates.erase k }
      match p.router.routingTable.findRoute routeState.route.destination with
      | none => removeKeys dead ks p
      | some existing =>
        if existing.source ≠ .direct then (.deleting dead routeState.route ks, p)
        else removeKeys dead ks (setTable (p.router.routingTable.removeRoute routeState.route) p)

-- the entry goes first, then the kernel route
def removeVia (rest : List String) : List ℕ → SimpleRoutingProtocol κ → PassPoint × SimpleRoutingProtocol κ
  | [], p => (purge rest, p)
  | i :: indices, p =>
    match p.router.routingTable.routes[i]? with
    | some route => (.deletingVia route indices rest,
        setTable { p.router.routingTable with routes := p.router.routingTable.routes.eraseIdx i } p)
    | none => removeVia rest indices p

def indicesVia (ip : Ipv4Addr) (p : SimpleRoutingProtocol κ) : List ℕ :=
  (IndexedRemoval.positions (fun route : RouteEntry => route.nextHop = ip ∧ route.source = .protocol)
    p.router.routingTable.routes).reverse

def resume (now : Instant) (point : PassPoint) (p : SimpleRoutingProtocol κ) : PassPoint × SimpleRoutingProtocol κ :=
  match point with
  | .scanning =>
    let (neighbors, dead) := scanNeighbors now p.neighbors
    (.scanningStates dead, { p with neighbors := neighbors })
  | .scanningStates dead =>
    let stale := staleRoutes now p.routeStates
    (if !dead.isEmpty || !stale.isEmpty then .collecting dead stale else purge dead, p)
  | .collecting dead stale =>
    let destinations := routesToRemove dead stale p.routeStates
    (if !destinations.isEmpty then .removing dead destinations else purge dead, p)
  | .removing dead destinations => removeKeys dead destinations p
  | .deleting dead route rest => removeKeys dead rest (setTable (p.router.routingTable.removeRoute route) p)
  | .purging id rest =>
    (match RouteManager.getNeighborIp id p.neighbors with
      | some ip => .purgingVia ip rest
      | none => purge rest, p)
  | .purgingVia ip rest => removeVia rest (indicesVia ip p) p
  | .deletingVia route indices rest =>
    removeVia rest indices (setTable (p.router.routingTable.deleteSystemRoute route) p)
  | .finished => (.finished, p)

def suspended (now : Instant) (n : ℕ) (s : PassPoint × SimpleRoutingProtocol κ) :
    PassPoint × SimpleRoutingProtocol κ := (fun s => resume now s.1 s.2)^[n] s

def abandon (executed : Bool) (s : PassPoint × SimpleRoutingProtocol κ) : SimpleRoutingProtocol κ :=
  if executed then
    match s.1 with
    | .deleting _ route _ =>
      match s.2.router.routingTable.findRoute route.destination with
      | some existing => setTable (s.2.router.routingTable.deleteSystemRoute existing) s.2
      | none => s.2
    | .deletingVia route _ _ => setTable (s.2.router.routingTable.deleteSystemRoute route) s.2
    | _ => s.2
  else s.2

def Finishes (now : Instant) (s : PassPoint × SimpleRoutingProtocol κ) (q : SimpleRoutingProtocol κ) : Prop :=
  ∃ n, suspended now n s = (.finished, q)

variable {now : Instant} {p q : SimpleRoutingProtocol κ}

theorem Finishes.resume {s : PassPoint × SimpleRoutingProtocol κ} (h : Finishes now (resume now s.1 s.2) q) :
    Finishes now s q := by
  obtain ⟨n, hn⟩ := h
  exact ⟨n + 1, (Function.iterate_succ_apply _ n s).trans hn⟩

theorem finishes_removeVia {rest : List String}
    (hrest : ∀ p : SimpleRoutingProtocol κ, Finishes now (purge rest, p) (rest.foldl purgeDeadNeighbor p))
    (indices : List ℕ) (p : SimpleRoutingProtocol κ) (removed : List RouteEntry) :
    let result := indices.foldl (IndexedRemoval.removeAt fun s route =>
        (RoutingTable.uninstall s.1 (RoutingTable.systemRoute route), s.2 ++ [route]))
      (p.router.routingTable.routes, p.router.routingTable.routeHandle, removed)
    Finishes now (removeVia rest indices p) (rest.foldl purgeDeadNeighbor
      (setTable { p.router.routingTable with routes := result.1, routeHandle := result.2.1 } p)) := by
  induction indices generalizing p removed with
  | nil => exact hrest p
  | cons i indices ih =>
    cases hi : p.router.routingTable.routes[i]? with
    | none =>
      simp only [removeVia, hi, List.foldl_cons, IndexedRemoval.removeAt]
      exact ih p removed
    | some route =>
      simp only [removeVia, hi, List.foldl_cons, IndexedRemoval.removeAt]
      apply Finishes.resume
      exact ih (setTable _ p) (removed ++ [route])

theorem finishes_purge (ids : List String) (p : SimpleRoutingProtocol κ) :
    Finishes now (purge ids, p) (ids.foldl purgeDeadNeighbor p) := by
  induction ids generalizing p with
  | nil => exact ⟨0, rfl⟩
  | cons id ids ih =>
    apply Finishes.resume
    cases hip : RouteManager.getNeighborIp id p.neighbors with
    | none =>
      have hp : purgeDeadNeighbor p id = p := by simp [purgeDeadNeighbor, hip]
      simp only [PassPoint.resume, purge, hip, List.foldl_cons, hp]
      exact ih p
    | some ip =>
      have hp : purgeDeadNeighbor p id = purgeNexthop ip p := by simp [purgeDeadNeighbor, hip]
      simp only [PassPoint.resume, purge, hip, List.foldl_cons, hp]
      apply Finishes.resume
      exact finishes_removeVia ih (indicesVia ip p) p []

theorem finishes_removeKeys (dead ks : List String) (p : SimpleRoutingProtocol κ) :
    Finishes now (removeKeys dead ks p) (dead.foldl purgeDeadNeighbor (removeRoutes ks p)) := by
  induction ks generalizing p with
  | nil => exact finishes_purge dead p
  | cons k ks ih =>
    have hcons : removeRoutes (k :: ks) p = removeRoutes ks
        { p with router := (RouteManager.removeDestination (p.router, p.routeStates) k).1,
                 routeStates := (RouteManager.removeDestination (p.router, p.routeStates) k).2 } := rfl
    rw [hcons]
    unfold removeKeys RouteManager.removeDestination
    cases hk : p.routeStates.lookup k with
    | none => exact ih p
    | some state =>
      dsimp only
      cases he : p.router.routingTable.findRoute state.route.destination with
      | none =>
        have hsame : p.router.routingTable.removeRoute state.route = p.router.routingTable := by
          rcases RoutingTable.removeRoute_cases p.router.routingTable state.route with ⟨-, h⟩ | ⟨index, hi, -⟩
          · exact h
          · rw [RoutingTable.findRoute_of_index hi] at he
            cases he
        rw [hsame]
        exact ih _
      | some existing =>
        dsimp only
        split
        · exact Finishes.resume (ih _)
        · exact ih _

theorem finishes_cleanup (now : Instant) (p : SimpleRoutingProtocol κ) :
    Finishes now (.scanning, p) (performCleanup now p) := by
  let dead := declaredDead now p
  let stale := staleRoutes now p.routeStates
  let destinations := routesToRemove dead stale p.routeStates
  let scanned := { p with neighbors := (scanNeighbors now p.neighbors).1 }
  have hpass : performCleanup now p = dead.foldl purgeDeadNeighbor (removeExpired dead stale scanned) := rfl
  have hscan : Finishes now (if !dead.isEmpty || !stale.isEmpty then .collecting dead stale else purge dead, scanned)
      (performCleanup now p) := by
    rw [hpass]
    by_cases hany : (!dead.isEmpty || !stale.isEmpty) = true
    · rw [if_pos hany, removeExpired_eq]
      apply Finishes.resume
      change Finishes now (if !destinations.isEmpty then .removing dead destinations else purge dead, scanned)
        (dead.foldl purgeDeadNeighbor (removeRoutes destinations scanned))
      by_cases hkeys : (!destinations.isEmpty) = true
      · rw [if_pos hkeys]
        exact Finishes.resume (finishes_removeKeys dead destinations scanned)
      · have hnil : destinations = [] := by simpa using hkeys
        rw [if_neg hkeys, hnil]
        exact finishes_purge dead scanned
    · have hremove : removeExpired dead stale scanned = scanned := if_neg hany
      rw [if_neg hany, hremove]
      exact finishes_purge dead scanned
  apply Finishes.resume
  apply Finishes.resume
  exact hscan

end Pass

section Waits

variable {κ : Type} {now : Instant} {p : SimpleRoutingProtocol κ} {dead : List String}

def Vacant (p : SimpleRoutingProtocol κ) (k : String) : Prop :=
  ∀ state, p.routeStates.lookup k = some state →
    p.router.routingTable.findRoute state.route.destination = none

theorem Vacant.erase {k k' : String} (h : Vacant p k') :
    Vacant { p with routeStates := p.routeStates.erase k } k' := by
  intro state hl
  by_cases hk : k' = k
  · subst hk
    simp at hl
  · exact h state ((AList.lookup_erase_ne hk).symm.trans hl)

def Clear (now : Instant) (s : PassPoint × SimpleRoutingProtocol κ) : Prop :=
  match s.1 with
  | .scanning => ∀ k ∈ routesToRemove (declaredDead now s.2) (staleRoutes now s.2.routeStates) s.2.routeStates,
    Vacant s.2 k
  | .scanningStates dead => ∀ k ∈ routesToRemove dead (staleRoutes now s.2.routeStates) s.2.routeStates, Vacant s.2 k
  | .collecting dead stale => ∀ k ∈ routesToRemove dead stale s.2.routeStates, Vacant s.2 k
  | .removing _ destinations => ∀ k ∈ destinations, Vacant s.2 k
  | .deleting _ _ _ => False
  | _ => True

theorem clear_purge (rest : List String) (p : SimpleRoutingProtocol κ) :
    Clear now (purge rest, p) := by
  cases rest <;> trivial

theorem clear_removeVia (rest : List String) (indices : List ℕ) (p : SimpleRoutingProtocol κ) :
    Clear now (removeVia rest indices p) := by
  induction indices with
  | nil => exact clear_purge rest p
  | cons i indices ih =>
    unfold removeVia
    split
    · trivial
    · exact ih

variable [IpNetwork]

theorem recorded_not_direct {o : Observed κ} (hw : Observed.WellFormed o) {k : String}
    {state : RouteState} (hl : o.protocol.routeStates.lookup k = some state) {r : RouteEntry} (hr : r ∈ o.table.routes)
    (hd : r.destination = state.route.destination) : r.source ≠ .direct := by
  intro hs
  rcases hw.routes r hr with ⟨name, info, hi, rfl⟩ | ⟨hs', -⟩
  · have hours := (hw.records k state hl).2
    rw [← hd, Bool.eq_false_iff] at hours
    exact hours (RouteManager.isOurNetwork_iff.mpr ⟨name, info, hi, rfl⟩)
  · rw [hs] at hs'
    cases hs'

variable [NetRoute κ]

theorem removeKeys_of_vacant {ks : List String} (h : ∀ k ∈ ks, Vacant p k) :
    ∃ q, removeKeys dead ks p = (purge dead, q) := by
  induction ks generalizing p with
  | nil => exact ⟨p, rfl⟩
  | cons k ks ih =>
    unfold removeKeys
    cases hk : p.routeStates.lookup k with
    | none => exact ih (fun k' hk' => h k' (List.mem_cons_of_mem k hk'))
    | some state =>
      have hv := h k List.mem_cons_self state hk
      simp only [hv]
      exact ih (fun k' hk' => (h k' (List.mem_cons_of_mem k hk')).erase)

theorem removeKeys_deletes {ks : List String} {k : String} {state : RouteState} {existing : RouteEntry}
    (hd : p.router.routingTable.Distinct) (hk : k ∈ ks) (hl : p.routeStates.lookup k = some state)
    (he : p.router.routingTable.findRoute state.route.destination = some existing)
    (hs : existing.source ≠ .direct) :
    ∃ route rest, (removeKeys dead ks p).1 = .deleting dead route rest := by
  induction ks generalizing p with
  | nil => simp at hk
  | cons k' ks ih =>
    unfold removeKeys
    by_cases hkk : k = k'
    · subst hkk
      simp only [hl, he]
      rw [if_pos hs]
      exact ⟨_, _, rfl⟩
    · have hk : k ∈ ks := by simpa [hkk] using hk
      have hl' : (p.routeStates.erase k').lookup k = some state := (AList.lookup_erase_ne hkk).trans hl
      cases hk' : p.routeStates.lookup k' with
      | none => exact ih hd hk hl he
      | some state' =>
        dsimp only
        cases he' : p.router.routingTable.findRoute state'.route.destination with
        | none => exact @ih { p with routeStates := p.routeStates.erase k' } hd hk hl' he
        | some existing' =>
          dsimp only
          split
          · exact ⟨_, _, rfl⟩
          · next hdirect =>
            refine @ih (setTable (p.router.routingTable.removeRoute state'.route)
              { p with routeStates := p.routeStates.erase k' }) (RoutingTable.removeRoute_distinct hd _) hk hl' ?_
            refine (RoutingTable.findRoute_removeRoute hd _ _).trans ?_
            rw [if_neg]
            · exact he
            · intro hsame
              rw [hsame, he] at he'
              obtain rfl := Option.some.inj he'
              exact hdirect hs

theorem Clear.resume {s : PassPoint × SimpleRoutingProtocol κ} (h : Clear now s) :
    Clear now (resume now s.1 s.2) := by
  obtain ⟨point, p⟩ := s
  cases point with
  | scanning => exact h
  | scanningStates dead =>
    simp only [PassPoint.resume]
    split
    · exact h
    · exact clear_purge dead p
  | collecting dead stale =>
    simp only [PassPoint.resume]
    split
    · exact h
    · exact clear_purge dead p
  | removing dead destinations =>
    obtain ⟨q, hq⟩ : ∃ q, removeKeys dead destinations p = (purge dead, q) := removeKeys_of_vacant h
    simp only [PassPoint.resume, hq]
    exact clear_purge dead q
  | deleting dead route rest => exact absurd h id
  | purging id rest =>
    simp only [PassPoint.resume]
    split
    · trivial
    · exact clear_purge rest p
  | purgingVia ip rest => exact clear_removeVia rest (indicesVia ip p) p
  | deletingVia route indices rest => exact clear_removeVia rest indices _
  | finished => trivial

theorem Clear.suspended {s : PassPoint × SimpleRoutingProtocol κ} (h : Clear now s) (n : ℕ) :
    Clear now (suspended now n s) := by
  induction n generalizing s with
  | zero => exact h
  | succ n ih => exact ih h.resume

theorem suspended_deletes (hd : p.router.routingTable.Distinct) {k : String} {state : RouteState}
    {existing : RouteEntry} (hl : p.routeStates.lookup k = some state)
    (hx : Expires now p state) (he : p.router.routingTable.findRoute state.route.destination = some existing)
    (hs : existing.source ≠ .direct) :
    ∃ n dead route rest, (suspended now n (.scanning, p)).1 = .deleting dead route rest := by
  let dead := declaredDead now p
  let stale := staleRoutes now p.routeStates
  let destinations := routesToRemove dead stale p.routeStates
  let scanned := { p with neighbors := (scanNeighbors now p.neighbors).1 }
  have hk : k ∈ destinations := mem_expired.mpr ⟨state, hl, hx⟩
  have hany : (!dead.isEmpty || !stale.isEmpty) = true := by
    obtain ⟨state', -, hdead | hstale⟩ := mem_routesToRemove.mp hk
    · cases hdead' : dead with
      | nil => simp [hdead'] at hdead
      | cons _ _ => rfl
    · cases hstale' : stale with
      | nil => simp [hstale'] at hstale
      | cons _ _ => simp
  have hkeys : (!destinations.isEmpty) = true := by
    cases hdest : destinations with
    | nil => simp [hdest] at hk
    | cons _ _ => rfl
  obtain ⟨route, rest, hdel⟩ := @removeKeys_deletes κ scanned dead _ _ destinations k state existing hd hk hl he hs
  refine ⟨4, dead, route, rest, ?_⟩
  have hcollect : suspended now 2 (.scanning, p) = (.collecting dead stale, scanned) := by
    change (if !dead.isEmpty || !stale.isEmpty then PassPoint.collecting dead stale else purge dead, scanned) = _
    rw [if_pos hany]
  have hremove : suspended now 3 (.scanning, p) = (.removing dead destinations, scanned) := by
    rw [suspended, Function.iterate_succ_apply', ← suspended, hcollect]
    change (if !destinations.isEmpty then PassPoint.removing dead destinations else purge dead, scanned) = _
    rw [if_pos hkeys]
  rw [suspended, Function.iterate_succ_apply', ← suspended, hremove]
  exact hdel

end Waits

section Order

/-- The indices that are still to be taken out, the last one first, all of learned routes. -/
structure Descends (routes : List RouteEntry) (indices : List ℕ) : Prop where
  order : indices.Pairwise (· > ·)
  sources : ∀ i ∈ indices, ∀ r ∈ routes[i]?, r.source = .protocol

theorem Descends.eraseIdx {routes : List RouteEntry} {i : ℕ} {indices : List ℕ} (h : Descends routes (i :: indices)) :
    Descends (routes.eraseIdx i) indices := by
  obtain ⟨hfirst, horder⟩ := List.pairwise_cons.mp h.order
  refine ⟨horder, ?_⟩
  intro j hj r hr
  rw [List.getElem?_eraseIdx_of_lt (hfirst j hj)] at hr
  exact h.sources j (List.mem_cons_of_mem i hj) r hr

theorem Descends.tail {routes : List RouteEntry} {i : ℕ} {indices : List ℕ} (h : Descends routes (i :: indices)) :
    Descends routes indices :=
  ⟨(List.pairwise_cons.mp h.order).2, fun j hj => h.sources j (List.mem_cons_of_mem i hj)⟩

theorem descends_indicesVia {κ : Type} (ip : Ipv4Addr) (p : SimpleRoutingProtocol κ) :
    Descends p.router.routingTable.routes (indicesVia ip p) := by
  refine ⟨List.pairwise_reverse.mpr (IndexedRemoval.pairwise_positions _ _), ?_⟩
  intro i hi r hr
  obtain ⟨r', hr', hvia⟩ := (IndexedRemoval.mem_positions _).mp (List.mem_reverse.mp hi)
  obtain rfl := Option.some.inj (hr.symm.trans hr')
  exact (of_decide_eq_true hvia).2

end Order

section Tables

variable {κ : Type} [IpNetwork] {t : RoutingTable κ}

structure Learned (t : RoutingTable κ) : Prop where
  distinct : t.Distinct
  sources : ∀ r ∈ t.routes, r.source = .direct ∨ (r.source = .protocol ∧ r.destination.subnet = r.destination)

theorem Learned.sublist {t' : RoutingTable κ} (h : Learned t) (hs : t'.routes.Sublist t.routes) : Learned t' :=
  ⟨List.Nodup.sublist (hs.map _) h.distinct, fun r hr => h.sources r (hs.subset hr)⟩

theorem Learned.protocol (h : Learned t) {r : RouteEntry} (hr : r ∈ t.routes) (hs : r.source ≠ .direct) :
    r.source = .protocol ∧ r.destination.subnet = r.destination :=
  (h.sources r hr).resolve_left hs

theorem Learned.not_sameNetwork (h : Learned t) {r route : RouteEntry} (hr : r ∈ t.routes) (hs : r.source ≠ .direct)
    (hroute : route ∈ t.routes) (hs' : route.source ≠ .direct) (hne : r.destination ≠ route.destination) :
    ¬ (RoutingTable.systemRoute r).SameNetwork (RoutingTable.systemRoute route) := by
  rintro ⟨hnet, hlen⟩
  apply hne
  rw [← (h.protocol hr hs).2, ← (h.protocol hroute hs').2]
  exact (Ipv4Network.subnet_eq_iff _ _).mpr ⟨hnet, hlen⟩

theorem eraseIdx_destination (h : Learned t) {i : ℕ} {route r : RouteEntry}
    (hi : t.routes[i]? = some route) (hr : r ∈ t.routes.eraseIdx i) : r.destination ≠ route.destination := by
  obtain ⟨j, hji, hj⟩ := List.mem_eraseIdx_iff_getElem?.mp hr
  intro he
  have hj' : (t.routes.map RouteEntry.destination)[j]? = some r.destination := by simp [hj]
  have hi' : (t.routes.map RouteEntry.destination)[i]? = some r.destination := by simp [hi, he]
  obtain ⟨hlt, -⟩ := List.getElem?_eq_some_iff.mp hj'
  exact hji ((List.getElem?_inj hlt h.distinct).mp (hj'.trans hi'.symm))

variable [NetRoute κ]

theorem removeRoute_learned (h : Learned t) (route : RouteEntry) :
    Learned (t.removeRoute route) := by
  rcases RoutingTable.removeRoute_cases t route with ⟨-, he⟩ | ⟨index, -, he⟩
  · rw [he]
    exact h
  · rw [he]
    exact h.sublist (List.eraseIdx_sublist _ _)

end Tables

/-! The two properties an abort should leave, and what each suspension point has of them. -/

section Cuts

variable {κ : Type} [IpNetwork] [NetRoute κ] [LawfulNetRoute κ] {now : Instant} {p : SimpleRoutingProtocol κ}
  {dead : List String}

def Intact (p : SimpleRoutingProtocol κ) (r : RouteEntry) : Prop :=
  RoutingTable.systemRoute r ∈ held p.router.routingTable.routeHandle ∧ Recorded p r.destination

def Consistent (p : SimpleRoutingProtocol κ) : Prop :=
  ∀ r ∈ p.router.routingTable.routes, r.source = .protocol → Intact p r

/-- While `remove_route` waits, the entry of its destination has lost its record and may lose its kernel route. -/
def Holds (s : PassPoint × SimpleRoutingProtocol κ) : Prop :=
  Learned s.2.router.routingTable ∧
    match s.1 with
    | .deleting _ route _ =>
      (∃ existing, s.2.router.routingTable.findRoute route.destination = some existing ∧
        existing.source = .protocol ∧
        RoutingTable.systemRoute existing ∈ held s.2.router.routingTable.routeHandle) ∧
      ∀ r ∈ s.2.router.routingTable.routes, r.source = .protocol → r.destination ≠ route.destination → Intact s.2 r
    | .deletingVia route indices _ => Consistent s.2 ∧ Descends s.2.router.routingTable.routes indices ∧
      ∀ r ∈ s.2.router.routingTable.routes, r.source = .protocol →
        ¬ (RoutingTable.systemRoute r).SameNetwork (RoutingTable.systemRoute route)
    | _ => Consistent s.2

theorem holds_purge {rest : List String} (hl : Learned p.router.routingTable) (hc : Consistent p) :
    Holds (purge rest, p) := by
  cases rest <;> exact ⟨hl, hc⟩

theorem removeRoute_consistent {route existing : RouteEntry} (hl : Learned p.router.routingTable)
    (he : p.router.routingTable.findRoute route.destination = some existing)
    (hrest : ∀ r ∈ p.router.routingTable.routes, r.source = .protocol → r.destination ≠ route.destination →
      Intact p r) :
    Consistent (setTable (p.router.routingTable.removeRoute route) p) := by
  intro r hr hs
  obtain ⟨hr, hne⟩ := (RouteManager.mem_removeRoute hl.distinct).mp hr
  obtain ⟨hk, hrec⟩ := hrest r hr hs (Ne.symm hne)
  refine ⟨?_, hrec⟩
  have hdest := RoutingTable.findRoute_destination he
  change _ ∈ held (p.router.routingTable.removeRoute route).routeHandle
  rcases RoutingTable.removeRoute_cases p.router.routingTable route with ⟨-, h⟩ | ⟨index, hi, h⟩
  · rw [h]
    exact hk
  · obtain rfl := Option.some.inj ((RoutingTable.findRoute_of_index hi).symm.trans he)
    rw [h]
    simp only [RoutingTable.withdraw]
    split
    · next hsource =>
      have hlearned : r.source ≠ .direct := by simp [hs]
      apply (Kernel.mem_uninstall_of_other _).mpr hk
      exact hl.not_sameNetwork hr hlearned (RoutingTable.findRoute_mem he) hsource (by rw [hdest]; exact Ne.symm hne)
    · exact hk

theorem eraseRecord_intact {k : String} {state : RouteState} (hk : p.routeStates.lookup k = some state)
    {r : RouteEntry} (hr : Intact p r) (hne : r.destination ≠ state.route.destination) :
    Intact { p with routeStates := p.routeStates.erase k } r := by
  obtain ⟨hin, k', state', hl, hd⟩ := hr
  refine ⟨hin, k', state', ?_, hd⟩
  have hkk : k' ≠ k := by
    rintro rfl
    obtain rfl := Option.some.inj (hk.symm.trans hl)
    exact hne hd.symm
  exact (AList.lookup_erase_ne hkk).trans hl

theorem holds_removeKeys (ks : List String) (hl : Learned p.router.routingTable) (hc : Consistent p) :
    Holds (removeKeys dead ks p) := by
  induction ks generalizing p with
  | nil => exact holds_purge hl hc
  | cons k ks ih =>
    unfold removeKeys
    cases hk : p.routeStates.lookup k with
    | none => exact ih hl hc
    | some state =>
      have hrest : ∀ r ∈ p.router.routingTable.routes, r.source = .protocol →
          r.destination ≠ state.route.destination → Intact { p with routeStates := p.routeStates.erase k } r :=
        fun r hr hs hne => eraseRecord_intact hk (hc r hr hs) hne
      dsimp only
      cases he : p.router.routingTable.findRoute state.route.destination with
      | none =>
        refine @ih { p with routeStates := p.routeStates.erase k } hl ?_
        intro r hr hs
        exact hrest r hr hs (RoutingTable.findRoute_eq_none.mp he r hr)
      | some existing =>
        have hmem := RoutingTable.findRoute_mem he
        dsimp only
        split
        · next hsrc =>
          obtain ⟨hp, -⟩ := hl.protocol hmem hsrc
          exact ⟨hl, ⟨existing, he, hp, (hc existing hmem hp).1⟩, hrest⟩
        · apply ih (removeRoute_learned hl _)
          exact @removeRoute_consistent κ _ _ _ { p with routeStates := p.routeStates.erase k } _ _ hl he hrest

theorem holds_removeVia {rest : List String} (indices : List ℕ) (hl : Learned p.router.routingTable)
    (hc : Consistent p) (hd : Descends p.router.routingTable.routes indices) : Holds (removeVia rest indices p) := by
  induction indices with
  | nil => exact holds_purge hl hc
  | cons i indices ih =>
    unfold removeVia
    cases hi : p.router.routingTable.routes[i]? with
    | none => exact ih hd.tail
    | some route =>
      have hsub := List.eraseIdx_sublist p.router.routingTable.routes i
      have hroute : route.source ≠ .direct := by simp [hd.sources i List.mem_cons_self route hi]
      refine ⟨hl.sublist hsub, fun r hr hs => hc r (hsub.subset hr) hs, hd.eraseIdx, ?_⟩
      intro r hr hs
      exact hl.not_sameNetwork (hsub.subset hr) (by simp [hs]) (List.mem_of_getElem? hi) hroute
        (eraseIdx_destination hl hi hr)

theorem deleteSystemRoute_consistent {route : RouteEntry} (hc : Consistent p)
    (hother : ∀ r ∈ p.router.routingTable.routes, r.source = .protocol →
      ¬ (RoutingTable.systemRoute r).SameNetwork (RoutingTable.systemRoute route)) :
    Consistent (setTable (p.router.routingTable.deleteSystemRoute route) p) := by
  intro r hr hs
  obtain ⟨hk, hrec⟩ := hc r hr hs
  exact ⟨(Kernel.mem_uninstall_of_other (hother r hr hs)).mpr hk, hrec⟩

theorem Holds.resume {s : PassPoint × SimpleRoutingProtocol κ} (h : Holds s) :
    Holds (resume now s.1 s.2) := by
  obtain ⟨point, p⟩ := s
  obtain ⟨hl, hc⟩ := h
  cases point with
  | scanning => exact ⟨hl, hc⟩
  | scanningStates dead =>
    simp only [PassPoint.resume]
    split
    · exact ⟨hl, hc⟩
    · exact holds_purge hl hc
  | collecting dead stale =>
    simp only [PassPoint.resume]
    split
    · exact ⟨hl, hc⟩
    · exact holds_purge hl hc
  | removing dead destinations => exact holds_removeKeys destinations hl hc
  | deleting dead route rest =>
    obtain ⟨⟨existing, he, -⟩, hrest⟩ := hc
    exact holds_removeKeys rest (removeRoute_learned hl route) (removeRoute_consistent hl he hrest)
  | purging id rest =>
    simp only [PassPoint.resume]
    split
    · exact ⟨hl, hc⟩
    · exact holds_purge hl hc
  | purgingVia ip rest => exact holds_removeVia (indicesVia ip p) hl hc (descends_indicesVia ip p)
  | deletingVia route indices rest =>
    obtain ⟨hc, hd, hother⟩ := hc
    exact holds_removeVia indices (hl.sublist (List.Sublist.refl _)) (deleteSystemRoute_consistent hc hother) hd
  | finished => exact ⟨hl, hc⟩

theorem Holds.suspended {s : PassPoint × SimpleRoutingProtocol κ} (h : Holds s) (n : ℕ) :
    Holds (suspended now n s) := by
  induction n generalizing s with
  | zero => exact h
  | succ n ih => exact ih h.resume

theorem consistent_abandon_iff {s : PassPoint × SimpleRoutingProtocol κ} (h : Holds s)
    (executed : Bool) : Consistent (abandon executed s) ↔
      ∀ dead route rest, s.1 = .deleting dead route rest → executed = false ∧ Recorded s.2 route.destination := by
  obtain ⟨point, p⟩ := s
  obtain ⟨hl, hc⟩ := h
  cases point with
  | deleting dead route rest =>
    obtain ⟨⟨existing, he, hsrc, hk⟩, hrest⟩ := hc
    have hmem := RoutingTable.findRoute_mem he
    have hdest := RoutingTable.findRoute_destination he
    cases executed with
    | false =>
      simp only [abandon, Bool.false_eq_true, if_false, true_and]
      constructor
      · rintro hc dead' route' rest' heq
        obtain ⟨-, rfl, -⟩ := PassPoint.deleting.inj heq
        rw [← hdest]
        exact (hc existing hmem hsrc).2
      · intro hrec r hr hs
        by_cases hd : r.destination = route.destination
        · have hfind := (KeyedList.mem_iff_find hl.distinct).mp hr
          rw [hd] at hfind
          obtain rfl := Option.some.inj (he.symm.trans hfind)
          refine ⟨hk, ?_⟩
          rw [hd]
          exact hrec dead route rest rfl
        · exact hrest r hr hs hd
    | true =>
      simp only [abandon, if_true, he]
      constructor
      · intro hc
        exact absurd rfl (deleted _ _ _ (hc existing hmem hsrc).1).2
      · intro hno
        cases (hno dead route rest rfl).1
  | deletingVia route indices rest =>
    obtain ⟨hc, -, hother⟩ := hc
    cases executed with
    | false => exact ⟨fun _ _ _ _ h => (PassPoint.noConfusion h), fun _ => hc⟩
    | true => exact ⟨fun _ _ _ _ h => (PassPoint.noConfusion h), fun _ => deleteSystemRoute_consistent hc hother⟩
  | _ => cases executed <;> exact ⟨fun _ _ _ _ h => (PassPoint.noConfusion h), fun _ => hc⟩

theorem holds_scanning {o : Observed κ} (ho : Observed.WellFormed o)
    (hc : Consistent o.protocol) : Holds (.scanning, o.protocol) := by
  refine ⟨⟨ho.distinct, ?_⟩, hc⟩
  intro r hr
  rcases ho.routes r hr with ⟨name, info, -, rfl⟩ | ⟨hs, hsub, -⟩
  · exact Or.inl rfl
  · exact Or.inr ⟨hs, hsub⟩

theorem cleanup_cancelSafe_iff {o : Observed κ} (ho : Observed.Reachable o)
    (hc : Consistent o.protocol) (now : Instant) :
    (∀ n executed, Consistent (abandon executed (suspended now n (.scanning, o.protocol))) ↔
      ∀ dead route rest, (suspended now n (.scanning, o.protocol)).1 = .deleting dead route rest →
        executed = false ∧ Recorded (suspended now n (.scanning, o.protocol)).2 route.destination) ∧
    ((∀ n executed, Consistent (abandon executed (suspended now n (.scanning, o.protocol)))) ↔
      ∀ k state, o.protocol.routeStates.lookup k = some state → Expires now o.protocol state →
        ∀ r ∈ o.table.routes, r.destination ≠ state.route.destination) := by
  have hw := ho.wellFormed
  have hholds (n : ℕ) : Holds (suspended now n (.scanning, o.protocol)) := (holds_scanning hw hc).suspended n
  have hcut (n : ℕ) (executed : Bool) := consistent_abandon_iff (hholds n) executed
  refine ⟨hcut, ?_, ?_⟩
  · intro hsafe k state hl hx r hr hd
    have he := (Observed.mem_routes_iff hw.distinct).mp hr
    rw [hd] at he
    obtain ⟨n, dead, route, rest, hn⟩ := suspended_deletes hw.distinct hl hx he (recorded_not_direct hw hl hr hd)
    cases ((hcut n true).mp (hsafe n true) dead route rest hn).1
  · intro hno n executed
    rw [hcut]
    have hclear : Clear now (.scanning, o.protocol) := by
      intro k hk state hl
      obtain ⟨state', hl', hx⟩ := mem_expired.mp hk
      obtain rfl := Option.some.inj (hl.symm.trans hl')
      exact RoutingTable.findRoute_eq_none.mpr (fun r hr => hno k state hl hx r hr)
    have hn := hclear.suspended n
    intro dead route rest he
    simp only [Clear, he] at hn

/-- In whatever order the set gives the keys of the records to remove, the condition is the same. -/
theorem removing_cancelSafe_iff {o : Observed κ} (ho : Observed.Reachable o)
    (hc : Consistent o.protocol) (now : Instant) {keys : List String}
    (hkeys : keys.Perm (routesToRemove (declaredDead now o.protocol) (staleRoutes now o.protocol.routeStates)
      o.protocol.routeStates)) :
    let start : PassPoint × SimpleRoutingProtocol κ := (.removing (declaredDead now o.protocol) keys,
      { o.protocol with neighbors := (scanNeighbors now o.protocol.neighbors).1 })
    (∀ n executed, Consistent (abandon executed (suspended now n start))) ↔
      ∀ k state, o.protocol.routeStates.lookup k = some state → Expires now o.protocol state →
        ∀ r ∈ o.table.routes, r.destination ≠ state.route.destination := by
  intro start
  have hw := ho.wellFormed
  have hstart : Holds start := holds_scanning hw hc
  have hholds (n : ℕ) : Holds (suspended now n start) := hstart.suspended n
  have hcut (n : ℕ) (executed : Bool) := consistent_abandon_iff (hholds n) executed
  constructor
  · intro hsafe k state hl hx r hr hd
    have he := (Observed.mem_routes_iff hw.distinct).mp hr
    rw [hd] at he
    have hk : k ∈ keys := hkeys.mem_iff.mpr (mem_expired.mpr ⟨state, hl, hx⟩)
    obtain ⟨route, rest, hdel⟩ := @removeKeys_deletes κ start.2 (declaredDead now o.protocol) _ _ keys k state r
      hw.distinct hk hl he (recorded_not_direct hw hl hr hd)
    cases ((hcut 1 true).mp (hsafe 1 true) _ route rest hdel).1
  · intro hno n executed
    rw [hcut]
    have hclear : Clear now start := by
      intro k hk state hl
      obtain ⟨state', hl', hx⟩ := mem_expired.mp (hkeys.mem_iff.mp hk)
      obtain rfl := Option.some.inj (hl.symm.trans hl')
      exact RoutingTable.findRoute_eq_none.mpr (fun r hr => hno k state hl hx r hr)
    have hn := hclear.suspended n
    intro dead route rest he
    simp only [Clear, he] at hn

end Cuts

/-! On the LAN the pass after 17 s waits for the deletion of the timed-out route. -/

theorem lan_consistent : Consistent (Observed.lan.run [Observed.advert 0]).protocol := by
  intro r hr hs
  have hlearned : (Observed.lan.run [Observed.advert 0]).table.routes.filter (fun r => r.source = .protocol) =
      [Observed.advertised] := by decide +kernel
  have hmem : r ∈ (Observed.lan.run [Observed.advert 0]).table.routes.filter (fun r => r.source = .protocol) :=
    List.mem_filter.mpr ⟨hr, by simpa using hs⟩
  rw [hlearned] at hmem
  obtain rfl := List.mem_singleton.mp hmem
  refine ⟨Kernel.mem_held_finset.mpr (by decide +kernel), "10.2.0.0/24", ⟨Observed.advertised, 0, "B"⟩, ?_, rfl⟩
  decide +kernel

theorem cleanup_cancelSafe_witness :
    let p := (Observed.lan.run [Observed.advert 0]).protocol
    let now := Duration.fromSecs 17
    (∀ n executed, Consistent (abandon executed (suspended now n (.scanning, p))) ↔
      ∀ dead route rest, (suspended now n (.scanning, p)).1 = .deleting dead route rest →
        executed = false ∧ Recorded (suspended now n (.scanning, p)).2 route.destination) ∧
    ((∀ n executed, Consistent (abandon executed (suspended now n (.scanning, p)))) ↔
      ∀ k state, p.routeStates.lookup k = some state → Expires now p state →
        ∀ r ∈ p.router.routingTable.routes, r.destination ≠ state.route.destination) :=
  cleanup_cancelSafe_iff (Observed.lan_reachable [Observed.advert 0]) lan_consistent (Duration.fromSecs 17)

theorem cleanup_cancelSafe_fails :
    ¬ ∀ o : Observed (Finset SystemRoute), Observed.Reachable o → Consistent o.protocol →
      ∀ now n executed, Consistent (abandon executed (suspended now n (.scanning, o.protocol))) := by
  intro h
  have hleft := h _ (Observed.lan_reachable [Observed.advert 0]) lan_consistent (Duration.fromSecs 17) 4 true
  have hin : Observed.advertised ∈ (abandon true (suspended (Duration.fromSecs 17) 4
      (.scanning, (Observed.lan.run [Observed.advert 0]).protocol))).router.routingTable.routes := by decide +kernel
  obtain ⟨hk, -⟩ := hleft _ hin rfl
  rw [Kernel.mem_held_finset] at hk
  revert hk
  decide +kernel

end PassPoint

end CustomOspf
