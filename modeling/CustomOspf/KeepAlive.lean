import CustomOspf.Expiry

/-!
A route that its neighbour keeps advertising. A re-advertisement with the metric
and the next hop of the entry is not accepted, so it refreshes no record, and the
records of the destination age from the moment they were written.
-/

namespace CustomOspf.Observed

open SimpleRoutingProtocol

section Runs

variable {κ : Type} [IpNetwork] [NetRoute κ]

/-- `P` holds of the state before each cleanup pass of the run, and of the time of the pass. -/
def EachPass (P : Observed κ → Instant → Prop) : Observed κ → List Event → Prop
  | _, [] => True
  | o, e :: es => (∀ now, e = .cleanup now → P o now) ∧ EachPass P (o.step e) es

def Removes (d : Ipv4Network) (o : Observed κ) (now : Instant) : Prop :=
  ((o.table.findRoute d).isSome = true ∧ (o.step (.cleanup now)).table.findRoute d = none) ∨
  ∃ k state, o.protocol.routeStates.lookup k = some state ∧ state.route.destination = d ∧
    (o.step (.cleanup now)).protocol.routeStates.lookup k = none

def Readvertises (n : String) (d : Ipv4Network) (interfaces : Interfaces) (r : RouteEntry) (e : Event) : Prop :=
  ∃ message addr now sender info route state, e = .update message addr now ∧ message.routerId = n ∧
    addr.ip = .v4 sender ∧ info ∈ message.routes ∧
    RouteManager.processSingleRoute info n sender interfaces now = some (route, state) ∧
    route.destination = d ∧ route.metric = r.metric ∧ route.nextHop = r.nextHop

/-- From `last` on, neither a re-advertisement nor a pass comes later than the timeout after the one before. -/
inductive Spaced (again : Event → Prop) : Instant → List Event → Prop
  | nil {last : Instant} : Spaced again last []
  | again {last : Instant} {e : Event} {es : List Event} (he : again e)
      (ht : e.time.durationSince last ≤ ROUTE_TIMEOUT) (h : Spaced again e.time es) : Spaced again last (e :: es)
  | other {last : Instant} {e : Event} {es : List Event} (he : ¬ again e)
      (ht : ∀ now, e = .cleanup now → now.durationSince last ≤ ROUTE_TIMEOUT) (h : Spaced again last es) :
      Spaced again last (e :: es)

def OnlyFrom (n : String) (d : Ipv4Network) (es : List Event) : Prop :=
  ∀ message addr now, Event.update message addr now ∈ es → message.routerId ≠ n →
    ∀ info ∈ message.routes, RouteManager.destinationOf info.destination ≠ some d

theorem OnlyFrom.mono {n : String} {d : Ipv4Network} {es es' : List Event} (h : OnlyFrom n d es)
    (hsub : es' ⊆ es) : OnlyFrom n d es' := fun message addr now hmem => h message addr now (hsub hmem)

structure KeptAlive (n : String) (d : Ipv4Network) (r : RouteEntry) (p : SimpleRoutingProtocol κ)
    (before : List Event) (message : RoutingUpdate) (addr : SocketAddr) (now : Instant) (after : List Event) :
    Prop where
  ordered : ((before ++ .update message addr now :: after).map Event.time).Pairwise (· ≤ ·)
  source : message.routerId = n
  installs : ((start p).run before).table.findRoute d ≠ some r ∧
    (((start p).run before).step (.update message addr now)).table.findRoute d = some r
  protocol : r.source = .protocol
  onlyFrom : OnlyFrom n d (before ++ .update message addr now :: after)
  alive : EachPass (fun o now => n ∉ declaredDead now o.protocol)
    (((start p).run before).step (.update message addr now)) after
  same : ∀ message addr now, Event.update message addr now ∈ after → message.routerId = n →
    ∀ sender, addr.ip = .v4 sender → ∀ info ∈ message.routes, ∀ route state,
      RouteManager.processSingleRoute info n sender p.router.interfaces now = some (route, state) →
        route.destination = d → route.metric = r.metric ∧ route.nextHop = r.nextHop
  spaced : Spaced (Readvertises n d p.router.interfaces r) now after

def RecordsFrom (n : String) (d : Ipv4Network) (o : Observed κ) : Prop :=
  ∀ k state, o.protocol.routeStates.lookup k = some state → state.route.destination = d →
    state.advertisingNeighbor = n

theorem RecordsFrom.step {n : String} {d : Ipv4Network} {o : Observed κ} (hr : RecordsFrom n d o)
    (ho : WellFormed o) {e : Event} (honly : OnlyFrom n d [e]) : RecordsFrom n d (o.step e) := by
  intro k state hl hd
  cases e with
  | hello message addr now =>
    obtain ⟨neighbors, hn⟩ := step_hello_eq o message addr now
    rw [hn] at hl
    exact hr k state hl hd
  | update message addr now =>
    rw [step_protocol, SimpleRoutingProtocol.step, handleUpdateMessageStatic_eq] at hl
    rcases Dictionary.lookup_insertAll hl with hk | ⟨-, hl⟩
    · obtain ⟨⟨key, r⟩, hr, he⟩ := List.mem_map.mp hk
      obtain ⟨rfl, rfl⟩ := Prod.mk.inj he
      by_contra hne
      obtain ⟨-, sender, -, info, hinfo, rfl, -, -⟩ := mem_accepted.mp hr
      have hdest := (accepted_shape hr).2.1
      rw [show r.destination = d from hd] at hdest
      exact honly message addr now (List.mem_singleton_self _) hne info hinfo hdest
    · exact hr k state hl hd
  | cleanup now => exact hr k state ((lookup_step_cleanup ho.distinct).mp hl).1 hd

theorem RecordsFrom.run {n : String} {d : Ipv4Network} {o : Observed κ} (hr : RecordsFrom n d o)
    (ho : WellFormed o) {es : List Event} (honly : OnlyFrom n d es) : RecordsFrom n d (o.run es) := by
  induction es generalizing o with
  | nil => exact hr
  | cons e es ih =>
    have he : OnlyFrom n d [e] := honly.mono (by simp)
    exact ih (hr.step ho he) (ho.step e) (honly.mono (List.subset_cons_self e es))

/-! The entry and the records that stand while the neighbour repeats itself. -/

structure Stands (d : Ipv4Network) (r : RouteEntry) (o₁ o : Observed κ) : Prop where
  wellFormed : WellFormed o
  entry : o.table.findRoute d = some r
  records : ∀ k, RouteManager.destinationOf k = some d →
    o.protocol.routeStates.lookup k = o₁.protocol.routeStates.lookup k

variable {n : String} {d : Ipv4Network} {r : RouteEntry} {o₁ o : Observed κ}

omit [NetRoute κ] in
theorem Stands.lookup_iff (h : Stands d r o₁ o) (h₁ : WellFormed o₁) {k : String} {state : RouteState} :
    (o.protocol.routeStates.lookup k = some state ∧ state.route.destination = d) ↔
      o₁.protocol.routeStates.lookup k = some state ∧ state.route.destination = d := by
  constructor
  · rintro ⟨hl, hd⟩
    have hk := (h.wellFormed.records k state hl).1
    rw [hd] at hk
    exact ⟨(h.records k hk).symm.trans hl, hd⟩
  · rintro ⟨hl, hd⟩
    have hk := (h₁.records k state hl).1
    rw [hd] at hk
    exact ⟨(h.records k hk).trans hl, hd⟩

theorem Stands.update (h : Stands d r o₁ o) {message : RoutingUpdate} {addr : SocketAddr} {now : Instant}
    (honly : OnlyFrom n d [.update message addr now])
    (hsame : message.routerId = n → ∀ sender, addr.ip = .v4 sender → ∀ info ∈ message.routes, ∀ route state,
      RouteManager.processSingleRoute info n sender o.interfaces now = some (route, state) →
        route.destination = d → route.metric = r.metric ∧ route.nextHop = r.nextHop) :
    Stands d r o₁ (o.step (.update message addr now)) := by
  have hno : ∀ key r', (key, r') ∈ accepted message addr now o.protocol → r'.destination ≠ d := by
    intro key r' hr' hd
    obtain ⟨-, sender, haddr, info, hinfo, rfl, hp, -⟩ := mem_accepted.mp hr'
    by_cases hn : message.routerId = n
    · rw [hn] at hp
      obtain ⟨hm, hh⟩ := hsame hn sender haddr info hinfo r' _ hp hd
      -- the route that is repeated does not beat itself
      have hsup := accepted_supersedes hr' r (by rw [hd]; exact h.entry)
      simp [Router.Supersedes, hm, hh] at hsup
    · have hdest := (accepted_shape hr').2.1
      rw [hd] at hdest
      exact honly message addr now (List.mem_singleton_self _) hn info hinfo hdest
  refine ⟨h.wellFormed.step _, ?_, ?_⟩
  · rw [step_table]
    exact (findRoute_update_of_notMem h.wellFormed.distinct hno).trans h.entry
  · intro k hk
    rw [step_protocol, lookup_update_of_notMem hk hno]
    exact h.records k hk

theorem Stands.cleanup (h : Stands d r o₁ o) {now : Instant} (hkeeps : ¬ Removes d o now) :
    Stands d r o₁ (o.step (.cleanup now)) := by
  obtain ⟨hentry, hrecords⟩ := not_or.mp hkeeps
  refine ⟨h.wellFormed.cleanup now, ?_, ?_⟩
  · cases hf : (o.step (.cleanup now)).table.findRoute d with
    | none => exact absurd ⟨by rw [h.entry]; rfl, hf⟩ hentry
    | some r' =>
      rw [← h.entry]
      exact (step_cleanup_findRoute h.wellFormed.distinct hf).1.symm
  · intro k hk
    rw [← h.records k hk]
    cases hl : (o.step (.cleanup now)).protocol.routeStates.lookup k with
    | some state => exact ((lookup_step_cleanup h.wellFormed.distinct).mp hl).1.symm
    | none =>
      cases hold : o.protocol.routeStates.lookup k with
      | none => rfl
      | some state =>
        have hd := (h.wellFormed.records k state hold).1
        rw [hk] at hd
        exact absurd ⟨k, state, hold, (Option.some.inj hd).symm, hl⟩ hrecords

def WithinTimeout (d : Ipv4Network) (r : RouteEntry) (o₁ o : Observed κ) (now : Instant) : Prop :=
  (∀ k state, o₁.protocol.routeStates.lookup k = some state → state.route.destination = d →
    now.durationSince state.lastAdvertised ≤ ROUTE_TIMEOUT) ∧ ¬ DeadNextHop now o.protocol r.nextHop

theorem Stands.removes_iff (h : Stands d r o₁ o) (h₁ : WellFormed o₁) (hfrom : RecordsFrom n d o₁)
    (hs : r.source = .protocol) {now : Instant} (halive : n ∉ declaredDead now o.protocol) :
    ¬ Removes d o now ↔ WithinTimeout d r o₁ o now := by
  have hd := h.wellFormed.distinct
  have hexpires : ∀ k state, o₁.protocol.routeStates.lookup k = some state → state.route.destination = d →
      (Expires now o.protocol state ↔ ¬ now.durationSince state.lastAdvertised ≤ ROUTE_TIMEOUT) := by
    intro k state hl hk
    rw [Expires, hfrom k state hl hk, Nat.not_le]
    exact or_iff_left halive
  obtain ⟨hr, rfl⟩ := (RoutingTable.findRoute_iff hd).mp h.entry
  constructor
  · intro hkeeps
    have hafter := h.cleanup hkeeps
    obtain ⟨-, -, hdead⟩ := (mem_step_cleanup hd).mp (RoutingTable.findRoute_mem hafter.entry)
    refine ⟨?_, fun hip => hdead ⟨hs, hip⟩⟩
    intro k state hl hk
    by_contra ht
    have hgone := ((hafter.lookup_iff h₁).mpr ⟨hl, hk⟩).1
    exact ((lookup_step_cleanup hd).mp hgone).2 ((hexpires k state hl hk).mpr ht)
  · rintro ⟨hfresh, hip⟩ hremoves
    have hno : ∀ k state, o.protocol.routeStates.lookup k = some state → state.route.destination = r.destination →
        ¬ Expires now o.protocol state := by
      intro k state hl hk
      obtain ⟨hl₁, -⟩ := (h.lookup_iff h₁).mp ⟨hl, hk⟩
      rw [hexpires k state hl₁ hk, not_not]
      exact hfresh k state hl₁ hk
    rcases hremoves with ⟨-, hgone⟩ | ⟨k, state, hl, hk, hgone⟩
    · have hmem : r ∈ (o.step (.cleanup now)).table.routes :=
        (mem_step_cleanup hd).mpr ⟨hr, fun k state hl he hk => hno k state hl hk he, fun hdead => hip hdead.2⟩
      exact RoutingTable.findRoute_eq_none.mp hgone r hmem rfl
    · have hkept := (lookup_step_cleanup hd).mpr ⟨hl, hno k state hl hk⟩
      rw [hgone] at hkept
      cases hkept

theorem Stands.hello (h : Stands d r o₁ o) (message : HelloMessage) (addr : SocketAddr) (now : Instant) :
    Stands d r o₁ (o.step (.hello message addr now)) := by
  obtain ⟨neighbors, hn⟩ := step_hello_eq o message addr now
  refine ⟨h.wellFormed.step _, ?_, ?_⟩
  · rw [hn]
    exact h.entry
  · rw [hn]
    exact h.records

theorem Stands.eachPass_iff (h : Stands d r o₁ o) (h₁ : WellFormed o₁) (hfrom : RecordsFrom n d o₁)
    (hs : r.source = .protocol) {es : List Event} (honly : OnlyFrom n d es)
    (halive : EachPass (fun o now => n ∉ declaredDead now o.protocol) o es)
    (hsame : ∀ message addr now, Event.update message addr now ∈ es → message.routerId = n →
      ∀ sender, addr.ip = .v4 sender → ∀ info ∈ message.routes, ∀ route state,
        RouteManager.processSingleRoute info n sender o.interfaces now = some (route, state) →
          route.destination = d → route.metric = r.metric ∧ route.nextHop = r.nextHop) :
    EachPass (fun o now => ¬ Removes d o now) o es ↔ EachPass (WithinTimeout d r o₁) o es := by
  induction es generalizing o with
  | nil => exact Iff.rfl
  | cons e es ih =>
    obtain ⟨hpass, halive⟩ := halive
    have honly' : OnlyFrom n d es := honly.mono (List.subset_cons_self e es)
    have hinterfaces : (o.step e).interfaces = o.interfaces := by
      rw [interfaces, step_protocol]
      exact (step_same h.wellFormed.distinct e).interfaces
    have hrest (hstep : Stands d r o₁ (o.step e)) := by
      refine ih hstep honly' halive ?_
      rw [hinterfaces]
      intro message addr now hmem
      exact hsame message addr now (List.mem_cons_of_mem e hmem)
    cases e with
    | hello message addr now => simpa [EachPass] using hrest (h.hello message addr now)
    | update message addr now =>
      have hstep : Stands d r o₁ (o.step (.update message addr now)) := by
        exact h.update (honly.mono (by simp)) (hsame message addr now List.mem_cons_self)
      simpa [EachPass] using hrest hstep
    | cleanup now =>
      have hiff := h.removes_iff h₁ hfrom hs (hpass now rfl)
      simp only [EachPass, Event.cleanup.injEq, forall_eq']
      constructor
      · rintro ⟨hkeeps, htail⟩
        exact ⟨hiff.mp hkeeps, (hrest (h.cleanup hkeeps)).mp htail⟩
      · rintro ⟨hin, htail⟩
        have hkeeps := hiff.mpr hin
        exact ⟨hkeeps, (hrest (h.cleanup hkeeps)).mpr htail⟩

theorem keptAlive_iff {routerId : String} {hosts hostsAtTable : List NetworkInterface} {names : List String}
    {port : UInt16} {handle : κ} {p : SimpleRoutingProtocol κ}
    (hnew : SimpleRoutingProtocol.new routerId hosts hostsAtTable names port handle = .ok p)
    {before after : List Event} {message : RoutingUpdate} {addr : SocketAddr} {now : Instant}
    (h : KeptAlive n d r p before message addr now after) :
    let o := ((start p).run before).step (.update message addr now)
    EachPass (fun o now => ¬ Removes d o now) o after ↔ EachPass (WithinTimeout d r o) o after := by
  intro o
  have hstart : WellFormed (start p) := WellFormed.new hnew
  have hbefore : WellFormed ((start p).run before) := ((Reachable.start hnew).run before).wellFormed
  have ho : WellFormed o := hbefore.step _
  have hempty : RecordsFrom n d (start p) := by
    intro k state hl
    unfold SimpleRoutingProtocol.new at hnew
    split at hnew
    · cases hnew
    · obtain rfl := Except.ok.inj hnew
      simp [start] at hl
  have hfrom : RecordsFrom n d o := by
    apply (hempty.run hstart (h.onlyFrom.mono ?_)).step hbefore (h.onlyFrom.mono ?_)
    · exact List.subset_append_left _ _
    · simp
  have hinterfaces : o.interfaces = p.router.interfaces := by
    rw [interfaces, step_protocol]
    exact ((run_same hstart before).trans (step_same hbefore.distinct _)).interfaces
  have hstands : Stands d r o o := ⟨ho, h.installs.2, fun _ _ => rfl⟩
  refine hstands.eachPass_iff ho hfrom h.protocol (h.onlyFrom.mono ?_) h.alive ?_
  · intro e he
    exact List.mem_append_right _ (List.mem_cons_of_mem _ he)
  · rw [hinterfaces]
    exact h.same

end Runs

/-! Neighbour "B" advertises 10.2.0.0/24 every eight seconds. -/

theorem advert_readvertises (secs : ℕ) :
    Readvertises "B" advertised.destination lan.protocol.router.interfaces advertised (advert secs) :=
  ⟨_, _, _, .new 10 0 0 2, _, _, _, rfl, rfl, rfl, List.mem_singleton_self _, advert_processed _, rfl, rfl, rfl⟩

theorem advert_keptAlive :
    KeptAlive "B" advertised.destination advertised lan.protocol [] ⟨"B", 1, [⟨"10.2.0.0/24", 0, "0.0.0.0"⟩]⟩
      (lanPeer 2) 0 [advert 8, advert 16, lanCleanup 17] where
  ordered := by decide
  source := rfl
  installs := by decide +kernel
  protocol := rfl
  onlyFrom := by
    intro message addr now hmem hn
    exfalso
    simp only [List.nil_append, List.mem_cons, advert, lanUpdate, lanCleanup, Event.update.injEq, reduceCtorEq,
      List.not_mem_nil, or_false] at hmem
    rcases hmem with ⟨rfl, -⟩ | ⟨rfl, -⟩ | ⟨rfl, -⟩ <;> exact hn rfl
  alive := by
    refine ⟨?_, ?_, ?_, trivial⟩
    · intro now hnow
      cases hnow
    · intro now hnow
      cases hnow
    · intro now hnow
      cases hnow
      decide +kernel
  same := by
    intro message addr now hmem _ sender haddr info hinfo route state hp _
    have hupdate : message.routes = [⟨"10.2.0.0/24", 0, "0.0.0.0"⟩] ∧ addr = lanPeer 2 := by
      simp only [List.mem_cons, advert, lanUpdate, lanCleanup, Event.update.injEq, reduceCtorEq,
        List.not_mem_nil, or_false] at hmem
      rcases hmem with ⟨rfl, rfl, -⟩ | ⟨rfl, rfl, -⟩ <;> exact ⟨rfl, rfl⟩
    obtain ⟨hroutes, rfl⟩ := hupdate
    obtain rfl := IpAddr.v4.inj haddr
    rw [hroutes] at hinfo
    obtain rfl := List.mem_singleton.mp hinfo
    rw [advert_processed] at hp
    obtain ⟨rfl, -⟩ := Prod.mk.inj (Option.some.inj hp)
    exact ⟨rfl, rfl⟩
  spaced := by
    have hpass : ¬ Readvertises "B" advertised.destination lan.protocol.router.interfaces advertised (lanCleanup 17) := by
      rintro ⟨message, addr, now, sender, info, route, state, he, -⟩
      cases he
    apply Spaced.again (advert_readvertises 8) (by decide)
    apply Spaced.again (advert_readvertises 16) (by decide)
    apply Spaced.other hpass _ Spaced.nil
    intro now hnow
    cases hnow
    decide

theorem keptAlive_witness :
    let o := ((start lan.protocol).run []).step (advert 0)
    EachPass (fun o now => ¬ Removes advertised.destination o now) o [advert 8, advert 16, lanCleanup 17] ↔
      EachPass (WithinTimeout advertised.destination advertised o) o [advert 8, advert 16, lanCleanup 17] :=
  keptAlive_iff lan_new advert_keptAlive

theorem keptAlive_fails :
    ¬ ∀ (n : String) (d : Ipv4Network) (r : RouteEntry) (p : SimpleRoutingProtocol (Finset SystemRoute))
      (before : List Event) (message : RoutingUpdate) (addr : SocketAddr) (now : Instant) (after : List Event),
      (∃ routerId hosts hostsAtTable names port handle,
        SimpleRoutingProtocol.new routerId hosts hostsAtTable names port handle = .ok p) →
      KeptAlive n d r p before message addr now after →
        EachPass (fun o now => ¬ Removes d o now) (((start p).run before).step (.update message addr now)) after := by
  intro h
  have hpasses := h _ _ _ _ _ _ _ _ _ ⟨_, _, _, _, _, _, lan_new⟩ advert_keptAlive
  obtain ⟨-, -, hkeeps, -⟩ := hpasses
  apply hkeeps _ rfl
  left
  decide +kernel

end CustomOspf.Observed
