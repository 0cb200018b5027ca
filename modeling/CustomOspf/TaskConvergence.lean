import CustomOspf.TaskNetwork

/-!
The network learns its distances all the same when the sections of its tasks
interleave: an update that a listen loop has taken ends up in the table, whatever
the other loops, the cleanup task and the update task do meanwhile.
-/

deriving instance DecidableEq for CustomOspf.ListenPhase

namespace CustomOspf.TaskNetwork

open SimpleRoutingProtocol HopDistance
open CustomOspf.System (Static Linked dist metricAt)

section Rounds

variable {ι σ κ : Type} [DecidableEq ι] [DecidableEq σ] [IpNetwork] [NetRoute κ]

theorem run_append (s : TaskNetwork ι σ κ) (a b : List (NetworkAction ι σ)) : s.run (a ++ b) = (s.run a).run b :=
  List.foldl_append

/-- A listen loop of `j` takes an update that `k` collects and sends in the run, and is idle again later in the run. -/
def Exchanged (start : ι → SimpleRoutingProtocol κ) (s : TaskNetwork ι σ κ) (actions : List (NetworkAction ι σ)) (j k : ι) :
    Prop :=
  ∃ before sending handling after n l, actions = before ++ (sending ++ .receive n j l :: handling) ++ after ∧
    (∀ update, (s.run before).updaters k ≠ .collected update) ∧ (s.run before).sent.length ≤ n ∧
    (∃ g ∈ (s.run (before ++ sending)).sent[n]?, g.origin = k ∧ Attached (start j) g.subnet) ∧
    ((s.run (before ++ sending)).nodes j).listeners l = .idle ∧
    ((s.run (before ++ (sending ++ .receive n j l :: handling))).nodes j).listeners l = .idle

def Round (start : ι → SimpleRoutingProtocol κ) (s : TaskNetwork ι σ κ) (actions : List (NetworkAction ι σ)) : Prop :=
  ∀ j k, j ≠ k → Linked start j k → Exchanged start s actions j k

def Keeps (s : TaskNetwork ι σ κ) (actions : List (NetworkAction ι σ)) (d : Ipv4Network) : Prop :=
  (s.run actions).removed d = s.removed d

theorem removed_step_le (s : TaskNetwork ι σ κ) (a : NetworkAction ι σ) (d : Ipv4Network) :
    s.removed d ≤ (s.step a).removed d := by
  have hput (j : ι) (c : Concurrent σ κ) : s.removed d ≤ (s.put j c).removed d := by
    simp only [put]
    split <;> omega
  cases a with
  | update i =>
    simp only [step, update]
    split <;> exact le_refl _
  | receive n j l =>
    simp only [step, receive]
    split
    · split
      · exact hput j _
      · exact le_refl _
    · exact le_refl _
  | hello j l message addr now => exact hput j _
  | listen j l now => exact hput j _
  | clean j now => exact hput j _

theorem removed_run_le (s : TaskNetwork ι σ κ) (actions : List (NetworkAction ι σ)) (d : Ipv4Network) :
    s.removed d ≤ (s.run actions).removed d := by
  induction actions generalizing s with
  | nil => exact le_refl _
  | cons a actions ih => exact (removed_step_le s a d).trans (ih (s.step a))

theorem Keeps.append {s : TaskNetwork ι σ κ} {a b : List (NetworkAction ι σ)} {d : Ipv4Network} (h : Keeps s (a ++ b) d) :
    Keeps s a d ∧ Keeps (s.run a) b d := by
  unfold Keeps at h ⊢
  rw [run_append] at h
  have hfirst := removed_run_le s a d
  have hrest := removed_run_le (s.run a) b d
  constructor
  · omega
  · omega

theorem Keeps.induction {P : TaskNetwork ι σ κ → Prop} {d : Ipv4Network}
    (hstep : ∀ s a, P s → (s.step a).removed d = s.removed d → P (s.step a)) {s : TaskNetwork ι σ κ}
    {actions : List (NetworkAction ι σ)} (hkept : Keeps s actions d) (hs : P s) : P (s.run actions) := by
  induction actions generalizing s with
  | nil => exact hs
  | cons a actions ih =>
    obtain ⟨hfirst, hrest⟩ := Keeps.append (a := [a]) hkept
    exact ih hrest (hstep s a hs hfirst)

structure Calm [Fintype ι] (start : ι → SimpleRoutingProtocol κ) (before rest : List (NetworkAction ι σ))
    (d : Ipv4Network) : Prop where
  keeps : Keeps ((boot start).run before) rest d
  few : Fintype.card ι + ((boot start).run before).removed d < 2 ^ 32

theorem Calm.few_after [Fintype ι] {start : ι → SimpleRoutingProtocol κ} {before rest : List (NetworkAction ι σ)}
    {d : Ipv4Network} (h : Calm start before rest d) :
    Fintype.card ι + ((boot start).run (before ++ rest)).removed d < 2 ^ 32 := by
  rw [run_append, h.keeps]
  exact h.few

variable {start : ι → SimpleRoutingProtocol κ} (ht : Static start) {s : TaskNetwork ι σ κ} {d : Ipv4Network}
  (hd : d.subnet = d)

include ht hd

theorem metricAt_step (hs : Sound start s) {a : NetworkAction ι σ} (hkept : (s.step a).removed d = s.removed d) (i : ι) :
    metricAt (s.step a).abstract d i ≤ metricAt s.abstract d i := by
  rw [← add_zero (metricAt s.abstract d i)]
  apply System.metricAt_le_of_bound
  intro m hm
  obtain ⟨n, ip, hn, hle⟩ := System.metricAt_le_iff.mp hm
  have hheld : (System.view start s.abstract d).held i = some (System.entry start (n, ip)) := by
    simp only [System.view, hn, Option.map_some]
  obtain ⟨e, he, hmetric⟩ := (view_step ht hs hd a).held_le hkept hheld
  obtain ⟨⟨n', ip'⟩, hn', rfl⟩ := Option.map_eq_some_iff.mp he
  rw [add_zero, System.metricAt_le_iff]
  exact ⟨n', ip', hn', hmetric.trans hle⟩

theorem metricAt_run (hs : Sound start s) {actions : List (NetworkAction ι σ)} (hkept : Keeps s actions d) (i : ι) :
    metricAt (s.run actions).abstract d i ≤ metricAt s.abstract d i := by
  have hrun : Sound start (s.run actions) ∧ metricAt (s.run actions).abstract d i ≤ metricAt s.abstract d i := by
    apply Keeps.induction (P := fun t => Sound start t ∧ metricAt t.abstract d i ≤ metricAt s.abstract d i) _ hkept
      ⟨hs, le_refl _⟩
    rintro t a ⟨hsound, hle⟩ hsame
    exact ⟨hsound.step a, (metricAt_step ht hd hsound hsame i).trans hle⟩
  exact hrun.2

omit ht hd [DecidableEq σ] [DecidableEq ι] [NetRoute κ] in
theorem metricAt_le_iff {i : ι} {m : ℕ} :
    metricAt s.abstract d i ≤ m ↔ ∃ n ip, reach (s.nodes i).shared d = some (n, ip) ∧ n.toNat ≤ m :=
  System.metricAt_le_iff

/-! What a router sends once its metric is at most `m`. -/

def Advertises (start : ι → SimpleRoutingProtocol κ) (k : ι) (d : Ipv4Network) (m : ℕ) (update : RoutingUpdate) : Prop :=
  update.routerId = (start k).router.id ∧ ∃ r : RouteEntry, r.destination.subnet = d ∧ r.metric.toNat ≤ m ∧
    ⟨r.destination.toString, r.metric, r.nextHop.toString⟩ ∈ update.routes

structure Current (start : ι → SimpleRoutingProtocol κ) (k : ι) (d : Ipv4Network) (m first : ℕ)
    (s : TaskNetwork ι σ κ) : Prop where
  sound : Sound start s
  metric : metricAt s.abstract d k ≤ m
  updater : ∀ update, s.updaters k = .collected update → Advertises start k d m update
  sent : ∀ n g, first ≤ n → s.sent[n]? = some g → g.origin = k → Advertises start k d m g.update

omit ht hd [DecidableEq σ] [DecidableEq ι] in
theorem advertises_buildUpdate (hs : Sound start s) {k : ι} {m : ℕ} (hm : metricAt s.abstract d k ≤ m) (number : UInt64) :
    Advertises start k d m (buildUpdate number (s.nodes k).shared.router) := by
  obtain ⟨n, ip, hreach, hle⟩ := metricAt_le_iff.mp hm
  obtain ⟨r, hr, he⟩ := Option.map_eq_some_iff.mp hreach
  obtain ⟨rfl, rfl⟩ := Prod.mk.inj he
  have hrd : r.destination.subnet = d := by simpa using List.find?_some hr
  exact ⟨(hs.same k).id, r, hrd, hle, List.mem_map.mpr ⟨r, List.mem_of_find?_eq_some hr, rfl⟩⟩

omit ht hd in
theorem step_sent (s : TaskNetwork ι σ κ) {a : NetworkAction ι σ} (hno : ∀ i, a ≠ .update i) :
    (s.step a).sent = s.sent ∧ (s.step a).updaters = s.updaters := by
  cases a with
  | update i => exact absurd rfl (hno i)
  | receive n j l =>
    simp only [step, receive]
    split
    · split <;> exact ⟨rfl, rfl⟩
    · exact ⟨rfl, rfl⟩
  | _ => exact ⟨rfl, rfl⟩

theorem Current.step {k : ι} {m first : ℕ} (h : Current start k d m first s) {a : NetworkAction ι σ}
    (hkept : (s.step a).removed d = s.removed d) : Current start k d m first (s.step a) := by
  have hmetric := (metricAt_step ht hd h.sound hkept k).trans h.metric
  by_cases hno : ∀ i, a ≠ .update i
  · obtain ⟨hsent, hupdaters⟩ := step_sent s hno
    refine ⟨h.sound.step a, hmetric, ?_, ?_⟩
    · rw [hupdaters]
      exact h.updater
    · rw [hsent]
      exact h.sent
  · push Not at hno
    obtain ⟨i, rfl⟩ := hno
    have hsound := h.sound.step (.update i)
    have hupdater {phase : UpdatePhase}
        (hphase : i = k → ∀ update, phase = .collected update → Advertises start k d m update) :
        ∀ update, Function.update s.updaters i phase k = .collected update → Advertises start k d m update := by
      intro update hu
      by_cases hk : k = i
      · subst hk
        rw [Function.update_self] at hu
        exact hphase rfl update hu
      · rw [Function.update_of_ne hk] at hu
        exact h.updater update hu
    refine ⟨hsound, hmetric, ?_, ?_⟩
    · simp only [TaskNetwork.step, TaskNetwork.update]
      cases hphase : s.updaters i with
      | idle => exact hupdater (fun _ update hu => by cases hu)
      | numbered number =>
        apply hupdater
        rintro rfl update ⟨⟩
        exact advertises_buildUpdate h.sound h.metric number
      | collected update => exact hupdater (fun _ update hu => by cases hu)
    · intro n g hn hg hk
      simp only [TaskNetwork.step, TaskNetwork.update] at hg
      cases hphase : s.updaters i with
      | collected update =>
        rw [hphase] at hg
        dsimp only at hg
        by_cases hold : n < s.sent.length
        · rw [List.getElem?_append_left hold] at hg
          exact h.sent n g hn hg hk
        · rw [List.getElem?_append_right (not_lt.mp hold)] at hg
          obtain ⟨name, info, -, rfl⟩ := mem_datagrams.mp (List.mem_of_getElem? hg)
          obtain rfl : i = k := hk
          exact h.updater update hphase
      | _ =>
        rw [hphase] at hg
        exact h.sent n g hn hg hk

/-! What a listen loop has in hand that brings the metric down to `m`. -/

def Offers (p : SimpleRoutingProtocol κ) (d : Ipv4Network) (m : ℕ) (advertiser : String) (sender : Ipv4Addr)
    (routes : List RouteInfo) : Prop :=
  ∃ info ∈ routes, ∀ now, ∃ r state,
    RouteManager.processSingleRoute info advertiser sender p.router.interfaces now = some (r, state) ∧
      r.destination = d ∧ r.metric.toNat ≤ m

def Promises (p : SimpleRoutingProtocol κ) (d : Ipv4Network) (m : ℕ) : ListenPhase → Prop
  | .idle => False
  | .touching update addr => ∃ sender, addr.ip = .v4 sender ∧ Offers p d m update.routerId sender update.routes
  | .starting update sender => Offers p d m update.routerId sender update.routes
  | .testing advertiser sender _ _ routes collected => Offers p d m advertiser sender routes ∨
      ∃ r ∈ collected.1, r.destination = d ∧ r.metric.toNat ≤ m
  | .applying newRoutes => ∃ r ∈ newRoutes, r.destination = d ∧ r.metric.toNat ≤ m

omit [DecidableEq σ] [DecidableEq ι] in
theorem collect_offered (hs : Sound start s) {j : ι} (hna : ¬ Attached (start j) d) {m : ℕ} {advertiser : String}
    {sender : Ipv4Addr} {now : Instant} {info : RouteInfo} {routes : List RouteInfo}
    {collected : List RouteEntry × List (String × RouteState)}
    (h : Promises (start j) d m (.testing advertiser sender (start j).router.interfaces now (info :: routes) collected)) :
    Promises (start j) d m (.testing advertiser sender (start j).router.interfaces now routes
        (RouteManager.collectRoute advertiser sender (start j).router.interfaces now (s.nodes j).shared.router collected
          info)) ∨
      metricAt s.abstract d j ≤ m := by
  have hkeeps : ∀ r ∈ collected.1, r ∈ (RouteManager.collectRoute advertiser sender (start j).router.interfaces now
      (s.nodes j).shared.router collected info).1 := by
    intro r hr
    unfold RouteManager.collectRoute
    split
    · split
      · exact List.mem_append_left _ hr
      · exact hr
    · exact hr
  rcases h with ⟨other, hmem, hother⟩ | ⟨r, hr, hgood⟩
  · rcases List.mem_cons.mp hmem with rfl | hmem
    · obtain ⟨r, state, hp, hrd, hle⟩ := hother now
      by_cases haccept : RouteManager.shouldAcceptRoute r (s.nodes j).shared.router = true
      · refine Or.inl (Or.inr ⟨r, ?_, hrd, hle⟩)
        simp [RouteManager.collectRoute, hp, haccept]
      · right
        rw [RouteManager.shouldAcceptRoute_iff, hrd] at haccept
        push Not at haccept
        obtain ⟨existing, hex, hno⟩ := haccept
        rw [metricAt_le_iff, hs.reach_of_not_attached ht.topology hd hna]
        refine ⟨existing.metric, existing.nextHop, Option.map_eq_some_iff.mpr ⟨existing, hex, rfl⟩, ?_⟩
        unfold Router.Supersedes at hno
        simp only [UInt32.lt_iff_toNat_lt] at hno
        omega
    · exact Or.inl (Or.inl ⟨other, hmem, hother⟩)
  · exact Or.inl (Or.inr ⟨r, hkeeps r hr, hgood⟩)

theorem promises_listen (hs : Sound start s) {j : ι} (hna : ¬ Attached (start j) d) {m : ℕ} {l : σ}
    (h : Promises (start j) d m ((s.nodes j).listeners l)) {now : Instant}
    (hkept : (s.step (.listen j l now)).removed d = s.removed d) :
    Promises (start j) d m (((s.step (.listen j l now)).nodes j).listeners l) ∨
      metricAt (s.step (.listen j l now)).abstract d j ≤ m := by
  have hpending := (hs.kept j).listeners l
  have hphase : ((s.step (.listen j l now)).nodes j).listeners l =
      (CustomOspf.listen now ((s.nodes j).listeners l) (s.nodes j).shared).1 := by
    simp [TaskNetwork.step, Concurrent.step]
  rw [hphase]
  cases hcase : (s.nodes j).listeners l with
  | idle =>
    rw [hcase] at h
    exact h.elim
  | touching update addr =>
    rw [hcase] at h
    obtain ⟨sender, hsender, hoffers⟩ := h
    left
    simp only [CustomOspf.listen, hsender]
    exact hoffers
  | starting update sender =>
    rw [hcase] at h
    exact Or.inl (Or.inl h)
  | testing advertiser sender interfaces started routes collected =>
    rw [hcase] at h hpending
    obtain ⟨rfl, -, -⟩ := hpending
    cases routes with
    | cons info routes =>
      exact (collect_offered ht hd hs hna h).imp_right (fun hle => (metricAt_step ht hd hs hkept j).trans hle)
    | nil =>
      obtain ⟨newRoutes, updated⟩ := collected
      rcases h with ⟨info, hinfo, -⟩ | ⟨r, hr, hgood⟩
      · exact absurd hinfo List.not_mem_nil
      · left
        have hsome : newRoutes.isEmpty = false := by simpa using List.ne_nil_of_mem hr
        simp only [CustomOspf.listen, hsome, Bool.not_false, if_true]
        exact ⟨r, hr, hgood⟩
  | applying newRoutes =>
    rw [hcase] at h hpending
    right
    obtain ⟨r, hfind, hle⟩ := apply_least ht hs hd hpending hna (Or.inr h)
    rw [metricAt_le_iff, (hs.step (.listen j l now)).reach_of_not_attached ht.topology hd hna]
    have htable : ((s.step (.listen j l now)).nodes j).shared.router.routingTable =
        newRoutes.foldl Router.updateRoute (s.nodes j).shared.router.routingTable := by
      simp only [TaskNetwork.step, put_nodes_self, Concurrent.step, hcase]
      rfl
    rw [htable]
    exact ⟨r.metric, r.nextHop, Option.map_eq_some_iff.mpr ⟨r, hfind, rfl⟩, hle⟩

omit ht hd in
theorem listeners_step (c : Concurrent σ κ) (a : Section σ) (l : σ) :
    (c.step a).listeners l = c.listeners l ∨ c.listeners l = .idle ∨ ∃ now, a = .listen l now := by
  cases a with
  | hello i message addr now =>
    left
    simp only [Concurrent.step]
    split <;> rfl
  | receive i update addr =>
    by_cases hi : l = i
    · subst hi
      cases hphase : c.listeners l with
      | idle => exact Or.inr (Or.inl rfl)
      | _ => exact Or.inl (by simp [Concurrent.step, hphase])
    · left
      simp only [Concurrent.step]
      split
      · split
        · rfl
        · exact Function.update_of_ne hi _ _
      · rfl
  | listen i now =>
    by_cases hi : l = i
    · subst hi
      exact Or.inr (Or.inr ⟨now, rfl⟩)
    · exact Or.inl (Function.update_of_ne hi _ _)
  | clean now => exact Or.inl rfl

omit ht hd [DecidableEq σ] [NetRoute κ] in
theorem update_listeners (s : TaskNetwork ι σ κ) (i j : ι) :
    ((s.update i).nodes j).listeners = (s.nodes j).listeners := by
  unfold update
  dsimp only
  cases s.updaters i with
  | idle =>
    dsimp only
    by_cases hj : j = i
    · subst hj
      rw [Function.update_self]
    · rw [Function.update_of_ne hj]
  | _ => rfl

/-- The metric is down to `m`, or the loop `l` will bring it there. -/
structure Pledged (start : ι → SimpleRoutingProtocol κ) (j : ι) (l : σ) (d : Ipv4Network) (m : ℕ)
    (s : TaskNetwork ι σ κ) : Prop where
  sound : Sound start s
  due : metricAt s.abstract d j ≤ m ∨ Promises (start j) d m ((s.nodes j).listeners l)

theorem Pledged.step {j : ι} {l : σ} {m : ℕ} (hna : ¬ Attached (start j) d) (h : Pledged start j l d m s)
    {a : NetworkAction ι σ} (hkept : (s.step a).removed d = s.removed d) : Pledged start j l d m (s.step a) := by
  refine ⟨h.sound.step a, ?_⟩
  rcases h.due with hle | hpromises
  · exact Or.inl ((metricAt_step ht hd h.sound hkept j).trans hle)
  · have hput (k : ι) (b : Section σ) (hno : ∀ now, k = j → b ≠ .listen l now) :
        Promises (start j) d m (((s.put k ((s.nodes k).step b)).nodes j).listeners l) := by
      by_cases hk : j = k
      · subst hk
        rw [put_nodes_self]
        rcases listeners_step (s.nodes j) b l with h | h | ⟨now, h⟩
        · rw [h]
          exact hpromises
        · rw [h] at hpromises
          exact hpromises.elim
        · exact absurd h (hno now rfl)
      · rw [put_nodes_of_ne s hk]
        exact hpromises
    cases a with
    | update i =>
      right
      rw [TaskNetwork.step, update_listeners]
      exact hpromises
    | receive n k l' =>
      right
      rcases receive_cases h.sound n k l' with he | ⟨g, -, he⟩
      · rw [TaskNetwork.step, he]
        exact hpromises
      · rw [TaskNetwork.step, he]
        exact hput k _ (fun now _ hb => by cases hb)
    | hello k l' message addr now => exact Or.inr (hput k _ (fun now _ hb => by cases hb))
    | listen k l' now =>
      by_cases hown : k = j ∧ l' = l
      · obtain ⟨rfl, rfl⟩ := hown
        exact (promises_listen ht hd h.sound hna hpromises hkept).symm
      · right
        apply hput k
        rintro now rfl hb
        obtain ⟨rfl, -⟩ := Section.listen.inj hb
        exact hown ⟨rfl, rfl⟩
    | clean k now => exact Or.inr (hput k _ (fun now _ hb => by cases hb))

theorem promises_receive {j k : ι} (hjk : j ≠ k) (hna : ¬ Attached (start j) d) {m first n : ℕ}
    (hs : Current start k d m first s) (hn : first ≤ n) {g : Datagram ι} (hg : s.sent[n]? = some g) (hk : g.origin = k)
    (hattached : Attached (start j) g.subnet) {l : σ} (hidle : (s.nodes j).listeners l = .idle) :
    Promises (start j) d (m + 1) (((s.step (.receive n j l)).nodes j).listeners l) := by
  obtain ⟨hid, r, hrd, hle, hentry⟩ := hs.sent n g hn hg hk
  obtain ⟨name, info, hlookup, hsource, hsubnet⟩ := hs.sound.collected g (hs.sound.sent (List.mem_of_getElem? hg))
  rw [hk] at hlookup
  -- nothing keeps the loop from taking it
  have hforeign : ∀ ip ∈ (s.nodes j).shared.ourIps, g.source.ip ≠ .v4 ip := by
    intro ip hip he
    rw [hsource] at he
    obtain rfl := IpAddr.v4.inj he
    rw [(hs.sound.same j).ourIps] at hip
    exact hjk (ht.topology.addresses j k info.ip hip (ht.topology.ourIps.mpr ⟨name, info, hlookup, rfl⟩))
  have hother : g.update.routerId ≠ (s.nodes j).shared.router.id := by
    rw [hid, (hs.sound.same j).id]
    exact fun h => hjk (ht.ids k j h).symm
  have htouching : ((s.step (.receive n j l)).nodes j).listeners l = .touching g.update g.source := by
    have htaken : s.receive n j l = s.put j ((s.nodes j).step (.receive l g.update g.source)) := by
      unfold TaskNetwork.receive
      rw [hg]
      exact if_pos ⟨((hs.sound.same j).attached g.subnet).mpr hattached, hforeign⟩
    rw [TaskNetwork.step, htaken]
    simp [Concurrent.step, hidle, hother]
  rw [htouching]
  refine ⟨info.ip, hsource, _, hentry, ?_⟩
  intro now
  obtain ⟨nameJ, ifaceJ, hlookupJ, hsubnetJ⟩ := hattached
  obtain ⟨installed, hw⟩ := (System.Sound.boot ht.topology.toTopology).node j
  obtain ⟨installedK, hwK⟩ := (System.Sound.boot ht.topology.toTopology).node k
  have hcontains : ifaceJ.network.contains info.ip = true := by
    rw [Ipv4Network.contains_of_subnet_eq (hsubnetJ.trans hsubnet), (hwK.interfaces name info hlookup).1]
    exact Ipv4Network.contains_addr info.network
  obtain ⟨route, hp, hroute, hmetric⟩ := Observed.processSingleRoute_entry hw hd hna hlookupJ hcontains hrd
    g.update.routerId now
  refine ⟨route, _, hp, hroute, ?_⟩
  calc route.metric.toNat = (r.metric + 1).toNat := congrArg UInt32.toNat hmetric
    _ = System.incr r.metric.toNat := (System.incr_toNat r.metric).symm
    _ ≤ r.metric.toNat + 1 := System.incr_le r.metric.toNat
    _ ≤ m + 1 := Nat.add_le_add_right hle 1

theorem metricAt_exchanged (hs : Sound start s) {actions : List (NetworkAction ι σ)} (hkept : Keeps s actions d) {j k : ι}
    (hjk : j ≠ k) (h : Exchanged start s actions j k) :
    metricAt (s.run actions).abstract d j ≤ metricAt s.abstract d k + 1 := by
  by_cases hna : Attached (start j) d
  · rw [System.metricAt_attached ht ((hs.run actions).abstract ht.topology) hna]
    exact zero_le
  · apply System.metricAt_le_of_bound
    intro m hm
    obtain ⟨before, sending, handling, after, n, l, rfl, hnot, hn, ⟨g, hg, hk, hattached⟩, hidle, hdone⟩ := h
    obtain ⟨hearly, hafter⟩ := hkept.append
    obtain ⟨hbefore, hlate⟩ := hearly.append
    obtain ⟨hsending, hlate⟩ := hlate.append
    obtain ⟨hreceive, hhandling⟩ := Keeps.append (a := [.receive n j l]) hlate
    -- the neighbour starts its update with a metric of at most `m`
    have hstart : Current start k d m (s.run before).sent.length (s.run before) := by
      refine ⟨hs.run before, (metricAt_run ht hd hs hbefore k).trans hm, fun update hu => absurd hu (hnot update), ?_⟩
      intro n' g' hn' hg' _
      obtain ⟨hlt, -⟩ := List.getElem?_eq_some_iff.mp hg'
      omega
    have hcurrent : Current start k d m (s.run before).sent.length ((s.run before).run sending) :=
      hsending.induction (fun t a ht' hsame => ht'.step ht hd hsame) hstart
    rw [run_append] at hg hidle
    let received := ((s.run before).run sending).step (.receive n j l)
    have hpledged : Pledged start j l d (m + 1) received :=
      ⟨hcurrent.sound.step _, Or.inr (promises_receive ht hd hjk hna hcurrent hn hg hk hattached hidle)⟩
    have hhandled : Pledged start j l d (m + 1) (received.run handling) :=
      hhandling.induction (fun t a ht' hsame => ht'.step ht hd hna hsame) hpledged
    have hrun : s.run (before ++ (sending ++ .receive n j l :: handling)) = received.run handling := by
      rw [run_append, run_append]
      rfl
    rw [hrun] at hdone
    have hle : metricAt (received.run handling).abstract d j ≤ (m + 1 : ℕ) := by
      rcases hhandled.due with hle | hpromises
      · exact hle
      · rw [hdone] at hpromises
        exact hpromises.elim
    rw [run_append, hrun]
    rw [hrun] at hafter
    exact (metricAt_run ht hd hhandled.sound hafter j).trans (by exact_mod_cast hle)

theorem metricAt_rounds {n : ℕ} {actions : List (NetworkAction ι σ)} (hs : Sound start s) (hkept : Keeps s actions d)
    (h : Rounds TaskNetwork.run (Round start) n s actions) (i : ι) (hi : dist start d i ≤ n) :
    metricAt (s.run actions).abstract d i ≤ dist start d i := by
  let value (s : TaskNetwork ι σ κ) (i : ι) : ℕ∞ := metricAt s.abstract d i
  have hgood : ∀ (s : TaskNetwork ι σ κ) as, Sound start s → Sound start (s.run as) := fun s as hs => hs.run as
  have hfall : ∀ s as, Sound start s → Keeps s as d → ∀ i, value (s.run as) i ≤ value s i :=
    fun s as hs has i => metricAt_run ht hd hs has i
  have hzero : ∀ s, Sound start s → ∀ t ∈ {k | Attached (start k) d}, value s t = 0 :=
    fun s hs t hattached => System.metricAt_attached ht (hs.abstract ht.topology) hattached
  have hround : ∀ s as, Sound start s → Keeps s as d → Round start s as →
      ∀ j k, (System.linkGraph start).Adj j k → value (s.run as) j ≤ value s k + 1 := by
    rintro s as hs has hround j k ⟨hjk, hlink⟩
    exact metricAt_exchanged ht hd hs has hjk (hround j k hjk hlink)
  have hbase : ∀ i, dist start d i ≤ (0 : ℕ) → value s i ≤ dist start d i := by
    intro i hi
    rw [hzero s hs i (System.dist_eq_zero_iff.mp (le_antisymm hi zero_le))]
    exact zero_le
  apply le_hops_of_rounds run_append (fun s a b => Keeps.append) hgood hfall hzero hround h hs hkept hbase
  rw [Nat.zero_add]
  exact hi

omit hd in
theorem runs_sound (actions : List (NetworkAction ι σ)) : Sound start ((boot start : TaskNetwork ι σ κ).run actions) :=
  (Sound.boot ht.topology.toTopology).run actions

omit hd in
theorem derived (actions : List (NetworkAction ι σ)) :
    System.Derived start ((boot start : TaskNetwork ι σ κ).run actions).abstract :=
  ⟨(runs_sound ht actions).abstract ht.topology, fun _ hd => view_run ht (runs_sound ht []) hd actions⟩

theorem metricAt_converged [Fintype ι] {before rest : List (NetworkAction ι σ)} (hcalm : Calm start before rest d) {n : ℕ}
    (h : Rounds TaskNetwork.run (Round start) n ((boot start).run before) rest) {i : ι} (hi : dist start d i ≤ n) :
    metricAt ((boot start).run (before ++ rest)).abstract d i = dist start d i := by
  apply le_antisymm
  · rw [run_append]
    exact metricAt_rounds ht hd (runs_sound ht before) hcalm.keeps h i hi
  · exact (derived ht (before ++ rest)).dist_le_metricAt ht hd hcalm.few_after i

/-- As `System.converges`, with the tasks of every router interleaved. -/
theorem tasks_converge [Fintype ι] {before rest : List (NetworkAction ι σ)} (hcalm : Calm start before rest d) {n : ℕ}
    (h : Rounds TaskNetwork.run (Round start) n ((boot start).run before) rest) :
    let s := (boot start).run (before ++ rest)
    ∀ i, dist start d i ≤ n →
      (∃ r ∈ (s.nodes i).shared.router.routingTable.routes, r.destination.subnet = d) ∧
        ∀ r ∈ (s.nodes i).shared.router.routingTable.routes, r.destination.subnet = d →
          (r.metric.toNat : ℕ∞) = dist start d i := by
  intro s i hi
  have hmetric : metricAt s.abstract d i = dist start d i := metricAt_converged ht hd hcalm h hi
  rw [← hmetric]
  apply System.entries_of_metricAt ht (derived ht (before ++ rest)).sound
  rw [hmetric]
  exact ne_top_of_le_ne_top (ENat.natCast_ne_top n) hi

end Rounds

/-! An exchange that can be checked: all in one round, which starts with the update task of the sender at rest. -/

section Check

variable {ι σ κ : Type} [DecidableEq ι] [DecidableEq σ] [IpNetwork] [NetRoute κ]

def Handled (start : ι → SimpleRoutingProtocol κ) (s : TaskNetwork ι σ κ) (round sending : List (NetworkAction ι σ)) (m : ℕ)
    (j k : ι) (l : σ) : Prop :=
  (∃ g ∈ (s.run sending).sent[m]?, g.origin = k ∧ Attached (start j) g.subnet) ∧
    ((s.run sending).nodes j).listeners l = .idle ∧ ((s.run round).nodes j).listeners l = .idle

instance (start : ι → SimpleRoutingProtocol κ) (s : TaskNetwork ι σ κ) (round sending : List (NetworkAction ι σ)) (m : ℕ)
    (j k : ι) (l : σ) : Decidable (Handled start s round sending m j k l) := inferInstanceAs (Decidable (_ ∧ _))

theorem exchanged_of_handled {start : ι → SimpleRoutingProtocol κ} {s : TaskNetwork ι σ κ} {n m : ℕ} {j k : ι} {l : σ}
    {round sending handling : List (NetworkAction ι σ)} (hquiet : (∀ k, s.updaters k = .idle) ∧ s.sent.length = n)
    (hm : n ≤ m) (hhandled : Handled start s round sending m j k l)
    (hround : round = sending ++ .receive m j l :: handling) :
    Exchanged start s round j k := by
  obtain ⟨hg, hidle, hdone⟩ := hhandled
  subst hround
  refine ⟨[], sending, handling, [], m, l, (List.append_nil _).symm, ?_, hquiet.2.trans_le hm, hg, hidle, hdone⟩
  intro update hupdate
  cases (hquiet.1 k).symm.trans hupdate

end Check

/-! The line again, where "B" takes the updates of "A" and "C" in two loops side by side. -/

section Line

open CustomOspf.System (line line_static line_links line_dist farNetwork)

local instance neZeroTasks : NeZero 3 := ⟨by decide⟩

def lineSending : List (NetworkAction (Fin 3) Bool) := (List.replicate 3 [.update 0, .update 1, .update 2]).flatten

def lineHandling (now : Instant) : List (NetworkAction (Fin 3) Bool) :=
  (List.replicate 8 [.listen 1 false now, .listen 1 true now, .listen 0 false now, .listen 2 false now]).flatten

def lineRound (n : ℕ) (now : Instant) : List (NetworkAction (Fin 3) Bool) :=
  lineSending ++ ([.receive n 1 false, .receive (n + 3) 0 false, .receive (n + 2) 2 false, .receive (n + 4) 1 true] ++
    lineHandling now)

def lineLost : List (NetworkAction (Fin 3) Bool) :=
  lineRound 0 0 ++ (lineRound 5 0 ++
    (List.replicate 6 [.clean 1 (Duration.fromSecs 20), .clean 2 (Duration.fromSecs 20)]).flatten)

def lineAgain : List (NetworkAction (Fin 3) Bool) :=
  lineRound 10 (Duration.fromSecs 21) ++ lineRound 15 (Duration.fromSecs 21)

theorem line_round {s : TaskNetwork (Fin 3) Bool (Finset SystemRoute)} {n : ℕ} (now : Instant)
    (h : ((∀ k, s.updaters k = .idle) ∧ s.sent.length = n) ∧
      Handled line s (lineRound n now) lineSending n 1 0 false ∧
      Handled line s (lineRound n now) (lineSending ++ [.receive n 1 false]) (n + 3) 0 1 false ∧
      Handled line s (lineRound n now) (lineSending ++ [.receive n 1 false, .receive (n + 3) 0 false]) (n + 2) 2 1 false ∧
      Handled line s (lineRound n now)
        (lineSending ++ [.receive n 1 false, .receive (n + 3) 0 false, .receive (n + 2) 2 false]) (n + 4) 1 2 true) :
    Round line s (lineRound n now) := by
  obtain ⟨hquiet, h01, h10, h12, h21⟩ := h
  intro j k hjk hlink
  rcases line_links hjk hlink with ⟨rfl, rfl⟩ | ⟨rfl, rfl⟩ | ⟨rfl, rfl⟩ | ⟨rfl, rfl⟩
  · exact exchanged_of_handled hquiet (by omega) h01 rfl
  · exact exchanged_of_handled hquiet (by omega) h10 rfl
  · exact exchanged_of_handled hquiet (by omega) h12 rfl
  · exact exchanged_of_handled hquiet (by omega) h21 rfl

theorem line_rounds : Rounds TaskNetwork.run (Round line) 2 ((boot line).run lineLost) lineAgain := by
  rw [lineAgain, ← List.append_nil (lineRound 15 _)]
  apply Rounds.succ
  · apply line_round
    decide +kernel
  · apply Rounds.succ
    · apply line_round
      decide +kernel
    · exact Rounds.zero _ _

theorem line_calm : Calm line lineLost lineAgain farNetwork := by
  have hlost : ((boot line).run lineLost).removed farNetwork = 2 := by decide +kernel
  have hagain : (((boot line).run lineLost).run lineAgain).removed farNetwork = 2 := by decide +kernel
  have hcard : Fintype.card (Fin 3) = 3 := rfl
  constructor
  · exact hagain.trans hlost.symm
  · omega

theorem tasks_converge_line :
    let s := (boot line).run (lineLost ++ lineAgain)
    (∃ r ∈ (s.nodes 2).shared.router.routingTable.routes, r.destination.subnet = farNetwork) ∧
      ∀ r ∈ (s.nodes 2).shared.router.routingTable.routes, r.destination.subnet = farNetwork →
        (r.metric.toNat : ℕ∞) = dist line farNetwork 2 := by
  have hd : farNetwork.subnet = farNetwork := by decide +kernel
  exact tasks_converge line_static hd line_calm line_rounds 2 line_dist

end Line

end CustomOspf.TaskNetwork
