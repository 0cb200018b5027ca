import CustomOspf.Convergence
import CustomOspf.SharedTable

/-!
The network again, with the tasks of a router at work side by side: the update
task, a listen loop for each socket and the cleanup task give up the locks between
their sections, and the sections of all routers follow each other in any order.
-/

namespace CustomOspf

open SimpleRoutingProtocol

/-- Where the update task stands in `send_routing_updates`. -/
inductive UpdatePhase where
  | idle
  | numbered (sequence : UInt64)
  | collected (update : RoutingUpdate)
deriving DecidableEq

/-- Beside what is on the wire, all that was ever to be sent, and how often a router has lost its route to a network. -/
structure TaskNetwork (ι σ κ : Type) where
  nodes : ι → Concurrent σ κ
  updaters : ι → UpdatePhase
  sent : List (Datagram ι)
  collected : List (Datagram ι)
  removed : Ipv4Network → ℕ

inductive NetworkAction (ι σ : Type) where
  | update (i : ι)
  | receive (n : ℕ) (j : ι) (l : σ)
  | hello (j : ι) (l : σ) (message : HelloMessage) (addr : SocketAddr) (now : Instant)
  | listen (j : ι) (l : σ) (now : Instant)
  | clean (j : ι) (now : Instant)

namespace TaskNetwork

section Model

variable {ι σ κ : Type} [DecidableEq ι] [DecidableEq σ] [IpNetwork] [NetRoute κ]

def boot (start : ι → SimpleRoutingProtocol κ) : TaskNetwork ι σ κ :=
  ⟨fun i => Concurrent.start (start i), fun _ => .idle, [], [], fun _ => 0⟩

def datagrams (i : ι) (p : SimpleRoutingProtocol κ) (update : RoutingUpdate) : List (Datagram ι) :=
  p.router.interfaces.entries.map (fun e => ⟨i, ⟨.v4 e.2.ip, p.port⟩, e.2.network.subnet, update⟩)

/-- The next section of `send_routing_updates`: one under the lock of the sequence number, two under that of the
router. -/
def update (s : TaskNetwork ι σ κ) (i : ι) : TaskNetwork ι σ κ :=
  let c := s.nodes i
  match s.updaters i with
  | .idle =>
    let number := c.shared.sequence + 1
    { s with
      nodes := Function.update s.nodes i { c with shared := { c.shared with sequence := number } }
      updaters := Function.update s.updaters i (.numbered number) }
  | .numbered number =>
    let update := buildUpdate number c.shared.router
    { s with
      updaters := Function.update s.updaters i (.collected update)
      collected := s.collected ++ datagrams i c.shared update }
  | .collected update =>
    { s with
      updaters := Function.update s.updaters i .idle
      sent := s.sent ++ datagrams i c.shared update }

def put (s : TaskNetwork ι σ κ) (j : ι) (c : Concurrent σ κ) : TaskNetwork ι σ κ :=
  { s with
    nodes := Function.update s.nodes j c
    removed := fun d =>
      if learned (s.nodes j).shared d && !learned c.shared d then s.removed d + 1 else s.removed d }

def receive (s : TaskNetwork ι σ κ) (n : ℕ) (j : ι) (l : σ) : TaskNetwork ι σ κ :=
  match s.sent[n]? with
  | some g =>
    if Attached (s.nodes j).shared g.subnet ∧ ∀ ip ∈ (s.nodes j).shared.ourIps, g.source.ip ≠ .v4 ip then
      s.put j ((s.nodes j).step (.receive l g.update g.source))
    else s
  | none => s

def step (s : TaskNetwork ι σ κ) : NetworkAction ι σ → TaskNetwork ι σ κ
  | .update i => s.update i
  | .receive n j l => s.receive n j l
  | .hello j l message addr now => s.put j ((s.nodes j).step (.hello l message addr now))
  | .listen j l now => s.put j ((s.nodes j).step (.listen l now))
  | .clean j now => s.put j ((s.nodes j).step (.clean now))

def run (s : TaskNetwork ι σ κ) (actions : List (NetworkAction ι σ)) : TaskNetwork ι σ κ := actions.foldl step s

/-- The network at one moment, without the work in hand and with the records of the tables left out. -/
def abstract (s : TaskNetwork ι σ κ) : System ι κ :=
  ⟨fun i => { (s.nodes i).shared with routeStates := ∅ }, s.collected, s.removed⟩

omit [DecidableEq σ] [NetRoute κ] in
/-- Without interleaving the sections make up the whole of `send_routing_updates`. -/
theorem update_undisturbed {s : TaskNetwork ι σ κ} {i : ι} (h : s.updaters i = .idle) :
    let t := ((s.update i).update i).update i
    t.abstract = s.abstract.broadcast i ∧ t.updaters = s.updaters ∧
      ∃ sends, t.collected = s.collected ++ sends ∧ t.sent = s.sent ++ sends := by
  let c := s.nodes i
  let p : SimpleRoutingProtocol κ := { c.shared with sequence := c.shared.sequence + 1 }
  let sends := datagrams i p (buildUpdate p.sequence p.router)
  have hnumber : s.update i = { s with
      nodes := Function.update s.nodes i { c with shared := p }
      updaters := Function.update s.updaters i (.numbered p.sequence) } := by
    simp only [update, h, c, p]
  have hthree : ((s.update i).update i).update i = { s with
      nodes := Function.update s.nodes i { c with shared := p }
      collected := s.collected ++ sends
      sent := s.sent ++ sends } := by
    rw [hnumber]
    simp only [update, Function.update_self, Function.update_idem]
    rw [← h, Function.update_eq_self]
  intro t
  have ht : t = _ := hthree
  rw [ht]
  refine ⟨?_, rfl, sends, rfl, rfl⟩
  have hnodes : (fun k => { (Function.update s.nodes i { c with shared := p } k).shared with routeStates := ∅ }) =
      Function.update (fun k => { (s.nodes k).shared with routeStates := ∅ }) i { p with routeStates := ∅ } := by
    funext k
    exact Function.apply_update (fun _ (c : Concurrent σ κ) => { c.shared with routeStates := ∅ }) s.nodes i _ k
  have hsends : sends = (sendRoutingUpdates (s.abstract.nodes i)).2.map
      (fun m => ⟨i, ⟨.v4 m.1.ip, p.port⟩, m.1.network.subnet, m.2⟩) := by
    simp only [sendRoutingUpdates, List.map_map]
    rfl
  unfold abstract System.broadcast
  rw [System.mk.injEq]
  exact ⟨hnodes, congrArg (s.collected ++ ·) hsends, rfl⟩

def Heard (start : ι → SimpleRoutingProtocol κ) (collected : List (Datagram ι)) (j : ι) (r : RouteEntry) : Prop :=
  ∃ g ∈ collected, Attached (start j) g.subnet ∧ ∃ sender, g.source.ip = .v4 sender ∧ ∃ info ∈ g.update.routes,
    ∃ now state, RouteManager.processSingleRoute info g.update.routerId sender (start j).router.interfaces now =
      some (r, state)

omit [DecidableEq ι] [NetRoute κ] in
theorem Heard.shape {start : ι → SimpleRoutingProtocol κ} {collected : List (Datagram ι)} {j : ι} {r : RouteEntry}
    (h : Heard start collected j r) : r.source = .protocol ∧ r.destination.subnet = r.destination := by
  obtain ⟨g, -, -, sender, -, info, -, now, state, hp⟩ := h
  obtain ⟨d, nh, name, iface, hd, -, -, -, rfl, -⟩ := RouteManager.processSingleRoute_iff.mp hp
  exact ⟨rfl, RouteManager.destinationOf_subnet hd⟩

omit [DecidableEq ι] [NetRoute κ] in
theorem Heard.mono {start : ι → SimpleRoutingProtocol κ} {collected later : List (Datagram ι)} {j : ι} {r : RouteEntry}
    (hsub : collected ⊆ later) (h : Heard start collected j r) : Heard start later j r := by
  obtain ⟨g, hg, hrest⟩ := h
  exact ⟨g, hsub hg, hrest⟩

structure Sourced (start : ι → SimpleRoutingProtocol κ) (collected : List (Datagram ι)) (j : ι) (t : RoutingTable κ) : Prop
    extends WellShaped t where
  source : ∀ r ∈ t.routes, (∃ name info, (start j).router.interfaces.lookup name = some info ∧
    r = Router.directRoute name info) ∨ Heard start collected j r

def hearsay (start : ι → SimpleRoutingProtocol κ) (collected : List (Datagram ι)) (j : ι) : TableInvariant κ where
  offered _ := Heard start collected j
  holds := Sourced start collected j
  distinct _ h := h.distinct
  updateRoute t route h hr := by
    refine ⟨h.toWellShaped.updateRoute hr.shape.2, ?_⟩
    intro r hm
    have hfind := (RoutingTable.findRoute_iff (Router.updateRoute_distinct h.distinct route)).mpr ⟨hm, rfl⟩
    rw [Router.findRoute_updateRoute h.distinct] at hfind
    split at hfind
    · have horigin := @Router.offers_origin t.isValidRoute [route] (t.findRoute r.destination) r hfind
      rcases horigin with hold | ⟨hnew, -⟩
      · exact h.source r (RoutingTable.findRoute_mem hold)
      · obtain rfl := List.mem_singleton.mp hnew
        exact Or.inr hr
    · exact h.source r (RoutingTable.findRoute_mem hfind)
  removeRoute t route h := by
    have hmem {r : RouteEntry} (hr : r ∈ (t.removeRoute route).routes) : r ∈ t.routes :=
      ((RouteManager.mem_removeRoute h.distinct).mp hr).1
    exact ⟨shape.removeRoute t route h.toWellShaped, fun r hr => h.source r (hmem hr)⟩
  removeVia t nextHop h :=
    ⟨shape.removeVia t nextHop h.toWellShaped, fun r hr => h.source r (RoutingTable.mem_removeRoutesViaNexthop.mp hr).1⟩

omit [DecidableEq σ] [DecidableEq ι] in
theorem kept_mono {start : ι → SimpleRoutingProtocol κ} {collected later : List (Datagram ι)} {j : ι}
    {c : Concurrent σ κ} (hsub : collected ⊆ later) (h : (hearsay start collected j).Kept (start j) c) :
    (hearsay start later j).Kept (start j) c := by
  refine ⟨⟨h.table.toWellShaped, ?_⟩, h.same, ?_⟩
  · intro r hr
    exact (h.table.source r hr).imp_right (Heard.mono hsub)
  · intro l
    apply (h.listeners l).imp
    intro r hr
    exact Heard.mono hsub hr

structure Sound (start : ι → SimpleRoutingProtocol κ) (s : TaskNetwork ι σ κ) : Prop where
  direct : ∀ i, Concurrent.KeepsDirect (start i) (s.nodes i)
  kept : ∀ i, (hearsay start s.collected i).Kept (start i) (s.nodes i)
  port : ∀ i, (s.nodes i).shared.port = (start i).port
  collected : ∀ g ∈ s.collected, ∃ name info, (start g.origin).router.interfaces.lookup name = some info ∧
    g.source.ip = .v4 info.ip ∧ g.subnet = info.network.subnet
  sent : s.sent ⊆ s.collected
  updaters : ∀ i update, s.updaters i = .collected update → datagrams i (start i) update ⊆ s.collected

theorem step_port (c : Concurrent σ κ) (a : Section σ) : (c.step a).shared.port = c.shared.port := by
  cases a with
  | hello l message addr now =>
    simp only [Concurrent.step]
    split
    · obtain ⟨neighbors, hn⟩ := handleHelloMessageStatic_eq message addr now c.shared
      rw [hn]
    · rfl
  | receive l update addr =>
    simp only [Concurrent.step]
    split
    · split <;> rfl
    · rfl
  | listen l now =>
    simp only [Concurrent.step]
    cases c.listeners l with
    | testing advertiser sender interfaces started routes collected => cases routes <;> rfl
    | _ => rfl
  | clean now =>
    simp only [Concurrent.step]
    cases c.cleaner <;> rfl

omit [DecidableEq σ] [IpNetwork] [NetRoute κ] in
@[simp] theorem put_nodes_self (s : TaskNetwork ι σ κ) (j : ι) (c : Concurrent σ κ) : (s.put j c).nodes j = c :=
  Function.update_self _ _ _

omit [DecidableEq σ] [IpNetwork] [NetRoute κ] in
theorem put_nodes_of_ne (s : TaskNetwork ι σ κ) {i j : ι} (h : i ≠ j) (c : Concurrent σ κ) :
    (s.put j c).nodes i = s.nodes i := Function.update_of_ne h _ _

omit [DecidableEq ι] [NetRoute κ] in
theorem mem_datagrams {i : ι} {p : SimpleRoutingProtocol κ} {update : RoutingUpdate} {g : Datagram ι} :
    g ∈ datagrams i p update ↔ ∃ name info, p.router.interfaces.lookup name = some info ∧
      g = ⟨i, ⟨.v4 info.ip, p.port⟩, info.network.subnet, update⟩ := by
  simp only [datagrams, List.mem_map, Sigma.exists, Dictionary.mem_entries, eq_comm]

variable {start : ι → SimpleRoutingProtocol κ} {s : TaskNetwork ι σ κ}

section Starts

omit [DecidableEq ι] [DecidableEq σ]

theorem Sound.boot (ht : System.Topology start) : Sound start (boot start : TaskNetwork ι σ κ) := by
  refine ⟨?_, ?_, fun i => rfl, fun g hg => absurd hg List.not_mem_nil, List.Subset.refl _, fun i update h => ?_⟩
  · intro i
    obtain ⟨routerId, hosts, hostsAtTable, names, port, handle, hnew⟩ := ht.booted i
    exact ⟨Permanent.new hnew, fun l => trivial, .refl _⟩
  · intro i
    obtain ⟨routerId, hosts, hostsAtTable, names, port, handle, hnew⟩ := ht.booted i
    apply TableInvariant.Kept.start
    refine ⟨WellShaped.new hnew, ?_⟩
    intro r hr
    rcases (Observed.WellFormed.new hnew).routes r hr with hdirect | ⟨-, -, -, hi⟩
    · exact Or.inl hdirect
    · cases hi
  · cases h

theorem Sound.same (hs : Sound start s) (i : ι) : SameRouter (start i) (s.nodes i).shared := (hs.direct i).same

theorem Sound.datagrams (hs : Sound start s) (i : ι) (update : RoutingUpdate) :
    datagrams i (s.nodes i).shared update = TaskNetwork.datagrams i (start i) update := by
  unfold TaskNetwork.datagrams
  rw [(hs.same i).interfaces, hs.port i]

end Starts

omit [DecidableEq σ] in
theorem Sound.change (hs : Sound start s) {j : ι} {c : Concurrent σ κ} (hdirect : Concurrent.KeepsDirect (start j) c)
    (hkept : (hearsay start s.collected j).Kept (start j) c) (hport : c.shared.port = (start j).port)
    {updaters : ι → UpdatePhase} {removed : Ipv4Network → ℕ}
    (hupdaters : ∀ i update, updaters i = .collected update → TaskNetwork.datagrams i (start i) update ⊆ s.collected) :
    Sound start { s with nodes := Function.update s.nodes j c, updaters := updaters, removed := removed } := by
  have hnode {P : ι → Concurrent σ κ → Prop} (hj : P j c) (h : ∀ i, P i (s.nodes i)) (i : ι) :
      P i (Function.update s.nodes j c i) := by
    by_cases hi : i = j
    · subst hi
      rw [Function.update_self]
      exact hj
    · rw [Function.update_of_ne hi]
      exact h i
  refine ⟨?_, ?_, ?_, hs.collected, hs.sent, hupdaters⟩
  · exact hnode (P := fun i => Concurrent.KeepsDirect (start i)) hdirect hs.direct
  · exact hnode (P := fun i => (hearsay start s.collected i).Kept (start i)) hkept hs.kept
  · exact hnode (P := fun i c => c.shared.port = (start i).port) hport hs.port

theorem Sound.put (hs : Sound start s) {j : ι} {a : Section σ} (ha : (hearsay start s.collected j).Fits (start j) a) :
    Sound start (s.put j ((s.nodes j).step a)) :=
  hs.change ((hs.direct j).step a) ((hs.kept j).step ha) ((step_port (s.nodes j) a).trans (hs.port j)) hs.updaters

theorem receive_cases (hs : Sound start s) (n : ℕ) (j : ι) (l : σ) : s.receive n j l = s ∨
    ∃ g : Datagram ι, (hearsay start s.collected j).Fits (start j) (.receive l g.update g.source) ∧
      s.receive n j l = s.put j ((s.nodes j).step (.receive l g.update g.source)) := by
  unfold TaskNetwork.receive
  cases hg : s.sent[n]? with
  | none => exact Or.inl rfl
  | some g =>
    dsimp only
    split
    · next hin =>
      refine Or.inr ⟨g, ?_, rfl⟩
      intro sender hsender info hinfo now route state hp
      exact ⟨g, hs.sent (List.mem_of_getElem? hg), ((hs.same j).attached g.subnet).mp hin.1, sender, hsender, info, hinfo,
        now, state, hp⟩
    · exact Or.inl rfl

omit [DecidableEq σ] in
theorem Sound.update (hs : Sound start s) (i : ι) : Sound start (s.update i) := by
  have hupdaters {phase : UpdatePhase} {later : List (Datagram ι)} (hsub : s.collected ⊆ later)
      (hphase : ∀ update, phase = .collected update → TaskNetwork.datagrams i (start i) update ⊆ later) :
      ∀ j update, Function.update s.updaters i phase j = .collected update →
        TaskNetwork.datagrams j (start j) update ⊆ later := by
    intro j update hj
    by_cases hij : j = i
    · subst hij
      rw [Function.update_self] at hj
      exact hphase update hj
    · rw [Function.update_of_ne hij] at hj
      exact List.Subset.trans (hs.updaters j update hj) hsub
  cases hphase : s.updaters i with
  | idle =>
    simp only [TaskNetwork.update, hphase]
    let p := (s.nodes i).shared
    have hsame : SameRouter p { p with sequence := p.sequence + 1 } := ⟨rfl, rfl, rfl, rfl⟩
    have hdirect := hs.direct i
    have hkept := hs.kept i
    apply hs.change (c := { s.nodes i with shared := { p with sequence := p.sequence + 1 } })
    · exact ⟨⟨hdirect.shared.distinct, hdirect.shared.direct, hdirect.shared.records⟩,
        fun l => (hdirect.listeners l).congr hsame, hdirect.same.trans hsame⟩
    · exact ⟨hkept.table, hkept.same.trans hsame, hkept.listeners⟩
    · exact hs.port i
    · apply hupdaters (List.Subset.refl _)
      intro update hupdate
      cases hupdate
  | numbered number =>
    simp only [TaskNetwork.update, hphase]
    rw [hs.datagrams]
    have hsub := List.subset_append_left s.collected
      (TaskNetwork.datagrams i (start i) (buildUpdate number (s.nodes i).shared.router))
    refine ⟨hs.direct, ?_, hs.port, ?_, List.Subset.trans hs.sent hsub, hupdaters hsub ?_⟩
    · exact fun j => kept_mono hsub (hs.kept j)
    · intro g hg
      rcases List.mem_append.mp hg with hg | hg
      · exact hs.collected g hg
      · obtain ⟨name, info, hl, rfl⟩ := mem_datagrams.mp hg
        exact ⟨name, info, hl, rfl, rfl⟩
    · rintro update ⟨⟩
      exact List.subset_append_right _ _
  | collected update =>
    simp only [TaskNetwork.update, hphase]
    rw [hs.datagrams]
    refine ⟨hs.direct, hs.kept, hs.port, hs.collected, List.append_subset.mpr ⟨hs.sent, hs.updaters i update hphase⟩,
      hupdaters (List.Subset.refl _) ?_⟩
    intro update hupdate
    cases hupdate

theorem Sound.step (hs : Sound start s) (a : NetworkAction ι σ) : Sound start (s.step a) := by
  cases a with
  | update i => exact hs.update i
  | receive n j l =>
    rcases receive_cases hs n j l with h | ⟨g, hfits, h⟩
    · rw [TaskNetwork.step, h]
      exact hs
    · rw [TaskNetwork.step, h]
      exact hs.put hfits
  | hello j l message addr now => exact hs.put trivial
  | listen j l now => exact hs.put trivial
  | clean j now => exact hs.put trivial

theorem Sound.run (hs : Sound start s) (actions : List (NetworkAction ι σ)) : Sound start (s.run actions) := by
  induction actions generalizing s with
  | nil => exact hs
  | cons a actions ih => exact ih (hs.step a)

theorem kept_step {I : ι → TableInvariant κ} (hs : Sound start s)
    (hoffered : ∀ j r, Heard start s.collected j r → (I j).Offered (start j) r)
    (h : ∀ i, (I i).Kept (start i) (s.nodes i)) (a : NetworkAction ι σ) (i : ι) :
    (I i).Kept (start i) ((s.step a).nodes i) := by
  have hput (j : ι) {b : Section σ} (hfits : (hearsay start s.collected j).Fits (start j) b) :
      (I i).Kept (start i) ((s.put j ((s.nodes j).step b)).nodes i) := by
    by_cases hi : i = j
    · subst hi
      have hfits' : (I i).Fits (start i) b := TableInvariant.Fits.imp (I := hearsay start s.collected i) (hoffered i) hfits
      rw [put_nodes_self]
      exact (h i).step hfits'
    · rw [put_nodes_of_ne s hi]
      exact h i
  cases a with
  | update j =>
    simp only [TaskNetwork.step, TaskNetwork.update]
    cases s.updaters j with
    | idle =>
      dsimp only
      by_cases hi : i = j
      · subst hi
        rw [Function.update_self]
        exact ⟨(h i).table, (h i).same.trans ⟨rfl, rfl, rfl, rfl⟩, (h i).listeners⟩
      · rw [Function.update_of_ne hi]
        exact h i
    | numbered number => exact h i
    | collected update => exact h i
  | receive n j l =>
    rcases receive_cases hs n j l with he | ⟨g, hfits, he⟩
    · rw [TaskNetwork.step, he]
      exact h i
    · rw [TaskNetwork.step, he]
      exact hput j hfits
  | hello j l message addr now => exact hput j trivial
  | listen j l now => exact hput j trivial
  | clean j now => exact hput j trivial

/-! The tables of the routers are such as a router has that does one thing at a time. -/

def emptied (p : SimpleRoutingProtocol κ) : Observed κ :=
  ⟨{ p with routeStates := ∅ }, fun _ => some ⟨"", 0⟩⟩

section Abstraction

omit [DecidableEq ι] [DecidableEq σ]

theorem Sound.wellFormed (ht : System.LocalTopology start) (hs : Sound start s) (i : ι) :
    Observed.WellFormed (emptied (s.nodes i).shared) := by
  have hsame := hs.same i
  have hlisted : Listed (s.nodes i).shared := hsame.listed.mpr (ht.listed i)
  have htable := (hs.kept i).table
  obtain ⟨routerId, hosts, hostsAtTable, names, port, handle, hnew⟩ := ht.booted i
  have hforeign {r : RouteEntry} (hv : ∀ net ∈ (s.nodes i).shared.router.routingTable.localNetworks,
      r.destination.subnet ≠ net.subnet) :
      RouteManager.isOurNetwork r.destination (s.nodes i).shared.router.interfaces = false := by
    rw [Bool.eq_false_iff]
    intro h
    obtain ⟨name, info, hl, he⟩ := RouteManager.isOurNetwork_iff.mp h
    exact hv info.network (hlisted name info hl) (by rw [he])
  refine ⟨htable.distinct, ?_, ?_, ?_, ?_, ?_⟩
  · intro name info hl
    apply (Observed.WellFormed.new hnew).interfaces name info
    rw [← hl]
    exact congrArg (AList.lookup name) hsame.interfaces.symm
  · intro r hr
    rcases htable.source r hr with ⟨name, info, hl, rfl⟩ | hheard
    · left
      refine ⟨name, info, ?_, rfl⟩
      rw [← hl]
      exact congrArg (AList.lookup name) hsame.interfaces
    · obtain ⟨hp, hn⟩ := hheard.shape
      have hv := (htable.learned r hr hp).2
      exact Or.inr ⟨hp, hn, hforeign ((RoutingTable.isValidRoute_protocol hp).mp hv).2.2.1, rfl⟩
  · intro r hr
    rcases htable.source r hr with ⟨name, info, hl, rfl⟩ | hheard
    · exact RoutingTable.isValidRoute_direct rfl
    · exact (htable.learned r hr hheard.shape.1).2
  · intro name info hl
    obtain ⟨r, hr, hdest, hd, -⟩ := (hs.direct i).shared.direct name info hl
    exact ⟨r, hr, hd, hdest⟩
  · intro k state hl
    cases hl

theorem Sound.abstract (ht : System.LocalTopology start) (hs : Sound start s) : System.Sound start s.abstract :=
  ⟨fun i => ⟨_, hs.wellFormed ht i⟩, fun i => (hs.same i).trans ⟨rfl, rfl, rfl, rfl⟩, hs.collected⟩

theorem Sound.reach_attached (ht : System.LocalTopology start) (hs : Sound start s) {j : ι} {d : Ipv4Network}
    (ha : Attached (start j) d) : reach (s.nodes j).shared d = some (0, .unspecified) :=
  Observed.reach_attached (hs.wellFormed ht j) ((hs.same j).listed.mpr (ht.listed j)) (((hs.same j).attached d).mpr ha)

theorem Sound.reach_of_not_attached (ht : System.LocalTopology start) (hs : Sound start s) {j : ι} {d : Ipv4Network}
    (hd : d.subnet = d) (hna : ¬ Attached (start j) d) : reach (s.nodes j).shared d =
      ((s.nodes j).shared.router.routingTable.findRoute d).map (fun r => (r.metric, r.nextHop)) :=
  Observed.reach_of_not_attached (hs.wellFormed ht j) hd (fun ha => hna (((hs.same j).attached d).mp ha))

end Abstraction

omit [DecidableEq σ] [DecidableEq ι] in
theorem Sound.heard_valid (ht : System.Static start) (hs : Sound start s) {j : ι} {r : RouteEntry}
    (hr : Heard start s.collected j r) (hna : ¬ Attached (start j) r.destination) :
    (s.nodes j).shared.router.routingTable.isValidRoute r = true := by
  obtain ⟨hsource, hn⟩ := hr.shape
  obtain ⟨g, -, -, sender, -, info, -, now, state, hp⟩ := hr
  obtain ⟨name, iface, hl, hc⟩ := RouteManager.processSingleRoute_onLink hp
  obtain ⟨hsound, honly⟩ := ht.node (hs.abstract ht.topology) j
  rw [← (hs.same j).interfaces] at hl
  refine (hsound.isValidRoute_iff hsource hl hc).mpr ?_
  intro net hnet he
  obtain ⟨name, info, hlookup, rfl⟩ := honly net hnet
  apply hna
  rw [← (hs.same j).attached]
  exact ⟨name, info, hlookup, he.symm.trans hn⟩

/-! What a section of a listen loop or of the cleanup task does to the route to one network. -/

/-- `p` before the section and `q` after it. -/
inductive Revised (start : ι → SimpleRoutingProtocol κ) (collected : List (Datagram ι)) (j : ι) (d : Ipv4Network)
    (p q : SimpleRoutingProtocol κ) : Prop where
  | same (h : reach q d = reach p d)
  | lost (hna : ¬ Attached (start j) d) (h : reach q d = none)
  | learned (r : RouteEntry) (hr : Heard start collected j r) (hd : r.destination = d)
      (hv : p.router.routingTable.isValidRoute r = true) (hq : reach q d = some (r.metric, r.nextHop))
      (hle : ∀ m ip, reach p d = some (m, ip) → r.metric.toNat ≤ m.toNat)

section Sections

variable (ht : System.Static start) (hs : Sound start s) {d : Ipv4Network} (hd : d.subnet = d) {j : ι}

include ht hs hd

omit [DecidableEq σ] [DecidableEq ι] in
theorem apply_least {newRoutes : List RouteEntry} (hnew : ∀ r ∈ newRoutes, Heard start s.collected j r)
    (hna : ¬ Attached (start j) d) {m : ℕ}
    (hm : (∃ existing ∈ (s.nodes j).shared.router.routingTable.findRoute d, existing.metric.toNat ≤ m) ∨
      ∃ r ∈ newRoutes, r.destination = d ∧ r.metric.toNat ≤ m) :
    ∃ r, (newRoutes.foldl Router.updateRoute (s.nodes j).shared.router.routingTable).findRoute d = some r ∧
      r.metric.toNat ≤ m := by
  rw [Router.findRoute_updateRoutes (hs.kept j).table.distinct]
  apply Router.offers_least
  · intro r hr
    obtain ⟨hmem, he⟩ := List.mem_filter.mp hr
    obtain rfl := of_decide_eq_true he
    exact hs.heard_valid ht (hnew r hmem) hna
  · rcases hm with hold | ⟨r, hr, hrd, hle⟩
    · exact Or.inl hold
    · exact Or.inr ⟨r, List.mem_filter.mpr ⟨hr, decide_eq_true hrd⟩, hle⟩

omit ht hs hd [DecidableEq ι] [DecidableEq σ] [NetRoute κ] in
theorem revised_of_router {c : Concurrent σ κ} (h : c.shared.router = (s.nodes j).shared.router) :
    Revised start s.collected j d (s.nodes j).shared c.shared := by
  apply Revised.same
  unfold reach
  rw [h]

omit hd [DecidableEq σ] in
theorem revised_attached {c : Concurrent σ κ} (hs' : Sound start (s.put j c)) (ha : Attached (start j) d) :
    Revised start s.collected j d (s.nodes j).shared c.shared := by
  have hafter := hs'.reach_attached ht.topology ha
  rw [put_nodes_self] at hafter
  exact Revised.same (hafter.trans (hs.reach_attached ht.topology ha).symm)

theorem revised_applying {a : Section σ} (hs' : Sound start (s.put j ((s.nodes j).step a))) {newRoutes : List RouteEntry}
    (hnew : ∀ r ∈ newRoutes, Heard start s.collected j r)
    (hq : ((s.nodes j).step a).shared.router.routingTable =
      newRoutes.foldl Router.updateRoute (s.nodes j).shared.router.routingTable) :
    Revised start s.collected j d (s.nodes j).shared ((s.nodes j).step a).shared := by
  by_cases hna : Attached (start j) d
  · exact revised_attached ht hs hs' hna
  · have hbefore := hs.reach_of_not_attached ht.topology hd hna
    have hafter := hs'.reach_of_not_attached ht.topology hd hna
    rw [put_nodes_self, hq] at hafter
    cases hfind : (newRoutes.foldl Router.updateRoute (s.nodes j).shared.router.routingTable).findRoute d with
    | none =>
      rw [hfind] at hafter
      exact Revised.lost hna hafter
    | some r =>
      rw [hfind] at hafter
      have horigin := hfind
      rw [Router.findRoute_updateRoutes (hs.kept j).table.distinct] at horigin
      rcases Router.offers_origin r horigin with hold | ⟨hr, hv⟩
      · apply Revised.same
        rw [hafter, hbefore, hold]
      · obtain ⟨hmem, he⟩ := List.mem_filter.mp hr
        refine Revised.learned r (hnew r hmem) (of_decide_eq_true he) hv hafter ?_
        intro m ip hm
        rw [hbefore] at hm
        obtain ⟨existing, hex, hpair⟩ := Option.map_eq_some_iff.mp hm
        obtain ⟨rfl, rfl⟩ := Prod.mk.inj hpair
        obtain ⟨r', hr', hle⟩ := apply_least ht hs hd hnew hna (Or.inl ⟨existing, hex, le_refl _⟩)
        obtain rfl := Option.some.inj (hfind.symm.trans hr')
        exact hle

theorem revised_removing {a : Section σ} (hs' : Sound start (s.put j ((s.nodes j).step a)))
    (hsub : ∀ r ∈ ((s.nodes j).step a).shared.router.routingTable.routes,
      r ∈ (s.nodes j).shared.router.routingTable.routes) :
    Revised start s.collected j d (s.nodes j).shared ((s.nodes j).step a).shared := by
  by_cases hna : Attached (start j) d
  · exact revised_attached ht hs hs' hna
  · have hafter := hs'.reach_of_not_attached ht.topology hd hna
    rw [put_nodes_self] at hafter
    cases hfind : ((s.nodes j).step a).shared.router.routingTable.findRoute d with
    | none =>
      rw [hfind] at hafter
      exact Revised.lost hna hafter
    | some r =>
      rw [hfind] at hafter
      have hold : (s.nodes j).shared.router.routingTable.findRoute d = some r :=
        (RoutingTable.findRoute_iff (hs.kept j).table.distinct).mpr
          ⟨hsub r (RoutingTable.findRoute_mem hfind), RoutingTable.findRoute_destination hfind⟩
      apply Revised.same
      rw [hafter, hs.reach_of_not_attached ht.topology hd hna, hold]

theorem revised_section {a : Section σ} (ha : (hearsay start s.collected j).Fits (start j) a) :
    Revised start s.collected j d (s.nodes j).shared ((s.nodes j).step a).shared := by
  have hs' := hs.put ha
  cases a with
  | hello l message addr now =>
    apply revised_of_router
    simp only [Concurrent.step]
    split
    · obtain ⟨neighbors, hn⟩ := handleHelloMessageStatic_eq message addr now (s.nodes j).shared
      rw [hn]
    · rfl
  | receive l update addr =>
    apply revised_of_router
    simp only [Concurrent.step]
    split
    · split <;> rfl
    · rfl
  | listen l now =>
    cases hphase : (s.nodes j).listeners l with
    | applying newRoutes =>
      have hnew : (hearsay start s.collected j).Pending (start j) (.applying newRoutes) := by
        rw [← hphase]
        exact (hs.kept j).listeners l
      apply revised_applying ht hs hd hs' hnew
      simp only [Concurrent.step, hphase]
      rfl
    | testing advertiser sender interfaces started routes collected =>
      apply revised_of_router
      simp only [Concurrent.step, hphase]
      cases routes <;> rfl
    | _ =>
      apply revised_of_router
      simp only [Concurrent.step, hphase]
      rfl
  | clean now =>
    have hdistinct := (hs.kept j).table.distinct
    cases hphase : (s.nodes j).cleaner with
    | removing dead destinations =>
      apply revised_removing ht hs hd hs'
      intro r hr
      simp only [Concurrent.step, hphase] at hr
      have hspec := @RouteManager.removeRoutesViaNexthop_spec _ κ _ destinations (s.nodes j).shared.router
        (s.nodes j).shared.routeStates hdistinct
      exact ((hspec.2.2.2.2.2 r).mp hr).1
    | purgingVia ip rest =>
      apply revised_removing ht hs hd hs'
      intro r hr
      simp only [Concurrent.step, hphase] at hr
      exact (RoutingTable.mem_removeRoutesViaNexthop.mp hr).1
    | _ =>
      apply revised_of_router
      simp only [Concurrent.step, hphase]
      rfl

omit ht [DecidableEq σ] [DecidableEq ι] in
theorem learned_iff (htopology : System.LocalTopology start) :
    learned (s.nodes j).shared d = true ↔ ¬ Attached (start j) d ∧ (reach (s.nodes j).shared d).isSome = true := by
  have hw := hs.wellFormed htopology j
  have hattached := (hs.same j).attached d
  by_cases hna : Attached (start j) d
  · refine iff_of_false ?_ (fun h => h.1 hna)
    intro h
    obtain ⟨r, hr, hp, rfl⟩ := SimpleRoutingProtocol.learned_iff.mp h
    have hno := Observed.protocol_not_attached hw ((hs.same j).listed.mpr (htopology.listed j)) hr hp
    rw [hd] at hno
    exact hno (hattached.mpr hna)
  · have hreach : learned (s.nodes j).shared d = true ↔ (reach (s.nodes j).shared d).isSome = true :=
      Observed.learned_iff_reach hw hd (fun h => hna (hattached.mp h))
    rw [hreach]
    exact (and_iff_right hna).symm

theorem removed_section {a : Section σ} (ha : (hearsay start s.collected j).Fits (start j) a) :
    (s.put j ((s.nodes j).step a)).removed d =
      if ¬ Attached (start j) d ∧ (reach (s.nodes j).shared d).isSome = true ∧
        reach ((s.nodes j).step a).shared d = none then s.removed d + 1 else s.removed d := by
  have hbefore := learned_iff hs hd ht.topology (j := j)
  have hafter := learned_iff (hs.put ha) hd ht.topology (j := j)
  rw [put_nodes_self] at hafter
  have hlost : (learned (s.nodes j).shared d && !learned ((s.nodes j).step a).shared d) = true ↔
      ¬ Attached (start j) d ∧ (reach (s.nodes j).shared d).isSome = true ∧
        reach ((s.nodes j).step a).shared d = none := by
    rw [Bool.and_eq_true, hbefore, Bool.not_eq_true', Bool.eq_false_iff, ne_eq, hafter, ← Option.not_isSome_iff_eq_none]
    tauto
  simp only [TaskNetwork.put, hlost]

omit ht hs hd [DecidableEq σ] [IpNetwork] [NetRoute κ] in
theorem abstract_put (j : ι) (c : Concurrent σ κ) :
    (s.put j c).abstract = s.abstract.move j { c.shared with routeStates := ∅ } := by
  have hnodes : (s.put j c).abstract.nodes = (s.abstract.move j { c.shared with routeStates := ∅ }).nodes := by
    funext i
    exact Function.apply_update (fun _ (c : Concurrent σ κ) => { c.shared with routeStates := ∅ }) s.nodes j c i
  unfold TaskNetwork.abstract System.move at hnodes ⊢
  rw [System.mk.injEq]
  exact ⟨hnodes, rfl, rfl⟩

theorem view_section {a : Section σ} (ha : (hearsay start s.collected j).Fits (start j) a) :
    DistanceVector.Step System.incr (System.Linked start) (System.view start s.abstract d)
      (System.view start (s.put j ((s.nodes j).step a)).abstract d) := by
  have habstract := hs.abstract ht.topology
  let q : SimpleRoutingProtocol κ := { ((s.nodes j).step a).shared with routeStates := ∅ }
  have hremoved : (s.abstract.move j q).removed d = if ¬ Attached (start j) d ∧
      (reach (s.abstract.nodes j) d).isSome = true ∧ reach q d = none then s.abstract.removed d + 1
      else s.abstract.removed d := removed_section ht hs hd ha
  have hrevised : Revised start s.collected j d (s.nodes j).shared ((s.nodes j).step a).shared :=
    revised_section ht hs hd ha
  rw [abstract_put]
  cases hrevised with
  | same h =>
    have hsame : reach q d = reach (s.abstract.nodes j) d := h
    rw [hsame, if_neg] at hremoved
    · rw [System.view_same hsame hremoved]
      exact DistanceVector.Step.stay _
    · rintro ⟨-, hsome, hnone⟩
      rw [hnone] at hsome
      cases hsome
  | lost hna h =>
    have hnone : reach q d = none := h
    cases hbefore : reach (s.abstract.nodes j) d with
    | none =>
      rw [hbefore, if_neg (fun hlost => by cases hlost.2.1)] at hremoved
      rw [System.view_same (hnone.trans hbefore.symm) hremoved]
      exact DistanceVector.Step.stay _
    | some e =>
      rw [hbefore, if_pos ⟨hna, rfl, hnone⟩] at hremoved
      rw [System.view_drop hnone hremoved]
      apply DistanceVector.Step.lose
      simp only [System.view, hbefore, Option.map_some, Option.isSome_some]
  | learned r hr hrd hv hq hle =>
    subst hrd
    have hsome : reach q r.destination = some (r.metric, r.nextHop) := hq
    rw [if_neg (fun hlost => by rw [hsome] at hlost; cases hlost.2.2)] at hremoved
    obtain ⟨g, hg, hattached, sender, hsender, info, hinfo, now, state, hp⟩ := hr
    exact System.view_learn ht.topology habstract hg (((habstract.same j).attached g.subnet).mpr hattached) hsender hinfo
      hp hv hsome hremoved hle

omit [DecidableEq σ] in
theorem view_update (i : ι) :
    DistanceVector.Step System.incr (System.Linked start) (System.view start s.abstract d)
      (System.view start (s.update i).abstract d) := by
  cases hphase : s.updaters i with
  | idle =>
    have hview : System.view start (s.update i).abstract d = System.view start s.abstract d := by
      simp only [TaskNetwork.update, hphase]
      refine DistanceVector.State.ext ?_ rfl rfl
      funext k
      by_cases hk : k = i
      · subst hk
        simp only [System.view, TaskNetwork.abstract, Function.update_self]
        rfl
      · simp only [System.view, TaskNetwork.abstract, Function.update_of_ne hk]
    rw [hview]
    exact DistanceVector.Step.stay _
  | numbered number =>
    have hview : System.view start (s.update i).abstract d = System.view start (s.abstract.broadcast i) d := by
      simp only [TaskNetwork.update, hphase]
      refine DistanceVector.State.ext ?_ ?_ rfl
      · funext k
        obtain ⟨sequence, hq⟩ := System.broadcast_nodes s.abstract i k
        simp only [System.view, hq]
        rfl
      · ext a
        constructor
        · rintro ⟨g, hg, info, hinfo, hrest⟩
          rcases List.mem_append.mp hg with hg | hg
          · exact ⟨g, System.mem_broadcast_sent.mpr (Or.inl hg), info, hinfo, hrest⟩
          · obtain ⟨name, iface, hl, rfl⟩ := mem_datagrams.mp hg
            exact ⟨_, System.mem_broadcast_sent.mpr (Or.inr ⟨name, iface, hl, rfl⟩), info, hinfo, hrest⟩
        · rintro ⟨g, hg, info, hinfo, hrest⟩
          rcases System.mem_broadcast_sent.mp hg with hg | ⟨name, iface, hl, rfl⟩
          · exact ⟨g, List.mem_append_left _ hg, info, hinfo, hrest⟩
          · exact ⟨_, List.mem_append_right _ (mem_datagrams.mpr ⟨name, iface, hl, rfl⟩), info, hinfo, hrest⟩
    rw [hview]
    exact System.view_broadcast ht.topology (hs.abstract ht.topology) hd i
  | collected update =>
    have habstract : (s.update i).abstract = s.abstract := by
      simp only [TaskNetwork.update, hphase]
      rfl
    rw [habstract]
    exact DistanceVector.Step.stay _

theorem view_step (a : NetworkAction ι σ) :
    DistanceVector.Step System.incr (System.Linked start) (System.view start s.abstract d)
      (System.view start (s.step a).abstract d) := by
  cases a with
  | update i => exact view_update ht hs hd i
  | receive n j l =>
    rcases receive_cases hs n j l with h | ⟨g, hfits, h⟩
    · rw [TaskNetwork.step, h]
      exact DistanceVector.Step.stay _
    · rw [TaskNetwork.step, h]
      exact view_section ht hs hd hfits
  | hello j l message addr now => exact view_section ht hs hd trivial
  | listen j l now => exact view_section ht hs hd trivial
  | clean j now => exact view_section ht hs hd trivial

theorem view_run (actions : List (NetworkAction ι σ)) :
    DistanceVector.Reachable System.incr (System.Linked start) (System.view start s.abstract d)
      (System.view start (s.run actions).abstract d) := by
  induction actions generalizing s with
  | nil => exact Relation.ReflTransGen.refl
  | cons a actions ih => exact Relation.ReflTransGen.head (view_step ht hs hd a) (ih (hs.step a))

end Sections

end Model

end TaskNetwork

end CustomOspf
