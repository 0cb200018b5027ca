import CustomOspf.Subnets

/-!
Several routers on shared subnets. An update that was sent stays in flight for
ever: it may be delivered late, more than once, or never, and a router that is
silent from some moment on takes no further action.
-/

namespace CustomOspf

open SimpleRoutingProtocol

/-- An update on its way; its source is the address of the interface it left by. -/
structure Datagram (ι : Type) where
  origin : ι
  source : SocketAddr
  subnet : Ipv4Network
  update : RoutingUpdate

/-- Beside the routers and the updates in flight, how often a router has lost its protocol route to a network. -/
structure System (ι κ : Type) where
  nodes : ι → SimpleRoutingProtocol κ
  sent : List (Datagram ι)
  removed : Ipv4Network → ℕ

inductive Action (ι : Type) where
  | send (i : ι)
  | deliver (k : ℕ) (j : ι) (now : Instant)
  | hello (message : HelloMessage) (addr : SocketAddr) (j : ι) (now : Instant)
  | cleanup (j : ι) (now : Instant)

namespace System

section Model

variable {ι κ : Type} [DecidableEq ι] [IpNetwork] [NetRoute κ]

def boot (start : ι → SimpleRoutingProtocol κ) : System ι κ := ⟨start, [], fun _ => 0⟩

def broadcast (s : System ι κ) (i : ι) : System ι κ :=
  let (p, messages) := sendRoutingUpdates (s.nodes i)
  { s with
    nodes := Function.update s.nodes i p
    sent := s.sent ++ messages.map (fun m => ⟨i, ⟨.v4 m.1.ip, p.port⟩, m.1.network.subnet, m.2⟩) }

def move (s : System ι κ) (j : ι) (q : SimpleRoutingProtocol κ) : System ι κ :=
  { s with
    nodes := Function.update s.nodes j q
    removed := fun d => if learned (s.nodes j) d && !learned q d then s.removed d + 1 else s.removed d }

def deliver (s : System ι κ) (k : ℕ) (j : ι) (now : Instant) : System ι κ :=
  match s.sent[k]? with
  | some g => if Attached (s.nodes j) g.subnet then s.move j (receiveUpdate g.update g.source now (s.nodes j)).1 else s
  | none => s

def step (s : System ι κ) : Action ι → System ι κ
  | .send i => s.broadcast i
  | .deliver k j now => s.deliver k j now
  | .hello message addr j now => s.move j ((s.nodes j).step (.hello message addr now))
  | .cleanup j now => s.move j ((s.nodes j).step (.cleanup now))

def run (s : System ι κ) (actions : List (Action ι)) : System ι κ := actions.foldl step s

def Forwards (s : System ι κ) (d : Ipv4Network) (i k : ι) : Prop :=
  ∃ r ∈ (s.nodes i).router.routingTable.routes, r.source = .protocol ∧ r.destination = d ∧
    r.nextHop ∈ (s.nodes k).ourIps

structure Topology (start : ι → SimpleRoutingProtocol κ) : Prop where
  booted : ∀ i, ∃ routerId hosts hostsAtTable names port handle,
    SimpleRoutingProtocol.new routerId hosts hostsAtTable names port handle = .ok (start i)
  addresses : ∀ i j ip, ip ∈ (start i).ourIps → ip ∈ (start j).ourIps → i = j

structure LocalTopology (start : ι → SimpleRoutingProtocol κ) : Prop extends Topology start where
  listed : ∀ i, Listed (start i)

omit [DecidableEq ι] in
theorem Topology.ourIps {start : ι → SimpleRoutingProtocol κ} (ht : Topology start) {i : ι} {ip : Ipv4Addr} :
    ip ∈ (start i).ourIps ↔ ∃ name info, (start i).router.interfaces.lookup name = some info ∧ info.ip = ip := by
  obtain ⟨routerId, hosts, hostsAtTable, names, port, handle, hnew⟩ := ht.booted i
  unfold SimpleRoutingProtocol.new at hnew
  split at hnew
  · cases hnew
  · obtain h := Except.ok.inj hnew
    rw [← h]
    simp [Dictionary.mem_entries]

omit [IpNetwork] [NetRoute κ] in
@[simp] theorem move_nodes_self (s : System ι κ) (j : ι) (q : SimpleRoutingProtocol κ) : (s.move j q).nodes j = q :=
  Function.update_self _ _ _

omit [IpNetwork] [NetRoute κ] in
theorem move_nodes_of_ne (s : System ι κ) {i j : ι} (h : i ≠ j) (q : SimpleRoutingProtocol κ) :
    (s.move j q).nodes i = s.nodes i := Function.update_of_ne h _ _

omit [NetRoute κ] in
theorem broadcast_nodes (s : System ι κ) (i j : ι) :
    ∃ sequence, (s.broadcast i).nodes j = { s.nodes j with sequence := sequence } := by
  by_cases hj : j = i
  · subst hj
    exact ⟨(s.nodes j).sequence + 1, Function.update_self _ _ _⟩
  · exact ⟨(s.nodes j).sequence, Function.update_of_ne hj _ _⟩

omit [NetRoute κ] in
theorem mem_broadcast_sent {s : System ι κ} {i : ι} {g : Datagram ι} :
    g ∈ (s.broadcast i).sent ↔ g ∈ s.sent ∨ ∃ name info, (s.nodes i).router.interfaces.lookup name = some info ∧
      g = ⟨i, ⟨.v4 info.ip, (s.nodes i).port⟩, info.network.subnet,
        buildUpdate ((s.nodes i).sequence + 1) (s.nodes i).router⟩ := by
  simp only [broadcast, sendRoutingUpdates, List.mem_append, List.map_map, List.mem_map, Sigma.exists,
    Dictionary.mem_entries, Function.comp_apply, eq_comm]

omit [IpNetwork] [NetRoute κ] in
theorem move_self (s : System ι κ) (j : ι) : s.move j (s.nodes j) = s := by
  simp [move, Function.update_eq_self]

theorem receiveUpdate_cases (update : RoutingUpdate) (addr : SocketAddr) (now : Instant)
    (p : SimpleRoutingProtocol κ) :
    (receiveUpdate update addr now p).1 = p ∨
      (receiveUpdate update addr now p).1 = p.step (.update update addr now) := by
  unfold receiveUpdate
  split
  · split
    · exact Or.inl rfl
    · exact Or.inr rfl
  · exact Or.inr rfl

inductive Moves (s : System ι κ) : Action ι → System ι κ → Prop where
  | stay (a : Action ι) : Moves s a s
  | send (i : ι) : Moves s (.send i) (s.broadcast i)
  | deliver (k : ℕ) (j : ι) (now : Instant) (g : Datagram ι) (hg : g ∈ s.sent) (ha : Attached (s.nodes j) g.subnet) :
      Moves s (.deliver k j now) (s.move j ((s.nodes j).step (.update g.update g.source now)))
  | hello (message : HelloMessage) (addr : SocketAddr) (j : ι) (now : Instant) :
      Moves s (.hello message addr j now) (s.move j ((s.nodes j).step (.hello message addr now)))
  | cleanup (j : ι) (now : Instant) : Moves s (.cleanup j now) (s.move j ((s.nodes j).step (.cleanup now)))

theorem deliver_moves (s : System ι κ) (k : ℕ) (j : ι) (now : Instant) :
    Moves s (.deliver k j now) (s.deliver k j now) := by
  unfold System.deliver
  cases hg : s.sent[k]? with
  | none => exact Moves.stay _
  | some g =>
    by_cases ha : Attached (s.nodes j) g.subnet
    · simp only [ha, if_true]
      obtain h | h := receiveUpdate_cases g.update g.source now (s.nodes j)
      · rw [h, move_self]
        exact Moves.stay _
      · rw [h]
        exact Moves.deliver k j now g (List.mem_of_getElem? hg) ha
    · simp only [ha, if_false]
      exact Moves.stay _

theorem step_moves (s : System ι κ) (a : Action ι) : Moves s a (s.step a) := by
  cases a with
  | send i => exact Moves.send i
  | deliver k j now => exact deliver_moves s k j now
  | hello message addr j now => exact Moves.hello message addr j now
  | cleanup j now => exact Moves.cleanup j now

structure Sound (start : ι → SimpleRoutingProtocol κ) (s : System ι κ) : Prop where
  node : ∀ i, ∃ installed, Observed.WellFormed ⟨s.nodes i, installed⟩
  same : ∀ i, SameRouter (start i) (s.nodes i)
  sent : ∀ g ∈ s.sent, ∃ name info, (start g.origin).router.interfaces.lookup name = some info ∧
    g.source.ip = .v4 info.ip ∧ g.subnet = info.network.subnet

omit [DecidableEq ι] in
theorem Sound.boot {start : ι → SimpleRoutingProtocol κ} (h : Topology start) : Sound start (boot start) := by
  refine ⟨?_, fun i => SameRouter.refl (start i), fun g hg => absurd hg List.not_mem_nil⟩
  intro i
  obtain ⟨routerId, hosts, hostsAtTable, names, port, handle, hnew⟩ := h.booted i
  exact ⟨_, Observed.WellFormed.new hnew⟩

theorem Sound.move {start : ι → SimpleRoutingProtocol κ} {s : System ι κ} (hs : Sound start s) (j : ι) (e : Event) :
    Sound start (s.move j ((s.nodes j).step e)) := by
  obtain ⟨installed, hw⟩ := hs.node j
  refine ⟨?_, ?_, hs.sent⟩
  · intro i
    by_cases hi : i = j
    · subst hi
      rw [move_nodes_self, ← Observed.step_protocol ⟨s.nodes i, installed⟩]
      exact ⟨_, hw.step e⟩
    · rw [move_nodes_of_ne s hi]
      exact hs.node i
  · intro i
    by_cases hi : i = j
    · subst hi
      rw [move_nodes_self]
      exact (hs.same i).trans (step_same hw.distinct e)
    · rw [move_nodes_of_ne s hi]
      exact hs.same i

omit [NetRoute κ] in
theorem Sound.broadcast {start : ι → SimpleRoutingProtocol κ} {s : System ι κ} (hs : Sound start s) (i : ι) :
    Sound start (s.broadcast i) := by
  refine ⟨?_, ?_, ?_⟩
  · intro j
    obtain ⟨sequence, hq⟩ := broadcast_nodes s i j
    obtain ⟨installed, hw⟩ := hs.node j
    rw [hq]
    exact ⟨installed, hw.distinct, hw.interfaces, hw.routes, hw.valid, hw.direct, hw.records⟩
  · intro j
    obtain ⟨sequence, hq⟩ := broadcast_nodes s i j
    rw [hq]
    exact (hs.same j).trans ⟨rfl, rfl, rfl, rfl⟩
  · intro g hg
    obtain hg | ⟨name, info, hlookup, rfl⟩ := mem_broadcast_sent.mp hg
    · exact hs.sent g hg
    · rw [(hs.same i).interfaces] at hlookup
      exact ⟨name, info, hlookup, rfl, rfl⟩

theorem Sound.moves {start : ι → SimpleRoutingProtocol κ} {s t : System ι κ} {a : Action ι} (hs : Sound start s)
    (h : Moves s a t) : Sound start t := by
  cases h with
  | stay => exact hs
  | send i => exact hs.broadcast i
  | deliver k j now g hg ha => exact hs.move j _
  | hello message addr j now => exact hs.move j _
  | cleanup j now => exact hs.move j _

theorem Sound.run {start : ι → SimpleRoutingProtocol κ} {s : System ι κ} (hs : Sound start s)
    (actions : List (Action ι)) : Sound start (s.run actions) := by
  induction actions generalizing s with
  | nil => exact hs
  | cons a actions ih => exact ih (hs.moves (step_moves s a))

end Model

/-! Four routers, "A" on 10.9.0.0/24 next to "B", and "B", "C" and "E" in a ring. -/

section Ring

def ringHosts : Fin 4 → List NetworkInterface
  | 0 => [.up "eth0" (.new 10 9 0 1) 24, .up "eth1" (.new 10 0 0 1) 24]
  | 1 => [.up "eth0" (.new 10 0 0 2) 24, .up "eth1" (.new 10 1 0 2) 24, .up "eth2" (.new 10 3 0 2) 24]
  | 2 => [.up "eth0" (.new 10 1 0 3) 24, .up "eth1" (.new 10 2 0 3) 24]
  | 3 => [.up "eth0" (.new 10 2 0 4) 24, .up "eth1" (.new 10 3 0 4) 24]

def bootNode (id : String) (hosts : List NetworkInterface) : Except String (SimpleRoutingProtocol (Finset SystemRoute)) :=
  SimpleRoutingProtocol.new id hosts hosts ["lo", "eth0", "eth1", "eth2"] 5555 ∅

def ringNew (i : Fin 4) : Except String (SimpleRoutingProtocol (Finset SystemRoute)) :=
  bootNode (["A", "B", "C", "E"].getD i "") (ringHosts i)

theorem ring_isOk : ∀ i, (ringNew i).isOk = true := by decide +kernel

def ring (i : Fin 4) : SimpleRoutingProtocol (Finset SystemRoute) := started (ringNew i) (ring_isOk i)

theorem ring_topology : LocalTopology ring := by
  have haddresses : ∀ i j, ∀ ip ∈ (ring i).ourIps, ip ∈ (ring j).ourIps → i = j := by decide +kernel
  have hlisted : ∀ i, (ring i).router.interfaces.entries.all
      (fun e => e.2.network ∈ (ring i).router.routingTable.localNetworks) = true := by decide +kernel
  exact ⟨⟨fun i => ⟨_, _, _, _, _, _, started_ok (ring_isOk i)⟩, haddresses⟩, fun i => listed_iff.mp (hlisted i)⟩

def farNetwork : Ipv4Network := ⟨.new 10 9 0 0, 24⟩

end Ring

/-! Three routers, of which "A" has 10.9.0.0/24 on an interface that its table does not take for local. -/

section Triangle

def triangleHosts : Fin 3 → List NetworkInterface
  | 0 => [⟨"lo", true, true, [.v4 ⟨.new 127 0 0 1, 8⟩, .v4 ⟨.new 10 9 0 1, 24⟩]⟩, .up "eth0" (.new 10 0 0 1) 24,
      .up "eth1" (.new 10 2 0 1) 24]
  | 1 => [.up "eth0" (.new 10 0 0 2) 24, .up "eth1" (.new 10 1 0 2) 24]
  | 2 => [.up "eth0" (.new 10 1 0 3) 24, .up "eth1" (.new 10 2 0 3) 24]

def triangleNew (i : Fin 3) : Except String (SimpleRoutingProtocol (Finset SystemRoute)) :=
  bootNode (["A", "B", "C"].getD i "") (triangleHosts i)

theorem triangle_isOk : ∀ i, (triangleNew i).isOk = true := by decide +kernel

def triangle (i : Fin 3) : SimpleRoutingProtocol (Finset SystemRoute) := started (triangleNew i) (triangle_isOk i)

theorem triangle_topology : Topology triangle := by
  have haddresses : ∀ i j, ∀ ip ∈ (triangle i).ourIps, ip ∈ (triangle j).ourIps → i = j := by decide +kernel
  exact ⟨fun i => ⟨_, _, _, _, _, _, started_ok (triangle_isOk i)⟩, haddresses⟩

def unlistedRun : List (Action (Fin 3)) :=
  [.send 0, .deliver 1 1 0, .send 1, .deliver 3 2 0, .send 2, .deliver 5 0 0]

end Triangle

/-! Three routers in a line. -/

section Line

def lineHosts : Fin 3 → List NetworkInterface
  | 0 => [.up "eth0" (.new 10 9 0 1) 24, .up "eth1" (.new 10 0 0 1) 24]
  | 1 => [.up "eth0" (.new 10 0 0 2) 24, .up "eth1" (.new 10 1 0 2) 24]
  | 2 => [.up "eth0" (.new 10 1 0 3) 24]

def lineNew (i : Fin 3) : Except String (SimpleRoutingProtocol (Finset SystemRoute)) :=
  bootNode (["A", "B", "C"].getD i "") (lineHosts i)

theorem line_isOk : ∀ i, (lineNew i).isOk = true := by decide +kernel

def line (i : Fin 3) : SimpleRoutingProtocol (Finset SystemRoute) := started (lineNew i) (line_isOk i)

def lineA : Fin 3 := 0

def lineB : Fin 3 := 1

theorem line_topology : Topology line := by
  have haddresses : ∀ i j, ∀ ip ∈ (line i).ourIps, ip ∈ (line j).ourIps → i = j := by decide +kernel
  exact ⟨fun i => ⟨_, _, _, _, _, _, started_ok (line_isOk i)⟩, haddresses⟩

def lineRun : List (Action (Fin 3)) := [.send 0, .deliver 0 1 0, .send 1, .deliver 2 2 0, .deliver 3 0 0]

end Line

end System

end CustomOspf
