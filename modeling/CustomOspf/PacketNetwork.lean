import CustomOspf.Convergence
import CustomOspf.Queries

/-!
The routers of a network with the packets they exchange, of all four kinds, as
the text they are sent as and the buffer they arrive in. Its runs are runs of
the network of messages: a packet that is cut, or comes back to its sender, is
an update that is lost.
-/

namespace CustomOspf

open SimpleRoutingProtocol

structure Frame where
  source : SocketAddr
  destination : Destination
  text : String

structure PacketNetwork (ι κ : Type) where
  nodes : ι → ProtocolData κ
  -- the listen loop of a router ends with the first panic of a handler
  listening : ι → Bool
  frames : List Frame
  removed : Ipv4Network → ℕ

namespace PacketNetwork

inductive Action (ι : Type) where
  | hello (i : ι)
  | update (i : ι)
  | request (i : ι) (requestId target : String) (pending : PendingNeighborRequest)
  | forget (i : ι) (requestIds : List String)
  -- the kernel answers from the address `via`
  | receive (k : ℕ) (j : ι) (via : Ipv4Addr) (now : Instant)
  | cleanup (j : ι) (now : Instant)

section Model

variable {ι κ : Type} [DecidableEq ι] [IpNetwork] [NetRoute κ] [SerdeJson]

def boot (start : ι → SimpleRoutingProtocol κ) : PacketNetwork ι κ :=
  ⟨fun i => ⟨start i, ∅⟩, fun _ => true, [], fun _ => 0⟩

def toInterfaces (p : SimpleRoutingProtocol κ) (text : String) : List Frame :=
  p.router.interfaces.entries.map (fun e => ⟨⟨.v4 e.2.ip, p.port⟩, .broadcast e.2.network.subnet, text⟩)

def sendHelloMessages (p : SimpleRoutingProtocol κ) : List Frame :=
  let hello : Kind.hello.Content := buildHello p.router
  toInterfaces p (packet hello)

def sendNeighborRequest (requestId target : String) (p : SimpleRoutingProtocol κ) : List Frame :=
  let request : Kind.neighborRequest.Content := NeighborManager.buildRequest requestId target p.router
  toInterfaces p (packet request)

def updateFrame (p : SimpleRoutingProtocol κ) (m : InterfaceInfo × RoutingUpdate) : Frame :=
  let update : Kind.update.Content := m.2
  ⟨⟨.v4 m.1.ip, p.port⟩, .broadcast m.1.network.subnet, packet update⟩

def reaches (f : Frame) (p : SimpleRoutingProtocol κ) : Bool :=
  match f.destination with
  | .broadcast subnet => decide (Attached p subnet)
  | .unicast ⟨.v4 ip, _⟩ => p.ourIps.contains ip
  | .unicast ⟨.v6 _, _⟩ => false

def reply (source : SocketAddr) : Effect → Option Frame
  | .send text addr => some ⟨source, .unicast addr, text⟩
  | .deliver _ _ => none

def goesOn : Checked Unit → Bool
  | .panicked _ => false
  | _ => true

def move (n : PacketNetwork ι κ) (j : ι) (data : ProtocolData κ) : PacketNetwork ι κ :=
  { n with
    nodes := Function.update n.nodes j data
    removed := fun d =>
      if SimpleRoutingProtocol.learned (n.nodes j).protocol d && !SimpleRoutingProtocol.learned data.protocol d then
        n.removed d + 1
      else n.removed d }

def sendUpdates (n : PacketNetwork ι κ) (i : ι) : PacketNetwork ι κ :=
  let (p, messages) := sendRoutingUpdates (n.nodes i).protocol
  { n with
    nodes := Function.update n.nodes i { n.nodes i with protocol := p }
    frames := n.frames ++ messages.map (updateFrame p) }

def accept (n : PacketNetwork ι κ) (j : ι) (via : Ipv4Addr) (handled : Handled κ) : PacketNetwork ι κ :=
  { n.move j handled.data with
    listening := Function.update n.listening j (goesOn handled.result)
    frames := n.frames ++ handled.effects.filterMap (reply ⟨.v4 via, (n.nodes j).protocol.port⟩) }

def receive (n : PacketNetwork ι κ) (k : ℕ) (j : ι) (via : Ipv4Addr) (now : Instant) : PacketNetwork ι κ :=
  match n.frames[k]? with
  | some f =>
    if n.listening j && reaches f (n.nodes j).protocol then
      n.accept j via (Queries.receivePacket f.text f.source now (n.nodes j))
    else n
  | none => n

def step (n : PacketNetwork ι κ) : Action ι → PacketNetwork ι κ
  | .hello i => { n with frames := n.frames ++ sendHelloMessages (n.nodes i).protocol }
  | .update i => n.sendUpdates i
  | .request i requestId target pending =>
    let data := n.nodes i
    let pendingNeighborRequests := data.pendingNeighborRequests.insert requestId pending
    { n with
      nodes := Function.update n.nodes i { data with pendingNeighborRequests := pendingNeighborRequests }
      frames := n.frames ++ sendNeighborRequest requestId target data.protocol }
  | .forget i requestIds =>
    let data := n.nodes i
    let pendingNeighborRequests := data.pendingNeighborRequests.eraseAll requestIds
    { n with nodes := Function.update n.nodes i { data with pendingNeighborRequests := pendingNeighborRequests } }
  | .receive k j via now => n.receive k j via now
  | .cleanup j now => n.move j { n.nodes j with protocol := performCleanup now (n.nodes j).protocol }

def run (n : PacketNetwork ι κ) (actions : List (Action ι)) : PacketNetwork ι κ := actions.foldl step n

/-! How often routers have lost a network only grows. -/

theorem removed_step (n : PacketNetwork ι κ) (a : Action ι) (d : Ipv4Network) :
    n.removed d ≤ (n.step a).removed d ∧ (n.step a).removed d ≤ n.removed d + 1 := by
  have hmove (j : ι) (data : ProtocolData κ) :
      n.removed d ≤ (n.move j data).removed d ∧ (n.move j data).removed d ≤ n.removed d + 1 := by
    simp only [move]
    split <;> omega
  cases a with
  | receive k j via now =>
    simp only [step, receive]
    split
    · next f _ =>
      split
      · exact hmove j (Queries.receivePacket f.text f.source now (n.nodes j)).data
      · exact ⟨le_refl _, Nat.le_succ _⟩
    · exact ⟨le_refl _, Nat.le_succ _⟩
  | cleanup j now => exact hmove j _
  | _ => exact ⟨le_refl _, Nat.le_succ _⟩

theorem removed_run (n : PacketNetwork ι κ) (actions : List (Action ι)) (d : Ipv4Network) :
    n.removed d ≤ (n.run actions).removed d ∧ (n.run actions).removed d ≤ n.removed d + actions.length := by
  induction actions generalizing n with
  | nil => exact ⟨le_refl _, le_refl _⟩
  | cons a actions ih =>
    obtain ⟨hle, hone⟩ := n.removed_step a d
    obtain ⟨hle', hrest⟩ := ih (n.step a)
    refine ⟨hle.trans hle', ?_⟩
    change ((n.step a).run actions).removed d ≤ _
    rw [List.length_cons]
    omega

def received (f : Frame) (p : SimpleRoutingProtocol κ) : Option Message :=
  match socketReceive p.ourIps f.text.toByteArray f.source with
  | some text =>
    match decodeMessage text with
    | .ok message => message
    | .error _ => none
  | none => none

theorem receivePacket_none {f : Frame} {data : ProtocolData κ} (h : received f data.protocol = none) (now : Instant) :
    ∃ result, Queries.receivePacket f.text f.source now data = ⟨data, [], result⟩ ∧ ¬ result.Panics := by
  unfold received at h
  unfold Queries.receivePacket handleMessageWithProtocolData
  cases hs : socketReceive data.protocol.ourIps f.text.toByteArray f.source with
  | none => exact ⟨_, rfl, Checked.not_panics_returned ()⟩
  | some text =>
    rw [hs] at h
    dsimp only at h ⊢
    cases hd : decodeMessage text with
    | error e => exact ⟨_, rfl, Checked.not_panics_failed e⟩
    | ok message =>
      rw [hd] at h
      dsimp only at h
      subst h
      exact ⟨_, rfl, Checked.not_panics_returned ()⟩

theorem receivePacket_some {f : Frame} {data : ProtocolData κ} {message : Message}
    (h : received f data.protocol = some message) (now : Instant) :
    Queries.receivePacket f.text f.source now data = handleMessage message f.source now data ∧
      ∀ ip, f.source.ip = .v4 ip → ip ∉ data.protocol.ourIps := by
  unfold received at h
  unfold Queries.receivePacket handleMessageWithProtocolData
  cases hs : socketReceive data.protocol.ourIps f.text.toByteArray f.source with
  | none =>
    rw [hs] at h
    cases h
  | some text =>
    rw [hs] at h
    dsimp only at h ⊢
    refine ⟨?_, ?_⟩
    · cases hd : decodeMessage text with
      | error e =>
        rw [hd] at h
        cases h
      | ok message' =>
        rw [hd] at h
        dsimp only at h
        subst h
        rfl
    · intro ip hip hown
      simp [socketReceive, hip, hown] at hs

omit [IpNetwork] [NetRoute κ] in
theorem received_sent {kind : Kind} {content : kind.Content} {f : Frame} (ht : f.text = packet content)
    (p : SimpleRoutingProtocol κ) :
    received f p = none ∨ ∃ content', kind.Same content' content ∧ received f p = some ⟨kind, content'⟩ := by
  unfold received
  cases hs : socketReceive p.ourIps f.text.toByteArray f.source with
  | none => exact Or.inl rfl
  | some text =>
    have htext : text = Utf8.lossy ((packet content).toByteArray.extract 0 4096) := by
      rw [ht] at hs
      unfold socketReceive at hs
      split at hs
      · split at hs
        · cases hs
        · exact (Option.some.inj hs).symm
      · exact (Option.some.inj hs).symm
    subst htext
    dsimp only
    obtain ⟨e, he⟩ | ⟨content', hsame, hok⟩ := decodeMessage_packet content
    · rw [he]
      exact Or.inl rfl
    · rw [hok]
      exact Or.inr ⟨content', hsame, rfl⟩

omit [IpNetwork] [NetRoute κ] in
theorem received_fits {kind : Kind} {content : kind.Content} {f : Frame} (ht : f.text = packet content)
    (hfits : f.text.toByteArray.size ≤ 4096) {p : SimpleRoutingProtocol κ}
    (hother : ∀ ip, f.source.ip = .v4 ip → ip ∉ p.ourIps) : ∃ content', received f p = some ⟨kind, content'⟩ := by
  rw [ht] at hfits
  obtain ⟨content', hok, -⟩ := decodeMessage_whole hfits
  refine ⟨content', ?_⟩
  unfold received
  rw [socketReceive_other hother, ht]
  dsimp only
  rw [hok]

omit [SerdeJson] in
theorem parse_host (ip : Ipv4Addr) : Ipv4Network.parse (ip.toString ++ "/32") = some ⟨ip, 32⟩ := by
  have htext : ip.toString ++ "/32" = cidr ip 32 := by
    have hrepr : Nat.repr (32 : Fin 33) = "32" := by decide
    rw [cidr, hrepr, String.append_assoc]
    rfl
  rw [htext, Ipv4Network.parse_cidr]

omit [NetRoute κ] [SerdeJson] in
/-- No router can make the hello handler of another one panic. -/
theorem parsable_sent {hello : HelloMessage} {router : Router κ}
    (hsame : Kind.hello.Same hello (buildHello router)) (p : SimpleRoutingProtocol κ) : ParsableHello p hello := by
  intro _ name ip hl
  obtain ⟨-, hperm⟩ := hsame
  have hsent : (buildHello router).interfaces.lookup name = some ip := by
    rw [← Dictionary.mem_entries]
    exact hperm.mem_iff.mp (Dictionary.mem_entries.mpr hl)
  rw [buildHello, Dictionary.lookup_mapValues] at hsent
  obtain ⟨info, -, rfl⟩ := Option.map_eq_some_iff.mp hsent
  rw [parse_host]
  exact Option.some_ne_none _

theorem handleMessage_request (request : Kind.neighborRequest.Content) (source : SocketAddr) (now : Instant)
    (data : ProtocolData κ) :
    let handled := handleMessage ⟨.neighborRequest, request⟩ source now data
    handled.data.protocol = data.protocol ∧ ¬ handled.result.Panics ∧ ∀ text addr, .send text addr ∈ handled.effects →
      ∃ response : Kind.neighborResponse.Content, text = packet response := by
  simp only [handleMessage, handleNeighborRequestStatic]
  split
  · refine ⟨rfl, by simp, ?_⟩
    intro text addr hmem
    obtain ⟨rfl, -⟩ := Effect.send.inj (List.mem_singleton.mp hmem)
    exact ⟨_, rfl⟩
  · exact ⟨rfl, by simp, by simp⟩

theorem handleMessage_response (response : Kind.neighborResponse.Content) (source : SocketAddr) (now : Instant)
    (data : ProtocolData κ) :
    let handled := handleMessage ⟨.neighborResponse, response⟩ source now data
    handled.data.protocol = data.protocol ∧ ¬ handled.result.Panics ∧
      ∀ text addr, .send text addr ∉ handled.effects := by
  simp only [handleMessage, handleNeighborResponseStatic]
  split
  · exact ⟨rfl, by simp, by simp⟩
  · exact ⟨rfl, by simp, by simp⟩

def isUpdate (f : Frame) : Bool := (stripPrefix Kind.update.tag f.text).isSome

omit [IpNetwork] in
theorem isUpdate_packet {kind : Kind} {content : kind.Content} {f : Frame} (ht : f.text = packet content) :
    isUpdate f = decide (kind = .update) := by
  unfold isUpdate
  rw [ht, packet]
  cases kind with
  | update => simp [stripPrefix_append]
  | hello =>
    have hother : stripPrefix Kind.update.tag (Kind.hello.tag ++ SerdeJson.toString content) = none :=
      stripPrefix_other rfl
    simp [hother]
  | neighborRequest =>
    have hother : stripPrefix Kind.update.tag (Kind.neighborRequest.tag ++ SerdeJson.toString content) = none :=
      stripPrefix_other rfl
    simp [hother]
  | neighborResponse =>
    have hother : stripPrefix Kind.update.tag (Kind.neighborResponse.tag ++ SerdeJson.toString content) = none :=
      stripPrefix_other rfl
    simp [hother]

def updatesBefore (n : PacketNetwork ι κ) (k : ℕ) : ℕ := (n.frames.take k).countP isUpdate

def taken (n : PacketNetwork ι κ) (k : ℕ) (j : ι) (now : Instant) (f : Frame) : List (CustomOspf.Action ι) :=
  match received f (n.nodes j).protocol with
  | some ⟨.hello, hello⟩ => [.hello hello f.source j now]
  | some ⟨.update, _⟩ => [.deliver (n.updatesBefore k) j now]
  | _ => []

def abstraction (n : PacketNetwork ι κ) : Action ι → List (CustomOspf.Action ι)
  | .update i => [.send i]
  | .receive k j _ now =>
    match n.frames[k]? with
    | some f => if n.listening j && reaches f (n.nodes j).protocol then n.taken k j now f else []
    | none => []
  | .cleanup j now => [.cleanup j now]
  | _ => []

def translate (n : PacketNetwork ι κ) : List (Action ι) → List (CustomOspf.Action ι)
  | [] => []
  | a :: actions => n.abstraction a ++ (n.step a).translate actions

theorem translate_append (n : PacketNetwork ι κ) (before after : List (Action ι)) :
    n.translate (before ++ after) = n.translate before ++ (n.run before).translate after := by
  induction before generalizing n with
  | nil => rfl
  | cons a before ih =>
    rw [List.cons_append, translate, ih, translate, List.append_assoc]
    rfl

omit [DecidableEq ι] [NetRoute κ] in
theorem abstraction_clean {n : PacketNetwork ι κ} {a : Action ι} {j : ι} {now : Instant}
    (h : CustomOspf.Action.cleanup j now ∈ n.abstraction a) : a = .cleanup j now := by
  cases a with
  | cleanup j' now' =>
    obtain ⟨rfl, rfl⟩ := CustomOspf.Action.cleanup.inj (List.mem_singleton.mp h)
    rfl
  | receive k j' via now' =>
    simp only [abstraction, taken] at h
    split at h
    · split at h
      · split at h <;> simp at h
      · simp at h
    · simp at h
  | _ => simp [abstraction] at h

def toFrame (g : Datagram ι) : Frame :=
  let update : Kind.update.Content := g.update
  ⟨g.source, .broadcast g.subnet, packet update⟩

inductive Other (start : ι → SimpleRoutingProtocol κ) (f : Frame) : Prop where
  | hello (i : ι) (h : f.text = packet (show Kind.hello.Content from buildHello (start i).router))
  | request (request : Kind.neighborRequest.Content) (h : f.text = packet request)
  | response (response : Kind.neighborResponse.Content) (h : f.text = packet response)

structure Matches (start : ι → SimpleRoutingProtocol κ) (n : PacketNetwork ι κ) (s : System ι κ) : Prop where
  nodes : ∀ i, (n.nodes i).protocol = s.nodes i
  removed : n.removed = s.removed
  listening : ∀ i, n.listening i = true
  updates : n.frames.filter isUpdate = s.sent.map toFrame
  others : ∀ f ∈ n.frames, isUpdate f = false → Other start f
  sources : ∀ f ∈ n.frames, ∃ ip, f.source.ip = .v4 ip
  metrics : ∀ g ∈ s.sent, ∀ info ∈ g.update.routes, info.metric ≠ 0xffffffff

variable {start : ι → SimpleRoutingProtocol κ}

omit [DecidableEq ι] [IpNetwork] [NetRoute κ] in
theorem Other.isUpdate {f : Frame} (h : Other start f) : isUpdate f = false := by
  cases h with
  | hello i h => exact isUpdate_packet h
  | request request h => exact isUpdate_packet h
  | response response h => exact isUpdate_packet h

omit [DecidableEq ι] [IpNetwork] [NetRoute κ] in
theorem Matches.boot : Matches start (boot start) (System.boot start) :=
  ⟨fun _ => rfl, rfl, fun _ => rfl, rfl, by simp [PacketNetwork.boot], by simp [PacketNetwork.boot],
    by simp [System.boot]⟩

omit [IpNetwork] [SerdeJson] in
theorem getElem?_filter {α : Type} {p : α → Bool} {l : List α} {k : ℕ} {a : α} (hk : l[k]? = some a)
    (ha : p a = true) : (l.filter p)[(l.take k).countP p]? = some a := by
  obtain ⟨hlt, rfl⟩ := List.getElem?_eq_some_iff.mp hk
  have hsplit : l = l.take k ++ l[k] :: l.drop (k + 1) := by simp
  have hfilter : l.filter p = (l.take k).filter p ++ l[k] :: (l.drop (k + 1)).filter p := by
    conv_lhs => rw [hsplit]
    rw [List.filter_append, List.filter_cons_of_pos ha]
  rw [hfilter, List.countP_eq_length_filter, List.getElem?_append_right (le_refl _), Nat.sub_self]
  rfl

section Simulation

variable {n : PacketNetwork ι κ} {s : System ι κ} (h : Matches start n s)
include h

section Frames

omit [IpNetwork] [NetRoute κ]

omit [DecidableEq ι] in
theorem Matches.datagram {k : ℕ} {f : Frame} (hk : n.frames[k]? = some f) (hf : isUpdate f = true) :
    ∃ g, s.sent[n.updatesBefore k]? = some g ∧ f = toFrame g := by
  have hfilter := getElem?_filter hk hf
  rw [h.updates, List.getElem?_map] at hfilter
  obtain ⟨g, hg, rfl⟩ := Option.map_eq_some_iff.mp hfilter
  exact ⟨g, hg, rfl⟩

theorem Matches.updated (j : ι) {p : ProtocolData κ} {q : SimpleRoutingProtocol κ} (hq : p.protocol = q) (i : ι) :
    (Function.update n.nodes j p i).protocol = Function.update s.nodes j q i := by
  by_cases hi : i = j
  · subst hi
    rw [Function.update_self, Function.update_self, hq]
  · rw [Function.update_of_ne hi, Function.update_of_ne hi]
    exact h.nodes i

theorem Matches.move (j : ι) {data : ProtocolData κ} {q : SimpleRoutingProtocol κ} (hq : data.protocol = q) :
    Matches start (n.move j data) (s.move j q) := by
  refine ⟨h.updated j hq, ?_, h.listening, h.updates, h.others, h.sources, h.metrics⟩
  funext d
  simp only [PacketNetwork.move, System.move, h.nodes j, h.removed, hq]

theorem Matches.pending (i : ι) (pending : Dictionary String PendingNeighborRequest) :
    Matches start { n with
      nodes := Function.update n.nodes i { n.nodes i with pendingNeighborRequests := pending } } s := by
  refine ⟨?_, h.removed, h.listening, h.updates, h.others, h.sources, h.metrics⟩
  intro j
  have hnode := h.updated i (p := { n.nodes i with pendingNeighborRequests := pending }) (h.nodes i) j
  rw [Function.update_eq_self] at hnode
  exact hnode

omit [DecidableEq ι] in
theorem Matches.emit {frames : List Frame}
    (hframes : ∀ f ∈ frames, Other start f ∧ ∃ ip, f.source.ip = .v4 ip) :
    Matches start { n with frames := n.frames ++ frames } s := by
  refine ⟨h.nodes, h.removed, h.listening, ?_, ?_, ?_, h.metrics⟩
  · have hnone : frames.filter isUpdate = [] := by
      rw [List.filter_eq_nil_iff]
      intro f hf
      rw [(hframes f hf).1.isUpdate]
      exact Bool.false_ne_true
    rw [List.filter_append, hnone, List.append_nil, h.updates]
  · intro f hf hother
    rcases List.mem_append.mp hf with hf | hf
    · exact h.others f hf hother
    · exact (hframes f hf).1
  · intro f hf
    rcases List.mem_append.mp hf with hf | hf
    · exact h.sources f hf
    · exact (hframes f hf).2

theorem Matches.accept (j : ι) (via : Ipv4Addr) {handled : Handled κ} {q : SimpleRoutingProtocol κ}
    (hq : handled.data.protocol = q) (hpanic : ¬ handled.result.Panics)
    (heffects : ∀ text addr, .send text addr ∈ handled.effects →
      ∃ response : Kind.neighborResponse.Content, text = packet response) :
    Matches start (n.accept j via handled) (s.move j q) := by
  have hgoes : goesOn handled.result = true := by
    cases hr : handled.result with
    | panicked message => exact absurd (by rw [hr]; exact Checked.panics_panicked message) hpanic
    | returned a => rfl
    | failed message => rfl
  have hlistening : Function.update n.listening j (goesOn handled.result) = n.listening := by
    rw [hgoes, ← h.listening j, Function.update_eq_self]
  rw [PacketNetwork.accept, hlistening]
  apply (h.move j hq).emit
  intro f hf
  obtain ⟨effect, hmem, hreply⟩ := List.mem_filterMap.mp hf
  cases effect with
  | send text addr =>
    obtain rfl := Option.some.inj hreply
    obtain ⟨response, htext⟩ := heffects text addr hmem
    exact ⟨.response response htext, via, rfl⟩
  | deliver responder neighbors => cases hreply

theorem Matches.accept_quiet (j : ι) (via : Ipv4Addr) {handled : Handled κ}
    (hdata : handled.data.protocol = (n.nodes j).protocol) (hpanic : ¬ handled.result.Panics)
    (heffects : ∀ text addr, .send text addr ∈ handled.effects →
      ∃ response : Kind.neighborResponse.Content, text = packet response) :
    Matches start (n.accept j via handled) s := by
  have hmatches := h.accept j via (hdata.trans (h.nodes j)) hpanic heffects
  rw [System.move_self] at hmatches
  exact hmatches

end Frames

theorem Matches.accept_hello (j : ι) (via : Ipv4Addr) {source : SocketAddr} {ip : Ipv4Addr} (hip : source.ip = .v4 ip)
    (now : Instant) {hello : Kind.hello.Content} {router : Router κ}
    (hsame : Kind.hello.Same hello (buildHello router)) :
    Matches start (n.accept j via (handleMessage ⟨.hello, hello⟩ source now (n.nodes j)))
      (s.run [.hello hello source j now]) := by
  have hpanic : ¬ (handleMessage ⟨.hello, hello⟩ source now (n.nodes j)).result.Panics := by
    obtain ⟨ip', port⟩ := source
    obtain rfl : ip' = .v4 ip := hip
    rw [handleMessage_panics_iff, not_not]
    exact parsable_sent hsame _
  have hprotocol : (handleMessage ⟨.hello, hello⟩ source now (n.nodes j)).data.protocol =
      (s.nodes j).step (.hello hello source now) := by
    rw [← h.nodes j]
    simp only [handleMessage, handleHelloMessageChecked, SimpleRoutingProtocol.step]
    split <;> next he => rw [he]
  exact h.accept j via hprotocol hpanic (by simp [handleMessage])

theorem Matches.accept_update (j : ι) (via : Ipv4Addr) {k : ℕ} {g : Datagram ι} (hk : s.sent[k]? = some g)
    (hattached : Attached (s.nodes j) g.subnet) {ip : Ipv4Addr} (hip : g.source.ip = .v4 ip)
    (hother : ip ∉ (n.nodes j).protocol.ourIps) (now : Instant) :
    Matches start (n.accept j via
      (handleMessage ⟨.update, (show Kind.update.Content from g.update)⟩ g.source now (n.nodes j)))
      (s.run [.deliver k j now]) := by
  have hreceive : receiveUpdate g.update g.source now (s.nodes j) =
      handleUpdateMessageStatic g.update g.source now (s.nodes j) := by
    rw [h.nodes j] at hother
    simp [receiveUpdate, hip, hother]
  have hstep : s.run [.deliver k j now] =
      s.move j (handleUpdateMessageStatic g.update g.source now (s.nodes j)).1 := by
    rw [← hreceive]
    exact System.deliver_eq hk hattached now
  rw [hstep]
  obtain ⟨⟨ip', port⟩, hsource⟩ : ∃ source, source = g.source := ⟨_, rfl⟩
  rw [← hsource] at hip ⊢
  obtain rfl : ip' = .v4 ip := hip
  have hpanic : ¬ (handleMessage ⟨.update, (show Kind.update.Content from g.update)⟩ ⟨.v4 ip, port⟩ now
      (n.nodes j)).result.Panics := by
    rw [handleMessage_panics_iff, not_not]
    intro _ info hinfo
    have hmetric := h.metrics g (List.mem_of_getElem? hk) info hinfo
    simp [RouteManager.overflows, hmetric]
  have hprotocol : (handleMessage ⟨.update, (show Kind.update.Content from g.update)⟩ ⟨.v4 ip, port⟩ now
      (n.nodes j)).data.protocol = (handleUpdateMessageStatic g.update ⟨.v4 ip, port⟩ now (s.nodes j)).1 := by
    rw [← h.nodes j]
    exact handleUpdateMessageChecked_agrees hpanic
  exact h.accept j via hprotocol hpanic (by simp [handleMessage])

theorem Matches.receive_update {k : ℕ} {f : Frame} (hk : n.frames[k]? = some f) (hf : isUpdate f = true) (j : ι)
    (via : Ipv4Addr) (now : Instant) (hreaches : reaches f (n.nodes j).protocol = true) :
    Matches start (n.accept j via (Queries.receivePacket f.text f.source now (n.nodes j)))
      (s.run (n.taken k j now f)) := by
  obtain ⟨g, hg, rfl⟩ := h.datagram hk hf
  obtain ⟨ip, hip⟩ := h.sources _ (List.mem_of_getElem? hk)
  rcases received_sent (f := toFrame g) rfl (n.nodes j).protocol with hnone | ⟨update, rfl, hsome⟩
  · obtain ⟨result, hpacket, hpanic⟩ := receivePacket_none hnone now
    rw [hpacket, taken, hnone]
    exact h.accept_quiet j via rfl hpanic (by simp)
  · obtain ⟨hpacket, hother⟩ := receivePacket_some hsome now
    have hattached : Attached (s.nodes j) g.subnet := by
      rw [← h.nodes j]
      simpa [reaches, toFrame] using hreaches
    rw [hpacket, taken, hsome]
    exact h.accept_update j via hg hattached hip (hother ip hip) now

theorem Matches.receive_other {k : ℕ} {f : Frame} (hk : n.frames[k]? = some f) (hf : isUpdate f = false) (j : ι)
    (via : Ipv4Addr) (now : Instant) :
    Matches start (n.accept j via (Queries.receivePacket f.text f.source now (n.nodes j)))
      (s.run (n.taken k j now f)) := by
  obtain ⟨ip, hip⟩ := h.sources f (List.mem_of_getElem? hk)
  cases hreceived : received f (n.nodes j).protocol with
  | none =>
    obtain ⟨result, hpacket, hpanic⟩ := receivePacket_none hreceived now
    rw [hpacket, taken, hreceived]
    exact h.accept_quiet j via rfl hpanic (by simp)
  | some message =>
    obtain ⟨hpacket, -⟩ := receivePacket_some hreceived now
    rw [hpacket, taken, hreceived]
    have hsent {kind : Kind} {content : kind.Content} (ht : f.text = packet content) :
        ∃ content', kind.Same content' content ∧ message = ⟨kind, content'⟩ := by
      rcases received_sent ht (n.nodes j).protocol with hnone | ⟨content', hsame, hsome⟩
      · rw [hnone] at hreceived
        cases hreceived
      · rw [hsome] at hreceived
        exact ⟨content', hsame, (Option.some.inj hreceived).symm⟩
    cases h.others f (List.mem_of_getElem? hk) hf with
    | hello i ht =>
      obtain ⟨hello, hsame, rfl⟩ := hsent ht
      exact h.accept_hello j via hip now hsame
    | request request ht =>
      obtain ⟨request', -, rfl⟩ := hsent ht
      obtain ⟨hdata, hpanic, heffects⟩ := handleMessage_request request' f.source now (n.nodes j)
      exact h.accept_quiet j via hdata hpanic heffects
    | response response ht =>
      obtain ⟨response', -, rfl⟩ := hsent ht
      obtain ⟨hdata, hpanic, hnone⟩ := handleMessage_response response' f.source now (n.nodes j)
      exact h.accept_quiet j via hdata hpanic (fun text addr hmem => absurd hmem (hnone text addr))

theorem Matches.receive (k : ℕ) (j : ι) (via : Ipv4Addr) (now : Instant) :
    Matches start (n.receive k j via now) (s.run (n.abstraction (.receive k j via now))) := by
  simp only [PacketNetwork.receive, abstraction]
  cases hk : n.frames[k]? with
  | none => exact h
  | some f =>
    by_cases hreaches : (n.listening j && reaches f (n.nodes j).protocol) = true
    · simp only [hreaches, if_true]
      cases hf : isUpdate f with
      | true => exact h.receive_update hk hf j via now (Bool.and_eq_true_iff.mp hreaches).2
      | false => exact h.receive_other hk hf j via now
    · simp only [hreaches, Bool.false_eq_true, if_false]
      exact h

omit [NetRoute κ] in
theorem Matches.sendUpdates (i : ι)
    (hmetrics : ∀ r ∈ (s.nodes i).router.routingTable.routes, r.metric ≠ 0xffffffff) :
    Matches start (n.sendUpdates i) (s.broadcast i) := by
  have hnode := h.nodes i
  refine ⟨?_, h.removed, h.listening, ?_, ?_, ?_, ?_⟩
  · apply h.updated i
    rw [← hnode]
  · have hall : ∀ f ∈ (sendRoutingUpdates (n.nodes i).protocol).2.map
        (updateFrame (sendRoutingUpdates (n.nodes i).protocol).1), isUpdate f = true := by
      intro f hf
      obtain ⟨m, -, rfl⟩ := List.mem_map.mp hf
      rw [isUpdate_packet rfl]
      rfl
    simp only [PacketNetwork.sendUpdates, System.broadcast]
    rw [List.filter_append, List.filter_eq_self.mpr hall, h.updates, List.map_append, List.map_map, hnode]
    rfl
  · intro f hf hother
    rcases List.mem_append.mp hf with hf | hf
    · exact h.others f hf hother
    · obtain ⟨m, -, rfl⟩ := List.mem_map.mp hf
      rw [isUpdate_packet rfl] at hother
      simp at hother
  · intro f hf
    rcases List.mem_append.mp hf with hf | hf
    · exact h.sources f hf
    · obtain ⟨m, -, rfl⟩ := List.mem_map.mp hf
      exact ⟨m.1.ip, rfl⟩
  · intro g hg info hinfo
    obtain hg | ⟨name, iface, -, rfl⟩ := System.mem_broadcast_sent.mp hg
    · exact h.metrics g hg info hinfo
    · obtain ⟨r, hr, rfl⟩ := List.mem_map.mp hinfo
      exact hmetrics r hr

end Simulation

omit [NetRoute κ] [SerdeJson] in
theorem mem_toInterfaces {p : SimpleRoutingProtocol κ} {text : String} {f : Frame} (h : f ∈ toInterfaces p text) :
    f.text = text ∧ ∃ ip, f.source.ip = .v4 ip := by
  obtain ⟨e, -, rfl⟩ := List.mem_map.mp h
  exact ⟨rfl, e.2.ip, rfl⟩

end Model

section Runs

variable {ι κ : Type} [DecidableEq ι] [IpNetwork] [NetRoute κ] {start : ι → SimpleRoutingProtocol κ}

open CustomOspf.System (LocalTopology Sound)

theorem held_metric_lt [Fintype ι] (ht : LocalTopology start) (bs : List (CustomOspf.Action ι)) (i : ι) {r : RouteEntry}
    (hr : r ∈ (((System.boot start).run bs).nodes i).router.routingTable.routes) (hsrc : r.source = .protocol) :
    r.destination.subnet = r.destination ∧
      r.metric.toNat < Fintype.card ι + ((System.boot start).run bs).removed r.destination := by
  obtain ⟨hd, hheld⟩ := System.view_held ht ((Sound.boot ht.toTopology).run bs) hr hsrc
  exact ⟨hd, DistanceVector.metric_lt System.incr_le (System.view_boot ht r.destination hd)
    (System.reachable_view ht hd bs) hheld⟩

variable [SerdeJson]

/-- The counts of lost routes stay where no metric can reach the largest one. -/
def Sparse [Fintype ι] (n : PacketNetwork ι κ) : Prop :=
  ∀ d, d.subnet = d → n.removed d + Fintype.card ι < 2 ^ 32

theorem Matches.step [Fintype ι] (ht : LocalTopology start) {n : PacketNetwork ι κ} {bs : List (CustomOspf.Action ι)}
    (h : Matches start n ((System.boot start).run bs)) (a : Action ι) (hsparse : Sparse n) :
    Matches start (n.step a) (((System.boot start).run bs).run (n.abstraction a)) := by
  have hs := (Sound.boot ht.toTopology).run bs
  cases a with
  | hello i =>
    apply h.emit
    intro f hf
    obtain ⟨htext, hv4⟩ := mem_toInterfaces hf
    refine ⟨.hello i ?_, hv4⟩
    have hsame := hs.same i
    rw [htext, h.nodes i, buildHello, hsame.id, hsame.interfaces]
    rfl
  | update i =>
    apply h.sendUpdates i
    intro r hr hmax
    obtain ⟨installed, hw⟩ := hs.node i
    rcases hw.routes r hr with ⟨name, info, -, rfl⟩ | ⟨hsrc, -⟩
    · cases hmax
    · obtain ⟨hd, hlt⟩ := held_metric_lt ht bs i hr hsrc
      have hbound := hsparse r.destination hd
      rw [← h.removed, hmax] at hlt
      have hvalue : (0xffffffff : UInt32).toNat = 2 ^ 32 - 1 := rfl
      omega
  | request i requestId target pending =>
    apply (h.pending i _).emit
    intro f hf
    obtain ⟨htext, hv4⟩ := mem_toInterfaces hf
    exact ⟨.request _ htext, hv4⟩
  | forget i requestIds => exact h.pending i _
  | receive k j via now => exact h.receive k j via now
  | cleanup j now =>
    apply h.move j
    rw [h.nodes j]
    rfl

theorem run_append (n : PacketNetwork ι κ) (before after : List (Action ι)) :
    n.run (before ++ after) = (n.run before).run after := List.foldl_append

theorem Sparse.before [Fintype ι] {n : PacketNetwork ι κ} {actions : List (Action ι)}
    (h : Sparse (n.run actions)) : Sparse n := by
  intro d hd
  have hle := (n.removed_run actions d).1
  have hbound := h d hd
  omega

theorem matches_run [Fintype ι] (ht : LocalTopology start) {actions : List (Action ι)}
    (hsparse : Sparse ((boot start).run actions)) :
    Matches start ((boot start).run actions) ((System.boot start).run ((boot start).translate actions)) := by
  induction actions using List.reverseRecOn with
  | nil => exact Matches.boot
  | append_singleton actions a ih =>
    rw [run_append] at hsparse ⊢
    rw [translate_append, System.run_append]
    have hmatches := (ih hsparse.before).step ht a hsparse.before
    rw [← List.append_nil (PacketNetwork.abstraction _ a)] at hmatches
    exact hmatches

/-- As long as the counts stay sparse no handler panics, and the routers do what they do in a run of the network of
messages. -/
theorem refines [Fintype ι] (ht : LocalTopology start) {actions : List (Action ι)}
    (hsparse : Sparse ((boot start).run actions)) :
    let n := (boot start).run actions
    let s := (System.boot start).run ((boot start).translate actions)
    (∀ i, n.listening i = true) ∧ (∀ i, (n.nodes i).protocol = s.nodes i) ∧ n.removed = s.removed ∧
      n.frames.filter isUpdate = s.sent.map toFrame := by
  intro n s
  have hmatches : Matches start n s := matches_run ht hsparse
  exact ⟨hmatches.listening, hmatches.nodes, hmatches.removed, hmatches.updates⟩

end Runs

section Line

open CustomOspf.System (line line_static)

local instance neZeroRound : NeZero 3 := ⟨by decide⟩

def wireRound : List (Action (Fin 3)) :=
  [.update 0, .update 1, .update 2, .receive 0 1 (.new 10 0 0 2) 0, .receive 3 0 (.new 10 0 0 1) 0,
    .receive 2 2 (.new 10 1 0 3) 0, .receive 4 1 (.new 10 1 0 2) 0]

theorem refines_line :
    let n := (boot line).run wireRound
    let s := (System.boot line).run ((boot line).translate wireRound)
    (∀ i, n.listening i = true) ∧ (∀ i, (n.nodes i).protocol = s.nodes i) ∧ n.removed = s.removed ∧
      n.frames.filter isUpdate = s.sent.map toFrame := by
  apply refines line_static.topology
  intro d hd
  have hle := ((boot line).removed_run wireRound d).2
  have hzero : (boot line : PacketNetwork (Fin 3) (Finset SystemRoute)).removed d = 0 := rfl
  have hlength : wireRound.length = 7 := rfl
  have hcard : Fintype.card (Fin 3) = 3 := rfl
  omega

end Line

end PacketNetwork

end CustomOspf
