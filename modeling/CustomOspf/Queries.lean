import CustomOspf.Handlers
import CustomOspf.Network

/-!
The neighbour queries of the control servers over the routers of a network. A
packet stays in flight for ever: it may be delivered late, more than once, or
never.
-/

namespace CustomOspf

/-- A call of `request_neighbors_from_router`, as its request id is generated. -/
structure Call (ι : Type) where
  station : ι
  -- stands for its channel
  number : ℕ
  target : String
  time : SystemTime
  requestId : String
deriving DecidableEq

inductive QueryPhase where
  | generated
  | stored
  | waiting
  -- the timeout has fired, or the channel is closed
  | expired
deriving DecidableEq

structure Query (ι : Type) where
  call : Call ι
  phase : QueryPhase
  -- what its channel holds
  answer : Option (List ControlNeighborInfo)

structure Station (ι : Type) where
  pendingNeighborRequests : Dictionary String PendingNeighborRequest
  -- one command at a time holds the lock of the control server
  query : Option (Query ι)
  -- what a pass of the cleanup has found expired and is yet to remove
  expired : List String
  clock : SystemTime
  calls : ℕ
  last : Option (Call ι)

inductive Destination where
  | broadcast (subnet : Ipv4Network)
  | unicast (addr : SocketAddr)

/-- A datagram, with the router that built it and the call it was built for, which it does not carry. -/
structure Packet (ι : Type) where
  source : SocketAddr
  destination : Destination
  text : String
  builder : ι
  call : Call ι

structure Return (ι : Type) where
  call : Call ι
  result : Option (List ControlNeighborInfo)

structure Queries (ι κ : Type) where
  system : System ι κ
  -- where each router keeps its protocol object
  address : ι → ℕ
  stations : ι → Station ι
  packets : List (Packet ι)
  returned : List (Return ι)

namespace Queries

inductive Action (ι : Type) where
  | routing (a : CustomOspf.Action ι)
  | neighborsOf (i : ι) (target : String) (now : SystemTime)
  | resume (i : ι) (now : SystemTime)
  | expire (i : ι)
  -- the kernel answers from the address `via`
  | deliver (k : ℕ) (j : ι) (via : Ipv4Addr) (now : Instant)
  | scanExpired (i : ι) (now : SystemTime)
  | removeExpired (i : ι)

section Model

variable {ι κ : Type} [DecidableEq ι] [IpNetwork] [NetRoute κ] [SerdeJson]

def receivePacket (text : String) (source : SocketAddr) (now : Instant) (data : ProtocolData κ) : Handled κ :=
  match socketReceive data.protocol.ourIps text.toByteArray source with
  | some received => handleMessageWithProtocolData received source now data
  | none => ⟨data, [], .returned ()⟩

def sendNeighborRequest (p : SimpleRoutingProtocol κ) (call : Call ι) : List (Packet ι) :=
  let request : Kind.neighborRequest.Content := NeighborManager.buildRequest call.requestId call.target p.router
  p.router.interfaces.entries.map (fun e =>
    ⟨⟨.v4 e.2.ip, p.port⟩, .broadcast e.2.network.subnet, packet request, call.station, call⟩)

def expiredRequests (now : SystemTime) (pending : Dictionary String PendingNeighborRequest) : List String :=
  (pending.entries.filter (fun e => 30000000000 < now - e.2.timestamp)).map (fun e => e.1)

-- the readings of a clock do not decrease
def reading (st : Station ι) (now : SystemTime) : SystemTime := max st.clock now

/-- A response that finds its request pending is sent through the channel of the call, if that still waits. -/
def fulfil (responder : ℕ) (neighbors : List ControlNeighborInfo) (st : Station ι) : Station ι :=
  match st.query with
  | some q =>
    if q.call.number = responder ∧ q.phase ≠ .expired then { st with query := some { q with answer := some neighbors } }
    else st
  | none => st

def put (s : Queries ι κ) (i : ι) (st : Station ι) : Queries ι κ :=
  { s with stations := Function.update s.stations i st }

def neighborsOf (s : Queries ι κ) (i : ι) (target : String) (now : SystemTime) : Queries ι κ :=
  let st := s.stations i
  match st.query with
  | some _ => s
  | none =>
    -- what a router knows itself it gives without a request
    if target = (s.system.nodes i).router.id then s
    else
      let now := reading st now
      let call : Call ι := ⟨i, st.calls, target, now, NeighborManager.requestId now (s.address i)⟩
      s.put i { st with query := some ⟨call, .generated, none⟩, clock := now, calls := st.calls + 1, last := some call }

def resume (s : Queries ι κ) (i : ι) (now : SystemTime) : Queries ι κ :=
  let st := s.stations i
  match st.query with
  | some ⟨call, .generated, answer⟩ =>
    let now := reading st now
    s.put i { st with
      pendingNeighborRequests := st.pendingNeighborRequests.insert call.requestId ⟨call.number, now⟩
      query := some ⟨call, .stored, answer⟩
      clock := now }
  | some ⟨call, .stored, answer⟩ =>
    { s.put i { st with query := some ⟨call, .waiting, answer⟩ } with
      packets := s.packets ++ sendNeighborRequest (s.system.nodes i) call }
  | some ⟨call, .waiting, some neighbors⟩ =>
    { s.put i { st with query := none } with returned := s.returned ++ [⟨call, some neighbors⟩] }
  | some ⟨_, .waiting, none⟩ => s
  | some ⟨call, .expired, _⟩ =>
    { s.put i { st with
        pendingNeighborRequests := st.pendingNeighborRequests.erase call.requestId
        query := none } with
      returned := s.returned ++ [⟨call, none⟩] }
  | none => s

def expire (s : Queries ι κ) (i : ι) : Queries ι κ :=
  match (s.stations i).query with
  | some ⟨call, .waiting, none⟩ => s.put i { s.stations i with query := some ⟨call, .expired, none⟩ }
  | _ => s

/-- A broadcast reaches the routers with an interface on its subnet, any other packet the router with its address. -/
def reaches (g : Packet ι) (p : SimpleRoutingProtocol κ) : Bool :=
  match g.destination with
  | .broadcast subnet => p.router.interfaces.entries.any (fun e => e.2.network.subnet = subnet)
  | .unicast ⟨.v4 ip, _⟩ => p.ourIps.contains ip
  | .unicast ⟨.v6 _, _⟩ => false

def perform (g : Packet ι) (j : ι) (via : Ipv4Addr) (s : Queries ι κ) : Effect → Queries ι κ
  | .send text addr =>
    { s with packets := s.packets ++ [⟨⟨.v4 via, (s.system.nodes j).port⟩, .unicast addr, text, j, g.call⟩] }
  | .deliver responder neighbors => s.put j (fulfil responder neighbors (s.stations j))

def deliver (s : Queries ι κ) (k : ℕ) (j : ι) (via : Ipv4Addr) (now : Instant) : Queries ι κ :=
  match s.packets[k]? with
  | some g =>
    if reaches g (s.system.nodes j) then
      let handled := receivePacket g.text g.source now
        ⟨s.system.nodes j, (s.stations j).pendingNeighborRequests⟩
      let s := { s.put j { s.stations j with pendingNeighborRequests := handled.data.pendingNeighborRequests } with
        system := s.system.move j handled.data.protocol }
      handled.effects.foldl (perform g j via) s
    else s
  | none => s

def step (s : Queries ι κ) : Action ι → Queries ι κ
  | .routing a => { s with system := s.system.step a }
  | .neighborsOf i target now => s.neighborsOf i target now
  | .resume i now => s.resume i now
  | .expire i => s.expire i
  | .deliver k j via now => s.deliver k j via now
  | .scanExpired i now =>
    let st := s.stations i
    let now := reading st now
    s.put i { st with expired := expiredRequests now st.pendingNeighborRequests, clock := now }
  | .removeExpired i =>
    let st := s.stations i
    s.put i { st with pendingNeighborRequests := st.pendingNeighborRequests.eraseAll st.expired, expired := [] }

def run (s : Queries ι κ) (actions : List (Action ι)) : Queries ι κ := actions.foldl step s

def boot (start : ι → SimpleRoutingProtocol κ) (address : ι → ℕ) : Queries ι κ :=
  ⟨System.boot start, address, fun _ => ⟨∅, none, [], 0, 0, none⟩, [], []⟩

inductive Reachable (start : ι → SimpleRoutingProtocol κ) (address : ι → ℕ) (C : Queries ι κ → Action ι → Prop) :
    Queries ι κ → Prop where
  | boot : Reachable start address C (boot start address)
  | step {s : Queries ι κ} (a : Action ι) (ha : C s a) (h : Reachable start address C s) :
      Reachable start address C (s.step a)

theorem receivePacket_cases {kind : Kind} (content : kind.Content) (source : SocketAddr) (now : Instant)
    (data : ProtocolData κ) :
    (receivePacket (packet content) source now data).data = data ∧
        (receivePacket (packet content) source now data).effects = [] ∨
      ∃ content', kind.Same content' content ∧
        receivePacket (packet content) source now data = handleMessage ⟨kind, content'⟩ source now data := by
  have hreceived : socketReceive data.protocol.ourIps (packet content).toByteArray source = none ∨
      socketReceive data.protocol.ourIps (packet content).toByteArray source =
        some (Utf8.lossy ((packet content).toByteArray.extract 0 4096)) := by
    unfold socketReceive
    split
    · split
      · exact Or.inl rfl
      · exact Or.inr rfl
    · exact Or.inr rfl
  unfold receivePacket
  obtain h | h := hreceived
  · rw [h]
    exact Or.inl ⟨rfl, rfl⟩
  · rw [h]
    dsimp only
    unfold handleMessageWithProtocolData
    obtain ⟨e, he⟩ | ⟨content', hsame, hok⟩ := decodeMessage_packet content
    · rw [he]
      exact Or.inl ⟨rfl, rfl⟩
    · rw [hok]
      exact Or.inr ⟨content', hsame, rfl⟩

theorem receivePacket_request (request : Kind.neighborRequest.Content) (source : SocketAddr) (now : Instant)
    (data : ProtocolData κ) :
    (receivePacket (packet request) source now data).data = data ∧
      ((receivePacket (packet request) source now data).effects = [] ∨
        request.targetRouterId = data.protocol.router.id ∧ ∃ response : Kind.neighborResponse.Content,
          response.requestId = request.requestId ∧
            (receivePacket (packet request) source now data).effects = [.send (packet response) source]) := by
  obtain ⟨hdata, hnone⟩ | ⟨request', hsame, h⟩ := receivePacket_cases request source now data
  · exact ⟨hdata, Or.inl hnone⟩
  · obtain rfl : request' = request := hsame
    rw [h]
    simp only [handleMessage, handleNeighborRequestStatic]
    split
    · next htarget => exact ⟨rfl, Or.inr ⟨htarget, _, rfl, rfl⟩⟩
    · exact ⟨rfl, Or.inl rfl⟩

theorem receivePacket_response (response : Kind.neighborResponse.Content) (source : SocketAddr) (now : Instant)
    (data : ProtocolData κ) :
    (receivePacket (packet response) source now data).data = data ∧
        (receivePacket (packet response) source now data).effects = [] ∨
      ∃ pending, data.pendingNeighborRequests.lookup response.requestId = some pending ∧
        (receivePacket (packet response) source now data).data =
          { data with pendingNeighborRequests := data.pendingNeighborRequests.erase response.requestId } ∧
        (receivePacket (packet response) source now data).effects =
          [.deliver pending.responder (response.neighbors.map NeighborManager.toControl)] := by
  obtain h | ⟨response', hsame, h⟩ := receivePacket_cases response source now data
  · exact Or.inl h
  · obtain rfl : response' = response := hsame
    rw [h]
    simp only [handleMessage, handleNeighborResponseStatic]
    split
    · next pending hpending => exact Or.inr ⟨pending, hpending, rfl, rfl⟩
    · exact Or.inl ⟨rfl, rfl⟩

theorem receivePacket_of_fits {kind : Kind} {content : kind.Content}
    (hfits : (packet content).toByteArray.size ≤ 4096)
    (hdecoded : decodeMessage (packet content) = .ok (some ⟨kind, content⟩)) {source : SocketAddr}
    {data : ProtocolData κ} (hother : ∀ ip, source.ip = .v4 ip → ip ∉ data.protocol.ourIps) (now : Instant) :
    receivePacket (packet content) source now data = handleMessage ⟨kind, content⟩ source now data := by
  unfold receivePacket
  rw [socketReceive_other hother, lossy_of_fits hfits]
  dsimp only
  rw [handleMessageWithProtocolData, hdecoded]

section Delivery

variable {s : Queries ι κ} {k : ℕ} {j : ι} {g : Packet ι} (hk : s.packets[k]? = some g)
  (hreaches : reaches g (s.system.nodes j) = true)
  (hother : ∀ ip, g.source.ip = .v4 ip → ip ∉ (s.system.nodes j).ourIps) (via : Ipv4Addr)
include hk hreaches hother

theorem deliver_request {request : Kind.neighborRequest.Content} (htext : g.text = packet request)
    (hfits : (packet request).toByteArray.size ≤ 4096)
    (hdecoded : decodeMessage (packet request) = .ok (some ⟨.neighborRequest, request⟩))
    (htarget : request.targetRouterId = (s.system.nodes j).router.id) {now : Instant}
    {response : Kind.neighborResponse.Content}
    (hresponse : response = NeighborManager.buildResponse request now (s.system.nodes j)) :
    s.deliver k j via now = { s with packets := s.packets ++
      [⟨⟨.v4 via, (s.system.nodes j).port⟩, .unicast g.source, packet response, j, g.call⟩] } := by
  subst hresponse
  unfold Queries.deliver
  rw [hk]
  dsimp only
  rw [if_pos hreaches, htext, receivePacket_of_fits hfits hdecoded hother]
  simp [handleMessage, handleNeighborRequestStatic, htarget, perform, put, System.move_self]

theorem deliver_response {response : Kind.neighborResponse.Content} (htext : g.text = packet response)
    (hfits : (packet response).toByteArray.size ≤ 4096)
    (hdecoded : decodeMessage (packet response) = .ok (some ⟨.neighborResponse, response⟩))
    {p : PendingNeighborRequest} (hp : (s.stations j).pendingNeighborRequests.lookup response.requestId = some p)
    (now : Instant) :
    s.deliver k j via now = s.put j (fulfil p.responder (response.neighbors.map NeighborManager.toControl)
      { s.stations j with
        pendingNeighborRequests := (s.stations j).pendingNeighborRequests.erase response.requestId }) := by
  unfold Queries.deliver
  rw [hk]
  dsimp only
  rw [if_pos hreaches, htext, receivePacket_of_fits hfits hdecoded hother]
  simp [handleMessage, handleNeighborResponseStatic, hp, perform, put, System.move_self, Function.update_idem]

end Delivery

/-! Where the packets come from, and what the pending requests wait for. -/

structure Asks (start : ι → SimpleRoutingProtocol κ) (g : Packet ι) : Prop where
  builder : g.builder = g.call.station
  source : ∃ ip ∈ (start g.call.station).ourIps, g.source.ip = .v4 ip
  text : ∃ request : Kind.neighborRequest.Content, g.text = packet request ∧
    request.requestId = g.call.requestId ∧ request.targetRouterId = g.call.target

structure Answers (start : ι → SimpleRoutingProtocol κ) (packets : List (Packet ι)) (g : Packet ι) : Prop where
  builder : (start g.builder).router.id = g.call.target
  destination : ∃ addr, g.destination = .unicast addr ∧ ∃ ip ∈ (start g.call.station).ourIps, addr.ip = .v4 ip
  request : ∃ q ∈ packets, q.call = g.call ∧ Asks start q
  text : ∃ response : Kind.neighborResponse.Content, g.text = packet response ∧ response.requestId = g.call.requestId

structure Genuine (start : ι → SimpleRoutingProtocol κ) (address : ι → ℕ) (packets : List (Packet ι)) (g : Packet ι) :
    Prop where
  minted : g.call.requestId = NeighborManager.requestId g.call.time (address g.call.station)
  built : Asks start g ∨ Answers start packets g

structure Keeps (address : ℕ) (i : ι) (st : Station ι) : Prop where
  pending : ∀ id p, st.pendingNeighborRequests.lookup id = some p → ∃ q, st.query = some q ∧
    q.call.requestId = id ∧ q.call.number = p.responder ∧ q.phase ≠ .generated ∧ q.answer = none
  current : ∀ q, st.query = some q → q.call.station = i ∧ st.last = some q.call
  unanswered : ∀ q, st.query = some q → q.phase = .generated → q.answer = none
  minted : ∀ c, st.last = some c → c.requestId = NeighborManager.requestId c.time address

structure Sound (start : ι → SimpleRoutingProtocol κ) (s : Queries ι κ) : Prop where
  system : System.Sound start s.system
  station : ∀ i, Keeps (s.address i) i (s.stations i)
  packet : ∀ g ∈ s.packets, Genuine start s.address s.packets g

omit [IpNetwork] [NetRoute κ] [SerdeJson] in
@[simp] theorem put_stations_self (s : Queries ι κ) (i : ι) (st : Station ι) : (s.put i st).stations i = st :=
  Function.update_self _ _ _

omit [IpNetwork] [NetRoute κ] [SerdeJson] in
theorem put_stations_of_ne (s : Queries ι κ) {i j : ι} (h : i ≠ j) (st : Station ι) :
    (s.put j st).stations i = s.stations i := Function.update_of_ne h _ _

omit [IpNetwork] [NetRoute κ] [SerdeJson] in
theorem put_self (s : Queries ι κ) (i : ι) : s.put i (s.stations i) = s := by
  simp [put, Function.update_eq_self]

omit [DecidableEq ι] [IpNetwork] [NetRoute κ] in
theorem Answers.mono {start : ι → SimpleRoutingProtocol κ} {packets packets' : List (Packet ι)} {g : Packet ι}
    (h : Answers start packets g) (hsub : ∀ g ∈ packets, g ∈ packets') : Answers start packets' g := by
  obtain ⟨q, hq, hcall, hasks⟩ := h.request
  exact ⟨h.builder, h.destination, ⟨q, hsub q hq, hcall, hasks⟩, h.text⟩

omit [DecidableEq ι] [IpNetwork] [NetRoute κ] in
theorem Genuine.mono {start : ι → SimpleRoutingProtocol κ} {address : ι → ℕ} {packets packets' : List (Packet ι)}
    {g : Packet ι} (h : Genuine start address packets g) (hsub : ∀ g ∈ packets, g ∈ packets') :
    Genuine start address packets' g := by
  obtain hasks | hanswers := h.built
  · exact ⟨h.minted, Or.inl hasks⟩
  · exact ⟨h.minted, Or.inr (hanswers.mono hsub)⟩

omit [DecidableEq ι] in
theorem Sound.boot {start : ι → SimpleRoutingProtocol κ} (ht : System.Topology start) (address : ι → ℕ) :
    Sound start (boot start address) := by
  refine ⟨System.Sound.boot ht, ?_, fun g hg => absurd hg List.not_mem_nil⟩
  intro i
  exact ⟨fun _ _ h => (by cases h), fun _ h => (by cases h), fun _ h => (by cases h), fun _ h => (by cases h)⟩

section Stations

variable {address : ℕ} {i : ι} {st : Station ι} {call : Call ι} {phase : QueryPhase}
  {answer : Option (List ControlNeighborInfo)}

omit [DecidableEq ι] [IpNetwork] [SerdeJson]

theorem Keeps.pending_call (h : Keeps address i st) {q : Query ι} (hq : st.query = some q) {id : String}
    {p : PendingNeighborRequest} (hp : st.pendingNeighborRequests.lookup id = some p) :
    q.call.requestId = id ∧ q.call.number = p.responder ∧ q.phase ≠ .generated ∧ q.answer = none := by
  obtain ⟨q', hq', hcall⟩ := h.pending id p hp
  obtain rfl := Option.some.inj (hq.symm.trans hq')
  exact hcall

theorem Keeps.shrink (h : Keeps address i st) {pending : Dictionary String PendingNeighborRequest}
    (hsub : ∀ id p, pending.lookup id = some p → st.pendingNeighborRequests.lookup id = some p)
    (expired : List String) (clock : SystemTime) :
    Keeps address i { st with pendingNeighborRequests := pending, expired := expired, clock := clock } :=
  ⟨fun id p hp => h.pending id p (hsub id p hp), h.current, h.unanswered, h.minted⟩

theorem Keeps.begin (h : Keeps address i st) (hidle : st.query = none) (number : ℕ) (target : String)
    (now : SystemTime) (calls : ℕ) :
    Keeps address i
      { st with
        query := some ⟨⟨i, number, target, now, NeighborManager.requestId now address⟩, .generated, none⟩
        clock := now, calls := calls
        last := some ⟨i, number, target, now, NeighborManager.requestId now address⟩ } := by
  refine ⟨?_, ?_, ?_, ?_⟩
  · intro id p hp
    obtain ⟨q, hq, -⟩ := h.pending id p hp
    rw [hidle] at hq
    cases hq
  · rintro q ⟨⟩
    exact ⟨rfl, rfl⟩
  · rintro q ⟨⟩ -
    rfl
  · rintro c ⟨⟩
    rfl

theorem Keeps.store (h : Keeps address i st) (hq : st.query = some ⟨call, .generated, answer⟩) (now : SystemTime) :
    Keeps address i
      { st with
        pendingNeighborRequests := st.pendingNeighborRequests.insert call.requestId ⟨call.number, now⟩
        query := some ⟨call, .stored, answer⟩
        clock := now } := by
  refine ⟨?_, ?_, ?_, h.minted⟩
  · intro id p hp
    by_cases hid : id = call.requestId
    · subst hid
      rw [AList.lookup_insert] at hp
      obtain rfl := Option.some.inj hp
      have hnone : answer = none := h.unanswered _ hq rfl
      exact ⟨_, rfl, rfl, rfl, by simp, hnone⟩
    · rw [AList.lookup_insert_ne hid] at hp
      obtain ⟨-, -, hphase, -⟩ := h.pending_call hq hp
      exact absurd rfl hphase
  · rintro q ⟨⟩
    have hcurrent := h.current _ hq
    exact hcurrent
  · rintro q ⟨⟩ hphase
    cases hphase

theorem Keeps.advance (h : Keeps address i st) (hq : st.query = some ⟨call, phase, answer⟩) {phase' : QueryPhase}
    (hphase : phase' ≠ .generated) : Keeps address i { st with query := some ⟨call, phase', answer⟩ } := by
  refine ⟨?_, ?_, ?_, h.minted⟩
  · intro id p hp
    obtain ⟨hid, hnumber, -, hanswer⟩ := h.pending_call hq hp
    exact ⟨_, rfl, hid, hnumber, hphase, hanswer⟩
  · rintro q ⟨⟩
    have hcurrent := h.current _ hq
    exact hcurrent
  · rintro q ⟨⟩ hgenerated
    exact absurd hgenerated hphase

theorem Keeps.finish (h : Keeps address i st) {pending : Dictionary String PendingNeighborRequest}
    (hempty : ∀ id p, pending.lookup id ≠ some p) :
    Keeps address i { st with pendingNeighborRequests := pending, query := none } :=
  ⟨fun id p hp => absurd hp (hempty id p), fun _ hq => (by cases hq), fun _ hq => (by cases hq), h.minted⟩

theorem Keeps.pending_answered (h : Keeps address i st) {neighbors : List ControlNeighborInfo}
    (hq : st.query = some ⟨call, phase, some neighbors⟩) (id : String) (p : PendingNeighborRequest) :
    st.pendingNeighborRequests.lookup id ≠ some p := by
  intro hp
  obtain ⟨-, -, -, hanswer⟩ := h.pending_call hq hp
  cases hanswer

theorem Keeps.pending_erased (h : Keeps address i st) (hq : st.query = some ⟨call, phase, answer⟩) (id : String)
    (p : PendingNeighborRequest) : (st.pendingNeighborRequests.erase call.requestId).lookup id ≠ some p := by
  intro hp
  obtain ⟨hne, hp⟩ := Dictionary.lookup_erase_some hp
  obtain ⟨hid, -⟩ := h.pending_call hq hp
  exact hne hid.symm

theorem fulfil_last (responder : ℕ) (neighbors : List ControlNeighborInfo) (st : Station ι) :
    (fulfil responder neighbors st).last = st.last := by
  unfold fulfil
  split
  · split <;> rfl
  · rfl

theorem fulfil_query {responder : ℕ} {neighbors : List ControlNeighborInfo} {q : Query ι}
    (h : (fulfil responder neighbors st).query = some q) :
    ∃ q', st.query = some q' ∧ q.call = q'.call ∧ (q.answer = q'.answer ∨ q.answer = some neighbors) := by
  unfold fulfil at h
  split at h
  · next q' hq =>
    split at h
    · obtain rfl := Option.some.inj h
      exact ⟨q', hq, rfl, Or.inr rfl⟩
    · exact ⟨q, h, rfl, Or.inl rfl⟩
  · exact ⟨q, h, rfl, Or.inl rfl⟩

theorem Keeps.fulfil (h : Keeps address i st) {id : String} {p : PendingNeighborRequest}
    (hp : st.pendingNeighborRequests.lookup id = some p) (neighbors : List ControlNeighborInfo) :
    Keeps address i (fulfil p.responder neighbors
      { st with pendingNeighborRequests := st.pendingNeighborRequests.erase id }) := by
  obtain ⟨⟨call, phase, answer⟩, hq, hid, -, hphase, -⟩ := h.pending id p hp
  have hempty := h.pending_erased hq
  rw [hid] at hempty
  unfold Queries.fulfil
  simp only [hq]
  split
  · refine ⟨fun id p hp => absurd hp (hempty id p), ?_, ?_, h.minted⟩
    · rintro q ⟨⟩
      have hcurrent := h.current _ hq
      exact hcurrent
    · rintro q ⟨⟩ hgenerated
      exact absurd hgenerated hphase
  · rw [← hq]
    exact ⟨fun id p hp => absurd hp (hempty id p), h.current, h.unanswered, h.minted⟩

end Stations

section Steps

variable {start : ι → SimpleRoutingProtocol κ} {s : Queries ι κ}

omit [NetRoute κ] in
theorem Sound.put (hs : Sound start s) {i : ι} {st : Station ι} (h : Keeps (s.address i) i st) :
    Sound start (s.put i st) := by
  refine ⟨hs.system, ?_, hs.packet⟩
  intro k
  by_cases hk : k = i
  · subst hk
    rw [put_stations_self]
    exact h
  · rw [put_stations_of_ne s hk]
    exact hs.station k

omit [DecidableEq ι] [NetRoute κ] in
theorem Sound.send (hs : Sound start s) {packets : List (Packet ι)}
    (h : ∀ g ∈ packets, Genuine start s.address (s.packets ++ packets) g) :
    Sound start { s with packets := s.packets ++ packets } := by
  refine ⟨hs.system, hs.station, ?_⟩
  intro g hg
  obtain hg | hg := List.mem_append.mp hg
  · exact (hs.packet g hg).mono (fun _ => List.mem_append_left _)
  · exact h g hg

omit [NetRoute κ] in
theorem Sound.neighborsOf (hs : Sound start s) (i : ι) (target : String) (now : SystemTime) :
    Sound start (s.neighborsOf i target now) := by
  unfold Queries.neighborsOf
  dsimp only
  split
  · exact hs
  · next hidle =>
    split
    · exact hs
    · exact hs.put ((hs.station i).begin hidle _ _ _ _)

omit [DecidableEq ι] in
theorem sendNeighborRequest_genuine (ht : System.Topology start) (hs : Sound start s) {i : ι} {q : Query ι}
    (hq : (s.stations i).query = some q) :
    ∀ g ∈ sendNeighborRequest (s.system.nodes i) q.call, g.call = q.call ∧ g.builder = i ∧
      Asks start g ∧ g.call.requestId = NeighborManager.requestId g.call.time (s.address g.call.station) := by
  intro g hg
  obtain ⟨hstation, hlast⟩ := (hs.station i).current q hq
  obtain ⟨e, he, rfl⟩ := List.mem_map.mp hg
  have hsame := hs.system.same i
  have hinfo : (start i).router.interfaces.lookup e.1 = some e.2 := by
    rw [← hsame.interfaces]
    exact Dictionary.mem_entries.mp he
  refine ⟨rfl, hstation, ⟨rfl, ⟨e.2.ip, ?_, rfl⟩, _, rfl, rfl, rfl⟩, ?_⟩
  · dsimp only
    rw [hstation]
    exact ht.ourIps.mpr ⟨e.1, e.2, hinfo, rfl⟩
  · dsimp only
    rw [hstation]
    exact (hs.station i).minted q.call hlast

theorem Sound.resume (hs : Sound start s) (ht : System.Topology start) (i : ι) (now : SystemTime) :
    Sound start (s.resume i now) := by
  have hi := hs.station i
  unfold Queries.resume
  dsimp only
  split
  · next hq => exact hs.put (hi.store hq _)
  · next call answer hq =>
    refine (hs.put (hi.advance hq (by simp))).send ?_
    intro g hg
    obtain ⟨-, -, hasks, hminted⟩ := sendNeighborRequest_genuine ht hs hq g hg
    exact ⟨hminted, Or.inl hasks⟩
  · next call neighbors hq =>
    have h := hs.put (hi.finish (hi.pending_answered hq))
    exact ⟨h.system, h.station, h.packet⟩
  · exact hs
  · next call _ hq =>
    have h := hs.put (hi.finish (hi.pending_erased hq))
    exact ⟨h.system, h.station, h.packet⟩
  · exact hs

omit [NetRoute κ] in
theorem Sound.expire (hs : Sound start s) (i : ι) : Sound start (s.expire i) := by
  unfold Queries.expire
  split
  · next call hq => exact hs.put ((hs.station i).advance hq (by simp))
  · exact hs

inductive Delivers (start : ι → SimpleRoutingProtocol κ) (s : Queries ι κ) (j : ι) : Queries ι κ → Prop where
  | stay : Delivers start s j s
  | answer (via : Ipv4Addr) {g : Packet ι} (hg : g ∈ s.packets) (hasks : Asks start g)
      (htarget : g.call.target = (s.system.nodes j).router.id) {response : Kind.neighborResponse.Content}
      (hid : response.requestId = g.call.requestId) :
      Delivers start s j { s with packets := s.packets ++
        [⟨⟨.v4 via, (s.system.nodes j).port⟩, .unicast g.source, packet response, j, g.call⟩] }
  | fulfil {g : Packet ι} (hg : g ∈ s.packets) (hanswers : Answers start s.packets g)
      (hreaches : reaches g (s.system.nodes j) = true) {response : Kind.neighborResponse.Content}
      (htext : g.text = packet response) (hid : response.requestId = g.call.requestId) {p : PendingNeighborRequest}
      (hp : (s.stations j).pendingNeighborRequests.lookup response.requestId = some p) :
      Delivers start s j (s.put j (fulfil p.responder (response.neighbors.map NeighborManager.toControl)
        { s.stations j with
          pendingNeighborRequests := (s.stations j).pendingNeighborRequests.erase response.requestId }))

theorem deliver_delivers (hs : Sound start s) (k : ℕ) (j : ι) (via : Ipv4Addr) (now : Instant) :
    Delivers start s j (s.deliver k j via now) := by
  unfold Queries.deliver
  cases hk : s.packets[k]? with
  | none => exact Delivers.stay
  | some g =>
    have hg := List.mem_of_getElem? hk
    dsimp only
    split
    · next hreaches =>
      obtain hasks | hanswers := (hs.packet g hg).built
      · obtain ⟨request, htext, hid', htarget'⟩ := hasks.text
        obtain ⟨hdata, heffects⟩ := receivePacket_request request g.source now
          ⟨s.system.nodes j, (s.stations j).pendingNeighborRequests⟩
        rw [htext, hdata, put_self, System.move_self]
        obtain hnone | ⟨htarget, response, hid, hsend⟩ := heffects
        · rw [hnone]
          exact Delivers.stay
        · rw [hsend]
          exact Delivers.answer via hg hasks (htarget'.symm.trans htarget) (hid.trans hid')
      · obtain ⟨response, htext, hid⟩ := hanswers.text
        obtain ⟨hdata, hnone⟩ | ⟨p, hp, hdata, hdeliver⟩ := receivePacket_response response g.source now
          ⟨s.system.nodes j, (s.stations j).pendingNeighborRequests⟩
        · rw [htext, hdata, hnone, put_self, System.move_self]
          exact Delivers.stay
        · rw [htext, hdata, hdeliver, System.move_self]
          have h := Delivers.fulfil hg hanswers hreaches htext hid hp
          simpa [perform, put, Function.update_idem] using h
    · exact Delivers.stay

omit [NetRoute κ] in
theorem Sound.delivers (hs : Sound start s) {j : ι} {t : Queries ι κ} (h : Delivers start s j t) : Sound start t := by
  cases h with
  | stay => exact hs
  | @answer via g hg hasks htarget response hid =>
    apply hs.send
    intro a ha
    obtain rfl := List.mem_singleton.mp ha
    refine ⟨(hs.packet g hg).minted, Or.inr ⟨?_, ?_, ?_, ?_⟩⟩
    · exact (hs.system.same j).id.symm.trans htarget.symm
    · exact ⟨g.source, rfl, hasks.source⟩
    · exact ⟨g, List.mem_append_left _ hg, rfl, hasks⟩
    · exact ⟨response, rfl, hid⟩
  | fulfil hg hanswers hreaches htext hid hp => exact hs.put ((hs.station j).fulfil hp _)

theorem Sound.step (hs : Sound start s) (ht : System.Topology start) (a : Action ι) : Sound start (s.step a) := by
  cases a with
  | routing a => exact ⟨hs.system.moves (System.step_moves s.system a), hs.station, hs.packet⟩
  | neighborsOf i target now => exact hs.neighborsOf i target now
  | resume i now => exact hs.resume ht i now
  | expire i => exact hs.expire i
  | deliver k j via now => exact hs.delivers (deliver_delivers hs k j via now)
  | scanExpired i now => exact hs.put ((hs.station i).shrink (fun _ _ => id) _ _)
  | removeExpired i => exact hs.put ((hs.station i).shrink (fun _ _ => Dictionary.lookup_eraseAll) _ _)

theorem Reachable.sound {address : ι → ℕ} {C : Queries ι κ → Action ι → Prop} (ht : System.Topology start)
    (h : Reachable start address C s) : Sound start s := by
  induction h with
  | boot => exact Sound.boot ht address
  | step a _ _ ih => exact ih.step ht a

end Steps

theorem Reachable.mono {start : ι → SimpleRoutingProtocol κ} {address : ι → ℕ} {C D : Queries ι κ → Action ι → Prop}
    (hCD : ∀ s a, C s a → D s a) {s : Queries ι κ} (h : Reachable start address C s) : Reachable start address D s := by
  induction h with
  | boot => exact Reachable.boot
  | step a ha _ ih => exact ih.step a (hCD _ a ha)

theorem Reachable.run {start : ι → SimpleRoutingProtocol κ} {address : ι → ℕ} {C : Queries ι κ → Action ι → Prop}
    {s : Queries ι κ} (h : Reachable start address C s) {as : List (Action ι)} (has : ∀ a ∈ as, ∀ s, C s a) :
    Reachable start address C (s.run as) := by
  induction as generalizing s with
  | nil => exact h
  | cons a as ih =>
    exact ih (h.step a (has a List.mem_cons_self s)) (fun a' ha' => has a' (List.mem_cons_of_mem a ha'))

end Model

end Queries

end CustomOspf
