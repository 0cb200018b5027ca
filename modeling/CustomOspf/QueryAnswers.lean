import CustomOspf.Queries

/-!
The answers to the neighbour queries. A response is matched by the id of its
request alone, which is that of one call as long as no two of a router begin in
the same millisecond.
-/

namespace CustomOspf.Queries

section Runs

variable {ι κ : Type} [SerdeJson] {start : ι → SimpleRoutingProtocol κ}
  {s : Queries ι κ}

/-- The neighbours are those of a response that the target built to the request of this call. -/
def Answered (start : ι → SimpleRoutingProtocol κ) (packets : List (Packet ι)) (call : Call ι)
    (neighbors : List ControlNeighborInfo) : Prop :=
  ∃ q ∈ packets, ∃ a ∈ packets, q.call = call ∧ a.call = call ∧
    q.builder = call.station ∧ (start a.builder).router.id = call.target ∧
    ∃ (request : Kind.neighborRequest.Content) (response : Kind.neighborResponse.Content),
      q.text = packet request ∧ a.text = packet response ∧ request.targetRouterId = call.target ∧
        response.requestId = request.requestId ∧ response.neighbors.map NeighborManager.toControl = neighbors

def LaterMillisecond (s : Queries ι κ) : Action ι → Prop
  | .neighborsOf i target now =>
    (s.stations i).query = none → target ≠ (s.system.nodes i).router.id → ∀ call, (s.stations i).last = some call →
      call.time / 1000000 < reading (s.stations i) now / 1000000
  | _ => True

structure Fresh (start : ι → SimpleRoutingProtocol κ) (s : Queries ι κ) : Prop where
  issued : ∀ g ∈ s.packets, ∃ c, (s.stations g.call.station).last = some c ∧
    (g.call = c ∨ g.call.time / 1000000 < c.time / 1000000)
  answered : ∀ i q neighbors, (s.stations i).query = some q → q.answer = some neighbors →
    Answered start s.packets q.call neighbors
  returned : ∀ r ∈ s.returned, ∀ neighbors, r.result = some neighbors → Answered start s.packets r.call neighbors

theorem Answered.mono {start : ι → SimpleRoutingProtocol κ} {packets packets' : List (Packet ι)} {call : Call ι}
    {neighbors : List ControlNeighborInfo} (h : Answered start packets call neighbors)
    (hsub : ∀ g ∈ packets, g ∈ packets') : Answered start packets' call neighbors := by
  obtain ⟨q, hq, a, ha, hrest⟩ := h
  exact ⟨q, hsub q hq, a, hsub a ha, hrest⟩

theorem Answers.answered {start : ι → SimpleRoutingProtocol κ} {packets : List (Packet ι)} {g : Packet ι}
    (hg : g ∈ packets) (h : Answers start packets g) {response : Kind.neighborResponse.Content}
    (htext : g.text = packet response) (hid : response.requestId = g.call.requestId) :
    Answered start packets g.call (response.neighbors.map NeighborManager.toControl) := by
  obtain ⟨q, hq, hcall, hasks⟩ := h.request
  obtain ⟨request, hrequest, hid', htarget⟩ := hasks.text
  refine ⟨q, hq, g, hg, hcall, rfl, ?_, h.builder, request, response, hrequest, htext, ?_, ?_, rfl⟩
  · rw [hasks.builder, hcall]
  · rw [htarget, hcall]
  · rw [hid, hid', hcall]

theorem Fresh.send (hf : Fresh start s) {packets : List (Packet ι)}
    (h : ∀ g ∈ packets, ∃ c, (s.stations g.call.station).last = some c ∧
      (g.call = c ∨ g.call.time / 1000000 < c.time / 1000000)) :
    Fresh start { s with packets := s.packets ++ packets } := by
  have hsub : ∀ g ∈ s.packets, g ∈ s.packets ++ packets := fun _ => List.mem_append_left _
  refine ⟨?_, ?_, ?_⟩
  · intro g hg
    obtain hg | hg := List.mem_append.mp hg
    · exact hf.issued g hg
    · exact h g hg
  · intro i q neighbors hq hneighbors
    exact (hf.answered i q neighbors hq hneighbors).mono hsub
  · intro r hr neighbors hresult
    exact (hf.returned r hr neighbors hresult).mono hsub

theorem Fresh.give (hf : Fresh start s) {r : Return ι}
    (h : ∀ neighbors, r.result = some neighbors → Answered start s.packets r.call neighbors) :
    Fresh start { s with returned := s.returned ++ [r] } := by
  refine ⟨hf.issued, hf.answered, ?_⟩
  intro r' hr
  obtain hr | hr := List.mem_append.mp hr
  · exact hf.returned r' hr
  · obtain rfl := List.mem_singleton.mp hr
    exact h

variable [DecidableEq ι]

theorem Fresh.put (hf : Fresh start s) {i : ι} {st : Station ι} (hlast : st.last = (s.stations i).last)
    (hanswered : ∀ q neighbors, st.query = some q → q.answer = some neighbors →
      Answered start s.packets q.call neighbors) : Fresh start (s.put i st) := by
  refine ⟨?_, ?_, hf.returned⟩
  · intro g hg
    obtain ⟨c, hc, horder⟩ := hf.issued g hg
    refine ⟨c, ?_, horder⟩
    by_cases hi : g.call.station = i
    · rw [hi, put_stations_self, hlast, ← hi, hc]
    · rw [put_stations_of_ne s hi, hc]
  · intro k q neighbors hq hneighbors
    by_cases hk : k = i
    · subst hk
      rw [put_stations_self] at hq
      exact hanswered q neighbors hq hneighbors
    · rw [put_stations_of_ne s hk] at hq
      exact hf.answered k q neighbors hq hneighbors

theorem Fresh.neighborsOf (hf : Fresh start s) {i : ι} {target : String} {now : SystemTime}
    (hlater : LaterMillisecond s (.neighborsOf i target now)) : Fresh start (s.neighborsOf i target now) := by
  unfold Queries.neighborsOf
  dsimp only
  split
  · exact hf
  · next hidle =>
    split
    · exact hf
    · next hother =>
      refine ⟨?_, ?_, hf.returned⟩
      · intro g hg
        obtain ⟨c, hc, horder⟩ := hf.issued g hg
        by_cases hi : g.call.station = i
        · rw [hi] at hc ⊢
          have hbefore := hlater hidle hother c hc
          refine ⟨_, by rw [put_stations_self], Or.inr ?_⟩
          obtain rfl | horder := horder
          · exact hbefore
          · exact horder.trans hbefore
        · exact ⟨c, by rw [put_stations_of_ne s hi, hc], horder⟩
      · intro k q neighbors hq hneighbors
        by_cases hk : k = i
        · subst hk
          rw [put_stations_self] at hq
          obtain rfl := Option.some.inj hq
          cases hneighbors
        · rw [put_stations_of_ne s hk] at hq
          exact hf.answered k q neighbors hq hneighbors

theorem Fresh.expire (hf : Fresh start s) (i : ι) : Fresh start (s.expire i) := by
  unfold Queries.expire
  split
  · refine hf.put rfl ?_
    rintro q neighbors ⟨⟩ hneighbors
    cases hneighbors
  · exact hf

variable [IpNetwork] [NetRoute κ]

theorem Fresh.resume (hf : Fresh start s) (ht : System.Topology start) (hs : Sound start s) (i : ι)
    (now : SystemTime) : Fresh start (s.resume i now) := by
  have hkept {call : Call ι} {phase : QueryPhase} {answer : Option (List ControlNeighborInfo)}
      (hq : (s.stations i).query = some ⟨call, phase, answer⟩) (neighbors : List ControlNeighborInfo)
      (hneighbors : answer = some neighbors) : Answered start s.packets call neighbors :=
    hf.answered i _ neighbors hq hneighbors
  unfold Queries.resume
  dsimp only
  split
  · next call answer hq =>
    refine hf.put rfl ?_
    rintro q neighbors ⟨⟩ hneighbors
    exact hkept hq neighbors hneighbors
  · next call answer hq =>
    have hput : Fresh start (s.put i { s.stations i with query := some ⟨call, .waiting, answer⟩ }) := by
      refine hf.put rfl ?_
      rintro q neighbors ⟨⟩ hneighbors
      exact hkept hq neighbors hneighbors
    apply hput.send
    intro g hg
    obtain ⟨hcall, hbuilder, hasks, -⟩ := sendNeighborRequest_genuine ht hs hq g hg
    obtain ⟨-, hlast⟩ := (hs.station i).current _ hq
    refine ⟨call, ?_, Or.inl hcall⟩
    rw [← hasks.builder, hbuilder, put_stations_self]
    exact hlast
  · next call neighbors hq =>
    have hput : Fresh start (s.put i { s.stations i with query := none }) :=
      hf.put rfl (fun _ _ hnone => by cases hnone)
    apply hput.give
    rintro neighbors' ⟨⟩
    exact hkept hq neighbors rfl
  · exact hf
  · next call answer hq =>
    have hput : Fresh start (s.put i { s.stations i with
        pendingNeighborRequests := (s.stations i).pendingNeighborRequests.erase call.requestId
        query := none }) := hf.put rfl (fun _ _ hnone => by cases hnone)
    apply hput.give
    rintro neighbors ⟨⟩
  · exact hf

omit [DecidableEq ι] in
theorem Fresh.call_eq (hf : Fresh start s) (ht : System.Topology start) (hs : Sound start s) {j : ι} {g : Packet ι}
    (hg : g ∈ s.packets) (hanswers : Answers start s.packets g) (hreaches : reaches g (s.system.nodes j) = true)
    {p : PendingNeighborRequest} (hp : (s.stations j).pendingNeighborRequests.lookup g.call.requestId = some p)
    {q : Query ι} (hq : (s.stations j).query = some q) : q.call = g.call := by
  -- it goes to the address its request came from, which one router has
  have hj : g.call.station = j := by
    obtain ⟨⟨addr, port⟩, hdestination, ip, hip, rfl⟩ := hanswers.destination
    apply ht.addresses _ _ ip hip
    rw [reaches, hdestination] at hreaches
    rw [← (hs.system.same j).ourIps]
    simpa using hreaches
  subst hj
  obtain ⟨hid, -⟩ := (hs.station _).pending_call hq hp
  obtain ⟨-, hlast⟩ := (hs.station _).current q hq
  obtain ⟨c, hc, horder⟩ := hf.issued g hg
  obtain rfl := Option.some.inj (hlast.symm.trans hc)
  obtain hsame | hbefore := horder
  · exact hsame.symm
  · -- an earlier call had another id
    have hminted := (hs.station _).minted q.call hlast
    rw [hminted, (hs.packet g hg).minted] at hid
    exact absurd (NeighborManager.requestId_inj hid) (Nat.ne_of_gt hbefore)

theorem Fresh.delivers (hf : Fresh start s) (ht : System.Topology start) (hs : Sound start s) {j : ι}
    {t : Queries ι κ} (h : Delivers start s j t) : Fresh start t := by
  cases h with
  | stay => exact hf
  | @answer via g hg hasks htarget response hid =>
    apply hf.send
    intro a ha
    obtain rfl := List.mem_singleton.mp ha
    exact hf.issued g hg
  | fulfil hg hanswers hreaches htext hid hp =>
    refine hf.put (fulfil_last _ _ _) ?_
    intro q neighbors hq hneighbors
    obtain ⟨q', hq', hcall, hkept | hnew⟩ := fulfil_query hq
    · rw [hcall]
      exact hf.answered j q' neighbors hq' (hkept.symm.trans hneighbors)
    · obtain rfl := Option.some.inj (hnew.symm.trans hneighbors)
      rw [hid] at hp
      rw [hcall, hf.call_eq ht hs hg hanswers hreaches hp hq']
      exact hanswers.answered hg htext hid

theorem Fresh.step (hf : Fresh start s) (ht : System.Topology start) (hs : Sound start s) {a : Action ι}
    (hlater : LaterMillisecond s a) : Fresh start (s.step a) := by
  cases a with
  | routing a => exact ⟨hf.issued, hf.answered, hf.returned⟩
  | neighborsOf i target now => exact hf.neighborsOf hlater
  | resume i now => exact hf.resume ht hs i now
  | expire i => exact hf.expire i
  | deliver k j via now => exact hf.delivers ht hs (deliver_delivers hs k j via now)
  | scanExpired i now => exact hf.put rfl (hf.answered i)
  | removeExpired i => exact hf.put rfl (hf.answered i)

theorem Reachable.fresh {address : ι → ℕ} (ht : System.Topology start)
    (h : Reachable start address LaterMillisecond s) : Fresh start s := by
  induction h with
  | boot =>
    exact ⟨fun _ hg => absurd hg List.not_mem_nil, fun _ _ _ hq => (by cases hq),
      fun _ hr => absurd hr List.not_mem_nil⟩
  | step a ha h ih => exact ih.step ht (h.sound ht) ha

theorem getNeighborsOf_answered (ht : System.Topology start) {address : ι → ℕ}
    (h : Reachable start address LaterMillisecond s) {r : Return ι} (hr : r ∈ s.returned)
    {neighbors : List ControlNeighborInfo} (hsome : r.result = some neighbors) :
    Answered start s.packets r.call neighbors :=
  (h.fresh ht).returned r hr neighbors hsome

end Runs

/-! Three routers in a line: "B" asks "A", and in the same millisecond "C". -/

section Line

open CustomOspf.System (line lineA lineB line_topology)

abbrev LineQueries := Queries (Fin 3) (Finset SystemRoute)

def bootLine : LineQueries := boot line (fun _ => 0)

def lineCall (number : ℕ) (target : String) : Call (Fin 3) := ⟨lineB, number, target, 0, "0_0"⟩

def lineRequest : Kind.neighborRequest.Content := NeighborRequest.mk "B" "0_0" "A"

def lineResponse : Kind.neighborResponse.Content :=
  NeighborResponse.mk "A" "0_0" [⟨"B", "10.0.0.2", "0ns ago", true, []⟩]

def responsePacket : Packet (Fin 3) :=
  ⟨⟨.v4 (.new 10 0 0 1), 5555⟩, .unicast (Observed.lanPeer 2), packet lineResponse, lineA, lineCall 0 "A"⟩

def asked : LineQueries :=
  bootLine.run [.routing (.hello ⟨"B", ∅⟩ (Observed.lanPeer 2) lineA 0), .neighborsOf lineB "A" 0, .resume lineB 0,
    .resume lineB 0]

def replied : LineQueries := { asked with packets := asked.packets ++ [responsePacket] }

def fulfilled (s : LineQueries) (responder : ℕ) : LineQueries :=
  s.put lineB (fulfil responder (lineResponse.neighbors.map NeighborManager.toControl)
    { s.stations lineB with pendingNeighborRequests := (s.stations lineB).pendingNeighborRequests.erase "0_0" })

def answered : LineQueries := (fulfilled replied 0).resume lineB 0

def askedAgain : LineQueries := answered.run [.neighborsOf lineB "C" 0, .resume lineB 0, .resume lineB 0]

-- the network delivers the response of "A" once more
def misled : LineQueries := (fulfilled askedAgain 1).resume lineB 0

theorem asked_deliver : asked.deliver 1 lineA (.new 10 0 0 1) 0 = replied := by
  have hpacket : asked.packets[1]? =
      some ⟨Observed.lanPeer 2, .broadcast ⟨.new 10 0 0 0, 24⟩, packet lineRequest, lineB, lineCall 0 "A"⟩ := by rfl
  have hother : ∀ ip, (Observed.lanPeer 2).ip = .v4 ip → ip ∉ (asked.system.nodes lineA).ourIps := by
    intro ip hip
    rw [← IpAddr.v4.inj hip]
    decide +kernel
  have hbuilt : NeighborResponse.mk "A" "0_0" [⟨"B", "10.0.0.2", "0ns ago", true, []⟩] =
      NeighborManager.buildResponse lineRequest 0 (asked.system.nodes lineA) := by decide +kernel
  exact deliver_request hpacket (by decide +kernel) hother _ rfl (Crate.packet_fits (by decide +kernel))
    (Crate.packet_decoded lineRequest) (by decide +kernel) hbuilt

theorem response_deliver {s : LineQueries} (hk : s.packets[2]? = some responsePacket)
    (hips : (s.system.nodes lineB).ourIps = (asked.system.nodes lineB).ourIps) {p : PendingNeighborRequest}
    (hp : (s.stations lineB).pendingNeighborRequests.lookup "0_0" = some p) :
    s.deliver 2 lineB (.new 10 0 0 1) 0 = fulfilled s p.responder := by
  have hreaches : reaches responsePacket (s.system.nodes lineB) = true := by
    have hown : (asked.system.nodes lineB).ourIps.contains (.new 10 0 0 2) = true := by decide +kernel
    rw [← hips] at hown
    exact hown
  have hother : ∀ ip, responsePacket.source.ip = .v4 ip → ip ∉ (s.system.nodes lineB).ourIps := by
    intro ip hip
    rw [← IpAddr.v4.inj hip, hips]
    decide +kernel
  exact deliver_response hk hreaches hother _ rfl (Crate.packet_fits (by decide +kernel))
    (Crate.packet_decoded lineResponse) hp 0

theorem replied_deliver : replied.deliver 2 lineB (.new 10 0 0 1) 0 = fulfilled replied 0 := by
  have hpacket : replied.packets[2]? = some responsePacket := by rfl
  have hips : (replied.system.nodes lineB).ourIps = (asked.system.nodes lineB).ourIps := by rfl
  have hpending : (replied.stations lineB).pendingNeighborRequests.lookup "0_0" = some ⟨0, 0⟩ := by decide +kernel
  exact response_deliver hpacket hips hpending

theorem askedAgain_deliver : askedAgain.deliver 2 lineB (.new 10 0 0 1) 0 = fulfilled askedAgain 1 := by
  have hpacket : askedAgain.packets[2]? = some responsePacket := by rfl
  have hips : (askedAgain.system.nodes lineB).ourIps = (asked.system.nodes lineB).ourIps := by rfl
  have hpending : (askedAgain.stations lineB).pendingNeighborRequests.lookup "0_0" = some ⟨1, 0⟩ := by decide +kernel
  exact response_deliver hpacket hips hpending

theorem answered_reachable : Reachable line (fun _ => 0) LaterMillisecond answered := by
  have hhello : Reachable line (fun _ => 0) LaterMillisecond
      (bootLine.run [.routing (.hello ⟨"B", ∅⟩ (Observed.lanPeer 2) lineA 0)]) :=
    Reachable.step (.routing (.hello ⟨"B", ∅⟩ (Observed.lanPeer 2) lineA 0)) trivial Reachable.boot
  have hfirst : LaterMillisecond (bootLine.run [.routing (.hello ⟨"B", ∅⟩ (Observed.lanPeer 2) lineA 0)])
      (.neighborsOf lineB "A" 0) := by
    intro _ _ call hcall
    cases hcall
  have hasked : Reachable line (fun _ => 0) LaterMillisecond asked :=
    ((hhello.step _ hfirst).step (.resume lineB 0) trivial).step (.resume lineB 0) trivial
  have hreplied := hasked.step (.deliver 1 lineA (.new 10 0 0 1) 0) trivial
  rw [Queries.step, asked_deliver] at hreplied
  have hfulfilled := hreplied.step (.deliver 2 lineB (.new 10 0 0 1) 0) trivial
  rw [Queries.step, replied_deliver] at hfulfilled
  exact hfulfilled.step (.resume lineB 0) trivial

theorem answered_returned : answered.returned[0]? =
    some ⟨lineCall 0 "A", some (lineResponse.neighbors.map NeighborManager.toControl)⟩ := by rfl

theorem misled_reachable : Reachable line (fun _ => 0) (fun _ _ => True) misled := by
  have hanswered := answered_reachable.mono (fun _ _ _ => trivial)
  have hagain : Reachable line (fun _ => 0) (fun _ _ => True) askedAgain := hanswered.run (fun _ _ _ => trivial)
  have hfulfilled := hagain.step (.deliver 2 lineB (.new 10 0 0 1) 0) trivial
  rw [Queries.step, askedAgain_deliver] at hfulfilled
  exact hfulfilled.step (.resume lineB 0) trivial

theorem misled_returned : misled.returned[1]? =
    some ⟨lineCall 1 "C", some (lineResponse.neighbors.map NeighborManager.toControl)⟩ := by rfl

theorem getNeighborsOf_answered_witness :
    Answered line answered.packets (lineCall 0 "A") [⟨"B", "10.0.0.2", "0ns ago", true, []⟩] :=
  getNeighborsOf_answered line_topology answered_reachable (List.mem_of_getElem? answered_returned) rfl

/-- "B" gives the neighbours of "A" for those of "C". -/
theorem getNeighborsOf_answered_fails :
    ¬ ∀ (start : Fin 3 → SimpleRoutingProtocol (Finset SystemRoute)) (address : Fin 3 → ℕ), System.Topology start →
      ∀ s : LineQueries, Reachable start address (fun _ _ => True) s → ∀ r ∈ s.returned,
        ∀ neighbors, r.result = some neighbors → Answered start s.packets r.call neighbors := by
  intro h
  obtain ⟨-, -, a, ha, -, hcall, -, htarget, -⟩ := h line (fun _ => 0) line_topology misled misled_reachable _
    (List.mem_of_getElem? misled_returned) _ rfl
  have hnone : ∀ a ∈ misled.packets, a.call = lineCall 1 "C" → (line a.builder).router.id ≠ "C" := by
    decide +kernel
  exact hnone a ha hcall htarget

end Line

end CustomOspf.Queries
