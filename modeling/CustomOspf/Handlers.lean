import CustomOspf.Wire
import CustomOspf.Library.Checked

/-!
The four packet handlers in a build with overflow checks, with the result of
every function they call: a value, an error, or a panic.
-/

namespace CustomOspf

section Build

variable {κ : Type} [IpNetwork] [NetRoute κ]

/-! Each call to the kernel returns whatever the kernel answers. -/

namespace RoutingTable

def addSystemRouteChecked (t : RoutingTable κ) (route : RouteEntry) : Checked (RoutingTable κ) :=
  match NetRoute.add t.routeHandle (systemRoute route) with
  | (handle, true) => .returned { t with routeHandle := handle }
  | (handle, false) =>
    match NetRoute.add (NetRoute.delete handle (systemRoute route)).1 (systemRoute route) with
    | (handle, true) => .returned { t with routeHandle := handle }
    | (handle, false) => .returned { t with routeHandle := handle }

def deleteSystemRouteChecked (t : RoutingTable κ) (route : RouteEntry) : Checked (RoutingTable κ) :=
  match NetRoute.delete t.routeHandle (systemRoute route) with
  | (handle, true) => .returned { t with routeHandle := handle }
  | (handle, false) => .returned { t with routeHandle := handle }

-- a direct route has no kernel route of the protocol
def clearChecked (t : RoutingTable κ) (existing : RouteEntry) : Checked (RoutingTable κ) :=
  if existing.source ≠ .direct then t.deleteSystemRouteChecked existing else .returned t

def announceChecked (t : RoutingTable κ) (route : RouteEntry) : Checked (RoutingTable κ) :=
  if route.source ≠ .direct then t.addSystemRouteChecked route else .returned t

def addRouteChecked (t : RoutingTable κ) (route : RouteEntry) : Checked (RoutingTable κ) :=
  if !t.isValidRoute route then .returned t
  else match t.findRouteIndex route.destination with
  | some index =>
    let existing := t.routes.get index
    if route.metric < existing.metric ∨
        (route.source = existing.source ∧ route.nextHop ≠ existing.nextHop) then do
      let cleared ← t.clearChecked existing
      announceChecked { cleared with routes := t.routes.set index route } route
    else .returned t
  | none => announceChecked { t with routes := t.routes ++ [route] } route

def replaceRouteChecked (t : RoutingTable κ) (route : RouteEntry) : Checked (RoutingTable κ) := do
  let emptied ← match t.findRouteIndex route.destination with
    | some index => do
      let existing := t.routes.get index
      let cleared ← t.clearChecked existing
      .returned ({ cleared with routes := t.routes.eraseIdx index } : RoutingTable κ)
    | none => .returned t
  emptied.addRouteChecked route

theorem addSystemRouteChecked_eq (t : RoutingTable κ) (route : RouteEntry) :
    t.addSystemRouteChecked route = .returned (t.addSystemRoute route) := by
  unfold addSystemRouteChecked addSystemRoute install
  cases NetRoute.add t.routeHandle (systemRoute route) with
  | mk handle added =>
    cases added with
    | true => rfl
    | false =>
      dsimp only
      cases NetRoute.add (NetRoute.delete handle (systemRoute route)).1 (systemRoute route) with
      | mk handle' added' => cases added' <;> rfl

theorem deleteSystemRouteChecked_eq (t : RoutingTable κ) (route : RouteEntry) :
    t.deleteSystemRouteChecked route = .returned (t.deleteSystemRoute route) := by
  unfold deleteSystemRouteChecked deleteSystemRoute uninstall
  cases NetRoute.delete t.routeHandle (systemRoute route) with
  | mk handle deleted => cases deleted <;> rfl

theorem clearChecked_eq (t : RoutingTable κ) (existing : RouteEntry) :
    t.clearChecked existing = .returned (if existing.source ≠ .direct then t.deleteSystemRoute existing else t) := by
  rw [clearChecked, deleteSystemRouteChecked_eq]
  split <;> rfl

theorem announceChecked_eq (t : RoutingTable κ) (route : RouteEntry) :
    t.announceChecked route = .returned (if route.source ≠ .direct then t.addSystemRoute route else t) := by
  rw [announceChecked, addSystemRouteChecked_eq]
  split <;> rfl

theorem addRouteChecked_eq (t : RoutingTable κ) (route : RouteEntry) :
    t.addRouteChecked route = .returned (t.addRoute route) := by
  unfold addRouteChecked addRoute
  split
  · rfl
  · cases t.findRouteIndex route.destination with
    | none => exact announceChecked_eq _ route
    | some index =>
      simp only [clearChecked_eq, Checked.returned_bind, announceChecked_eq]
      split <;> rfl

theorem replaceRouteChecked_eq (t : RoutingTable κ) (route : RouteEntry) :
    t.replaceRouteChecked route = .returned (t.replaceRoute route) := by
  unfold replaceRouteChecked replaceRoute
  cases t.findRouteIndex route.destination with
  | none => exact addRouteChecked_eq t route
  | some index =>
    simp only [clearChecked_eq, Checked.returned_bind]
    exact addRouteChecked_eq _ route

end RoutingTable

namespace Router

def updateRouteChecked (table : RoutingTable κ) (route : RouteEntry) : Checked (RoutingTable κ) :=
  if !table.hasBetterRoute route then
    match table.findRoute route.destination with
    | some existing =>
      if existing.metric = route.metric ∧ existing.nextHop ≠ route.nextHop then table.replaceRouteChecked route
      else table.addRouteChecked route
    | none => table.addRouteChecked route
  else .returned table

def updateRoutingTableChecked (router : Router κ) (newRoutes : List RouteEntry) : Checked (Router κ) := do
  let table ← newRoutes.foldlM updateRouteChecked router.routingTable
  .returned { router with routingTable := table }

theorem updateRouteChecked_eq (table : RoutingTable κ) (route : RouteEntry) :
    updateRouteChecked table route = .returned (updateRoute table route) := by
  unfold updateRouteChecked updateRoute
  simp only [RoutingTable.addRouteChecked_eq, RoutingTable.replaceRouteChecked_eq]
  split
  · cases table.findRoute route.destination with
    | none => rfl
    | some existing =>
      dsimp only
      split <;> rfl
  · rfl

theorem updateRoutingTableChecked_eq (router : Router κ) (newRoutes : List RouteEntry) :
    router.updateRoutingTableChecked newRoutes = .returned (router.updateRoutingTable newRoutes) := by
  rw [updateRoutingTableChecked, Checked.foldlM_returned updateRouteChecked_eq]
  rfl

end Router

namespace RouteManager

def addChecked (a b : UInt32) : Checked UInt32 :=
  if a.toNat + b.toNat < 2 ^ 32 then .returned (a + b) else .panicked "attempt to add with overflow"

def processSingleRouteChecked (routeInfo : RouteInfo) (advertisingRouter : String) (senderIp : Ipv4Addr)
    (routerInterfaces : Interfaces) (now : Instant) : Checked (Option (RouteEntry × RouteState)) :=
  match hostToNetworkRoute routeInfo.destination with
  | none => .returned none
  | some correctedDestination =>
    match Ipv4Network.parse correctedDestination with
    | none => .returned none
    | some destination =>
      match Ipv4Addr.parse routeInfo.nextHop with
      | none => .returned none
      | some advertisedNextHop =>
        if isOurNetwork destination routerInterfaces then .returned none
        else match findBestInterfaceForSender senderIp routerInterfaces with
        | none => .returned none
        | some (interfaceName, _) => do
          let actualNextHop := determineNextHop advertisedNextHop senderIp routerInterfaces
          let metric ← addChecked routeInfo.metric 1
          let route : RouteEntry :=
            { destination := destination, nextHop := actualNextHop, interface := interfaceName,
              metric := metric, source := .protocol }
          .returned (some (route, { route := route, lastAdvertised := now, advertisingNeighbor := advertisingRouter }))

def collectRouteChecked (advertisingRouter : String) (senderIp : Ipv4Addr) (routerInterfaces : Interfaces)
    (now : Instant) (router : Router κ) (collected : List RouteEntry × List (String × RouteState))
    (routeInfo : RouteInfo) : Checked (List RouteEntry × List (String × RouteState)) := do
  match ← processSingleRouteChecked routeInfo advertisingRouter senderIp routerInterfaces now with
  | some (route, routeState) =>
    if shouldAcceptRoute route router then
      .returned (collected.1 ++ [route], collected.2 ++ [(routeInfo.destination, routeState)])
    else .returned collected
  | none => .returned collected

def processRoutingUpdateChecked (update : RoutingUpdate) (senderAddr : SocketAddr) (now : Instant)
    (router : Router κ) (routeStates : RouteStates) : Checked (Router κ × RouteStates) :=
  match senderAddr.ip with
  | .v6 _ => .failed "Only IPv4 addresses supported"
  | .v4 senderIp => do
    let (newRoutes, updatedRouteStates) ← update.routes.foldlM
      (collectRouteChecked update.routerId senderIp router.interfaces now router) ([], [])
    let routeStates := updateRouteStates routeStates updatedRouteStates
    if !newRoutes.isEmpty then do
      let router ← (router.updateRoutingTableChecked newRoutes).expect "Failed to apply new routes"
      .returned (router, routeStates)
    else .returned (router, routeStates)

def overflows (senderIp : Ipv4Addr) (routerInterfaces : Interfaces) (routeInfo : RouteInfo) : Bool :=
  routeInfo.metric = 0xffffffff &&
    ((destinationOf routeInfo.destination).any (fun d => !isOurNetwork d routerInterfaces) &&
      ((Ipv4Addr.parse routeInfo.nextHop).isSome && (findBestInterfaceForSender senderIp routerInterfaces).isSome))

omit [IpNetwork] in
theorem addChecked_one (a : UInt32) :
    addChecked a 1 = if a = 0xffffffff then .panicked "attempt to add with overflow" else .returned (a + 1) := by
  have hlt := a.toNat_lt
  have hone : (1 : UInt32).toNat = 1 := rfl
  have hmax : (0xffffffff : UInt32).toNat = 2 ^ 32 - 1 := rfl
  unfold addChecked
  simp only [← UInt32.toNat_inj, hone, hmax]
  split <;> split <;> first | rfl | omega

theorem processSingleRouteChecked_eq (info : RouteInfo) (advertiser : String) (sender : Ipv4Addr)
    (interfaces : Interfaces) (now : Instant) :
    processSingleRouteChecked info advertiser sender interfaces now =
      if overflows sender interfaces info then .panicked "attempt to add with overflow"
      else .returned (processSingleRoute info advertiser sender interfaces now) := by
  unfold processSingleRouteChecked processSingleRoute overflows
  rw [← destinationOf_eq]
  cases hh : hostToNetworkRoute info.destination with
  | none => simp
  | some corrected =>
    cases hd : Ipv4Network.parse corrected with
    | none => simp [hd]
    | some d =>
      cases hn : Ipv4Addr.parse info.nextHop with
      | none => simp [hd]
      | some nh =>
        cases ho : isOurNetwork d interfaces with
        | true => simp [hd, ho]
        | false =>
          cases hf : findBestInterfaceForSender sender interfaces with
          | none => simp [hd]
          | some best =>
            obtain ⟨name, iface⟩ := best
            by_cases hm : info.metric = 0xffffffff <;> simp [hd, ho, addChecked_one, hm]

omit [NetRoute κ] in
theorem collectRouteChecked_eq (advertiser : String) (sender : Ipv4Addr) (interfaces : Interfaces) (now : Instant)
    (router : Router κ) (collected : List RouteEntry × List (String × RouteState)) (info : RouteInfo) :
    collectRouteChecked advertiser sender interfaces now router collected info =
      if overflows sender interfaces info then .panicked "attempt to add with overflow"
      else .returned (collectRoute advertiser sender interfaces now router collected info) := by
  unfold collectRouteChecked collectRoute
  rw [processSingleRouteChecked_eq]
  by_cases ho : overflows sender interfaces info = true
  · simp [ho]
  · simp only [ho, if_false, Checked.returned_bind, Bool.false_eq_true]
    cases processSingleRoute info advertiser sender interfaces now with
    | none => rfl
    | some result =>
      dsimp only
      split <;> rfl

theorem processRoutingUpdateChecked_eq (update : RoutingUpdate) (sender : Ipv4Addr) (port : UInt16) (now : Instant)
    (router : Router κ) (states : RouteStates) :
    (processRoutingUpdateChecked update ⟨.v4 sender, port⟩ now router states =
        .panicked "attempt to add with overflow" ∧ ∃ info ∈ update.routes, overflows sender router.interfaces info = true) ∨
      (∃ result, processRoutingUpdateChecked update ⟨.v4 sender, port⟩ now router states = .returned result ∧
        processRoutingUpdate update ⟨.v4 sender, port⟩ now router states = .ok result ∧
        ∀ info ∈ update.routes, overflows sender router.interfaces info = false) := by
  unfold processRoutingUpdateChecked processRoutingUpdate
  dsimp only
  rw [Checked.foldlM_ite (collectRouteChecked_eq update.routerId sender router.interfaces now router)]
  by_cases hbad : ∃ info ∈ update.routes, overflows sender router.interfaces info = true
  · rw [if_pos hbad]
    exact Or.inl ⟨rfl, hbad⟩
  · rw [if_neg hbad]
    simp only [Checked.returned_bind, Router.updateRoutingTableChecked_eq, Checked.expect_returned]
    have hnone : ∀ info ∈ update.routes, overflows sender router.interfaces info = false := by
      simpa using hbad
    right
    split
    · exact ⟨_, rfl, rfl, hnone⟩
    · exact ⟨_, rfl, rfl, hnone⟩

end RouteManager

namespace SimpleRoutingProtocol

def handleHelloMessageChecked (hello : HelloMessage) (addr : SocketAddr) (now : Instant)
    (p : SimpleRoutingProtocol κ) : SimpleRoutingProtocol κ × Checked Unit :=
  match handleHelloMessageStatic hello addr now p with
  | (p, .ok) => (p, .returned ())
  | (p, .panicked message) => (p, .panicked message)

def handleUpdateMessageChecked (update : RoutingUpdate) (addr : SocketAddr) (now : Instant)
    (p : SimpleRoutingProtocol κ) : SimpleRoutingProtocol κ × Checked Unit :=
  if update.routerId = p.router.id then (p, .returned ())
  else
    let p := { p with neighbors := touchNeighbor update.routerId now p.neighbors }
    match (RouteManager.processRoutingUpdateChecked update addr now p.router p.routeStates).expect
      "Failed to process routing update" with
    | .returned (router, routeStates) => ({ p with router := router, routeStates := routeStates }, .returned ())
    | .failed message => (p, .failed message)
    | .panicked message => (p, .panicked message)

theorem helloInterfaces_eq_none (hello : HelloMessage) :
    helloInterfaces hello = none ↔
      ∃ name ip, hello.interfaces.lookup name = some ip ∧ Ipv4Network.parse (ip ++ "/32") = none := by
  have hloop : ∀ (l : List (Σ _ : String, String)) (found : Interfaces),
      l.foldlM (fun (found : Interfaces) e => (helloInterface e.1 e.2).map (fun info => found.insert e.1 info)) found =
        none ↔ ∃ e ∈ l, Ipv4Network.parse (e.2 ++ "/32") = none := by
    intro l
    induction l with
    | nil => simp
    | cons e l ih =>
      intro found
      cases he : Ipv4Network.parse (e.2 ++ "/32") with
      | none => simp [helloInterface, he]
      | some network =>
        obtain ⟨info, hi⟩ : ∃ info, helloInterface e.1 e.2 = some info := by simp [helloInterface, he]
        rw [List.foldlM_cons, hi, Option.map_some, Option.bind_eq_bind, Option.bind_some, ih]
        simp [he]
  unfold helloInterfaces
  rw [hloop]
  simp only [Sigma.exists, Dictionary.mem_entries]

omit [NetRoute κ] in
theorem handleHelloMessageChecked_panics {hello : HelloMessage} {addr : SocketAddr} {now : Instant}
    {p : SimpleRoutingProtocol κ} :
    (handleHelloMessageChecked hello addr now p).2.Panics ↔ hello.routerId ≠ p.router.id ∧
      ∃ name ip, hello.interfaces.lookup name = some ip ∧ Ipv4Network.parse (ip ++ "/32") = none := by
  rw [← helloInterfaces_eq_none]
  unfold handleHelloMessageChecked handleHelloMessageStatic
  by_cases hid : hello.routerId = p.router.id
  · simp [hid]
  · cases hi : helloInterfaces hello with
    | none => simp [hid]
    | some interfaces => simp [hid]

theorem handleUpdateMessageChecked_panics {update : RoutingUpdate} {sender : Ipv4Addr} {port : UInt16} {now : Instant}
    {p : SimpleRoutingProtocol κ} :
    (handleUpdateMessageChecked update ⟨.v4 sender, port⟩ now p).2.Panics ↔ update.routerId ≠ p.router.id ∧
      ∃ info ∈ update.routes, RouteManager.overflows sender p.router.interfaces info = true := by
  unfold handleUpdateMessageChecked
  by_cases hid : update.routerId = p.router.id
  · simp [hid]
  · rcases RouteManager.processRoutingUpdateChecked_eq update sender port now p.router p.routeStates with
      ⟨hp, hbad⟩ | ⟨result, hp, -, hnone⟩
    · simp [hid, hp, hbad]
    · simpa [hid, hp] using hnone

theorem handleUpdateMessageChecked_agrees {update : RoutingUpdate} {sender : Ipv4Addr} {port : UInt16} {now : Instant}
    {p : SimpleRoutingProtocol κ} (h : ¬ (handleUpdateMessageChecked update ⟨.v4 sender, port⟩ now p).2.Panics) :
    (handleUpdateMessageChecked update ⟨.v4 sender, port⟩ now p).1 =
      (handleUpdateMessageStatic update ⟨.v4 sender, port⟩ now p).1 := by
  unfold handleUpdateMessageChecked handleUpdateMessageStatic at *
  by_cases hid : update.routerId = p.router.id
  · simp [hid]
  · rcases RouteManager.processRoutingUpdateChecked_eq update sender port now p.router p.routeStates with
      ⟨hp, hbad⟩ | ⟨result, hp, hok, -⟩
    · simp [hid, hp] at h
    · simp [hid, hp, hok]

end SimpleRoutingProtocol

/-! The dispatch, with the requests that wait for an answer. -/

structure PendingNeighborRequest where
  -- the channel of the call that waits
  responder : ℕ
  timestamp : SystemTime
deriving DecidableEq

structure ProtocolData (κ : Type) where
  protocol : SimpleRoutingProtocol κ
  pendingNeighborRequests : Dictionary String PendingNeighborRequest

inductive Effect where
  | send (text : String) (addr : SocketAddr)
  | deliver (responder : ℕ) (neighbors : List ControlNeighborInfo)
deriving DecidableEq

structure Handled (κ : Type) where
  data : ProtocolData κ
  effects : List Effect
  result : Checked Unit

section Dispatch

variable [SerdeJson]

def handleNeighborRequestStatic (request : NeighborRequest) (addr : SocketAddr) (now : Instant)
    (data : ProtocolData κ) : Handled κ :=
  if request.targetRouterId = data.protocol.router.id then
    let response : Kind.neighborResponse.Content := NeighborManager.buildResponse request now data.protocol
    ⟨data, [.send (packet response) addr], .returned ()⟩
  else ⟨data, [], .returned ()⟩

def handleNeighborResponseStatic (response : NeighborResponse) (data : ProtocolData κ) : Handled κ :=
  match data.pendingNeighborRequests.lookup response.requestId with
  | some pending =>
    ⟨{ data with pendingNeighborRequests := data.pendingNeighborRequests.erase response.requestId },
      [.deliver pending.responder (response.neighbors.map NeighborManager.toControl)], .returned ()⟩
  | none => ⟨data, [], .returned ()⟩

def handleMessage (message : Message) (addr : SocketAddr) (now : Instant) (data : ProtocolData κ) : Handled κ :=
  match message with
  | ⟨.hello, hello⟩ =>
    let (p, result) := SimpleRoutingProtocol.handleHelloMessageChecked hello addr now data.protocol
    ⟨{ data with protocol := p }, [], result⟩
  | ⟨.update, update⟩ =>
    let (p, result) := SimpleRoutingProtocol.handleUpdateMessageChecked update addr now data.protocol
    ⟨{ data with protocol := p }, [], result⟩
  | ⟨.neighborRequest, request⟩ => handleNeighborRequestStatic request addr now data
  | ⟨.neighborResponse, response⟩ => handleNeighborResponseStatic response data

def handleMessageWithProtocolData (text : String) (addr : SocketAddr) (now : Instant) (data : ProtocolData κ) :
    Handled κ :=
  match decodeMessage text with
  | .error e => ⟨data, [], .failed e⟩
  | .ok none => ⟨data, [], .returned ()⟩
  | .ok (some message) => handleMessage message addr now data

end Dispatch

def ParsableHello (p : SimpleRoutingProtocol κ) (hello : HelloMessage) : Prop :=
  hello.routerId ≠ p.router.id → ∀ name ip, hello.interfaces.lookup name = some ip →
    Ipv4Network.parse (ip ++ "/32") ≠ none

def BoundedUpdate (sender : Ipv4Addr) (p : SimpleRoutingProtocol κ) (update : RoutingUpdate) : Prop :=
  update.routerId ≠ p.router.id → ∀ info ∈ update.routes,
    RouteManager.overflows sender p.router.interfaces info = false

def Digestible (sender : Ipv4Addr) (p : SimpleRoutingProtocol κ) : Message → Prop
  | ⟨.hello, hello⟩ => ParsableHello p hello
  | ⟨.update, update⟩ => BoundedUpdate sender p update
  | ⟨.neighborRequest, _⟩ => True
  | ⟨.neighborResponse, _⟩ => True

theorem handleMessage_panics_iff [SerdeJson] (message : Message) (sender : Ipv4Addr) (port : UInt16) (now : Instant)
    (data : ProtocolData κ) :
    (handleMessage message ⟨.v4 sender, port⟩ now data).result.Panics ↔ ¬ Digestible sender data.protocol message := by
  match message with
  | ⟨.hello, hello⟩ =>
    have h := @SimpleRoutingProtocol.handleHelloMessageChecked_panics κ _ hello ⟨.v4 sender, port⟩ now data.protocol
    simp only [handleMessage, h, Digestible, ParsableHello]
    simp
  | ⟨.update, update⟩ =>
    have h := @SimpleRoutingProtocol.handleUpdateMessageChecked_panics κ _ _ update sender port now data.protocol
    simp only [handleMessage, h, Digestible, BoundedUpdate]
    simp
  | ⟨.neighborRequest, request⟩ =>
    simp only [handleMessage, handleNeighborRequestStatic, Digestible, not_true_eq_false, iff_false]
    split <;> simp
  | ⟨.neighborResponse, response⟩ =>
    simp only [handleMessage, handleNeighborResponseStatic, Digestible, not_true_eq_false, iff_false]
    split <;> simp

theorem handleUpdateMessageChecked_not_failed {update : RoutingUpdate} {addr : SocketAddr} {now : Instant}
    {p : SimpleRoutingProtocol κ} {message : String} :
    (SimpleRoutingProtocol.handleUpdateMessageChecked update addr now p).2 ≠ .failed message := by
  intro h
  unfold SimpleRoutingProtocol.handleUpdateMessageChecked at h
  split at h
  · cases h
  · dsimp only at h
    split at h
    · cases h
    · next he =>
      revert he
      cases RouteManager.processRoutingUpdateChecked update addr now p.router p.routeStates <;> simp [Checked.expect]
    · cases h

/-- What is rejected leaves the state as it was, and nothing is sent. -/
theorem handleMessage_rejected [SerdeJson] {text : String} {addr : SocketAddr} {now : Instant} {data : ProtocolData κ}
    {message : String} (h : (handleMessageWithProtocolData text addr now data).result = .failed message) :
    (handleMessageWithProtocolData text addr now data).data = data ∧
      (handleMessageWithProtocolData text addr now data).effects = [] := by
  unfold handleMessageWithProtocolData at *
  cases hd : decodeMessage text with
  | error e => exact ⟨rfl, rfl⟩
  | ok decoded =>
    rw [hd] at h
    match decoded with
    | none => exact ⟨rfl, rfl⟩
    | some ⟨.hello, hello⟩ =>
      simp only [handleMessage, SimpleRoutingProtocol.handleHelloMessageChecked] at h
      split at h <;> cases h
    | some ⟨.update, update⟩ => exact absurd h handleUpdateMessageChecked_not_failed
    | some ⟨.neighborRequest, request⟩ =>
      simp only [handleMessage, handleNeighborRequestStatic] at h
      split at h <;> cases h
    | some ⟨.neighborResponse, response⟩ =>
      simp only [handleMessage, handleNeighborResponseStatic] at h
      split at h <;> cases h

theorem handleMessage_noPanic_iff [SerdeJson] (text : String) {addr : SocketAddr} {sender : Ipv4Addr}
    (hv4 : addr.ip = .v4 sender) (now : Instant) (data : ProtocolData κ) :
    ¬ (handleMessageWithProtocolData text addr now data).result.Panics ↔
      ∀ message, decodeMessage text = .ok (some message) → Digestible sender data.protocol message := by
  obtain ⟨ip, port⟩ := addr
  obtain rfl : ip = .v4 sender := hv4
  unfold handleMessageWithProtocolData
  cases decodeMessage text with
  | error e => simp
  | ok decoded =>
    cases decoded with
    | none => simp
    | some message => simp [handleMessage_panics_iff]

end Build

/-! A peer that names an interface whose address is no address. -/

def badHello : Kind.hello.Content := HelloMessage.mk "B" (AList.insert "eth0" "x" ∅)

theorem badHello_indigestible (sender : Ipv4Addr) : ¬ Digestible sender Observed.lan.protocol ⟨.hello, badHello⟩ := by
  intro h
  exact h (by decide +kernel) "eth0" "x" (by decide +kernel) (by decide +kernel)

theorem handleMessage_noPanic_fails :
    ¬ ∀ (_ : SerdeJson) (o : Observed (Finset SystemRoute)), Observed.Reachable o →
      ∀ (pending : Dictionary String PendingNeighborRequest) (payload : ByteArray) (sender : Ipv4Addr) (port : UInt16)
        (now : Instant), ¬ (handleMessageWithProtocolData (Utf8.lossy (payload.extract 0 4096)) ⟨.v4 sender, port⟩ now
          ⟨o.protocol, pending⟩).result.Panics := by
  intro h
  have hsafe := h Crate.serdeJson Observed.lan (Observed.lan_reachable []) ∅ (packet badHello).toByteArray
    (.new 10 0 0 2) 5555 0
  apply hsafe
  have hfits : (packet badHello).toByteArray.size ≤ 4096 := Crate.packet_fits (by decide +kernel)
  rw [lossy_of_fits hfits, handleMessageWithProtocolData, Crate.packet_decoded]
  exact (handleMessage_panics_iff _ _ _ _ _).mpr (badHello_indigestible _)

theorem handleMessage_noPanic_iff_witness :
    ¬ (handleMessageWithProtocolData (packet badHello) (Observed.lanPeer 2) 0 ⟨Observed.lan.protocol, ∅⟩).result.Panics ↔
      ∀ message, decodeMessage (packet badHello) = .ok (some message) →
        Digestible (.new 10 0 0 2) Observed.lan.protocol message :=
  handleMessage_noPanic_iff (packet badHello) rfl 0 ⟨Observed.lan.protocol, ∅⟩

end CustomOspf
