import CustomOspf.Protocol

/-!
The neighbour lists a router gives to its control server and to other routers,
and the requests it sends for theirs.
-/

namespace CustomOspf

structure ControlNeighborInfo where
  routerId : String
  ipAddress : String
  lastSeen : String
  isAlive : Bool
  interfaces : List String
deriving DecidableEq

-- the digits after the point, without the zeros at the end
def fraction (width n : ℕ) : List Char :=
  let digits := decimal n
  ((List.replicate (width - digits.length) '0' ++ digits).reverse.dropWhile (fun c => c = '0')).reverse

def fmtDecimal (integer width n : ℕ) (suffix : String) : String :=
  String.ofList (decimal integer ++ (if n = 0 then [] else '.' :: fraction width n)) ++ suffix

/-- `{:?}` of a duration: the largest unit that is not zero, with its decimals. -/
def Duration.debug (d : Duration) : String :=
  if 1000000000 ≤ d then fmtDecimal (d / 1000000000) 9 (d % 1000000000) "s"
  else if 1000000 ≤ d then fmtDecimal (d / 1000000) 6 (d % 1000000) "ms"
  else if 1000 ≤ d then fmtDecimal (d / 1000) 3 (d % 1000) "µs"
  else fmtDecimal d 0 0 "ns"

namespace NeighborManager

def lastSeen (now : Instant) (info : NeighborInfo) : String :=
  (now.durationSince info.lastSeen).debug ++ " ago"

def interfaceIps (info : NeighborInfo) : List String :=
  info.routerInfo.interfaces.entries.map (fun e => e.2.ip.toString)

def getNeighborsList (now : Instant) (neighbors : Neighbors) : List ControlNeighborInfo :=
  neighbors.entries.map (fun e =>
    { routerId := e.1, ipAddress := e.2.socketAddr.ip.toString, lastSeen := lastSeen now e.2,
      isAlive := e.2.isAlive, interfaces := interfaceIps e.2 })

def getCurrentNeighborsForResponse (now : Instant) (neighbors : Neighbors) : List NeighborResponseInfo :=
  neighbors.entries.map (fun e =>
    { routerId := e.1, ipAddress := e.2.socketAddr.ip.toString, lastSeen := lastSeen now e.2,
      isAlive := e.2.isAlive, interfaces := interfaceIps e.2 })

/-- Milliseconds of the wall clock and the address of the protocol object. -/
def requestId (now : SystemTime) (address : ℕ) : String :=
  String.ofList (decimal (now / 1000000) ++ '_' :: decimal address)

def buildRequest {κ : Type} (requestId targetRouterId : String) (router : Router κ) : NeighborRequest :=
  { requestingRouterId := router.id, requestId := requestId, targetRouterId := targetRouterId }

def buildResponse {κ : Type} (request : NeighborRequest) (now : Instant) (p : SimpleRoutingProtocol κ) :
    NeighborResponse :=
  { respondingRouterId := p.router.id, requestId := request.requestId,
    neighbors := getCurrentNeighborsForResponse now p.neighbors }

def toControl (n : NeighborResponseInfo) : ControlNeighborInfo :=
  { routerId := n.routerId, ipAddress := n.ipAddress, lastSeen := n.lastSeen, isAlive := n.isAlive,
    interfaces := n.interfaces }

theorem getNeighborsList_eq (now : Instant) (neighbors : Neighbors) :
    (getCurrentNeighborsForResponse now neighbors).map toControl = getNeighborsList now neighbors := by
  rw [getCurrentNeighborsForResponse, List.map_map]
  rfl

theorem requestId_inj {now now' : SystemTime} {address : ℕ} (h : requestId now address = requestId now' address) :
    now / 1000000 = now' / 1000000 := by
  have hlist := String.ofList_injective h
  exact decimal_injective (List.append_cancel_right hlist)

end NeighborManager

def SimpleRoutingProtocol.buildHello {κ : Type} (router : Router κ) : HelloMessage :=
  { routerId := router.id, interfaces := router.interfaces.mapValues (fun info => info.ip.toString) }

end CustomOspf
