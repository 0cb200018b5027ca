import CustomOspf.Router

/-!
The messages of the protocol and the records kept about neighbours and routes.
-/

namespace CustomOspf

-- the monotonic clock, in nanoseconds
abbrev Instant := ℕ

abbrev Duration := ℕ

-- the wall clock, in nanoseconds since the epoch
abbrev SystemTime := ℕ

def Duration.fromSecs (secs : ℕ) : Duration := secs * 1000000000

-- saturates at zero when the clock reads less than the earlier instant
def Instant.durationSince (now earlier : Instant) : Duration := now - earlier

structure RouteInfo where
  destination : String
  metric : UInt32
  nextHop : String
deriving DecidableEq

structure RoutingUpdate where
  routerId : String
  sequence : UInt64
  routes : List RouteInfo
deriving DecidableEq

structure HelloMessage where
  routerId : String
  interfaces : Dictionary String String
deriving DecidableEq

structure NeighborRequest where
  requestingRouterId : String
  requestId : String
  targetRouterId : String
deriving DecidableEq

structure NeighborResponseInfo where
  routerId : String
  ipAddress : String
  lastSeen : String
  isAlive : Bool
  interfaces : List String
deriving DecidableEq

structure NeighborResponse where
  respondingRouterId : String
  requestId : String
  neighbors : List NeighborResponseInfo
deriving DecidableEq

structure NeighborInfo where
  routerInfo : RouterInfo
  lastSeen : Instant
  socketAddr : SocketAddr
  isAlive : Bool
deriving DecidableEq

structure RouteState where
  route : RouteEntry
  lastAdvertised : Instant
  advertisingNeighbor : String
deriving DecidableEq

abbrev Neighbors := Dictionary String NeighborInfo

abbrev RouteStates := Dictionary String RouteState

end CustomOspf
