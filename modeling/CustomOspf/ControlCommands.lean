import CustomOspf.Library.Lines
import CustomOspf.Lifecycle
import CustomOspf.Neighbors
import CustomOspf.SingleRoute
import CustomOspf.Library.Json

/-!
The commands of the control server and its responses, as values of JSON. A
command either has its response at once or takes the lock of the server first.
-/

namespace CustomOspf

/-- `serde_json::Value`. The decimals of a number are counted by the exponent, and the members of an object stand in the
order of their keys. -/
inductive Value where
  | null
  | bool (b : Bool)
  | number (mantissa : ℤ) (exponent : ℕ)
  | string (text : String)
  | array (items : List Value)
  | object (members : List (String × Value))

structure ControlCommand where
  command : String
  args : Option Value

structure ControlResponse where
  success : Bool
  message : String
  data : Option Value

/-- `serde_json` on the commands and the responses. The compact text of a value has no line break. -/
class ControlJson where
  fromStr (text : String) : Except String ControlCommand
  toString (response : ControlResponse) : String
  toString_line (response : ControlResponse) : '\n' ∉ (toString response).toList

inductive Locked where
  | status
  | neighbors
  | neighborsOf (routerId : String)
  | start
  | stop
  | routingTable
deriving DecidableEq

namespace CommandServer

def failure (message : String) : ControlResponse := ⟨false, message, none⟩

def notInitialized : ControlResponse := failure "Protocol not initialized"

def found (count : ℕ) (what : String) : String := String.ofList (decimal count) ++ what

def neighborValue (info : ControlNeighborInfo) : Value :=
  .object [("interfaces", .array (info.interfaces.map .string)), ("ip_address", .string info.ipAddress),
    ("is_alive", .bool info.isAlive), ("last_seen", .string info.lastSeen), ("router_id", .string info.routerId)]

def rowValue (row : RoutingTableRow) : Value :=
  .object [("destination", .string row.destination), ("interface", .string row.interface),
    ("metric", .number row.metric.toNat 0), ("next_hop", .string row.nextHop), ("source", .string row.source)]

def statusResponse (routerId : String) (isRunning : Bool) : ControlResponse :=
  ⟨true, "Status retrieved", some (.object [("is_running", .bool isRunning), ("router_id", .string routerId)])⟩

def neighborsResponse (neighbors : List ControlNeighborInfo) : ControlResponse :=
  ⟨true, "Found " ++ found neighbors.length " neighbors", some (.array (neighbors.map neighborValue))⟩

def neighborsOfResponse (routerId : String) : Option (List ControlNeighborInfo) → ControlResponse
  | some neighbors => ⟨true, "Found " ++ found neighbors.length (" neighbors for router " ++ routerId),
      some (.array (neighbors.map neighborValue))⟩
  | none => failure ("Router " ++ routerId ++ " not found or no neighbor information available")

def routingTableResponse (rows : List RoutingTableRow) : ControlResponse :=
  ⟨true, "Retrieved " ++ found rows.length " routes", some (.array (rows.map rowValue))⟩

def startResponse : ControlResponse := ⟨true, "Protocol started successfully", none⟩

def stopResponse : ControlResponse := ⟨true, "Protocol stopped successfully", none⟩

section Handlers

variable {ι κ : Type} [IpNetwork]

def getStatus : Option (Daemon ι κ) → ControlResponse
  | some prot => statusResponse prot.shared.router.id prot.isRunning
  | none => notInitialized

def getNeighbors (now : Instant) : Option (Daemon ι κ) → ControlResponse
  | some prot => neighborsResponse (NeighborManager.getNeighborsList now prot.shared.neighbors)
  | none => notInitialized

def getRoutingTable : Option (Daemon ι κ) → ControlResponse
  | some prot => routingTableResponse prot.shared.getRoutingTable
  | none => notInitialized

end Handlers

def commands : List (String × String) :=
  [("status", "Get protocol status"), ("neighbors", "Get list of current neighbors"),
    ("neighbors_of", "Get neighbors of specific router (requires router_id)"), ("start", "Start the routing protocol"),
    ("stop", "Stop the routing protocol"), ("routing_table", "Get current routing table"),
    ("help", "Show this help message")]

def getHelp : ControlResponse :=
  ⟨true, "Available commands", some (.array (commands.map (fun c => .array [.string c.1, .string c.2])))⟩

def routerIdOf : Option Value → Except ControlResponse String
  | some (.string id) => .ok id
  | some (.object members) =>
    match members.lookup "router_id" with
    | some (.string id) => .ok id
    | _ => .error (failure "Missing or invalid router_id parameter")
  | _ => .error (failure "router_id parameter required")

def processCommand (command : ControlCommand) : Except ControlResponse Locked :=
  match command.command with
  | "status" => .ok .status
  | "neighbors" => .ok .neighbors
  | "neighbors_of" => (routerIdOf command.args).map .neighborsOf
  | "start" => .ok .start
  | "stop" => .ok .stop
  | "routing_table" => .ok .routingTable
  | "help" => .error getHelp
  | other => .error (failure ("Unknown command: " ++ other))

-- the characters with the property White_Space
def isWhitespace (c : Char) : Bool :=
  let n := c.toNat
  (9 ≤ n && n ≤ 13) || n = 32 || n = 0x85 || n = 0xa0 || n = 0x1680 || (0x2000 ≤ n && n ≤ 0x200a) || n = 0x2028 ||
    n = 0x2029 || n = 0x202f || n = 0x205f || n = 0x3000

def trim (text : String) : String :=
  String.ofList (((text.toList.dropWhile isWhitespace).reverse.dropWhile isWhitespace).reverse)

inductive LineContent where
  -- `read_line` fails
  | undecodable
  | blank
  | command (trimmed : String)
deriving DecidableEq

def lineContent (line : List UInt8) : LineContent :=
  match String.fromUTF8? line.toByteArray with
  | none => .undecodable
  | some text => if trim text = "" then .blank else .command (trim text)

def LineContent.text? : LineContent → Option String
  | .command trimmed => some trimmed
  | _ => none

section Response

variable [ControlJson]

/-- What a line asks for: a response at once, or a command under the lock. -/
def dispatch (trimmed : String) : Except ControlResponse Locked :=
  match ControlJson.fromStr trimmed with
  | .ok command => processCommand command
  | .error e => .error (failure ("Invalid JSON command: " ++ e))

def responseLine (response : ControlResponse) : List Char := (ControlJson.toString response).toList ++ ['\n']

theorem responseLine_line (response : ControlResponse) : Lines.Line '\n' (responseLine response) :=
  ⟨_, rfl, ControlJson.toString_line response⟩

end Response

end CommandServer

/-! The compact text, for runs on concrete commands. -/

namespace Crate

open Json

mutual

def writeValue : Value → List Char
  | .null => "null".toList
  | .bool b => Codec.bool.write b
  | .number mantissa exponent =>
    (if mantissa < 0 then ['-'] else []) ++ decimal mantissa.natAbs ++
      (if exponent = 0 then [] else "e-".toList ++ decimal exponent)
  | .string text => Codec.string.write text
  | .array items => '[' :: (writeValues items ++ [']'])
  | .object members => '\x7b' :: (writeMembers members ++ ['\x7d'])

def writeValues : List Value → List Char
  | [] => []
  | [v] => writeValue v
  | v :: vs => writeValue v ++ ',' :: writeValues vs

def writeMembers : List (String × Value) → List Char
  | [] => []
  | [(key, v)] => Codec.string.write key ++ ':' :: writeValue v
  | (key, v) :: ms => Codec.string.write key ++ ':' :: (writeValue v ++ ',' :: writeMembers ms)

end

theorem decimal_line (n : ℕ) : '\n' ∉ decimal n := by
  intro h
  have hdigit := Ipv4Addr.decimal_digits n '\n' h
  revert hdigit
  decide

mutual

theorem writeValue_line : ∀ v : Value, '\n' ∉ writeValue v
  | .null => by decide
  | .bool b => by cases b <;> decide
  | .number mantissa exponent => by
    have hm := decimal_line mantissa.natAbs
    have he := decimal_line exponent
    unfold writeValue
    split_ifs <;> simp [hm, he]
  | .string text => Codec.string_line text
  | .array items => by
    have h := writeValues_line items
    simp [writeValue, h]
  | .object members => by
    have h := writeMembers_line members
    simp [writeValue, h]

theorem writeValues_line : ∀ vs : List Value, '\n' ∉ writeValues vs
  | [] => List.not_mem_nil
  | [v] => writeValue_line v
  | v :: w :: vs => by
    have hv := writeValue_line v
    have hvs := writeValues_line (w :: vs)
    simp [writeValues, hv, hvs]

theorem writeMembers_line : ∀ ms : List (String × Value), '\n' ∉ writeMembers ms
  | [] => List.not_mem_nil
  | [(key, v)] => by
    have hkey := Codec.string_line key
    have hv := writeValue_line v
    simp [writeMembers, hkey, hv]
  | (key, v) :: m :: ms => by
    have hkey := Codec.string_line key
    have hv := writeValue_line v
    have hms := writeMembers_line (m :: ms)
    simp [writeMembers, hkey, hv, hms]

end

def writeResponse (response : ControlResponse) : List Char :=
  writeValue (.object [("success", .bool response.success), ("message", .string response.message),
    ("data", response.data.getD .null)])

def readCommand (text : List Char) : Except String ControlCommand :=
  match (Codec.object "command" Codec.string).read text with
  | some (command, []) => .ok ⟨command, none⟩
  | _ =>
    match (Codec.object "command" (Codec.field "args" Codec.string Codec.string)).read text with
    | some ((command, id), []) => .ok ⟨command, some (.string id)⟩
    | _ => .error "expected value at line 1 column 1"

instance controlJson : ControlJson where
  fromStr text := readCommand text.toList
  toString response := String.ofList (writeResponse response)
  toString_line response := by
    rw [String.toList_ofList]
    exact writeValue_line _

end Crate

end CustomOspf
