import CustomOspf.Neighbors
import CustomOspf.Runs
import CustomOspf.Library.Json
import CustomOspf.Library.Utf8

/-!
The packets of the four kinds of message: the text a router sends, the buffer
the listen loop receives it in, and the dispatch on its prefix.
-/

namespace CustomOspf

inductive Kind where
  | hello
  | update
  | neighborRequest
  | neighborResponse
deriving DecidableEq

namespace Kind

def Content : Kind → Type
  | hello => HelloMessage
  | update => RoutingUpdate
  | neighborRequest => NeighborRequest
  | neighborResponse => NeighborResponse

def tag : Kind → String
  | hello => "HELLO:"
  | update => "UPDATE:"
  | neighborRequest => "NEIGHBOR_REQUEST:"
  | neighborResponse => "NEIGHBOR_RESPONSE:"

/-- The same message, whatever order the map of a HELLO keeps its entries in. -/
def Same : (kind : Kind) → kind.Content → kind.Content → Prop
  | hello => fun (a b : HelloMessage) => a.routerId = b.routerId ∧ a.interfaces.entries.Perm b.interfaces.entries
  | update => fun (a b : RoutingUpdate) => a = b
  | neighborRequest => fun (a b : NeighborRequest) => a = b
  | neighborResponse => fun (a b : NeighborResponse) => a = b

theorem Same.refl {kind : Kind} (content : kind.Content) : kind.Same content content := by
  cases kind with
  | hello => exact ⟨rfl, List.Perm.refl _⟩
  | update => rfl
  | neighborRequest => rfl
  | neighborResponse => rfl

theorem tag_length (kind : Kind) : kind.tag.toList.length ≤ 18 := by
  cases kind <;> decide

end Kind

abbrev Message := Σ kind : Kind, kind.Content

/-- `serde_json` on the messages. Text that ends before the object it began is closed is no message. -/
class SerdeJson where
  toString {kind : Kind} (content : kind.Content) : String
  fromStr (kind : Kind) (text : String) : Except String kind.Content
  fromStr_toString {kind : Kind} (content : kind.Content) :
    ∃ content', fromStr kind (toString content) = .ok content' ∧ kind.Same content' content
  fromStr_unclosed {kind : Kind} (content content' : kind.Content) {n : ℕ}
    (hn : n < (toString content).toList.length) (k : ℕ) :
    fromStr kind (String.ofList ((toString content).toList.take n ++ List.replicate k Utf8.replacement)) ≠
      .ok content'

def stripPrefix (tag data : String) : Option String := (tag.toList.isPrefixOf? data.toList).map String.ofList

/-- The listen loop: what comes from an own address is ignored, the rest is read through a buffer. -/
def socketReceive (ourIps : List Ipv4Addr) (payload : ByteArray) (addr : SocketAddr) : Option String :=
  let buffer := payload.extract 0 4096
  match addr.ip with
  | .v4 ip => if ourIps.contains ip then none else some (Utf8.lossy buffer)
  | .v6 _ => some (Utf8.lossy buffer)

section Packets

variable [SerdeJson]

def packet {kind : Kind} (content : kind.Content) : String := kind.tag ++ SerdeJson.toString content

def decodeAs (kind : Kind) (text : String) : Except String (Option Message) :=
  (SerdeJson.fromStr kind text).map (fun content => some ⟨kind, content⟩)

/-- The dispatch of `handle_message_with_protocol_data`, with the decoding each handler begins with. -/
def decodeMessage (data : String) : Except String (Option Message) :=
  if let some helloData := stripPrefix Kind.hello.tag data then decodeAs .hello helloData
  else if let some updateData := stripPrefix Kind.update.tag data then decodeAs .update updateData
  else if let some requestData := stripPrefix Kind.neighborRequest.tag data then decodeAs .neighborRequest requestData
  else if let some responseData := stripPrefix Kind.neighborResponse.tag data then
    decodeAs .neighborResponse responseData
  else .ok none

omit [SerdeJson] in
theorem stripPrefix_append (tag text : String) : stripPrefix tag (tag ++ text) = some text := by
  rw [stripPrefix, String.toList_append, Json.isPrefixOf?_append, Option.map_some, String.ofList_toList]

omit [SerdeJson] in
theorem stripPrefix_other {tag other text : String}
    (h : tag.toList.isPrefixOf? (other.toList ++ text.toList) = none) : stripPrefix tag (other ++ text) = none := by
  rw [stripPrefix, String.toList_append, h, Option.map_none]

theorem decodeMessage_tag (kind : Kind) (text : String) : decodeMessage (kind.tag ++ text) = decodeAs kind text := by
  cases kind with
  | hello => simp only [decodeMessage, stripPrefix_append]
  | update =>
    have hhello : stripPrefix Kind.hello.tag (Kind.update.tag ++ text) = none := stripPrefix_other rfl
    simp only [decodeMessage, hhello, stripPrefix_append]
  | neighborRequest =>
    have hhello : stripPrefix Kind.hello.tag (Kind.neighborRequest.tag ++ text) = none := stripPrefix_other rfl
    have hupdate : stripPrefix Kind.update.tag (Kind.neighborRequest.tag ++ text) = none := stripPrefix_other rfl
    simp only [decodeMessage, hhello, hupdate, stripPrefix_append]
  | neighborResponse =>
    have hhello : stripPrefix Kind.hello.tag (Kind.neighborResponse.tag ++ text) = none := stripPrefix_other rfl
    have hupdate : stripPrefix Kind.update.tag (Kind.neighborResponse.tag ++ text) = none := stripPrefix_other rfl
    have hrequest : stripPrefix Kind.neighborRequest.tag (Kind.neighborResponse.tag ++ text) = none :=
      stripPrefix_other rfl
    simp only [decodeMessage, hhello, hupdate, hrequest, stripPrefix_append]

theorem decodeAs_ok {kind : Kind} {text : String} {content : kind.Content} :
    decodeAs kind text = .ok (some ⟨kind, content⟩) ↔ SerdeJson.fromStr kind text = .ok content := by
  unfold decodeAs
  cases SerdeJson.fromStr kind text with
  | error e => simp [Except.map]
  | ok content' => simp [Except.map]

def ReceivedAs {kind : Kind} (ourIps : List Ipv4Addr) (addr : SocketAddr) (payload : ByteArray)
    (content : kind.Content) : Prop :=
  (socketReceive ourIps payload addr).map decodeMessage = some (.ok (some ⟨kind, content⟩))

omit [SerdeJson] in
theorem socketReceive_other {ourIps : List Ipv4Addr} {addr : SocketAddr}
    (hother : ∀ ip, addr.ip = .v4 ip → ip ∉ ourIps) (payload : ByteArray) :
    socketReceive ourIps payload addr = some (Utf8.lossy (payload.extract 0 4096)) := by
  unfold socketReceive
  cases hip : addr.ip with
  | v4 ip => simp [hother ip hip]
  | v6 bits => rfl

theorem decodeAs_error {kind : Kind} {text : String}
    (h : ∀ content : kind.Content, SerdeJson.fromStr kind text ≠ .ok content) :
    ∃ e, decodeAs kind text = .error e := by
  unfold decodeAs
  cases hs : SerdeJson.fromStr kind text with
  | error e => exact ⟨e, rfl⟩
  | ok content => exact absurd hs (h content)

theorem decodeMessage_cut {kind : Kind} {content : kind.Content} (hcut : 4096 < (packet content).toByteArray.size) :
    ∃ e, decodeMessage (Utf8.lossy ((packet content).toByteArray.extract 0 4096)) = .error e := by
  obtain ⟨kept, c, lost, k, hsplit, -, hlt, hlossy⟩ := Utf8.lossy_cut (packet content) hcut
  have hlen := Utf8.size_le_length kept
  have hc := c.utf8Size_le_four
  have htag := kind.tag_length
  -- the prefix arrives whole, the text after it does not
  obtain ⟨begun, rfl⟩ : kind.tag.toList <+: kept := by
    have hsent : kind.tag.toList <+: (packet content).toList := by
      rw [packet, String.toList_append]
      exact List.prefix_append _ _
    have hkept : kept <+: (packet content).toList := by
      rw [hsplit]
      exact List.prefix_append _ _
    exact List.prefix_of_prefix_length_le hsent hkept (by omega)
  have htext : (SerdeJson.toString content).toList = begun ++ c :: lost := by
    rw [packet, String.toList_append, List.append_assoc] at hsplit
    exact List.append_cancel_left hsplit
  have hbegun : begun = (SerdeJson.toString content).toList.take begun.length := by
    rw [htext, List.take_left]
  have hshort : begun.length < (SerdeJson.toString content).toList.length := by
    rw [htext, List.length_append, List.length_cons]
    omega
  rw [hlossy, List.append_assoc, String.ofList_append, String.ofList_toList, decodeMessage_tag]
  apply decodeAs_error
  intro content'
  rw [hbegun]
  exact SerdeJson.fromStr_unclosed content content' hshort k

omit [SerdeJson] in
theorem lossy_of_fits {text : String} (hfits : text.toByteArray.size ≤ 4096) :
    Utf8.lossy (text.toByteArray.extract 0 4096) = text := by
  rw [← Nat.max_eq_left hfits, ByteArray.extract_zero_max_size, Utf8.lossy_toByteArray]

theorem decodeMessage_whole {kind : Kind} {content : kind.Content} (hfits : (packet content).toByteArray.size ≤ 4096) :
    ∃ content', decodeMessage (Utf8.lossy ((packet content).toByteArray.extract 0 4096)) = .ok (some ⟨kind, content'⟩) ∧
      kind.Same content' content := by
  obtain ⟨content', hok, hsame⟩ := SerdeJson.fromStr_toString content
  refine ⟨content', ?_, hsame⟩
  rw [lossy_of_fits hfits, packet, decodeMessage_tag, decodeAs_ok.mpr hok]

theorem decodeMessage_packet {kind : Kind} (content : kind.Content) :
    (∃ e, decodeMessage (Utf8.lossy ((packet content).toByteArray.extract 0 4096)) = .error e) ∨
      ∃ content', kind.Same content' content ∧
        decodeMessage (Utf8.lossy ((packet content).toByteArray.extract 0 4096)) = .ok (some ⟨kind, content'⟩) := by
  by_cases hfits : (packet content).toByteArray.size ≤ 4096
  · obtain ⟨content', hok, hsame⟩ := decodeMessage_whole hfits
    exact Or.inr ⟨content', hsame, hok⟩
  · exact Or.inl (decodeMessage_cut (by omega))

section Buffer

variable {ourIps : List Ipv4Addr} {addr : SocketAddr} (hother : ∀ ip, addr.ip = .v4 ip → ip ∉ ourIps)
include hother

theorem receivedAs_of_fits {kind : Kind} {content : kind.Content} (hfits : (packet content).toByteArray.size ≤ 4096) :
    ∃ content', ReceivedAs ourIps addr (packet content).toByteArray content' ∧ kind.Same content' content := by
  obtain ⟨content', hok, hsame⟩ := decodeMessage_whole hfits
  refine ⟨content', ?_, hsame⟩
  rw [ReceivedAs, socketReceive_other hother, Option.map_some, hok]

theorem not_receivedAs_of_cut {kind : Kind} {content : kind.Content}
    (hcut : 4096 < (packet content).toByteArray.size) (content' : kind.Content) :
    ¬ ReceivedAs ourIps addr (packet content).toByteArray content' := by
  obtain ⟨e, herror⟩ := decodeMessage_cut hcut
  rw [ReceivedAs, socketReceive_other hother, Option.map_some, herror]
  intro h
  cases Option.some.inj h

end Buffer

end Packets

section Senders

variable {κ : Type} [IpNetwork]

def build (p : SimpleRoutingProtocol κ) (requestId targetRouterId : String) (request : NeighborRequest)
    (now : Instant) : (kind : Kind) → kind.Content
  | .hello => SimpleRoutingProtocol.buildHello p.router
  | .update => SimpleRoutingProtocol.buildUpdate p.sequence p.router
  | .neighborRequest => NeighborManager.buildRequest requestId targetRouterId p.router
  | .neighborResponse => NeighborManager.buildResponse request now p

theorem wire_roundTrip_iff [SerdeJson] (p : SimpleRoutingProtocol κ) (requestId targetRouterId : String)
    (request : NeighborRequest) (now : Instant) (kind : Kind) {ourIps : List Ipv4Addr} {addr : SocketAddr}
    (hother : ∀ ip, addr.ip = .v4 ip → ip ∉ ourIps) :
    let content := build p requestId targetRouterId request now kind
    (∃ content', ReceivedAs ourIps addr (packet content).toByteArray content' ∧ kind.Same content' content) ↔
      (packet content).toByteArray.size ≤ 4096 := by
  intro content
  constructor
  · rintro ⟨content', hreceived, -⟩
    by_contra hcut
    exact not_receivedAs_of_cut hother (by omega) content' hreceived
  · intro hfits
    exact receivedAs_of_fits hother hfits

end Senders

namespace Crate

/-! `serde_json` on the text it writes itself, for runs on concrete messages. -/

open Json

def routeInfo : Codec RouteInfo :=
  Codec.map (fun r => ⟨r.1.1, UInt32.ofNat r.1.2, r.2⟩) (fun r => ((r.destination, r.metric.toNat), r.nextHop))
    (by intro r; simp)
    (Codec.object "destination" (Codec.field "next_hop" (Codec.field "metric" Codec.string Codec.nat) Codec.string))

def neighborResponseInfo : Codec NeighborResponseInfo :=
  Codec.map (fun n => ⟨n.1.1.1.1, n.1.1.1.2, n.1.1.2, n.1.2, n.2⟩)
    (fun n => ((((n.routerId, n.ipAddress), n.lastSeen), n.isAlive), n.interfaces)) (by intro n; rfl)
    (Codec.object "router_id"
      (Codec.field "interfaces"
        (Codec.field "is_alive" (Codec.field "last_seen" (Codec.field "ip_address" Codec.string Codec.string)
          Codec.string) Codec.bool)
        (Codec.array Codec.string (by intro a rest; simp [Codec.string]))))

def helloMessage : Codec HelloMessage :=
  Codec.map (fun m => ⟨m.1, m.2⟩) (fun m => (m.routerId, m.interfaces)) (by intro m; rfl)
    (Codec.object "router_id" (Codec.field "interfaces" Codec.string Codec.dictionary))

def routingUpdate : Codec RoutingUpdate :=
  Codec.map (fun m => ⟨m.1.1, UInt64.ofNat m.1.2, m.2⟩) (fun m => ((m.routerId, m.sequence.toNat), m.routes))
    (by intro m; simp)
    (Codec.object "router_id" (Codec.field "routes" (Codec.field "sequence" Codec.string Codec.nat)
      (Codec.array routeInfo (by intro a rest; simp [routeInfo, Codec.object, Codec.map, Codec.enclosed]))))

def neighborRequest : Codec NeighborRequest :=
  Codec.map (fun m => ⟨m.1.1, m.1.2, m.2⟩) (fun m => ((m.requestingRouterId, m.requestId), m.targetRouterId))
    (by intro m; rfl)
    (Codec.object "requesting_router_id"
      (Codec.field "target_router_id" (Codec.field "request_id" Codec.string Codec.string) Codec.string))

def neighborResponse : Codec NeighborResponse :=
  Codec.map (fun m => ⟨m.1.1, m.1.2, m.2⟩) (fun m => ((m.respondingRouterId, m.requestId), m.neighbors))
    (by intro m; rfl)
    (Codec.object "responding_router_id"
      (Codec.field "neighbors" (Codec.field "request_id" Codec.string Codec.string)
        (Codec.array neighborResponseInfo
          (by intro a rest; simp [neighborResponseInfo, Codec.object, Codec.map, Codec.enclosed]))))

def text : (kind : Kind) → Codec kind.Content
  | .hello => helloMessage
  | .update => routingUpdate
  | .neighborRequest => neighborRequest
  | .neighborResponse => neighborResponse

theorem closed_text (kind : Kind) : Closed (text kind) := by
  have hhello : Closed helloMessage := (closed_object _ _).map _
  have hupdate : Closed routingUpdate := (closed_object _ _).map _
  have hrequest : Closed neighborRequest := (closed_object _ _).map _
  have hresponse : Closed neighborResponse := (closed_object _ _).map _
  cases kind with
  | hello => exact hhello
  | update => exact hupdate
  | neighborRequest => exact hrequest
  | neighborResponse => exact hresponse

/-- Only what a writer writes is accepted: compact text, the fields in their order. -/
def fromStr (kind : Kind) (input : String) : Except String kind.Content :=
  match (text kind).read input.toList with
  | some (content, []) =>
    if (text kind).write content = input.toList then .ok content else .error "invalid type"
  | _ => .error "EOF while parsing a value"

theorem write_of_fromStr {kind : Kind} {input : String} {content : kind.Content}
    (h : fromStr kind input = .ok content) : (text kind).write content = input.toList := by
  unfold fromStr at h
  split at h
  · split at h
    · next hw =>
      obtain rfl := Except.ok.inj h
      exact hw
    · cases h
  · cases h

theorem fromStr_write {kind : Kind} (content : kind.Content) :
    fromStr kind (String.ofList ((text kind).write content)) = .ok content := by
  have hread := (closed_text kind content).2 []
  rw [List.append_nil] at hread
  simp only [fromStr, String.toList_ofList, hread, if_true]

instance serdeJson : SerdeJson where
  toString {kind} content := String.ofList ((text kind).write content)
  fromStr := fromStr
  fromStr_toString content := ⟨content, fromStr_write content, Kind.Same.refl content⟩
  fromStr_unclosed {kind} content content' n hn k h := by
    rw [String.toList_ofList] at hn h
    have hwrite := write_of_fromStr h
    rw [String.toList_ofList] at hwrite
    exact (closed_text kind).write_ne content content' hn (by decide) k hwrite

theorem packet_toList {kind : Kind} (content : kind.Content) :
    (packet content).toList = kind.tag.toList ++ (text kind).write content := by
  rw [packet, String.toList_append]
  exact congrArg _ (String.toList_ofList)

theorem packet_fits {kind : Kind} {content : kind.Content} (h : ((text kind).write content).length ≤ 1000) :
    (packet content).toByteArray.size ≤ 4096 := by
  have hsize := Utf8.size_le_length (packet content).toList
  have htag := kind.tag_length
  rw [String.utf8Encode_toList, packet_toList, List.length_append] at hsize
  omega

theorem packet_decoded {kind : Kind} (content : kind.Content) :
    decodeMessage (packet content) = .ok (some ⟨kind, content⟩) := by
  rw [packet, decodeMessage_tag, decodeAs_ok]
  exact fromStr_write content

end Crate

/-! A router with 66 networks in its table. -/

def learned (third : ℕ) : RouteEntry :=
  ⟨⟨.new 10 2 (Fin.ofNat 256 third) 0, 24⟩, .new 10 0 0 2, "eth0", 1, .protocol⟩

def informed : SimpleRoutingProtocol (Finset SystemRoute) :=
  let lan := Observed.lan.protocol
  { lan with router := { lan.router with
      routingTable := { lan.router.routingTable with routes := (List.range 66).map learned } } }

def informedUpdate : Kind.update.Content := SimpleRoutingProtocol.buildUpdate informed.sequence informed.router

theorem informedUpdate_length : ((Crate.text .update).write informedUpdate).length = 4255 := by decide +kernel

theorem informedUpdate_size :
    4096 < (packet informedUpdate).toByteArray.size ∧ (packet informedUpdate).toByteArray.size ≤ 65507 := by
  have hlower := Utf8.length_le_size (packet informedUpdate).toList
  have hupper := Utf8.size_le_length (packet informedUpdate).toList
  have htag := Kind.update.tag_length
  rw [String.utf8Encode_toList] at hlower hupper
  rw [Crate.packet_toList, List.length_append, informedUpdate_length] at hlower hupper
  omega

theorem otherPeer {ip : Ipv4Addr} (h : (Observed.lanPeer 1).ip = .v4 ip) : ip ∉ [Ipv4Addr.new 10 0 0 4] := by
  obtain rfl := IpAddr.v4.inj h
  decide +kernel

theorem wire_roundTrip_fails :
    ¬ ∀ (_ : SerdeJson) (p : SimpleRoutingProtocol (Finset SystemRoute)) (requestId targetRouterId : String)
      (request : NeighborRequest) (now : Instant) (kind : Kind) (ourIps : List Ipv4Addr) (addr : SocketAddr),
      (∀ ip, addr.ip = .v4 ip → ip ∉ ourIps) →
      (packet (build p requestId targetRouterId request now kind)).toByteArray.size ≤ 65507 →
      ∃ content', ReceivedAs ourIps addr (packet (build p requestId targetRouterId request now kind)).toByteArray
        content' ∧ kind.Same content' (build p requestId targetRouterId request now kind) := by
  intro h
  obtain ⟨hcut, hdatagram⟩ := informedUpdate_size
  obtain ⟨content', hreceived, -⟩ := h Crate.serdeJson informed "" "" ⟨"", "", ""⟩ 0 .update [.new 10 0 0 4]
    (Observed.lanPeer 1) (fun _ hip => otherPeer hip) hdatagram
  exact not_receivedAs_of_cut (fun _ hip => otherPeer hip) hcut content' hreceived

theorem wire_roundTrip_iff_witness :
    let content := build informed "1_1" "B" ⟨"B", "2_2", "A"⟩ 0 .update
    (∃ content', ReceivedAs [.new 10 0 0 4] (Observed.lanPeer 1) (packet content).toByteArray content' ∧
      Kind.update.Same content' content) ↔ (packet content).toByteArray.size ≤ 4096 :=
  wire_roundTrip_iff informed "1_1" "B" ⟨"B", "2_2", "A"⟩ 0 .update (fun _ hip => otherPeer hip)

end CustomOspf
