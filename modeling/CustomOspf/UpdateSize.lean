import CustomOspf.WireConvergence

/-!
How long the text of an update is, and the networks in which every update fits
the buffer of the listen loop.
-/

namespace CustomOspf

open Json Utf8

/-! The text of `serde_json`, in bytes. -/

/-- From the dot to the nine: the characters of numbers and addresses, of one byte each, and none of them escaped. -/
def Numeric (c : Char) : Prop := '.'.toNat ≤ c.toNat ∧ c.toNat ≤ '9'.toNat

theorem Numeric.of_isDigit {c : Char} (h : c.isDigit = true) : Numeric c := by
  have hdigit := Char.isDigit_iff_toNat.mp h
  have hdot : '.'.toNat ≤ '0'.toNat := by decide
  exact ⟨hdot.trans hdigit.1, hdigit.2⟩

theorem Numeric.size {c : Char} (h : Numeric c) : c.utf8Size = 1 := by
  rw [Char.utf8Size_eq_one_iff, UInt32.le_iff_toNat_le]
  exact h.2.trans (by decide)

theorem Numeric.escape {c : Char} (h : Numeric c) : escape c = [c] := by
  have hnone : shortEscapes.find? (fun e => e.2 = c) = none := by
    rw [List.find?_eq_none]
    intro e he
    have hout : ∀ e ∈ shortEscapes, e.2.toNat < '.'.toNat ∨ '9'.toNat < e.2.toNat := by decide
    obtain ⟨hlow, hhigh⟩ := h
    simp only [decide_eq_true_eq]
    rintro rfl
    rcases hout e he with hlt | hlt <;> omega
  have hcontrol : ¬ c.toNat < 32 := by
    have hdot : '.'.toNat = 46 := rfl
    have hlow := h.1
    omega
  simp only [Json.escape, hnone, hcontrol, if_false]

theorem flatMap_escape {cs : List Char} (h : ∀ c ∈ cs, Numeric c) : cs.flatMap escape = cs := by
  induction cs with
  | nil => rfl
  | cons c cs ih =>
    rw [List.flatMap_cons, (h c List.mem_cons_self).escape, ih (fun c' hc' => h c' (List.mem_cons_of_mem c hc'))]
    rfl

theorem size_numeric {cs : List Char} (h : ∀ c ∈ cs, Numeric c) : cs.utf8Encode.size = cs.length :=
  size_ascii (fun c hc => (h c hc).size)

theorem size_decimal_le {n k : ℕ} (hk : 0 < k) (hn : n < 10 ^ k) : (decimal n).utf8Encode.size ≤ k := by
  rw [size_numeric (fun c hc => .of_isDigit (Ipv4Addr.decimal_digits n c hc))]
  exact (Nat.length_toDigits_le_iff (by omega) hk).mpr hn

theorem size_string {s : String} (h : ∀ c ∈ s.toList, Numeric c) :
    (Codec.string.write s).utf8Encode.size = s.toList.length + 2 := by
  have hquote : ['"'].utf8Encode.size = 1 := rfl
  have hfirst : '"'.utf8Size = 1 := rfl
  have hwrite : Codec.string.write s = '"' :: (s.toList.flatMap escape ++ ['"']) := rfl
  rw [hwrite, flatMap_escape h, size_utf8Encode_cons, size_append, size_numeric h, hquote, hfirst]
  omega

theorem numeric_display (ip : Ipv4Addr) : ∀ c ∈ ip.display, Numeric c := by
  have hdot : Numeric '.' := by
    constructor <;> decide
  have hoctet (o : Fin 256) : ∀ c ∈ decimal o, Numeric c := fun c hc => .of_isDigit (Ipv4Addr.decimal_digits o c hc)
  intro c hc
  simp only [Ipv4Addr.display, List.mem_append, List.mem_cons] at hc
  rcases hc with hc | rfl | hc | rfl | hc | rfl | hc
  · exact hoctet _ c hc
  · exact hdot
  · exact hoctet _ c hc
  · exact hdot
  · exact hoctet _ c hc
  · exact hdot
  · exact hoctet _ c hc

theorem length_display_le (ip : Ipv4Addr) : ip.display.length ≤ 15 := by
  have hoctet : ∀ o : Fin 256, (decimal o).length ≤ 3 := by decide +kernel
  have h0 := hoctet (ip.octet 0)
  have h1 := hoctet (ip.octet 1)
  have h2 := hoctet (ip.octet 2)
  have h3 := hoctet (ip.octet 3)
  simp only [Ipv4Addr.display, List.length_append, List.length_cons]
  omega

theorem size_address_le (ip : Ipv4Addr) : (Codec.string.write ip.toString).utf8Encode.size ≤ 17 := by
  have hchars : ip.toString.toList = ip.display := String.toList_ofList
  have hlength := length_display_le ip
  rw [size_string (by rw [hchars]; exact numeric_display ip), hchars]
  omega

theorem size_network_le [IpNetwork] (d : Ipv4Network) : (Codec.string.write d.toString).utf8Encode.size ≤ 20 := by
  have hchars : d.toString.toList = d.addr.display ++ '/' :: decimal d.prefixLen := by
    rw [Ipv4Network.toString, IpNetwork.display_eq]
    simp [cidr, Ipv4Addr.toString, decimal]
  have hprefix : ∀ p : Fin 33, (decimal p).length ≤ 2 := by decide +kernel
  have hslash : Numeric '/' := by
    constructor <;> decide
  have hnumeric : ∀ c ∈ d.toString.toList, Numeric c := by
    intro c hc
    rw [hchars] at hc
    rcases List.mem_append.mp hc with hc | hc
    · exact numeric_display d.addr c hc
    · rcases List.mem_cons.mp hc with rfl | hc
      · exact hslash
      · exact .of_isDigit (Ipv4Addr.decimal_digits _ c hc)
  have hlength := length_display_le d.addr
  have hp := hprefix d.prefixLen
  rw [size_string hnumeric, hchars, List.length_append, List.length_cons]
  omega

theorem size_routeInfo_le [IpNetwork] (d : Ipv4Network) (metric : UInt32) (nextHop : Ipv4Addr) :
    (Crate.routeInfo.write ⟨d.toString, metric, nextHop.toString⟩).utf8Encode.size ≤ 85 := by
  have hd := size_network_le d
  have hm : (decimal metric.toNat).utf8Encode.size ≤ 10 :=
    size_decimal_le (by omega) (metric.toNat_lt.trans_le (by decide))
  have hn := size_address_le nextHop
  have hwrite : Crate.routeInfo.write ⟨d.toString, metric, nextHop.toString⟩ =
      "\x7b\"destination\":".toList ++ (((Codec.string.write d.toString ++
        (",\"metric\":".toList ++ decimal metric.toNat)) ++
          (",\"next_hop\":".toList ++ Codec.string.write nextHop.toString)) ++ ['}']) := rfl
  have h1 : "\x7b\"destination\":".toList.utf8Encode.size = 15 := by decide +kernel
  have h2 : ",\"metric\":".toList.utf8Encode.size = 10 := by decide +kernel
  have h3 : ",\"next_hop\":".toList.utf8Encode.size = 12 := by decide +kernel
  have h4 : ['}'].utf8Encode.size = 1 := rfl
  rw [hwrite]
  simp only [size_append, h1, h2, h3, h4]
  omega

theorem size_writeItems_le {α : Type} {item : Codec α} {b : ℕ} {as : List α}
    (h : ∀ a ∈ as, (item.write a).utf8Encode.size ≤ b) :
    (writeItems item.write ']' as).utf8Encode.size ≤ as.length * (b + 1) + 1 := by
  have hcomma : ','.utf8Size = 1 := rfl
  have hclose : [']'].utf8Encode.size = 1 := rfl
  induction as with
  | nil => simp [writeItems, hclose]
  | cons a as ih =>
    have hfirst := h a List.mem_cons_self
    have hrest := ih (fun a' ha' => h a' (List.mem_cons_of_mem a ha'))
    rw [writeItems, size_utf8Encode_cons, size_append, hcomma, List.length_cons, Nat.add_mul, Nat.one_mul]
    omega

theorem size_array_le {α : Type} {item : Codec α} (hitem : ∀ a rest, (item.write a ++ rest).head? ≠ some ']') {b : ℕ}
    {as : List α} (h : ∀ a ∈ as, (item.write a).utf8Encode.size ≤ b) :
    ((Codec.array item hitem).write as).utf8Encode.size ≤ as.length * (b + 1) + 2 := by
  have hopen : '['.utf8Size = 1 := rfl
  have hwrite : (Codec.array item hitem).write as =
      '[' :: (if as.isEmpty then [']'] else (writeItems item.write ']' as).tail) := rfl
  have hitems := size_writeItems_le h
  rw [hwrite, size_utf8Encode_cons, hopen]
  cases as with
  | nil =>
    have hclose : [']'].utf8Encode.size = 1 := rfl
    simp [hclose]
  | cons a as =>
    rw [writeItems, size_utf8Encode_cons] at hitems
    simp only [List.isEmpty_cons, Bool.false_eq_true, if_false, writeItems, List.tail_cons]
    omega

theorem size_update_le [IpNetwork] {κ : Type} (sequence : UInt64) (router : Router κ) :
    (packet (show Kind.update.Content from SimpleRoutingProtocol.buildUpdate sequence router)).toByteArray.size ≤
      router.routingTable.routes.length * 86 + (Codec.string.write router.id).utf8Encode.size + 65 := by
  have hsequence : (decimal sequence.toNat).utf8Encode.size ≤ 20 :=
    size_decimal_le (by omega) (sequence.toNat_lt.trans_le (by decide))
  have hroutes : ∀ info ∈ (SimpleRoutingProtocol.buildUpdate sequence router).routes,
      (Crate.routeInfo.write info).utf8Encode.size ≤ 85 := by
    intro info hinfo
    obtain ⟨r, -, rfl⟩ := List.mem_map.mp hinfo
    exact size_routeInfo_le r.destination r.metric r.nextHop
  have harray := size_array_le (by intro a rest; simp [Crate.routeInfo, Codec.object, Codec.map, Codec.enclosed]) hroutes
  have hwrite : (Crate.text .update).write (SimpleRoutingProtocol.buildUpdate sequence router) =
      "\x7b\"router_id\":".toList ++ (((Codec.string.write router.id ++
        (",\"sequence\":".toList ++ decimal sequence.toNat)) ++
          (",\"routes\":".toList ++ (Codec.array Crate.routeInfo _).write
            (SimpleRoutingProtocol.buildUpdate sequence router).routes)) ++ ['}']) := rfl
  have h1 : "\x7b\"router_id\":".toList.utf8Encode.size = 13 := by decide +kernel
  have h2 : ",\"sequence\":".toList.utf8Encode.size = 12 := by decide +kernel
  have h3 : ",\"routes\":".toList.utf8Encode.size = 10 := by decide +kernel
  have h4 : ['}'].utf8Encode.size = 1 := rfl
  have h5 : Kind.update.tag.toList.utf8Encode.size = 7 := by decide +kernel
  rw [← String.utf8Encode_toList, Crate.packet_toList, size_append, h5]
  rw [hwrite]
  simp only [size_append, h1, h2, h3, h4]
  have hlength : (SimpleRoutingProtocol.buildUpdate sequence router).routes.length =
      router.routingTable.routes.length := List.length_map _
  rw [hlength] at harray
  omega

namespace System

variable {ι κ : Type} [DecidableEq ι] [IpNetwork] [NetRoute κ]

theorem Moves.sent {s t : System ι κ} {a : Action ι} (h : Moves s a t) {g : Datagram ι} (hg : g ∈ t.sent) :
    g ∈ s.sent ∨ ∃ i sequence, g.update = SimpleRoutingProtocol.buildUpdate sequence (s.nodes i).router := by
  cases h with
  | send i =>
    obtain hg | ⟨name, info, -, rfl⟩ := mem_broadcast_sent.mp hg
    · exact Or.inl hg
    · exact Or.inr ⟨i, _, rfl⟩
  | _ => exact Or.inl hg

theorem sent_origin {start : ι → SimpleRoutingProtocol κ} {bs : List (Action ι)} {g : Datagram ι}
    (hg : g ∈ ((boot start).run bs).sent) : ∃ before, before <+: bs ∧ ∃ i sequence,
      g.update = SimpleRoutingProtocol.buildUpdate sequence (((boot start).run before).nodes i).router := by
  induction bs using List.reverseRecOn with
  | nil => simp [System.run, boot] at hg
  | append_singleton bs a ih =>
    rw [run_append] at hg
    rcases (step_moves ((boot start).run bs) a).sent hg with hg | ⟨i, sequence, hbuilt⟩
    · obtain ⟨before, hbefore, horigin⟩ := ih hg
      exact ⟨before, hbefore.trans (List.prefix_append _ _), horigin⟩
    · exact ⟨bs, List.prefix_append _ _, i, sequence, hbuilt⟩

end System

namespace PacketNetwork

open SimpleRoutingProtocol HopDistance
open CustomOspf.System (Static Sound Linked dist)

section Small

variable {ι κ : Type} [DecidableEq ι] [Fintype ι] [IpNetwork] [NetRoute κ] {start : ι → SimpleRoutingProtocol κ}

structure Small (start : ι → SimpleRoutingProtocol κ) (nets : Finset Ipv4Network) : Prop where
  oneInterface : ∀ i name info name' info', (start i).router.interfaces.lookup name = some info →
    (start i).router.interfaces.lookup name' = some info' → info.network.subnet = info'.network.subnet →
      info.network = info'.network
  networks : ∀ i d, Attached (start i) d → d ∈ nets
  few : nets.card ≤ 46
  -- with the quotes
  shortIds : ∀ i, (Codec.string.write (start i).router.id).utf8Encode.size ≤ 66

variable (ht : Static start) {nets : Finset Ipv4Network} (hsmall : Small start nets)
include ht hsmall

theorem routes_length_le {bs : List (CustomOspf.Action ι)}
    (hfew : ∀ d, d.subnet = d → Fintype.card ι + ((System.boot start).run bs).removed d < 2 ^ 32) (i : ι) :
    (((System.boot start).run bs).nodes i).router.routingTable.routes.length ≤ nets.card := by
  have hs := (Sound.boot ht.topology.toTopology).run bs
  obtain ⟨installed, hw, hl⟩ := ht.topology.node hs i
  let routes := (((System.boot start).run bs).nodes i).router.routingTable.routes
  have hknown : ∀ r ∈ routes, r.destination.subnet ∈ nets := by
    intro r hr
    have hle := System.dist_le_route ht (hfew _ (Ipv4Network.subnet_subnet r.destination)) hr
    obtain ⟨m, hm⟩ := ENat.ne_top_iff_exists.mp (ne_top_of_le_ne_top (ENat.natCast_ne_top _) hle)
    obtain ⟨t, hattached, -⟩ := exists_walk_of_hops hm.symm
    exact hsmall.networks t _ hattached
  have hforeign : ∀ name info, (start i).router.interfaces.lookup name = some info → ∀ r ∈ routes,
      r.source = .protocol → info.network.subnet ≠ r.destination.subnet := by
    intro name info hlookup r hr hsrc he
    rw [← (hs.same i).interfaces] at hlookup
    exact Observed.protocol_not_attached hw hl hr hsrc ⟨name, info, hlookup, he⟩
  have hsame : ∀ r ∈ routes, ∀ r' ∈ routes, r.destination.subnet = r'.destination.subnet → r = r' := by
    intro r hr r' hr' he
    apply List.inj_on_of_nodup_map hw.distinct hr hr'
    rcases hw.routes r hr with ⟨name, info, hlookup, rfl⟩ | ⟨hsrc, hn, -⟩
    · have hlookup := (congrArg (fun d => d.lookup name) (hs.same i).interfaces).symm.trans hlookup
      rcases hw.routes r' hr' with ⟨name', info', hlookup', rfl⟩ | ⟨hsrc', -⟩
      · have hlookup' := (congrArg (fun d => d.lookup name') (hs.same i).interfaces).symm.trans hlookup'
        exact hsmall.oneInterface i name info name' info' hlookup hlookup' he
      · exact absurd he (hforeign name info hlookup r' hr' hsrc')
    · rcases hw.routes r' hr' with ⟨name', info', hlookup', rfl⟩ | ⟨-, hn', -⟩
      · have hlookup' := (congrArg (fun d => d.lookup name') (hs.same i).interfaces).symm.trans hlookup'
        exact absurd he.symm (hforeign name' info' hlookup' r hr hsrc)
      · rw [← hn, ← hn', he]
  have hnodup : (routes.map (fun r => r.destination.subnet)).Nodup :=
    List.Nodup.map_on hsame (List.Nodup.of_map _ hw.distinct)
  have hsubset : (routes.map (fun r => r.destination.subnet)).toFinset ⊆ nets := by
    intro d hd
    obtain ⟨r, hr, rfl⟩ := List.mem_map.mp (List.mem_toFinset.mp hd)
    exact hknown r hr
  calc routes.length = (routes.map (fun r => r.destination.subnet)).toFinset.card := by
        rw [List.toFinset_card_of_nodup hnodup, List.length_map]
    _ ≤ nets.card := Finset.card_le_card hsubset

theorem updates_fit {actions : List (Action ι)} (hsparse : Sparse ((boot start).run actions)) :
    ∀ f ∈ ((boot start).run actions).frames, isUpdate f = true → f.text.toByteArray.size ≤ 4096 := by
  intro f hf hupdate
  have hmatches := matches_run ht.topology hsparse
  have hmem : f ∈ ((boot start).run actions).frames.filter isUpdate := List.mem_filter.mpr ⟨hf, hupdate⟩
  rw [hmatches.updates] at hmem
  obtain ⟨g, hg, rfl⟩ := List.mem_map.mp hmem
  obtain ⟨bs, hbs, i, sequence, hbuilt⟩ := System.sent_origin hg
  have hfew : ∀ d, d.subnet = d → Fintype.card ι + ((System.boot start).run bs).removed d < 2 ^ 32 := by
    intro d hd
    obtain ⟨after, hafter⟩ := hbs
    have hle := System.removed_run_le ((System.boot start).run bs) after d
    have hbound := hsparse d hd
    rw [hmatches.removed, ← hafter, System.run_append] at hbound
    omega
  have hsize := size_update_le sequence (((System.boot start).run bs).nodes i).router
  have hlength := routes_length_le ht hsmall hfew i
  have hfew := hsmall.few
  have hid := hsmall.shortIds i
  rw [← (((Sound.boot ht.topology.toTopology).run bs).same i).id] at hid
  rw [← hbuilt] at hsize
  change (packet (show Kind.update.Content from g.update)).toByteArray.size ≤ 4096
  omega

def HeardRound (start : ι → SimpleRoutingProtocol κ) (n : PacketNetwork ι κ) (actions : List (Action ι)) : Prop :=
  ∀ j k, j ≠ k → Linked start j k → ∃ f, Heard start n actions j k f

theorem round_of_heard {before actions : List (Action ι)} (hsparse : Sparse ((boot start).run (before ++ actions)))
    (h : HeardRound start ((boot start).run before) actions) : Round start ((boot start).run before) actions := by
  intro j k hjk hlink
  obtain ⟨f, hheard⟩ := h j k hjk hlink
  refine ⟨f, hheard, ?_⟩
  obtain ⟨first, between, after, m, via, now, rfl, hnew, hf, -⟩ := hheard
  have hsent : Sparse ((boot start).run (before ++ (first ++ [.update k]))) := by
    have hsplit : before ++ (first ++ .update k :: (between ++ .receive m j via now :: after)) =
        before ++ (first ++ [.update k]) ++ (between ++ .receive m j via now :: after) := by simp
    rw [hsplit, run_append] at hsparse
    exact hsparse.before
  obtain ⟨name, info, -, -, update, htext⟩ := sendUpdates_new hnew hf
  have hupdate : isUpdate f = true := by
    rw [isUpdate_packet htext]
    rfl
  apply updates_fit ht hsmall hsent f _ hupdate
  rw [run_append, run_append]
  exact List.mem_of_getElem? hf

theorem rounds_of_heard {count : ℕ} {n : PacketNetwork ι κ} {rest : List (Action ι)}
    (h : Rounds PacketNetwork.run (HeardRound start) count n rest) {before : List (Action ι)}
    (hn : n = (boot start).run before) (hsparse : Sparse ((boot start).run (before ++ rest))) :
    Rounds PacketNetwork.run (Round start) count n rest := by
  induction h generalizing before with
  | zero n rest => exact Rounds.zero n rest
  | @succ count n round rest hround hrest ih =>
    subst hn
    rw [← List.append_assoc] at hsparse
    apply Rounds.succ
    · rw [run_append] at hsparse
      exact round_of_heard ht hsmall hsparse.before hround
    · exact ih (run_append _ _ _).symm hsparse

/-- In a network of at most 46 subnets no update is cut, and whatever order the packets come in, the metrics are the
distances after as many rounds as there are hops. -/
theorem small_network_converges {before rest : List (Action ι)} {d : Ipv4Network} (hd : d.subnet = d)
    (hcalm : Calm start before rest d) {count : ℕ}
    (h : Rounds PacketNetwork.run (HeardRound start) count ((boot start).run before) rest) :
    let n := (boot start).run (before ++ rest)
    (∀ f ∈ n.frames, isUpdate f = true → f.text.toByteArray.size ≤ 4096) ∧
      ∀ i, dist start d i ≤ count →
        (∃ r ∈ (n.nodes i).protocol.router.routingTable.routes, r.destination.subnet = d) ∧
          ∀ r ∈ (n.nodes i).protocol.router.routingTable.routes, r.destination.subnet = d →
            (r.metric.toNat : ℕ∞) = dist start d i := by
  intro n
  refine ⟨updates_fit ht hsmall hcalm.sparse, ?_⟩
  intro i hi
  exact wire_entries ht hd hcalm (rounds_of_heard ht hsmall h rfl hcalm.sparse) hi

end Small

section Line

open CustomOspf.System (line line_static farNetwork)

theorem line_small :
    Small line (Finset.univ.biUnion (fun i =>
      ((line i).router.interfaces.entries.map (fun e => e.2.network.subnet)).toFinset)) := by
  refine ⟨?_, ?_, by decide +kernel, by decide +kernel⟩
  · have hentries : ∀ i, ∀ e ∈ (line i).router.interfaces.entries, ∀ e' ∈ (line i).router.interfaces.entries,
        e.2.network.subnet = e'.2.network.subnet → e.2.network = e'.2.network := by decide +kernel
    intro i name info name' info' hl hl' he
    exact hentries i ⟨name, info⟩ (Dictionary.mem_entries.mpr hl) ⟨name', info'⟩ (Dictionary.mem_entries.mpr hl') he
  · rintro i d ⟨name, info, hl, rfl⟩
    simp only [Finset.mem_biUnion, Finset.mem_univ, true_and, List.mem_toFinset, List.mem_map]
    exact ⟨i, ⟨name, info⟩, Dictionary.mem_entries.mpr hl, rfl⟩

theorem small_network_converges_line :
    let n := (boot line).run ([] ++ wireRound)
    (∀ f ∈ n.frames, isUpdate f = true → f.text.toByteArray.size ≤ 4096) ∧
      ∀ i, dist line farNetwork i ≤ (1 : ℕ) →
        (∃ r ∈ (n.nodes i).protocol.router.routingTable.routes, r.destination.subnet = farNetwork) ∧
          ∀ r ∈ (n.nodes i).protocol.router.routingTable.routes, r.destination.subnet = farNetwork →
            (r.metric.toNat : ℕ∞) = dist line farNetwork i := by
  have hheard : HeardRound line (boot line) wireRound := by
    intro j k hjk hlink
    obtain ⟨f, hf, -⟩ := wire_round j k hjk hlink
    exact ⟨f, hf⟩
  have hrounds : Rounds PacketNetwork.run (HeardRound line) 1 (boot line) wireRound := by
    rw [← List.append_nil wireRound]
    exact Rounds.succ hheard (Rounds.zero _ _)
  have hd : farNetwork.subnet = farNetwork := by decide +kernel
  exact small_network_converges line_static line_small hd wire_calm hrounds

end Line

end PacketNetwork

end CustomOspf
