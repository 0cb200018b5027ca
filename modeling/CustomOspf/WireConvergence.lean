import CustomOspf.PacketNetwork

/-!
What the routers come to know through the packets they exchange. An update that
fits the buffer of the listen loop counts, one that is cut does not.
-/

namespace CustomOspf.PacketNetwork

open SimpleRoutingProtocol HopDistance
open CustomOspf.System (LocalTopology Static Sound Linked linkGraph dist)

section Packets

variable {ι κ : Type} [DecidableEq ι] [IpNetwork] [NetRoute κ] [SerdeJson]

theorem frames_step (n : PacketNetwork ι κ) (a : Action ι) : n.frames <+: (n.step a).frames := by
  cases a with
  | receive k j via now =>
    simp only [step, receive]
    split
    · split
      · exact List.prefix_append _ _
      · exact List.prefix_refl _
    · exact List.prefix_refl _
  | forget i requestIds => exact List.prefix_refl _
  | cleanup j now => exact List.prefix_refl _
  | _ => exact List.prefix_append _ _

theorem frames_run (n : PacketNetwork ι κ) (actions : List (Action ι)) : n.frames <+: (n.run actions).frames := by
  induction actions generalizing n with
  | nil => exact List.prefix_refl _
  | cons a actions ih => exact (n.frames_step a).trans (ih (n.step a))

/-- The packet is one of an update that the router `k` sends in the run, and reaches the router `j` later in the run. -/
def Heard (start : ι → SimpleRoutingProtocol κ) (n : PacketNetwork ι κ) (actions : List (Action ι)) (j k : ι)
    (f : Frame) : Prop :=
  ∃ before between after m via now, actions = before ++ .update k :: (between ++ .receive m j via now :: after) ∧
    (n.run before).frames.length ≤ m ∧ ((n.run before).sendUpdates k).frames[m]? = some f ∧ reaches f (start j) = true

def Exchanged (start : ι → SimpleRoutingProtocol κ) (n : PacketNetwork ι κ) (actions : List (Action ι)) (j k : ι) :
    Prop := ∃ f, Heard start n actions j k f ∧ f.text.toByteArray.size ≤ 4096

def Round (start : ι → SimpleRoutingProtocol κ) (n : PacketNetwork ι κ) (actions : List (Action ι)) : Prop :=
  ∀ j k, j ≠ k → Linked start j k → Exchanged start n actions j k

variable {start : ι → SimpleRoutingProtocol κ}

omit [SerdeJson] [NetRoute κ] in
theorem reaches_same {p q : SimpleRoutingProtocol κ} (h : SameRouter p q) (f : Frame) : reaches f q = reaches f p := by
  unfold reaches
  split
  · next subnet _ =>
    rw [decide_eq_decide]
    exact h.attached subnet
  · rw [h.ourIps]
  · rfl

omit [NetRoute κ] in
theorem sendUpdates_new {n : PacketNetwork ι κ} {k : ι} {m : ℕ} {f : Frame} (hnew : n.frames.length ≤ m)
    (hf : (n.sendUpdates k).frames[m]? = some f) : ∃ name info,
      (n.nodes k).protocol.router.interfaces.lookup name = some info ∧ f.source.ip = .v4 info.ip ∧
        ∃ update : Kind.update.Content, f.text = packet update := by
  simp only [sendUpdates, sendRoutingUpdates, List.map_map] at hf
  rw [List.getElem?_append_right hnew] at hf
  obtain ⟨⟨name, info⟩, hentry, rfl⟩ := List.mem_map.mp (List.mem_of_getElem? hf)
  exact ⟨name, info, Dictionary.mem_entries.mp hentry, rfl, _, rfl⟩

end Packets

section Quiet

variable {ι κ : Type} [DecidableEq ι] [Fintype ι] [IpNetwork] [NetRoute κ] [SerdeJson]
  {start : ι → SimpleRoutingProtocol κ} (ht : Static start)

include ht

theorem removed_eq_zero {actions : List (Action ι)} (ha : ∀ j now, Action.cleanup j now ∉ actions) {d : Ipv4Network}
    (hd : d.subnet = d) : ((boot start).run actions).removed d = 0 := by
  induction actions using List.reverseRecOn generalizing d with
  | nil => rfl
  | append_singleton actions a ih =>
    have hbefore : ∀ j now, Action.cleanup j now ∉ actions := fun j now hmem => ha j now (List.mem_append_left _ hmem)
    have hsparse : Sparse ((boot start).run actions) := by
      intro d hd
      rw [ih hbefore hd, Nat.zero_add]
      exact ht.topology.card_lt
    have hmatches := (matches_run ht.topology hsparse).step ht.topology a hsparse
    have hs := (Sound.boot ht.topology.toTopology).run ((boot start).translate actions)
    have hclean : ∀ j now, CustomOspf.Action.cleanup j now ∉ ((boot start).run actions).abstraction a := by
      intro j now hmem
      apply ha j now
      rw [abstraction_clean hmem]
      exact List.mem_append_right _ (List.mem_singleton_self _)
    rw [run_append]
    change (((boot start).run actions).step a).removed d = 0
    rw [hmatches.removed, System.removed_run ht hs hclean hd, ← (matches_run ht.topology hsparse).removed]
    exact ih hbefore hd

theorem sparse_of_clean {actions : List (Action ι)} (ha : ∀ j now, Action.cleanup j now ∉ actions) :
    Sparse ((boot start).run actions) := by
  intro d hd
  rw [removed_eq_zero ht ha hd, Nat.zero_add]
  exact ht.topology.card_lt

structure Calm (start : ι → SimpleRoutingProtocol κ) (before rest : List (Action ι)) (d : Ipv4Network) : Prop where
  keeps : ((boot start).run (before ++ rest)).removed d = ((boot start).run before).removed d
  sparse : Sparse ((boot start).run (before ++ rest))

theorem Calm.of_clean {before rest : List (Action ι)} (ha : ∀ j now, Action.cleanup j now ∉ before ++ rest)
    {d : Ipv4Network} (hd : d.subnet = d) : Calm start before rest d := by
  have hbefore : ∀ j now, Action.cleanup j now ∉ before := fun j now hmem => ha j now (List.mem_append_left _ hmem)
  refine ⟨?_, sparse_of_clean ht ha⟩
  rw [removed_eq_zero ht ha hd, removed_eq_zero ht hbefore hd]

theorem matches_prefix {actions as : List (Action ι)} (hsparse : Sparse ((boot start).run actions))
    (has : as <+: actions) :
    Matches start ((boot start).run as) ((System.boot start).run ((boot start).translate as)) := by
  obtain ⟨after, rfl⟩ := has
  rw [run_append] at hsparse
  exact matches_run ht.topology hsparse.before

omit [Fintype ι] [DecidableEq ι] in
theorem abstraction_receive {n : PacketNetwork ι κ} {s : System ι κ} (hmatches : Matches start n s)
    (hs : Sound start s) {m : ℕ} {j k : ι} (hjk : j ≠ k) {f : Frame} (hf : n.frames[m]? = some f)
    (hreaches : reaches f (start j) = true) (hfits : f.text.toByteArray.size ≤ 4096) {name : String}
    {info : InterfaceInfo} (hlookup : (start k).router.interfaces.lookup name = some info)
    (hsource : f.source.ip = .v4 info.ip) {update : Kind.update.Content} (htext : f.text = packet update)
    (via : Ipv4Addr) (now : Instant) :
    n.abstraction (.receive m j via now) = [.deliver (n.updatesBefore m) j now] := by
  have hsame := hs.same j
  have hother : ∀ ip, f.source.ip = .v4 ip → ip ∉ (n.nodes j).protocol.ourIps := by
    intro ip hip hown
    rw [hsource] at hip
    obtain rfl := IpAddr.v4.inj hip
    rw [hmatches.nodes j, hsame.ourIps] at hown
    have hk : info.ip ∈ (start k).ourIps := ht.topology.toTopology.ourIps.mpr ⟨name, info, hlookup, rfl⟩
    exact hjk (ht.topology.addresses j k info.ip hown hk)
  obtain ⟨update', hreceived⟩ := received_fits htext hfits hother
  have hnode : reaches f (n.nodes j).protocol = true := by
    rw [hmatches.nodes j, reaches_same hsame, hreaches]
  simp only [abstraction, hf, hmatches.listening j, hnode, Bool.and_self, if_true, taken, hreceived]

omit [Fintype ι] in
theorem exchanged_translate {n : PacketNetwork ι κ} {s : System ι κ} (hs : Sound start s) {actions : List (Action ι)}
    (hmatches : ∀ as, as <+: actions → Matches start (n.run as) (s.run (n.translate as))) {j k : ι} (hjk : j ≠ k)
    (h : Exchanged start n actions j k) : System.Exchanged start s (n.translate actions) j k := by
  obtain ⟨f, ⟨before, between, after, m, via, now, rfl, hnew, hf, hreaches⟩, hfits⟩ := h
  let sending := n.run before
  let sent := sending.sendUpdates k
  let waiting := sent.run between
  have hsending : Matches start sending (s.run (n.translate before)) := hmatches before (List.prefix_append _ _)
  have hsent : Matches start sent ((s.run (n.translate before)).broadcast k) := by
    have hstep := hmatches (before ++ [.update k]) (by simp)
    rw [run_append, translate_append, System.run_append] at hstep
    exact hstep
  have hwaiting : Matches start waiting (((s.run (n.translate before)).broadcast k).run (sent.translate between)) := by
    have hrun := hmatches (before ++ (.update k :: between)) (by simp)
    rw [run_append, translate_append, System.run_append] at hrun
    exact hrun
  have hsound := (hs.run (n.translate before)).broadcast k
  -- the packet is one of the update, and still the same when it arrives
  obtain ⟨name, info, hlookup, hsource, update, htext⟩ := sendUpdates_new hnew hf
  rw [hsending.nodes k, ((hs.run (n.translate before)).same k).interfaces] at hlookup
  obtain ⟨later, hlater⟩ := sent.frames_run between
  have hm : m < sent.frames.length := (List.getElem?_eq_some_iff.mp hf).1
  have harrives : waiting.frames[m]? = some f := by
    rw [← hlater, List.getElem?_append_left hm]
    exact hf
  have hindex : waiting.updatesBefore m = sent.updatesBefore m := by
    rw [updatesBefore, ← hlater, List.take_append_of_le_length hm.le]
    rfl
  have hreceive := abstraction_receive ht hwaiting (hsound.run _) hjk harrives hreaches hfits hlookup hsource htext via now
  have hactions : n.translate (before ++ .update k :: (between ++ .receive m j via now :: after)) =
      n.translate before ++ .send k :: (sent.translate between ++ .deliver (waiting.updatesBefore m) j now ::
        (waiting.step (.receive m j via now)).translate after) := by
    have htail : waiting.translate (.receive m j via now :: after) =
        .deliver (waiting.updatesBefore m) j now :: (waiting.step (.receive m j via now)).translate after := by
      rw [translate, hreceive, List.singleton_append]
    rw [← htail, ← translate_append sent, translate_append]
    rfl
  have hupdate : isUpdate f = true := by
    rw [isUpdate_packet htext]
    rfl
  obtain ⟨g, hg, rfl⟩ := hsent.datagram hf hupdate
  refine ⟨_, _, _, _, now, hactions, ?_, g, ?_, ?_⟩
  · have hcount : (s.run (n.translate before)).sent.length = sending.frames.countP isUpdate := by
      rw [List.countP_eq_length_filter, hsending.updates, List.length_map]
    rw [hcount, hindex]
    apply List.Sublist.countP_le
    apply List.IsPrefix.sublist
    exact List.prefix_take_iff.mpr ⟨List.prefix_append _ _, hnew⟩
  · rw [hindex]
    exact hg
  · simpa [reaches, toFrame] using hreaches

omit [Fintype ι] in
theorem rounds_translate {count : ℕ} {n : PacketNetwork ι κ} {s : System ι κ} (hs : Sound start s)
    {actions : List (Action ι)}
    (hmatches : ∀ as, as <+: actions → Matches start (n.run as) (s.run (n.translate as)))
    (h : Rounds PacketNetwork.run (Round start) count n actions) :
    Rounds System.run (System.Round start) count s (n.translate actions) := by
  induction h generalizing s with
  | zero n rest => exact Rounds.zero s _
  | @succ count n round rest hround hrest ih =>
    rw [translate_append]
    apply Rounds.succ
    · intro j k hjk hlink
      exact exchanged_translate ht hs (fun as has => hmatches as (has.trans (List.prefix_append _ _))) hjk
        (hround j k hjk hlink)
    · apply ih (hs.run _)
      intro as has
      have hmatch := hmatches (round ++ as) ((List.prefix_append_right_inj round).mpr has)
      rw [run_append, translate_append, System.run_append] at hmatch
      exact hmatch

theorem Calm.translate {before rest : List (Action ι)} {d : Ipv4Network} (hd : d.subnet = d)
    (hcalm : Calm start before rest d) :
    System.Calm start ((boot start).translate before) (((boot start).run before).translate rest) d := by
  have hbefore := matches_prefix ht hcalm.sparse (List.prefix_append before rest)
  have hwhole := matches_run ht.topology hcalm.sparse
  have hkeeps := hcalm.keeps
  rw [hbefore.removed, hwhole.removed, translate_append, System.run_append] at hkeeps
  refine ⟨hkeeps, ?_⟩
  have hfew := hcalm.sparse d hd
  rw [hcalm.keeps, hbefore.removed] at hfew
  omega

theorem metricAt_wire {before rest : List (Action ι)} {d : Ipv4Network} (hd : d.subnet = d)
    (hcalm : Calm start before rest d) {count : ℕ}
    (h : Rounds PacketNetwork.run (Round start) count ((boot start).run before) rest) {i : ι}
    (hi : dist start d i ≤ count) :
    System.metricAt ((System.boot start).run ((boot start).translate (before ++ rest))) d i = dist start d i := by
  have hs := (Sound.boot ht.topology.toTopology).run ((boot start).translate before)
  have hrounds : Rounds System.run (System.Round start) count
      ((System.boot start).run ((boot start).translate before)) (((boot start).run before).translate rest) := by
    apply rounds_translate ht hs _ h
    intro as has
    have hmatches := matches_prefix ht hcalm.sparse ((List.prefix_append_right_inj before).mpr has)
    rw [run_append, translate_append, System.run_append] at hmatches
    exact hmatches
  rw [translate_append]
  exact System.metricAt_converged ht hd (hcalm.translate ht hd) hrounds hi

theorem wire_entries {before rest : List (Action ι)} {d : Ipv4Network} (hd : d.subnet = d)
    (hcalm : Calm start before rest d) {count : ℕ}
    (h : Rounds PacketNetwork.run (Round start) count ((boot start).run before) rest) {i : ι}
    (hi : dist start d i ≤ count) :
    let routes := (((boot start).run (before ++ rest)).nodes i).protocol.router.routingTable.routes
    (∃ r ∈ routes, r.destination.subnet = d) ∧
      ∀ r ∈ routes, r.destination.subnet = d → (r.metric.toNat : ℕ∞) = dist start d i := by
  have hmatches := matches_run ht.topology hcalm.sparse
  have hs := (Sound.boot ht.topology.toTopology).run ((boot start).translate (before ++ rest))
  have hmetric := metricAt_wire ht hd hcalm h hi
  rw [← hmetric, hmatches.nodes i]
  apply System.entries_of_metricAt ht hs
  rw [hmetric]
  exact ne_top_of_le_ne_top (ENat.natCast_ne_top count) hi

/-- After `count` rounds of updates that fit the buffer, in which no route to it is lost, a network at most `count` hops
away is in the table, with its distance for a metric. -/
theorem wire_converges {before rest : List (Action ι)} {d : Ipv4Network} (hd : d.subnet = d)
    (hcalm : Calm start before rest d) {count : ℕ}
    (h : Rounds PacketNetwork.run (Round start) count ((boot start).run before) rest) :
    let n := (boot start).run (before ++ rest)
    ∀ i, dist start d i ≤ count →
      (∃ r ∈ (n.nodes i).protocol.router.routingTable.routes, r.destination.subnet = d) ∧
        ∀ r ∈ (n.nodes i).protocol.router.routingTable.routes, r.destination.subnet = d →
          (r.metric.toNat : ℕ∞) = dist start d i := by
  intro n i hi
  exact wire_entries ht hd hcalm h hi

theorem dist_le_held {actions : List (Action ι)} (hsparse : Sparse ((boot start).run actions)) {i : ι} {r : RouteEntry}
    (hr : r ∈ (((boot start).run actions).nodes i).protocol.router.routingTable.routes) :
    dist start r.destination.subnet i ≤ r.metric.toNat := by
  have hmatches := matches_run ht.topology hsparse
  have hd := Ipv4Network.subnet_subnet r.destination
  have hfew := hsparse r.destination.subnet hd
  rw [hmatches.removed, Nat.add_comm] at hfew
  rw [hmatches.nodes i] at hr
  exact System.dist_le_route ht hfew hr

/-- Whatever packets are cut, lost, late or doubled, no router claims to be nearer to a network than it is, and no
metric runs away but by the routes that were lost. -/
theorem wire_metrics_bounded {actions : List (Action ι)} (hsparse : Sparse ((boot start).run actions)) (i : ι)
    (r : RouteEntry) (hr : r ∈ (((boot start).run actions).nodes i).protocol.router.routingTable.routes) :
    dist start r.destination.subnet i ≤ r.metric.toNat ∧
      r.metric.toNat < Fintype.card ι + ((boot start).run actions).removed r.destination := by
  refine ⟨dist_le_held ht hsparse hr, ?_⟩
  have hmatches := matches_run ht.topology hsparse
  rw [hmatches.nodes i] at hr
  obtain ⟨installed, hw⟩ := ((Sound.boot ht.topology.toTopology).run ((boot start).translate actions)).node i
  obtain ⟨name, info, -, rfl⟩ | ⟨hsrc, -⟩ := hw.routes r hr
  · exact Nat.add_pos_left (Fintype.card_pos_iff.mpr ⟨i⟩) _
  · rw [hmatches.removed]
    exact (held_metric_lt ht.topology _ i hr hsrc).2

end Quiet

/-! One round on the line, with the text of `serde_json`. -/

section Line

open CustomOspf.System (line line_static line_links farNetwork)

theorem exchanged_of {n : PacketNetwork (Fin 3) (Finset SystemRoute)} (before between after : List (Action (Fin 3)))
    {j k : Fin 3} {m : ℕ} (t : ℕ) {via : Ipv4Addr} {now : Instant} (hm : m = (n.run before).frames.length + t)
    (hnode : ((n.run before).nodes k).protocol = line k)
    (h : ∃ message ∈ (sendRoutingUpdates (line k)).2[t]?,
      Attached (line j) message.1.network.subnet ∧ ((Crate.text .update).write message.2).length ≤ 1000) :
    Exchanged line n (before ++ .update k :: (between ++ .receive m j via now :: after)) j k := by
  obtain ⟨message, hmessage, hattached, hlength⟩ := h
  refine ⟨updateFrame (sendRoutingUpdates (line k)).1 message, ⟨before, between, after, m, via, now, rfl, by omega, ?_, ?_⟩,
    Crate.packet_fits hlength⟩
  · simp only [sendUpdates]
    rw [hm, List.getElem?_append_right (Nat.le_add_right _ _), Nat.add_sub_cancel_left, List.getElem?_map, hnode, hmessage]
    rfl
  · simpa [reaches, updateFrame] using hattached

local instance neZeroWire : NeZero 3 := ⟨by decide⟩

theorem wire_round : Round line (boot line) wireRound := by
  have h1 : ((boot line).run [.update 0]).frames.length = 2 := by decide +kernel
  have h2 : ((boot line).run [.update 0, .update 1]).frames.length = 4 := by decide +kernel
  intro j k hjk hlink
  rcases line_links hjk hlink with ⟨rfl, rfl⟩ | ⟨rfl, rfl⟩ | ⟨rfl, rfl⟩ | ⟨rfl, rfl⟩
  · exact exchanged_of [] [.update 1, .update 2] _ 0 rfl rfl (by decide +kernel)
  · exact exchanged_of [.update 0] [.update 2, .receive 0 1 (.new 10 0 0 2) 0] _ 1 (by rw [h1]) rfl (by decide +kernel)
  · exact exchanged_of [.update 0] [.update 2, .receive 0 1 (.new 10 0 0 2) 0, .receive 3 0 (.new 10 0 0 1) 0] _ 0
      (by rw [h1]) rfl (by decide +kernel)
  · exact exchanged_of [.update 0, .update 1]
      [.receive 0 1 (.new 10 0 0 2) 0, .receive 3 0 (.new 10 0 0 1) 0, .receive 2 2 (.new 10 1 0 3) 0] [] 0
      (by rw [h2]) rfl (by decide +kernel)

theorem wireRound_clean : ∀ j now, Action.cleanup j now ∉ [] ++ wireRound := by simp [wireRound]

theorem wire_rounds : Rounds PacketNetwork.run (Round line) 1 (boot line) wireRound := by
  rw [← List.append_nil wireRound]
  exact Rounds.succ wire_round (Rounds.zero _ _)

theorem far_dist : dist line farNetwork 1 ≤ (1 : ℕ) := by
  have hzero : dist line farNetwork 0 = 0 := System.dist_eq_zero_iff.mpr (by decide +kernel)
  have hlinked : Linked line 1 0 := System.linked_iff.mpr (by decide +kernel)
  calc dist line farNetwork 1 ≤ dist line farNetwork 0 + 1 := System.dist_linked hlinked
    _ = (1 : ℕ) := by rw [hzero]; rfl

theorem wire_calm : Calm line [] wireRound farNetwork := Calm.of_clean line_static wireRound_clean (by decide +kernel)

theorem wire_converges_line :
    let n := (boot line).run ([] ++ wireRound)
    (∃ r ∈ (n.nodes 1).protocol.router.routingTable.routes, r.destination.subnet = farNetwork) ∧
      ∀ r ∈ (n.nodes 1).protocol.router.routingTable.routes, r.destination.subnet = farNetwork →
        (r.metric.toNat : ℕ∞) = dist line farNetwork 1 := by
  have hd : farNetwork.subnet = farNetwork := by decide +kernel
  exact wire_converges line_static hd wire_calm wire_rounds 1 far_dist

theorem wire_metrics_bounded_line :
    ∃ r ∈ (((boot line).run ([] ++ wireRound)).nodes 1).protocol.router.routingTable.routes,
      r.destination.subnet = farNetwork ∧ dist line farNetwork 1 ≤ r.metric.toNat ∧
        r.metric.toNat < Fintype.card (Fin 3) + ((boot line).run ([] ++ wireRound)).removed r.destination := by
  have hd : farNetwork.subnet = farNetwork := by decide +kernel
  obtain ⟨⟨r, hr, hsubnet⟩, -⟩ := wire_entries line_static hd wire_calm wire_rounds far_dist
  have hbounds := wire_metrics_bounded line_static (sparse_of_clean line_static wireRound_clean) 1 r hr
  rw [hsubnet] at hbounds
  exact ⟨r, hr, hsubnet, hbounds⟩

end Line

end CustomOspf.PacketNetwork
