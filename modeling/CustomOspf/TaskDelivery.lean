import CustomOspf.DataPlane
import CustomOspf.TaskConvergence

/-!
Where the packets go when the tasks of the routers interleave: the next hops and
the kernels are what they are in a network that does one thing at a time.
-/

namespace CustomOspf.TaskNetwork

open SimpleRoutingProtocol HopDistance
open CustomOspf.System (Static Linked dist AddressPlan)

section Safety

variable {ι σ κ : Type} [DecidableEq ι] [DecidableEq σ] [IpNetwork] [NetRoute κ]
  {start : ι → SimpleRoutingProtocol κ} (ht : Static start)

include ht

/-- A metric is at least the distance and less than the routers and the losses together, and where nothing was lost no
next hops lead back to where they start. -/
theorem interleaved_metrics [Fintype ι] (actions : List (NetworkAction ι σ)) {d : Ipv4Network} (hd : d.subnet = d) :
    let s := (boot start).run actions
    (∀ i, ∀ r ∈ (s.nodes i).shared.router.routingTable.routes, r.source = .protocol → r.destination = d →
      r.metric.toNat ≤ Fintype.card ι - 1 + s.removed d ∧
        (Fintype.card ι + s.removed d < 2 ^ 32 → dist start d i ≤ r.metric.toNat)) ∧
      (s.removed d = 0 → ∀ i, ¬ Relation.TransGen (System.Forwards s.abstract d) i i) := by
  intro s
  have hs : System.Derived start s.abstract := derived ht actions
  have hinitial := System.view_boot ht.topology d hd
  constructor
  · rintro i r hr hsrc rfl
    have hmem : r ∈ (s.abstract.nodes i).router.routingTable.routes := hr
    obtain ⟨-, hheld⟩ := System.view_held ht.topology hs.sound hmem hsrc
    constructor
    · have hlt := DistanceVector.metric_lt System.incr_le hinitial (hs.reachable r.destination hd) hheld
      have hpos : 0 < Fintype.card ι := Fintype.card_pos_iff.mpr ⟨i⟩
      change r.metric.toNat < _ + s.removed r.destination at hlt
      omega
    · intro hfew
      exact (hs.behind ht hd hfew).held i _ hheld
  · intro hlost i hcycle
    have hranked := DistanceVector.Ranked.of_reachable System.incr_le (System.incr_exact ht.topology) hinitial
      (hs.reachable d hd) hlost
    have hforwards : System.Forwards s.abstract d ≤ DistanceVector.Forwards (System.view start s.abstract d) :=
      fun i k hik => (System.forwards_view ht.topology hs.sound hik).2
    exact hranked.acyclic i (Relation.TransGen.mono hforwards i i hcycle)

end Safety

section Line

open CustomOspf.System (line line_static farNetwork)

theorem interleaved_metrics_line :
    let s := (boot line).run (lineLost ++ lineAgain)
    (∀ i, ∀ r ∈ (s.nodes i).shared.router.routingTable.routes, r.source = .protocol → r.destination = farNetwork →
      r.metric.toNat ≤ Fintype.card (Fin 3) - 1 + s.removed farNetwork ∧
        (Fintype.card (Fin 3) + s.removed farNetwork < 2 ^ 32 → dist line farNetwork i ≤ r.metric.toNat)) ∧
      (s.removed farNetwork = 0 → ∀ i, ¬ Relation.TransGen (System.Forwards s.abstract farNetwork) i i) := by
  have hd : farNetwork.subnet = farNetwork := by decide +kernel
  exact interleaved_metrics line_static (lineLost ++ lineAgain) hd

end Line

section Hops

variable {ι σ κ : Type} [DecidableEq ι] [DecidableEq σ] [IpNetwork] [NetRoute κ]

def Addressed (start : ι → SimpleRoutingProtocol κ) (s : TaskNetwork ι σ κ) : Prop :=
  ∀ g ∈ s.collected, ∀ info ∈ g.update.routes, ∀ ip, Ipv4Addr.parse info.nextHop = some ip → ip.isUnspecified = false →
    ∃ k, ip ∈ (start k).ourIps

variable {start : ι → SimpleRoutingProtocol κ} {s : TaskNetwork ι σ κ} (ht : Static start) (hplan : AddressPlan start)

include ht hplan

omit [DecidableEq σ] [DecidableEq ι] in
theorem Addressed.heard (h : Addressed start s) (hs : Sound start s) {j : ι} {r : RouteEntry}
    (hr : Heard start s.collected j r) : ∃ k, r.nextHop ∈ (start k).ourIps ∧ Linked start j k := by
  obtain ⟨g, hg, hattached, sender, hsender, info, hinfo, now, state, hp⟩ := hr
  exact System.nextHop_of_advert ht.topology.toTopology hplan (hs.collected g hg) hattached hsender (h g hg info hinfo) hp

theorem Addressed.step (h : Addressed start s) (hs : Sound start s) (a : NetworkAction ι σ) :
    Addressed start (s.step a) := by
  cases a with
  | update i =>
    simp only [TaskNetwork.step, TaskNetwork.update]
    cases s.updaters i with
    | numbered number =>
      intro g hg info hinfo ip hip hspecified
      rcases List.mem_append.mp hg with hg | hg
      · exact h g hg info hinfo ip hip hspecified
      · obtain ⟨name, iface, -, rfl⟩ := mem_datagrams.mp hg
        obtain ⟨r, hr, rfl⟩ := List.mem_map.mp hinfo
        rw [Ipv4Addr.parse_toString] at hip
        obtain rfl := Option.some.inj hip
        rcases (hs.kept i).table.source r hr with ⟨name', info', -, rfl⟩ | hheard
        · cases hspecified
        · obtain ⟨k, hk, -⟩ := h.heard ht hplan hs hheard
          exact ⟨k, hk⟩
    | _ => exact h
  | receive n j l =>
    simp only [TaskNetwork.step, TaskNetwork.receive]
    split
    · split <;> exact h
    · exact h
  | _ => exact h

theorem addressed_run (actions : List (NetworkAction ι σ)) :
    Addressed start ((boot start : TaskNetwork ι σ κ).run actions) := by
  induction actions using List.reverseRecOn with
  | nil => exact fun g hg => absurd hg List.not_mem_nil
  | append_singleton actions a ih =>
    rw [run_append]
    exact ih.step ht hplan (runs_sound ht actions) a

theorem nextHop_linked (actions : List (NetworkAction ι σ)) {i : ι} {r : RouteEntry}
    (hr : r ∈ (((boot start : TaskNetwork ι σ κ).run actions).nodes i).shared.router.routingTable.routes)
    (hsrc : r.source = .protocol) : ∃ k, r.nextHop ∈ (start k).ourIps ∧ Linked start i k := by
  have hs := runs_sound ht actions
  rcases (hs.kept i).table.source r hr with ⟨name, info, -, rfl⟩ | hheard
  · cases hsrc
  · exact (addressed_run ht hplan actions).heard ht hplan hs hheard

theorem converged [Fintype ι] {before rest : List (NetworkAction ι σ)} {d : Ipv4Network} (hd : d.subnet = d)
    (hcalm : Calm start before rest d) {n : ℕ}
    (h : Rounds TaskNetwork.run (Round start) n ((boot start).run before) rest) :
    System.Converged start ((boot start).run (before ++ rest)).abstract d n := by
  have hs := derived ht (before ++ rest)
  exact ⟨hs.sound, fun i r hr hsrc => nextHop_linked ht hplan (before ++ rest) hr hsrc, hs.behind ht hd hcalm.few_after,
    fun i hi => metricAt_converged ht hd hcalm h hi⟩

end Hops

section Packets

variable {ι σ κ : Type} [DecidableEq ι] [DecidableEq σ] [IpNetwork] [NetRoute κ] [LawfulNetRoute κ]
  {start : ι → SimpleRoutingProtocol κ} (ht : Static start) (hhosts : System.HostRoutes start)

include ht hhosts

theorem kernels_kept (actions : List (NetworkAction ι σ)) (i : ι) :
    (kernelOf (System.kernel (System.boot start) i)).Kept (start i) (((boot start).run actions).nodes i) := by
  induction actions using List.reverseRecOn generalizing i with
  | nil => exact TableInvariant.Kept.start (System.agrees_boot ht.topology.toTopology i)
  | append_singleton actions a ih =>
    rw [run_append]
    apply kept_step (I := fun i => kernelOf (System.kernel (System.boot start) i)) (runs_sound ht actions) _ ih
    intro j r hr
    obtain ⟨hsource, hnormal⟩ := hr.shape
    apply offered_kernelOf hsource hnormal
    obtain ⟨g, hg, -, sender, -, info, hinfo, now, state, hp⟩ := hr
    obtain ⟨d, nh, name, iface, hd, hnh, -, -, rfl, -⟩ := RouteManager.processSingleRoute_iff.mp hp
    obtain ⟨k, hk⟩ := (derived ht actions).advert_attached ht.topology hg hinfo hd hnh
    exact System.unclaimed ht.topology hhosts (System.Sound.boot ht.topology.toTopology) hk

theorem mirrored (actions : List (NetworkAction ι σ)) :
    System.Mirrored start ((boot start : TaskNetwork ι σ κ).run actions).abstract :=
  ⟨derived ht actions, fun i => (kernels_kept ht hhosts actions i).table⟩

end Packets

/-! The two routers with the default route, each of whose update tasks runs into the other's. -/

section Pair

open CustomOspf.System (pair pair_static pair_plan pair_hosts pair_home pair_dist farNetwork)

def pairSending : List (NetworkAction Bool Unit) := (List.replicate 3 [.update false, .update true]).flatten

def pairRound : List (NetworkAction Bool Unit) :=
  pairSending ++ ([.receive 0 true (), .receive 2 false ()] ++
    (List.replicate 8 [.listen true () 0, .listen false () 0]).flatten)

theorem pair_round : Round pair (boot pair) pairRound := by
  have hquiet : (∀ k, (boot pair : TaskNetwork Bool Unit _).updaters k = .idle) ∧
      (boot pair : TaskNetwork Bool Unit _).sent.length = 0 := ⟨fun k => rfl, rfl⟩
  have hhandled : Handled pair (boot pair) pairRound pairSending 0 true false () ∧
      Handled pair (boot pair) pairRound (pairSending ++ [.receive 0 true ()]) 2 false true () := by
    decide +kernel
  intro j k hjk _
  cases j with
  | true =>
    obtain rfl : k = false := by simpa using hjk.symm
    exact exchanged_of_handled hquiet (Nat.zero_le _) hhandled.1 rfl
  | false =>
    obtain rfl : k = true := by simpa using hjk.symm
    exact exchanged_of_handled hquiet (Nat.zero_le _) hhandled.2 rfl

end Pair

end CustomOspf.TaskNetwork
