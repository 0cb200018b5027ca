import CustomOspf.Installs
import CustomOspf.SharedTable

/-!
The routes that others have in the kernel, under updates of whatever contents:
which of them can get lost, and what the kernel has for each learned network.
-/

namespace CustomOspf

open SimpleRoutingProtocol

/-! The entries and the kernel, with `initial` the kernel of others and `claimed` the networks that an update may have
advertised. -/

section Coexistence

open Kernel LawfulNetRoute
open RoutingTable (systemRoute install uninstall)

theorem network_of_same [IpNetwork] {s : SystemRoute} {r : RouteEntry} (hn : r.destination.subnet = r.destination)
    (hsame : s.SameNetwork (systemRoute r)) : (⟨s.destination, s.prefixLen⟩ : Ipv4Network) = r.destination := by
  rw [hsame.1, hsame.2, ← hn]
  rfl

variable {κ : Type} [IpNetwork] [NetRoute κ] [LawfulNetRoute κ] {initial kernel : κ} {claimed : Ipv4Network → Prop}
  {find : Ipv4Network → Option RouteEntry}

structure Coexists (initial : κ) (claimed : Ipv4Network → Prop) (find : Ipv4Network → Option RouteEntry)
    (kernel : κ) : Prop where
  destination : ∀ d r, find d = some r → r.destination = d
  learned : ∀ d r, find d = some r → r.source = .direct ∨ (r.source = .protocol ∧ d.subnet = d ∧ claimed d)
  takes : Takes kernel = Takes initial
  owned : ∀ s ∈ held kernel, s ∈ held initial ∨ ∃ d r, find d = some r ∧ r.source = .protocol ∧ s = systemRoute r
  reached : ∀ d r, find d = some r → r.source = .protocol → Takes initial (systemRoute r) →
    ∃ s ∈ held kernel, s.SameNetwork (systemRoute r)
  kept : ∀ s ∈ held initial, ¬ claimed ⟨s.destination, s.prefixLen⟩ → s ∈ held kernel

theorem Coexists.protocol (h : Coexists initial claimed find kernel) {d : Ipv4Network} {r : RouteEntry}
    (hr : find d = some r) (hs : r.source ≠ .direct) : r.source = .protocol ∧ d.subnet = d ∧ claimed d :=
  (h.learned d r hr).resolve_left hs

theorem Coexists.same_network (h : Coexists initial claimed find kernel) {d : Ipv4Network} {r r' : RouteEntry}
    (hr : find d = some r) (hs : r.source ≠ .direct) (hn' : r'.destination.subnet = r'.destination)
    (he : (systemRoute r).SameNetwork (systemRoute r')) : d = r'.destination := by
  have hsub := (Ipv4Network.subnet_eq_iff r.destination r'.destination).mpr he
  rw [h.destination d r hr, (h.protocol hr hs).2.1, hn'] at hsub
  exact hsub

theorem Coexists.withdraw (h : Coexists initial claimed find kernel) {d : Ipv4Network} {existing : RouteEntry}
    (hd : find d = some existing) :
    Coexists initial claimed (Function.update find d none) (RoutingTable.withdraw kernel existing) := by
  have hold {d' : Ipv4Network} {r : RouteEntry} (hr : Function.update find d none d' = some r) :
      d' ≠ d ∧ find d' = some r := by
    by_cases he : d' = d
    · subst he
      simp at hr
    · rw [Function.update_of_ne he] at hr
      exact ⟨he, hr⟩
  have hdest : ∀ d' r, Function.update find d none d' = some r → r.destination = d' :=
    fun d' r hr => h.destination d' r (hold hr).2
  have hlearned : ∀ d' r, Function.update find d none d' = some r → r.source = .direct ∨
      (r.source = .protocol ∧ d'.subnet = d' ∧ claimed d') := fun d' r hr => h.learned d' r (hold hr).2
  -- what owns a route of the kernel stays, unless it is the entry itself
  have howned {s : SystemRoute} (hs : s ∈ held kernel) (hne : existing.source = .protocol → s ≠ systemRoute existing) :
      s ∈ held initial ∨ ∃ d' r, Function.update find d none d' = some r ∧ r.source = .protocol ∧ s = systemRoute r := by
    refine (h.owned s hs).imp_right ?_
    rintro ⟨d', r, hr, hp, rfl⟩
    refine ⟨d', r, ?_, hp, rfl⟩
    rw [Function.update_of_ne, hr]
    rintro rfl
    obtain rfl := Option.some.inj (hd.symm.trans hr)
    exact hne hp rfl
  rcases h.learned d existing hd with hsrc | ⟨hsrc, hn, hc⟩
  · have hsame : RoutingTable.withdraw kernel existing = kernel := by simp [RoutingTable.withdraw, hsrc]
    rw [hsame]
    refine ⟨hdest, hlearned, h.takes, fun s hs => howned hs ?_, fun d' r hr => h.reached d' r (hold hr).2, h.kept⟩
    rw [hsrc]
    rintro ⟨⟩
  · have hgone : RoutingTable.withdraw kernel existing = uninstall kernel (systemRoute existing) := by
      simp [RoutingTable.withdraw, hsrc]
    have hed : existing.destination = d := h.destination d existing hd
    have hnormal : existing.destination.subnet = existing.destination := by rw [hed, hn]
    rw [hgone]
    refine ⟨hdest, hlearned, takes_uninstall.trans h.takes, ?_, ?_, ?_⟩
    · intro s hs
      obtain ⟨hs, hne⟩ := deleted kernel _ s hs
      exact howned hs (fun _ => hne)
    · intro d' r hr hp htakes
      obtain ⟨hne, hr⟩ := hold hr
      obtain ⟨s, hs, hsame⟩ := h.reached d' r hr hp htakes
      refine ⟨s, untouched kernel _ s hs (fun hsame' => hne ?_), hsame⟩
      have he := h.same_network hr (by simp [hp]) hnormal ⟨hsame.1.symm.trans hsame'.1, hsame.2.symm.trans hsame'.2⟩
      exact he.trans hed
    · intro s hi hu
      refine untouched kernel _ s (h.kept s hi hu) (fun hsame => hu ?_)
      rw [network_of_same hnormal hsame, hed]
      exact hc

theorem Coexists.announce (h : Coexists initial claimed find kernel) {r : RouteEntry} (hs : r.source = .protocol)
    (hn : r.destination.subnet = r.destination) (hc : claimed r.destination) (hd : find r.destination = none) :
    Coexists initial claimed (Function.update find r.destination (some r)) (RoutingTable.announce kernel r) := by
  have hcases {d' : Ipv4Network} {r' : RouteEntry}
      (hr' : Function.update find r.destination (some r) d' = some r') :
      (d' = r.destination ∧ r' = r) ∨ (d' ≠ r.destination ∧ find d' = some r') := by
    by_cases he : d' = r.destination
    · subst he
      rw [Function.update_self] at hr'
      exact Or.inl ⟨rfl, (Option.some.inj hr').symm⟩
    · rw [Function.update_of_ne he] at hr'
      exact Or.inr ⟨he, hr'⟩
  have hinstall : RoutingTable.announce kernel r = install kernel (systemRoute r) := if_pos (by simp [hs])
  rw [hinstall]
  refine ⟨?_, ?_, takes_install.trans h.takes, ?_, ?_, ?_⟩
  · intro d' r' hr'
    rcases hcases hr' with ⟨rfl, rfl⟩ | ⟨-, hr'⟩
    · rfl
    · exact h.destination d' r' hr'
  · intro d' r' hr'
    rcases hcases hr' with ⟨rfl, rfl⟩ | ⟨-, hr'⟩
    · exact Or.inr ⟨hs, hn, hc⟩
    · exact h.learned d' r' hr'
  · intro s hm
    rcases mem_of_install hm with hm | rfl
    · refine (h.owned s hm).imp_right ?_
      rintro ⟨d', r', hr', hp, rfl⟩
      refine ⟨d', r', ?_, hp, rfl⟩
      rw [Function.update_of_ne, hr']
      rintro rfl
      rw [hd] at hr'
      cases hr'
    · exact Or.inr ⟨r.destination, r, Function.update_self _ _ _, hs, rfl⟩
  · intro d' r' hr' hp htakes
    rcases hcases hr' with ⟨rfl, rfl⟩ | ⟨hne, hr'⟩
    · rw [← h.takes] at htakes
      exact install_reaches htakes
    · obtain ⟨s, hm, hsame⟩ := h.reached d' r' hr' hp htakes
      refine ⟨s, (mem_install_of_other (fun hsame' => hne ?_)).mpr hm, hsame⟩
      exact h.same_network hr' (by simp [hp]) hn ⟨hsame.1.symm.trans hsame'.1, hsame.2.symm.trans hsame'.2⟩
  · intro s hi hu
    refine (mem_install_of_other (fun hsame => hu ?_)).mpr (h.kept s hi hu)
    rw [network_of_same hn hsame]
    exact hc

def coexistence (initial : κ) (claimed : Ipv4Network → Prop) : EntryInvariant κ where
  entered r := r.source = .protocol ∧ r.destination.subnet = r.destination ∧ claimed r.destination
  holds := Coexists initial claimed
  withdraw _ _ _ _ h hd := h.withdraw hd
  announce _ _ _ h hr hd := h.announce hr.1 hr.2.1 hr.2.2 hd

end Coexistence

section Runs

open Kernel LawfulNetRoute
open RoutingTable (systemRoute)

variable {κ : Type} [IpNetwork]

/-- `update`, sent from `sender`, may make a host on the networks `nets` learn a route to `d`. -/
structure Claims (nets : List Ipv4Network) (update : RoutingUpdate) (sender : Ipv4Addr) (d : Ipv4Network) : Prop where
  advertised : ∃ info ∈ update.routes, RouteManager.destinationOf info.destination = some d ∧
    ∃ gateway : Ipv4Addr, (gateway = sender ∨ Ipv4Addr.parse info.nextHop = some gateway) ∧
      gateway.isLoopback = false ∧ gateway.isUnspecified = false ∧ ∃ net ∈ nets, net.contains gateway = true
  elsewhere : ∀ net ∈ nets, d.subnet ≠ net.subnet

theorem Claims.of_processed {t : RoutingTable κ} {update : RoutingUpdate} {sender : Ipv4Addr}
    {info : RouteInfo} {interfaces : Interfaces} {now : Instant} {route : RouteEntry} {state : RouteState}
    (hm : info ∈ update.routes) (hv : t.isValidRoute route = true)
    (hp : RouteManager.processSingleRoute info update.routerId sender interfaces now = some (route, state)) :
    Claims t.localNetworks update sender route.destination := by
  obtain ⟨d, nh, name, iface, hd, hnh, -, -, rfl, -⟩ := RouteManager.processSingleRoute_iff.mp hp
  obtain ⟨hloop, hspec, hforeign, hin⟩ := (RoutingTable.isValidRoute_protocol rfl).mp hv
  refine ⟨⟨info, hm, hd, RouteManager.determineNextHop nh sender interfaces, ?_, hloop, hspec, hin⟩, hforeign⟩
  rcases RouteManager.determineNextHop_cases nh sender interfaces with he | ⟨he, -, -⟩
  · exact Or.inl he
  · rw [he]
    exact Or.inr hnh

namespace Concurrent

variable {ι : Type}

def Claimed (nets : List Ipv4Network) (actions : List (Section ι)) (d : Ipv4Network) : Prop :=
  ∃ i update addr sender, .receive i update addr ∈ actions ∧ addr.ip = .v4 sender ∧ Claims nets update sender d

variable [NetRoute κ] [LawfulNetRoute κ]

theorem claimed_fits {initial : κ} {p : SimpleRoutingProtocol κ}
    {actions : List (Section ι)} : ∀ a ∈ actions,
      (coexistence initial (Claimed p.router.routingTable.localNetworks actions)).toTable.Fits p a := by
  intro a ha
  cases a with
  | receive i update addr =>
    intro sender hsender info hm now route state hp t ht hv
    have hclaims := Claims.of_processed hm hv hp
    rw [ht] at hclaims
    obtain ⟨d, nh, name, iface, hd, -, -, -, rfl, -⟩ := RouteManager.processSingleRoute_iff.mp hp
    exact ⟨rfl, RouteManager.destinationOf_subnet hd, i, update, addr, sender, ha, hsender, hclaims⟩
  | _ => trivial

theorem coexists_new {routerId : String} {hosts hostsAtTable : List NetworkInterface} {names : List String}
    {port : UInt16} {initial : κ} {p : SimpleRoutingProtocol κ}
    (h : SimpleRoutingProtocol.new routerId hosts hostsAtTable names port initial = .ok p)
    (claimed : Ipv4Network → Prop) : (coexistence initial claimed).Holds p.router.routingTable := by
  have hw := Observed.WellFormed.new h
  have hdirect {d : Ipv4Network} {r : RouteEntry} (hr : p.router.routingTable.findRoute d = some r) :
      r.source = .direct := by
    rcases hw.routes r (RoutingTable.findRoute_mem hr) with ⟨name, info, -, rfl⟩ | ⟨-, -, -, hi⟩
    · rfl
    · cases hi
  have hkernel : p.router.routingTable.routeHandle = initial := by
    unfold SimpleRoutingProtocol.new at h
    split at h
    · cases h
    · next router hrouter =>
      cases h
      obtain ⟨interfaces, -, rfl⟩ := Router.new_ok hrouter
      have hspec := Router.addDirectRoutes_spec interfaces.entries
        (t := RoutingTable.new initial hostsAtTable) List.nodup_nil (by simp [RoutingTable.new])
      exact hspec.2.2.1
  refine ⟨hw.distinct, ⟨fun d r hr => RoutingTable.findRoute_destination hr, fun d r hr => Or.inl (hdirect hr),
    congrArg Takes hkernel, ?_, ?_, ?_⟩⟩
  · intro s hs
    rw [hkernel] at hs
    exact Or.inl hs
  · intro d r hr hp
    rw [hdirect hr] at hp
    cases hp
  · intro s hs _
    rw [hkernel]
    exact hs

variable [DecidableEq ι]

/-- Others lose a route only to an update that claims its network, and have a route of each learned network that ours
is not in the kernel of. -/
theorem foreign_routes {routerId : String} {hosts hostsAtTable : List NetworkInterface} {names : List String}
    {port : UInt16} {initial : κ} {p : SimpleRoutingProtocol κ}
    (h : SimpleRoutingProtocol.new routerId hosts hostsAtTable names port initial = .ok p)
    (actions : List (Section ι)) :
    let t := (actions.foldl step (start p)).shared.router.routingTable
    (∀ s ∈ held t.routeHandle, s ∈ held initial ∨ ∃ r ∈ t.routes, r.source = .protocol ∧ s = systemRoute r) ∧
      (∀ r ∈ t.routes, r.source = .protocol → Takes initial (systemRoute r) → systemRoute r ∈ held t.routeHandle ∨
        ∃ s ∈ held initial, s ∈ held t.routeHandle ∧ s.SameNetwork (systemRoute r)) ∧
      held t.drop ⊆ held initial ∧
      ∀ s ∈ held initial, s ∉ held t.routeHandle ∨ s ∉ held t.drop →
        Claimed p.router.routingTable.localNetworks actions ⟨s.destination, s.prefixLen⟩ := by
  intro t
  obtain ⟨hd, hc⟩ : (coexistence initial (Claimed p.router.routingTable.localNetworks actions)).Holds t :=
    (coexistence initial _).toTable.interleaved (coexists_new h _) claimed_fits
  have hdropped := EntryInvariant.Holds.drop (E := coexistence initial _) ⟨hd, hc⟩
  have hfound {r : RouteEntry} (hr : r ∈ t.routes) : t.findRoute r.destination = some r :=
    (RoutingTable.findRoute_iff hd).mpr ⟨hr, rfl⟩
  have howned : ∀ s ∈ held t.routeHandle, s ∈ held initial ∨
      ∃ r ∈ t.routes, r.source = .protocol ∧ s = systemRoute r := by
    intro s hs
    refine (hc.owned s hs).imp_right ?_
    rintro ⟨d, r, hr, hp, rfl⟩
    exact ⟨r, RoutingTable.findRoute_mem hr, hp, rfl⟩
  refine ⟨howned, ?_, ?_, ?_⟩
  · intro r hr hp htakes
    obtain ⟨s, hs, hsame⟩ := hc.reached _ r (hfound hr) hp htakes
    rcases howned s hs with hi | ⟨r', hr', hp', rfl⟩
    · exact Or.inr ⟨s, hi, hs, hsame⟩
    · have hn := (hc.protocol (hfound hr) (by simp [hp])).2.1
      have hdest := hc.same_network (hfound hr') (by simp [hp']) hn hsame
      have hsome := hfound hr'
      rw [hdest, hfound hr] at hsome
      obtain rfl := Option.some.inj hsome
      exact Or.inl hs
  · intro s hs
    refine (hdropped.owned s hs).resolve_right ?_
    rintro ⟨d, r, hr, hp, -⟩
    have hkept := (Option.filter_eq_some_iff.mp hr).2
    simp [hp] at hkept
  · intro s hi hs
    by_contra hu
    rcases hs with hs | hs
    · exact hs (hc.kept s hi hu)
    · exact hs (hdropped.kept s hi hu)

end Concurrent

end Runs

/-! The default route is by way of 10.0.0.254, and another router advertises one. -/

namespace Concurrent

def lanKernel : MainTable := ⟨{⟨.new 0 0 0 0, 0, .new 10 0 0 254⟩}, {.new 10 0 0 255}⟩

def advertisesDefault : List (Section Unit) :=
  .receive () ⟨"B", 1, [⟨"0.0.0.0/0", 0, "0.0.0.0"⟩]⟩ (Observed.lanPeer 2) :: List.replicate 5 (.listen () 0)

theorem lanKernel_isOk : (SimpleRoutingProtocol.new "A" Observed.lanHosts Observed.lanHosts ["eth0"] 5555
    lanKernel).isOk = true := by decide +kernel

theorem foreign_routes_witness :
    let p := started _ lanKernel_isOk
    let t := (advertisesDefault.foldl step (start p)).shared.router.routingTable
    (∀ s ∈ LawfulNetRoute.held t.routeHandle, s ∈ LawfulNetRoute.held lanKernel ∨
        ∃ r ∈ t.routes, r.source = .protocol ∧ s = RoutingTable.systemRoute r) ∧
      (∀ r ∈ t.routes, r.source = .protocol → LawfulNetRoute.Takes lanKernel (RoutingTable.systemRoute r) →
        RoutingTable.systemRoute r ∈ LawfulNetRoute.held t.routeHandle ∨
          ∃ s ∈ LawfulNetRoute.held lanKernel, s ∈ LawfulNetRoute.held t.routeHandle ∧
            s.SameNetwork (RoutingTable.systemRoute r)) ∧
      LawfulNetRoute.held t.drop ⊆ LawfulNetRoute.held lanKernel ∧
      ∀ s ∈ LawfulNetRoute.held lanKernel,
        s ∉ LawfulNetRoute.held t.routeHandle ∨ s ∉ LawfulNetRoute.held t.drop →
          Claimed p.router.routingTable.localNetworks advertisesDefault ⟨s.destination, s.prefixLen⟩ :=
  foreign_routes (started_ok lanKernel_isOk) advertisesDefault

/-- The host is left without its default route when the router goes down. -/
example : (advertisesDefault.foldl step (start (started _ lanKernel_isOk))).shared.router.routingTable.drop.routes = ∅ := by
  decide +kernel

end Concurrent

end CustomOspf
