import CustomOspf.Expiry

/-!
Duplicated and reordered updates. The handler logs the sequence number of an
update and never compares it, so a late one is treated like any other.
-/

namespace CustomOspf.Observed

open SimpleRoutingProtocol

section Late

variable {κ : Type} [IpNetwork] [NetRoute κ]

/-- The events hold an update of the same router with a sequence number at least as high. -/
def Late (life : List Event) (message : RoutingUpdate) : Prop :=
  ∃ newer addr now, Event.update newer addr now ∈ life ∧ newer.routerId = message.routerId ∧
    message.sequence ≤ newer.sequence

/-- What holds of each late update of a run when it is handled, with `es` a life of the advertising router. -/
def AtLate (o : Observed κ) (es : List Event) (P : Observed κ → RoutingUpdate → SocketAddr → Prop) : Prop :=
  ∀ before message addr now after, es = before ++ Event.update message addr now :: after → Late before message →
    P (o.run before) message addr

structure Unchanged (p q : SimpleRoutingProtocol κ) : Prop where
  routes : q.router.routingTable.routes = p.router.routingTable.routes
  kernel : q.router.routingTable.routeHandle = p.router.routingTable.routeHandle
  records : ∀ k, q.routeStates.lookup k = p.routeStates.lookup k

def Harmless (o : Observed κ) (message : RoutingUpdate) (addr : SocketAddr) : Prop :=
  ∀ now, Unchanged o.protocol (o.step (.update message addr now)).protocol

def Refused (o : Observed κ) (message : RoutingUpdate) (addr : SocketAddr) : Prop :=
  message.routerId = o.protocol.router.id ∨ ∀ sender, addr.ip = .v4 sender → ∀ info ∈ message.routes,
    ∀ route state now, RouteManager.processSingleRoute info message.routerId sender o.interfaces now =
      some (route, state) → RouteManager.shouldAcceptRoute route o.protocol.router = false

omit [NetRoute κ] in
theorem refused_iff {o : Observed κ} {message : RoutingUpdate} {addr : SocketAddr} :
    Refused o message addr ↔ ∀ now, accepted message addr now o.protocol = [] := by
  constructor
  · rintro h now
    rw [List.eq_nil_iff_forall_not_mem]
    rintro ⟨key, route⟩ hk
    obtain ⟨hid, sender, haddr, info, hinfo, -, hp, ha⟩ := mem_accepted.mp hk
    rcases h with h | h
    · exact hid h
    · rw [h sender haddr info hinfo route _ now hp] at ha
      cases ha
  · intro h
    by_cases hid : message.routerId = o.protocol.router.id
    · exact Or.inl hid
    · right
      intro sender haddr info hinfo route state now hp
      by_contra ha
      obtain ⟨-, -, -, -, -, -, -, -, -, hstate⟩ := RouteManager.processSingleRoute_iff.mp hp
      subst hstate
      have hk : (info.destination, route) ∈ accepted message addr now o.protocol :=
        mem_accepted.mpr ⟨hid, sender, haddr, info, hinfo, rfl, hp, by simpa using ha⟩
      rw [h now] at hk
      simp at hk

theorem harmless_iff_refused {o : Observed κ} {message : RoutingUpdate} {addr : SocketAddr} :
    Harmless o message addr ↔ Refused o message addr := by
  rw [refused_iff]
  constructor
  · intro h
    by_contra hacc
    push Not at hacc
    obtain ⟨now, hne⟩ := hacc
    obtain ⟨⟨key, route⟩, hk⟩ := List.exists_mem_of_ne_nil _ hne
    -- the record that is written carries the time of the handling, which no older record need carry
    obtain ⟨later, hlater⟩ : ∃ later : ℕ, later =
        (o.protocol.routeStates.lookup key).elim 0 RouteState.lastAdvertised + 1 := ⟨_, rfl⟩
    have hk' : (key, route) ∈ accepted message addr later o.protocol := by
      obtain ⟨hid, sender, haddr, info, hinfo, hkey, hp, ha⟩ := mem_accepted.mp hk
      refine mem_accepted.mpr ⟨hid, sender, haddr, info, hinfo, hkey, ?_, ha⟩
      obtain ⟨d, nh, name, iface, hd, hn, ho, hbest, hroute, -⟩ := RouteManager.processSingleRoute_iff.mp hp
      exact RouteManager.processSingleRoute_iff.mpr ⟨d, nh, name, iface, hd, hn, ho, hbest, hroute, rfl⟩
    obtain ⟨r', -, hl⟩ := lookup_update_of_mem hk'
    have hsame := (h later).records key
    rw [step_protocol, hl] at hsame
    have htime : later = (o.protocol.routeStates.lookup key).elim 0 RouteState.lastAdvertised := by
      rw [← hsame]
      rfl
    omega
  · intro h now
    rw [step_protocol, SimpleRoutingProtocol.step, handleUpdateMessageStatic_eq, h now]
    exact ⟨rfl, rfl, fun k => rfl⟩

theorem lateUpdates_harmless_iff (o : Observed κ) (es : List Event) :
    AtLate o es Harmless ↔ AtLate o es Refused := by
  have hall (before : List Event) (message : RoutingUpdate) (addr : SocketAddr) :
      Harmless (o.run before) message addr ↔ Refused (o.run before) message addr := harmless_iff_refused
  simp only [AtLate, hall]

end Late

/-! The second update of "B" overtakes the first one, which brings back the metric it corrected. -/

def overtakingUpdates : List Event :=
  [.update ⟨"B", 2, [⟨"10.2.0.0/24", 3, "0.0.0.0"⟩]⟩ (lanPeer 2) 0,
    .update ⟨"B", 1, [⟨"10.2.0.0/24", 0, "0.0.0.0"⟩]⟩ (lanPeer 2) 1]

theorem lateUpdates_harmless_fails :
    ¬ ∀ o : Observed (Finset SystemRoute), Reachable o → ∀ es, AtLate o es Harmless := by
  intro h
  have hlate : Late (overtakingUpdates.take 1) ⟨"B", 1, [⟨"10.2.0.0/24", 0, "0.0.0.0"⟩]⟩ :=
    ⟨_, _, _, List.mem_singleton_self _, rfl, by decide⟩
  have hkept := h lan (lan_reachable []) overtakingUpdates (overtakingUpdates.take 1) _ _ _ [] rfl hlate 1
  have hroutes := congrArg (List.map RouteEntry.metric) hkept.routes
  revert hroutes
  decide +kernel

end CustomOspf.Observed
