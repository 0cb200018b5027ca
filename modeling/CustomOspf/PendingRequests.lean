import CustomOspf.Library.Mutex
import CustomOspf.Queries

/-!
The pending neighbour requests of one router, under the clients of its control
server, the packets it receives and the passes of the expiry task. A client holds
the lock of the control server from before its call until after it.
-/

namespace CustomOspf

inductive ClientPhase where
  | idle
  -- waits for the lock
  | queued (target : String)
  -- in `get_neighbors_of`
  | locked (target : String)
  -- in `request_neighbors_from_router`
  | requesting (requestId : String) (responder : ℕ) (phase : QueryPhase)
  | returned (result : Option (List ControlNeighborInfo))
deriving DecidableEq

def ClientPhase.Holds : ClientPhase → Prop
  | .idle => False
  | .queued _ => False
  | .locked _ => True
  | .requesting _ _ _ => True
  | .returned _ => True

structure ControlServer (ι κ : Type) where
  data : ProtocolData κ
  -- of the protocol object
  address : ℕ
  clients : ι → ClientPhase
  holder : Option ι
  channels : ℕ → Option (List ControlNeighborInfo)
  nextChannel : ℕ
  -- what each pass has found expired and is yet to remove
  passes : ℕ → List String
  -- the responders through which something was sent
  used : List ℕ

namespace ControlServer

inductive Action (ι : Type) where
  | neighborsOf (c : ι) (target : String)
  | acquire (c : ι)
  | getNeighborsOf (c : ι) (wall : SystemTime) (now : Instant)
  | resume (c : ι) (wall : SystemTime)
  -- the timeout fires, or the channel is found closed
  | expire (c : ι)
  | release (c : ι)
  | receive (text : String) (addr : SocketAddr) (now : Instant)
  | routing (e : SimpleRoutingProtocol.Event)
  | scanExpired (k : ℕ) (wall : SystemTime)
  | removeExpired (k : ℕ)

section Model

variable {ι κ : Type} [DecidableEq ι] [IpNetwork] [NetRoute κ] [SerdeJson]

def boot (p : SimpleRoutingProtocol κ) (address : ℕ) : ControlServer ι κ :=
  ⟨⟨p, ∅⟩, address, fun _ => .idle, none, fun _ => none, 0, fun _ => [], []⟩

def pending (s : ControlServer ι κ) : Dictionary String PendingNeighborRequest := s.data.pendingNeighborRequests

def put (s : ControlServer ι κ) (c : ι) (phase : ClientPhase) : ControlServer ι κ :=
  { s with clients := Function.update s.clients c phase }

def setPending (s : ControlServer ι κ) (pending : Dictionary String PendingNeighborRequest) : ControlServer ι κ :=
  { s with data := { s.data with pendingNeighborRequests := pending } }

def neighborsOf (s : ControlServer ι κ) (c : ι) (target : String) : ControlServer ι κ :=
  match s.clients c with
  | .idle => s.put c (.queued target)
  | _ => s

def acquire (s : ControlServer ι κ) (c : ι) : ControlServer ι κ :=
  match s.clients c, s.holder with
  | .queued target, none => { s.put c (.locked target) with holder := some c }
  | _, _ => s

def getNeighborsOf (s : ControlServer ι κ) (c : ι) (wall : SystemTime) (now : Instant) : ControlServer ι κ :=
  match s.clients c with
  | .locked target =>
    if target = s.data.protocol.router.id then
      s.put c (.returned (some (NeighborManager.getNeighborsList now s.data.protocol.neighbors)))
    else
      { s.put c (.requesting (NeighborManager.requestId wall s.address) s.nextChannel .generated) with
        nextChannel := s.nextChannel + 1 }
  | _ => s

def resume (s : ControlServer ι κ) (c : ι) (wall : SystemTime) : ControlServer ι κ :=
  match s.clients c with
  | .requesting requestId responder .generated =>
    (s.put c (.requesting requestId responder .stored)).setPending (s.pending.insert requestId ⟨responder, wall⟩)
  -- the broadcast goes out, and what comes back is received like any packet
  | .requesting requestId responder .stored => s.put c (.requesting requestId responder .waiting)
  | .requesting _ responder .waiting =>
    match s.channels responder with
    | some neighbors => s.put c (.returned (some neighbors))
    | none => s
  | .requesting requestId _ .expired => (s.put c (.returned none)).setPending (s.pending.erase requestId)
  | _ => s

def expire (s : ControlServer ι κ) (c : ι) : ControlServer ι κ :=
  match s.clients c with
  | .requesting requestId responder .waiting =>
    match s.channels responder with
    | some _ => s
    | none => s.put c (.requesting requestId responder .expired)
  | _ => s

def release (s : ControlServer ι κ) (c : ι) : ControlServer ι κ :=
  match s.clients c with
  | .returned _ => { s.put c .idle with holder := none }
  | _ => s

def perform (s : ControlServer ι κ) : Effect → ControlServer ι κ
  | .send _ _ => s
  | .deliver responder neighbors =>
    { s with channels := Function.update s.channels responder (some neighbors), used := s.used ++ [responder] }

def receive (s : ControlServer ι κ) (text : String) (addr : SocketAddr) (now : Instant) : ControlServer ι κ :=
  let handled := handleMessageWithProtocolData text addr now s.data
  handled.effects.foldl perform { s with data := handled.data }

def step (s : ControlServer ι κ) : Action ι → ControlServer ι κ
  | .neighborsOf c target => s.neighborsOf c target
  | .acquire c => s.acquire c
  | .getNeighborsOf c wall now => s.getNeighborsOf c wall now
  | .resume c wall => s.resume c wall
  | .expire c => s.expire c
  | .release c => s.release c
  | .receive text addr now => s.receive text addr now
  | .routing e => { s with data := { s.data with protocol := s.data.protocol.step e } }
  | .scanExpired k wall => { s with passes := Function.update s.passes k (Queries.expiredRequests wall s.pending) }
  | .removeExpired k =>
    { s.setPending (s.pending.eraseAll (s.passes k)) with passes := Function.update s.passes k [] }

def run (s : ControlServer ι κ) (actions : List (Action ι)) : ControlServer ι κ := actions.foldl step s

def InCall (s : ControlServer ι κ) (c : ι) (requestId : String) : Prop :=
  ∃ responder phase, s.clients c = .requesting requestId responder phase

/-! Each pending request is that of the call under the lock, and its responder is unused. -/

structure Sound (s : ControlServer ι κ) : Prop where
  lock : Mutex.Exclusive ClientPhase.Holds s.clients s.holder
  pending : ∀ id p, s.pending.lookup id = some p → p.responder ∉ s.used ∧
    ∃ c phase, s.clients c = .requesting id p.responder phase ∧ phase ≠ .generated
  channel : ∀ c id responder phase, s.clients c = .requesting id responder phase →
    responder < s.nextChannel ∧ (phase = .generated → responder ∉ s.used)
  used : ∀ responder ∈ s.used, responder < s.nextChannel
  answered : ∀ responder neighbors, s.channels responder = some neighbors → responder ∈ s.used
  nodup : s.used.Nodup

omit [DecidableEq ι] [IpNetwork] [NetRoute κ] [SerdeJson] in
theorem Sound.boot (p : SimpleRoutingProtocol κ) (address : ℕ) : Sound (boot p address : ControlServer ι κ) := by
  refine ⟨Mutex.Exclusive.outside (fun _ => id), ?_, ?_, ?_, ?_, List.nodup_nil⟩
  · rintro id p ⟨⟩
  · rintro c id responder phase ⟨⟩
  · simp [ControlServer.boot]
  · rintro responder neighbors ⟨⟩

section Steps

variable {s : ControlServer ι κ}

section Moves

omit [IpNetwork] [NetRoute κ] [SerdeJson]

/-- The step of a client. A request it leaves pending is its own, and it keeps those of the others. -/
theorem Sound.move (hs : Sound s) {c : ι} {phase : ClientPhase} {holder : Option ι} {next : ℕ}
    (pending : Dictionary String PendingNeighborRequest)
    (hlock : Mutex.Exclusive ClientPhase.Holds (Function.update s.clients c phase) holder)
    (hpending : ∀ id p, pending.lookup id = some p →
      (∃ own, phase = .requesting id p.responder own ∧ own ≠ .generated ∧ p.responder ∉ s.used) ∨
      (s.pending.lookup id = some p ∧ ∀ own, s.clients c = .requesting id p.responder own → own = .generated))
    (hchannel : ∀ id responder own, phase = .requesting id responder own →
      responder < next ∧ (own = .generated → responder ∉ s.used))
    (hnext : s.nextChannel ≤ next) :
    Sound { (s.put c phase).setPending pending with holder := holder, nextChannel := next } := by
  refine ⟨hlock, ?_, ?_, fun responder hr => (hs.used responder hr).trans_le hnext, hs.answered, hs.nodup⟩
  · intro id p hp
    rcases hpending id p hp with ⟨own, rfl, hown, hunused⟩ | ⟨hold, hother⟩
    · exact ⟨hunused, c, own, Function.update_self c _ _, hown⟩
    · obtain ⟨hunused, d, own, hd, hown⟩ := hs.pending id p hold
      refine ⟨hunused, d, own, ?_, hown⟩
      have hdc : d ≠ c := by
        rintro rfl
        exact hown (hother own hd)
      exact (Function.update_of_ne hdc _ _).trans hd
  · intro d id responder own hd
    by_cases hdc : d = c
    · subst hdc
      apply hchannel id responder own
      exact (Function.update_self d _ _).symm.trans hd
    · obtain ⟨hlt, hunused⟩ := hs.channel d id responder own ((Function.update_of_ne hdc _ _).symm.trans hd)
      exact ⟨hlt.trans_le hnext, hunused⟩

theorem Sound.moveOutside (hs : Sound s) {c : ι} (hc : ∀ id responder own, s.clients c ≠ .requesting id responder own)
    {phase : ClientPhase} {holder : Option ι} (hphase : ∀ id responder own, phase ≠ .requesting id responder own)
    (hlock : Mutex.Exclusive ClientPhase.Holds (Function.update s.clients c phase) holder) :
    Sound { s.put c phase with holder := holder } := by
  apply hs.move s.pending hlock
  · intro id p hp
    right
    exact ⟨hp, fun own hown => absurd hown (hc id p.responder own)⟩
  · intro id responder own hown
    exact absurd hown (hphase id responder own)
  · exact le_rfl

theorem Sound.neighborsOf (hs : Sound s) (c : ι) (target : String) : Sound (s.neighborsOf c target) := by
  unfold ControlServer.neighborsOf
  split
  · next hc =>
    apply hs.moveOutside (by simp [hc]) (by simp)
    apply hs.lock.move
    simp [ClientPhase.Holds]
  · exact hs

theorem Sound.acquire (hs : Sound s) (c : ι) : Sound (s.acquire c) := by
  unfold ControlServer.acquire
  split
  · next target hc hfree =>
    apply hs.moveOutside (by simp [hc]) (by simp)
    have hlock := hs.lock
    rw [hfree] at hlock
    exact hlock.acquire c _
  · exact hs

theorem Sound.release (hs : Sound s) (c : ι) : Sound (s.release c) := by
  unfold ControlServer.release
  split
  · next result hc =>
    apply hs.moveOutside (by simp [hc]) (by simp)
    apply hs.lock.release
    · simp [hc, ClientPhase.Holds]
    · simp [ClientPhase.Holds]
  · exact hs

theorem Sound.getNeighborsOf (hs : Sound s) (c : ι) (wall : SystemTime) (now : Instant) :
    Sound (s.getNeighborsOf c wall now) := by
  unfold ControlServer.getNeighborsOf
  split
  · next target hc =>
    have hheld : ClientPhase.Holds (s.clients c) := by simp [hc, ClientPhase.Holds]
    split
    · apply hs.moveOutside (by simp [hc]) (by simp)
      exact hs.lock.move (fun _ => hheld)
    · apply hs.move s.pending (hs.lock.move (fun _ => hheld))
      · intro id p hp
        right
        exact ⟨hp, by simp [hc]⟩
      · rintro id responder own ⟨⟩
        refine ⟨Nat.lt_succ_self _, fun _ hused => ?_⟩
        exact absurd (hs.used _ hused) (Nat.lt_irrefl _)
      · exact Nat.le_succ _
  · exact hs

theorem Sound.moveCall (hs : Sound s) {c : ι} {id : String} {responder : ℕ} {own : QueryPhase}
    (hc : s.clients c = .requesting id responder own) {phase : ClientPhase}
    (pending : Dictionary String PendingNeighborRequest)
    (hpending : ∀ id' p, pending.lookup id' = some p →
      (∃ own', phase = .requesting id' p.responder own' ∧ own' ≠ .generated ∧ p.responder ∉ s.used) ∨
      (s.pending.lookup id' = some p ∧ (id' = id → p.responder = responder → own = .generated)))
    (hphase : ∀ id' responder' own', phase = .requesting id' responder' own' →
      responder' = responder ∧ own' ≠ .generated) : Sound ((s.put c phase).setPending pending) := by
  have hheld : ClientPhase.Holds (s.clients c) := by simp [hc, ClientPhase.Holds]
  apply hs.move pending (hs.lock.move (fun _ => hheld))
  · intro id' p hp
    rcases hpending id' p hp with hnew | ⟨hold, hother⟩
    · exact Or.inl hnew
    · right
      refine ⟨hold, fun own' hown => ?_⟩
      obtain ⟨rfl, rfl, rfl⟩ := ClientPhase.requesting.inj (hc.symm.trans hown)
      exact hother rfl rfl
  · intro id' responder' own' hnext
    obtain ⟨rfl, hstored⟩ := hphase id' responder' own' hnext
    exact ⟨(hs.channel c id responder' own hc).1, fun hgenerated => absurd hgenerated hstored⟩
  · exact le_rfl

theorem Sound.advance (hs : Sound s) {c : ι} {id : String} {responder : ℕ} {own own' : QueryPhase}
    (hc : s.clients c = .requesting id responder own) (hown' : own' ≠ .generated) :
    Sound (s.put c (.requesting id responder own')) := by
  apply hs.moveCall hc s.pending
  · intro id' p hp
    by_cases hsame : id' = id ∧ p.responder = responder
    · obtain ⟨rfl, rfl⟩ := hsame
      left
      exact ⟨own', rfl, hown', (hs.pending id' p hp).1⟩
    · right
      exact ⟨hp, fun hid hresponder => absurd ⟨hid, hresponder⟩ hsame⟩
  · rintro id' responder' own'' ⟨⟩
    exact ⟨rfl, hown'⟩

theorem Sound.store (hs : Sound s) {c : ι} {id : String} {responder : ℕ}
    (hc : s.clients c = .requesting id responder .generated) (wall : SystemTime) :
    Sound ((s.put c (.requesting id responder .stored)).setPending (s.pending.insert id ⟨responder, wall⟩)) := by
  have hunused := (hs.channel c id responder .generated hc).2 rfl
  apply hs.moveCall hc
  · intro id' p hp
    by_cases hid : id' = id
    · subst hid
      rw [AList.lookup_insert] at hp
      obtain rfl := Option.some.inj hp
      left
      exact ⟨.stored, rfl, by simp, hunused⟩
    · rw [AList.lookup_insert_ne hid] at hp
      right
      exact ⟨hp, fun _ _ => rfl⟩
  · rintro id' responder' own ⟨⟩
    exact ⟨rfl, by simp⟩

theorem Sound.resume (hs : Sound s) (c : ι) (wall : SystemTime) : Sound (s.resume c wall) := by
  unfold ControlServer.resume
  split
  · next hc => exact hs.store hc wall
  · next hc => exact hs.advance hc (by simp)
  · next id responder hc =>
    split
    · next neighbors hanswer =>
      -- the answer has used the responder
      apply hs.moveCall hc s.pending
      · intro id' p hp
        right
        refine ⟨hp, fun _ hresponder => ?_⟩
        have hused := hs.answered responder neighbors hanswer
        exact absurd (hresponder ▸ hused) (hs.pending id' p hp).1
      · simp
    · exact hs
  · next id responder hc =>
    apply hs.moveCall hc (s.pending.erase id)
    · intro id' p hp
      obtain ⟨hne, hold⟩ := Dictionary.lookup_erase_some hp
      right
      exact ⟨hold, fun hid _ => absurd hid hne⟩
    · simp
  · exact hs

theorem Sound.expire (hs : Sound s) (c : ι) : Sound (s.expire c) := by
  unfold ControlServer.expire
  split
  · next hc =>
    split
    · exact hs
    · exact hs.advance hc (by simp)
  · exact hs

end Moves

theorem handleMessageWithProtocolData_pending (text : String) (addr : SocketAddr) (now : Instant)
    (data : ProtocolData κ) :
    let handled := handleMessageWithProtocolData text addr now data
    (handled.data.pendingNeighborRequests = data.pendingNeighborRequests ∧
      ∀ e ∈ handled.effects, ∃ text addr, e = .send text addr) ∨
    ∃ id p neighbors, data.pendingNeighborRequests.lookup id = some p ∧
      handled.data.pendingNeighborRequests = data.pendingNeighborRequests.erase id ∧
      handled.effects = [.deliver p.responder neighbors] := by
  unfold handleMessageWithProtocolData
  cases decodeMessage text with
  | error e =>
    left
    simp
  | ok decoded =>
    match decoded with
    | none =>
      left
      simp
    | some ⟨.hello, hello⟩ =>
      left
      simp [handleMessage]
    | some ⟨.update, update⟩ =>
      left
      simp [handleMessage]
    | some ⟨.neighborRequest, request⟩ =>
      left
      simp only [handleMessage, handleNeighborRequestStatic]
      split <;> simp
    | some ⟨.neighborResponse, response⟩ =>
      simp only [handleMessage, handleNeighborResponseStatic]
      split
      · next p hp =>
        right
        exact ⟨_, p, _, hp, rfl, rfl⟩
      · left
        simp

section Records

omit [DecidableEq ι] [IpNetwork] [NetRoute κ] [SerdeJson]

theorem perform_sends {effects : List Effect} (h : ∀ e ∈ effects, ∃ text addr, e = .send text addr) :
    effects.foldl perform s = s := by
  induction effects with
  | nil => rfl
  | cons e es ih =>
    obtain ⟨text, addr, rfl⟩ := h _ List.mem_cons_self
    exact ih (fun e' he' => h e' (List.mem_cons_of_mem _ he'))

theorem Sound.oneCall (hs : Sound s) {c d : ι} {id id' : String} {responder responder' : ℕ} {own own' : QueryPhase}
    (hc : s.clients c = .requesting id responder own) (hd : s.clients d = .requesting id' responder' own') :
    id = id' ∧ responder = responder' ∧ own = own' := by
  obtain rfl : c = d := by
    apply hs.lock.unique
    · simp [hc, ClientPhase.Holds]
    · simp [hd, ClientPhase.Holds]
  exact ClientPhase.requesting.inj (hc.symm.trans hd)

theorem Sound.unique (hs : Sound s) {id id' : String} {p p' : PendingNeighborRequest}
    (hp : s.pending.lookup id = some p) (hp' : s.pending.lookup id' = some p') : id = id' := by
  obtain ⟨-, c, own, hc, -⟩ := hs.pending id p hp
  obtain ⟨-, d, own', hd, -⟩ := hs.pending id' p' hp'
  exact (hs.oneCall hc hd).1

theorem Sound.shrink (hs : Sound s) {data : ProtocolData κ}
    (hsub : ∀ id p, data.pendingNeighborRequests.lookup id = some p → s.pending.lookup id = some p)
    (passes : ℕ → List String) : Sound { s with data := data, passes := passes } :=
  ⟨hs.lock, fun id p hp => hs.pending id p (hsub id p hp), hs.channel, hs.used, hs.answered, hs.nodup⟩

theorem Sound.answer (hs : Sound s) {id : String} {p : PendingNeighborRequest} (hp : s.pending.lookup id = some p)
    {data : ProtocolData κ} (hdata : data.pendingNeighborRequests = s.pending.erase id)
    (neighbors : List ControlNeighborInfo) :
    Sound ({ s with data := data }.perform (.deliver p.responder neighbors)) := by
  obtain ⟨hunused, c, own, hc, hown⟩ := hs.pending id p hp
  refine ⟨hs.lock, ?_, ?_, ?_, ?_, ?_⟩
  · intro id' p' hp'
    change data.pendingNeighborRequests.lookup id' = some p' at hp'
    rw [hdata] at hp'
    obtain ⟨hne, hp'⟩ := Dictionary.lookup_erase_some hp'
    exact absurd (hs.unique hp' hp) hne
  · intro d id' responder own' hd
    obtain ⟨hlt, hnew⟩ := hs.channel d id' responder own' hd
    refine ⟨hlt, fun hgenerated hused => ?_⟩
    rcases List.mem_append.mp hused with hold | hself
    · exact hnew hgenerated hold
    · -- the call under the lock has stored its request
      obtain ⟨-, -, rfl⟩ := hs.oneCall hc hd
      exact hown hgenerated
  · intro responder hused
    rcases List.mem_append.mp hused with hold | hself
    · exact hs.used responder hold
    · rw [List.mem_singleton.mp hself]
      exact (hs.channel c id _ own hc).1
  · intro responder answer hanswer
    apply List.mem_append.mpr
    by_cases hself : responder = p.responder
    · right
      exact List.mem_singleton.mpr hself
    · left
      exact hs.answered responder answer ((Function.update_of_ne hself _ _).symm.trans hanswer)
  · apply List.Nodup.append hs.nodup (List.nodup_singleton _)
    simpa using hunused

end Records

omit [DecidableEq ι] in
theorem Sound.receive (hs : Sound s) (text : String) (addr : SocketAddr) (now : Instant) :
    Sound (s.receive text addr now) := by
  unfold ControlServer.receive
  rcases handleMessageWithProtocolData_pending text addr now s.data with
    ⟨hsame, hsends⟩ | ⟨id, p, neighbors, hp, hdata, heffects⟩
  · dsimp only
    rw [perform_sends hsends]
    apply hs.shrink
    intro id p hp
    rwa [hsame] at hp
  · dsimp only
    rw [heffects]
    exact hs.answer hp hdata neighbors

theorem Sound.step (hs : Sound s) (a : Action ι) : Sound (s.step a) := by
  cases a with
  | neighborsOf c target => exact hs.neighborsOf c target
  | acquire c => exact hs.acquire c
  | getNeighborsOf c wall now => exact hs.getNeighborsOf c wall now
  | resume c wall => exact hs.resume c wall
  | expire c => exact hs.expire c
  | release c => exact hs.release c
  | receive text addr now => exact hs.receive text addr now
  | routing e => exact ⟨hs.lock, hs.pending, hs.channel, hs.used, hs.answered, hs.nodup⟩
  | scanExpired k wall => exact hs.shrink (fun _ _ => id) _
  | removeExpired k => exact hs.shrink (fun _ _ => Dictionary.lookup_eraseAll) _

theorem Sound.run (hs : Sound s) (actions : List (Action ι)) : Sound (s.run actions) := by
  induction actions generalizing s with
  | nil => exact hs
  | cons a actions ih => exact ih (hs.step a)

end Steps

/-- A responder is used at most once, and what is pending is the request of the one call in progress. -/
theorem pending_requests_complete (p : SimpleRoutingProtocol κ) (address : ℕ) (actions : List (Action ι)) :
    let s := (boot p address : ControlServer ι κ).run actions
    s.used.Nodup ∧
    (∀ id request, s.pending.lookup id = some request → ∃ c, s.InCall c id) ∧
    s.pending.entries.length ≤ 1 ∧
    ((∀ c id, ¬ s.InCall c id) → s.pending = ∅) := by
  intro s
  have hs : Sound s := (Sound.boot p address).run actions
  have hcall : ∀ id request, s.pending.lookup id = some request → ∃ c, s.InCall c id := by
    intro id request hp
    obtain ⟨-, c, own, hc, -⟩ := hs.pending id request hp
    exact ⟨c, request.responder, own, hc⟩
  refine ⟨hs.nodup, hcall, ?_, ?_⟩
  · exact Dictionary.length_le_one (fun id id' request request' hp hp' => hs.unique hp hp')
  · intro hidle
    apply Dictionary.eq_empty
    intro id request hp
    obtain ⟨c, hc⟩ := hcall id request hp
    exact hidle c id hc

end Model

end ControlServer

end CustomOspf
