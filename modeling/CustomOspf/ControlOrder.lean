import CustomOspf.ControlSessions

/-!
The commands of all clients in the order of the server's lock: who holds it
while the protocol starts or stops, and what the flag says in between.
-/

namespace CustomOspf

section Ids

variable {κ : Type} [IpNetwork] [NetRoute κ]

theorem PassPoint.removeKeys_id (dead keys : List String) (p : SimpleRoutingProtocol κ) :
    (removeKeys dead keys p).2.router.id = p.router.id := by
  induction keys generalizing p with
  | nil => rfl
  | cons k ks ih =>
    unfold removeKeys
    split
    · exact ih p
    · dsimp only
      split
      · exact ih _
      · split_ifs
        · rfl
        · exact ih _

omit [IpNetwork] [NetRoute κ] in
theorem PassPoint.removeVia_id (rest : List String) (indices : List ℕ) (p : SimpleRoutingProtocol κ) :
    (removeVia rest indices p).2.router.id = p.router.id := by
  induction indices generalizing p with
  | nil => rfl
  | cons i indices ih =>
    unfold removeVia
    split
    · rfl
    · exact ih p

theorem PassPoint.resume_id (now : Instant) (point : PassPoint) (p : SimpleRoutingProtocol κ) :
    (resume now point p).2.router.id = p.router.id := by
  cases point with
  | removing dead destinations => exact removeKeys_id dead destinations p
  | deleting dead route rest => exact removeKeys_id dead rest _
  | purgingVia ip rest => exact removeVia_id rest _ p
  | deletingVia route indices rest => exact removeVia_id rest indices _
  | _ => rfl

theorem PassPoint.abandon_id (executed : Bool) (s : PassPoint × SimpleRoutingProtocol κ) :
    (abandon executed s).router.id = s.2.router.id := by
  unfold abandon
  split_ifs
  · split
    · split <;> rfl
    · rfl
    · rfl
  · rfl

theorem Generation.act_id (g : Generation) (isRunning : Bool) (a : TaskAction) (p : SimpleRoutingProtocol κ) :
    (g.act isRunning a p).2.router.id = p.router.id := by
  obtain ⟨cleaner, listenTask, aborted⟩ := g
  cases a with
  | tick now => cases cleaner <;> rfl
  | resume =>
    cases cleaner with
    | passing now point =>
      have hid := PassPoint.resume_id now point p
      simp only [Generation.act]
      split
      · next heq =>
        rw [heq] at hid
        exact hid
      · next heq =>
        rw [heq] at hid
        exact hid
    | waiting | ended => rfl
  | endCleaner => cases cleaner <;> rfl
  | cancelCleaner executed =>
    cases aborted with
    | false => rfl
    | true =>
      cases cleaner with
      | passing now point => exact PassPoint.abandon_id executed (point, p)
      | waiting | ended => rfl
  | endListen => cases listenTask <;> rfl
  | cancelListen => cases aborted <;> rfl

theorem LoopPhase.act_id (isRunning : Bool) (a : LoopAction) (phase : LoopPhase) (p : SimpleRoutingProtocol κ) :
    (phase.act isRunning a p).2.router.id = p.router.id := by
  cases phase with
  | waiting =>
    cases a with
    | receive message addr =>
      cases isRunning with
      | false => rfl
      | true => cases message <;> rfl
    | handle now | endLoop => rfl
  | hello message addr =>
    cases a with
    | handle now =>
      obtain ⟨neighbors, hn⟩ := SimpleRoutingProtocol.handleHelloMessageStatic_eq message addr now p
      simp only [LoopPhase.act, hn]
    | receive | endLoop => rfl
  | update phase =>
    cases a with
    | handle now => exact (listen_same now phase p).id
    | receive | endLoop => rfl
  | ended => cases a <;> rfl

end Ids

namespace CommandServer

def switches {γ : Type} : Executed γ → Option Bool
  | .main => some true
  | .client _ .start _ => some true
  | .client _ .stop _ => some false
  | .client _ _ _ => none

def executedBy {γ : Type} [DecidableEq γ] (c : γ) (log : List (Executed γ)) : List (Locked × ControlResponse) :=
  log.filterMap (fun e =>
    match e with
    | .main => none
    | .client c' command response => if c' = c then some (command, response) else none)

def lastSwitch {γ : Type} (log : List (Executed γ)) : Bool := (log.filterMap switches).getLast?.getD false

section Invariant

variable {γ ι κ : Type} {routerId : String}

theorem lastSwitch_concat (log : List (Executed γ)) (e : Executed γ) :
    lastSwitch (log ++ [e]) = (switches e).getD (lastSwitch log) := by
  rw [lastSwitch, List.filterMap_append]
  cases h : switches e with
  | none => simp [h, lastSwitch]
  | some b => simp [h]

def StatusesRight (routerId : String) (log : List (Executed γ)) : Prop :=
  ∀ before c response, before ++ [.client c .status response] <+: log →
    response = statusResponse routerId (lastSwitch before)

theorem StatusesRight.concat {log : List (Executed γ)} (h : StatusesRight routerId log) {e : Executed γ}
    (he : ∀ c response, e = .client c .status response → response = statusResponse routerId (lastSwitch log)) :
    StatusesRight routerId (log ++ [e]) := by
  intro before c response hprefix
  rcases List.prefix_concat_iff.mp hprefix with hlast | hold
  · obtain ⟨rfl, hsame⟩ := List.append_inj' hlast rfl
    exact he c response (List.singleton_inj.mp hsame).symm
  · exact h before c response hold

variable [DecidableEq γ] [ControlJson]

/-- The holder of the lock starts the protocol: `main`, or a client with the command. -/
def Starter (s : CommandServer γ ι κ) : Prop :=
  s.holder = some none ∨ ∃ c trimmed, s.holder = some (some c) ∧ (s.clients c).session = .running trimmed .start

structure Base (routerId : String) (s : CommandServer γ ι κ) : Prop where
  router : s.daemon.shared.router.id = routerId
  served : ∀ c, Served routerId (s.clients c) (executedBy c s.log)
  statuses : StatusesRight routerId s.log

/-- The flag is up from the beginning of a start on, and the holder of the lock is the one that starts. -/
structure Sane (routerId : String) (s : CommandServer γ ι κ) : Prop extends Base routerId s where
  idle : s.daemon.control = .idle → s.daemon.isRunning = lastSwitch s.log
  starting : s.daemon.control = .starting → s.daemon.isRunning = true ∧ Starter s
  stopping : s.daemon.control = .stopping → s.daemon.isRunning = false ∧
    ∃ c trimmed, s.holder = some (some c) ∧ (s.clients c).session = .running trimmed .stop

theorem Base.boot (p : SimpleRoutingProtocol κ) : Base p.router.id (boot p : CommandServer γ ι κ) := by
  refine ⟨rfl, fun c => Served.start, ?_⟩
  intro before c response hprefix
  simp [CommandServer.boot] at hprefix

theorem Sane.boot (p : SimpleRoutingProtocol κ) : Sane p.router.id (boot p : CommandServer γ ι κ) := by
  refine ⟨Base.boot p, fun _ => rfl, ?_, ?_⟩
  · intro h
    cases h
  · intro h
    cases h

variable {s : CommandServer γ ι κ}

omit [ControlJson] in
@[simp] theorem put_self (c : γ) (client : Client) : (s.put c client).clients c = client := Function.update_self c _ _

omit [ControlJson] in
theorem put_of_ne {c c' : γ} (h : c' ≠ c) (client : Client) : (s.put c client).clients c' = s.clients c' :=
  Function.update_of_ne h _ _

theorem served_put (h : ∀ c, Served routerId (s.clients c) (executedBy c s.log)) {c : γ} {client : Client}
    (hc : Served routerId client (executedBy c s.log)) :
    ∀ c', Served routerId ((s.put c client).clients c') (executedBy c' s.log) := by
  intro c'
  by_cases hcc : c' = c
  · subst hcc
    rw [put_self]
    exact hc
  · rw [put_of_ne hcc]
    exact h c'

theorem Base.sane_of_idle (h : Base routerId s) (hcontrol : s.daemon.control = .idle)
    (hswitch : s.daemon.isRunning = lastSwitch s.log) : Sane routerId s := by
  refine ⟨h, fun _ => hswitch, ?_, ?_⟩
  · intro hstarting
    cases hcontrol.symm.trans hstarting
  · intro hstopping
    cases hcontrol.symm.trans hstopping

theorem Base.finish_client (h : Base routerId s) (hcontrol : s.daemon.control = .idle) {c : γ}
    (hholder : s.holder = some (some c)) {trimmed : String} {command : Locked}
    (hsession : (s.clients c).session = .running trimmed command) {response : ControlResponse}
    (ha : Answer routerId command response)
    (hstatus : command = .status → response = statusResponse routerId (lastSwitch s.log))
    (hswitch : s.daemon.isRunning = lastSwitch (s.log ++ [.client c command response])) :
    Sane routerId (s.finish response) := by
  have hfinish : s.finish response = { s.put c ((s.clients c).respond response) with
      holder := none, log := s.log ++ [.client c command response] } := by
    simp only [finish, hholder, hsession]
  rw [hfinish]
  refine Base.sane_of_idle ⟨h.router, ?_, ?_⟩ hcontrol hswitch
  · intro c'
    by_cases hcc : c' = c
    · subst hcc
      have hserved := (h.served c').respond hsession ha
      simpa [executedBy, List.filterMap_append] using hserved
    · have hserved := h.served c'
      simpa [executedBy, List.filterMap_append, put_of_ne hcc, Ne.symm hcc] using hserved
  · apply h.statuses.concat
    intro c' response' he
    obtain ⟨-, hcommand, rfl⟩ := Executed.client.inj he
    exact hstatus hcommand

theorem Base.finish_main (h : Base routerId s) (hcontrol : s.daemon.control = .idle) (hholder : s.holder = some none)
    (hup : s.daemon.isRunning = true) (response : ControlResponse) : Sane routerId (s.finish response) := by
  have hfinish : s.finish response = { s with holder := none, main := .done, log := s.log ++ [.main] } := by
    simp only [finish, hholder]
  rw [hfinish]
  refine Base.sane_of_idle ⟨h.router, ?_, ?_⟩ hcontrol ?_
  · intro c
    have hserved := h.served c
    simpa [executedBy, List.filterMap_append] using hserved
  · apply h.statuses.concat
    intro c response he
    cases he
  · rw [lastSwitch_concat]
    exact hup

theorem Base.finish_start (h : Base routerId s) (hcontrol : s.daemon.control = .idle) (hholder : Starter s)
    (hup : s.daemon.isRunning = true) : Sane routerId (s.finish startResponse) := by
  rcases hholder with hmain | ⟨c, trimmed, hclient, hsession⟩
  · exact h.finish_main hcontrol hmain hup _
  · apply h.finish_client hcontrol hclient hsession rfl
    · intro hstatus
      cases hstatus
    · rw [lastSwitch_concat]
      exact hup

theorem Base.finish_reading (h : Base routerId s) (hcontrol : s.daemon.control = .idle) {c : γ}
    (hholder : s.holder = some (some c)) {trimmed : String} {command : Locked}
    (hsession : (s.clients c).session = .running trimmed command) (hflag : s.daemon.isRunning = lastSwitch s.log)
    {response : ControlResponse} (ha : Answer routerId command response) (hstart : command ≠ .start)
    (hstop : command ≠ .stop)
    (hstatus : command = .status → response = statusResponse routerId (lastSwitch s.log)) :
    Sane routerId (s.finish response) := by
  apply h.finish_client hcontrol hholder hsession ha hstatus
  rw [lastSwitch_concat, hflag]
  cases command with
  | start => exact absurd rfl hstart
  | stop => exact absurd rfl hstop
  | status | neighbors | neighborsOf | routingTable => rfl

theorem Sane.free (h : Sane routerId s) (hfree : s.holder = none) : s.daemon.control = .idle := by
  cases hcontrol : s.daemon.control with
  | idle => rfl
  | starting =>
    rcases (h.starting hcontrol).2 with hmain | ⟨c, trimmed, hclient, -⟩
    · rw [hfree] at hmain
      cases hmain
    · rw [hfree] at hclient
      cases hclient
  | stopping =>
    obtain ⟨-, c, trimmed, hclient, -⟩ := h.stopping hcontrol
    rw [hfree] at hclient
    cases hclient

theorem Sane.answer (h : Sane routerId s) (neighbors : Option (List ControlNeighborInfo)) :
    Sane routerId (s.answer neighbors) := by
  unfold CommandServer.answer
  split
  · next c hholder =>
    split
    · next trimmed target hsession =>
      have hcontrol : s.daemon.control = .idle := by
        cases hcontrol : s.daemon.control with
        | idle => rfl
        | starting =>
          rcases (h.starting hcontrol).2 with hmain | ⟨c', trimmed', hclient, hother⟩
          · rw [hholder] at hmain
            cases hmain
          · obtain rfl := Option.some.inj (Option.some.inj (hholder.symm.trans hclient))
            rw [hsession] at hother
            cases hother
        | stopping =>
          obtain ⟨-, c', trimmed', hclient, hother⟩ := h.stopping hcontrol
          obtain rfl := Option.some.inj (Option.some.inj (hholder.symm.trans hclient))
          rw [hsession] at hother
          cases hother
      exact h.toBase.finish_reading hcontrol hholder hsession (h.idle hcontrol) ⟨_, rfl⟩ (by simp) (by simp)
        (fun he => by cases he)
    · exact h
  · exact h

theorem Sane.put (h : Sane routerId s) {c : γ} {client : Client} (hc : Served routerId client (executedBy c s.log))
    (hrunning : ∀ trimmed command, (s.clients c).session = .running trimmed command →
      client.session = .running trimmed command) : Sane routerId (s.put c client) := by
  have hkept : ∀ c' trimmed command, (s.clients c').session = .running trimmed command →
      ((s.put c client).clients c').session = .running trimmed command := by
    intro c' trimmed command hsession
    by_cases hcc : c' = c
    · subst hcc
      rw [put_self]
      exact hrunning trimmed command hsession
    · rw [put_of_ne hcc]
      exact hsession
  refine ⟨⟨h.router, served_put h.served hc, h.statuses⟩, h.idle, ?_, ?_⟩
  · intro hstarting
    obtain ⟨hup, hholder⟩ := h.starting hstarting
    refine ⟨hup, ?_⟩
    rcases hholder with hmain | ⟨c', trimmed, hclient, hsession⟩
    · exact Or.inl hmain
    · exact Or.inr ⟨c', trimmed, hclient, hkept c' trimmed .start hsession⟩
  · intro hstopping
    obtain ⟨hdown, c', trimmed, hclient, hsession⟩ := h.stopping hstopping
    exact ⟨hdown, c', trimmed, hclient, hkept c' trimmed .stop hsession⟩

theorem Sane.withDaemon (h : Sane routerId s) {d : Daemon ι κ} (hcontrol : d.control = s.daemon.control)
    (hflag : d.isRunning = s.daemon.isRunning) (hid : d.shared.router.id = s.daemon.shared.router.id) :
    Sane routerId { s with daemon := d } := by
  refine ⟨⟨hid.trans h.router, h.served, h.statuses⟩, ?_, ?_, ?_⟩
  · intro hidle
    exact hflag.trans (h.idle (hcontrol.symm.trans hidle))
  · intro hstarting
    obtain ⟨hup, hholder⟩ := h.starting (hcontrol.symm.trans hstarting)
    exact ⟨hflag.trans hup, hholder⟩
  · intro hstopping
    obtain ⟨hdown, hholder⟩ := h.stopping (hcontrol.symm.trans hstopping)
    exact ⟨hflag.trans hdown, hholder⟩

theorem finish_log {c : γ} (hholder : s.holder = some (some c)) {trimmed : String} {command : Locked}
    (hsession : (s.clients c).session = .running trimmed command) (response : ControlResponse) :
    (s.finish response).log = s.log ++ [.client c command response] := by
  simp only [finish, hholder, hsession]

theorem finish_main_log (hholder : s.holder = some none) (response : ControlResponse) :
    (s.finish response).log = s.log ++ [.main] := by
  simp only [finish, hholder]

variable [DecidableEq ι] [IpNetwork] [NetRoute κ]

theorem Base.startProtocol (h : Base routerId s) (hcontrol : s.daemon.control = .idle) (hholder : Starter s) :
    Sane routerId s.startProtocol := by
  unfold CommandServer.startProtocol
  split_ifs with hup
  · exact h.finish_start hcontrol hholder hup
  · have hstep : s.daemon.step .startBegin = { s.daemon with isRunning := true, control := .starting } := by
      simp only [Daemon.step, hcontrol, hup, Bool.false_eq_true, if_false]
    rw [hstep]
    refine ⟨⟨h.router, h.served, h.statuses⟩, ?_, fun _ => ⟨rfl, hholder⟩, ?_⟩
    · intro hidle
      cases hidle
    · intro hstopping
      cases hstopping

theorem Base.stopProtocol (h : Base routerId s) (hcontrol : s.daemon.control = .idle) {c : γ} {trimmed : String}
    (hholder : s.holder = some (some c)) (hsession : (s.clients c).session = .running trimmed .stop) :
    Sane routerId s.stopProtocol := by
  unfold CommandServer.stopProtocol
  split_ifs with hdown
  · apply h.finish_client hcontrol hholder hsession rfl
    · intro hstatus
      cases hstatus
    · rw [lastSwitch_concat]
      exact (Bool.not_eq_true' _).mp hdown
  · have hup : s.daemon.isRunning = true := by simpa using hdown
    have hstep : s.daemon.step .stopBegin = { s.daemon with isRunning := false, control := .stopping } := by
      simp only [Daemon.step, hcontrol, hup, if_true]
    rw [hstep]
    refine ⟨⟨h.router, h.served, h.statuses⟩, ?_, ?_, fun _ => ⟨rfl, c, trimmed, hholder, hsession⟩⟩
    · intro hidle
      cases hidle
    · intro hstarting
      cases hstarting

theorem Base.execute (h : Base routerId s) (hcontrol : s.daemon.control = .idle) {c : γ}
    (hholder : s.holder = some (some c)) {trimmed : String} {command : Locked}
    (hsession : (s.clients c).session = .running trimmed command) (hflag : s.daemon.isRunning = lastSwitch s.log)
    (now : Instant) : Sane routerId (s.execute now command) := by
  cases command with
  | status =>
    have hstatus : getStatus (some s.daemon) = statusResponse routerId (lastSwitch s.log) := by
      rw [getStatus, h.router, hflag]
    exact h.finish_reading hcontrol hholder hsession hflag ⟨_, hstatus⟩ (by simp) (by simp) (fun _ => hstatus)
  | neighbors =>
    exact h.finish_reading hcontrol hholder hsession hflag ⟨_, rfl⟩ (by simp) (by simp) (fun he => by cases he)
  | routingTable =>
    exact h.finish_reading hcontrol hholder hsession hflag ⟨_, rfl⟩ (by simp) (by simp) (fun he => by cases he)
  | neighborsOf target =>
    refine ⟨h, fun _ => hflag, ?_, ?_⟩
    · intro hstarting
      rw [show s.daemon.control = .starting from hstarting] at hcontrol
      cases hcontrol
    · intro hstopping
      rw [show s.daemon.control = .stopping from hstopping] at hcontrol
      cases hcontrol
  | start => exact h.startProtocol hcontrol (Or.inr ⟨c, trimmed, hholder, hsession⟩)
  | stop => exact h.stopProtocol hcontrol hholder hsession

theorem Sane.acquire (h : Sane routerId s) (c : γ) (now : Instant) : Sane routerId (s.acquire c now) := by
  unfold CommandServer.acquire
  split
  · next trimmed command hqueued hfree =>
    have hrunning := (h.served c).acquire hqueued
    have hsession : ((s.put c { s.clients c with session := .running trimmed command }).clients c).session =
        .running trimmed command := by
      rw [put_self]
    have hbase : Base routerId { s.put c { s.clients c with session := .running trimmed command } with
        holder := some (some c) } := ⟨h.router, served_put h.served hrunning, h.statuses⟩
    exact hbase.execute (h.free hfree) rfl hsession (h.idle (h.free hfree)) now
  · exact h

theorem Sane.mainAcquire (h : Sane routerId s) : Sane routerId s.mainAcquire := by
  unfold CommandServer.mainAcquire
  split
  · next hfree =>
    have hbase : Base routerId { s with main := .starting, holder := some none } := ⟨h.router, h.served, h.statuses⟩
    exact hbase.startProtocol (h.free hfree) (Or.inl rfl)
  · exact h

theorem Sane.startTasks (h : Sane routerId s) (i : ι) : Sane routerId (s.startTasks i) := by
  unfold CommandServer.startTasks
  split
  · next hstarting hidle =>
    obtain ⟨hup, hholder⟩ := h.starting hstarting
    have hstep : (s.daemon.step (.startTasks i)).shared = s.daemon.shared ∧
        (s.daemon.step (.startTasks i)).isRunning = s.daemon.isRunning := by
      simp only [Daemon.step]
      split <;> exact ⟨rfl, rfl⟩
    have hbase : Base routerId { s with daemon := s.daemon.step (.startTasks i) } :=
      ⟨by rw [hstep.1]; exact h.router, h.served, h.statuses⟩
    exact hbase.finish_start hidle hholder (hstep.2.trans hup)
  · exact h

theorem Sane.stopReturn (h : Sane routerId s) : Sane routerId s.stopReturn := by
  unfold CommandServer.stopReturn
  split
  · next hstopping =>
    obtain ⟨hdown, c, trimmed, hholder, hsession⟩ := h.stopping hstopping
    have hstep : s.daemon.step .stopReturn = { s.daemon with
        control := .idle, taskHandles := [],
        generations := Daemon.abortAll s.daemon.taskHandles s.daemon.generations } := by
      simp only [Daemon.step, hstopping]
    rw [hstep]
    have hbase : Base routerId { s with daemon := { s.daemon with
        control := .idle, taskHandles := [],
        generations := Daemon.abortAll s.daemon.taskHandles s.daemon.generations } } := ⟨h.router, h.served, h.statuses⟩
    apply hbase.finish_client rfl hholder hsession rfl
    · intro hstatus
      cases hstatus
    · rw [lastSwitch_concat]
      exact hdown
  · exact h

theorem Sane.step (h : Sane routerId s) (a : Action γ ι) : Sane routerId (s.step a) := by
  cases a with
  | arrive c bytes =>
    simp only [CommandServer.step]
    split_ifs with hclosed
    · exact h
    · exact h.put ((h.served c).arrive (Bool.eq_false_of_not_eq_true hclosed) bytes) (fun _ _ hsession => hsession)
  | close c => exact h.put (h.served c).close (fun _ _ hsession => hsession)
  | breakOff c => exact h.put (h.served c).breakOff (fun _ _ hsession => hsession)
  | read c =>
    apply h.put (h.served c).read
    intro trimmed command hsession
    simp only [Client.read, hsession]
  | acquire c now => exact h.acquire c now
  | mainAcquire => exact h.mainAcquire
  | startTasks i => exact h.startTasks i
  | stopReturn => exact h.stopReturn
  | answer neighbors => exact h.answer neighbors
  | spawnLoop i j =>
    apply h.withDaemon
    all_goals
      simp only [Daemon.step]
      split <;> rfl
  | tasks i a => exact h.withDaemon rfl rfl (Generation.act_id _ _ a _)
  | loop j a => exact h.withDaemon rfl rfl (LoopPhase.act_id _ a _ _)

theorem Sane.run (h : Sane routerId s) (actions : List (Action γ ι)) : Sane routerId (s.run actions) := by
  induction actions generalizing s with
  | nil => exact h
  | cons a actions ih => exact ih (h.step a)

/-! What a response is made of: the state that the holder of the lock has found. -/

/-- The response that the step `a` of the server `s` gives to a command. -/
def AnsweredAt (s : CommandServer γ ι κ) (a : Action γ ι) (c : γ) : Locked → ControlResponse → Prop
  | .status, response => response = statusResponse s.daemon.shared.router.id s.daemon.isRunning
  | .neighbors, response => ∃ now, a = .acquire c now ∧
      response = neighborsResponse (NeighborManager.getNeighborsList now s.daemon.shared.neighbors)
  | .neighborsOf target, response => ∃ neighbors, a = .answer neighbors ∧
      response = neighborsOfResponse target neighbors
  | .start, response => response = startResponse
  | .stop, response => response = stopResponse
  | .routingTable, response => response = routingTableResponse s.daemon.shared.getRoutingTable

/-- A step of the server adds one entry to the log at most, and that of a client as the command asks. -/
def Extends (s : CommandServer γ ι κ) (a : Action γ ι) (log : List (Executed γ)) : Prop :=
  log = s.log ∨ log = s.log ++ [.main] ∨
    ∃ c command response, log = s.log ++ [.client c command response] ∧ AnsweredAt s a c command response

theorem startProtocol_log (hholder : Starter s) :
    s.startProtocol.log = s.log ∨ s.startProtocol.log = s.log ++ [.main] ∨
      ∃ c, s.startProtocol.log = s.log ++ [.client c .start startResponse] := by
  unfold CommandServer.startProtocol
  split_ifs
  · rcases hholder with hmain | ⟨c, trimmed, hclient, hsession⟩
    · exact Or.inr (Or.inl (finish_main_log hmain _))
    · exact Or.inr (Or.inr ⟨c, finish_log hclient hsession _⟩)
  · exact Or.inl rfl

theorem extends_acquire (c : γ) (now : Instant) : Extends s (.acquire c now) (s.acquire c now).log := by
  unfold CommandServer.acquire
  split
  · next trimmed command hqueued hfree =>
    let held : CommandServer γ ι κ :=
      { s.put c { s.clients c with session := .running trimmed command } with holder := some (some c) }
    have hsession : (held.clients c).session = .running trimmed command := by
      change ((s.put c { s.clients c with session := .running trimmed command }).clients c).session = _
      rw [put_self]
    have hfinish (response : ControlResponse) :
        (held.finish response).log = s.log ++ [.client c command response] := finish_log rfl hsession response
    change Extends s (.acquire c now) (held.execute now command).log
    cases command with
    | status => exact Or.inr (Or.inr ⟨c, .status, _, hfinish _, rfl⟩)
    | neighbors => exact Or.inr (Or.inr ⟨c, .neighbors, _, hfinish _, now, rfl, rfl⟩)
    | routingTable => exact Or.inr (Or.inr ⟨c, .routingTable, _, hfinish _, rfl⟩)
    | neighborsOf target => exact Or.inl rfl
    | start =>
      rcases startProtocol_log (s := held) (Or.inr ⟨c, trimmed, rfl, hsession⟩) with hsame | hmain | ⟨c', hclient⟩
      · exact Or.inl hsame
      · exact Or.inr (Or.inl hmain)
      · exact Or.inr (Or.inr ⟨c', .start, _, hclient, rfl⟩)
    | stop =>
      simp only [execute, CommandServer.stopProtocol]
      split_ifs
      · exact Or.inr (Or.inr ⟨c, .stop, _, hfinish _, rfl⟩)
      · exact Or.inl rfl
  · exact Or.inl rfl

theorem Sane.extends (h : Sane routerId s) (a : Action γ ι) : Extends s a (s.step a).log := by
  cases a with
  | arrive c bytes =>
    simp only [CommandServer.step]
    split_ifs <;> exact Or.inl rfl
  | close | breakOff | read | spawnLoop | tasks | loop => exact Or.inl rfl
  | acquire c now => exact extends_acquire c now
  | mainAcquire =>
    simp only [CommandServer.step, CommandServer.mainAcquire]
    split
    · rcases startProtocol_log (s := { s with main := .starting, holder := some none }) (Or.inl rfl) with
        hsame | hmain | ⟨c, hclient⟩
      · exact Or.inl hsame
      · exact Or.inr (Or.inl hmain)
      · exact Or.inr (Or.inr ⟨c, .start, _, hclient, rfl⟩)
    · exact Or.inl rfl
  | startTasks i =>
    simp only [CommandServer.step, CommandServer.startTasks]
    split
    · next hstarting _ =>
      let started : CommandServer γ ι κ := { s with daemon := s.daemon.step (.startTasks i) }
      rcases (h.starting hstarting).2 with hmain | ⟨c, trimmed, hclient, hsession⟩
      · exact Or.inr (Or.inl (finish_main_log (s := started) hmain startResponse))
      · exact Or.inr (Or.inr ⟨c, .start, _, finish_log (s := started) hclient hsession startResponse, rfl⟩)
    · exact Or.inl rfl
  | stopReturn =>
    simp only [CommandServer.step, CommandServer.stopReturn]
    split
    · next hstopping =>
      let stopped : CommandServer γ ι κ := { s with daemon := s.daemon.step .stopReturn }
      obtain ⟨-, c, trimmed, hclient, hsession⟩ := h.stopping hstopping
      exact Or.inr (Or.inr ⟨c, .stop, _, finish_log (s := stopped) hclient hsession stopResponse, rfl⟩)
    · exact Or.inl rfl
  | answer neighbors =>
    simp only [CommandServer.step, CommandServer.answer]
    split
    · next c hholder =>
      split
      · next trimmed target hsession =>
        exact Or.inr (Or.inr ⟨c, .neighborsOf target, _, finish_log hholder hsession _, neighbors, rfl, rfl⟩)
      · exact Or.inl rfl
    · exact Or.inl rfl

theorem answered_of_log (p : SimpleRoutingProtocol κ) (actions : List (Action γ ι)) {before : List (Executed γ)} {c : γ}
    {command : Locked} {response : ControlResponse}
    (h : before ++ [.client c command response] <+: ((boot p : CommandServer γ ι κ).run actions).log) :
    ∃ earlier a, earlier ++ [a] <+: actions ∧ ((boot p : CommandServer γ ι κ).run earlier).log = before ∧
      AnsweredAt ((boot p : CommandServer γ ι κ).run earlier) a c command response := by
  induction actions using List.reverseRecOn with
  | nil => simp [CommandServer.boot, CommandServer.run] at h
  | append_singleton actions a ih =>
    have hsane := (Sane.boot p : Sane p.router.id (boot p : CommandServer γ ι κ)).run actions
    have hold : before ++ [.client c command response] <+: ((boot p : CommandServer γ ι κ).run actions).log →
        ∃ earlier a', earlier ++ [a'] <+: actions ++ [a] ∧ ((boot p : CommandServer γ ι κ).run earlier).log = before ∧
          AnsweredAt ((boot p : CommandServer γ ι κ).run earlier) a' c command response := by
      intro hprefix
      obtain ⟨earlier, a', he, hrest⟩ := ih hprefix
      exact ⟨earlier, a', he.trans (List.prefix_append actions [a]), hrest⟩
    have hrun : (boot p : CommandServer γ ι κ).run (actions ++ [a]) = ((boot p).run actions).step a :=
      List.foldl_concat _ _ _ _
    rw [hrun] at h
    rcases hsane.extends a with hsame | hmain | ⟨c', command', response', hclient, hanswered⟩
    · rw [hsame] at h
      exact hold h
    · rw [hmain] at h
      rcases List.prefix_concat_iff.mp h with hlast | hprefix
      · obtain ⟨-, hentry⟩ := List.append_inj' hlast rfl
        cases hentry
      · exact hold hprefix
    · rw [hclient] at h
      rcases List.prefix_concat_iff.mp h with hlast | hprefix
      · obtain ⟨rfl, hentry⟩ := List.append_inj' hlast rfl
        obtain ⟨rfl, rfl, rfl⟩ := Executed.client.inj (List.singleton_inj.mp hentry)
        exact ⟨actions, a, List.prefix_refl _, rfl, hanswered⟩
      · exact hold hprefix

theorem status_reports_last_switch (p : SimpleRoutingProtocol κ) (actions : List (Action γ ι)) :
    let s := (boot p : CommandServer γ ι κ).run actions
    (∀ before c response, before ++ [.client c .status response] <+: s.log →
      response = statusResponse p.router.id (lastSwitch before)) ∧
    (s.daemon.control = .idle → s.daemon.isRunning = lastSwitch s.log) := by
  have hsane := (Sane.boot p : Sane p.router.id (boot p : CommandServer γ ι κ)).run actions
  exact ⟨hsane.statuses, hsane.idle⟩

end Invariant

section Sessions

variable {γ ι κ : Type} [DecidableEq γ] [DecidableEq ι] [IpNetwork] [NetRoute κ] [ControlJson]

/-- In whatever pieces its bytes arrive and whatever the others do, a client gets one line for each command, in order.
What it is told was carried out stands in the log of the lock, and tells what was so when it was carried out. -/
theorem sessions_answered (p : SimpleRoutingProtocol κ) (actions : List (Action γ ι)) (c : γ) :
    let s := (boot p : CommandServer γ ι κ).run actions
    (∃ read answered pending, Transcript p.router.id (s.clients c) read answered pending ∧
      Lines.lines '\n' (s.clients c).sent = (answered.map (fun a => responseLine a.2), []) ∧
      Waits (s.clients c) pending ∧ EndsFor (s.clients c) read ∧ Logged (s.clients c) answered (executedBy c s.log)) ∧
    ∀ before command response, before ++ [.client c command response] <+: s.log →
      ∃ earlier a, earlier ++ [a] <+: actions ∧ ((boot p : CommandServer γ ι κ).run earlier).log = before ∧
        AnsweredAt ((boot p).run earlier) a c command response := by
  have hsane := (Sane.boot p : Sane p.router.id (boot p : CommandServer γ ι κ)).run actions
  refine ⟨?_, fun before command response => answered_of_log p actions⟩
  obtain ⟨read, answered, pending, ht, hwaits, hends, hlogged⟩ := hsane.served c
  refine ⟨read, answered, pending, ht, ?_, hwaits, hends, hlogged⟩
  rw [ht.sent]
  apply Lines.lines_flatten
  intro line hline
  obtain ⟨a, -, rfl⟩ := List.mem_map.mp hline
  exact responseLine_line a.2

end Sessions

-- a stop in two pieces, and a status that waits for it
example : ((((boot Observed.lan.protocol : CommandServer Bool Unit (Finset SystemRoute)).run
    [.mainAcquire, .startTasks (), .arrive true "\x7b\"command\":\"st".toUTF8.data.toList, .read true,
      .arrive true "op\"\x7d\n".toUTF8.data.toList, .read true,
      .arrive false "  \x7b\"command\":\"status\"\x7d\r\n\n".toUTF8.data.toList, .read false, .acquire true 0,
      .acquire false 0, .stopReturn, .acquire false 0, .read false]).clients false).sent) =
    ("\x7b\"success\":true,\"message\":\"Status retrieved\"," ++
      "\"data\":\x7b\"is_running\":false,\"router_id\":\"A\"\x7d\x7d\n").toList := by
  decide +kernel

end CommandServer

end CustomOspf
