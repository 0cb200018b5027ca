import CustomOspf.Cancellation

/-!
The start and the stop of the protocol, with the tasks that write what it knows:
the cleanup task, whose handle a stop aborts, and the listen loops, which the
listen task spawns and whose handles nobody keeps.
-/

namespace CustomOspf

open SimpleRoutingProtocol

/-- Where the loop of a socket stands: it waits for a datagram, or runs a handler past the check of `is_running`. -/
inductive LoopPhase where
  | waiting
  | hello (message : HelloMessage) (addr : SocketAddr)
  | update (phase : ListenPhase)
  | ended

inductive Received where
  | hello (message : HelloMessage)
  | update (message : RoutingUpdate)
  -- a neighbour request or response, or text that is no message
  | other

inductive LoopAction where
  | receive (message : Received) (addr : SocketAddr)
  | handle (now : Instant)
  -- the broadcast reached it, or a handler panicked
  | endLoop

inductive CleanerPhase where
  | waiting
  | passing (now : Instant) (point : PassPoint)
  | ended

inductive ListenTask where
  | spawned
  -- it waits for its loops
  | joining
  | ended

/-- The tasks of one start. An abort takes effect when they are next suspended. -/
structure Generation where
  cleaner : CleanerPhase
  listenTask : ListenTask
  aborted : Bool

inductive TaskAction where
  | tick (now : Instant)
  | resume
  | endCleaner
  | cancelCleaner (executed : Bool)
  | endListen
  | cancelListen

inductive Control where
  | idle
  | starting
  | stopping

structure Daemon (ι κ : Type) where
  shared : SimpleRoutingProtocol κ
  isRunning : Bool
  -- commands are serialised by the control server's mutex
  control : Control
  taskHandles : List ι
  generations : ι → Generation
  loops : ι → LoopPhase

inductive Daemon.Action (ι : Type) where
  | startBegin
  | startTasks (i : ι)
  | stopBegin
  | stopReturn
  | spawnLoop (i j : ι)
  | tasks (i : ι) (a : TaskAction)
  | loop (j : ι) (a : LoopAction)

def LoopPhase.Handling : LoopPhase → Prop
  | .hello _ _ => True
  | .update _ => True
  | _ => False

def Generation.Ended (g : Generation) : Prop := g.cleaner = .ended ∧ g.listenTask = .ended

section Steps

variable {ι κ : Type} [DecidableEq ι] [IpNetwork] [NetRoute κ]

def LoopPhase.next : ListenPhase → LoopPhase
  | .idle => .waiting
  | phase => .update phase

def LoopPhase.act (isRunning : Bool) (a : LoopAction) (phase : LoopPhase) (p : SimpleRoutingProtocol κ) :
    LoopPhase × SimpleRoutingProtocol κ :=
  match phase, a with
  | .waiting, .receive message addr =>
    if !isRunning then (.ended, p)
    else match message with
    | .hello message => (.hello message addr, p)
    | .update message => (if message.routerId = p.router.id then .waiting else .update (.touching message addr), p)
    | .other => (.waiting, p)
  | .hello message addr, .handle now => (.waiting, (handleHelloMessageStatic message addr now p).1)
  | .update phase, .handle now =>
    let (phase, p) := listen now phase p
    (LoopPhase.next phase, p)
  | _, .endLoop => (.ended, p)
  | phase, _ => (phase, p)

def Generation.act (isRunning : Bool) (a : TaskAction) (g : Generation) (p : SimpleRoutingProtocol κ) :
    Generation × SimpleRoutingProtocol κ :=
  match a with
  | .tick now =>
    match g.cleaner with
    | .waiting => ({ g with cleaner := if !isRunning then .ended else .passing now .scanning }, p)
    | _ => (g, p)
  | .resume =>
    match g.cleaner with
    | .passing now point =>
      match PassPoint.resume now point p with
      | (.finished, p) => ({ g with cleaner := .waiting }, p)
      | (point, p) => ({ g with cleaner := .passing now point }, p)
    | _ => (g, p)
  | .endCleaner =>
    match g.cleaner with
    | .waiting => ({ g with cleaner := .ended }, p)
    | _ => (g, p)
  | .cancelCleaner executed =>
    if g.aborted then
      match g.cleaner with
      | .passing _ point => ({ g with cleaner := .ended }, PassPoint.abandon executed (point, p))
      | _ => ({ g with cleaner := .ended }, p)
    else (g, p)
  | .endListen =>
    match g.listenTask with
    | .joining => ({ g with listenTask := .ended }, p)
    | _ => (g, p)
  | .cancelListen => if g.aborted then ({ g with listenTask := .ended }, p) else (g, p)

namespace Daemon

def abortAll (handles : List ι) (generations : ι → Generation) (i : ι) : Generation :=
  if i ∈ handles then { generations i with aborted := true } else generations i

def step (d : Daemon ι κ) : Action ι → Daemon ι κ
  | .startBegin =>
    match d.control with
    | .idle => if d.isRunning then d else { d with isRunning := true, control := .starting }
    | _ => d
  | .startTasks i =>
    match d.control, (d.generations i).cleaner, (d.generations i).listenTask with
    | .starting, .ended, .ended =>
      { d with
        control := .idle, taskHandles := [i]
        generations := Function.update (abortAll d.taskHandles d.generations) i ⟨.waiting, .spawned, false⟩ }
    | _, _, _ => d
  | .stopBegin =>
    match d.control with
    | .idle => if d.isRunning then { d with isRunning := false, control := .stopping } else d
    | _ => d
  | .stopReturn =>
    match d.control with
    | .stopping =>
      { d with control := .idle, taskHandles := [], generations := abortAll d.taskHandles d.generations }
    | _ => d
  | .spawnLoop i j =>
    match (d.generations i).listenTask, d.loops j with
    | .spawned, .ended =>
      { d with
        generations := Function.update d.generations i { d.generations i with listenTask := .joining }
        loops := Function.update d.loops j .waiting }
    | _, _ => d
  | .tasks i a =>
    let (g, p) := (d.generations i).act d.isRunning a d.shared
    { d with shared := p, generations := Function.update d.generations i g }
  | .loop j a =>
    let (phase, p) := (d.loops j).act d.isRunning a d.shared
    { d with shared := p, loops := Function.update d.loops j phase }

def run (d : Daemon ι κ) (as : List (Action ι)) : Daemon ι κ := as.foldl step d

def boot (p : SimpleRoutingProtocol κ) : Daemon ι κ :=
  ⟨p, false, .idle, [], fun _ => ⟨.ended, .ended, false⟩, fun _ => .ended⟩

inductive Reachable (C : Daemon ι κ → Action ι → Prop) : Daemon ι κ → Prop where
  | boot {routerId : String} {hosts hostsAtTable : List NetworkInterface} {names : List String} {port : UInt16}
      {handle : κ} {p : SimpleRoutingProtocol κ}
      (h : SimpleRoutingProtocol.new routerId hosts hostsAtTable names port handle = .ok p) : Reachable C (boot p)
  | step {d : Daemon ι κ} (a : Action ι) (ha : C d a) (h : Reachable C d) : Reachable C (d.step a)

/-- A stop has returned, or nothing was ever started, and what was aborted has come to its end. -/
structure Quiescent (d : Daemon ι κ) : Prop where
  control : d.control = .idle
  stopped : d.isRunning = false
  aborted : ∀ i, (d.generations i).aborted = true → (d.generations i).Ended

def NoneInHand (d : Daemon ι κ) : Prop := ∀ j, ¬ (d.loops j).Handling

def EndsClear (d : Daemon ι κ) (a : Action ι) : Prop := ¬ Quiescent d → Quiescent (d.step a) → NoneInHand d

structure Tracked (d : Daemon ι κ) : Prop where
  handles : ∀ i, (d.generations i).aborted = false → i ∉ d.taskHandles → (d.generations i).Ended
  starting : d.control = .starting → d.isRunning = true
  drained : d.control = .idle → d.isRunning = false → d.taskHandles = []

end Daemon

/-! What ended stays ended, and a loop that handles nothing gets nothing to handle once the flag is down. -/

theorem Generation.act_ended {g : Generation} (h : g.Ended) (isRunning : Bool) (a : TaskAction)
    (p : SimpleRoutingProtocol κ) : g.act isRunning a p = (g, p) := by
  obtain ⟨cleaner, listenTask, aborted⟩ := g
  obtain ⟨rfl, rfl⟩ := h
  cases a with
  | cancelCleaner executed => cases aborted <;> rfl
  | cancelListen => cases aborted <;> rfl
  | _ => rfl

theorem Generation.act_aborted (g : Generation) (isRunning : Bool) (a : TaskAction) (p : SimpleRoutingProtocol κ) :
    (g.act isRunning a p).1.aborted = g.aborted := by
  obtain ⟨cleaner, listenTask, aborted⟩ := g
  cases a with
  | tick now => cases cleaner <;> rfl
  | resume =>
    cases cleaner with
    | passing now point =>
      simp only [Generation.act]
      split <;> rfl
    | _ => rfl
  | endCleaner => cases cleaner <;> rfl
  | cancelCleaner executed => cases aborted <;> cases cleaner <;> rfl
  | endListen => cases listenTask <;> rfl
  | cancelListen => cases aborted <;> rfl

theorem LoopPhase.act_stopped {phase : LoopPhase} (h : ¬ phase.Handling) (a : LoopAction)
    (p : SimpleRoutingProtocol κ) : (phase.act false a p).2 = p ∧ ¬ (phase.act false a p).1.Handling := by
  cases phase with
  | hello message addr => exact absurd trivial h
  | update phase => exact absurd trivial h
  | waiting => cases a <;> exact ⟨rfl, id⟩
  | ended => cases a <;> exact ⟨rfl, id⟩

namespace Daemon

omit [IpNetwork] in
theorem abortAll_of_notMem {handles : List ι} {i : ι} (h : i ∉ handles) (generations : ι → Generation) :
    abortAll handles generations i = generations i := if_neg h

omit [IpNetwork] in
theorem abortAll_aborted {handles : List ι} {i : ι} {generations : ι → Generation}
    (h : (abortAll handles generations i).aborted = false) : i ∉ handles := by
  intro hi
  rw [abortAll, if_pos hi] at h
  cases h

theorem Tracked.tasks {d : Daemon ι κ} (h : Tracked d) (i : ι) (a : TaskAction) : Tracked (d.step (.tasks i a)) := by
  refine ⟨?_, h.starting, h.drained⟩
  intro k haborted hk
  by_cases hki : k = i
  · subst hki
    simp only [Daemon.step, Function.update_self, Generation.act_aborted] at haborted ⊢
    have hended := h.handles k haborted hk
    rw [Generation.act_ended hended]
    exact hended
  · simp only [Daemon.step, Function.update_of_ne hki] at haborted ⊢
    exact h.handles k haborted hk

theorem Tracked.spawnLoop {d : Daemon ι κ} (h : Tracked d) (i j : ι) : Tracked (d.step (.spawnLoop i j)) := by
  simp only [Daemon.step]
  split
  · next hspawned hended =>
    refine ⟨?_, h.starting, h.drained⟩
    intro k haborted hk
    by_cases hki : k = i
    · subst hki
      simp only [Function.update_self] at haborted
      -- a listen task that is yet to spawn its loop has not ended
      have hover := (h.handles k haborted hk).2
      rw [hspawned] at hover
      cases hover
    · simp only [Function.update_of_ne hki] at haborted ⊢
      exact h.handles k haborted hk
  · exact h

theorem Tracked.startTasks {d : Daemon ι κ} (h : Tracked d) (i : ι) : Tracked (d.step (.startTasks i)) := by
  simp only [Daemon.step]
  split
  · next hcontrol _ _ =>
    have hup := h.starting hcontrol
    refine ⟨?_, fun _ => hup, ?_⟩
    · intro k haborted hk
      have hki : k ≠ i := by simpa using hk
      simp only [Function.update_of_ne hki] at haborted ⊢
      have hold := abortAll_aborted haborted
      rw [abortAll_of_notMem hold] at haborted ⊢
      exact h.handles k haborted hold
    · intro _ hdown
      simp [hup] at hdown
  · exact h

theorem Tracked.stopReturn {d : Daemon ι κ} (h : Tracked d) : Tracked (d.step .stopReturn) := by
  simp only [Daemon.step]
  split
  · refine ⟨?_, fun hc => (by cases hc), fun _ _ => rfl⟩
    intro k haborted _
    have hold := abortAll_aborted haborted
    simp only [abortAll_of_notMem hold] at haborted ⊢
    exact h.handles k haborted hold
  · exact h

theorem Tracked.step {d : Daemon ι κ} (h : Tracked d) (a : Action ι) : Tracked (d.step a) := by
  cases a with
  | startBegin =>
    simp only [Daemon.step]
    split
    · split
      · exact h
      · exact ⟨h.handles, fun _ => rfl, fun hc => (by cases hc)⟩
    · exact h
  | startTasks i => exact h.startTasks i
  | stopBegin =>
    simp only [Daemon.step]
    split
    · split
      · exact ⟨h.handles, fun hc => (by cases hc), fun hc => (by cases hc)⟩
      · exact h
    · exact h
  | stopReturn => exact h.stopReturn
  | spawnLoop i j => exact h.spawnLoop i j
  | tasks i a => exact h.tasks i a
  | loop j a => exact ⟨h.handles, h.starting, h.drained⟩

theorem Reachable.tracked {C : Daemon ι κ → Action ι → Prop} {d : Daemon ι κ} (h : Reachable C d) : Tracked d := by
  induction h with
  | boot h => exact ⟨fun _ _ _ => ⟨rfl, rfl⟩, fun hc => (by cases hc), fun _ _ => rfl⟩
  | step a _ _ ih => exact ih.step a

theorem NoneInHand.step {d : Daemon ι κ} (h : NoneInHand d) {a : Action ι} (hstopped : (d.step a).isRunning = false) :
    NoneInHand (d.step a) := by
  cases a with
  | spawnLoop i j =>
    simp only [Daemon.step]
    split
    · intro k
      by_cases hkj : k = j
      · subst hkj
        simp [LoopPhase.Handling]
      · simpa [Function.update_of_ne hkj] using h k
    · exact h
  | loop j a =>
    have hflag : d.isRunning = false := hstopped
    intro k
    by_cases hk : k = j
    · subst hk
      simp only [Daemon.step, Function.update_self, hflag]
      exact (LoopPhase.act_stopped (h k) a d.shared).2
    · simp only [Daemon.step, Function.update_of_ne hk]
      exact h k
  | tasks i a => exact h
  | _ =>
    simp only [Daemon.step]
    split <;> first | exact h | (split <;> exact h)

omit [DecidableEq ι] [IpNetwork] [NetRoute κ] in
theorem Quiescent.ended {d : Daemon ι κ} (h : Quiescent d) (ht : Tracked d) (i : ι) : (d.generations i).Ended := by
  cases haborted : (d.generations i).aborted with
  | true => exact h.aborted i haborted
  | false =>
    apply ht.handles i haborted
    rw [ht.drained h.control h.stopped]
    exact List.not_mem_nil

theorem Quiescent.step {d : Daemon ι κ} (h : Quiescent d) (ht : Tracked d) {a : Action ι} (ha : a ≠ .startBegin) :
    Quiescent (d.step a) ∧ (NoneInHand d → (d.step a).shared = d.shared) := by
  have hended := h.ended ht
  have hsame (hd : d.step a = d) : Quiescent (d.step a) ∧ (NoneInHand d → (d.step a).shared = d.shared) := by
    rw [hd]
    exact ⟨h, fun _ => rfl⟩
  cases a with
  | startBegin => exact absurd rfl ha
  | startTasks i =>
    apply hsame
    simp only [Daemon.step, h.control]
  | stopBegin =>
    apply hsame
    simp only [Daemon.step, h.control, h.stopped, Bool.false_eq_true, if_false]
  | stopReturn =>
    apply hsame
    simp only [Daemon.step, h.control]
  | spawnLoop i j =>
    apply hsame
    simp only [Daemon.step, (hended i).2]
  | tasks i a =>
    apply hsame
    simp only [Daemon.step, Generation.act_ended (hended i), Function.update_eq_self]
  | loop j a =>
    have hflag := h.stopped
    refine ⟨⟨h.control, h.stopped, h.aborted⟩, ?_⟩
    intro hnone
    simp only [Daemon.step, hflag]
    exact (LoopPhase.act_stopped (hnone j) a d.shared).1

theorem Reachable.noneInHand {d : Daemon ι κ} (h : Reachable EndsClear d) (hq : Quiescent d) : NoneInHand d := by
  induction h with
  | boot h => exact fun _ => id
  | @step d a ha _ ih =>
    by_cases hd : Quiescent d
    · exact (ih hd).step hq.stopped
    · exact (ha hd hq).step hq.stopped

theorem stop_quiescent {d : Daemon ι κ} (h : Reachable EndsClear d) (hq : Quiescent d) {as : List (Action ι)}
    (has : ∀ a ∈ as, a ≠ .startBegin) :
    (d.run as).shared.neighbors = d.shared.neighbors ∧ (d.run as).shared.routeStates = d.shared.routeStates ∧
      (d.run as).shared.router = d.shared.router := by
  have hnone := h.noneInHand hq
  have ht := h.tracked
  suffices hrun : (d.run as).shared = d.shared by rw [hrun]; exact ⟨rfl, rfl, rfl⟩
  clear h
  induction as generalizing d with
  | nil => rfl
  | cons a as ih =>
    obtain ⟨hq', hshared⟩ := hq.step ht (has a List.mem_cons_self)
    have hrest := ih hq' (fun a' ha' => has a' (List.mem_cons_of_mem a ha')) (hnone.step hq'.stopped) (ht.step a)
    exact hrest.trans (hshared hnone)

end Daemon

end Steps

/-! One socket on the LAN, with a datagram of "B" that arrives before the stop. -/

namespace Daemon

theorem step_isRunning {d : Daemon Unit (Finset SystemRoute)} (h : d.isRunning = true) {a : Action Unit}
    (ha : a ≠ .stopBegin) : (d.step a).isRunning = true := by
  cases a with
  | stopBegin => exact absurd rfl ha
  | tasks i a => exact h
  | loop j a => exact h
  | _ =>
    simp only [Daemon.step]
    split <;> first | exact h | (split <;> exact h)

theorem Reachable.running {d : Daemon Unit (Finset SystemRoute)} (h : Reachable EndsClear d)
    (hrunning : d.isRunning = true) {as : List (Action Unit)} (has : ∀ a ∈ as, a ≠ .stopBegin) :
    Reachable EndsClear (d.run as) := by
  induction as generalizing d with
  | nil => exact h
  | cons a as ih =>
    have hstep := step_isRunning hrunning (has a List.mem_cons_self)
    refine ih (h.step a ?_) hstep (fun a' ha' => has a' (List.mem_cons_of_mem a ha'))
    intro _ hq
    rw [hq.stopped] at hstep
    cases hstep

def launch : List (Action Unit) := [.startBegin, .startTasks (), .spawnLoop () ()]

def receive (message : Received) : Action Unit := .loop () (.receive message (Observed.lanPeer 2))

def handle (n : ℕ) : List (Action Unit) := List.replicate n (.loop () (.handle 0))

def halt : List (Action Unit) := [.stopBegin, .stopReturn, .tasks () (.cancelCleaner false), .tasks () .cancelListen]

def advert : Received := .update ⟨"B", 1, [⟨"10.2.0.0/24", 0, "0.0.0.0"⟩]⟩

def lan (as : List (Action Unit)) : Daemon Unit (Finset SystemRoute) := (boot Observed.lan.protocol).run as

def settled : List (Action Unit) := launch ++ [receive (.hello ⟨"B", ∅⟩), .loop () (.handle 0)] ++ halt

theorem settled_reachable : Reachable EndsClear (lan settled) := by
  have hbegin : Reachable EndsClear (lan [.startBegin]) :=
    Reachable.step .startBegin (fun _ _ _ => id) (.boot Observed.lan_new)
  have hhandled : Reachable EndsClear ((lan [.startBegin]).run
      [.startTasks (), .spawnLoop () (), receive (.hello ⟨"B", ∅⟩), .loop () (.handle 0)]) := by
    apply hbegin.running rfl
    simp [receive]
  have hstop := Reachable.step .stopReturn (fun _ _ _ => id) (hhandled.step .stopBegin (fun _ _ _ => id))
  have hcancel := Reachable.step (.tasks () (.cancelCleaner false)) (fun _ _ _ => id) hstop
  exact hcancel.step (.tasks () .cancelListen) (fun _ _ _ => id)

theorem stop_quiescent_witness :
    let d := lan settled
    let later := d.run (receive advert :: handle 5)
    later.shared.neighbors = d.shared.neighbors ∧ later.shared.routeStates = d.shared.routeStates ∧
      later.shared.router = d.shared.router := by
  apply stop_quiescent settled_reachable ⟨rfl, rfl, fun _ _ => ⟨rfl, rfl⟩⟩
  simp [receive, handle]

/-- The UPDATE is in hand when the stop returns, and is processed to its end. -/
theorem stop_quiescent_fails :
    ¬ ∀ d : Daemon Unit (Finset SystemRoute), Reachable (fun _ _ => True) d → Quiescent d →
      ∀ as : List (Action Unit), (∀ a ∈ as, a ≠ .startBegin) →
        (d.run as).shared.neighbors = d.shared.neighbors ∧ (d.run as).shared.routeStates = d.shared.routeStates ∧
          (d.run as).shared.router = d.shared.router := by
  intro h
  have hreach (as : List (Action Unit)) {d : Daemon Unit (Finset SystemRoute)} (hd : Reachable (fun _ _ => True) d) :
      Reachable (fun _ _ => True) (d.run as) := by
    induction as generalizing d with
    | nil => exact hd
    | cons a as ih => exact ih (hd.step a trivial)
  obtain ⟨-, -, hrouter⟩ := h (lan (launch ++ receive advert :: halt)) (hreach _ (.boot Observed.lan_new))
    ⟨rfl, rfl, fun _ _ => ⟨rfl, rfl⟩⟩ (handle 5) (by simp [handle])
  have hlater : ((lan (launch ++ receive advert :: halt)).run (handle 5)).shared.router.routingTable.routes.length = 2 := by
    decide +kernel
  have hbefore : (lan (launch ++ receive advert :: halt)).shared.router.routingTable.routes.length = 1 := by
    decide +kernel
  rw [hrouter, hbefore] at hlater
  cases hlater

end Daemon

end CustomOspf
