import CustomOspf.Library.LockOrder

/-!
The mutexes each task of the program takes, in the order and the scopes of its
code, from the initialisation of the protocol on.
-/

namespace CustomOspf

open LockOrder LockOrder.Prog

inductive Mutex where
  | protocol
  | router
  | neighbors
  | routeStates
  | sequence
  | shutdownTx
  | taskHandles
  | pendingNeighborRequests
deriving DecidableEq

structure Flags where
  -- the control server's `Option` is `Some`
  initialised : Bool
  isRunning : Bool
  -- the sender in `shutdown_tx` is `Some`
  shutdown : Bool
deriving DecidableEq

namespace Locks

abbrev Program := Prog Mutex Flags

def sendHelloMessages : Program := .seq (guarded .router) (maybe (guarded .router))

def helloTask : Program := .loop (.test (fun f => f.isRunning) sendHelloMessages .skip)

def sendRoutingUpdates : Program :=
  .seq (guarded .sequence) (.seq (guarded .router) (maybe (guarded .router)))

def updateTask : Program := .loop (.test (fun f => f.isRunning) sendRoutingUpdates .skip)

def removeRoutesViaNexthop : Program := .lock .router (guarded .routeStates)

def purgeDeadNeighbor : Program := .seq (guarded .neighbors) (maybe (guarded .router))

def performCleanup : Program :=
  .seq (guarded .neighbors) (.seq (guarded .routeStates) (.seq
    (maybe (.seq (guarded .routeStates) (maybe removeRoutesViaNexthop))) (.loop purgeDeadNeighbor)))

def cleanupTask : Program := .loop (.test (fun f => f.isRunning) performCleanup .skip)

def cleanupExpiredRequests : Program :=
  .seq (guarded .pendingNeighborRequests) (maybe (guarded .pendingNeighborRequests))

def cleanupPendingRequestsTask : Program := .loop (.test (fun f => f.isRunning) cleanupExpiredRequests .skip)

def printDebugStatus : Program := .seq (guarded .neighbors) (guarded .router)

def debugTask : Program := .loop (.test (fun f => f.isRunning) printDebugStatus .skip)

/-! The listen loop of a socket. Text that does not decode takes no mutex. -/

def processRoutingUpdate : Program :=
  maybe (.seq (guarded .router) (.seq (.loop (maybe (guarded .router)))
    (.seq (guarded .routeStates) (maybe (guarded .router)))))

def handleHelloMessage : Program := maybe (.seq (guarded .router) (maybe (guarded .neighbors)))

def handleUpdateMessage : Program :=
  maybe (.seq (guarded .router) (maybe (.seq (guarded .neighbors) processRoutingUpdate)))

def handleNeighborRequest : Program := maybe (.seq (guarded .router) (maybe (guarded .neighbors)))

def handleNeighborResponse : Program := maybe (guarded .pendingNeighborRequests)

def socketListenLoop : Program :=
  .loop (.test (fun f => f.isRunning)
    (oneOf [handleHelloMessage, handleUpdateMessage, handleNeighborRequest, handleNeighborResponse]) .skip)

/-! The commands of the control server, each under the guard of the protocol. -/

def startTasks : Program :=
  .seq (.test (fun f => f.isRunning) .skip (.write (fun f => { f with isRunning := true })))
    (.lock .taskHandles
      (.lock .shutdownTx (.test (fun f => f.shutdown) .skip
        -- a new channel is stored while the guard that was tested is held
        (.lock .shutdownTx (.write (fun f => { f with shutdown := true }))))))

def startProtocol : Program :=
  .test (fun f => f.isRunning) .skip
    (.seq (.write (fun f => { f with isRunning := true }))
      (.seq (.lock .shutdownTx (.write (fun f => { f with shutdown := true }))) startTasks))

def stopProtocol : Program :=
  .test (fun f => f.isRunning)
    (.seq (.write (fun f => { f with isRunning := false })) (.seq (guarded .shutdownTx) (guarded .taskHandles)))
    .skip

def getStatus : Program := guarded .router

def getNeighborsList : Program := guarded .neighbors

def sendNeighborRequest : Program := maybe (guarded .router)

def requestNeighborsFromRouter : Program :=
  .seq (guarded .router) (.seq (guarded .pendingNeighborRequests)
    (.seq sendNeighborRequest (maybe (guarded .pendingNeighborRequests))))

def getNeighborsOf : Program := .seq (guarded .router) (.choice getNeighborsList requestNeighborsFromRouter)

def getRoutingTable : Program := guarded .router

def command (body : Program) : Program := .lock .protocol (.test (fun f => f.initialised) body .skip)

def processCommand : Program :=
  oneOf [command getStatus, command getNeighborsList, maybe (command getNeighborsOf), command startProtocol,
    command stopProtocol, command getRoutingTable]

def handleClient : Program := .loop processCommand

def setProtocol : Program := .lock .protocol (.write (fun f => { f with initialised := true }))

def main : Program := .seq setProtocol (command startProtocol)

/-- `listen_task` spawns the listen loops and waits for them without a mutex. -/
def listenTask : Program := .skip

def tasks : List Program :=
  [main, handleClient, helloTask, updateTask, listenTask, socketListenLoop, cleanupTask,
    cleanupPendingRequestsTask, debugTask]

def initial : Flags := ⟨false, false, false⟩

/-! One order of the mutexes that every task keeps. -/

def rank : Mutex → ℕ
  | .protocol => 0
  | .taskHandles => 1
  | .shutdownTx => 2
  | .router => 3
  | .routeStates => 4
  | .neighbors => 5
  | .sequence => 5
  | .pendingNeighborRequests => 5

/-- `start_protocol` stores the sender before `start_tasks` tests it, and nothing takes it out again. -/
def HasSender (f : Flags) : Prop := f.shutdown = true

variable {known : Prop}

theorem periodic_disciplined {body : Program} (h : Disciplined rank HasSender 0 known body) :
    Disciplined rank HasSender 0 known (.loop (.test (fun f => f.isRunning) body .skip)) := ⟨h, Or.inr trivial⟩

theorem performCleanup_disciplined : Disciplined rank HasSender 0 known performCleanup := by
  simp [performCleanup, removeRoutesViaNexthop, purgeDeadNeighbor, Disciplined, rank]

theorem handlers_disciplined : ∀ p ∈ [handleHelloMessage, handleUpdateMessage, handleNeighborRequest,
    handleNeighborResponse], Disciplined rank HasSender 0 known p := by
  simp [handleHelloMessage, handleUpdateMessage, handleNeighborRequest, handleNeighborResponse, processRoutingUpdate,
    Disciplined, rank]

theorem command_disciplined {body : Program} (h : Disciplined rank HasSender 1 known body) :
    Disciplined rank HasSender 0 known (command body) := ⟨Nat.zero_le _, h, Or.inr trivial⟩

theorem setRunning_disciplined {b : ℕ} (running : Bool) :
    Disciplined rank HasSender b known (.write (fun f => { f with isRunning := running })) := fun _ h => h

theorem startTasks_disciplined (h : known) : Disciplined rank HasSender 1 known startTasks := by
  have hsender : after HasSender known
      (.test (fun f => f.isRunning) .skip (.write (fun f => { f with isRunning := true })) : Program) :=
    after_of_known h _
  refine ⟨⟨trivial, Or.inr (setRunning_disciplined true)⟩, Nat.le_refl _, Nat.le_refl _, trivial, Or.inl ⟨hsender, ?_⟩⟩
  intro f hf
  exact hf

theorem startProtocol_disciplined : Disciplined rank HasSender 1 known startProtocol := by
  refine ⟨trivial, Or.inr ⟨setRunning_disciplined true, ⟨by decide, ?_⟩, startTasks_disciplined ?_⟩⟩
  · intro f _
    rfl
  · exact Or.inr (fun _ => rfl)

theorem stopProtocol_disciplined : Disciplined rank HasSender 1 known stopProtocol := by
  refine ⟨⟨setRunning_disciplined false, ?_⟩, Or.inr trivial⟩
  simp [Disciplined, rank]

theorem getNeighborsOf_disciplined : Disciplined rank HasSender 1 known getNeighborsOf := by
  simp [getNeighborsOf, getNeighborsList, requestNeighborsFromRouter, sendNeighborRequest, Disciplined, rank]

theorem processCommand_disciplined : Disciplined rank HasSender 0 known processCommand := by
  rw [processCommand, disciplined_oneOf]
  intro p hp
  simp only [List.mem_cons, List.not_mem_nil, or_false] at hp
  rcases hp with rfl | rfl | rfl | rfl | rfl | rfl
  · exact command_disciplined (disciplined_guarded.mpr (by decide))
  · exact command_disciplined (disciplined_guarded.mpr (by decide))
  · exact disciplined_maybe.mpr (command_disciplined getNeighborsOf_disciplined)
  · exact command_disciplined startProtocol_disciplined
  · exact command_disciplined stopProtocol_disciplined
  · exact command_disciplined (disciplined_guarded.mpr (by decide))

theorem tasks_disciplined : ∀ p ∈ tasks, Disciplined rank HasSender 0 False p := by
  intro p hp
  simp only [tasks, List.mem_cons, List.not_mem_nil, or_false] at hp
  rcases hp with rfl | rfl | rfl | rfl | rfl | rfl | rfl | rfl | rfl
  · exact ⟨⟨Nat.zero_le _, fun _ h => h⟩, command_disciplined startProtocol_disciplined⟩
  · exact processCommand_disciplined
  · exact periodic_disciplined (by simp [sendHelloMessages, Disciplined, rank])
  · exact periodic_disciplined (by simp [sendRoutingUpdates, Disciplined, rank])
  · trivial
  · exact periodic_disciplined (disciplined_oneOf.mpr handlers_disciplined)
  · exact periodic_disciplined performCleanup_disciplined
  · exact periodic_disciplined (by simp [cleanupExpiredRequests, Disciplined, rank])
  · exact periodic_disciplined (by simp [printDebugStatus, Disciplined, rank])

theorem no_deadlock {ι : Type} [DecidableEq ι] {s : System ι Mutex Flags} (h : System.Reachable tasks initial s) (i : ι) :
    ¬ Relation.TransGen s.WaitsFor i i ∧ ∀ l, s.Waits i l → ¬ s.Holds i l := by
  have hd := System.Reachable.disciplined tasks_disciplined h
  refine ⟨hd.acyclic i, ?_⟩
  intro l hw hh
  exact absurd (hd.held_lt hw hh) (Nat.lt_irrefl _)

/-! The main task initialises the protocol while a client asks for its status. -/

def initialising : System ℕ Mutex Flags :=
  ((System.put ⟨fun _ => [], initial⟩ 0 [.run main] initial).put 0
    [.run setProtocol, .run (command startProtocol)] initial).put 0
    [.run (.write (fun f => { f with initialised := true })), .release .protocol, .run (command startProtocol)] initial

def contended : System ℕ Mutex Flags :=
  ((initialising.put 1 [.run handleClient] initial).put 1 [.run processCommand, .run handleClient] initial).put 1
    [.run (command getStatus), .run handleClient] initial

theorem contended_reachable : System.Reachable tasks initial contended := by
  have hmain : System.Reachable tasks initial (System.put ⟨fun _ => [], initial⟩ (0 : ℕ) [.run main] initial) :=
    System.Reachable.initial.step (.start List.mem_cons_self rfl)
  have hinitialising : System.Reachable tasks initial initialising := by
    refine (hmain.step (.move .seq)).step (.acquire rfl ?_)
    rintro j hj
    by_cases h0 : j = 0 <;> simp [System.Holds, System.put, h0] at hj
  have hclient := hinitialising.step (.start (i := 1) (List.mem_cons_of_mem _ List.mem_cons_self) rfl)
  exact (hclient.step (.move .again)).step (.move .left)

theorem no_deadlock_witness :
    ¬ Relation.TransGen contended.WaitsFor 1 1 ∧ ∀ l, contended.Waits 1 l → ¬ contended.Holds 1 l :=
  no_deadlock contended_reachable 1

end Locks

end CustomOspf
