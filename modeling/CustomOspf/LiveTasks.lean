import CustomOspf.ControlOrder

/-!
The tasks of the starts that the clients and `main` make, of which at most one
start's are running. The loops that a listen task spawns are detached: no handle
reaches them, and they are not counted here.
-/

namespace CustomOspf.CommandServer

section Generations

variable {γ ι κ : Type} [DecidableEq γ] [DecidableEq ι] [IpNetwork] [NetRoute κ]

/-- The cleanup task or the listen task of the start is neither aborted nor ended. -/
def Live (d : Daemon ι κ) (i : ι) : Prop := (d.generations i).aborted = false ∧ ¬ (d.generations i).Ended

structure Lone (d : Daemon ι κ) : Prop where
  tracked : d.Tracked
  handles : d.taskHandles.length ≤ 1

theorem Lone.step {d : Daemon ι κ} (h : Lone d) (a : Daemon.Action ι) : Lone (d.step a) := by
  refine ⟨h.tracked.step a, ?_⟩
  have hhandles := h.handles
  cases a with
  | tasks | loop => exact hhandles
  | startTasks i =>
    simp only [Daemon.step]
    split
    · exact le_refl _
    · exact hhandles
  | stopReturn =>
    simp only [Daemon.step]
    split
    · exact Nat.zero_le _
    · exact hhandles
  | startBegin | stopBegin | spawnLoop =>
    simp only [Daemon.step]
    split
    · first | exact hhandles | (split <;> exact hhandles)
    · exact hhandles

omit [IpNetwork] [NetRoute κ] in
theorem Lone.live {d : Daemon ι κ} (h : Lone d) {i j : ι} (hi : Live d i) (hj : Live d j) : i = j := by
  have hmem : ∀ k, Live d k → k ∈ d.taskHandles := by
    intro k hk
    by_contra hno
    exact hk.2 (h.tracked.handles k hk.1 hno)
  obtain ⟨k, hk⟩ := List.length_eq_one_iff.mp (le_antisymm h.handles (List.length_pos_of_mem (hmem i hi)))
  have hik := hmem i hi
  have hjk := hmem j hj
  rw [hk, List.mem_singleton] at hik hjk
  rw [hik, hjk]

variable [ControlJson]

omit [DecidableEq ι] [IpNetwork] [NetRoute κ] in
theorem finish_daemon (s : CommandServer γ ι κ) (response : ControlResponse) :
    (s.finish response).daemon = s.daemon := by
  unfold finish
  split
  · rfl
  · rfl
  · split <;> rfl

variable {s : CommandServer γ ι κ}

theorem Lone.startProtocol (h : Lone s.daemon) : Lone s.startProtocol.daemon := by
  unfold CommandServer.startProtocol
  split_ifs
  · rw [finish_daemon]
    exact h
  · exact h.step .startBegin

theorem Lone.stopProtocol (h : Lone s.daemon) : Lone s.stopProtocol.daemon := by
  unfold CommandServer.stopProtocol
  split_ifs
  · rw [finish_daemon]
    exact h
  · exact h.step .stopBegin

theorem Lone.serverStep (h : Lone s.daemon) (a : Action γ ι) : Lone (s.step a).daemon := by
  cases a with
  | arrive c bytes =>
    simp only [CommandServer.step]
    split <;> exact h
  | close | breakOff | read => exact h
  | acquire c now =>
    simp only [CommandServer.step, CommandServer.acquire]
    split
    · next trimmed command _ _ =>
      cases command with
      | status | neighbors | routingTable =>
        rw [CommandServer.execute, finish_daemon]
        exact h
      | neighborsOf => exact h
      | start => exact Lone.startProtocol h
      | stop => exact Lone.stopProtocol h
    · exact h
  | mainAcquire =>
    simp only [CommandServer.step, CommandServer.mainAcquire]
    split
    · exact Lone.startProtocol h
    · exact h
  | startTasks i =>
    simp only [CommandServer.step, CommandServer.startTasks]
    split
    · rw [finish_daemon]
      exact h.step (.startTasks i)
    · exact h
  | stopReturn =>
    simp only [CommandServer.step, CommandServer.stopReturn]
    split
    · rw [finish_daemon]
      exact h.step .stopReturn
    · exact h
  | answer neighbors =>
    simp only [CommandServer.step, CommandServer.answer]
    split
    · split
      · rw [finish_daemon]
        exact h
      · exact h
    · exact h
  | spawnLoop i j => exact h.step (.spawnLoop i j)
  | tasks i a => exact h.step (.tasks i a)
  | loop j a => exact h.step (.loop j a)

theorem Lone.serverRun (h : Lone s.daemon) (actions : List (Action γ ι)) : Lone (s.run actions).daemon := by
  induction actions generalizing s with
  | nil => exact h
  | cons a actions ih => exact ih (h.serverStep a)

/-- Of tasks with handles there is never more than one start's, and once a stop has been answered there are none until
the next start. -/
theorem one_live_generation (p : SimpleRoutingProtocol κ) (actions : List (Action γ ι)) :
    let s := (boot p : CommandServer γ ι κ).run actions
    (∀ i j, Live s.daemon i → Live s.daemon j → i = j) ∧
    (s.daemon.control = .idle → lastSwitch s.log = false → ∀ i, ¬ Live s.daemon i) := by
  have hboot : Lone (boot p : CommandServer γ ι κ).daemon :=
    ⟨⟨fun _ _ _ => ⟨rfl, rfl⟩, fun hc => (by cases hc), fun _ _ => rfl⟩, Nat.zero_le _⟩
  have hlone := hboot.serverRun actions
  have hsane := (Sane.boot p : Sane p.router.id (boot p : CommandServer γ ι κ)).run actions
  refine ⟨fun i j => hlone.live, ?_⟩
  intro hidle hstopped i hi
  have hdown := (hsane.idle hidle).trans hstopped
  apply hi.2
  apply hlone.tracked.handles i hi.1
  rw [hlone.tracked.drained hidle hdown]
  exact List.not_mem_nil

end Generations

end CustomOspf.CommandServer
