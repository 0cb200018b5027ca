import CustomOspf.ControlCommands

/-!
The sessions of the control server's clients, with the start that `main` makes
on its own and the tasks of the protocol beside them. A command under the lock
may have to wait inside it: a start for its tasks, a stop for its handles, and
`neighbors_of` for the other router.
-/

namespace CustomOspf

inductive Session where
  | reading
  | queued (trimmed : String) (command : Locked)
  | running (trimmed : String) (command : Locked)
  | ended

structure Client where
  received : List UInt8
  unread : List UInt8
  -- the end of the stream is what has been received
  closed : Bool
  -- nothing can be written any more
  broken : Bool
  session : Session
  sent : List Char

inductive MainPhase where
  | waiting
  | starting
  | done

/-- What was carried out under the lock, in the order of the lock. -/
inductive Executed (γ : Type) where
  | main
  | client (c : γ) (command : Locked) (response : ControlResponse)

structure CommandServer (γ ι κ : Type) where
  daemon : Daemon ι κ
  -- `none` is `main`
  holder : Option (Option γ)
  main : MainPhase
  clients : γ → Client
  log : List (Executed γ)

inductive CommandServer.Action (γ ι : Type) where
  | arrive (c : γ) (bytes : List UInt8)
  | close (c : γ)
  | breakOff (c : γ)
  | read (c : γ)
  | acquire (c : γ) (now : Instant)
  | mainAcquire
  -- of the holder of the lock
  | startTasks (i : ι)
  | stopReturn
  | answer (neighbors : Option (List ControlNeighborInfo))
  -- of the tasks
  | spawnLoop (i j : ι)
  | tasks (i : ι) (a : TaskAction)
  | loop (j : ι) (a : LoopAction)

def newline : UInt8 := 10

namespace Client

open CommandServer

variable [ControlJson]

def respond (client : Client) (response : ControlResponse) : Client :=
  if client.broken then { client with session := .ended }
  else { client with session := .reading, sent := client.sent ++ responseLine response }

def handleLine (client : Client) (line : List UInt8) : Client :=
  match lineContent line with
  | .undecodable => { client with session := .ended }
  | .blank => client
  | .command trimmed =>
    match dispatch trimmed with
    | .error response => client.respond response
    | .ok command => { client with session := .queued trimmed command }

/-- One turn of the loop of `handle_client`, as far as the lock. -/
def read (client : Client) : Client :=
  match client.session with
  | .reading =>
    match Lines.next newline client.unread with
    | some (line, rest) => { client with unread := rest }.handleLine line
    | none =>
      if client.broken then { client with session := .ended }
      else if !client.closed then client
      else if client.unread = [] then { client with session := .ended }
      else { client with unread := [] }.handleLine client.unread
  | _ => client

end Client

namespace CommandServer

section Model

variable {γ ι κ : Type} [DecidableEq γ] [DecidableEq ι] [IpNetwork] [NetRoute κ] [ControlJson]

def boot (p : SimpleRoutingProtocol κ) : CommandServer γ ι κ :=
  ⟨Daemon.boot p, none, .waiting, fun _ => ⟨[], [], false, false, .reading, []⟩, []⟩

def put (s : CommandServer γ ι κ) (c : γ) (client : Client) : CommandServer γ ι κ :=
  { s with clients := Function.update s.clients c client }

def finish (s : CommandServer γ ι κ) (response : ControlResponse) : CommandServer γ ι κ :=
  match s.holder with
  | none => s
  | some none => { s with holder := none, main := .done, log := s.log ++ [.main] }
  | some (some c) =>
    match (s.clients c).session with
    | .running _ command =>
      { s.put c ((s.clients c).respond response) with
        holder := none, log := s.log ++ [.client c command response] }
    | _ => s

def startProtocol (s : CommandServer γ ι κ) : CommandServer γ ι κ :=
  if s.daemon.isRunning then s.finish startResponse else { s with daemon := s.daemon.step .startBegin }

def stopProtocol (s : CommandServer γ ι κ) : CommandServer γ ι κ :=
  if !s.daemon.isRunning then s.finish stopResponse else { s with daemon := s.daemon.step .stopBegin }

def execute (s : CommandServer γ ι κ) (now : Instant) : Locked → CommandServer γ ι κ
  | .status => s.finish (getStatus (some s.daemon))
  | .neighbors => s.finish (getNeighbors now (some s.daemon))
  | .routingTable => s.finish (getRoutingTable (some s.daemon))
  | .neighborsOf _ => s
  | .start => s.startProtocol
  | .stop => s.stopProtocol

def acquire (s : CommandServer γ ι κ) (c : γ) (now : Instant) : CommandServer γ ι κ :=
  match (s.clients c).session, s.holder with
  | .queued trimmed command, none =>
    { s.put c { s.clients c with session := .running trimmed command } with holder := some (some c) }.execute now command
  | _, _ => s

def mainAcquire (s : CommandServer γ ι κ) : CommandServer γ ι κ :=
  match s.main, s.holder with
  | .waiting, none => { s with main := .starting, holder := some none }.startProtocol
  | _, _ => s

def startTasks (s : CommandServer γ ι κ) (i : ι) : CommandServer γ ι κ :=
  match s.daemon.control, (s.daemon.step (.startTasks i)).control with
  | .starting, .idle => { s with daemon := s.daemon.step (.startTasks i) }.finish startResponse
  | _, _ => s

def stopReturn (s : CommandServer γ ι κ) : CommandServer γ ι κ :=
  match s.daemon.control with
  | .stopping => { s with daemon := s.daemon.step .stopReturn }.finish stopResponse
  | _ => s

def answer (s : CommandServer γ ι κ) (neighbors : Option (List ControlNeighborInfo)) : CommandServer γ ι κ :=
  match s.holder with
  | some (some c) =>
    match (s.clients c).session with
    | .running _ (.neighborsOf routerId) => s.finish (neighborsOfResponse routerId neighbors)
    | _ => s
  | _ => s

def step (s : CommandServer γ ι κ) : Action γ ι → CommandServer γ ι κ
  | .arrive c bytes =>
    let client := s.clients c
    if client.closed then s
    else s.put c { client with received := client.received ++ bytes, unread := client.unread ++ bytes }
  | .close c => s.put c { s.clients c with closed := true }
  | .breakOff c => s.put c { s.clients c with broken := true }
  | .read c => s.put c (s.clients c).read
  | .acquire c now => s.acquire c now
  | .mainAcquire => s.mainAcquire
  | .startTasks i => s.startTasks i
  | .stopReturn => s.stopReturn
  | .answer neighbors => s.answer neighbors
  | .spawnLoop i j => { s with daemon := s.daemon.step (.spawnLoop i j) }
  | .tasks i a => { s with daemon := s.daemon.step (.tasks i a) }
  | .loop j a => { s with daemon := s.daemon.step (.loop j a) }

def run (s : CommandServer γ ι κ) (actions : List (Action γ ι)) : CommandServer γ ι κ := actions.foldl step s

end Model

/-- The responses to a command, for some state of the protocol. -/
def Answer (routerId : String) : Locked → ControlResponse → Prop
  | .status, response => ∃ isRunning, response = statusResponse routerId isRunning
  | .neighbors, response => ∃ neighbors, response = neighborsResponse neighbors
  | .neighborsOf target, response => ∃ neighbors, response = neighborsOfResponse target neighbors
  | .start, response => response = startResponse
  | .stop, response => response = stopResponse
  | .routingTable, response => ∃ rows, response = routingTableResponse rows

section Transcripts

variable [ControlJson] {routerId : String} {client : Client}

def Answers (routerId trimmed : String) (response : ControlResponse) : Prop :=
  match dispatch trimmed with
  | .error immediate => response = immediate
  | .ok command => Answer routerId command response

def texts (read : List (List UInt8)) : List String := read.filterMap (fun line => (lineContent line).text?)

structure Transcript (routerId : String) (client : Client) (read : List (List UInt8))
    (answered : List (String × ControlResponse)) (pending : List String) : Prop where
  reads : Lines.Reads newline client.received client.closed read client.unread
  commands : texts read = answered.map Prod.fst ++ pending
  sent : client.sent = (answered.map (fun a => responseLine a.2)).flatten
  answers : ∀ a ∈ answered, Answers routerId a.1 a.2

/-- The command in hand. A response that cannot be written ends the session. -/
def Waits (client : Client) (pending : List String) : Prop :=
  match client.session with
  | .reading => pending = []
  | .queued trimmed command => pending = [trimmed] ∧ dispatch trimmed = .ok command
  | .running trimmed command => pending = [trimmed] ∧ dispatch trimmed = .ok command
  | .ended => pending = [] ∨ (client.broken = true ∧ ∃ trimmed, pending = [trimmed])

def EndsFor (client : Client) (read : List (List UInt8)) : Prop :=
  client.session = .ended → client.broken = true ∨ (client.closed = true ∧ client.unread = []) ∨
    ∃ line ∈ read.getLast?, lineContent line = .undecodable

def underLock (answered : List (String × ControlResponse)) : List (Locked × ControlResponse) :=
  answered.filterMap (fun a =>
    match dispatch a.1 with
    | .ok command => some (command, a.2)
    | .error _ => none)

/-- Of what was carried out under the lock all but the last was answered, and the last unless the session broke off. -/
def Logged (client : Client) (answered : List (String × ControlResponse))
    (executed : List (Locked × ControlResponse)) : Prop :=
  executed = underLock answered ∨
    (client.broken = true ∧ client.session = .ended ∧ ∃ lost, executed = underLock answered ++ [lost])

def Served (routerId : String) (client : Client) (executed : List (Locked × ControlResponse)) : Prop :=
  ∃ read answered pending, Transcript routerId client read answered pending ∧ Waits client pending ∧
    EndsFor client read ∧ Logged client answered executed

omit [ControlJson] in
theorem texts_concat (read : List (List UInt8)) (line : List UInt8) :
    texts (read ++ [line]) = texts read ++ (lineContent line).text?.toList := by
  rw [texts, List.filterMap_append]
  cases h : (lineContent line).text? <;> simp [texts, h]

theorem underLock_concat (answered : List (String × ControlResponse)) (trimmed : String) (response : ControlResponse) :
    underLock (answered ++ [(trimmed, response)]) = underLock answered ++
      (dispatch trimmed).toOption.toList.map (fun command => (command, response)) := by
  rw [underLock, List.filterMap_append]
  cases h : dispatch trimmed <;> simp [underLock, h, Except.toOption]

variable {executed : List (Locked × ControlResponse)}

theorem Served.start : Served routerId ⟨[], [], false, false, .reading, []⟩ [] := by
  refine ⟨[], [], [], ⟨Lines.Reads.start newline false, rfl, rfl, ?_⟩, rfl, ?_, Or.inl rfl⟩
  · intro a ha
    cases ha
  · intro hended
    cases hended

theorem Served.arrive (h : Served routerId client executed) (hclosed : client.closed = false) (bytes : List UInt8) :
    Served routerId { client with received := client.received ++ bytes, unread := client.unread ++ bytes } executed := by
  obtain ⟨read, answered, pending, ⟨hreads, hcommands, hsent, hanswers⟩, hwaits, hends, hlogged⟩ := h
  refine ⟨read, answered, pending, ⟨?_, hcommands, hsent, hanswers⟩, hwaits, ?_, hlogged⟩
  · rw [hclosed] at hreads ⊢
    exact hreads.arrive bytes
  · intro hended
    rcases hends hended with hbroken | ⟨hover, -⟩ | hundecodable
    · exact Or.inl hbroken
    · rw [hclosed] at hover
      cases hover
    · exact Or.inr (Or.inr hundecodable)

theorem Served.close (h : Served routerId client executed) :
    Served routerId { client with closed := true } executed := by
  obtain ⟨read, answered, pending, ⟨hreads, hcommands, hsent, hanswers⟩, hwaits, hends, hlogged⟩ := h
  refine ⟨read, answered, pending, ⟨hreads.close, hcommands, hsent, hanswers⟩, hwaits, ?_, hlogged⟩
  intro hended
  rcases hends hended with hbroken | ⟨-, hunread⟩ | hundecodable
  · exact Or.inl hbroken
  · exact Or.inr (Or.inl ⟨rfl, hunread⟩)
  · exact Or.inr (Or.inr hundecodable)

theorem Served.breakOff (h : Served routerId client executed) :
    Served routerId { client with broken := true } executed := by
  obtain ⟨read, answered, pending, ⟨hreads, hcommands, hsent, hanswers⟩, hwaits, hends, hlogged⟩ := h
  refine ⟨read, answered, pending, ⟨hreads, hcommands, hsent, hanswers⟩, ?_, fun _ => Or.inl rfl,
    hlogged.imp_right (fun hlost => ⟨rfl, hlost.2⟩)⟩
  cases hs : client.session with
  | reading | queued | running =>
    simp only [Waits, hs] at hwaits ⊢
    exact hwaits
  | ended =>
    simp only [Waits, hs] at hwaits ⊢
    rcases hwaits with hnil | ⟨-, hlost⟩
    · exact Or.inl hnil
    · exact Or.inr ⟨trivial, hlost⟩

theorem Transcript.respond {read : List (List UInt8)} {answered : List (String × ControlResponse)} {trimmed : String}
    (h : Transcript routerId client read answered [trimmed]) {response : ControlResponse}
    (ha : Answers routerId trimmed response) :
    Served routerId (client.respond response) (underLock (answered ++ [(trimmed, response)])) := by
  unfold Client.respond
  split_ifs with hbroken
  · refine ⟨read, answered, [trimmed], ⟨h.reads, h.commands, h.sent, h.answers⟩, Or.inr ⟨hbroken, trimmed, rfl⟩,
      fun _ => Or.inl hbroken, ?_⟩
    rw [underLock_concat]
    cases dispatch trimmed with
    | error immediate => exact Or.inl (List.append_nil _)
    | ok command => exact Or.inr ⟨hbroken, rfl, _, rfl⟩
  · refine ⟨read, answered ++ [(trimmed, response)], [], ⟨h.reads, ?_, ?_, ?_⟩, rfl, ?_, Or.inl rfl⟩
    · rw [h.commands, List.map_append, List.append_nil]
      rfl
    · rw [List.map_append, List.flatten_append, ← h.sent]
      simp
    · rw [List.forall_mem_append]
      exact ⟨h.answers, by simpa using ha⟩
    · intro hended
      cases hended

theorem Transcript.handleLine {read : List (List UInt8)} {answered : List (String × ControlResponse)}
    {line : List UInt8} (hreads : Lines.Reads newline client.received client.closed (read ++ [line]) client.unread)
    (hcommands : texts read = answered.map Prod.fst)
    (hsent : client.sent = (answered.map (fun a => responseLine a.2)).flatten)
    (hanswers : ∀ a ∈ answered, Answers routerId a.1 a.2) (hreading : client.session = .reading) :
    Served routerId (client.handleLine line) (underLock answered) := by
  have htexts := texts_concat read line
  rw [hcommands] at htexts
  unfold Client.handleLine
  cases hcontent : lineContent line with
  | undecodable =>
    rw [hcontent] at htexts
    refine ⟨_, answered, [], ⟨hreads, htexts, hsent, hanswers⟩, Or.inl rfl, ?_, Or.inl rfl⟩
    intro _
    exact Or.inr (Or.inr ⟨line, by simp, hcontent⟩)
  | blank =>
    rw [hcontent] at htexts
    refine ⟨_, answered, [], ⟨hreads, htexts, hsent, hanswers⟩, ?_, ?_, Or.inl rfl⟩
    · simp only [Waits, hreading]
    · intro hended
      rw [hreading] at hended
      cases hended
  | command trimmed =>
    rw [hcontent] at htexts
    have ht : Transcript routerId client (read ++ [line]) answered [trimmed] := ⟨hreads, htexts, hsent, hanswers⟩
    dsimp only
    cases hd : dispatch trimmed with
    | error response =>
      have hserved := ht.respond (by simp only [Answers, hd] : Answers routerId trimmed response)
      rw [underLock_concat, hd] at hserved
      simpa [Except.toOption] using hserved
    | ok command =>
      refine ⟨_, answered, [trimmed], ⟨hreads, htexts, hsent, hanswers⟩, ⟨rfl, hd⟩, ?_, Or.inl rfl⟩
      intro hended
      cases hended

theorem Logged.eq {answered : List (String × ControlResponse)} (h : Logged client answered executed)
    (hs : client.session ≠ .ended) : executed = underLock answered := by
  rcases h with hsame | ⟨-, hended, -⟩
  · exact hsame
  · exact absurd hended hs

theorem Served.read (h : Served routerId client executed) : Served routerId client.read executed := by
  unfold Client.read
  cases hs : client.session with
  | queued | running | ended => exact h
  | reading =>
    obtain ⟨read, answered, pending, ⟨hreads, hcommands, hsent, hanswers⟩, hwaits, hends, hlogged⟩ := h
    simp only [Waits, hs] at hwaits
    rw [hwaits, List.append_nil] at hcommands
    obtain rfl := hlogged.eq (by simp [hs])
    dsimp only
    split
    · next line rest hnext =>
      exact Transcript.handleLine (hreads.line hnext) hcommands hsent hanswers rfl
    · next hnext =>
      split_ifs with hbroken hopen hunread
      · exact ⟨read, answered, [], ⟨hreads, by simpa using hcommands, hsent, hanswers⟩, Or.inl rfl,
          fun _ => Or.inl hbroken, Or.inl rfl⟩
      · refine ⟨read, answered, [], ⟨hreads, by simpa using hcommands, hsent, hanswers⟩, ?_, hends, Or.inl rfl⟩
        simp only [Waits, hs]
      · have hclosed : client.closed = true := by simpa using hopen
        exact ⟨read, answered, [], ⟨hreads, by simpa using hcommands, hsent, hanswers⟩, Or.inl rfl,
          fun _ => Or.inr (Or.inl ⟨hclosed, hunread⟩), Or.inl rfl⟩
      · have hclosed : client.closed = true := by simpa using hopen
        have htail : Lines.Reads newline client.received client.closed (read ++ [client.unread]) [] := by
          rw [hclosed] at hreads ⊢
          exact hreads.tail hunread hnext
        exact Transcript.handleLine htail hcommands hsent hanswers rfl

theorem Served.acquire (h : Served routerId client executed) {trimmed : String} {command : Locked}
    (hs : client.session = .queued trimmed command) :
    Served routerId { client with session := .running trimmed command } executed := by
  obtain ⟨read, answered, pending, ht, hwaits, hends, hlogged⟩ := h
  simp only [Waits, hs] at hwaits
  refine ⟨read, answered, pending, ⟨ht.reads, ht.commands, ht.sent, ht.answers⟩, hwaits, ?_,
    Or.inl (hlogged.eq (by simp [hs]))⟩
  intro hended
  cases hended

theorem Served.respond (h : Served routerId client executed) {trimmed : String} {command : Locked}
    (hs : client.session = .running trimmed command) {response : ControlResponse}
    (ha : Answer routerId command response) :
    Served routerId (client.respond response) (executed ++ [(command, response)]) := by
  obtain ⟨read, answered, pending, ht, hwaits, -, hlogged⟩ := h
  simp only [Waits, hs] at hwaits
  obtain ⟨rfl, hd⟩ := hwaits
  obtain rfl := hlogged.eq (by simp [hs])
  have hanswers : Answers routerId trimmed response := by
    simp only [Answers, hd]
    exact ha
  have hserved := ht.respond hanswers
  rw [underLock_concat, hd] at hserved
  exact hserved

end Transcripts

end CommandServer

end CustomOspf
