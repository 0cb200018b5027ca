import Mathlib.Logic.Relation
import Mathlib.Logic.Function.Basic
import Mathlib.Data.Nat.Notation

/-!
Tasks that take locks in scopes and share data. When every scope of a task
takes a lock above those it holds, no chain of waiting tasks closes.
-/

namespace CustomOspf.LockOrder

/-- What a task does with locks: `lock` holds its guard over the body, `choice` and `loop` are decided elsewhere. -/
inductive Prog (L σ : Type) where
  | skip
  | seq (p q : Prog L σ)
  | lock (l : L) (body : Prog L σ)
  | choice (p q : Prog L σ)
  | loop (body : Prog L σ)
  | write (f : σ → σ)
  | test (c : σ → Bool) (p q : Prog L σ)

namespace Prog

variable {L σ : Type}

def guarded (l : L) : Prog L σ := .lock l .skip

def maybe (p : Prog L σ) : Prog L σ := .choice .skip p

def oneOf (ps : List (Prog L σ)) : Prog L σ := ps.foldr .choice .skip

end Prog

inductive Frame (L σ : Type) where
  | run (p : Prog L σ)
  | release (l : L)

structure System (ι L σ : Type) where
  frames : ι → List (Frame L σ)
  data : σ

variable {ι L σ : Type}

inductive Local : σ → List (Frame L σ) → σ → List (Frame L σ) → Prop where
  | skip {d rest} : Local d (.run .skip :: rest) d rest
  | seq {d p q rest} : Local d (.run (.seq p q) :: rest) d (.run p :: .run q :: rest)
  | left {d p q rest} : Local d (.run (.choice p q) :: rest) d (.run p :: rest)
  | right {d p q rest} : Local d (.run (.choice p q) :: rest) d (.run q :: rest)
  | leave {d body rest} : Local d (.run (.loop body) :: rest) d rest
  | again {d body rest} : Local d (.run (.loop body) :: rest) d (.run body :: .run (.loop body) :: rest)
  | write {d f rest} : Local d (.run (.write f) :: rest) (f d) rest
  | test {d c p q rest} : Local d (.run (.test c p q) :: rest) d (.run (if c d then p else q) :: rest)
  | release {d l rest} : Local d (.release l :: rest) d rest

namespace System

def Holds (s : System ι L σ) (i : ι) (l : L) : Prop := .release l ∈ s.frames i

def Waits (s : System ι L σ) (i : ι) (l : L) : Prop := ∃ body rest, s.frames i = .run (.lock l body) :: rest

def WaitsFor (s : System ι L σ) (i j : ι) : Prop := ∃ l, s.Waits i l ∧ s.Holds j l

variable [DecidableEq ι]

def put (s : System ι L σ) (i : ι) (stack : List (Frame L σ)) (d : σ) : System ι L σ :=
  ⟨Function.update s.frames i stack, d⟩

/-- A task starts with one of the bodies, moves, takes a free lock, or is cut off and drops its guards. -/
inductive Step (bodies : List (Prog L σ)) : System ι L σ → System ι L σ → Prop where
  | start {s i p} (hp : p ∈ bodies) (h : s.frames i = []) : Step bodies s (s.put i [.run p] s.data)
  | move {s i d stack} (h : Local s.data (s.frames i) d stack) : Step bodies s (s.put i stack d)
  | acquire {s i l body rest} (h : s.frames i = .run (.lock l body) :: rest) (hfree : ∀ j, ¬ s.Holds j l) :
      Step bodies s (s.put i (.run body :: .release l :: rest) s.data)
  | abort {s i} : Step bodies s (s.put i [] s.data)

inductive Reachable (bodies : List (Prog L σ)) (d : σ) : System ι L σ → Prop where
  | initial : Reachable bodies d ⟨fun _ => [], d⟩
  | step {s t} (h : Reachable bodies d s) (hst : Step bodies s t) : Reachable bodies d t

end System

/-! The discipline. `known` is what a task knows of a fact `A` about the data that no write undoes. -/

section Discipline

variable (rank : L → ℕ) (A : σ → Prop)

def after (known : Prop) : Prog L σ → Prop
  | .skip => known
  | .seq p q => after (after known p) q
  | .lock _ body => after known body
  | .choice p q => after known p ∧ after known q
  | .loop _ => known
  | .write f => known ∨ ∀ d, A (f d)
  | .test c p q => after known p ∧ ((known ∧ ∀ d, A d → c d = true) ∨ after known q)

/-- Each lock ranks at least `bound`, and above the locks whose scopes are open around it. -/
def Disciplined (bound : ℕ) (known : Prop) : Prog L σ → Prop
  | .skip => True
  | .seq p q => Disciplined bound known p ∧ Disciplined bound (after A known p) q
  | .lock l body => bound ≤ rank l ∧ Disciplined (rank l + 1) known body
  | .choice p q => Disciplined bound known p ∧ Disciplined bound known q
  | .loop body => Disciplined bound known body
  | .write f => ∀ d, A d → A (f d)
  | .test c p q => Disciplined bound known p ∧ ((known ∧ ∀ d, A d → c d = true) ∨ Disciplined bound known q)

def bound : List (Frame L σ) → ℕ
  | [] => 0
  | .run _ :: rest => bound rest
  | .release l :: _ => rank l + 1

def StackDisciplined (known : Prop) : List (Frame L σ) → Prop
  | [] => True
  | .run p :: rest => Disciplined rank A (bound rank rest) known p ∧ StackDisciplined (after A known p) rest
  | .release l :: rest => bound rank rest ≤ rank l ∧ StackDisciplined known rest

variable {rank A} {known known' : Prop}

@[simp] theorem disciplined_guarded {b : ℕ} {l : L} :
    Disciplined rank A b known (Prog.guarded l : Prog L σ) ↔ b ≤ rank l := and_iff_left trivial

@[simp] theorem disciplined_maybe {b : ℕ} {p : Prog L σ} :
    Disciplined rank A b known p.maybe ↔ Disciplined rank A b known p := and_iff_right trivial

@[simp] theorem disciplined_oneOf {b : ℕ} {ps : List (Prog L σ)} :
    Disciplined rank A b known (Prog.oneOf ps) ↔ ∀ p ∈ ps, Disciplined rank A b known p := by
  induction ps with
  | nil => simp [Prog.oneOf, Disciplined]
  | cons p ps ih =>
    rw [List.forall_mem_cons, ← ih]
    rfl

theorem after_mono (h : known → known') {p : Prog L σ} (hp : after A known p) : after A known' p := by
  induction p generalizing known known' with
  | skip => exact h hp
  | seq p q ihp ihq => exact ihq (ihp h) hp
  | lock l body ih => exact ih h hp
  | choice p q ihp ihq => exact ⟨ihp h hp.1, ihq h hp.2⟩
  | loop body => exact h hp
  | write f => exact hp.imp_left h
  | test c p q ihp ihq => exact ⟨ihp h hp.1, hp.2.imp (fun hc => ⟨h hc.1, hc.2⟩) (ihq h)⟩

theorem after_of_known (h : known) (p : Prog L σ) : after A known p := by
  induction p generalizing known with
  | skip => exact h
  | seq p q ihp ihq => exact ihq (ihp h)
  | lock l body ih => exact ih h
  | choice p q ihp ihq => exact ⟨ihp h, ihq h⟩
  | loop body => exact h
  | write f => exact Or.inl h
  | test c p q ihp ihq => exact ⟨ihp h, Or.inr (ihq h)⟩

theorem Disciplined.mono (h : known → known') {b : ℕ} {p : Prog L σ} (hp : Disciplined rank A b known p) :
    Disciplined rank A b known' p := by
  induction p generalizing b known known' with
  | skip => trivial
  | seq p q ihp ihq => exact ⟨ihp h hp.1, ihq (after_mono h) hp.2⟩
  | lock l body ih => exact ⟨hp.1, ih h hp.2⟩
  | choice p q ihp ihq => exact ⟨ihp h hp.1, ihq h hp.2⟩
  | loop body ih => exact ih h hp
  | write f => exact hp
  | test c p q ihp ihq => exact ⟨ihp h hp.1, hp.2.imp (fun hc => ⟨h hc.1, hc.2⟩) (ihq h)⟩

theorem StackDisciplined.mono (h : known → known') {stack : List (Frame L σ)}
    (hs : StackDisciplined rank A known stack) : StackDisciplined rank A known' stack := by
  induction stack generalizing known known' with
  | nil => trivial
  | cons frame rest ih =>
    cases frame with
    | run p => exact ⟨hs.1.mono h, ih (after_mono h) hs.2⟩
    | release l => exact ⟨hs.1, ih h hs.2⟩

theorem StackDisciplined.held_lt {stack : List (Frame L σ)} (hs : StackDisciplined rank A known stack) {l : L}
    (hl : .release l ∈ stack) : rank l < bound rank stack := by
  induction stack generalizing known with
  | nil => simp at hl
  | cons frame rest ih =>
    cases frame with
    | run p =>
      apply ih hs.2
      simpa using hl
    | release l' =>
      rcases List.mem_cons.mp hl with he | hl
      · obtain rfl := Frame.release.inj he
        exact Nat.lt_succ_self _
      · have hlt := ih hs.2 hl
        have hle := hs.1
        change rank l < rank l' + 1
        omega

theorem Local.disciplined {d d' : σ} {stack stack' : List (Frame L σ)} (h : Local d stack d' stack')
    (hs : StackDisciplined rank A (A d) stack) : (A d → A d') ∧ StackDisciplined rank A (A d') stack' := by
  cases h with
  | skip => exact ⟨id, hs.2⟩
  | seq => exact ⟨id, hs.1.1, hs.1.2, hs.2⟩
  | left => exact ⟨id, hs.1.1, hs.2.mono And.left⟩
  | right => exact ⟨id, hs.1.2, hs.2.mono And.right⟩
  | leave => exact ⟨id, hs.2⟩
  | @again body rest =>
    have hgrow : A d → after A (A d) body := fun hd => after_of_known hd body
    exact ⟨id, hs.1, hs.1.mono hgrow, hs.2.mono hgrow⟩
  | @write f rest =>
    refine ⟨hs.1 d, hs.2.mono ?_⟩
    rintro (hd | hall)
    · exact hs.1 d hd
    · exact hall d
  | @test c p q rest =>
    obtain ⟨⟨hp, hq⟩, hrest⟩ := hs
    refine ⟨id, ?_⟩
    by_cases hc : c d = true
    · rw [if_pos hc]
      exact ⟨hp, hrest.mono And.left⟩
    · rw [if_neg hc]
      -- the branch is reached, so the fact that excludes it is not known
      have hunknown : ¬ (A d ∧ ∀ d, A d → c d = true) := fun hk => hc (hk.2 d hk.1)
      exact ⟨hq.resolve_left hunknown, hrest.mono (fun ha => ha.2.resolve_left hunknown)⟩
  | release => exact ⟨id, hs.2⟩

end Discipline

namespace System

variable [DecidableEq ι] {rank : L → ℕ} {A : σ → Prop} {bodies : List (Prog L σ)} {s t : System ι L σ}

def AllDisciplined (rank : L → ℕ) (A : σ → Prop) (s : System ι L σ) : Prop :=
  ∀ i, StackDisciplined rank A (A s.data) (s.frames i)

theorem AllDisciplined.put (h : AllDisciplined rank A s) {i : ι} {stack : List (Frame L σ)} {d : σ}
    (hd : A s.data → A d) (hs : StackDisciplined rank A (A d) stack) : AllDisciplined rank A (s.put i stack d) := by
  intro j
  by_cases hj : j = i
  · subst hj
    simpa [System.put] using hs
  · simpa [System.put, hj] using (h j).mono hd

theorem AllDisciplined.step (hb : ∀ p ∈ bodies, Disciplined rank A 0 False p) (h : AllDisciplined rank A s)
    (hst : Step bodies s t) : AllDisciplined rank A t := by
  cases hst with
  | start hp _ => exact h.put id ⟨(hb _ hp).mono False.elim, trivial⟩
  | @move i d stack hl =>
    obtain ⟨hd, hs⟩ := hl.disciplined (h i)
    exact h.put hd hs
  | @acquire i l body rest hi _ =>
    have hs := h i
    rw [hi] at hs
    exact h.put id ⟨hs.1.2, hs.1.1, hs.2⟩
  | abort => exact h.put id trivial

theorem Reachable.disciplined (hb : ∀ p ∈ bodies, Disciplined rank A 0 False p) {d : σ}
    (h : Reachable bodies d s) : AllDisciplined rank A s := by
  induction h with
  | initial => exact fun _ => trivial
  | step _ hst ih => exact ih.step hb hst

section Chains

omit [DecidableEq ι]

theorem AllDisciplined.held_lt (h : AllDisciplined rank A s) {i : ι} {l l' : L} (hw : s.Waits i l)
    (hh : s.Holds i l') : rank l' < rank l := by
  obtain ⟨body, rest, hi⟩ := hw
  have hs := h i
  unfold Holds at hh
  rw [hi] at hs hh
  have hlt := StackDisciplined.held_lt hs.2 (by simpa using hh)
  exact Nat.lt_of_lt_of_le hlt hs.1.1

theorem Waits.unique {i : ι} {l l' : L} (h : s.Waits i l) (h' : s.Waits i l') : l = l' := by
  obtain ⟨body, rest, hi⟩ := h
  obtain ⟨body', rest', hi'⟩ := h'
  rw [hi] at hi'
  injection hi' with hhead
  injection hhead with hprog
  injection hprog

theorem AllDisciplined.chain (h : AllDisciplined rank A s) {i j : ι} (hc : Relation.TransGen s.WaitsFor i j) {l : L}
    (hw : s.Waits j l) : ∃ l', s.Waits i l' ∧ rank l' < rank l := by
  induction hc generalizing l with
  | single hij =>
    obtain ⟨l', hi, hj⟩ := hij
    exact ⟨l', hi, h.held_lt hw hj⟩
  | tail _ hbc ih =>
    obtain ⟨m, hb, hc⟩ := hbc
    obtain ⟨l', hi, hlt⟩ := ih hb
    exact ⟨l', hi, Nat.lt_trans hlt (h.held_lt hw hc)⟩

theorem AllDisciplined.acyclic (h : AllDisciplined rank A s) (i : ι) : ¬ Relation.TransGen s.WaitsFor i i := by
  intro hc
  obtain ⟨j, ⟨l, hw, -⟩, -⟩ := Relation.TransGen.head'_iff.mp hc
  obtain ⟨l', hw', hlt⟩ := h.chain hc hw
  rw [hw.unique hw'] at hlt
  exact absurd hlt (Nat.lt_irrefl _)

end Chains

end System

end CustomOspf.LockOrder
