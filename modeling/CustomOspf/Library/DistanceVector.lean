import Mathlib.Data.ENat.Basic
import Mathlib.Data.Finset.Card
import Mathlib.Data.Fintype.Card
import Mathlib.Data.Fintype.Sets
import Mathlib.Logic.Relation

/-!
The distances that a set of nodes keep to one destination. A node may advertise
what it holds, take an advertisement over from another node, pointing to that
node or to where that node points, and lose what it holds. Advertisements stay
for ever: they may arrive late, more than once, or never.
-/

namespace CustomOspf.DistanceVector

structure Entry (ι : Type) where
  metric : ℕ
  via : Option ι

structure Advert (ι : Type) where
  origin : ι
  entry : Entry ι

@[ext] structure State (ι : Type) where
  held : ι → Option (Entry ι)
  adverts : Set (Advert ι)
  lost : ℕ

variable {ι : Type} [DecidableEq ι]

namespace State

def take (s : State ι) (j : ι) (e : Entry ι) : State ι := { s with held := Function.update s.held j (some e) }

def drop (s : State ι) (j : ι) : State ι := { s with held := Function.update s.held j none, lost := s.lost + 1 }

@[simp] theorem take_held_self (s : State ι) (j : ι) (e : Entry ι) : (s.take j e).held j = some e :=
  Function.update_self _ _ _

theorem take_held_of_ne (s : State ι) {i j : ι} (h : i ≠ j) (e : Entry ι) : (s.take j e).held i = s.held i :=
  Function.update_of_ne h _ _

@[simp] theorem take_lost (s : State ι) (j : ι) (e : Entry ι) : (s.take j e).lost = s.lost := rfl

@[simp] theorem drop_lost (s : State ι) (j : ι) : (s.drop j).lost = s.lost + 1 := rfl

theorem drop_held {s : State ι} {i j : ι} {e : Entry ι} (h : (s.drop j).held i = some e) :
    i ≠ j ∧ s.held i = some e := by
  have hi : i ≠ j := by
    rintro rfl
    simp [drop] at h
  exact ⟨hi, (Function.update_of_ne hi _ _).symm.trans h⟩

end State

/-- A node takes an advertisement over when it holds nothing or nothing nearer; `incr` is the cost of a hop. -/
inductive Step (incr : ℕ → ℕ) (link : ι → ι → Prop) : State ι → State ι → Prop where
  | stay (s : State ι) : Step incr link s s
  | advertise (s : State ι) (A : Set (Advert ι)) (hA : ∀ a ∈ A, s.held a.origin = some a.entry) :
      Step incr link s { s with adverts := s.adverts ∪ A }
  | receive (s : State ι) (j : ι) (a : Advert ι) (ha : a ∈ s.adverts) (hlink : link j a.origin) (via : Option ι)
      (hvia : via = some a.origin ∨ via = a.entry.via)
      (hbetter : ∀ e, s.held j = some e → incr a.entry.metric ≤ e.metric) :
      Step incr link s (s.take j ⟨incr a.entry.metric, via⟩)
  | lose (s : State ι) (j : ι) (h : (s.held j).isSome = true) :
      Step incr link s (s.drop j)

def Reachable (incr : ℕ → ℕ) (link : ι → ι → Prop) : State ι → State ι → Prop :=
  Relation.ReflTransGen (Step incr link)

structure Initial (s : State ι) : Prop where
  held : ∀ i e, s.held i = some e → e = ⟨0, none⟩
  adverts : s.adverts = ∅
  lost : s.lost = 0

variable {incr : ℕ → ℕ} {link : ι → ι → Prop} {s s₀ s' : State ι}

theorem Step.lost_le (h : Step incr link s s') : s.lost ≤ s'.lost := by
  cases h with
  | lose => exact Nat.le_succ s.lost
  | _ => exact le_refl _

theorem Step.held_le (h : Step incr link s s') (hlost : s'.lost = s.lost) {i : ι} {e : Entry ι}
    (he : s.held i = some e) : ∃ e', s'.held i = some e' ∧ e'.metric ≤ e.metric := by
  cases h with
  | stay => exact ⟨e, he, le_refl _⟩
  | advertise A hA => exact ⟨e, he, le_refl _⟩
  | receive j a ha hlink via hvia hbetter =>
    by_cases hi : i = j
    · subst hi
      exact ⟨_, State.take_held_self s i _, hbetter e he⟩
    · exact ⟨e, (State.take_held_of_ne s hi _).trans he, le_refl _⟩
  | lose j hj =>
    rw [State.drop_lost] at hlost
    omega

/-! What nobody holds at the start nobody ever holds. -/

structure Unknown (s : State ι) : Prop where
  held : ∀ i, s.held i = none
  adverts : s.adverts = ∅

theorem Unknown.step (hu : Unknown s) (h : Step incr link s s') : Unknown s' := by
  cases h with
  | stay => exact hu
  | advertise A hA =>
    refine ⟨hu.held, ?_⟩
    rw [hu.adverts, Set.empty_union, Set.eq_empty_iff_forall_notMem]
    intro a ha
    cases (hu.held a.origin).symm.trans (hA a ha)
  | receive j a ha =>
    rw [hu.adverts] at ha
    exact absurd ha (Set.notMem_empty a)
  | lose j hj =>
    rw [hu.held j] at hj
    cases hj

theorem Unknown.of_reachable (h₀ : Unknown s₀) (h : Reachable incr link s₀ s) : Unknown s := by
  induction h with
  | refl => exact h₀
  | tail _ hstep ih => exact ih.step hstep

/-! Metrics grow with the number of nodes that hold the destination and of losses. -/

section Bound

variable [Fintype ι]

def holders (s : State ι) : Finset ι := Finset.univ.filter (fun i => (s.held i).isSome = true)

omit [DecidableEq ι] in
theorem mem_holders {i : ι} : i ∈ holders s ↔ (s.held i).isSome = true := by
  simp [holders]

structure Bounded (s : State ι) : Prop where
  held : ∀ i e, s.held i = some e → e.metric < (holders s).card + s.lost
  adverts : ∀ a ∈ s.adverts, a.entry.metric < (holders s).card + s.lost

omit [DecidableEq ι] in
theorem Bounded.initial (h : Initial s) : Bounded s := by
  refine ⟨?_, ?_⟩
  · intro i e he
    have hpos : 0 < (holders s).card := Finset.card_pos.mpr ⟨i, mem_holders.mpr (by rw [he]; rfl)⟩
    rw [h.held i e he]
    exact Nat.lt_of_lt_of_le hpos (Nat.le_add_right _ _)
  · intro a ha
    rw [h.adverts] at ha
    exact absurd ha (Set.notMem_empty a)

theorem holders_take (j : ι) (e : Entry ι) : holders (s.take j e) = insert j (holders s) := by
  ext i
  rw [mem_holders, Finset.mem_insert, mem_holders]
  by_cases hi : i = j
  · subst hi
    simp
  · rw [State.take_held_of_ne s hi]
    simp [hi]

theorem holders_drop (j : ι) : holders (s.drop j) = (holders s).erase j := by
  ext i
  rw [mem_holders, Finset.mem_erase, mem_holders]
  by_cases hi : i = j
  · simp [State.drop, hi]
  · simp [State.drop, hi]

theorem Bounded.step (hincr : ∀ m, incr m ≤ m + 1) (hb : Bounded s) (h : Step incr link s s') : Bounded s' := by
  cases h with
  | stay => exact hb
  | advertise A hA =>
    refine ⟨hb.held, ?_⟩
    rintro a (ha | ha)
    · exact hb.adverts a ha
    · exact hb.held a.origin a.entry (hA a ha)
  | receive j a ha hlink via hvia hbetter =>
    have hcard : (holders s).card ≤ (insert j (holders s)).card := Finset.card_le_card (Finset.subset_insert j _)
    refine ⟨?_, ?_⟩
    · intro i e he
      rw [holders_take, State.take_lost]
      by_cases hi : i = j
      · subst hi
        rw [State.take_held_self] at he
        obtain rfl := Option.some.inj he
        cases hold : s.held i with
        | some e =>
          have hle := hbetter e hold
          have hlt := hb.held i e hold
          dsimp only
          omega
        | none =>
          have hnew : i ∉ holders s := by simp [mem_holders, hold]
          have hlt := hb.adverts a ha
          have hle := hincr a.entry.metric
          rw [Finset.card_insert_of_notMem hnew]
          dsimp only
          omega
      · rw [State.take_held_of_ne s hi] at he
        have hlt := hb.held i e he
        omega
    · intro b hbm
      rw [holders_take, State.take_lost]
      have hlt := hb.adverts b hbm
      omega
  | lose j hj =>
    have hcard := Finset.card_erase_add_one (mem_holders.mpr hj)
    refine ⟨?_, ?_⟩
    · intro i e he
      rw [holders_drop, State.drop_lost]
      have hlt := hb.held i e (State.drop_held he).2
      omega
    · intro b hbm
      rw [holders_drop, State.drop_lost]
      have hlt := hb.adverts b hbm
      omega

theorem Bounded.of_reachable (hincr : ∀ m, incr m ≤ m + 1) (h₀ : Initial s₀) (h : Reachable incr link s₀ s) :
    Bounded s := by
  induction h with
  | refl => exact Bounded.initial h₀
  | tail _ hstep ih => exact ih.step hincr hstep

omit [DecidableEq ι] in
theorem card_holders_le (s : State ι) : (holders s).card ≤ Fintype.card ι := Finset.card_le_univ _

theorem metric_lt (hincr : ∀ m, incr m ≤ m + 1) (h₀ : Initial s₀) (h : Reachable incr link s₀ s) {i : ι}
    {e : Entry ι} (he : s.held i = some e) : e.metric < Fintype.card ι + s.lost := by
  have hlt := (Bounded.of_reachable hincr h₀ h).held i e he
  have hcard := card_holders_le s
  omega

theorem advert_lt (hincr : ∀ m, incr m ≤ m + 1) (h₀ : Initial s₀) (h : Reachable incr link s₀ s) {a : Advert ι}
    (ha : a ∈ s.adverts) : a.entry.metric < Fintype.card ι + s.lost := by
  have hlt := (Bounded.of_reachable hincr h₀ h).adverts a ha
  have hcard := card_holders_le s
  omega

end Bound

/-! As long as nothing is lost, every entry points to a node that is strictly nearer. -/

structure Ranked (s : State ι) : Prop where
  held : ∀ i m k, s.held i = some ⟨m, some k⟩ → ∃ e, s.held k = some e ∧ e.metric < m
  origin : ∀ a ∈ s.adverts, ∃ e, s.held a.origin = some e ∧ e.metric ≤ a.entry.metric
  via : ∀ a ∈ s.adverts, ∀ k, a.entry.via = some k → ∃ e, s.held k = some e ∧ e.metric < a.entry.metric

omit [DecidableEq ι] in
theorem Ranked.initial (h : Initial s) : Ranked s := by
  have hempty : ∀ a, a ∉ s.adverts := by
    intro a ha
    rw [h.adverts] at ha
    exact Set.notMem_empty a ha
  refine ⟨?_, fun a ha => absurd ha (hempty a), fun a ha => absurd ha (hempty a)⟩
  intro i m k he
  cases h.held i _ he

omit [DecidableEq ι] in
theorem Ranked.advertise (hr : Ranked s) {A : Set (Advert ι)} (hA : ∀ a ∈ A, s.held a.origin = some a.entry) :
    Ranked { s with adverts := s.adverts ∪ A } := by
  refine ⟨hr.held, ?_, ?_⟩
  · rintro a (ha | ha)
    · exact hr.origin a ha
    · exact ⟨a.entry, hA a ha, le_refl _⟩
  · rintro a (ha | ha) k hk
    · exact hr.via a ha k hk
    · apply hr.held a.origin a.entry.metric k
      rw [hA a ha, ← hk]

theorem Ranked.receive (hr : Ranked s) {j : ι} {a : Advert ι} (ha : a ∈ s.adverts)
    (hincr : incr a.entry.metric = a.entry.metric + 1) {via : Option ι}
    (hvia : via = some a.origin ∨ via = a.entry.via)
    (hbetter : ∀ e, s.held j = some e → incr a.entry.metric ≤ e.metric) :
    Ranked (s.take j ⟨incr a.entry.metric, via⟩) := by
  have hkeep : ∀ k e b, s.held k = some e → e.metric < b →
      ∃ e', (s.take j ⟨incr a.entry.metric, via⟩).held k = some e' ∧ e'.metric < b := by
    intro k e b hk hlt
    by_cases hkj : k = j
    · subst hkj
      exact ⟨_, State.take_held_self s k _, lt_of_le_of_lt (hbetter e hk) hlt⟩
    · exact ⟨e, by rw [State.take_held_of_ne s hkj, hk], hlt⟩
  -- the node it points to holds no more than what was advertised
  have hpoint : ∀ k, via = some k → ∃ e, s.held k = some e ∧ e.metric < incr a.entry.metric := by
    intro k hk
    rcases hvia with hv | hv
    · obtain ⟨e, he, hle⟩ := hr.origin a ha
      obtain rfl : a.origin = k := Option.some.inj (hv.symm.trans hk)
      exact ⟨e, he, by omega⟩
    · obtain ⟨e, he, hlt⟩ := hr.via a ha k (hv.symm.trans hk)
      exact ⟨e, he, by omega⟩
  refine ⟨?_, ?_, ?_⟩
  · intro i m k he
    by_cases hi : i = j
    · subst hi
      rw [State.take_held_self] at he
      obtain ⟨rfl, hk⟩ := Entry.mk.inj (Option.some.inj he)
      obtain ⟨e, hke, hlt⟩ := hpoint k hk
      exact hkeep k e _ hke hlt
    · rw [State.take_held_of_ne s hi] at he
      obtain ⟨e, hke, hlt⟩ := hr.held i m k he
      exact hkeep k e m hke hlt
  · intro b hb
    obtain ⟨e, he, hle⟩ := hr.origin b hb
    obtain ⟨e', he', hlt⟩ := hkeep b.origin e (b.entry.metric + 1) he (by omega)
    exact ⟨e', he', by omega⟩
  · intro b hb k hk
    obtain ⟨e, he, hlt⟩ := hr.via b hb k hk
    exact hkeep k e _ he hlt

theorem Ranked.step (hr : Ranked s) (hincr : ∀ a ∈ s.adverts, incr a.entry.metric = a.entry.metric + 1)
    (h : Step incr link s s') (hlost : s'.lost = 0) : Ranked s' := by
  cases h with
  | stay => exact hr
  | advertise A hA => exact hr.advertise hA
  | receive j a ha hlink via hvia hbetter => exact hr.receive ha (hincr a ha) hvia hbetter
  | lose j hj => exact absurd hlost (Nat.succ_ne_zero s.lost)

theorem Ranked.of_reachable [Fintype ι] (hincr : ∀ m, incr m ≤ m + 1)
    (hexact : ∀ m, m < Fintype.card ι → incr m = m + 1) (h₀ : Initial s₀) (h : Reachable incr link s₀ s)
    (hlost : s.lost = 0) : Ranked s := by
  induction h with
  | refl => exact Ranked.initial h₀
  | @tail s s' h hstep ih =>
    have hbefore : s.lost = 0 := by
      have hle := hstep.lost_le
      omega
    apply (ih hbefore).step _ hstep hlost
    intro a ha
    apply hexact
    have hlt := advert_lt hincr h₀ h ha
    omega

def Forwards (s : State ι) (i k : ι) : Prop := ∃ m, s.held i = some ⟨m, some k⟩

omit [DecidableEq ι] in
theorem Ranked.nearer (hr : Ranked s) {i k : ι} (h : Relation.TransGen (Forwards s) i k) :
    ∃ e f, s.held i = some e ∧ s.held k = some f ∧ f.metric < e.metric := by
  induction h with
  | single hik =>
    obtain ⟨m, hm⟩ := hik
    obtain ⟨f, hf, hlt⟩ := hr.held i m _ hm
    exact ⟨_, f, hm, hf, hlt⟩
  | tail _ hkl ih =>
    obtain ⟨e, f, he, hf, hlt⟩ := ih
    obtain ⟨m, hm⟩ := hkl
    obtain ⟨g, hg, hlt'⟩ := hr.held _ m _ hm
    obtain rfl := Option.some.inj (hm.symm.trans hf)
    exact ⟨e, g, he, hg, hlt'.trans hlt⟩

omit [DecidableEq ι] in
theorem Ranked.acyclic (hr : Ranked s) (i : ι) : ¬ Relation.TransGen (Forwards s) i i := by
  intro h
  obtain ⟨e, f, he, hf, hlt⟩ := hr.nearer h
  obtain rfl := Option.some.inj (he.symm.trans hf)
  exact absurd hlt (lt_irrefl _)

/-! No metric falls below a distance that grows by at most one along a link. -/

structure AtLeast (dist : ι → ℕ∞) (s : State ι) : Prop where
  held : ∀ i e, s.held i = some e → dist i ≤ e.metric
  adverts : ∀ a ∈ s.adverts, dist a.origin ≤ a.entry.metric

theorem AtLeast.step {dist : ι → ℕ∞} (hlink : ∀ j o, link j o → dist j ≤ dist o + 1) (hd : AtLeast dist s)
    (hincr : ∀ a ∈ s.adverts, incr a.entry.metric = a.entry.metric + 1) (h : Step incr link s s') :
    AtLeast dist s' := by
  cases h with
  | stay => exact hd
  | advertise A hA =>
    refine ⟨hd.held, ?_⟩
    rintro a (ha | ha)
    · exact hd.adverts a ha
    · exact hd.held a.origin a.entry (hA a ha)
  | receive j a ha hl via hvia hbetter =>
    refine ⟨?_, hd.adverts⟩
    intro i e he
    by_cases hi : i = j
    · subst hi
      rw [State.take_held_self] at he
      obtain rfl := Option.some.inj he
      rw [hincr a ha, Nat.cast_add, Nat.cast_one]
      calc dist i ≤ dist a.origin + 1 := hlink i a.origin hl
        _ ≤ a.entry.metric + 1 := by gcongr; exact hd.adverts a ha
    · rw [State.take_held_of_ne s hi] at he
      exact hd.held i e he
  | lose j hj => exact ⟨fun i e he => hd.held i e (State.drop_held he).2, hd.adverts⟩

/-! Nor is what an entry or an advertisement points to any farther than that. -/

structure Behind (dist : ι → ℕ∞) (s : State ι) : Prop extends AtLeast dist s where
  held_via : ∀ i m k, s.held i = some ⟨m, some k⟩ → dist k + 1 ≤ m
  adverts_via : ∀ a ∈ s.adverts, ∀ k, a.entry.via = some k → dist k + 1 ≤ a.entry.metric

omit [DecidableEq ι] in
theorem Behind.initial {dist : ι → ℕ∞} (h : Initial s) (hzero : ∀ i e, s.held i = some e → dist i = 0) :
    Behind dist s := by
  have hempty : ∀ a, a ∉ s.adverts := by
    intro a ha
    rw [h.adverts] at ha
    exact Set.notMem_empty a ha
  refine ⟨⟨?_, fun a ha => absurd ha (hempty a)⟩, ?_, fun a ha => absurd ha (hempty a)⟩
  · intro i e he
    rw [hzero i e he]
    exact bot_le
  · intro i m k he
    cases h.held i _ he

theorem Behind.step {dist : ι → ℕ∞} (hlink : ∀ j o, link j o → dist j ≤ dist o + 1) (hb : Behind dist s)
    (hincr : ∀ a ∈ s.adverts, incr a.entry.metric = a.entry.metric + 1) (h : Step incr link s s') :
    Behind dist s' := by
  have hleast : AtLeast dist s' := hb.toAtLeast.step hlink hincr h
  cases h with
  | stay => exact hb
  | advertise A hA =>
    refine ⟨hleast, hb.held_via, ?_⟩
    rintro a (ha | ha) k hk
    · exact hb.adverts_via a ha k hk
    · apply hb.held_via a.origin a.entry.metric k
      rw [hA a ha, ← hk]
  | receive j a ha hl via hvia hbetter =>
    refine ⟨hleast, ?_, hb.adverts_via⟩
    intro i m k he
    by_cases hi : i = j
    · subst hi
      rw [State.take_held_self] at he
      obtain ⟨rfl, rfl⟩ := Entry.mk.inj (Option.some.inj he)
      rw [hincr a ha, Nat.cast_add, Nat.cast_one]
      gcongr
      rcases hvia with hk | hk
      · obtain rfl := Option.some.inj hk
        exact hb.adverts a ha
      · exact le_self_add.trans (hb.adverts_via a ha k hk.symm)
    · rw [State.take_held_of_ne s hi] at he
      exact hb.held_via i m k he
  | lose j hj => exact ⟨hleast, fun i m k he => hb.held_via i m k (State.drop_held he).2, hb.adverts_via⟩

theorem Behind.of_reachable [Fintype ι] {dist : ι → ℕ∞} (hlink : ∀ j o, link j o → dist j ≤ dist o + 1)
    (hincr : ∀ m, incr m ≤ m + 1) (h₀ : Initial s₀) (hzero : ∀ i e, s₀.held i = some e → dist i = 0)
    (h : Reachable incr link s₀ s) (hexact : ∀ m, m < Fintype.card ι + s.lost → incr m = m + 1) : Behind dist s := by
  induction h with
  | refl => exact Behind.initial h₀ hzero
  | @tail s s' h hstep ih =>
    have hle := hstep.lost_le
    have hbefore : ∀ m, m < Fintype.card ι + s.lost → incr m = m + 1 := by
      intro m hm
      apply hexact
      omega
    apply (ih hbefore).step hlink _ hstep
    intro a ha
    exact hbefore a.entry.metric (advert_lt hincr h₀ h ha)

theorem AtLeast.of_reachable [Fintype ι] {dist : ι → ℕ∞} (hlink : ∀ j o, link j o → dist j ≤ dist o + 1)
    (hincr : ∀ m, incr m ≤ m + 1) (hexact : ∀ m, m < Fintype.card ι → incr m = m + 1) (h₀ : Initial s₀)
    (hzero : ∀ i e, s₀.held i = some e → dist i = 0) (h : Reachable incr link s₀ s) (hlost : s.lost = 0) :
    AtLeast dist s := by
  apply Behind.toAtLeast
  apply Behind.of_reachable hlink hincr h₀ hzero h
  rw [hlost, Nat.add_zero]
  exact hexact

end CustomOspf.DistanceVector
