import Mathlib.Combinatorics.SimpleGraph.Metric

/-!
The least number of hops from a vertex of a graph to a set of vertices, as the
greatest function that vanishes on the set and grows by one along an edge.
-/

namespace CustomOspf.HopDistance

variable {V : Type} (G : SimpleGraph V) (T : Set V)

noncomputable def hops (v : V) : ℕ∞ := ⨅ t : T, G.edist v t

variable {G T}

theorem hops_of_mem {v : V} (h : v ∈ T) : hops G T v = 0 := by
  have hle : hops G T v ≤ G.edist v v := iInf_le (fun t : T => G.edist v t) ⟨v, h⟩
  rw [SimpleGraph.edist_self] at hle
  exact le_antisymm hle (zero_le)

theorem hops_le_of_adj {u v : V} (h : G.Adj u v) : hops G T u ≤ hops G T v + 1 := by
  by_cases hT : Nonempty T
  · obtain ⟨t, ht⟩ := ENat.exists_eq_iInf (fun t : T => G.edist v t)
    have hstep : G.edist u t ≤ G.edist u v + G.edist v t := SimpleGraph.edist_triangle
    have hone : G.edist u v = 1 := SimpleGraph.edist_eq_one_iff_adj.mpr h
    calc hops G T u ≤ G.edist u t := iInf_le (fun t : T => G.edist u t) t
      _ ≤ G.edist u v + G.edist v t := hstep
      _ = hops G T v + 1 := by rw [hone, ht, add_comm]; rfl
  · have hempty : IsEmpty T := not_nonempty_iff.mp hT
    have htop : hops G T v = ⊤ := iInf_of_empty _
    rw [htop]
    exact le_top

theorem le_hops {f : V → ℕ∞} (hzero : ∀ t ∈ T, f t = 0) (hadj : ∀ u v, G.Adj u v → f u ≤ f v + 1) (v : V) :
    f v ≤ hops G T v := by
  have hwalk : ∀ {u t : V} (p : G.Walk u t), t ∈ T → f u ≤ p.length := by
    intro u t p ht
    induction p with
    | nil => rw [hzero _ ht]; exact zero_le
    | @cons u v t h p ih =>
      calc f u ≤ f v + 1 := hadj u v h
        _ ≤ p.length + 1 := by gcongr; exact ih ht
        _ = (SimpleGraph.Walk.cons h p).length := by simp
  apply le_iInf
  intro t
  by_cases htop : G.edist v t = ⊤
  · rw [htop]
    exact le_top
  · obtain ⟨p, hp⟩ := SimpleGraph.exists_walk_of_edist_ne_top htop
    rw [← hp]
    exact hwalk p t.property

/-! Layers: what is not in the set has a neighbour that is one hop nearer. -/

theorem exists_walk_of_hops {v : V} {n : ℕ} (h : hops G T v = n) :
    ∃ t ∈ T, ∃ p : G.Walk v t, p.length = n := by
  have hT : Nonempty T := by
    by_contra hno
    have hempty : IsEmpty T := not_nonempty_iff.mp hno
    have htop : hops G T v = ⊤ := iInf_of_empty _
    rw [h] at htop
    exact ENat.natCast_ne_top n htop
  obtain ⟨t, ht⟩ := ENat.exists_eq_iInf (fun t : T => G.edist v t)
  have hdist : G.edist v t = n := ht.trans h
  have hfinite : G.edist v t ≠ ⊤ := by
    rw [hdist]
    exact ENat.natCast_ne_top n
  obtain ⟨p, hp⟩ := SimpleGraph.exists_walk_of_edist_ne_top hfinite
  refine ⟨t, t.property, p, ?_⟩
  rw [hdist] at hp
  exact_mod_cast hp

theorem hops_eq_zero_iff {v : V} : hops G T v = 0 ↔ v ∈ T := by
  constructor
  · intro h
    obtain ⟨t, ht, p, hp⟩ := exists_walk_of_hops (n := 0) h
    obtain rfl := SimpleGraph.Walk.eq_of_length_eq_zero hp
    exact ht
  · exact hops_of_mem

theorem hops_le_length {v t : V} (ht : t ∈ T) (p : G.Walk v t) : hops G T v ≤ p.length := by
  induction p with
  | nil =>
    rw [hops_of_mem ht]
    exact zero_le
  | @cons u v t h p ih =>
    calc hops G T u ≤ hops G T v + 1 := hops_le_of_adj h
      _ ≤ p.length + 1 := by gcongr; exact ih ht
      _ = (SimpleGraph.Walk.cons h p).length := by simp

theorem exists_adj_of_hops {v : V} {n : ℕ} (h : hops G T v = n + 1) : ∃ w, G.Adj v w ∧ hops G T w = n := by
  obtain ⟨t, ht, p, hp⟩ := exists_walk_of_hops (n := n + 1) h
  cases p with
  | nil => simp at hp
  | @cons u w t hadj q =>
    refine ⟨w, hadj, le_antisymm ?_ ?_⟩
    · rw [SimpleGraph.Walk.length_cons, Nat.add_right_cancel_iff] at hp
      rw [← hp]
      exact hops_le_length ht q
    · have hstep := hops_le_of_adj (T := T) hadj
      rw [h] at hstep
      exact (ENat.add_le_add_iff_right ENat.one_ne_top).mp hstep

theorem le_hops_of_round {f g : V → ℕ∞} {n : ℕ} (hf : ∀ v, hops G T v ≤ n → f v ≤ hops G T v)
    (hzero : ∀ t ∈ T, g t = 0) (hround : ∀ u v, G.Adj u v → g u ≤ f v + 1) (v : V)
    (hv : hops G T v ≤ n + 1) : g v ≤ hops G T v := by
  obtain ⟨m, hm⟩ := ENat.ne_top_iff_exists.mp (ne_top_of_le_ne_top (ENat.natCast_ne_top (n + 1)) hv)
  cases m with
  | zero =>
    rw [hzero v (hops_eq_zero_iff.mp hm.symm)]
    exact zero_le
  | succ m =>
    obtain ⟨w, hadj, hw⟩ := exists_adj_of_hops hm.symm
    have hmn : m ≤ n := by
      rw [← hm] at hv
      exact_mod_cast Nat.le_of_succ_le_succ (ENat.natCast_le_natCast.mp hv)
    calc g v ≤ f w + 1 := hround v w hadj
      _ ≤ hops G T w + 1 := by gcongr; exact hf w (by rw [hw]; exact_mod_cast hmn)
      _ = hops G T v := by rw [hw, ← hm]; rfl

/-- Steps that each come one hop nearer, and lead on from everywhere outside the set, reach it by a shortest walk. -/
theorem exists_walk_of_descent {R : V → V → Prop} {n : ℕ}
    (hnear : ∀ u v, hops G T u ≤ n → R u v → G.Adj u v ∧ hops G T u = hops G T v + 1)
    (hon : ∀ u, hops G T u ≤ n → u ∉ T → ∃ v, R u v) (u : V) (hu : hops G T u ≤ n) :
    ∃ t ∈ T, ∃ p : G.Walk u t, (p.length : ℕ∞) = hops G T u ∧ ∀ a ∈ p.darts, R a.fst a.snd := by
  obtain ⟨m, hm⟩ := ENat.ne_top_iff_exists.mp (ne_top_of_le_ne_top (ENat.natCast_ne_top n) hu)
  induction m generalizing u with
  | zero =>
    refine ⟨u, hops_eq_zero_iff.mp hm.symm, .nil, ?_, ?_⟩
    · rw [← hm]
      rfl
    · intro a ha
      cases ha
  | succ m ih =>
    have hout : u ∉ T := by
      intro hT
      rw [hops_of_mem hT] at hm
      exact absurd hm (by exact_mod_cast Nat.succ_ne_zero m)
    obtain ⟨v, hR⟩ := hon u hu hout
    obtain ⟨hadj, hstep⟩ := hnear u v hu hR
    have hv : (m : ℕ∞) = hops G T v := by
      rw [hstep] at hm
      exact ENat.add_left_injective_of_ne_top ENat.one_ne_top hm
    have hle : hops G T v ≤ n := le_trans (by rw [hstep]; exact le_self_add) hu
    obtain ⟨t, ht, p, hp, hdarts⟩ := ih v hle hv
    refine ⟨t, ht, .cons hadj p, ?_, ?_⟩
    · rw [SimpleGraph.Walk.length_cons, hstep, ← hp]
      rfl
    · intro a ha
      rw [SimpleGraph.Walk.darts_cons, List.mem_cons] at ha
      rcases ha with rfl | ha
      · exact hR
      · exact hdarts a ha

section Rounds

variable {S A : Type}

inductive Rounds (run : S → List A → S) (Round : S → List A → Prop) : ℕ → S → List A → Prop where
  | zero (s : S) (rest : List A) : Rounds run Round 0 s rest
  | succ {n : ℕ} {s : S} {round rest : List A} (h : Round s round) (hrest : Rounds run Round n (run s round) rest) :
      Rounds run Round (n + 1) s (round ++ rest)

/-- Values that grow on no part of the run, and fall by the rule of a round in each, are down to the distance in as many
rounds. -/
theorem le_hops_of_rounds {run : S → List A → S} {Round : S → List A → Prop} {good : S → Prop}
    {kept : S → List A → Prop} {value : S → V → ℕ∞} (happend : ∀ s a b, run s (a ++ b) = run (run s a) b)
    (hkept : ∀ s a b, kept s (a ++ b) → kept s a ∧ kept (run s a) b)
    (hgood : ∀ s as, good s → good (run s as))
    (hfall : ∀ s as, good s → kept s as → ∀ v, value (run s as) v ≤ value s v)
    (hzero : ∀ s, good s → ∀ t ∈ T, value s t = 0)
    (hround : ∀ s as, good s → kept s as → Round s as → ∀ u v, G.Adj u v → value (run s as) u ≤ value s v + 1)
    {n m : ℕ} {s : S} {as : List A} (h : Rounds run Round n s as) (hs : good s) (has : kept s as)
    (hbase : ∀ v, hops G T v ≤ m → value s v ≤ hops G T v) (v : V) (hv : hops G T v ≤ (m + n : ℕ)) :
    value (run s as) v ≤ hops G T v := by
  induction h generalizing m with
  | zero s rest => exact (hfall s rest hs has v).trans (hbase v hv)
  | @succ n s round rest hfirst hrest ih =>
    obtain ⟨hnow, hlater⟩ := hkept s round rest has
    have hnext : ∀ v, hops G T v ≤ (m + 1 : ℕ) → value (run s round) v ≤ hops G T v := by
      intro v hv
      exact le_hops_of_round hbase (hzero _ (hgood s round hs)) (hround s round hs hnow hfirst) v (by exact_mod_cast hv)
    rw [happend]
    apply ih (hgood s round hs) hlater hnext
    rw [Nat.add_assoc, Nat.add_comm 1 n]
    exact hv

end Rounds

end CustomOspf.HopDistance
