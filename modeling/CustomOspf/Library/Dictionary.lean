import Mathlib.Data.List.AList

/-!
Finite maps with the operations a hash map offers to a loop: a batch of
insertions, a batch of removals, and a pass that rewrites every value.
-/

namespace CustomOspf

abbrev Dictionary (K V : Type) := AList (fun _ : K => V)

namespace Dictionary

variable {K V W : Type} [DecidableEq K]

def mapValues (f : V → W) (d : Dictionary K V) : Dictionary K W :=
  ⟨d.entries.map (Sigma.map id fun _ => f), d.nodupKeys.map₂ fun _ => f⟩

@[simp] theorem lookup_mapValues (f : V → W) (d : Dictionary K V) (k : K) :
    (d.mapValues f).lookup k = (d.lookup k).map f :=
  List.dlookup_map₂ (f := fun _ => f) k

theorem mem_entries {d : Dictionary K V} {k : K} {v : V} :
    (⟨k, v⟩ : Σ _ : K, V) ∈ d.entries ↔ d.lookup k = some v := AList.mem_lookup_iff.symm

theorem eq_empty {d : Dictionary K V} (h : ∀ k v, d.lookup k ≠ some v) : d = ∅ := by
  apply AList.ext
  apply List.eq_nil_iff_forall_not_mem.mpr
  rintro ⟨k, v⟩ hmem
  exact h k v (mem_entries.mp hmem)

theorem length_le_one {d : Dictionary K V}
    (h : ∀ k k' v v', d.lookup k = some v → d.lookup k' = some v' → k = k') : d.entries.length ≤ 1 := by
  obtain ⟨entries, hnodup⟩ := d
  match entries, hnodup with
  | [], _ => exact Nat.zero_le 1
  | [_], _ => exact le_rfl
  | ⟨k, v⟩ :: ⟨k', v'⟩ :: rest, hnodup =>
    have hk : k = k' := by
      apply h k k' v v'
      · exact mem_entries.mp List.mem_cons_self
      · exact mem_entries.mp (List.mem_cons_of_mem _ List.mem_cons_self)
    have hne := (List.nodup_cons.mp hnodup).1
    simp [hk] at hne

def insertAll (d : Dictionary K V) (ps : List (K × V)) : Dictionary K V :=
  ps.foldl (fun m p => m.insert p.1 p.2) d

@[simp] theorem insertAll_nil (d : Dictionary K V) : d.insertAll [] = d := rfl

@[simp] theorem insertAll_cons (d : Dictionary K V) (p : K × V) (ps : List (K × V)) :
    d.insertAll (p :: ps) = insertAll (AList.insert p.1 p.2 d) ps := rfl

theorem lookup_insertAll {d : Dictionary K V} {ps : List (K × V)} {k : K} {v : V}
    (h : (d.insertAll ps).lookup k = some v) : (k, v) ∈ ps ∨ k ∉ ps.map Prod.fst ∧ d.lookup k = some v := by
  induction ps generalizing d with
  | nil => exact Or.inr ⟨by simp, h⟩
  | cons p ps ih =>
    rcases ih h with hps | ⟨hk, hd⟩
    · exact Or.inl (List.mem_cons_of_mem p hps)
    · by_cases hkp : k = p.1
      · subst hkp
        rw [AList.lookup_insert] at hd
        obtain rfl := Option.some.inj hd
        exact Or.inl List.mem_cons_self
      · rw [AList.lookup_insert_ne hkp] at hd
        exact Or.inr ⟨by simpa using ⟨hkp, by simpa using hk⟩, hd⟩

theorem lookup_insertAll_of_notMem {d : Dictionary K V} {ps : List (K × V)} {k : K}
    (h : k ∉ ps.map Prod.fst) : (d.insertAll ps).lookup k = d.lookup k := by
  induction ps generalizing d with
  | nil => rfl
  | cons p ps ih =>
    simp only [List.map_cons, List.mem_cons, not_or] at h
    rw [insertAll_cons, ih h.2, AList.lookup_insert_ne h.1]

theorem lookup_insertAll_of_mem {d : Dictionary K V} {ps : List (K × V)} {k : K}
    (h : k ∈ ps.map Prod.fst) : ∃ v, (k, v) ∈ ps ∧ (d.insertAll ps).lookup k = some v := by
  induction ps generalizing d with
  | nil => simp at h
  | cons p ps ih =>
    by_cases hk : k ∈ ps.map Prod.fst
    · obtain ⟨v, hv, hl⟩ := ih (d := AList.insert p.1 p.2 d) hk
      exact ⟨v, List.mem_cons_of_mem p hv, hl⟩
    · obtain rfl : k = p.1 := by simpa [hk] using h
      refine ⟨p.2, List.mem_cons_self, ?_⟩
      rw [insertAll_cons, lookup_insertAll_of_notMem hk, AList.lookup_insert]

def eraseAll (d : Dictionary K V) (ks : List K) : Dictionary K V := ks.foldl (fun m k => m.erase k) d

theorem lookup_erase_some {d : Dictionary K V} {k k' : K} {v : V} (h : (d.erase k').lookup k = some v) :
    k ≠ k' ∧ d.lookup k = some v := by
  by_cases hk : k = k'
  · subst hk
    rw [AList.lookup_erase] at h
    cases h
  · rw [AList.lookup_erase_ne hk] at h
    exact ⟨hk, h⟩

theorem lookup_eraseAll {d : Dictionary K V} {ks : List K} {k : K} {v : V} (h : (d.eraseAll ks).lookup k = some v) :
    d.lookup k = some v := by
  induction ks generalizing d with
  | nil => exact h
  | cons k' ks ih => exact (lookup_erase_some (ih h)).2

end Dictionary

end CustomOspf
