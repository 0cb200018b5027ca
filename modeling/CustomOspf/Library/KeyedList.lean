import Mathlib.Data.List.Nodup
import Mathlib.Data.Fin.Basic

/-!
Lists searched by a key, as a vector of records is searched for the record
with a given field. When the keys are distinct such a list is a finite map.
-/

namespace CustomOspf.KeyedList

variable {α β : Type} [DecidableEq β] {key : α → β}

def Distinct (key : α → β) (l : List α) : Prop := (l.map key).Nodup

theorem position_split {b : β} {l : List α} {i : Fin l.length}
    (h : l.findFinIdx? (fun a => key a = b) = some i) :
    ∃ as e bs, l = as ++ e :: bs ∧ l.get i = e ∧ key e = b ∧ (∀ a ∈ as, key a ≠ b) ∧
      (∀ a, l.set i a = as ++ a :: bs) ∧ l.eraseIdx i = as ++ bs := by
  obtain ⟨hi, hmin⟩ := List.findFinIdx?_eq_some_iff.mp h
  refine ⟨l.take i, l.get i, l.drop (i + 1), ?_, rfl, by simpa using hi, ?_, ?_, ?_⟩
  · rw [List.get_eq_getElem, ← List.drop_eq_getElem_cons i.isLt, List.take_append_drop]
  · intro a ha
    obtain ⟨j, hj, rfl⟩ := List.mem_take_iff_getElem.mp ha
    have hji : j < i := by omega
    simpa using hmin ⟨j, by omega⟩ hji
  · intro a
    rw [List.set_eq_take_append_cons_drop, if_pos i.isLt]
  · exact List.eraseIdx_eq_take_drop_succ l i

theorem find_of_position {b : β} {l : List α} {i : Fin l.length}
    (h : l.findFinIdx? (fun a => key a = b) = some i) :
    l.find? (fun a => key a = b) = some (l.get i) := by
  obtain ⟨as, e, bs, hl, hi, hk, has, -⟩ := position_split h
  rw [hi]
  refine List.find?_eq_some_iff_append.mpr ⟨by simpa using hk, as, bs, hl, ?_⟩
  intro a ha
  simpa using has a ha

theorem find_of_no_position {b : β} {l : List α}
    (h : l.findFinIdx? (fun a => key a = b) = none) : l.find? (fun a => key a = b) = none := by
  rw [List.find?_eq_none]
  exact List.findFinIdx?_eq_none_iff.mp h

theorem find_append_new {a : α} {l : List α} (h : l.find? (fun x => key x = key a) = none) (b : β) :
    (l ++ [a]).find? (fun x => key x = b) =
      if key a = b then some a else l.find? (fun x => key x = b) := by
  rw [List.find?_append]
  by_cases hb : key a = b
  · subst hb
    simp [h]
  · simp [hb]

theorem find_set {a : α} {l : List α} {i : Fin l.length}
    (h : l.findFinIdx? (fun x => key x = key a) = some i) (b : β) :
    (l.set i a).find? (fun x => key x = b) =
      if key a = b then some a else l.find? (fun x => key x = b) := by
  obtain ⟨as, e, bs, hl, -, hk, has, hset, -⟩ := position_split h
  rw [hset, List.find?_append]
  by_cases hb : key a = b
  · subst hb
    have hnone : as.find? (fun x => key x = key a) = none := by
      rw [List.find?_eq_none]
      intro x hx
      simpa using has x hx
    simp [hnone]
  · rw [if_neg hb, hl, List.find?_append, List.find?_cons_of_neg (by simpa using hb),
      List.find?_cons_of_neg (by simpa [hk] using hb)]

theorem find_eraseIdx {l : List α} {i : Fin l.length} {c : β} (hd : Distinct key l)
    (h : l.findFinIdx? (fun x => key x = c) = some i) (b : β) :
    (l.eraseIdx i).find? (fun x => key x = b) =
      if c = b then none else l.find? (fun x => key x = b) := by
  obtain ⟨as, e, bs, hl, -, hk, has, -, herase⟩ := position_split h
  rw [herase, List.find?_append]
  by_cases hb : c = b
  · subst hb
    -- the erased element was the only one with its key
    have hbs : ∀ x ∈ bs, key x ≠ c := by
      intro x hx he
      rw [Distinct, hl, List.map_append, List.map_cons, hk] at hd
      have hnot := (List.nodup_cons.mp (List.nodup_append.mp hd).2.1).1
      exact hnot (List.mem_map.mpr ⟨x, hx, he⟩)
    rw [if_pos rfl, Option.or_eq_none_iff]
    constructor <;> rw [List.find?_eq_none] <;> intro x hx
    · simpa using has x hx
    · simpa using hbs x hx
  · rw [if_neg hb, hl, List.find?_append, List.find?_cons_of_neg (by simpa [hk] using hb)]

theorem Distinct.append_new {a : α} {l : List α} (hd : Distinct key l)
    (h : l.find? (fun x => key x = key a) = none) : Distinct key (l ++ [a]) := by
  rw [List.find?_eq_none] at h
  rw [Distinct, List.map_append, List.nodup_append]
  refine ⟨hd, by simp, ?_⟩
  intro b hb c hc
  obtain ⟨x, hx, rfl⟩ := List.mem_map.mp hb
  obtain rfl : c = key a := by simpa using hc
  simpa using h x hx

theorem Distinct.set {a : α} {l : List α} {i : Fin l.length} (hd : Distinct key l)
    (h : l.findFinIdx? (fun x => key x = key a) = some i) : Distinct key (l.set i a) := by
  obtain ⟨as, e, bs, hl, -, hk, -, hset, -⟩ := position_split h
  rw [Distinct, hset]
  rw [Distinct, hl] at hd
  simpa [hk] using hd

omit [DecidableEq β] in
theorem Distinct.eraseIdx {l : List α} (hd : Distinct key l) (i : ℕ) :
    Distinct key (l.eraseIdx i) :=
  hd.sublist ((List.eraseIdx_sublist l i).map key)

theorem mem_iff_find {l : List α} (hd : Distinct key l) {a : α} :
    a ∈ l ↔ l.find? (fun x => key x = key a) = some a := by
  constructor
  · intro ha
    obtain ⟨as, bs, rfl⟩ := List.append_of_mem ha
    refine List.find?_eq_some_iff_append.mpr ⟨by simp, as, bs, rfl, ?_⟩
    intro x hx
    rw [Distinct, List.map_append, List.nodup_append] at hd
    have hne := hd.2.2 (key x) (List.mem_map_of_mem hx) (key a) (by simp)
    simpa using hne
  · exact List.mem_of_find?_eq_some

theorem find_iff {l : List α} (hd : Distinct key l) {a : α} {b : β} :
    l.find? (fun x => key x = b) = some a ↔ a ∈ l ∧ key a = b := by
  constructor
  · intro h
    exact ⟨List.mem_of_find?_eq_some h, by simpa using List.find?_some h⟩
  · rintro ⟨ha, rfl⟩
    exact (mem_iff_find hd).mp ha

end CustomOspf.KeyedList

namespace CustomOspf.IndexedRemoval

variable {α : Type} (p : α → Bool)

def positions (l : List α) : List ℕ := (l.zipIdx.filter (fun x => p x.1)).map Prod.snd

theorem positions_cons (a : α) (l : List α) :
    positions p (a :: l) = (if p a then [0] else []) ++ (positions p l).map Nat.succ := by
  simp only [positions, List.zipIdx_cons, Nat.zero_add, List.zipIdx_succ, List.filter_cons,
    List.filter_map, List.map_map]
  cases p a <;> simp [Function.comp_def]

theorem pairwise_positions (l : List α) : (positions p l).Pairwise (· < ·) := by
  have hsub : (positions p l).Sublist (l.zipIdx.map Prod.snd) := List.filter_sublist.map Prod.snd
  rw [List.zipIdx_map_snd] at hsub
  exact List.Pairwise.sublist hsub (List.pairwise_lt_range' _)

theorem mem_positions {l : List α} {i : ℕ} : i ∈ positions p l ↔ ∃ a, l[i]? = some a ∧ p a = true := by
  simp [positions, List.mem_zipIdx_iff_getElem?]

def removeAt {σ : Type} (f : σ → α → σ) (s : List α × σ) (i : ℕ) : List α × σ :=
  match s.1[i]? with
  | some a => (s.1.eraseIdx i, f s.2 a)
  | none => s

theorem removeAt_cons_succ {σ : Type} (f : σ → α → σ) (a : α) (s : List α × σ) (i : ℕ) :
    removeAt f (a :: s.1, s.2) (i + 1) = (a :: (removeAt f s i).1, (removeAt f s i).2) := by
  cases h : s.1[i]? <;> simp [removeAt, h]

theorem removeAt_positions {σ : Type} (f : σ → α → σ) (l : List α) (s : σ) :
    (positions p l).reverse.foldl (removeAt f) (l, s) =
      (l.filter (fun a => !p a), (l.filter p).reverse.foldl f s) := by
  have hshift (a : α) (is : List ℕ) (l : List α) :
      (is.map Nat.succ).foldr (fun i s => removeAt f s i) (a :: l, s) =
        (a :: (is.foldr (fun i s => removeAt f s i) (l, s)).1,
          (is.foldr (fun i s => removeAt f s i) (l, s)).2) := by
    induction is with
    | nil => rfl
    | cons i is ih =>
      simp only [List.map_cons, List.foldr_cons]
      rw [ih, Nat.succ_eq_add_one, removeAt_cons_succ]
  simp only [List.foldl_reverse]
  induction l with
  | nil => rfl
  | cons a l ih =>
    rw [positions_cons, List.foldr_append, hshift, ih]
    by_cases ha : p a <;> simp [ha, removeAt]

end CustomOspf.IndexedRemoval
