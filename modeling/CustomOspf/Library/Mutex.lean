import Mathlib.Logic.Function.Basic

/-!
Clients of one lock. A client inside its critical section holds the lock, so two
clients are never inside at once.
-/

namespace CustomOspf.Mutex

variable {ι φ : Type} {inside : φ → Prop} {phases : ι → φ} {holder : Option ι}

def Exclusive (inside : φ → Prop) (phases : ι → φ) (holder : Option ι) : Prop :=
  ∀ c, inside (phases c) → holder = some c

theorem Exclusive.unique (h : Exclusive inside phases holder) {c d : ι} (hc : inside (phases c))
    (hd : inside (phases d)) : c = d := Option.some.inj ((h c hc).symm.trans (h d hd))

theorem Exclusive.outside (h : ∀ c, ¬ inside (phases c)) : Exclusive inside phases holder :=
  fun c hc => absurd hc (h c)

variable [DecidableEq ι]

theorem Exclusive.move (h : Exclusive inside phases holder) {c : ι} {phase : φ}
    (hphase : inside phase → inside (phases c)) : Exclusive inside (Function.update phases c phase) holder := by
  intro d hd
  by_cases hdc : d = c
  · subst hdc
    rw [Function.update_self] at hd
    exact h d (hphase hd)
  · rw [Function.update_of_ne hdc] at hd
    exact h d hd

theorem Exclusive.acquire (h : Exclusive inside phases none) (c : ι) (phase : φ) :
    Exclusive inside (Function.update phases c phase) (some c) := by
  intro d hd
  by_cases hdc : d = c
  · rw [hdc]
  · rw [Function.update_of_ne hdc] at hd
    cases h d hd

theorem Exclusive.release (h : Exclusive inside phases holder) {c : ι} (hc : inside (phases c)) {phase : φ}
    (hphase : ¬ inside phase) : Exclusive inside (Function.update phases c phase) none := by
  intro d hd
  by_cases hdc : d = c
  · subst hdc
    rw [Function.update_self] at hd
    exact absurd hd hphase
  · rw [Function.update_of_ne hdc] at hd
    exact absurd (h.unique hd hc) hdc

end CustomOspf.Mutex
