import Mathlib.Data.List.Induction
import Mathlib.Data.Nat.Basic
import Mathlib.Order.Defs.PartialOrder

/-!
A watch on a peer that may fall silent. A pass compares the clock with the time
the peer was last heard, and fires when a peer that was alive is late.
-/

namespace CustomOspf.Watchdog

variable {τ : Type}

structure Watch (τ : Type) where
  lastHeard : τ
  alive : Bool

section Passes

variable (late : τ → τ → Bool)

def pass (w : Watch τ) (now : τ) : Watch τ := { w with alive := !late w.lastHeard now }

def fires (w : Watch τ) (now : τ) : Bool := w.alive && late w.lastHeard now

def passes (w : Watch τ) (nows : List τ) : Watch τ := nows.foldl (pass late) w

def firings : Watch τ → List τ → ℕ
  | _, [] => 0
  | w, now :: nows => (fires late w now).toNat + firings (pass late w now) nows

@[simp] theorem passes_lastHeard (w : Watch τ) (nows : List τ) : (passes late w nows).lastHeard = w.lastHeard := by
  induction nows generalizing w with
  | nil => rfl
  | cons now nows ih => exact ih (pass late w now)

theorem passes_append (w : Watch τ) (nows : List τ) (now : τ) :
    passes late w (nows ++ [now]) = pass late (passes late w nows) now := List.foldl_append

theorem firings_of_dead {w : Watch τ} (hw : w.alive = false) {nows : List τ}
    (hlate : ∀ now ∈ nows, late w.lastHeard now = true) : firings late w nows = 0 := by
  induction nows generalizing w with
  | nil => rfl
  | cons now nows ih =>
    have hnow := hlate now List.mem_cons_self
    have hrest : firings late (pass late w now) nows = 0 := by
      apply ih
      · simp [pass, hnow]
      · intro now' hnow'
        exact hlate now' (List.mem_cons_of_mem now hnow')
    simp [firings, fires, hw, hrest]

end Passes

/-! Passes in the order of the clock, with a peer that is late staying late. -/

section Silence

variable [Preorder τ] {late : τ → τ → Bool}
  (hmono : ∀ last now now', now ≤ now' → late last now = true → late last now' = true)

include hmono

theorem alive_iff {w : Watch τ} (hw : w.alive = true) {nows : List τ} (hsorted : nows.Pairwise (· ≤ ·)) :
    (passes late w nows).alive = false ↔ ∃ now ∈ nows, late w.lastHeard now = true := by
  induction nows using List.reverseRecOn with
  | nil => simp [passes, hw]
  | append_singleton nows now _ =>
    have hlast : (∃ now' ∈ nows ++ [now], late w.lastHeard now' = true) ↔ late w.lastHeard now = true := by
      constructor
      · rintro ⟨now', hmem, hlate⟩
        rcases List.mem_append.mp hmem with hbefore | hself
        · apply hmono _ now' now _ hlate
          exact (List.pairwise_append.mp hsorted).2.2 now' hbefore now (List.mem_singleton_self now)
        · obtain rfl := List.mem_singleton.mp hself
          exact hlate
      · intro hlate
        exact ⟨now, List.mem_append_right _ (List.mem_singleton_self now), hlate⟩
    rw [hlast, passes_append]
    simp [pass]

theorem firings_eq {w : Watch τ} (hw : w.alive = true) {nows : List τ} (hsorted : nows.Pairwise (· ≤ ·)) :
    firings late w nows = if ∃ now ∈ nows, late w.lastHeard now = true then 1 else 0 := by
  induction nows generalizing w with
  | nil => simp [firings]
  | cons now nows ih =>
    obtain ⟨hfirst, hrest⟩ := List.pairwise_cons.mp hsorted
    cases hlate : late w.lastHeard now with
    | true =>
      have hdead : firings late (pass late w now) nows = 0 := by
        apply firings_of_dead
        · simp [pass, hlate]
        · intro now' hnow'
          exact hmono _ now now' (hfirst now' hnow') hlate
      simp [firings, fires, hw, hlate, hdead]
    | false =>
      have halive : (pass late w now).alive = true := by simp [pass, hlate]
      have hsame : (pass late w now).lastHeard = w.lastHeard := rfl
      simp [firings, fires, hlate, ih halive hrest, hsame]

end Silence

/-! Passes and beats that come at regular times, up to a delay. -/

section Clock

/-- Until `now`, every stretch of the given length that begins after `since` has a pass in it. -/
def Punctual (period since now : ℕ) (nows : List ℕ) : Prop :=
  ∀ t, since ≤ t → t + period ≤ now → ∃ time ∈ nows, t < time ∧ time ≤ t + period

theorem Punctual.lt {period since now : ℕ} {nows : List ℕ} (h : Punctual period since now nows) {t : ℕ}
    (hlast : ∀ time ∈ nows, time ≤ t) : now < max since t + period := by
  by_contra hno
  obtain ⟨time, hmem, hlt, -⟩ := h (max since t) (le_max_left since t) (not_lt.mp hno)
  have hle := hlast time hmem
  have hmax := le_max_right since t
  omega

theorem punctual_of_ticks {period delay first now : ℕ} {nows : List ℕ} (hpos : 0 < period)
    (h : ∀ k, first + k * period + delay ≤ now →
      ∃ time ∈ nows, first + k * period ≤ time ∧ time ≤ first + k * period + delay) :
    Punctual (period + delay) first now nows := by
  intro t ht hnow
  let k := (t - first) / period
  have hdiv : k * period ≤ t - first := Nat.div_mul_le_self _ _
  have hmod : t - first < k * period + period := Nat.lt_div_mul_add hpos
  have hnext : (k + 1) * period = k * period + period := Nat.succ_mul k period
  obtain ⟨time, hmem, hlow, hhigh⟩ := h (k + 1) (by omega)
  exact ⟨time, hmem, by omega, by omega⟩

/-- Of any `lost + 1` beats in a row one is heard, at most `delay` after it was due. -/
def Beats (period delay lost first now : ℕ) (heard : ℕ → Prop) : Prop :=
  ∀ k, first + (k + lost) * period + delay < now →
    ∃ time, heard time ∧ first + k * period ≤ time ∧ time ≤ first + (k + lost) * period + delay

theorem Beats.recent {period delay lost first now : ℕ} {heard : ℕ → Prop} (hpos : 0 < period)
    (h : Beats period delay lost first now heard) (hnow : first + lost * period + delay < now) :
    ∃ time, heard time ∧ time < now ∧ now ≤ time + ((lost + 1) * period + delay) := by
  let k := (now - (first + lost * period + delay) - 1) / period
  have hdiv : k * period ≤ now - (first + lost * period + delay) - 1 := Nat.div_mul_le_self _ _
  have hmod : now - (first + lost * period + delay) - 1 < k * period + period := Nat.lt_div_mul_add hpos
  have hsum : (k + lost) * period = k * period + lost * period := Nat.add_mul k lost period
  have hone : (lost + 1) * period = lost * period + period := Nat.succ_mul lost period
  obtain ⟨time, hheard, hlow, hhigh⟩ := h k (by omega)
  exact ⟨time, hheard, by omega, by omega⟩

end Clock

end CustomOspf.Watchdog
