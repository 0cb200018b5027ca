import Mathlib.Tactic.Common

/-!
Computations that return a value, fail with an error their caller sees, or
panic. A failure is handed on by every later step, and so is a panic.
-/

namespace CustomOspf

inductive Checked (α : Type) where
  | returned (a : α)
  | failed (message : String)
  | panicked (message : String)

namespace Checked

variable {α β : Type}

def bind : Checked α → (α → Checked β) → Checked β
  | returned a, f => f a
  | failed message, _ => failed message
  | panicked message, _ => panicked message

instance : Monad Checked where
  pure := returned
  bind := bind

/-- `expect` on a result, `unwrap` with the message of the panic. -/
def expect (message : String) : Checked α → Checked α
  | returned a => returned a
  | failed _ => panicked message
  | panicked message => panicked message

def unwrap (message : String) : Option α → Checked α
  | some a => returned a
  | none => panicked message

def Panics (c : Checked α) : Prop := ∃ message, c = panicked message

@[simp] theorem pure_eq (a : α) : (pure a : Checked α) = returned a := rfl

@[simp] theorem returned_bind (a : α) (f : α → Checked β) : (returned a >>= f) = f a := rfl

@[simp] theorem panicked_bind (message : String) (f : α → Checked β) :
    (panicked message >>= f) = panicked message := rfl

@[simp] theorem expect_returned (message : String) (a : α) : (returned a).expect message = returned a := rfl

@[simp] theorem expect_panicked (message message' : String) :
    (panicked message' : Checked α).expect message = panicked message' := rfl

@[simp] theorem not_panics_returned (a : α) : ¬ Panics (returned a) := by
  rintro ⟨message, h⟩
  cases h

@[simp] theorem not_panics_failed (message : String) : ¬ Panics (failed message : Checked α) := by
  rintro ⟨message', h⟩
  cases h

@[simp] theorem panics_panicked (message : String) : Panics (panicked message : Checked α) := ⟨message, rfl⟩

theorem foldlM_returned {step : β → α → Checked β} {f : β → α → β} (h : ∀ b a, step b a = returned (f b a))
    (as : List α) (b : β) : as.foldlM step b = returned (as.foldl f b) := by
  induction as generalizing b with
  | nil => rfl
  | cons a as ih => rw [List.foldlM_cons, h, returned_bind, ih, List.foldl_cons]

theorem foldlM_ite {step : β → α → Checked β} {f : β → α → β} {bad : α → Prop} [DecidablePred bad]
    {message : String} (h : ∀ b a, step b a = if bad a then panicked message else returned (f b a))
    (as : List α) (b : β) :
    as.foldlM step b = if ∃ a ∈ as, bad a then panicked message else returned (as.foldl f b) := by
  induction as generalizing b with
  | nil => simp
  | cons a as ih =>
    rw [List.foldlM_cons, h]
    by_cases hbad : bad a
    · rw [if_pos hbad, panicked_bind, if_pos ⟨a, List.mem_cons_self, hbad⟩]
    · rw [if_neg hbad, returned_bind, ih, List.foldl_cons]
      simp [hbad]

end Checked

end CustomOspf
