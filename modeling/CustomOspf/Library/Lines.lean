import Mathlib.Data.List.Basic

/-!
Streams cut into lines. A reader takes one line after the other from what has
arrived, and what it has read does not depend on the pieces in which it arrived.
-/

namespace CustomOspf.Lines

variable {α : Type} [DecidableEq α] (mark : α)

def Line (line : List α) : Prop := ∃ body, line = body ++ [mark] ∧ mark ∉ body

def next : List α → Option (List α × List α)
  | [] => none
  | a :: as => if a = mark then some ([a], as) else (next as).map (fun r => (a :: r.1, r.2))

def lines : List α → List (List α) × List α
  | [] => ([], [])
  | a :: as =>
    if a = mark then ([a] :: (lines as).1, (lines as).2)
    else match (lines as).1 with
    | [] => ([], a :: (lines as).2)
    | line :: rest => ((a :: line) :: rest, (lines as).2)

variable {mark}

omit [DecidableEq α] in
theorem Line.ne_nil {line : List α} (h : Line mark line) : line ≠ [] := by
  obtain ⟨body, rfl, -⟩ := h
  simp

omit [DecidableEq α] in
theorem Line.cons {line : List α} (h : Line mark line) {a : α} (ha : a ≠ mark) : Line mark (a :: line) := by
  obtain ⟨body, rfl, hbody⟩ := h
  refine ⟨a :: body, rfl, ?_⟩
  rw [List.mem_cons]
  rintro (rfl | hmem)
  · exact ha rfl
  · exact hbody hmem

theorem next_some {as line rest : List α} (h : next mark as = some (line, rest)) :
    Line mark line ∧ as = line ++ rest := by
  induction as generalizing line with
  | nil => cases h
  | cons a as ih =>
    rw [next] at h
    split at h
    · next ha =>
      obtain ⟨rfl, rfl⟩ := Prod.mk.inj (Option.some.inj h)
      exact ⟨⟨[], by rw [ha]; rfl, List.not_mem_nil⟩, rfl⟩
    · next ha =>
      obtain ⟨⟨line', rest'⟩, hnext, hsame⟩ := Option.map_eq_some_iff.mp h
      obtain ⟨rfl, rfl⟩ := Prod.mk.inj hsame
      obtain ⟨hline, rfl⟩ := ih hnext
      exact ⟨hline.cons ha, rfl⟩

theorem next_none {as : List α} (h : next mark as = none) : mark ∉ as := by
  induction as with
  | nil => exact List.not_mem_nil
  | cons a as ih =>
    rw [next] at h
    split at h
    · cases h
    · next ha =>
      rw [List.mem_cons, not_or]
      exact ⟨Ne.symm ha, ih (Option.map_eq_none_iff.mp h)⟩

theorem lines_line {line : List α} (h : Line mark line) (as : List α) :
    lines mark (line ++ as) = (line :: (lines mark as).1, (lines mark as).2) := by
  obtain ⟨body, rfl, hbody⟩ := h
  induction body with
  | nil => simp [lines]
  | cons a body ih =>
    rw [List.mem_cons, not_or] at hbody
    have htail := ih hbody.2
    simp only [List.cons_append] at htail ⊢
    rw [lines, if_neg (Ne.symm hbody.1), htail]

theorem lines_flatten {read : List (List α)} (h : ∀ line ∈ read, Line mark line) :
    lines mark read.flatten = (read, []) := by
  induction read with
  | nil => rfl
  | cons line read ih =>
    rw [List.flatten_cons, lines_line (h line List.mem_cons_self),
      ih (fun l hl => h l (List.mem_cons_of_mem line hl))]

/-- What has been read of a stream. Only the end of the stream ends a line without its mark. -/
structure Reads (mark : α) (stream : List α) (closed : Bool) (read : List (List α)) (unread : List α) : Prop where
  whole : read.flatten ++ unread = stream
  complete : ∀ line ∈ read.dropLast, Line mark line
  last : ∀ line ∈ read.getLast?, Line mark line ∨ (closed = true ∧ unread = [] ∧ line ≠ [] ∧ mark ∉ line)

namespace Reads

variable {stream unread : List α} {closed : Bool} {read : List (List α)}

section Reading

omit [DecidableEq α]

theorem start (mark : α) (closed : Bool) : Reads mark [] closed [] [] :=
  ⟨rfl, fun _ h => absurd h List.not_mem_nil, fun _ h => by cases h⟩

theorem arrive (h : Reads mark stream false read unread) (as : List α) :
    Reads mark (stream ++ as) false read (unread ++ as) := by
  refine ⟨?_, h.complete, ?_⟩
  · rw [← List.append_assoc, h.whole]
  · intro line hline
    rcases h.last line hline with hmark | ⟨hclosed, -⟩
    · exact Or.inl hmark
    · cases hclosed

theorem close (h : Reads mark stream closed read unread) : Reads mark stream true read unread := by
  refine ⟨h.whole, h.complete, ?_⟩
  intro line hline
  rcases h.last line hline with hmark | ⟨-, hrest⟩
  · exact Or.inl hmark
  · exact Or.inr ⟨rfl, hrest⟩

theorem all_lines (h : Reads mark stream closed read unread) (hunread : unread ≠ []) : ∀ line ∈ read, Line mark line := by
  intro line hline
  have hne : read ≠ [] := List.ne_nil_of_mem hline
  rw [← List.dropLast_append_getLast hne, List.mem_append, List.mem_singleton] at hline
  rcases hline with hfront | rfl
  · exact h.complete line hfront
  · rcases h.last _ (List.getLast?_eq_some_getLast hne) with hmark | ⟨-, hnil, -⟩
    · exact hmark
    · exact absurd hnil hunread

end Reading

theorem line {line : List α} {rest : List α} (h : Reads mark stream closed read unread)
    (hnext : next mark unread = some (line, rest)) : Reads mark stream closed (read ++ [line]) rest := by
  obtain ⟨hline, rfl⟩ := next_some hnext
  have hne : line ++ rest ≠ [] := by simp [hline.ne_nil]
  refine ⟨?_, ?_, ?_⟩
  · rw [List.flatten_append, List.flatten_singleton, List.append_assoc, h.whole]
  · rw [List.dropLast_concat]
    exact h.all_lines hne
  · intro l hl
    rw [List.getLast?_concat, Option.mem_some_iff] at hl
    exact Or.inl (hl ▸ hline)

theorem tail (h : Reads mark stream true read unread) (hunread : unread ≠ []) (hnext : next mark unread = none) :
    Reads mark stream true (read ++ [unread]) [] := by
  refine ⟨?_, ?_, ?_⟩
  · rw [List.flatten_append, List.flatten_singleton, List.append_nil, h.whole]
  · rw [List.dropLast_concat]
    exact h.all_lines hunread
  · intro l hl
    rw [List.getLast?_concat, Option.mem_some_iff] at hl
    obtain rfl := hl
    exact Or.inr ⟨rfl, rfl, hunread, next_none hnext⟩

end Reads

end CustomOspf.Lines
