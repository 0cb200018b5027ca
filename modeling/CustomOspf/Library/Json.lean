import Mathlib.Data.List.AList
import Mathlib.Data.UInt

/-!
Codecs of compact JSON text: a writer and a reader which, on what the writer
wrote, gives the value back and leaves what follows it.
-/

namespace CustomOspf.Json

/-- What may follow a value: anything but a further digit. -/
def Breaks (rest : List Char) : Prop := ∀ c ∈ rest.head?, c.isDigit = false

structure Codec (α : Type) where
  write : α → List Char
  read : List Char → Option (α × List Char)
  read_write (a : α) {rest : List Char} (h : Breaks rest) : read (write a ++ rest) = some (a, rest)

theorem breaks_cons {c : Char} (h : c.isDigit = false) (rest : List Char) : Breaks (c :: rest) := by
  intro d hd
  obtain rfl := Option.some.inj hd
  exact h

theorem breaks_append {mark : List Char} (hne : mark ≠ []) (h : Breaks mark) (rest : List Char) :
    Breaks (mark ++ rest) := by
  cases mark with
  | nil => exact absurd rfl hne
  | cons c mark => exact h

theorem isPrefixOf?_append (mark rest : List Char) : mark.isPrefixOf? (mark ++ rest) = some rest := by
  induction mark with
  | nil => rfl
  | cons c mark ih => simp [List.isPrefixOf?, ih]

namespace Codec

variable {α β : Type}

def map (f : α → β) (g : β → α) (hfg : ∀ b, f (g b) = b) (a : Codec α) : Codec β where
  write b := a.write (g b)
  read cs := (a.read cs).map (fun r => (f r.1, r.2))
  read_write b rest h := by rw [a.read_write (g b) h, Option.map_some, hfg]

def pair (mark : List Char) (hne : mark ≠ []) (hmark : Breaks mark) (a : Codec α) (b : Codec β) :
    Codec (α × β) where
  write p := a.write p.1 ++ (mark ++ b.write p.2)
  read cs := do
    let (x, cs) ← a.read cs
    let cs ← mark.isPrefixOf? cs
    let (y, cs) ← b.read cs
    some ((x, y), cs)
  read_write p rest h := by
    have hfirst := a.read_write p.1 (breaks_append hne hmark (b.write p.2 ++ rest))
    simp only [List.append_assoc, hfirst, isPrefixOf?_append, b.read_write p.2 h, Option.bind_eq_bind,
      Option.bind_some]

def enclosed (before after : List Char) (hne : after ≠ []) (hafter : Breaks after) (a : Codec α) : Codec α where
  write x := before ++ (a.write x ++ after)
  read cs := do
    let cs ← before.isPrefixOf? cs
    let (x, cs) ← a.read cs
    let cs ← after.isPrefixOf? cs
    some (x, cs)
  read_write x rest h := by
    have hread := a.read_write x (breaks_append hne hafter rest)
    simp only [List.append_assoc, isPrefixOf?_append, hread, Option.bind_eq_bind, Option.bind_some]

def bool : Codec Bool where
  write b := if b then "true".toList else "false".toList
  read cs :=
    match "true".toList.isPrefixOf? cs with
    | some cs => some (true, cs)
    | none => ("false".toList.isPrefixOf? cs).map (fun cs => (false, cs))
  read_write b rest h := by
    cases b with
    | true => simp only [if_true, isPrefixOf?_append]
    | false =>
      have hnot : "true".toList.isPrefixOf? ("false".toList ++ rest) = none := rfl
      simp only [Bool.false_eq_true, if_false, hnot, isPrefixOf?_append, Option.map_some]

def nat : Codec ℕ where
  write n := Nat.toDigits 10 n
  read cs :=
    let digits := cs.takeWhile Char.isDigit
    if digits = [] then none else some (Nat.ofDigitChars 10 digits 0, cs.dropWhile Char.isDigit)
  read_write n rest h := by
    have hdigits : ∀ c ∈ Nat.toDigits 10 n, c.isDigit = true :=
      fun _ hc => Nat.isDigit_of_mem_toDigits (by omega) (by omega) hc
    have hstop : rest.takeWhile Char.isDigit = [] ∧ rest.dropWhile Char.isDigit = rest := by
      cases rest with
      | nil => exact ⟨rfl, rfl⟩
      | cons c cs => simp [h c rfl]
    rw [List.takeWhile_append_of_pos hdigits, List.dropWhile_append_of_pos hdigits, hstop.1, hstop.2,
      List.append_nil]
    simp

end Codec

-- the letter after the backslash, and the character it stands for
def shortEscapes : List (Char × Char) :=
  [('"', '"'), ('\\', '\\'), ('b', '\x08'), ('f', '\x0c'), ('n', '\n'), ('r', '\r'), ('t', '\t')]

def escape (c : Char) : List Char :=
  match shortEscapes.find? (fun e => e.2 = c) with
  | some e => ['\\', e.1]
  | none =>
    if c.toNat < 32 then ['\\', 'u', '0', '0', (c.toNat / 16).digitChar, (c.toNat % 16).digitChar] else [c]

def hexValue (c : Char) : Option ℕ := (List.range 16).find? (fun n => n.digitChar = c)

def readEscape : List Char → Option (Char × List Char)
  | 'u' :: a :: b :: c :: d :: cs => do
    let a ← hexValue a
    let b ← hexValue b
    let c ← hexValue c
    let d ← hexValue d
    some (Char.ofNat (((a * 16 + b) * 16 + c) * 16 + d), cs)
  | letter :: cs => (shortEscapes.find? (fun e => e.1 = letter)).map (fun e => (e.2, cs))
  | [] => none

def readChar : List Char → Option (Char × List Char)
  | [] => none
  | c :: cs => if c = '\\' then readEscape cs else some (c, cs)

def readText : ℕ → List Char → Option (List Char × List Char)
  | 0, _ => none
  | fuel + 1, cs =>
    if cs.head? = some '"' then some ([], cs.tail)
    else do
      let (c, cs) ← readChar cs
      let (text, cs) ← readText fuel cs
      some (c :: text, cs)

theorem hexValue_digitChar {n : ℕ} (hn : n < 16) : hexValue n.digitChar = some n := by
  have hall : ∀ n < 16, hexValue n.digitChar = some n := by decide +kernel
  exact hall n hn

theorem readChar_escape (c : Char) (rest : List Char) :
    readChar (escape c ++ rest) = some (c, rest) ∧ (escape c ++ rest).head? ≠ some '"' := by
  unfold escape
  cases he : shortEscapes.find? (fun e => e.2 = c) with
  | some e =>
    have hshort : ∀ e ∈ shortEscapes, ∀ rest, readEscape (e.1 :: rest) = some (e.2, rest) := by
      intro e hmem rest
      simp only [shortEscapes, List.mem_cons, List.not_mem_nil, or_false] at hmem
      rcases hmem with rfl | rfl | rfl | rfl | rfl | rfl | rfl <;> rfl
    have hc : e.2 = c := by simpa using List.find?_some he
    refine ⟨?_, by simp⟩
    rw [← hc]
    exact hshort e (List.mem_of_find?_eq_some he) rest
  | none =>
    by_cases hcontrol : c.toNat < 32
    · have hzero : hexValue '0' = some 0 := hexValue_digitChar (n := 0) (by omega)
      have hhigh := hexValue_digitChar (n := c.toNat / 16) (by omega)
      have hlow := hexValue_digitChar (n := c.toNat % 16) (by omega)
      have hvalue : ((0 * 16 + 0) * 16 + c.toNat / 16) * 16 + c.toNat % 16 = c.toNat := by omega
      rw [if_pos hcontrol]
      refine ⟨?_, by simp⟩
      simp only [List.cons_append, List.nil_append, readChar, if_true, readEscape, hzero, hhigh, hlow,
        Option.bind_eq_bind, Option.bind_some, hvalue, Char.ofNat_toNat]
    · rw [if_neg hcontrol]
      have hnot : ∀ e ∈ shortEscapes, e.2 ≠ c := by simpa using List.find?_eq_none.mp he
      have hquote : c ≠ '"' := fun h => hnot ('"', '"') (by decide) h.symm
      have hback : c ≠ '\\' := fun h => hnot ('\\', '\\') (by decide) h.symm
      exact ⟨by simp [readChar, hback], by simpa using hquote⟩

theorem readText_escape (text : List Char) {fuel : ℕ} (hfuel : text.length < fuel) (rest : List Char) :
    readText fuel (text.flatMap escape ++ '"' :: rest) = some (text, rest) := by
  induction text generalizing fuel with
  | nil =>
    obtain ⟨fuel, rfl⟩ : ∃ n, fuel = n + 1 := ⟨fuel - 1, by omega⟩
    rfl
  | cons c text ih =>
    rw [List.length_cons] at hfuel
    obtain ⟨fuel, rfl⟩ : ∃ n, fuel = n + 1 := ⟨fuel - 1, by omega⟩
    obtain ⟨hread, hhead⟩ := readChar_escape c (text.flatMap escape ++ '"' :: rest)
    rw [List.flatMap_cons, List.append_assoc, readText, if_neg hhead, hread]
    simp only [Option.bind_eq_bind, Option.bind_some, ih (by omega : text.length < fuel)]

theorem length_le_escape (text : List Char) : text.length ≤ (text.flatMap escape).length := by
  induction text with
  | nil => rfl
  | cons c text ih =>
    have hpos : 0 < (escape c).length := by
      unfold escape
      split
      · simp
      · split <;> simp
    rw [List.flatMap_cons, List.length_append, List.length_cons]
    omega

def Codec.string : Codec String where
  write s := '"' :: (s.toList.flatMap escape ++ ['"'])
  read cs := if cs.head? = some '"' then (readText cs.length cs.tail).map (fun r => (String.ofList r.1, r.2)) else none
  read_write s rest h := by
    have hlen := length_le_escape s.toList
    have hfuel : s.toList.length < ('"' :: (s.toList.flatMap escape ++ ['"']) ++ rest).length := by
      rw [List.length_append, List.length_cons, List.length_append]
      omega
    have hread := readText_escape s.toList hfuel rest
    simp only [List.cons_append, List.append_assoc, List.nil_append, List.head?_cons, if_true, List.tail_cons] at hread ⊢
    rw [hread, Option.map_some, String.ofList_toList]

theorem escape_line (c : Char) : '\n' ∉ escape c := by
  unfold escape
  cases he : shortEscapes.find? (fun e => e.2 = c) with
  | some e =>
    have hletters : ∀ e ∈ shortEscapes, '\n' ∉ ['\\', e.1] := by decide
    exact hletters e (List.mem_of_find?_eq_some he)
  | none =>
    have hhex : ∀ n < 16, n.digitChar ≠ '\n' := by decide
    dsimp only
    split_ifs with hcontrol
    · have hhigh := hhex (c.toNat / 16) (by omega)
      have hlow := hhex (c.toNat % 16) (by omega)
      simp [hhigh.symm, hlow.symm]
    · have hnot := List.find?_eq_none.mp he ('n', '\n') (by decide)
      simpa using hnot

theorem Codec.string_line (text : String) : '\n' ∉ Codec.string.write text := by
  have hescaped : '\n' ∉ text.toList.flatMap escape := by
    rw [List.mem_flatMap]
    rintro ⟨c, -, hc⟩
    exact escape_line c hc
  simp [Codec.string, hescaped]

section Items

variable {α : Type}

def writeItems (item : α → List Char) (close : Char) : List α → List Char
  | [] => [close]
  | a :: as => ',' :: (item a ++ writeItems item close as)

def readItems (item : List Char → Option (α × List Char)) (close : Char) : ℕ → List Char → Option (List α × List Char)
  | 0, _ => none
  | _ + 1, [] => none
  | fuel + 1, c :: cs =>
    if c = close then some ([], cs)
    else if c = ',' then do
      let (a, cs) ← item cs
      let (as, cs) ← readItems item close fuel cs
      some (a :: as, cs)
    else none

theorem breaks_writeItems (item : α → List Char) {close : Char} (hclose : close.isDigit = false) (as : List α)
    (rest : List Char) : Breaks (writeItems item close as ++ rest) := by
  cases as with
  | nil => exact breaks_cons hclose rest
  | cons a as => exact breaks_cons rfl _

theorem length_lt_writeItems (item : α → List Char) (close : Char) (as : List α) :
    as.length < (writeItems item close as).length := by
  induction as with
  | nil => exact Nat.zero_lt_one
  | cons a as ih =>
    rw [writeItems, List.length_cons, List.length_cons, List.length_append]
    omega

theorem readItems_writeItems (item : Codec α) {close : Char} (hclose : close.isDigit = false) (hcomma : close ≠ ',')
    (as : List α) {fuel : ℕ} (hfuel : as.length < fuel) (rest : List Char) :
    readItems item.read close fuel (writeItems item.write close as ++ rest) = some (as, rest) := by
  induction as generalizing fuel with
  | nil =>
    obtain ⟨fuel, rfl⟩ : ∃ n, fuel = n + 1 := ⟨fuel - 1, by omega⟩
    simp [writeItems, readItems]
  | cons a as ih =>
    rw [List.length_cons] at hfuel
    obtain ⟨fuel, rfl⟩ : ∃ n, fuel = n + 1 := ⟨fuel - 1, by omega⟩
    have hread := item.read_write a (breaks_writeItems item.write hclose as rest)
    rw [writeItems, List.cons_append, List.append_assoc, readItems, if_neg hcomma.symm, if_pos rfl, hread]
    simp only [Option.bind_eq_bind, Option.bind_some, ih (by omega : as.length < fuel)]

def Codec.list (opening close : Char) (hclose : close.isDigit = false) (hcomma : close ≠ ',') (item : Codec α)
    (hitem : ∀ a rest, (item.write a ++ rest).head? ≠ some close) : Codec (List α) where
  write as := opening :: (if as.isEmpty then [close] else (writeItems item.write close as).tail)
  read cs :=
    if cs.head? = some opening then
      if cs.tail.head? = some close then some ([], cs.tail.tail)
      else readItems item.read close (cs.length + 1) (',' :: cs.tail)
    else none
  read_write as rest h := by
    cases as with
    | nil => simp
    | cons a as =>
      have hlen := length_lt_writeItems item.write close as
      have hfuel : (a :: as).length < (opening :: (item.write a ++ writeItems item.write close as ++ rest)).length + 1 := by
        simp only [List.length_cons, List.length_append]
        omega
      have hread := readItems_writeItems item hclose hcomma (a :: as) hfuel rest
      have hne := hitem a (writeItems item.write close as ++ rest)
      simp only [List.isEmpty_cons, Bool.false_eq_true, if_false, writeItems, List.tail_cons, List.cons_append,
        List.append_assoc, List.head?_cons, if_true] at hread ⊢
      rw [if_neg hne]
      exact hread

def Codec.array (item : Codec α) (hitem : ∀ a rest, (item.write a ++ rest).head? ≠ some ']') : Codec (List α) :=
  item.list '[' ']' rfl (by decide) hitem

end Items

def toDictionary (entries : List (String × String)) : AList (fun _ : String => String) :=
  if h : (entries.map (fun e => (⟨e.1, e.2⟩ : Σ _ : String, String))).keys.Nodup then ⟨_, h⟩ else ∅

theorem toDictionary_entries (d : AList (fun _ : String => String)) :
    toDictionary (d.entries.map (fun e => (e.1, e.2))) = d := by
  have hsame : (d.entries.map (fun e => (e.1, e.2))).map (fun e => (⟨e.1, e.2⟩ : Σ _ : String, String)) =
      d.entries := by
    simp [Function.comp_def]
  unfold toDictionary
  rw [dif_pos (by rw [hsame]; exact d.nodupKeys)]
  exact AList.ext hsame

def Codec.dictionary : Codec (AList (fun _ : String => String)) :=
  Codec.map toDictionary (fun d => d.entries.map (fun e => (e.1, e.2))) toDictionary_entries
    (Codec.list '{' '}' rfl (by decide)
      (Codec.pair [':'] (List.cons_ne_nil _ _) (breaks_cons rfl []) Codec.string Codec.string)
      (by intro a rest; simp [Codec.pair, Codec.string]))

/-! Objects. Nothing after the closing brace belongs to them, and nothing before it is one. -/

section Objects

variable {α β : Type}

def Codec.object (first : String) (fields : Codec α) : Codec α :=
  Codec.enclosed ("\x7b\"" ++ first ++ "\":").toList ['}'] (List.cons_ne_nil _ _) (breaks_cons rfl []) fields

def Codec.field (name : String) (before : Codec α) (value : Codec β) : Codec (α × β) :=
  Codec.pair (',' :: ("\"" ++ name ++ "\":").toList) (List.cons_ne_nil _ _) (breaks_cons rfl _) before value

def Closed (codec : Codec α) : Prop :=
  ∀ a, (∃ inner, codec.write a = inner ++ ['}']) ∧
    ∀ rest, codec.read (codec.write a ++ rest) = some (a, rest)

theorem closed_object (first : String) (fields : Codec α) : Closed (Codec.object first fields) := by
  intro a
  refine ⟨⟨("\x7b\"" ++ first ++ "\":").toList ++ fields.write a, ?_⟩, ?_⟩
  · simp only [Codec.object, Codec.enclosed, List.append_assoc]
  · intro rest
    have hread := fields.read_write a (@breaks_cons '}' rfl rest)
    simp only [Codec.object, Codec.enclosed, List.append_assoc, List.cons_append, List.nil_append,
      isPrefixOf?_append, hread, Option.bind_eq_bind, Option.bind_some, List.isPrefixOf?, beq_self_eq_true, if_true]

theorem Closed.map {codec : Codec α} (h : Closed codec) {f : α → β} {g : β → α} (hfg : ∀ b, f (g b) = b) :
    Closed (codec.map f g hfg) := by
  intro b
  obtain ⟨hlast, hread⟩ := h (g b)
  refine ⟨hlast, ?_⟩
  intro rest
  simp only [Codec.map, hread rest, Option.map_some, hfg]

/-- Cut text is no text of a closed object, whatever copies of another character follow it. -/
theorem Closed.write_ne {codec : Codec α} (h : Closed codec) (a a' : α) {n : ℕ}
    (hn : n < (codec.write a).length) {c : Char} (hc : c ≠ '}') (k : ℕ) :
    codec.write a' ≠ (codec.write a).take n ++ List.replicate k c := by
  intro he
  cases k with
  | zero =>
    rw [List.replicate_zero, List.append_nil] at he
    have hwhole : codec.write a' ++ (codec.write a).drop n = codec.write a := by
      rw [he, List.take_append_drop]
    have hread := (h a').2 ((codec.write a).drop n)
    have hread' := (h a).2 []
    rw [hwhole] at hread
    rw [List.append_nil, hread, Option.some.injEq, Prod.mk.injEq] at hread'
    have hlen := congrArg List.length hread'.2
    rw [List.length_drop, List.length_nil] at hlen
    omega
  | succ k =>
    obtain ⟨inner, hinner⟩ := (h a').1
    rw [hinner, List.replicate_succ', ← List.append_assoc] at he
    have hlast := List.append_inj_right' he rfl
    exact hc (List.cons.inj hlast).1.symm

end Objects

end CustomOspf.Json
