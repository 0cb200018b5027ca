import Mathlib.Data.List.Basic

/-!
Lossy decoding of bytes: what is no UTF-8 becomes replacement characters, one
for each longest run of bytes that could have begun a character.
-/

namespace CustomOspf.Utf8

def replacement : Char := '\uFFFD'

def between (low high b : UInt8) : Bool := low ≤ b && b ≤ high

/-- A second byte that may follow the first byte of a character of three or four bytes. -/
def follows (first second : UInt8) : Bool :=
  if first = 0xe0 then between 0xa0 0xbf second
  else if first = 0xed then between 0x80 0x9f second
  else if first = 0xf0 then between 0x90 0xbf second
  else if first = 0xf4 then between 0x80 0x8f second
  else between 0xe1 0xf3 first && between 0x80 0xbf second

/-- The number of bytes that one replacement character stands for. -/
def invalidLength (bytes : ByteArray) : ℕ :=
  match bytes.data.toList with
  | first :: second :: rest =>
    if follows first second then
      if between 0xf0 0xf4 first && rest.head?.any (between 0x80 0xbf) then 3 else 2
    else 1
  | _ => 1

def decode : ℕ → ByteArray → List Char
  | 0, _ => []
  | fuel + 1, bytes =>
    if bytes.size = 0 then []
    else match bytes.utf8DecodeChar? 0 with
    | some c => c :: decode fuel (bytes.extract c.utf8Size bytes.size)
    | none => replacement :: decode fuel (bytes.extract (invalidLength bytes) bytes.size)

-- each turn consumes a byte, so the number of bytes is fuel enough
def lossy (bytes : ByteArray) : String := String.ofList (decode bytes.size bytes)

theorem utf8Encode_cons (c : Char) (cs : List Char) :
    (c :: cs).utf8Encode = (String.utf8EncodeChar c).toByteArray ++ cs.utf8Encode := by
  rw [List.utf8Encode, List.flatMap_cons, List.toByteArray_append]
  rfl

theorem size_utf8EncodeChar (c : Char) : (String.utf8EncodeChar c).toByteArray.size = c.utf8Size := by
  rw [List.size_toByteArray, String.length_utf8EncodeChar]

theorem size_utf8Encode_cons (c : Char) (cs : List Char) :
    (c :: cs).utf8Encode.size = c.utf8Size + cs.utf8Encode.size := by
  rw [utf8Encode_cons, ByteArray.size_append, size_utf8EncodeChar]

theorem length_le_size (cs : List Char) : cs.length ≤ cs.utf8Encode.size := by
  induction cs with
  | nil => exact Nat.zero_le _
  | cons c cs ih =>
    have hpos := c.utf8Size_pos
    rw [size_utf8Encode_cons, List.length_cons]
    omega

theorem size_le_length (cs : List Char) : cs.utf8Encode.size ≤ 4 * cs.length := by
  induction cs with
  | nil => exact Nat.zero_le _
  | cons c cs ih =>
    have hle := c.utf8Size_le_four
    rw [size_utf8Encode_cons, List.length_cons]
    omega

theorem size_append (cs ds : List Char) : (cs ++ ds).utf8Encode.size = cs.utf8Encode.size + ds.utf8Encode.size := by
  rw [List.utf8Encode_append, ByteArray.size_append]

theorem size_ascii {cs : List Char} (h : ∀ c ∈ cs, c.utf8Size = 1) : cs.utf8Encode.size = cs.length := by
  induction cs with
  | nil => rfl
  | cons c cs ih =>
    rw [size_utf8Encode_cons, h c List.mem_cons_self, ih (fun c' hc' => h c' (List.mem_cons_of_mem c hc')),
      List.length_cons]
    omega

theorem decode_char_append (c : Char) (bytes : ByteArray) (fuel : ℕ) :
    decode (fuel + 1) ((String.utf8EncodeChar c).toByteArray ++ bytes) = c :: decode fuel bytes := by
  have hpos := c.utf8Size_pos
  have hsize := size_utf8EncodeChar c
  have hne : ¬ ((String.utf8EncodeChar c).toByteArray ++ bytes).size = 0 := by
    rw [ByteArray.size_append]
    omega
  rw [decode, if_neg hne, ByteArray.utf8DecodeChar?_utf8EncodeChar_append]
  dsimp only
  rw [ByteArray.extract_append_eq_right hsize.symm ByteArray.size_append]

theorem decode_utf8Encode (cs : List Char) {fuel : ℕ} (h : cs.utf8Encode.size ≤ fuel) :
    decode fuel cs.utf8Encode = cs := by
  induction cs generalizing fuel with
  | nil => cases fuel <;> rfl
  | cons c cs ih =>
    have hpos := c.utf8Size_pos
    rw [size_utf8Encode_cons] at h
    obtain ⟨fuel, rfl⟩ : ∃ n, fuel = n + 1 := ⟨fuel - 1, by omega⟩
    rw [utf8Encode_cons, decode_char_append, ih (by omega)]

theorem lossy_toByteArray (s : String) : lossy s.toByteArray = s := by
  rw [← String.utf8Encode_toList, lossy, decode_utf8Encode s.toList (Nat.le_refl _), String.ofList_toList]

theorem decode_undecodable {bytes : ByteArray} (h : ∀ i, bytes.utf8DecodeChar? i = none) (fuel : ℕ) :
    ∃ k, decode fuel bytes = List.replicate k replacement := by
  induction fuel generalizing bytes with
  | zero => exact ⟨0, rfl⟩
  | succ fuel ih =>
    by_cases hz : bytes.size = 0
    · exact ⟨0, by rw [decode, if_pos hz]; rfl⟩
    · have hrest : ∀ i, (bytes.extract (invalidLength bytes) bytes.size).utf8DecodeChar? i = none := by
        intro i
        have hmin : min (invalidLength bytes + (bytes.extract (invalidLength bytes) bytes.size).size) bytes.size =
            bytes.size := by
          rw [ByteArray.size_extract]
          omega
        rw [ByteArray.utf8DecodeChar?_eq_utf8DecodeChar?_extract, ByteArray.extract_extract, hmin,
          ← ByteArray.utf8DecodeChar?_eq_utf8DecodeChar?_extract]
        exact h _
      obtain ⟨k, hk⟩ := ih hrest
      refine ⟨k + 1, ?_⟩
      rw [decode, if_neg hz, h 0]
      simp only [hk, List.replicate_succ]

theorem partialChar_undecodable {c : Char} {n : ℕ} (hn : n < c.utf8Size) (i : ℕ) :
    ((String.utf8EncodeChar c).toByteArray.extract 0 n).utf8DecodeChar? i = none := by
  have hsize := size_utf8EncodeChar c
  have hcut : ((String.utf8EncodeChar c).toByteArray.extract 0 n).size = n := by
    rw [ByteArray.size_extract]
    omega
  cases hd : ((String.utf8EncodeChar c).toByteArray.extract 0 n).utf8DecodeChar? i with
  | none => rfl
  | some d =>
    have hle := ByteArray.le_size_of_utf8DecodeChar?_eq_some hd
    have hdpos := d.utf8Size_pos
    -- a later byte of a character begins none
    have hfirst := ByteArray.isUTF8FirstByte_of_isSome_utf8DecodeChar? (Option.isSome_iff_exists.mpr ⟨d, hd⟩)
    rw [ByteArray.getElem_extract, List.getElem_toByteArray, UInt8.isUTF8FirstByte_getElem_utf8EncodeChar] at hfirst
    obtain rfl : i = 0 := by omega
    have hwhole := ByteArray.utf8DecodeChar?_append_eq_some hd
      ((String.utf8EncodeChar c).toByteArray.extract n c.utf8Size)
    rw [← ByteArray.extract_eq_extract_append_extract n (Nat.zero_le n) (Nat.le_of_lt hn), ← hsize,
      ByteArray.extract_zero_size] at hwhole
    have hc := @ByteArray.utf8DecodeChar?_utf8EncodeChar_append ByteArray.empty c
    rw [ByteArray.append_empty] at hc
    obtain rfl := Option.some.inj (hc.symm.trans hwhole)
    omega

theorem extract_char_append (c : Char) (bytes : ByteArray) (n : ℕ) :
    ((String.utf8EncodeChar c).toByteArray ++ bytes).extract 0 (c.utf8Size + n) =
      (String.utf8EncodeChar c).toByteArray ++ bytes.extract 0 n := by
  have hsize := size_utf8EncodeChar c
  have hmax : c.utf8Size + n = max (c.utf8Size + n) (String.utf8EncodeChar c).toByteArray.size := by omega
  rw [ByteArray.extract_append, hsize, Nat.zero_sub, Nat.add_sub_cancel_left, hmax, ByteArray.extract_zero_max_size]

theorem decode_cut (cs : List Char) {n fuel : ℕ} (hn : n < cs.utf8Encode.size) (hfuel : n ≤ fuel) :
    ∃ kept c lost k, cs = kept ++ c :: lost ∧ kept.utf8Encode.size ≤ n ∧ n < kept.utf8Encode.size + c.utf8Size ∧
      decode fuel (cs.utf8Encode.extract 0 n) = kept ++ List.replicate k replacement := by
  induction cs generalizing n fuel with
  | nil => exact absurd hn (Nat.not_lt_zero n)
  | cons c cs ih =>
    have hpos := c.utf8Size_pos
    rw [size_utf8Encode_cons] at hn
    by_cases hc : n < c.utf8Size
    · have hbegun : (c :: cs).utf8Encode.extract 0 n = (String.utf8EncodeChar c).toByteArray.extract 0 n := by
        have hnone : cs.utf8Encode.extract 0 0 = ByteArray.empty := ByteArray.extract_same
        rw [utf8Encode_cons, ByteArray.extract_append, size_utf8EncodeChar, Nat.sub_eq_zero_of_le (Nat.le_of_lt hc),
          Nat.zero_sub, hnone, ByteArray.append_empty]
      obtain ⟨k, hk⟩ := decode_undecodable (partialChar_undecodable hc) fuel
      refine ⟨[], c, cs, k, rfl, Nat.zero_le n, ?_, ?_⟩
      · simpa using hc
      · rw [hbegun, hk, List.nil_append]
    · obtain ⟨n, rfl⟩ : ∃ m, n = c.utf8Size + m := ⟨n - c.utf8Size, by omega⟩
      obtain ⟨fuel, rfl⟩ : ∃ m, fuel = m + 1 := ⟨fuel - 1, by omega⟩
      obtain ⟨kept, d, lost, k, rfl, hle, hlt, hd⟩ := @ih n fuel (by omega) (by omega)
      refine ⟨c :: kept, d, lost, k, rfl, ?_, ?_, ?_⟩
      · rw [size_utf8Encode_cons]
        omega
      · rw [size_utf8Encode_cons]
        omega
      · rw [utf8Encode_cons, extract_char_append, decode_char_append, hd, List.cons_append]

theorem lossy_cut (s : String) {n : ℕ} (hn : n < s.toByteArray.size) :
    ∃ kept c lost k, s.toList = kept ++ c :: lost ∧ kept.utf8Encode.size ≤ n ∧
      n < kept.utf8Encode.size + c.utf8Size ∧
      lossy (s.toByteArray.extract 0 n) = String.ofList (kept ++ List.replicate k replacement) := by
  rw [← String.utf8Encode_toList] at hn ⊢
  have hsize : (s.toList.utf8Encode.extract 0 n).size = n := by
    rw [ByteArray.size_extract]
    omega
  obtain ⟨kept, c, lost, k, hs, hle, hlt, hd⟩ := decode_cut s.toList hn (Nat.le_refl n)
  exact ⟨kept, c, lost, k, hs, hle, hlt, by rw [lossy, hsize, hd]⟩

end CustomOspf.Utf8
