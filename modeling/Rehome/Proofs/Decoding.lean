import Rehome.Text.Utf8

/-!
# Decoding — a text comes back from its bytes

The bytes of a text are those of its characters one after the other. While the bytes of a character
are taken, nothing but its bits is kept, so a decoding that is between two characters is so again
after it, with that character put to the others (`foldl_next_char`). The first byte fixes the range of
the next one, which shuts out surrogates and forms that are too long; the bytes of a character are in
that range because it is none of the one, and its form none of the other.
-/

namespace Rehome.Text

variable {n : Nat}

/-! ## First bytes -/

namespace Begun

theorem ofFirst?_of_two (hlow : 0x80 ≤ n) (hhigh : n ≤ 0x7ff) :
    ofFirst? (n / 64 % 32 + 0xc0) = some ⟨n / 64 % 32, 1, 0x80, 0xbf⟩ := by
  rw [ofFirst?, if_pos ⟨by omega, by omega⟩, Nat.add_sub_cancel]

/-- The first of three bytes begins a character whose second byte is in range. -/
theorem ofFirst?_of_three (hlow : 0x800 ≤ n) (hhigh : n ≤ 0xffff)
    (hscalar : n < 0xd800 ∨ 0xdfff < n) :
    ∃ low high, ofFirst? (n / 4096 % 16 + 0xe0) = some ⟨n / 4096 % 16, 2, low, high⟩ ∧
      low ≤ n / 64 % 64 + 0x80 ∧ n / 64 % 64 + 0x80 ≤ high := by
  obtain hshort | hnear | hother : n / 4096 % 16 = 0 ∨ n / 4096 % 16 = 13 ∨
      1 ≤ n / 4096 % 16 ∧ n / 4096 % 16 ≠ 13 := by omega
  · rw [hshort]
    exact ⟨_, _, rfl, by omega, by omega⟩
  · rw [hnear]
    exact ⟨_, _, rfl, by omega, by omega⟩
  · rw [ofFirst?, if_neg (by omega), if_neg (by omega), if_neg (by omega), if_pos (by omega),
      Nat.add_sub_cancel]
    exact ⟨_, _, rfl, by omega, by omega⟩

/-- The first of four bytes begins a character whose second byte is in range. -/
theorem ofFirst?_of_four (hlow : 0xffff < n) (hhigh : n < 0x110000) :
    ∃ low high, ofFirst? (n / 262144 % 8 + 0xf0) = some ⟨n / 262144 % 8, 3, low, high⟩ ∧
      low ≤ n / 4096 % 64 + 0x80 ∧ n / 4096 % 64 + 0x80 ≤ high := by
  obtain hshort | hlast | hother : n / 262144 % 8 = 0 ∨ n / 262144 % 8 = 4 ∨
      1 ≤ n / 262144 % 8 ∧ n / 262144 % 8 ≤ 3 := by omega
  · rw [hshort]
    exact ⟨_, _, rfl, by omega, by omega⟩
  · rw [hlast]
    exact ⟨_, _, rfl, by omega, by omega⟩
  · rw [ofFirst?, if_neg (by omega), if_neg (by omega), if_neg (by omega), if_neg (by omega),
      if_neg (by omega), if_pos (by omega), Nat.add_sub_cancel]
    exact ⟨_, _, rfl, by omega, by omega⟩

end Begun

/-! ## One byte after the other -/

namespace Decoding

variable {before : List Char} {begun : Begun} {b code missing low high : Nat}

theorem next_single (hb : b < 0x80) :
    next ⟨before, none⟩ (UInt8.ofNat b) = ⟨Char.ofNat b :: before, none⟩ := by
  have hvalue : (UInt8.ofNat b).toNat = b := UInt8.toNat_ofNat_of_lt' (Nat.lt_trans hb (by decide))
  simp only [next, first, hvalue, if_pos hb]

theorem next_first (hb : b < 256) (hhigh : 0x80 ≤ b) (hbegun : Begun.ofFirst? b = some begun) :
    next ⟨before, none⟩ (UInt8.ofNat b) = ⟨before, some begun⟩ := by
  have hvalue : (UInt8.ofNat b).toNat = b := UInt8.toNat_ofNat_of_lt' hb
  simp only [next, first, hvalue, if_neg (Nat.not_lt.mpr hhigh), hbegun]

theorem next_middle (hb : b < 256) (hrange : low ≤ b ∧ b ≤ high) :
    next ⟨before, some ⟨code, missing + 2, low, high⟩⟩ (UInt8.ofNat b) =
      ⟨before, some ⟨code * 64 + b % 64, missing + 1, 0x80, 0xbf⟩⟩ := by
  have hvalue : (UInt8.ofNat b).toNat = b := UInt8.toNat_ofNat_of_lt' hb
  have hmissing : ¬ missing + 2 ≤ 1 := by omega
  simp only [next, hvalue, if_pos hrange, if_neg hmissing]
  rfl

theorem next_last (hb : b < 256) (hrange : low ≤ b ∧ b ≤ high) :
    next ⟨before, some ⟨code, 1, low, high⟩⟩ (UInt8.ofNat b) =
      ⟨Char.ofNat (code * 64 + b % 64) :: before, none⟩ := by
  have hvalue : (UInt8.ofNat b).toNat = b := UInt8.toNat_ofNat_of_lt' hb
  simp only [next, hvalue, if_pos hrange, if_pos (Nat.le_refl 1)]

/-- The bytes of a character put it to the characters before. -/
theorem foldl_next_char (before : List Char) (c : Char) :
    (String.utf8EncodeChar c).foldl next ⟨before, none⟩ = ⟨c :: before, none⟩ := by
  have hscalar : c.val.toNat < 0xd800 ∨ 0xdfff < c.val.toNat ∧ c.val.toNat < 0x110000 := c.valid
  have hchar : Char.ofNat c.val.toNat = c := Char.ofNat_toNat c
  have htail : ∀ m, m % 64 + 0x80 < 256 ∧ 0x80 ≤ m % 64 + 0x80 ∧ m % 64 + 0x80 ≤ 0xbf := by omega
  simp only [String.utf8EncodeChar]
  generalize c.val.toNat = n at *
  -- one case for each number of bytes; the first of them narrows what the second may be
  split
  · rename_i hone
    rw [List.foldl_cons, next_single (by omega), hchar]
    rfl
  split
  · rename_i hone htwo
    have hfirst := Begun.ofFirst?_of_two (Nat.not_le.mp hone) htwo
    rw [List.foldl_cons, next_first (by omega) (by omega) hfirst, List.foldl_cons,
      next_last (by omega) (htail n).2, List.foldl_nil]
    have hcode : n / 64 % 32 * 64 + (n % 64 + 0x80) % 64 = n := by omega
    rw [hcode, hchar]
  split
  · rename_i htwo hthree
    obtain ⟨low, high, hfirst, hlow, hhigh⟩ :=
      Begun.ofFirst?_of_three (Nat.not_le.mp htwo) hthree (hscalar.imp_right And.left)
    rw [List.foldl_cons, next_first (by omega) (by omega) hfirst, List.foldl_cons,
      next_middle (by omega) ⟨hlow, hhigh⟩, List.foldl_cons,
      next_last (by omega) (htail n).2, List.foldl_nil]
    have hcode : (n / 4096 % 16 * 64 + (n / 64 % 64 + 0x80) % 64) * 64 + (n % 64 + 0x80) % 64 = n := by
      omega
    rw [hcode, hchar]
  · rename_i hthree
    obtain ⟨low, high, hfirst, hlow, hhigh⟩ :=
      Begun.ofFirst?_of_four (Nat.not_le.mp hthree) (by omega)
    rw [List.foldl_cons, next_first (by omega) (by omega) hfirst, List.foldl_cons,
      next_middle (by omega) ⟨hlow, hhigh⟩, List.foldl_cons,
      next_middle (by omega) (htail (n / 64)).2, List.foldl_cons,
      next_last (by omega) (htail n).2, List.foldl_nil]
    have hcode : ((n / 262144 % 8 * 64 + (n / 4096 % 64 + 0x80) % 64) * 64 +
        (n / 64 % 64 + 0x80) % 64) * 64 + (n % 64 + 0x80) % 64 = n := by
      omega
    rw [hcode, hchar]

/-- The bytes of a text put its characters to the characters before, the last one first. -/
theorem foldl_next_text (before cs : List Char) :
    (cs.flatMap String.utf8EncodeChar).foldl next ⟨before, none⟩ = ⟨cs.reverse ++ before, none⟩ := by
  induction cs generalizing before with
  | nil => rfl
  | cons c cs ih =>
      rw [List.flatMap_cons, List.foldl_append, foldl_next_char, ih, List.reverse_cons,
        List.append_assoc]
      rfl

end Decoding

/-! ## Texts -/

theorem loop_toList (bytes : ByteArray) (i : Nat) (before : List UInt8) :
    ByteArray.toList.loop bytes i before = before.reverse ++ bytes.data.toList.drop i := by
  fun_induction ByteArray.toList.loop bytes i before with
  | case1 i before hi ih =>
      have hdrop : bytes.data.toList.drop i = bytes.get! i :: bytes.data.toList.drop (i + 1) := by
        rw [List.drop_eq_getElem_cons (by simpa using hi), Array.getElem_toList]
        congr 1
        exact (getElem!_pos bytes.data i hi).symm
      rw [ih, hdrop, List.reverse_cons, List.append_assoc, List.singleton_append]
  | case2 i before hi =>
      have hdrop : bytes.data.toList.drop i = [] :=
        List.drop_eq_nil_of_le (by simpa using Nat.not_lt.mp hi)
      rw [hdrop, List.append_nil]

/-- The bytes of a text, one by one. -/
theorem toList_toUTF8 (text : String) :
    text.toUTF8.toList = text.toList.flatMap String.utf8EncodeChar := by
  rw [String.toUTF8_eq_toByteArray, ← String.utf8Encode_toList, List.utf8Encode, ByteArray.toList,
    loop_toList, List.toList_data_toByteArray]
  rfl

/-- A text that is put into bytes and decoded is itself. -/
theorem decode_toUTF8 (text : String) : decode text.toUTF8 = text := by
  rw [decode, toList_toUTF8, Decoding.foldl_next_text, List.append_nil, Decoding.finish,
    List.reverse_reverse, String.ofList_toList]

end Rehome.Text
