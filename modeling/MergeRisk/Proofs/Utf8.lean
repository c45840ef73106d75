import MergeRisk.Text.Utf8

/-! Texts read back from their bytes. The bytes of a character are read as the character, whatever
follows them, so a text is read from its bytes. -/

namespace MergeRisk.Text

/-! ### The bytes of a text -/

theorem toList_loop (bytes : ByteArray) (start : Nat) (read : List UInt8) :
    ByteArray.toList.loop bytes start read = read.reverse ++ bytes.data.toList.drop start := by
  fun_induction ByteArray.toList.loop bytes start read with
  | case1 start read inside ih =>
    have bound : start < bytes.data.toList.length := by simpa using inside
    have byte : bytes.get! start = bytes.data.toList[start] := by
      obtain ⟨data⟩ := bytes
      exact getElem!_pos data start inside
    rw [ih, List.drop_eq_getElem_cons bound, byte]
    simp
  | case2 start read outside =>
    have bound : bytes.data.toList.length ≤ start := by simpa using outside
    rw [List.drop_eq_nil_of_le bound, List.append_nil]

theorem encode_eq (text : String) : encode text = text.toList.flatMap String.utf8EncodeChar := by
  have bytes : text.toByteArray = text.toList.utf8Encode := by
    rw [← String.toByteArray_ofList, String.ofList_toList]
  rw [encode, String.toUTF8_eq_toByteArray, ByteArray.toList, toList_loop, bytes, List.utf8Encode]
  simp

/-! ### Characters -/

theorem lead?_ofNat {value : Nat} (byte : value < 256) :
    lead? (.ofNat value) =
      if value < 0x80 then some ⟨0, 0x80, 0xBF, value⟩
      else if 0xC2 ≤ value ∧ value ≤ 0xDF then some ⟨1, 0x80, 0xBF, value - 0xC0⟩
      else if value = 0xE0 then some ⟨2, 0xA0, 0xBF, 0⟩
      else if value = 0xED then some ⟨2, 0x80, 0x9F, 0xD⟩
      else if 0xE1 ≤ value ∧ value ≤ 0xEF then some ⟨2, 0x80, 0xBF, value - 0xE0⟩
      else if value = 0xF0 then some ⟨3, 0x90, 0xBF, 0⟩
      else if 0xF1 ≤ value ∧ value ≤ 0xF3 then some ⟨3, 0x80, 0xBF, value - 0xF0⟩
      else if value = 0xF4 then some ⟨3, 0x80, 0x8F, 4⟩
      else none := by
  have same : (UInt8.ofNat value).toNat = value := UInt8.toNat_ofNat_of_lt' byte
  simp only [lead?, UInt8.lt_iff_toNat_lt, UInt8.le_iff_toNat_le, ← UInt8.toNat_inj, same,
    Bool.and_eq_true, decide_eq_true_eq, beq_iff_eq]
  rfl

/-- A byte within its bounds contributes its last six bits. -/
theorem decodeFrom_tail {owed value bits : Nat} {low high : UInt8}
    (atLeast : low.toNat ≤ value % 0x40 + 0x80) (atMost : value % 0x40 + 0x80 ≤ high.toNat)
    (bytes : Bytes) :
    decodeFrom (some ⟨owed, low, high, bits⟩) (.ofNat (value % 0x40 + 0x80) :: bytes) =
      if owed ≤ 1 then some (Char.ofNat (bits * 64 + value % 0x40)) :: decodeFrom none bytes
      else decodeFrom (some ⟨owed - 1, 0x80, 0xBF, bits * 64 + value % 0x40⟩) bytes := by
  have same : (UInt8.ofNat (value % 0x40 + 0x80)).toNat = value % 0x40 + 0x80 :=
    UInt8.toNat_ofNat_of_lt' (show _ < 256 by omega)
  generalize UInt8.ofNat (value % 0x40 + 0x80) = byte at same
  simp [decodeFrom, UInt8.le_iff_toNat_le, same, atLeast, atMost]

/-- The bounds of every byte after the second. -/
theorem tail_bounds (value : Nat) :
    (0x80 : UInt8).toNat ≤ value % 0x40 + 0x80 ∧ value % 0x40 + 0x80 ≤ (0xBF : UInt8).toNat := by
  exact ⟨show 0x80 ≤ _ by omega, show _ ≤ 0xBF by omega⟩

theorem decodeFrom_lead {value follow bits : Nat} {low high : UInt8}
    (lead : lead? (.ofNat value) = some ⟨follow + 1, low, high, bits⟩) (bytes : Bytes) :
    decodeFrom none (.ofNat value :: bytes) =
      decodeFrom (some ⟨follow + 1, low, high, bits⟩) bytes := by
  simp [decodeFrom, begin, lead]

theorem decodeFrom_one {value : Nat} (small : value ≤ 0x7F) (bytes : Bytes) :
    decodeFrom none (.ofNat value :: bytes) = some (Char.ofNat value) :: decodeFrom none bytes := by
  have lead : lead? (.ofNat value) = some ⟨0, 0x80, 0xBF, value⟩ := by
    rw [lead?_ofNat (by omega), if_pos (by omega)]
  simp [decodeFrom, begin, lead]

theorem decodeFrom_two {value : Nat} (least : 0x7F < value) (most : value ≤ 0x7FF) (bytes : Bytes) :
    decodeFrom none (.ofNat (value / 64 % 0x20 + 0xC0) :: .ofNat (value % 0x40 + 0x80) :: bytes) =
      some (Char.ofNat value) :: decodeFrom none bytes := by
  have top : value / 64 % 0x20 + 0xC0 - 0xC0 = value / 64 := by omega
  have lead : lead? (.ofNat (value / 64 % 0x20 + 0xC0)) = some ⟨0 + 1, 0x80, 0xBF, value / 64⟩ := by
    rw [lead?_ofNat (by omega), if_neg (by omega), if_pos (by omega), top]
  have second := tail_bounds value
  have bits : value / 64 * 64 + value % 0x40 = value := by omega
  rw [decodeFrom_lead lead, decodeFrom_tail second.1 second.2, if_pos (by omega), bits]

/-- The first of three bytes, and what it demands of the second. -/
theorem lead?_three {value : Nat} (least : 0x7FF < value) (most : value ≤ 0xFFFF)
    (valid : value < 0xD800 ∨ 0xDFFF < value) :
    ∃ low high : UInt8,
      lead? (.ofNat (value / 4096 % 0x10 + 0xE0)) = some ⟨1 + 1, low, high, value / 4096⟩ ∧
        low.toNat ≤ value / 64 % 0x40 + 0x80 ∧ value / 64 % 0x40 + 0x80 ≤ high.toNat := by
  have top : value / 4096 % 0x10 + 0xE0 - 0xE0 = value / 4096 := by omega
  rw [lead?_ofNat (by omega), if_neg (by omega), if_neg (by omega)]
  by_cases first : value / 4096 = 0
  · -- Overlong forms are left out.
    rw [first]
    exact ⟨0xA0, 0xBF, rfl, show 0xA0 ≤ _ by omega, show _ ≤ 0xBF by omega⟩
  by_cases surrogates : value / 4096 = 0xD
  · rw [surrogates]
    exact ⟨0x80, 0x9F, rfl, show 0x80 ≤ _ by omega, show _ ≤ 0x9F by omega⟩
  · rw [if_neg (by omega), if_neg (by omega), if_pos (by omega), top]
    exact ⟨0x80, 0xBF, rfl, show 0x80 ≤ _ by omega, show _ ≤ 0xBF by omega⟩

theorem decodeFrom_three {value : Nat} (least : 0x7FF < value) (most : value ≤ 0xFFFF)
    (valid : value < 0xD800 ∨ 0xDFFF < value) (bytes : Bytes) :
    decodeFrom none (.ofNat (value / 4096 % 0x10 + 0xE0) ::
        .ofNat (value / 64 % 0x40 + 0x80) :: .ofNat (value % 0x40 + 0x80) :: bytes) =
      some (Char.ofNat value) :: decodeFrom none bytes := by
  obtain ⟨low, high, lead, atLeast, atMost⟩ := lead?_three least most valid
  have third := tail_bounds value
  have bits : (value / 4096 * 64 + value / 64 % 0x40) * 64 + value % 0x40 = value := by omega
  rw [decodeFrom_lead lead, decodeFrom_tail atLeast atMost, if_neg (by omega),
    decodeFrom_tail third.1 third.2, if_pos (by omega), bits]

/-- The first of four bytes, and what it demands of the second. -/
theorem lead?_four {value : Nat} (least : 0xFFFF < value) (most : value < 0x110000) :
    ∃ low high : UInt8,
      lead? (.ofNat (value / 262144 % 0x08 + 0xF0)) = some ⟨2 + 1, low, high, value / 262144⟩ ∧
        low.toNat ≤ value / 4096 % 0x40 + 0x80 ∧ value / 4096 % 0x40 + 0x80 ≤ high.toNat := by
  have top : value / 262144 % 0x08 + 0xF0 - 0xF0 = value / 262144 := by omega
  rw [lead?_ofNat (by omega), if_neg (by omega), if_neg (by omega), if_neg (by omega),
    if_neg (by omega), if_neg (by omega)]
  by_cases first : value / 262144 = 0
  · rw [first]
    exact ⟨0x90, 0xBF, rfl, show 0x90 ≤ _ by omega, show _ ≤ 0xBF by omega⟩
  by_cases last : value / 262144 = 4
  · rw [last]
    exact ⟨0x80, 0x8F, rfl, show 0x80 ≤ _ by omega, show _ ≤ 0x8F by omega⟩
  · rw [if_neg (by omega), if_pos (by omega), top]
    exact ⟨0x80, 0xBF, rfl, show 0x80 ≤ _ by omega, show _ ≤ 0xBF by omega⟩

theorem decodeFrom_four {value : Nat} (least : 0xFFFF < value) (most : value < 0x110000)
    (bytes : Bytes) :
    decodeFrom none (.ofNat (value / 262144 % 0x08 + 0xF0) ::
        .ofNat (value / 4096 % 0x40 + 0x80) :: .ofNat (value / 64 % 0x40 + 0x80) ::
        .ofNat (value % 0x40 + 0x80) :: bytes) =
      some (Char.ofNat value) :: decodeFrom none bytes := by
  obtain ⟨low, high, lead, atLeast, atMost⟩ := lead?_four least most
  have third := tail_bounds (value / 64)
  have fourth := tail_bounds value
  have bits : ((value / 262144 * 64 + value / 4096 % 0x40) * 64 + value / 64 % 0x40) * 64 +
      value % 0x40 = value := by omega
  rw [decodeFrom_lead lead, decodeFrom_tail atLeast atMost, if_neg (by omega),
    decodeFrom_tail third.1 third.2, if_neg (by omega), decodeFrom_tail fourth.1 fourth.2,
    if_pos (by omega), bits]

/-- The bytes of a character are read as the character. -/
theorem decodeFrom_utf8EncodeChar (c : Char) (bytes : Bytes) :
    decodeFrom none (String.utf8EncodeChar c ++ bytes) = some c :: decodeFrom none bytes := by
  have valid : c.val.toNat < 0xD800 ∨ 0xDFFF < c.val.toNat ∧ c.val.toNat < 0x110000 := c.valid
  have same : Char.ofNat c.val.toNat = c := Char.ofNat_toNat c
  fun_cases String.utf8EncodeChar c with
  | case1 value one =>
    have read := decodeFrom_one one bytes
    rwa [same] at read
  | case2 value one two =>
    have read := decodeFrom_two (by omega) two bytes
    rwa [same] at read
  | case3 value one two three =>
    have read := decodeFrom_three (by omega) three (by omega) bytes
    rwa [same] at read
  | case4 value one two three =>
    have least : 0xFFFF < c.val.toNat := by omega
    have read := decodeFrom_four least (by omega) bytes
    rwa [same] at read

theorem decodeFrom_flatMap (text : List Char) :
    decodeFrom none (text.flatMap String.utf8EncodeChar) = text.map some := by
  induction text with
  | nil => rfl
  | cons c text ih => rw [List.flatMap_cons, decodeFrom_utf8EncodeChar, ih, List.map_cons]

/-- A text is read from its bytes. -/
theorem decode?_encode (text : String) : decode? (encode text) = some text := by
  have all : text.toList.mapM some = some text.toList := by
    simpa using List.mapM_pure (m := Option) (l := text.toList) (f := id)
  rw [decode?, encode_eq, decodeFrom_flatMap, List.mapM_map]
  simp [all]

end MergeRisk.Text
