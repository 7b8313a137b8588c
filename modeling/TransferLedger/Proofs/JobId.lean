import TransferLedger.JobId

/-! Job ids read back from their sixteen bytes and from their text. -/

namespace TransferLedger.JobId

theorem ofByteArray_toBytes (id : JobId) : ofByteArray id.toBytes.toByteArray = id := by
  cases id with
  | mk bytes =>
      rw [ofByteArray, List.data_toByteArray]
      congr 1
      apply Vector.ext
      intro place inside
      simp [toBytes]

theorem size_toBytes (id : JobId) : id.toBytes.toByteArray.size = 16 := by
  simp [toBytes]

theorem rejoin (digits : List Char) (start count : Nat) :
    (digits.drop start).take count ++ digits.drop (start + count) = digits.drop start := by
  rw [← List.drop_drop, List.take_append_drop]

theorem dehyphenate?_hyphenate {digits : List Char} (length : digits.length = 32) :
    dehyphenate? (hyphenate digits) = some digits := by
  have whole : digits.take 8 ++ ((digits.drop 8).take 4 ++ ((digits.drop 12).take 4 ++
      ((digits.drop 16).take 4 ++ digits.drop 20))) = digits := by
    rw [rejoin digits 16 4, rejoin digits 12 4, rejoin digits 8 4, List.take_append_drop]
  have parts : dehyphenate? (hyphenate digits) = some (digits.take 8 ++ ((digits.drop 8).take 4 ++
      ((digits.drop 12).take 4 ++ ((digits.drop 16).take 4 ++ digits.drop 20)))) := by
    simp [hyphenate, dehyphenate?, List.drop_append, List.getElem?_append, List.drop_take, length]
  rw [parts, whole]

theorem length_hyphenate {digits : List Char} (length : digits.length = 32) :
    (hyphenate digits).length = 36 := by
  simp [hyphenate, length]

theorem length_encode (bytes : List UInt8) :
    (Bytes.Hex.encode bytes).length = 2 * bytes.length := by
  induction bytes with
  | nil => rfl
  | cons byte rest ih =>
      have split : Bytes.Hex.encode (byte :: rest) =
          Bytes.Hex.ofByte byte ++ Bytes.Hex.encode rest := rfl
      rw [split, List.length_append, ih, List.length_cons, Bytes.Hex.ofByte]
      simp only [List.length_cons, List.length_nil]
      omega

theorem ofBytes?_toBytes (id : JobId) : ofBytes? id.toBytes = some id := by
  obtain ⟨bytes, size⟩ := id
  rw [ofBytes?, toBytes]
  simp [size]

theorem ofText?_toText (id : JobId) : ofText? id.toText = some id := by
  have length : (Bytes.Hex.encode id.toBytes).length = 32 := by
    rw [length_encode, toBytes, Vector.length_toList]
  have digits : digits? (hyphenate (Bytes.Hex.encode id.toBytes)) =
      some (Bytes.Hex.encode id.toBytes) := by
    simp only [digits?, length_hyphenate length]
    exact dehyphenate?_hyphenate length
  rw [ofText?, toText, String.toList_ofList, digits]
  simp only [Option.bind_eq_bind, Option.bind_some, Bytes.Hex.decode?_encode, ofBytes?_toBytes]

end TransferLedger.JobId
