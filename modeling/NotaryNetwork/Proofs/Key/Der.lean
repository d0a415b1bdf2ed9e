import NotaryNetwork.Key.Der
import NotaryNetwork.Proofs.Bytes

/-!
# Elements that are read back

A length is read from the bytes that were written for it (`takeLength?_lengthBytes`), and so an
element in front of other bytes is taken off with its content (`take?_element`). Both need a content
whose length has at most four bytes.
-/

namespace NotaryNetwork.Key.Der

/-! ## Lengths -/

theorem ofBigEndian_numberBytes (n : Nat) : Bytes.ofBigEndian (numberBytes n) = n := by
  have fits : n < Nat.pow 256 (n.log2 / 8 + 1) :=
    Bytes.lt_pow_of_lt_two_pow Nat.lt_log2_self (by omega)
  rw [numberBytes, Bytes.ofBigEndian_bigEndian]
  exact Nat.mod_eq_of_lt fits

theorem length_numberBytes_le {n : Nat} (h : n < 0x100000000) : (numberBytes n).length ≤ 4 := by
  rw [numberBytes, Bytes.length_bigEndian]
  rcases Nat.eq_zero_or_pos n with rfl | pos
  · decide
  · have digits : n.log2 < 32 := (Nat.log2_lt (by omega)).mpr h
    omega

theorem length_lengthBytes_le {n : Nat} (h : n < 0x100000000) : (lengthBytes n).length ≤ 5 := by
  unfold lengthBytes
  split
  · simp
  · have few := length_numberBytes_le h
    rw [List.length_cons]
    omega

/-- **A length is read as it was written, up to the bytes after it.** -/
theorem takeLength?_lengthBytes {n : Nat} (h : n < 0x100000000) (rest : Bytes) :
    takeLength? (lengthBytes n ++ rest) = some (n, rest) := by
  by_cases short : n < 128
  · have byte : (UInt8.ofNat n).toNat = n := UInt8.toNat_ofNat_of_lt (show n < 256 by omega)
    rw [lengthBytes, if_pos short, List.singleton_append, takeLength?, byte, if_pos short]
  · have few := length_numberBytes_le h
    have written : lengthBytes n =
        UInt8.ofNat (128 + (numberBytes n).length) :: numberBytes n := if_neg short
    have mark : (UInt8.ofNat (128 + (numberBytes n).length)).toNat = 128 + (numberBytes n).length :=
      UInt8.toNat_ofNat_of_lt (show 128 + (numberBytes n).length < 256 by omega)
    have count : 128 + (numberBytes n).length - 128 = (numberBytes n).length := by omega
    rw [written, List.cons_append, takeLength?, mark, if_neg (by omega), count]
    simp only [List.take_left, List.drop_left, ofBigEndian_numberBytes, written, few, and_true,
      if_true]

/-! ## Elements -/

section Elements

variable {tag : UInt8} {content : Bytes} (room : content.length < 0x100000000)

include room

theorem length_element_le : (element tag content).length ≤ content.length + 6 := by
  have short := length_lengthBytes_le room
  rw [element, List.length_append, List.length_cons]
  omega

/-- **An element is taken off the bytes that follow it.** -/
theorem take?_element (rest : Bytes) :
    take? tag (element tag content ++ rest) = some (content, rest) := by
  rw [element, List.append_assoc, List.cons_append, take?, if_pos rfl,
    takeLength?_lengthBytes room]
  simp

theorem only?_element : only? tag (element tag content) = some content := by
  have alone : take? tag (element tag content ++ []) = some (content, []) := take?_element room []
  rw [List.append_nil] at alone
  rw [only?, alone]

end Elements

theorem onlyBitString?_bitString {bytes : Bytes} (room : bytes.length + 1 < 0x100000000) :
    onlyBitString? (bitString bytes) = some bytes := by
  unfold onlyBitString? bitString
  rw [only?_element (by simpa using room)]
  rfl

theorem length_le_of_isOidBody {body : Bytes} (h : isOidBody body = true) : body.length ≤ 63 := by
  simp only [isOidBody, Bool.and_eq_true, decide_eq_true_eq] at h
  exact h.1.2

theorem takeOid?_element {body : Bytes} (h : isOidBody body = true) (rest : Bytes) :
    takeOid? (element oidTag body ++ rest) = some (body, rest) := by
  have short := length_le_of_isOidBody h
  unfold takeOid?
  rw [take?_element (by omega)]
  exact if_pos h

end NotaryNetwork.Key.Der
