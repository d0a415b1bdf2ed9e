import NotaryNetwork.Key.Spki
import NotaryNetwork.Proofs.Key.Der

/-!
# Keys of curves in DER

The parts of a key are read as they were wrapped (`parts?_wrap`), the curve of a point is found by
its name (`ofIdentifier_ec`), and the coordinates of a point by their width (`decodePoint?_point`).
So a key of a curve is read from the bytes that were written for it (`decode_encode_curve`).
-/

namespace NotaryNetwork

/-- A point of its curve, or a key of 32 bytes. -/
def PublicKey.IsCurveKey : PublicKey → Prop
  | ec curve x y => curve.curve.contains x y = true
  | ed25519 _ | x25519 _ => True
  | rsa _ _ => False

namespace Key.Spki

open Der Algorithm

/-! ## The parts of a key -/

theorem length_bitString_le {bytes : Bytes} (room : bytes.length + 1 < 0x100000000) :
    (bitString bytes).length ≤ bytes.length + 7 :=
  @length_element_le bitStringTag (0 :: bytes) room

theorem length_oidElement_le {oid : Oid} (h : isOidBody oid.body = true) :
    (oidElement oid).length ≤ 69 := by
  have short := length_le_of_isOidBody h
  have whole := @length_element_le oidTag oid.body (by omega)
  unfold oidElement
  omega

/-- **The algorithm, its parameters and the key are read as they were wrapped.** -/
theorem parts?_wrap {algorithm : Oid} {parameters key : Bytes}
    (named : isOidBody algorithm.body = true) (room : parameters.length + key.length < 0x80000000) :
    parts? (wrap algorithm parameters key) = some (algorithm.body, parameters, key) := by
  have name := length_oidElement_le named
  have inner : (oidElement algorithm ++ parameters).length < 0x100000000 := by
    rw [List.length_append]
    omega
  have identifier := @length_element_le sequenceTag _ inner
  have bits := @length_bitString_le key (by omega)
  have whole : (element sequenceTag (oidElement algorithm ++ parameters) ++
      bitString key).length < 0x100000000 := by
    rw [List.length_append] at identifier ⊢
    omega
  have oid : takeOid? (oidElement algorithm ++ parameters) = some (algorithm.body, parameters) :=
    takeOid?_element named parameters
  have content : onlyBitString? (bitString key) = some key := onlyBitString?_bitString (by omega)
  unfold parts? wrap
  simp only [only?_element whole, take?_element inner, oid, content, Option.bind_eq_bind,
    Option.bind_some, Option.pure_def]

theorem decode_wrap {algorithm : Oid} {parameters key : Bytes}
    (named : isOidBody algorithm.body = true) (room : parameters.length + key.length < 0x80000000) :
    decode (wrap algorithm parameters key) =
      (ofIdentifier algorithm.body parameters >>= decodeKey key) := by
  unfold decode
  rw [parts?_wrap named room]

/-! ## Points -/

theorem isOidBody_curve (curve : NamedCurve) : isOidBody curve.oid.body = true := by
  cases curve <;> decide

/-- A curve is found by its name. -/
theorem ofIdentifier_ec (curve : NamedCurve) :
    ofIdentifier ecOid.body (oidElement curve.oid) = .ok (.ec curve) := by
  have name := takeOid?_element (isOidBody_curve curve) []
  rw [List.append_nil] at name
  have found : NamedCurve.all.find? (·.oid.body = curve.oid.body) = some curve := by
    cases curve <;> decide
  unfold ofIdentifier ofCurve oidElement
  rw [if_pos rfl, name]
  simp only [found]

/-- A coordinate has room in the width of its curve. -/
theorem lt_pow_width {C : Curve.Weierstrass} {n : Nat} (h : n < C.p) :
    n < Nat.pow 256 C.width := by
  refine Bytes.lt_pow_of_lt_two_pow (Nat.lt_trans h (lt_two_pow_bitLength C.p)) ?_
  unfold Curve.Weierstrass.width
  omega

theorem ofBigEndian_coordinate {C : Curve.Weierstrass} {n : Nat} (h : n < C.p) :
    Bytes.ofBigEndian (Bytes.bigEndian C.width n) = n := by
  rw [Bytes.ofBigEndian_bigEndian]
  exact Nat.mod_eq_of_lt (lt_pow_width h)

theorem decodePoint?_point {curve : NamedCurve} {x y : Nat}
    (point : curve.curve.contains x y = true) :
    decodePoint? curve (pointBytes curve x y) = some (.ec curve x y) := by
  have bounds := point
  simp only [Curve.Weierstrass.contains, Bool.and_eq_true, decide_eq_true_eq] at bounds
  obtain ⟨⟨hx, hy⟩, -⟩ := bounds
  have width := Bytes.length_bigEndian curve.curve.width x
  have front := @List.take_left' _ _ (Bytes.bigEndian curve.curve.width y) _ width
  have back := @List.drop_left' _ _ (Bytes.bigEndian curve.curve.width y) _ width
  unfold pointBytes decodePoint?
  rw [List.cons_append]
  simp only [front, back, ofBigEndian_coordinate hx, ofBigEndian_coordinate hy, List.length_append,
    Bytes.length_bigEndian]
  rw [if_pos (by omega), if_pos (.inl trivial), ofPoint?, if_pos point]

/-! ## Keys -/

theorem length_pointBytes (curve : NamedCurve) (x y : Nat) :
    (pointBytes curve x y).length = 2 * curve.curve.width + 1 := by
  simp only [pointBytes, List.length_cons, List.length_append, Bytes.length_bigEndian]
  omega

theorem width_le (curve : NamedCurve) : curve.curve.width ≤ 66 := by
  cases curve <;> decide +kernel

theorem rawKey?_raw (key : RawKey) : rawKey? key.val = some key :=
  dif_pos key.property

/-- **A key of a curve is read as it was written.** -/
theorem decode_encode_curve {key : PublicKey} (h : key.IsCurveKey) :
    decode (encode key) = .ok key := by
  cases key with
  | ec curve x y =>
    have narrow := width_le curve
    have size := length_pointBytes curve x y
    have name := length_oidElement_le (isOidBody_curve curve)
    rw [encode, decode_wrap (by decide) (by omega), ofIdentifier_ec]
    show decodeKey.found (decodePoint? curve (pointBytes curve x y)) = _
    rw [decodePoint?_point h]
    rfl
  | ed25519 key =>
    rw [encode, decode_wrap (by decide) (by rw [key.property]; decide)]
    show decodeKey.found ((rawKey? key.val).map .ed25519) = _
    rw [rawKey?_raw]
    rfl
  | x25519 key =>
    rw [encode, decode_wrap (by decide) (by rw [key.property]; decide)]
    show decodeKey.found ((rawKey? key.val).map .x25519) = _
    rw [rawKey?_raw]
    rfl
  | rsa modulus exponent => exact h.elim

end Key.Spki

end NotaryNetwork
