import Mathlib
import TensorCall.Proofs.Acceptance

namespace TensorCall

theorem ofLittleEndian_lt (bytes : List UInt8) : ofLittleEndian bytes < 256 ^ bytes.length := by
  induction bytes with
  | nil => decide
  | cons b bytes ih =>
    have hb : b.toNat < 256 := UInt8.toNat_lt b
    simp only [ofLittleEndian, List.length_cons, Nat.pow_succ]
    omega

theorem ofLittleEndian_littleEndian (count n : Nat) :
    ofLittleEndian (littleEndian count n) = n % 256 ^ count := by
  induction count generalizing n with
  | zero => simp [littleEndian, ofLittleEndian, Nat.mod_one]
  | succ count ih =>
    have split : n % 256 ^ (count + 1) = n % 256 + 256 * (n / 256 % 256 ^ count) := by
      rw [Nat.pow_succ', Nat.mod_mul]
    rw [split, littleEndian, ofLittleEndian, ih, UInt8.toNat_ofNat']

theorem littleEndian_ofLittleEndian (bytes : List UInt8) :
    littleEndian bytes.length (ofLittleEndian bytes) = bytes := by
  induction bytes with
  | nil => rfl
  | cons b bytes ih =>
    have hb : b.toNat < 256 := UInt8.toNat_lt b
    have low : UInt8.ofNat (b.toNat + 256 * ofLittleEndian bytes) = b := by
      apply UInt8.toNat_inj.1
      rw [UInt8.toNat_ofNat']
      omega
    have high : (b.toNat + 256 * ofLittleEndian bytes) / 256 = ofLittleEndian bytes := by omega
    simp only [List.length_cons, littleEndian, ofLittleEndian, low, high, ih]

theorem groups_nil (width : Nat) : groups width [] = [] := by
  rw [groups, if_pos (.inr rfl)]

theorem groups_append {width : Nat} {g : List UInt8} (positive : 0 < width)
    (whole : g.length = width) (rest : List UInt8) :
    groups width (g ++ rest) = g :: groups width rest := by
  have filled : ¬ (width = 0 ∨ g ++ rest = []) := by
    rintro (zero | empty)
    · omega
    · have none : g = [] := (List.append_eq_nil_iff.mp empty).1
      rw [none, List.length_nil] at whole
      omega
  rw [groups, if_neg filled, List.take_left' whole, List.drop_left' whole]

namespace Scalar

variable (s : Scalar)

theorem pow_size : 256 ^ s.size = 2 ^ (8 * s.size) := by
  rw [Nat.pow_mul]

theorem ofNat_ofLittleEndian_littleEndian (v : s.Value) :
    BitVec.ofNat (8 * s.size) (ofLittleEndian (littleEndian s.size v.toNat)) = v := by
  apply BitVec.eq_of_toNat_eq
  rw [ofLittleEndian_littleEndian, s.pow_size, Nat.mod_eq_of_lt v.isLt, BitVec.toNat_ofNat,
    Nat.mod_eq_of_lt v.isLt]

theorem littleEndian_toNat_ofNat {g : List UInt8} (whole : g.length = s.size) :
    littleEndian s.size (BitVec.ofNat (8 * s.size) (ofLittleEndian g)).toNat = g := by
  have bound : ofLittleEndian g < 2 ^ (8 * s.size) := by
    rw [← s.pow_size, ← whole]
    exact ofLittleEndian_lt g
  rw [BitVec.toNat_ofNat, Nat.mod_eq_of_lt bound, ← whole, littleEndian_ofLittleEndian]

theorem decode_nil : s.decode [] = [] := by
  rw [decode, groups_nil, List.map_nil]

theorem decode_append {g : List UInt8} (whole : g.length = s.size) (rest : List UInt8) :
    s.decode (g ++ rest) = BitVec.ofNat (8 * s.size) (ofLittleEndian g) :: s.decode rest := by
  rw [decode, groups_append s.size_pos whole, List.map_cons, ← decode]

theorem decode_encode (values : List s.Value) : s.decode (s.encode values) = values := by
  induction values with
  | nil => exact s.decode_nil
  | cons v values ih =>
    have whole : (littleEndian s.size v.toNat).length = s.size := length_littleEndian _ _
    have front : s.encode (v :: values) = littleEndian s.size v.toNat ++ s.encode values :=
      List.flatMap_cons
    rw [front, s.decode_append whole, s.ofNat_ofLittleEndian_littleEndian, ih]

/- The bytes are those of `n` elements, so that no last element is cut short. -/
theorem encode_decode {n : Nat} {bytes : List UInt8} (whole : bytes.length = n * s.size) :
    (s.decode bytes).length = n ∧ s.encode (s.decode bytes) = bytes := by
  induction n generalizing bytes with
  | zero =>
    obtain rfl : bytes = [] := List.length_eq_zero_iff.mp (by rw [whole, Nat.zero_mul])
    rw [s.decode_nil]
    exact ⟨rfl, rfl⟩
  | succ n ih =>
    have total : bytes.length = s.size + n * s.size := by rw [whole, Nat.succ_mul, Nat.add_comm]
    have first : (bytes.take s.size).length = s.size :=
      List.length_take_of_le (total ▸ Nat.le_add_right _ _)
    have later : (bytes.drop s.size).length = n * s.size := by
      rw [List.length_drop, total, Nat.add_sub_cancel_left]
    obtain ⟨length, same⟩ := ih later
    rw [← List.take_append_drop s.size bytes, s.decode_append first]
    refine ⟨by rw [List.length_cons, length], ?_⟩
    rw [encode, List.flatMap_cons, s.littleEndian_toNat_ofNat first, ← encode, same]

end Scalar

namespace Tensor

theorem values_of_other_type {t : Tensor} {u : Scalar} (other : u.elementType ≠ t.elementType) :
    t.values u = .error (.typeRequested u.elementType t.elementType) := by
  rw [values, if_neg other]

theorem values_of_contents {t : Tensor} {s : Scalar} {c : Contents}
    (typed : s.elementType = t.elementType) (held : t.contents = some c) :
    t.values s = .ok (s.decode c.bytes) := by
  rw [values, if_pos typed, bytes, held]
  rfl

theorem values_stored {t : Tensor} {p : Payload} (typed : p.scalar.elementType = t.elementType) :
    (t.stored p).values p.scalar = .ok p.values := by
  have read := values_of_contents (t := t.stored p) typed rfl
  rwa [Payload.contents, p.scalar.decode_encode] at read

theorem ofValues_of_count {p : Payload}
    (filled : (TensorCall.elementCount? p.dims).map UInt64.toNat = some p.values.length) :
    ofValues p = .ok (holding p.scalar.elementType p.contents) := if_pos filled

/-- Values that were put into a tensor, at its making or by a write, are read from it just as they
were; and a tensor made of the values that are read holds the same bytes. No other scalar can be
read from it. -/
theorem values_roundtrip (s : Scalar) :
    (∀ (values : List s.Value) (dims : List Length),
      (TensorCall.elementCount? dims).map UInt64.toNat = some values.length →
      ∃ t, ofValues ⟨s, values, dims⟩ = .ok t ∧ t.values s = .ok values) ∧
    (∀ (t t' : Tensor) (values : List s.Value) (dims : List Length),
      t.write ⟨s, values, dims⟩ = (.ok (), t') → t'.values s = .ok values) ∧
    (∀ (t : Tensor) (c : Contents), t.Lived → t.elementType = s.elementType →
      t.contents = some c →
      ∃ values, t.values s = .ok values ∧ values.length = t.length.toNat ∧
        ∃ t', ofValues ⟨s, values, c.dims⟩ = .ok t' ∧ t'.contents = some c) ∧
    ∀ (t : Tensor) (u : Scalar), t.elementType = s.elementType → u ≠ s →
      t.values u = .error (.typeRequested u.elementType s.elementType) := by
  refine ⟨?_, ?_, ?_, ?_⟩
  · intro values dims filled
    refine ⟨_, ofValues_of_count filled, ?_⟩
    rw [values_of_contents rfl rfl, Payload.contents, s.decode_encode]
  · intro t t' values dims written
    obtain ⟨fits, rfl⟩ := write_eq_ok_iff.mp written
    exact values_stored fits.typed
  · intro t c lived typed held
    have sound := lived.sound
    have count := sound.elementCount? held
    have total : product c.dims = t.length.toNat := (elementCount?_eq_some_iff.mp count).2.symm
    -- whole elements are held, so decoding cuts none of them short
    have whole : c.bytes.length = t.length.toNat * s.size := by
      rw [(sound.fits c held).filled, total, typed, Scalar.size]
    obtain ⟨length, same⟩ := s.encode_decode whole
    refine ⟨_, values_of_contents typed.symm held, length, ?_⟩
    have filled : (TensorCall.elementCount? c.dims).map UInt64.toNat =
        some (s.decode c.bytes).length := by
      rw [count, Option.map_some, length]
    refine ⟨_, ofValues_of_count filled, ?_⟩
    rw [holding, Payload.contents, same]
  · intro t u typed other
    rw [values_of_other_type, typed]
    intro same
    exact other (Scalar.elementType_injective (same.trans typed))

/- A negative number, stored at the making of a tensor and over stale contents, and bytes that
are a NaN with a payload. -/
theorem values_roundtrip_nan :
    let nan : Contents := ⟨[1, 0, 0xa0, 0x7f], [1]⟩
    let t : Tensor := .holding .f32 nan
    let stale : Tensor := ⟨.i32, .unranked, some ⟨[9, 9, 9, 9], [1]⟩, true⟩
    (∃ t', ofValues ⟨.i32, [-2, 7], [2]⟩ = .ok t' ∧ t'.values .i32 = .ok [-2, 7]) ∧
      (∃ t', stale.write ⟨.i32, [-2, 7], [2]⟩ = (.ok (), t') ∧ t'.values .i32 = .ok [-2, 7]) ∧
      (∃ values, t.values .f32 = .ok values ∧ values.length = 1 ∧
        ∃ t', ofValues ⟨.f32, values, [1]⟩ = .ok t' ∧ t'.contents = some nan) ∧
      t.values .u32 = .error (.typeRequested .u32 .f32) := by
  intro nan t stale
  obtain ⟨made, written, -, -⟩ := values_roundtrip .i32
  obtain ⟨-, -, held, other⟩ := values_roundtrip .f32
  have wrapped : ofBytes .f32 nan.bytes [1] = .ok t := rfl
  have lived : t.Lived := ⟨t, .ofBytes wrapped, .refl⟩
  refine ⟨made _ _ rfl, ⟨_, rfl, ?_⟩, held t nan lived rfl rfl, other t .u32 rfl (by decide)⟩
  exact written stale _ [-2, 7] [2] rfl

end Tensor

end TensorCall
