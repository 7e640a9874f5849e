import Calculator.Binary64.Nearest

/-!
# Doubles and their bits

A finite double without a minus sign is determined by its bits, and its bits are
those from which it was made.
-/

namespace Calculator.Binary64

open Float.Model Float.Model.UnpackedFloat

/-- The double with the given bits. -/
def ofBits (bits : Nat) : Float :=
  Float.ofBits (UInt64.ofNat bits)

def toBits (x : Float) : Nat :=
  x.toBits.toNat

theorem toNat_packComponents (e : BitVec 11) (m : BitVec 52) :
    (packComponents Format.binary64 .positive e m).toNat =
      e.toNat * fractionRange + m.toNat := by
  have hm := m.isLt
  simp only [packComponents, Sign.toBitVec, BitVec.toNat_append]
  rw [Nat.shiftLeft_eq, Nat.shiftLeft_eq]
  have : (0#1).toNat = 0 := rfl
  rw [this, Nat.zero_mul, Nat.zero_or, fractionRange_eq, Nat.mul_comm,
    ← Nat.two_pow_add_eq_or_of_lt hm]

theorem toNat_unpackMantissa (b : BitVec 64) :
    (@unpackMantissa Format.binary64 b).toNat = b.toNat % fractionRange := by
  simp [unpackMantissa, BitVec.extractLsb, BitVec.extractLsb', fractionRange]

theorem toNat_unpackExponent (b : BitVec 64) :
    (@unpackExponent Format.binary64 b).toNat = b.toNat / fractionRange % 2048 := by
  simp [unpackExponent, BitVec.extractLsb, BitVec.extractLsb', Nat.shiftRight_eq_div_pow,
    fractionRange]

theorem toNat_unpackSign (b : BitVec 64) :
    (@unpackSign Format.binary64 b).toNat = b.toNat / signBit % 2 := by
  unfold unpackSign
  simp [BitVec.extractLsb, BitVec.extractLsb', Nat.shiftRight_eq_div_pow, signBit]

theorem exponentBias_eq : Format.binary64.exponentBias = 1023 := rfl

theorem mantissaBits_eq : Format.binary64.mantissaBits = 53 := rfl

theorem toNat_pack_zero : (UnpackedFloat.pack Format.binary64 (.zero .positive)).toNat = 0 := rfl

theorem toNat_pack_subnormal {m : Nat} {e : Int} (hm : 0 < m) (hlt : m < fractionRange)
    (he : e = -1074) :
    (UnpackedFloat.pack Format.binary64 (.finite .positive m e hm)).toNat = m := by
  rw [fractionRange_eq] at hlt
  have hlog : m.log2 < 52 := (Nat.log2_lt (Nat.ne_of_gt hm)).2 hlt
  subst he
  unfold UnpackedFloat.pack
  dsimp only
  rw [exponentBias_eq, mantissaBits_eq, if_neg (by decide), if_neg (by omega),
    toNat_packComponents]
  simp
  omega

/-- A normal double keeps its significand without the leading bit. -/
theorem toNat_pack_normal {m n : Nat} {e : Int} (hm : 0 < m) (hlo : fractionRange ≤ m)
    (hhi : m < 2 * fractionRange) (he : e = n - 1075) (hpos : 0 < n) (hn : n < 2047) :
    (UnpackedFloat.pack Format.binary64 (.finite .positive m e hm)).toNat =
      n * fractionRange + m % fractionRange := by
  rw [fractionRange_eq] at hlo hhi
  have hlog : m.log2 = 52 := (Nat.log2_eq_iff (Nat.ne_of_gt hm)).2 ⟨hlo, by omega⟩
  subst he
  unfold UnpackedFloat.pack
  dsimp only
  rw [exponentBias_eq, mantissaBits_eq, hlog, if_neg (by simp; omega), if_pos rfl,
    toNat_packComponents, fractionRange_eq]
  simp
  omega

theorem pack_unpack {b : BitVec 64} (h : b.toNat < infinity) :
    UnpackedFloat.pack Format.binary64 (UnpackedFloat.unpack Format.binary64 b) = b := by
  have hm := toNat_unpackMantissa b
  have he := toNat_unpackExponent b
  have hs := toNat_unpackSign b
  unfold infinity at h
  unfold fractionRange at hm he
  unfold signBit at hs
  have hsign : @unpackSign Format.binary64 b = 0#1 := by
    apply BitVec.eq_of_toNat_eq
    rw [hs]
    simp
    omega
  have hpositive : Sign.ofBitVec (@unpackSign Format.binary64 b) = .positive := by
    rw [hsign]
    rfl
  have hexp : @unpackExponent Format.binary64 b ≠ -1#_ := by
    intro hc
    rw [hc] at he
    simp at he
    omega
  apply BitVec.eq_of_toNat_eq
  unfold UnpackedFloat.unpack
  dsimp only
  rw [hpositive, if_neg hexp]
  by_cases he0 : @unpackExponent Format.binary64 b = 0#_
  · have hez : (@unpackExponent Format.binary64 b).toNat = 0 := by rw [he0]; rfl
    rw [if_pos he0]
    by_cases hm0 : @unpackMantissa Format.binary64 b = 0#_
    · have hmz : (@unpackMantissa Format.binary64 b).toNat = 0 := by rw [hm0]; rfl
      rw [dif_pos hm0, toNat_pack_zero]
      omega
    · have hlt : (@unpackMantissa Format.binary64 b).toNat < fractionRange :=
        (@unpackMantissa Format.binary64 b).isLt
      rw [dif_neg hm0, toNat_pack_subnormal _ hlt (by rw [he0]; rfl), hm]
      omega
  · have hez : (@unpackExponent Format.binary64 b).toNat ≠ 0 := fun hc =>
      he0 (BitVec.eq_of_toNat_eq (by rw [hc]; rfl))
    have hone : (1#1 ++ @unpackMantissa Format.binary64 b).toNat =
        fractionRange + (@unpackMantissa Format.binary64 b).toNat := by
      rw [BitVec.toNat_append, Nat.shiftLeft_eq]
      have : (1#1).toNat = 1 := rfl
      rw [this, Nat.one_mul]
      exact (Nat.two_pow_add_eq_or_of_lt (@unpackMantissa Format.binary64 b).isLt 1).symm
    unfold fractionRange at hone
    rw [if_neg he0, toNat_pack_normal _ (by unfold fractionRange; omega)
      (by unfold fractionRange; omega) (by rw [exponentBias_eq]; rfl) (by omega) (by omega)]
    unfold fractionRange
    omega

theorem ofBits_toBits {x : Float} (h : toBits x < infinity) : ofBits (toBits x) = x := by
  obtain ⟨⟨bits, valid⟩⟩ := x
  have hpack := @pack_unpack bits.toBitVec h
  unfold ofBits toBits Float.toBits Float.ofBits Float.Model.ofBits Float.Model.pack
  rw [UInt64.ofNat_toNat, Float.ofModel.injEq, Float.Model.mk.injEq, hpack]

theorem toBits_ofBits {bits : Nat} (h : bits < infinity) : toBits (ofBits bits) = bits := by
  have hlt : bits < UInt64.size := Nat.lt_trans h (by decide)
  have hbits : (UInt64.ofNat bits).toNat = bits := UInt64.toNat_ofNat_of_lt' hlt
  have hpack := @pack_unpack (UInt64.ofNat bits).toBitVec (by simpa [hbits] using h)
  unfold toBits Float.toBits ofBits Float.ofBits Float.Model.ofBits Float.Model.pack
  dsimp only
  rw [hpack]
  exact hbits

end Calculator.Binary64
