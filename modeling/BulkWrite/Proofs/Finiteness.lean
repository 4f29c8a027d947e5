import Mathlib
import BulkWrite.Json.Number

/-!
Number literals are read as finite numbers (`isFinite_of_number?`). Packing turns a rounded number
into an infinity only beyond the largest exponent. A scaled product is checked for that; a quotient
is not, but it is no larger than its dividend.
-/
namespace BulkWrite

namespace Decimal

open Float.Model Float.Model.UnpackedFloat

/-- A finite number with at most 53 bits and an exponent of at most `k`. -/
def Within (k : Int) : UnpackedFloat → Prop
  | .zero _ => True
  | .finite _ m e _ => m.log2 ≤ 52 ∧ e ≤ k
  | .infinity _ | .notANumber => False

/-- A number with exactly 53 bits and an exponent from `j` to `k`. -/
def Normal (j k : Int) : UnpackedFloat → Prop
  | .finite _ m e _ => m.log2 = 52 ∧ j ≤ e ∧ e ≤ k
  | .zero _ | .infinity _ | .notANumber => False

def isAtLeastTwo : UnpackedFloat → Bool
  | .finite _ m e _ => decide (1 ≤ m.log2 + e)
  | .zero _ | .infinity _ | .notANumber => false

theorem Within.isFinite {k : Int} {f : UnpackedFloat} (h : Within k f) : f.isFinite = true := by
  cases f with
  | zero s => rfl
  | finite s m e hm => rfl
  | _ => exact h.elim

theorem Normal.mono {i j k l : Int} (hij : j ≤ i) (hkl : k ≤ l) {f : UnpackedFloat}
    (h : Normal i k f) : Normal j l f := by
  cases f with
  | finite s m e hm => exact ⟨h.1, hij.trans h.2.1, h.2.2.trans hkl⟩
  | _ => exact h.elim

theorem Normal.within {j k : Int} {f : UnpackedFloat} (h : Normal j k f) : Within k f := by
  cases f with
  | finite s m e hm => exact ⟨h.1.le, h.2.2⟩
  | _ => exact h.elim

theorem Normal.isAtLeastTwo {j k : Int} (hj : -51 ≤ j) {f : UnpackedFloat} (h : Normal j k f) :
    isAtLeastTwo f = true := by
  cases f with
  | finite s m e hm =>
    obtain ⟨hm, he, -⟩ := h
    exact decide_eq_true (by omega)
  | _ => exact h.elim

/-! Binary lengths. -/

theorem log2_mono {m n : Nat} (h : m ≤ n) : m.log2 ≤ n.log2 := by
  simpa only [Nat.log2_eq_log_two] using Nat.log_mono_right h

theorem log2_le_of_lt {m k : Nat} (h : m < 2 ^ (k + 1)) : m.log2 ≤ k := by
  by_cases hm : m = 0
  · simp [hm]
  · exact Nat.le_of_lt_succ ((Nat.log2_lt hm).mpr h)

theorem log2_succ_le (m : Nat) : (m + 1).log2 ≤ m.log2 + 1 := by
  cases m with
  | zero => decide
  | succ m =>
    rw [← Nat.log2_two_mul (by omega)]
    exact log2_mono (by omega)

theorem log2_div_two_pow (m k : Nat) : (m / 2 ^ k).log2 = m.log2 - k := by
  simp only [Nat.log2_eq_log_two, Nat.log_div_base_pow]

theorem log2_shiftLeft {m : Nat} (hm : 0 < m) (k : Nat) : (m <<< k).log2 = m.log2 + k := by
  induction k with
  | zero => rfl
  | succ k ih =>
    rw [Nat.shiftLeft_succ, Nat.log2_two_mul (Nat.shiftLeft_pos_iff.mpr hm).ne', ih, Nat.add_assoc]

theorem log2_mul_le (m n : Nat) : (m * n).log2 ≤ m.log2 + n.log2 + 1 := by
  by_cases hm : m = 0
  · simp [hm]
  by_cases hn : n = 0
  · simp [hn]
  have hlt : m * n < 2 ^ (m.log2 + 1) * 2 ^ (n.log2 + 1) :=
    Nat.mul_lt_mul'' Nat.lt_log2_self Nat.lt_log2_self
  rw [← Nat.pow_add, ← Nat.log2_lt (Nat.mul_ne_zero hm hn)] at hlt
  omega

theorem log2_div_le (m : Nat) {n : Nat} (hn : 0 < n) : (m / n).log2 ≤ m.log2 - n.log2 := by
  rw [← log2_div_two_pow]
  exact log2_mono (Nat.div_le_div_left (Nat.log2_self_le (by omega)) (Nat.two_pow_pos _))

/-! Rounding to 53 bits. -/

theorem targetExponent_eq (t : Int) : Format.binary64.targetExponent t = max (t - 53) (-1074) := rfl

theorem mantissa_shiftRight (em : ExtendedMantissa) (k : Nat) :
    (em >>> k).mantissa = em.mantissa / 2 ^ k := by
  induction k with
  | zero => simp [HShiftRight.hShiftRight, Nat.repeat]
  | succ k ih =>
    change (em >>> k).mantissa / 2 = _
    rw [ih, Nat.div_div_eq_div_mul, Nat.pow_succ]

theorem le_roundedMantissa (em : ExtendedMantissa) : em.mantissa ≤ em.roundedMantissa := by
  obtain ⟨m, r, s⟩ := em
  cases r <;> cases s <;>
    simp [ExtendedMantissa.roundedMantissa, ExtendedMantissa.accuracy, Accuracy.roundToNearestEven]

theorem roundedMantissa_le (em : ExtendedMantissa) : em.roundedMantissa ≤ em.mantissa + 1 := by
  obtain ⟨m, r, s⟩ := em
  cases r <;> cases s <;>
    simp [ExtendedMantissa.roundedMantissa, ExtendedMantissa.accuracy, Accuracy.roundToNearestEven]
  omega

/-- Shifting a mantissa drops its last places until it has 53 bits or the exponent is the least. -/
theorem log2_shiftToTargetExponent (m : Nat) (e : Int) (a : Accuracy) :
    (shiftToTargetExponent .binary64 m e a).1.mantissa.log2 =
      m.log2 - (max (m.log2 - 52 + e) (-1074) - e).toNat := by
  rw [shiftToTargetExponent, shiftToExponent, mantissa_shiftRight, log2_div_two_pow]
  have hm : (ExtendedMantissa.ofMantissaAndAccuracy m a).mantissa = m := by
    cases a with
    | exact => rfl
    | inexact o => cases o <;> rfl
  rw [hm, targetExponent_eq, totalExponent]
  omega

theorem exponent_shiftToTargetExponent (m : Nat) (e : Int) (a : Accuracy) :
    (shiftToTargetExponent .binary64 m e a).2 = max e (max (m.log2 - 52 + e) (-1074)) := by
  simp only [shiftToTargetExponent, shiftToExponent, targetExponent_eq, totalExponent]
  omega

/-- A mantissa is shifted, rounded, which may carry into one more place, and shifted again. -/
theorem exists_roundWithAccuracy_eq (s : Sign) (m : Nat) (e : Int) (a : Accuracy) :
    ∃ (places : Nat) (m' : Nat) (e' : Int),
      m.log2 - (max (m.log2 - 52 + e) (-1074) - e).toNat ≤ places ∧
      places ≤ m.log2 - (max (m.log2 - 52 + e) (-1074) - e).toNat + 1 ∧
      m'.log2 = places - (max (places - 52 + max e (max (m.log2 - 52 + e) (-1074))) (-1074) -
        max e (max (m.log2 - 52 + e) (-1074))).toNat ∧
      e' = max (max e (max (m.log2 - 52 + e) (-1074)))
        (max (places - 52 + max e (max (m.log2 - 52 + e) (-1074))) (-1074)) ∧
      roundWithAccuracy .binary64 s m e a =
        if h : m' = 0 then .zero s else .finite s m' e' (Nat.pos_of_ne_zero h) := by
  have hlow := log2_mono (le_roundedMantissa (shiftToTargetExponent .binary64 m e a).1)
  have hhigh := log2_mono (roundedMantissa_le (shiftToTargetExponent .binary64 m e a).1)
  have hsucc := log2_succ_le (shiftToTargetExponent .binary64 m e a).1.mantissa
  rw [log2_shiftToTargetExponent] at hlow hsucc
  rw [← exponent_shiftToTargetExponent m e a]
  exact ⟨_, _, _, hlow, hhigh.trans hsucc, log2_shiftToTargetExponent _ _ .exact,
    exponent_shiftToTargetExponent _ _ .exact, rfl⟩

theorem within_roundWithAccuracy {k : Int} (hk : -1074 ≤ k) (s : Sign) {m : Nat} {e : Int}
    (a : Accuracy) (he : e ≤ k) (hm : m.log2 + e ≤ k + 51) :
    Within k (roundWithAccuracy .binary64 s m e a) := by
  obtain ⟨places, m', e', hlow, hhigh, hm', he', heq⟩ := exists_roundWithAccuracy_eq s m e a
  rw [heq]
  split_ifs
  · trivial
  · simp only [Within]
    omega

theorem normal_roundWithAccuracy (s : Sign) {m : Nat} {e : Int} (a : Accuracy) (hm : 52 ≤ m.log2)
    (he : -1074 ≤ m.log2 - 52 + e) :
    Normal (m.log2 - 52 + e) (m.log2 - 51 + e) (roundWithAccuracy .binary64 s m e a) := by
  obtain ⟨places, m', e', hlow, hhigh, hm', he', heq⟩ := exists_roundWithAccuracy_eq s m e a
  have hlog : m'.log2 = 52 := by omega
  have hne : m' ≠ 0 := by
    rintro rfl
    cases hlog
  rw [heq, dif_neg hne]
  simp only [Normal]
  omega

/-! Packing into 64 bits, and unpacking. -/

section

theorem toNat_exponent {b : Nat} (h : b < 2047) :
    (BitVec.ofNat 11 b).toNat = b ∧ BitVec.ofNat 11 b ≠ -1#11 := by
  have hb : (BitVec.ofNat 11 b).toNat = b := by
    rw [BitVec.toNat_ofNat]
    omega
  refine ⟨hb, fun hones => ?_⟩
  have := congrArg BitVec.toNat hones
  rw [hb] at this
  have hneg : (-1#11).toNat = 2047 := rfl
  omega

variable {b : BitVec Format.binary64.numBits}

theorem log2_implicit (mantissa : BitVec 52) : (1#1 ++ mantissa).toNat.log2 = 52 := by
  have hlow : 2 ^ 52 ≤ (1#1 ++ mantissa).toNat := by
    rw [BitVec.toNat_append]
    exact Nat.left_le_or
  exact (Nat.log2_eq_iff (by omega)).mpr ⟨hlow, (1#1 ++ mantissa).isLt⟩

theorem within_unpack {k : Int} (hk : -1074 ≤ k) (hne : unpackExponent b ≠ -1#11)
    (h : (unpackExponent b).toNat ≤ k + 1075) : Within k (unpack .binary64 b) := by
  have hbits : ((Format.binary64.exponentBias : Int) +
      (Format.binary64.mantissaBitsWithoutImplicit : Int)) = 1075 := rfl
  unfold UnpackedFloat.unpack
  simp only [hbits]
  rw [if_neg hne]
  split_ifs with hzero hm
  · trivial
  · have hlt : (unpackMantissa b).toNat < 2 ^ 52 := (unpackMantissa b).isLt
    have hpos : (unpackMantissa b).toNat ≠ 0 := fun h0 => hm (BitVec.eq_of_toNat_eq h0)
    have hlog := (Nat.log2_lt hpos).mpr hlt
    rw [hzero]
    exact ⟨by omega, by change (0 : Int) - 1075 + 1 ≤ k; omega⟩
  · exact ⟨(log2_implicit _).le, by omega⟩

theorem normal_unpack (hne : unpackExponent b ≠ -1#11) (hpos : 0 < (unpackExponent b).toNat) :
    Normal ((unpackExponent b).toNat - 1075) ((unpackExponent b).toNat - 1075)
      (unpack .binary64 b) := by
  have hzero : unpackExponent b ≠ 0#11 := by
    intro h
    rw [h] at hpos
    cases hpos
  unfold UnpackedFloat.unpack
  simp only
  rw [if_neg hne, if_neg hzero]
  exact ⟨log2_implicit _, le_rfl, le_rfl⟩

theorem within_of_isFinite (h : (unpack .binary64 b).isFinite = true) :
    Within 971 (unpack .binary64 b) := by
  by_cases hne : unpackExponent b = -1#11
  · revert h
    unfold UnpackedFloat.unpack
    simp only
    rw [if_pos hne]
    split_ifs <;> simp [UnpackedFloat.isFinite]
  · have hlt : (unpackExponent b).toNat < 2048 := (unpackExponent b).isLt
    have hne' : (unpackExponent b).toNat ≠ 2047 := fun h => hne (BitVec.eq_of_toNat_eq h)
    exact within_unpack (by decide) hne (by omega)

theorem isInf_unpack_packedInfinity (s : Sign) :
    (unpack .binary64 (packedInfinity .binary64 s)).isInf = true := by
  unfold UnpackedFloat.unpack packedInfinity
  simp only [unpackExponent_packComponents, unpackMantissa_packComponents]
  rfl

theorem pack_finite (s : Sign) (m : Nat) (e : Int) (hm : 0 < m) :
    pack .binary64 (finite s m e hm) =
      if 2047 ≤ (e + 1075).toNat then packedInfinity .binary64 s
      else packComponents .binary64 s
        (if m.log2 = 52 then BitVec.ofNat 11 (e + 1075).toNat else 0#11) (BitVec.ofNat 52 m) := by
  have hbias : e + (Format.binary64.exponentBias : Int) +
      (Format.binary64.mantissaBitsWithoutImplicit : Int) = e + 1075 := by
    simp [Format.exponentBias]
    omega
  have hbits : Format.binary64.mantissaBits = 53 := rfl
  have hcapacity : 2 ^ Format.binary64.exponentBits = 2048 := rfl
  simp only [UnpackedFloat.pack]
  rw [hbias, hbits, hcapacity]
  by_cases hover : 2047 ≤ (e + 1075).toNat
  · rw [if_pos hover, if_pos (by omega)]
  · rw [if_neg hover, if_neg (by omega)]
    by_cases hnormal : m.log2 = 52
    · rw [if_pos hnormal, if_pos (by omega)]
    · rw [if_neg hnormal, if_neg (by omega)]

theorem within_unpack_pack {k : Int} (hk : -1074 ≤ k) (hmax : k ≤ 971) {f : UnpackedFloat}
    (h : Within k f) : Within k (unpack .binary64 (pack .binary64 f)) := by
  cases f with
  | zero s =>
    refine within_unpack hk ?_ ?_
    · rw [UnpackedFloat.pack, packedZero, unpackExponent_packComponents]
      decide
    · rw [UnpackedFloat.pack, packedZero, unpackExponent_packComponents]
      change (0 : Int) ≤ _
      omega
  | finite s m e hm =>
    obtain ⟨-, he⟩ := h
    obtain ⟨hb, hones⟩ := toNat_exponent (b := (e + 1075).toNat) (by omega)
    rw [pack_finite, if_neg (by omega)]
    refine within_unpack hk ?_ ?_
    · rw [unpackExponent_packComponents]
      split_ifs
      · exact hones
      · decide
    · rw [unpackExponent_packComponents]
      split_ifs
      · omega
      · change (0 : Int) ≤ _
        omega
  | _ => exact h.elim

theorem normal_unpack_pack {j k : Int} (hj : -1074 ≤ j) (hmax : k ≤ 971) {f : UnpackedFloat}
    (h : Normal j k f) : Normal j k (unpack .binary64 (pack .binary64 f)) := by
  cases f with
  | finite s m e hm =>
    obtain ⟨hlog, hlow, hhigh⟩ := h
    obtain ⟨hb, hones⟩ := toNat_exponent (b := (e + 1075).toNat) (by omega)
    rw [pack_finite, if_neg (by omega), if_pos hlog]
    have hexponent : unpackExponent (packComponents .binary64 s
        (BitVec.ofNat 11 (e + 1075).toNat) (BitVec.ofNat 52 m)) =
        BitVec.ofNat 11 (e + 1075).toNat := unpackExponent_packComponents
    have h := normal_unpack (hexponent ▸ hones) (by rw [hexponent, hb]; omega)
    rw [hexponent, hb] at h
    exact h.mono (by omega) (by omega)
  | _ => exact h.elim

theorem isFinite_or_isInf {k : Int} {f : UnpackedFloat} (h : Within k f) :
    (unpack .binary64 (pack .binary64 f)).isFinite = true ∨
      (unpack .binary64 (pack .binary64 f)).isInf = true := by
  cases f with
  | zero s =>
    have hwithin : Within 0 (.zero s) := trivial
    exact .inl (within_unpack_pack (by decide) (by decide) hwithin).isFinite
  | finite s m e hm =>
    by_cases he : e ≤ 971
    · have hwithin : Within (max e (-1074)) (.finite s m e hm) := ⟨h.1, le_max_left _ _⟩
      exact .inl (within_unpack_pack (by omega) (by omega) hwithin).isFinite
    · rw [pack_finite, if_pos (by omega)]
      exact .inr (isInf_unpack_packedInfinity s)
  | _ => exact h.elim

end

/-! Products, quotients and integers. -/

theorem within_mul {j k : Int} (hjk : -1128 ≤ j + k) {f g : UnpackedFloat} (hf : Within j f)
    (hg : Within k g) : Within (j + k + 54) (mul .binary64 f g) := by
  cases f with
  | zero s => cases g with
    | zero t => trivial
    | finite t n d hn => trivial
    | _ => exact hg.elim
  | finite s m e hm => cases g with
    | zero t => trivial
    | finite t n d hn =>
      obtain ⟨hm', he⟩ := hf
      obtain ⟨hn', hd⟩ := hg
      have hmul := log2_mul_le m n
      exact within_roundWithAccuracy (by omega) _ _ (by omega) (by omega)
    | _ => exact hg.elim
  | _ => exact hf.elim

theorem within_div {f g : UnpackedFloat} (hf : Within 971 f) (hg : isAtLeastTwo g = true) :
    Within 971 (div .binary64 f g) := by
  cases g with
  | finite t n d hn =>
    have hd : 1 ≤ n.log2 + d := of_decide_eq_true hg
    cases f with
    | zero s => trivial
    | finite s m e hm =>
      obtain ⟨hm', he⟩ := hf
      simp only [UnpackedFloat.div, divCore, targetExponent_eq, totalExponent]
      generalize hshift : (e - d - _).toNat = shift
      have hq := log2_div_le (m <<< shift) hn
      rw [log2_shiftLeft hm] at hq
      exact within_roundWithAccuracy (by decide) _ _ (by omega) (by omega)
    | _ => exact hf.elim
  | _ => cases hg

theorem within_ofNat {n : Nat} (h : n.log2 ≤ 63) : Within 12 (UnpackedFloat.ofNat .binary64 n) := by
  rcases Nat.eq_zero_or_pos n with rfl | hn
  · trivial
  · simp only [UnpackedFloat.ofNat, UnpackedFloat.ofInt, UnpackedFloat.normalize]
    rw [Int.compare_eq_gt.mpr (by omega)]
    simp only [UnpackedFloat.round, decreaseExponent, Int.toNat_natCast]
    generalize (0 - _ : Int).toNat = shift
    have hlog := log2_shiftLeft hn shift
    exact within_roundWithAccuracy (by decide) _ _ (by omega) (by omega)

theorem ofScientific_eq {n : Nat} (hn : n ≠ 0) : UnpackedFloat.ofScientific .binary64 n 0 =
    roundWithAccuracy .binary64 .positive (n <<< 53) (-53) .exact := by
  have hbits : Format.binary64.mantissaBits = 53 := rfl
  have hcapacity : (2 : Int) ^ Format.binary64.exponentBits = 2048 := rfl
  simp only [UnpackedFloat.ofScientific, hcapacity]
  rw [dif_neg hn, if_neg (by decide), if_neg (by omega), if_pos le_rfl]
  simp only [UnpackedFloat.mul, hbits, Int.toNat_zero, Nat.pow_zero, Nat.mul_one]
  rfl

theorem normal_ofScientific {n : Nat} (h : 53 ≤ n.log2) :
    Normal (n.log2 - 52) (n.log2 - 51) (UnpackedFloat.ofScientific .binary64 n 0) := by
  have hn : n ≠ 0 := by
    rintro rfl
    cases h
  have hlog := log2_shiftLeft (Nat.pos_of_ne_zero hn) 53
  rw [ofScientific_eq hn]
  exact (normal_roundWithAccuracy _ _ (by omega) (by omega)).mono (by omega) (by omega)

/-! Floating-point numbers. -/

theorem isFinite_div {x y : Float} (hx : x.isFinite = true)
    (hy : isAtLeastTwo y.toModel.unpack = true) : (x / y).isFinite = true :=
  (within_unpack_pack (by decide) (by decide) (within_div (within_of_isFinite hx) hy)).isFinite

theorem isFinite_mul {x y : Float} (hx : x.isFinite = true) (hy : y.isFinite = true)
    (h : (x * y).isInf = false) : (x * y).isFinite = true := by
  have hmul := within_mul (by decide) (within_of_isFinite hx) (within_of_isFinite hy)
  refine (isFinite_or_isInf hmul).resolve_right ?_
  rw [Bool.not_eq_true]
  exact h

theorem isFinite_neg {x : Float} (hx : x.isFinite = true) : (-x).isFinite = true := by
  have h : Within 971 x.toModel.unpack.neg := by
    have hwithin := within_of_isFinite hx
    change Within 971 (UnpackedFloat.neg (unpack .binary64 x.toModel.toBits.toBitVec))
    generalize unpack .binary64 x.toModel.toBits.toBitVec = f at hwithin ⊢
    cases f <;> exact hwithin
  exact (within_unpack_pack (by decide) (by decide) h).isFinite

theorem ofNat_of_lt {n : Nat} (h : n < 2 ^ 53) : Float.ofNat n = n.toUInt64.toFloat * 1.0 := by
  unfold Float.ofNat OfScientific.ofScientific instOfScientificFloat Float.ofScientific
  simp only
  rw [dif_pos ⟨h, by decide⟩]
  rfl

theorem unpack_ofNat_of_le {n : Nat} (h : 2 ^ 53 ≤ n) : (Float.ofNat n).toModel.unpack =
    unpack .binary64 (pack .binary64 (UnpackedFloat.ofScientific .binary64 n 0)) := by
  unfold Float.ofNat OfScientific.ofScientific instOfScientificFloat Float.ofScientific
  simp only
  rw [dif_neg fun hn => Nat.not_lt.mpr h hn.1]
  rfl

theorem normal_ofNat {n : Nat} (hlow : 2 ^ 53 ≤ n) (hhigh : n.log2 ≤ 1022) :
    Normal (n.log2 - 52) (n.log2 - 51) (Float.ofNat n).toModel.unpack := by
  have hlog : 53 ≤ n.log2 := (Nat.le_log2 (by omega)).mpr hlow
  rw [unpack_ofNat_of_le hlow]
  exact normal_unpack_pack (by omega) (by omega) (normal_ofScientific hlog)

theorem isFinite_ofNat {n : Nat} (h : n.log2 ≤ 1022) : (Float.ofNat n).isFinite = true := by
  rcases Nat.lt_or_ge n (2 ^ 53) with hlt | hge
  · have hlog : n.toUInt64.toNat.log2 ≤ 63 := log2_le_of_lt n.toUInt64.toNat_lt
    have hx : Within 12 n.toUInt64.toFloat.toModel.unpack :=
      within_unpack_pack (by decide) (by decide) (within_ofNat hlog)
    have hone : Within (-52) (1.0 : Float).toModel.unpack := ⟨by decide, by decide⟩
    rw [ofNat_of_lt hlt]
    exact (within_unpack_pack (by decide) (by decide) (within_mul (by decide) hx hone)).isFinite
  · exact (normal_ofNat hge h).within.isFinite

/-- This leaves room for rounding. The largest power has one more bit and is looked at by itself. -/
theorem log2_powerOfTen_le {n : Nat} (h : n < maxPower) : (Nat.pow 10 n).log2 ≤ 1022 := by
  have hpow : ∀ p, n ≤ p → Nat.pow 10 n ≤ Nat.pow 10 p := fun p hp =>
    Nat.pow_le_pow_right (by decide) hp
  have hmono := hpow (maxPower - 1) (Nat.le_sub_one_of_lt h)
  have htop : Nat.pow 10 (maxPower - 1) < 2 ^ (1022 + 1) := by decide +kernel
  exact log2_le_of_lt (Nat.lt_of_le_of_lt hmono htop)

theorem isFinite_powerOfTen {n : Nat} (h : n ≤ maxPower) : (powerOfTen n).isFinite = true := by
  rcases Nat.lt_or_eq_of_le h with hlt | rfl
  · exact isFinite_ofNat (log2_powerOfTen_le hlt)
  · decide +kernel

theorem isAtLeastTwo_powerOfTen {n : Nat} (hpos : 0 < n) (h : n ≤ maxPower) :
    isAtLeastTwo (powerOfTen n).toModel.unpack = true := by
  rcases Nat.lt_or_eq_of_le h with hlt | rfl
  · rcases Nat.lt_or_ge n 16 with hsmall | hlarge
    · have hall : ∀ i < 16, 0 < i → isAtLeastTwo (powerOfTen i).toModel.unpack = true := by
        decide +kernel
      exact hall n hsmall hpos
    · have hge : 2 ^ 53 ≤ Nat.pow 10 n :=
        Nat.le_trans (by decide) (Nat.pow_le_pow_right (n := 10) (by decide) hlarge)
      have hlog : 53 ≤ (Nat.pow 10 n).log2 := (Nat.le_log2 (by omega)).mpr hge
      exact (normal_ofNat hge (log2_powerOfTen_le hlt)).isAtLeastTwo (by omega)
  · decide +kernel

theorem isFinite_of_scale? {x y : Float} {e : Int} (hx : x.isFinite = true)
    (h : scale? x e = some y) : y.isFinite = true := by
  fun_induction scale? x e with
  | case1 x e he hzero =>
    obtain rfl := Option.some.inj h
    exact hx
  | case2 x e he hzero ih =>
    exact ih (isFinite_div hx (isAtLeastTwo_powerOfTen (by decide) le_rfl)) h
  | case3 x e he hneg =>
    obtain rfl := Option.some.inj h
    simp only [maxPower] at he
    exact isFinite_div hx (isAtLeastTwo_powerOfTen (by omega) (by simp only [maxPower]; omega))
  | case4 => cases h
  | case5 x e he hneg hmax y' hinf =>
    obtain rfl := Option.some.inj h
    rw [Bool.not_eq_true] at hinf
    simp only [maxPower] at hmax
    exact isFinite_mul hx (isFinite_powerOfTen (by simp only [maxPower]; omega)) hinf
  | case6 x e he hneg hmax hzero =>
    obtain rfl := Option.some.inj h
    exact hx
  | case7 => cases h

theorem absorb_lt {significand : Nat} (h : significand < UInt64.size) (digits : List Char) :
    (absorb significand digits).1 < UInt64.size := by
  fun_induction absorb significand digits with
  | case1 => exact h
  | case2 s c digits next hnext ih => exact ih hnext
  | case3 => exact h

end Decimal

namespace Json

theorem NumberLiteral.isFinite_of_real? {l : NumberLiteral} {x : Float} (h : l.real? = some x) :
    x.isFinite = true := by
  simp only [real?, Option.map_eq_some_iff] at h
  obtain ⟨y, hy, rfl⟩ := h
  have hzero : 0 < UInt64.size := by decide
  have hsignificand := Decimal.absorb_lt (Decimal.absorb_lt hzero l.whole) l.fraction
  have hlog := Decimal.log2_le_of_lt (k := 63) hsignificand
  have hfinite := Decimal.isFinite_of_scale? (Decimal.isFinite_ofNat (by omega)) hy
  split_ifs
  · exact Decimal.isFinite_neg hfinite
  · exact hfinite

/-- Every number literal that is read as a floating-point number is read as a finite one. -/
theorem isFinite_of_number? {cs : List Char} {x : Float} (h : number? cs = some (.real x)) :
    x.isFinite = true := by
  obtain ⟨l, -, hl⟩ := Option.bind_eq_some_iff.1 h
  unfold NumberLiteral.value? at hl
  split at hl
  · cases hl
  · obtain ⟨y, hy, hyx⟩ := Option.map_eq_some_iff.1 hl
    obtain rfl := Number.real.inj hyx
    exact l.isFinite_of_real? hy

end Json

end BulkWrite
