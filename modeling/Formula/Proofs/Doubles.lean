import Formula.Number.Power
import Mathlib

set_option relaxedAutoImplicit false
set_option autoImplicit false

/-!
# Doubles beyond the largest power of ten

The powers of ten up to the 308th are finite as doubles, and the next ones are infinite. An integer
of 64 bits divided by an infinite double is zero, whatever the integer is, and adding zero to such
an integer does not change it. So a fraction whose digits are divided by an infinite power adds
nothing.

A double is an operand by what it unpacks to: a sign, an exponent and a mantissa, or one of the
special values. An operation packs what it comes to, which has to be unpacked again; packing undoes
unpacking, and what rounding makes of an integer is neither negative nor infinite.

## Main definitions

* `Formula.Number.IsMagnitude` — what has no minus sign and is finite.
* `Formula.Number.products` — the products of different squares of squares.

## Main results

* `Formula.Number.pack_unpack` — packing undoes unpacking.
* `Formula.Number.toFloat_div_infinity`, `Formula.Number.toFloat_add_zero` — an integer divided by
  an infinite double, and added to zero.
* `Formula.Number.isFinite_power_ten`, `Formula.Number.power_ten_eq_infinity` — which powers of ten
  are finite.
-/

namespace Formula.Number

open Float.Model Float.Model.UnpackedFloat

/-! ## Packing undoes unpacking -/

/-- A word of 64 bits is a sign, an exponent and a mantissa. -/
lemma append_extractLsb (b : BitVec 64) :
    b.extractLsb 63 63 ++ b.extractLsb 62 52 ++ b.extractLsb 51 0 = b := by
  ext i hi
  grind

/-- The first bit of a word is its sign. -/
lemma extractLsb_append (s : BitVec 1) (e : BitVec 11) (m : BitVec 52) :
    (s ++ e ++ m).extractLsb 63 63 = s := by
  ext i hi
  grind

/-- The components of a word make it up again. -/
lemma packComponents_unpack (b : BitVec Format.binary64.numBits) :
    packComponents .binary64 (Sign.ofBitVec (unpackSign b)) (unpackExponent b)
      (unpackMantissa b) = b := by
  have hsign (v : BitVec 1) : (Sign.ofBitVec v).toBitVec = v := by
    revert v
    decide
  rw [packComponents, hsign]
  exact append_extractLsb b

/-- The sign of a word is the one it is made up with. -/
lemma unpackSign_packComponents (s : Sign) (e : BitVec Format.binary64.exponentBits)
    (m : BitVec Format.binary64.mantissaBitsWithoutImplicit) :
    unpackSign (packComponents .binary64 s e m) = s.toBitVec :=
  extractLsb_append _ _ _

/-- The first bit of a normal mantissa is not stored. -/
lemma toNat_one_append (v : BitVec 52) : (1#1 ++ v).toNat = 2 ^ 52 + v.toNat := by
  rw [BitVec.toNat_append, ← Nat.shiftLeft_add_eq_or_of_lt v.isLt]
  rfl

/-- Exponents are stored with 1023 added. -/
lemma exponentBias_eq : ((Format.binary64.exponentBias : Nat) : Int) = 1023 := rfl

/-- An exponent counts from the last bit of the mantissa, and is stored from the first. -/
lemma biased_eq (e : Int) :
    e + Format.binary64.exponentBias + ((52 : Nat) : Int) = e + 1075 := by
  rw [exponentBias_eq]
  omega

/-- A normal number is packed without the first bit of its mantissa. -/
lemma pack_normal (s : Sign) {m : Nat} {e : Int} (hm : 0 < m) (hlog : m.log2 = 52)
    (he : e + 1075 < 2047) :
    UnpackedFloat.pack .binary64 (.finite s m e hm) =
      packComponents .binary64 s (BitVec.ofNat _ (e + 1075).toNat) (BitVec.ofNat _ m) := by
  have hexponent : ¬ 2 ^ Format.binary64.exponentBits ≤ (e + 1075).toNat + 1 := by
    norm_num
    omega
  have hnormal : m.log2 + 1 = Format.binary64.mantissaBits := by
    rw [hlog]
    rfl
  rw [UnpackedFloat.pack]
  simp only [biased_eq]
  rw [if_neg hexponent, if_pos hnormal]

/-- A subnormal number is packed with the exponent zero. -/
lemma pack_subnormal (s : Sign) {m : Nat} (hm : 0 < m) (hlt : m < 2 ^ 52) :
    UnpackedFloat.pack .binary64 (.finite s m (-1074) hm) =
      packComponents .binary64 s 0#_ (BitVec.ofNat _ m) := by
  have hlog : m.log2 < 52 := (Nat.log2_lt hm.ne').mpr hlt
  have hbits : Format.binary64.mantissaBits = 53 := rfl
  rw [UnpackedFloat.pack]
  exact (if_neg (by decide)).trans (if_neg (by omega))

/-- A valid word is packed from what it unpacks to.

**Proof sketch.** The special values are stored by their exponents and mantissas, and a valid word
that is no number is the one that is packed for it. A number is normal or subnormal, which its
exponent tells, and its mantissa is stored with or without the first bit accordingly. -/
lemma pack_unpack_of_valid {b : BitVec Format.binary64.numBits}
    (hvalid : Format.binary64.Valid b) :
    UnpackedFloat.pack .binary64 (UnpackedFloat.unpack .binary64 b) = b := by
  have hb := packComponents_unpack b
  have hmantissa : (unpackMantissa b).toNat < 2 ^ 52 := (unpackMantissa b).isLt
  have hexponent : (unpackExponent b).toNat < 2 ^ 11 := (unpackExponent b).isLt
  rw [UnpackedFloat.unpack]
  split_ifs with hlast hzero hfirst hzero
  · rw [hlast, hzero] at hb
    exact hb
  · exact (hvalid.eq_packedNaN hlast hzero).symm
  · rw [hfirst, hzero] at hb
    exact hb
  · simp only [hfirst]
    refine (pack_subnormal _ _ hmantissa).trans ?_
    rw [BitVec.ofNat_toNat, BitVec.setWidth_eq, ← hfirst]
    exact hb
  · have hne : (unpackExponent b).toNat ≠ 2047 := fun heq => hlast (BitVec.eq_of_toNat_eq heq)
    have hone : (1#1 ++ unpackMantissa b).toNat = 2 ^ 52 + (unpackMantissa b).toNat :=
      toNat_one_append _
    have hlog : (1#1 ++ unpackMantissa b).toNat.log2 = 52 := by
      rw [hone, Nat.log2_eq_iff (by omega)]
      omega
    have hstored : ((unpackExponent b).toNat : Int) - (1023 + ((52 : Nat) : Int)) + 1075 =
        (unpackExponent b).toNat := by
      norm_num
    have hrest : BitVec.ofNat 52 (1#1 ++ unpackMantissa b).toNat = unpackMantissa b := by
      refine BitVec.eq_of_toNat_eq ?_
      rw [hone, BitVec.toNat_ofNat]
      omega
    simp only [exponentBias_eq]
    refine (pack_normal _ _ hlog ?_).trans ?_
    · rw [hstored]
      omega
    · rw [hstored, Int.toNat_natCast, BitVec.ofNat_toNat, BitVec.setWidth_eq, hrest]
      exact hb

/-- **Packing undoes unpacking.** -/
lemma pack_unpack (f : Float.Model) : Float.Model.pack f.unpack = f := by
  obtain ⟨bits, hvalid⟩ := f
  have hpack : UnpackedFloat.pack .binary64 (UnpackedFloat.unpack .binary64 bits.toBitVec) =
      bits.toBitVec := pack_unpack_of_valid hvalid
  simp only [Float.Model.pack, Float.Model.unpack, hpack]

/-! ## Magnitudes -/

/-- **What has no minus sign** and is neither infinite nor no number. -/
def IsMagnitude : UnpackedFloat → Prop
  | .zero s => s = .positive
  | .finite s _ _ _ => s = .positive
  | .infinity _ => False
  | .notANumber => False

/-- Without a minus sign and with an exponent below the last one a word is a magnitude. -/
lemma isMagnitude_packComponents {e : BitVec Format.binary64.exponentBits}
    (m : BitVec Format.binary64.mantissaBitsWithoutImplicit) (he : e ≠ -1#_) :
    IsMagnitude (UnpackedFloat.unpack .binary64 (packComponents .binary64 .positive e m)) := by
  rw [UnpackedFloat.unpack]
  simp only [unpackExponent_packComponents, unpackMantissa_packComponents,
    unpackSign_packComponents]
  split_ifs
  · contradiction
  · contradiction
  · rfl
  · rfl
  · rfl

/-- What is finite and has no minus sign stays so when it is packed, if its exponent is in
range. -/
lemma isMagnitude_pack {m : Nat} {e : Int} (hm : 0 < m) (he : e + 1075 < 2047) :
    IsMagnitude (UnpackedFloat.unpack .binary64
      (UnpackedFloat.pack .binary64 (.finite .positive m e hm))) := by
  rw [UnpackedFloat.pack]
  simp only [biased_eq]
  split_ifs with hlarge hnormal
  · norm_num at hlarge
    omega
  · refine isMagnitude_packComponents _ fun heq => ?_
    have hlast : (-BitVec.ofNat Format.binary64.exponentBits 1).toNat = 2047 := rfl
    have hstored := congrArg BitVec.toNat heq
    rw [BitVec.toNat_ofNat, Nat.mod_eq_of_lt (by norm_num; omega), hlast] at hstored
    omega
  · exact isMagnitude_packComponents _ (by decide)

/-! ## Rounding -/

/-- Shifting to the right makes a mantissa no larger. -/
lemma shiftRight_mantissa_le (em : ExtendedMantissa) (k : Nat) :
    (em >>> k).mantissa ≤ em.mantissa := by
  induction k with
  | zero => exact Nat.le_refl _
  | succ k ih => exact Nat.le_trans (Nat.div_le_self _ 2) ih

/-- Rounding adds one at most. -/
lemma roundedMantissa_le (em : ExtendedMantissa) : em.roundedMantissa ≤ em.mantissa + 1 := by
  obtain ⟨m, r, s⟩ := em
  cases r <;> cases s <;>
    simp [ExtendedMantissa.roundedMantissa, ExtendedMantissa.accuracy, Accuracy.roundToNearestEven]
  omega

/-- Shifting to the exponent of the format makes the mantissa no larger, and the exponent larger by
at most the bits of the mantissa. -/
lemma shiftToTargetExponent_le (m : Nat) {e : Int} (he : -1074 ≤ e) (a : Accuracy) :
    (shiftToTargetExponent .binary64 m e a).1.mantissa ≤ m ∧
      e ≤ (shiftToTargetExponent .binary64 m e a).2 ∧
      (shiftToTargetExponent .binary64 m e a).2 ≤ e + m.log2 := by
  refine ⟨?_, ?_, ?_⟩
  · have hm : (ExtendedMantissa.ofMantissaAndAccuracy m a).mantissa = m := by
      cases a with
      | exact => rfl
      | inexact o => cases o <;> rfl
    exact (shiftRight_mantissa_le _ _).trans_eq hm
  · simp only [shiftToTargetExponent, shiftToExponent]
    omega
  · simp only [shiftToTargetExponent, shiftToExponent, Format.targetExponent, totalExponent,
      Format.mantissaBits, Format.minExponent]
    norm_num
    omega

/-- A number has at most as many bits as a power of two above it. -/
lemma log2_le {m n : Nat} (h : m < 2 ^ n) : m.log2 ≤ n := by
  by_cases hm : m = 0
  · rw [hm]
    exact Nat.zero_le n
  · exact ((Nat.log2_lt hm).mpr h).le

/-- **Rounding keeps magnitudes** that are far enough from the largest one.

**Proof sketch.** The mantissa is shifted twice, which makes the exponent larger by the bits of the
mantissa at most, and rounded in between, which makes the mantissa larger by one at most. -/
lemma isMagnitude_roundWithAccuracy {m n : Nat} {e : Int} (hlow : -1074 ≤ e) (hm : m + 1 < 2 ^ n)
    (hhigh : e + 2 * n < 972) (a : Accuracy) :
    IsMagnitude (UnpackedFloat.unpack .binary64
      (UnpackedFloat.pack .binary64 (roundWithAccuracy .binary64 .positive m e a))) := by
  rw [roundWithAccuracy]
  obtain ⟨hfirst, hle, hbits⟩ := shiftToTargetExponent_le m hlow a
  generalize shiftToTargetExponent .binary64 m e a = first at hfirst hle hbits ⊢
  obtain ⟨em, e₁⟩ := first
  obtain ⟨-, -, hbits'⟩ := shiftToTargetExponent_le em.roundedMantissa (hlow.trans hle) .exact
  have hrounded := roundedMantissa_le em
  dsimp only at hfirst hbits hbits' ⊢
  split_ifs with hzero
  · rfl
  · have hlog : m.log2 ≤ n := log2_le (by omega)
    have hlog' : em.roundedMantissa.log2 ≤ n := log2_le (by omega)
    exact isMagnitude_pack _ (by omega)

/-- **Integers of 64 bits are magnitudes** as doubles. -/
lemma isMagnitude_toFloat (n : UInt64) : IsMagnitude n.toFloat.toModel.unpack := by
  have hn : n.toNat < 2 ^ 64 := n.toNat_lt
  show IsMagnitude (UnpackedFloat.unpack .binary64
    (UnpackedFloat.pack .binary64 (normalize .binary64 (n.toNat : Int) 0 .positive)))
  generalize n.toNat = k at hn ⊢
  unfold UnpackedFloat.normalize
  split
  case h_1 hlt => exact absurd (Int.compare_eq_lt.mp hlt) (by omega)
  case h_2 => rfl
  case h_3 hgt =>
    have hk : 0 < k := by exact_mod_cast Int.compare_eq_gt.mp hgt
    have hshift : (0 - Format.binary64.targetExponent (totalExponent k 0)).toNat ≤ 52 := by
      simp only [Format.targetExponent, totalExponent, Format.mantissaBits, Format.minExponent]
      norm_num
      omega
    rw [UnpackedFloat.round, Int.toNat_natCast]
    simp only [decreaseExponent]
    generalize (0 - Format.binary64.targetExponent (totalExponent k 0)).toNat = i at hshift ⊢
    refine isMagnitude_roundWithAccuracy (n := 117) (by omega) ?_ (by omega) _
    have hpow : 2 ^ i ≤ 2 ^ 52 := Nat.pow_le_pow_right (by decide) hshift
    have hmul : k * 2 ^ i ≤ 2 ^ 64 * 2 ^ 52 := Nat.mul_le_mul hn.le hpow
    rw [Nat.shiftLeft_eq]
    omega

/-! ## Sums and quotients -/

/-- **An integer divided by an infinite double is zero.** -/
theorem toFloat_div_infinity (n : UInt64) : n.toFloat / (1.0 / 0.0) = 0.0 := by
  have hinfinity : (1.0 / 0.0 : Float).toModel.unpack = .infinity .positive := rfl
  have hn := isMagnitude_toFloat n
  show Float.ofModel (Float.Model.pack
    (UnpackedFloat.div .binary64 n.toFloat.toModel.unpack (1.0 / 0.0 : Float).toModel.unpack)) = 0.0
  rw [hinfinity]
  cases hu : n.toFloat.toModel.unpack <;> rw [hu] at hn
  case zero s =>
    obtain rfl : s = .positive := hn
    rfl
  case finite s m e hm =>
    obtain rfl : s = .positive := hn
    rfl
  case infinity => exact hn.elim
  case notANumber => exact hn.elim

/-- **Zero added to an integer does not change it.** -/
theorem toFloat_add_zero (n : UInt64) : n.toFloat + 0.0 = n.toFloat := by
  have hzero : (0.0 : Float).toModel.unpack = .zero .positive := rfl
  have hn := isMagnitude_toFloat n
  have hsum : UnpackedFloat.add .binary64 n.toFloat.toModel.unpack (0.0 : Float).toModel.unpack =
      n.toFloat.toModel.unpack := by
    rw [hzero]
    cases hu : n.toFloat.toModel.unpack <;> rw [hu] at hn
    case zero s =>
      obtain rfl : s = .positive := hn
      rfl
    case finite s m e hm => rfl
    case infinity => exact hn.elim
    case notANumber => exact hn.elim
  show Float.ofModel (Float.Model.pack
    (UnpackedFloat.add .binary64 n.toFloat.toModel.unpack (0.0 : Float).toModel.unpack)) = n.toFloat
  rw [hsum, pack_unpack]

/-! ## Powers of ten -/

/-- A double that is squared so many times. -/
def squared (base : Float) : Nat → Float
  | 0 => base
  | k + 1 => squared base k * squared base k

/-- **The products of the first so many squares**: at each exponent the product for its binary
digits, from the lowest up. -/
def products (base : Float) : Nat → List Float
  | 0 => [1.0]
  | k + 1 => products base k ++ (products base k).map (· * squared base k)

/-- There is a product for each choice of squares. -/
lemma length_products (base : Float) (k : Nat) : (products base k).length = 2 ^ k := by
  induction k with
  | zero => rfl
  | succ k ih =>
    rw [products, List.length_append, List.length_map, ih]
    omega

/-- With more squares there are more products. -/
lemma products_initial (base : Float) {j k : Nat} (h : j ≤ k) :
    products base j <+: products base k := by
  induction h with
  | refl => exact List.prefix_rfl
  | step _ ih => exact ih.trans (List.prefix_append _ _)

/-- **The first binary digits of an exponent** give a product of the first squares.

**Proof sketch.** Induction on the digits: with the next one the product is in the second half if
the digit is one, and in the first half otherwise. -/
lemma foldl_powerStep (base : Float) (n k : Nat) :
    ∃ x, (products base k)[n % 2 ^ k]? = some x ∧
      (List.range k).foldl (powerStep n) (1.0, base) = (x, squared base k) := by
  induction k with
  | zero => exact ⟨1.0, by rw [pow_zero, Nat.mod_one]; rfl, rfl⟩
  | succ k ih =>
    obtain ⟨x, hx, hfold⟩ := ih
    have hlt : n % 2 ^ k < (products base k).length := by
      rw [length_products]
      exact Nat.mod_lt _ (Nat.two_pow_pos k)
    rw [List.range_succ, List.foldl_append, hfold, List.foldl_cons, List.foldl_nil, powerStep,
      Nat.mod_pow_succ, ← Nat.toNat_testBit, products]
    cases hbit : n.testBit k with
    | false =>
      refine ⟨x, ?_, rfl⟩
      rw [Bool.toNat_false, Nat.mul_zero, Nat.add_zero, List.getElem?_append_left hlt, hx]
    | true =>
      refine ⟨x * squared base k, ?_, rfl⟩
      rw [Bool.toNat_true, Nat.mul_one,
        List.getElem?_append_right (by rw [length_products]; exact Nat.le_add_left _ _),
        length_products, Nat.add_sub_cancel_right, List.getElem?_map, hx, Option.map_some]

/-- **A power is one of the products.** -/
lemma getElem?_products (base : Float) {n k : Nat} (h : n < 2 ^ (k + 1)) :
    (products base (k + 1))[n]? = some (power base n) := by
  obtain ⟨x, hx, hfold⟩ := foldl_powerStep base n (n.log2 + 1)
  have hle : n.log2 + 1 ≤ k + 1 := by
    by_cases hn : n = 0
    · rw [hn]
      exact Nat.succ_le_succ (Nat.zero_le k)
    · exact (Nat.log2_lt hn).mpr h
  obtain ⟨more, hmore⟩ := products_initial base hle
  have hlt : n < 2 ^ (n.log2 + 1) := Nat.lt_log2_self
  rw [Nat.mod_eq_of_lt hlt] at hx
  rw [← hmore, List.getElem?_append_left (by rw [length_products]; exact hlt), hx, power, hfold]

/-- **The powers of ten up to the 308th are finite.** -/
theorem isFinite_power_ten {n : Nat} (h : n ≤ 308) : (power 10.0 n).isFinite = true := by
  have hall : ∀ x ∈ (products 10.0 9).take 309, x.isFinite = true := by decide +kernel
  refine hall _ (List.mem_of_getElem? (i := n) ?_)
  rw [List.getElem?_take_of_lt (by omega)]
  exact getElem?_products 10.0 (by omega)

/-- **The next powers of ten are infinite.** -/
theorem power_ten_eq_infinity {n : Nat} (h : 308 < n) (hn : n ≤ 326) :
    power 10.0 n = 1.0 / 0.0 := by
  have hall : ∀ x ∈ ((products 10.0 9).drop 309).take 18, x = 1.0 / 0.0 := by decide +kernel
  refine hall _ (List.mem_of_getElem? (i := n - 309) ?_)
  rw [List.getElem?_take_of_lt (by omega), List.getElem?_drop, Nat.add_sub_cancel' (by omega)]
  exact getElem?_products 10.0 (by omega)

end Formula.Number
