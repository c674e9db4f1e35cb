import AdaptiveDispatch.Proofs.Coercion.Transparency
import Mathlib.Data.Int.ModEq

/-!
# What a coercion makes of an integer

A value may hold an integer in any of three representations, and the rules of a coercion
treat them differently: one is taken as it is, one is widened or narrowed, and of the
unbounded one only the lowest digit of the magnitude is looked at. All of these come to
the same. The result is the integer modulo the number of values of the width, read in
two's complement, and no method is called for it.
-/

namespace AdaptiveDispatch

/-- The integer that a value stands for, whichever of the representations holds it. -/
def Value.integer? : Value → Option Int
  | .int n => some n.toInt
  | .long n => some n.toInt
  | .big z => some z
  | _ => none

theorem Value.integer?_big (z : Int) : (Value.big z).integer? = some z := rfl

/-- The value of an integer literal stands for that integer. -/
theorem Value.integer?_ofInteger (z : Int) : (ofInteger z).integer? = some z := by
  unfold ofInteger
  split
  · rename_i fits
    exact congrArg some (Int64.toInt_ofInt_of_le fits.1 (Int.lt_add_one_iff.mpr fits.2))
  · rfl

namespace Width

variable {width : Width} {z r s : Int}

/-- An integer `r` of a width is what remains of `z` in two's complement. -/
structure Wraps (width : Width) (z r : Int) : Prop where
  lower : -2 ^ (width.bits - 1) ≤ r
  upper : r < 2 ^ (width.bits - 1)
  congruent : r ≡ z [ZMOD 2 ^ width.bits]

/-- Only one integer remains of another. -/
theorem Wraps.unique (first : width.Wraps z r) (second : width.Wraps z s) : r = s := by
  have congruent := first.congruent.trans second.congruent.symm
  have lower := first.lower
  have upper := first.upper
  have lower' := second.lower
  have upper' := second.upper
  unfold Int.ModEq at congruent
  cases width with
  | bits32 =>
      simp only [bits] at *
      omega
  | bits64 =>
      simp only [bits] at *
      omega

theorem wraps_bmod (width : Width) (z : Int) : width.Wraps z (z.bmod (2 ^ width.bits)) := by
  have congruent : z.bmod (2 ^ width.bits) ≡ z [ZMOD (2 ^ width.bits : Nat)] := Int.bmod_emod
  cases width with
  | bits32 => exact ⟨Int.le_bmod (by decide), Int.bmod_lt (by decide), congruent⟩
  | bits64 => exact ⟨Int.le_bmod (by decide), Int.bmod_lt (by decide), congruent⟩

theorem toInt_truncate (width : Width) (n : Int64) :
    (width.truncate n).toInt = n.toInt.bmod (2 ^ width.bits) := by
  cases width with
  | bits32 =>
      show n.toInt32.toInt64.toInt = _
      rw [Int32.toInt_toInt64, Int64.toInt_toInt32]
      rfl
  | bits64 =>
      symm
      exact Int64.toInt_bmod n

/-- The lowest digit of a magnitude, negated for a negative integer, is the integer
modulo the number of digits. -/
theorem toInt_lowDigit (z : Int) :
    (if z < 0 then -UInt64.ofNat z.natAbs else UInt64.ofNat z.natAbs).toInt64.toInt =
      z.bmod (2 ^ 64) := by
  have magnitude : (Int64.ofNat z.natAbs).toInt = (z.natAbs : Int).bmod (2 ^ 64) :=
    Int64.toInt_ofNat'
  split
  · rename_i negative
    have same : z = -(z.natAbs : Int) := by omega
    rw [UInt64.toInt64_neg, UInt64.toInt64_ofNat', Int64.toInt_neg, magnitude, Int.bmod_neg_bmod,
      ← same]
  · rename_i nonnegative
    have same : z = (z.natAbs : Int) := by omega
    rw [UInt64.toInt64_ofNat', magnitude, ← same]

theorem toInt_truncateBig (width : Width) (z : Int) :
    (width.truncateBig z).toInt = z.bmod (2 ^ width.bits) := by
  have narrower : 2 ^ width.bits ∣ 2 ^ 64 := by
    cases width with
    | bits32 => decide
    | bits64 => decide
  unfold truncateBig
  rw [toInt_truncate, toInt_lowDigit, Int.bmod_bmod_of_dvd narrower]

end Width

/-- The chain of all rules settles an integer, and what it finds is the integer wrapped to
the width. -/
theorem Conversion.judgeChain_of_integer? (width : Width) {v : Value} {z : Int}
    (meaning : v.integer? = some z) :
    ∃ n, judgeChain width v = .settled (.ok n) ∧ n.toInt = z.bmod (2 ^ width.bits) := by
  cases v with
  | int n =>
      cases meaning
      refine ⟨width.truncate n.toInt64, rfl, ?_⟩
      rw [Width.toInt_truncate, Int32.toInt_toInt64]
  | long n =>
      cases meaning
      exact ⟨width.truncate n, rfl, width.toInt_truncate n⟩
  | big y =>
      cases meaning
      exact ⟨width.truncateBig z, rfl, width.toInt_truncateBig z⟩
  | nil => cases meaning
  | bool b => cases meaning
  | float x => cases meaning
  | object identity name fields => cases meaning

namespace CoercionSite

variable {site : CoercionSite} {width : Width} {method : String}

/-- What the chain settles is settled by the site, and no method is called. -/
theorem Sound.coerceReentrant_of_settled {τ : Type} (sound : Sound width method site) {v : Value}
    {n : Int64} (settled : Conversion.judgeChain width v = .settled (.ok n)) (strict : Bool)
    (invoke : Invoker (CoercionSite × τ)) (t : τ) :
    CoercionSite.coerceReentrant invoke v strict (site, t) = (.ok n, site.see v.shape, t) := by
  unfold CoercionSite.coerceReentrant
  rw [sound.start v strict]
  cases strict with
  | true =>
      have found : Conversion.strictly width v = .ok n := by
        unfold Conversion.strictly
        rw [settled]
      rw [if_pos rfl, found]
  | false => rw [if_neg Bool.false_ne_true, settled]

/-- An integer coerces to what remains of it in two's complement, and to nothing else. The
site, its past and its method make no difference, nor does the representation of the
integer, and no method is called, not even one that would use the site. In particular an
integer literal and an unbounded integer coerce alike. All this goes for strict children
too, by `InUse.strictChild`. -/
theorem coerce_integer (width : Width) (z : Int) :
    ∃ n : Int64, (width.Wraps z n.toInt ∧ ∀ r, width.Wraps z r → r = n.toInt) ∧
      (∀ {method : String} {site : CoercionSite}, InUse width method site →
        ∀ v : Value, v.integer? = some z → ∀ (strict : Bool) (τ : Type) (t : τ),
          (∀ invoke : Invoker (CoercionSite × τ),
            coerceReentrant invoke v strict (site, t) = (.ok n, site.see v.shape, t)) ∧
          ∀ invoke : Invoker τ, site.observe invoke v strict t = (.ok n, t, [])) ∧
      ∀ {method method' : String} {site site' : CoercionSite}, InUse width method site →
        InUse width method' site' → ∀ (strict strict' : Bool) (τ : Type) (t t' : τ)
          (invoke invoke' : Invoker τ),
          (site.coerce invoke (.ofInteger z) strict t).1 = .ok n ∧
            (site'.coerce invoke' (.big z) strict' t').1 = .ok n := by
  obtain ⟨n, _, value⟩ := Conversion.judgeChain_of_integer? width (Value.integer?_big z)
  have coerced : ∀ {method site}, InUse width method site → ∀ v : Value, v.integer? = some z →
      ∀ (strict : Bool) {τ : Type} (t : τ) (invoke : Invoker (CoercionSite × τ)),
        coerceReentrant invoke v strict (site, t) = (.ok n, site.see v.shape, t) := by
    intro method site used v meaning strict τ t invoke
    obtain ⟨m, settled, same⟩ := Conversion.judgeChain_of_integer? width meaning
    have result : m = n := Int64.toInt_inj.mp (same.trans value.symm)
    rw [← result]
    exact used.sound.1.coerceReentrant_of_settled settled strict invoke t
  refine ⟨n, ⟨?_, ?_⟩, ?_, ?_⟩
  · rw [value]
    exact width.wraps_bmod z
  · intro r wraps
    rw [value]
    exact wraps.unique (width.wraps_bmod z)
  · intro method site used v meaning strict τ t
    refine ⟨coerced used v meaning strict t, ?_⟩
    intro invoke
    unfold observe coerce
    rw [coerced used v meaning strict]
  · intro method method' site site' used used' strict strict' τ t t' invoke invoke'
    have literal := coerced used _ (Value.integer?_ofInteger z) strict t invoke.apart
    have unbounded := coerced used' (.big z) rfl strict' t' invoke'.apart
    exact ⟨congrArg Prod.fst literal, congrArg Prod.fst unbounded⟩

/-- Below the least 64-bit integer, with the 32-bit sign bit set in what is left. -/
theorem coerce_integer_boundary :
    let table := ⟨Conversion.rules .bits32, RuleTable.indexOf (Conversion.rules .bits32), .chain⟩
    let site := CoercionSite.new ⟨0⟩ .bits32 table 0 "to_int"
    let z : Int := -9223372039002259456
    InUse .bits32 "to_int" site ∧ (Value.big z).integer? = some z ∧
      ∃ n : Int64, n.toInt = -2147483648 ∧
        site.observe Invoker.none (.big z) false (0 : Nat) = (.ok n, 0, []) := by
  intro table site z
  have used : InUse .bits32 "to_int" site := .new ⟨0⟩ 0 (Conversion.table_eq .bits32)
  obtain ⟨n, ⟨_, only⟩, coerced, _⟩ := coerce_integer .bits32 z
  refine ⟨used, rfl, n, ?_, ?_⟩
  · symm
    apply only
    exact ⟨by decide, by decide, by decide⟩
  · exact (coerced used (.big z) rfl false Nat 0).2 Invoker.none

end CoercionSite

end AdaptiveDispatch
