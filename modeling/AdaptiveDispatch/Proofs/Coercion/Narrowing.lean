import AdaptiveDispatch.Proofs.Coercion.Outcome

/-!
# Narrow coercions factor through wide ones

The low bits of an integer are the low bits of its low bits. So it makes no difference
whether a value is coerced to a width at once, or first to a wider one and then from there:
the rules of the two widths differ, but what the chain finds at the narrow width is what it
finds at the wide one, truncated. Faults do not mention the width at all.

A width is no wider than itself, and then this says that a result is not changed by another
coercion to its width.
-/

namespace AdaptiveDispatch

variable {τ τ' : Type}

namespace Width

variable {narrow wide : Width}

theorem truncate_truncate (le : narrow.bits ≤ wide.bits) (n : Int64) :
    narrow.truncate (wide.truncate n) = narrow.truncate n := by
  cases wide with
  | bits64 => rfl
  | bits32 =>
      cases narrow with
      | bits64 => exact absurd le (by decide)
      | bits32 => exact truncate_toInt64 .bits32 n.toInt32

theorem truncate_truncateBig (le : narrow.bits ≤ wide.bits) (z : Int) :
    narrow.truncate (wide.truncateBig z) = narrow.truncateBig z :=
  truncate_truncate le _

end Width

namespace Conversion

variable {narrow wide : Width}

/-- The chain settles the same values at all widths, and alike but for the truncation. -/
theorem judgeChain_narrow (le : narrow.bits ≤ wide.bits) (v : Value) :
    judgeChain narrow v =
      match judgeChain wide v with
      | .settled result => .settled (result.map narrow.truncate)
      | .askReceiver => .askReceiver := by
  have settled : ∀ {m n : Int64}, narrow.truncate m = n →
      Judgement.settled (.ok n) = .settled ((Except.ok m : Coerced).map narrow.truncate) := by
    rintro m n rfl
    rfl
  cases v with
  | int n => exact settled (Width.truncate_truncate le n.toInt64)
  | long n => exact settled (Width.truncate_truncate le n)
  | big z => exact settled (Width.truncate_truncateBig le z)
  | nil => rfl
  | bool b => rfl
  | float x => rfl
  | object identity name fields => rfl

theorem strictly_narrow (le : narrow.bits ≤ wide.bits) (v : Value) :
    strictly narrow v = (strictly wide v).map narrow.truncate := by
  unfold strictly
  rw [judgeChain_narrow le]
  cases judgeChain wide v with
  | settled result => rfl
  | askReceiver => rfl

/-- The same goes for a whole coercion if the method gives one reply at both widths. -/
theorem coerceByChain_narrow (le : narrow.bits ≤ wide.bits) (method : String) (reply : Reply)
    (v : Value) (strict : Bool) (t after : τ) (t' after' : τ') :
    (coerceByChain narrow method (.answering reply after') v strict t').1 =
      (coerceByChain wide method (.answering reply after) v strict t).1.map narrow.truncate := by
  unfold coerceByChain
  rw [judgeChain_narrow le]
  cases judgeChain wide v with
  | settled result => rfl
  | askReceiver =>
      cases strict with
      | true => rfl
      | false =>
          cases reply with
          | missing => rfl
          | returned value => exact strictly_narrow le value

end Conversion

namespace CoercionSite

/-- Coercing a result to a width makes another result of it. A fault remains, and an integer
has this other result at every site for the width. -/
structure Recoerced (width : Width) (result again : Coerced) : Prop where
  error : ∀ fault, result = .error fault → again = .error fault
  ok : ∀ n, result = .ok n → ∀ {method : String} {site : CoercionSite},
    InUse width method site → ∀ (strict : Bool) (σ : Type) (s : σ)
      (invoke : Invoker (CoercionSite × σ)),
      (coerceReentrant invoke (.long n) strict (site, s)).1 = again

theorem recoerced_truncate (width : Width) (result : Coerced) :
    Recoerced width result (result.map width.truncate) where
  error := by
    rintro fault rfl
    rfl
  ok := by
    rintro n rfl method site used strict σ s invoke
    have settled : Conversion.judgeChain width (.long n) =
        .settled (.ok (width.truncate n)) := rfl
    rw [used.sound.1.coerceReentrant_of_settled settled]
    rfl

/-- How the results for one value at 64 bits and at 32 bits belong together. -/
structure Factors (wide narrow : Coerced) : Prop where
  narrowed : Recoerced .bits32 wide narrow
  wide_stays : Recoerced .bits64 wide wide
  narrow_stays : Recoerced .bits32 narrow narrow

variable {site site' : CoercionSite} {width narrow wide : Width} {method : String}

theorem InUse.coerceReentrant_result (used : InUse width method site)
    (invoke : Invoker (CoercionSite × τ)) (v : Value) (strict : Bool) (t : τ)
    (kept : InUse width method (invoke v method [] (site.see v.shape, t)).2.1) :
    let answer := invoke v method [] (site.see v.shape, t)
    (CoercionSite.coerceReentrant invoke v strict (site, t)).1 =
      (Conversion.coerceByChain width method (Invoker.answering answer.1 answer.2.2) v strict t).1 :=
  (used.coerceReentrant_eq id v strict t kept rfl rfl).1

/-- Two sites with methods that reply alike, the second for a width that is no wider. -/
theorem InUse.recoerced (used : InUse wide method site) (used' : InUse narrow method site')
    (le : narrow.bits ≤ wide.bits) {invoke : Invoker (CoercionSite × τ)}
    {invoke' : Invoker (CoercionSite × τ')} {v : Value} {t : τ} {t' : τ'}
    (kept : InUse wide method (invoke v method [] (site.see v.shape, t)).2.1)
    (kept' : InUse narrow method (invoke' v method [] (site'.see v.shape, t')).2.1)
    (same : (invoke v method [] (site.see v.shape, t)).1 =
      (invoke' v method [] (site'.see v.shape, t')).1) (strict : Bool) :
    Recoerced narrow (CoercionSite.coerceReentrant invoke v strict (site, t)).1
      (CoercionSite.coerceReentrant invoke' v strict (site', t')).1 := by
  rw [used.coerceReentrant_result invoke v strict t kept,
    used'.coerceReentrant_result invoke' v strict t' kept', same,
    Conversion.coerceByChain_narrow le]
  exact recoerced_truncate narrow _

/-- A 64-bit site and a 32-bit site with the same method, and methods that reply alike. If
the wide site has an integer for a value, then the narrow one has the same result for the
value as for this integer, and if the wide one has a fault, the narrow one has it too. An
integer that either of them has for a value stays the same when it is coerced again to the
width. It makes no difference what the sites were used for and what the methods do at them. -/
theorem narrow_coercion_factors (used : InUse .bits64 method site)
    (used' : InUse .bits32 method site') (v : Value) (strict : Bool) (t : τ) (t' : τ') :
    (∀ (invoke : Invoker τ) (invoke' : Invoker τ'),
      (invoke v method [] t).1 = (invoke' v method [] t').1 →
        Factors (site.coerce invoke v strict t).1 (site'.coerce invoke' v strict t').1) ∧
      ∀ (invoke : Invoker (CoercionSite × τ)) (invoke' : Invoker (CoercionSite × τ')),
        let answer := invoke v method [] (site.see v.shape, t)
        let answer' := invoke' v method [] (site'.see v.shape, t')
        InUse .bits64 method answer.2.1 → InUse .bits32 method answer'.2.1 →
          answer.1 = answer'.1 →
          Factors (coerceReentrant invoke v strict (site, t)).1
            (coerceReentrant invoke' v strict (site', t')).1 := by
  have reentrant : ∀ (invoke : Invoker (CoercionSite × τ)) (invoke' : Invoker (CoercionSite × τ')),
      InUse .bits64 method (invoke v method [] (site.see v.shape, t)).2.1 →
      InUse .bits32 method (invoke' v method [] (site'.see v.shape, t')).2.1 →
      (invoke v method [] (site.see v.shape, t)).1 =
        (invoke' v method [] (site'.see v.shape, t')).1 →
      Factors (coerceReentrant invoke v strict (site, t)).1
        (coerceReentrant invoke' v strict (site', t')).1 := by
    intro invoke invoke' kept kept' same
    exact ⟨used.recoerced used' (by decide) kept kept' same strict,
      used.recoerced used (Nat.le_refl _) kept kept rfl strict,
      used'.recoerced used' (Nat.le_refl _) kept' kept' rfl strict⟩
  refine ⟨?_, reentrant⟩
  intro invoke invoke' same
  exact reentrant invoke.apart invoke'.apart (used.select v.shape) (used'.select v.shape) same

/-- An object whose method returns an integer of more than 32 bits. -/
theorem narrow_coercion_factors_box :
    let table width := ⟨Conversion.rules width, RuleTable.indexOf (Conversion.rules width), .chain⟩
    let wide := CoercionSite.new ⟨0⟩ .bits64 (table .bits64) 0 "to_int"
    let narrow := CoercionSite.new ⟨1⟩ .bits32 (table .bits32) 8 "to_int"
    let box := Value.object 0 "Box" []
    let unbox : Invoker Nat := fun _ _ _ count => (.returned (.big 18446744078004518907), count + 1)
    InUse .bits64 "to_int" wide ∧ InUse .bits32 "to_int" narrow ∧
      (wide.coerce unbox box false 0).1 = .ok 4294967291 ∧
      (narrow.coerce Invoker.none (.long 4294967291) true 0).1 = .ok (-5) := by
  intro table wide narrow box unbox
  have used : InUse .bits64 "to_int" wide := .new ⟨0⟩ 0 (Conversion.table_eq .bits64)
  have used' : InUse .bits32 "to_int" narrow := .new ⟨1⟩ 8 (Conversion.table_eq .bits32)
  have factors := (narrow_coercion_factors used used' box false 0 0).1 unbox unbox rfl
  have result : (wide.coerce unbox box false 0).1 = .ok 4294967291 := rfl
  refine ⟨used, used', result, ?_⟩
  exact (factors.narrowed.ok _ result used' true Nat 0 Invoker.none).trans rfl

end CoercionSite

end AdaptiveDispatch
