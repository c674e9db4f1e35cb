import AdaptiveDispatch.Coercion.Conversion
import AdaptiveDispatch.Proofs.Dispatch.Table

/-!
# Conversions agree with the chain

The rules for a width split up the shapes, and each has a conversion that was made for
the shapes of its rule. On those shapes the conversion finds exactly what the chain of
all rules finds. So it makes no difference to a coercion which of the two a site picks.
-/

namespace AdaptiveDispatch

/-- A 32-bit integer that was widened is not changed by truncation. -/
theorem Width.truncate_toInt64 (width : Width) (n : Int32) :
    width.truncate n.toInt64 = n.toInt64 := by
  cases width with
  | bits32 => exact congrArg Int32.toInt64 (Int32.toInt32_toInt64 n)
  | bits64 => rfl

namespace Conversion

variable {width : Width} {table : RuleTable Value.Shape Conversion}

theorem table_eq (width : Width) :
    Conversion.table width = .ok ⟨rules width, RuleTable.indexOf (rules width), .chain⟩ := by
  cases width with
  | bits32 => exact RuleTable.build_eq_ok_iff.mpr ⟨by decide, by decide, by decide, rfl⟩
  | bits64 => exact RuleTable.build_eq_ok_iff.mpr ⟨by decide, by decide, by decide, rfl⟩

theorem rules_of_table (built : Conversion.table width = .ok table) :
    table.rules = rules width := by
  rw [table_eq] at built
  cases built
  rfl

theorem fallback_of_table (built : Conversion.table width = .ok table) :
    table.fallback = .chain := by
  rw [table_eq] at built
  cases built
  rfl

/-- The conversion of the rule for a value finds what the chain finds. -/
theorem judge_of_accepts {rule : Rule Value.Shape Conversion} {v : Value}
    (built : Conversion.table width = .ok table) (accepts : table.Accepts v.shape rule) :
    rule.implementation.judge width v = judgeChain width v := by
  have member := accepts.member
  have holds := accepts.holds
  rw [rules_of_table built] at member
  simp only [rules, List.mem_cons, List.not_mem_nil, or_false] at member
  rcases member with rfl | rfl | rfl | rfl | rfl | rfl
  · -- boolean
    cases v <;> cases holds
    rfl
  · -- fixnum_at_width
    cases width <;> cases v <;> cases holds
    · exact congrArg (fun n => Judgement.settled (.ok n)) (Width.truncate_toInt64 _ _).symm
    · rfl
  · -- fixnum_other_width
    cases width <;> cases v <;> cases holds <;> rfl
  · -- bignum
    cases v <;> cases holds
    rfl
  · -- nil
    cases v <;> cases holds
    rfl
  · -- conversion_protocol
    cases v <;> cases holds <;> rfl

/-- Whatever a sound cache answers for a value, it finds what the chain finds. -/
theorem judge_of_answer {conversion : Conversion} {v : Value}
    (built : Conversion.table width = .ok table)
    (answer : conversion = table.fallback ∨
      ∃ rule, table.Accepts v.shape rule ∧ conversion = rule.implementation) :
    conversion.judge width v = judgeChain width v := by
  rcases answer with rfl | ⟨rule, accepts, rfl⟩
  · rw [fallback_of_table built]
    rfl
  · exact judge_of_accepts built accepts

end Conversion

end AdaptiveDispatch
