import AdaptiveDispatch.Value.Text

/-!
# Shape domains

Dispatch decides by a shape alone. The shapes of one kind form a domain that can be
listed, so that a table of rules is checked against every shape before any call is made.
-/

namespace AdaptiveDispatch

class ShapeDomain (σ : Type) where
  domain : List σ
  label : σ → String

namespace ShapeDomain

/-- The position of a shape in its domain. -/
def position [DecidableEq σ] [ShapeDomain σ] (shape : σ) : Nat :=
  (domain (σ := σ)).idxOf shape

end ShapeDomain

instance : ShapeDomain Value.Shape where
  domain := [.bool, .int, .long, .bignum, .float, .nil, .object]
  label := Value.Shape.label

/-- Numbered slots are a domain of any finite size, with no values behind them. -/
instance (n : Nat) : ShapeDomain (Fin n) where
  domain := List.finRange n
  label slot := s!"slot{slot.val}"

namespace Value.Shape

theorem mem_domain (shape : Shape) : shape ∈ ShapeDomain.domain := by
  cases shape <;> decide

theorem nodup_domain : (ShapeDomain.domain (σ := Shape)).Nodup := by
  decide

end Value.Shape

end AdaptiveDispatch
