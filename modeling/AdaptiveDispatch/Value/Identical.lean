import AdaptiveDispatch.Value.Basic

/-!
# Deciding whether two values are identical

Identical values agree in everything: the bits of a double, and the identity, class and
fields of an object. `identical_iff` says that this is Lean's equality, which is
therefore decidable although values nest in lists.
-/

namespace AdaptiveDispatch.Value

mutual

/-- Whether two values agree in every part. -/
def identical : Value → Value → Bool
  | .nil, .nil => true
  | .bool a, .bool b => decide (a = b)
  | .int m, .int n => decide (m = n)
  | .long m, .long n => decide (m = n)
  | .big y, .big z => decide (y = z)
  | .float x, .float y => decide (x = y)
  | .object i c fs, .object j d gs => decide (i = j) && decide (c = d) && identicalAll fs gs
  | _, _ => false

/-- Whether two lists of values agree in every part. -/
def identicalAll : List Value → List Value → Bool
  | [], [] => true
  | v :: vs, w :: ws => identical v w && identicalAll vs ws
  | _, _ => false

end

mutual

theorem identical_iff : (v w : Value) → (identical v w = true ↔ v = w)
  | .object i c fs, w => by
      cases w <;> simp [identical, identicalAll_iff fs, and_assoc]
  | .nil, w | .bool _, w | .int _, w | .long _, w | .big _, w | .float _, w => by
      cases w <;> simp [identical]

theorem identicalAll_iff : (vs ws : List Value) → (identicalAll vs ws = true ↔ vs = ws)
  | [], ws => by cases ws <;> simp [identicalAll]
  | v :: vs, ws => by
      cases ws <;> simp [identicalAll, identical_iff v, identicalAll_iff vs]

end

instance : DecidableEq Value := fun v w =>
  decidable_of_iff _ (identical_iff v w)

end AdaptiveDispatch.Value
