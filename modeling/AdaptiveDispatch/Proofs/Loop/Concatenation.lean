import AdaptiveDispatch.Proofs.Loop.Visiting

/-!
# Loops over items that come in two parts

A loop over items goes through the first items as if there were no others. If it completes
there, the loop over the others goes on in the state that it is left in, and otherwise nothing
of them matters (`each_append`). The values of the two parts are put together, and what the
second part is left with or fails with is all that remains of both.
-/

namespace AdaptiveDispatch.Loop

variable {σ : Type} {body : Value → σ → Option (Completion × σ)} {bound bound' : Nat} {s s' : σ}
  {items : List Value} {result : Except Fault Outcome}

/-- The rest of a loop, after what it came to for some of its items. -/
def continued (body : Value → σ → Option (Completion × σ)) (bound : Nat) (more : List Value) :
    Except Fault Outcome × σ → Option (Except Fault Outcome × σ)
  | (.ok (.completed values), s) =>
      (each body bound more s).map (Prod.map (·.map (Outcome.after values)) id)
  | ended => some ended

theorem continued_of_not_completed (body : Value → σ → Option (Completion × σ)) (bound : Nat)
    (more : List Value) (s : σ) (ended : ∀ values, result ≠ .ok (.completed values)) :
    continued body bound more (result, s) = some (result, s) := by
  rcases result with fault | values | value
  · rfl
  · exact absurd rfl (ended values)
  · rfl

/-- An item in front adds its value to whatever the others come to. -/
theorem continued_cons (body : Value → σ → Option (Completion × σ)) (bound : Nat)
    (more : List Value) (value : Value) (ended : Except Fault Outcome × σ) :
    continued body bound more (Prod.map (·.map (Outcome.cons value)) id ended) =
      (continued body bound more ended).map (Prod.map (·.map (Outcome.cons value)) id) := by
  obtain ⟨fault | values | value', s⟩ := ended
  · rfl
  · simp only [continued, Prod.map, Except.map, Outcome.cons, Option.map_map]
    congr 1
    funext ⟨result, s⟩
    exact congrArg (·, s) (Outcome.map_cons_after result value values).symm
  · rfl

theorem each_append (body : Value → σ → Option (Completion × σ)) (bound : Nat)
    (items more : List Value) (s : σ) :
    each body bound (items ++ more) s =
      (each body bound items s).bind (continued body bound more) := by
  induction items generalizing s with
  | nil =>
      have same : Prod.map (·.map (Outcome.after [])) id = @id (Except Fault Outcome × σ) := by
        funext ⟨result, s⟩
        exact congrArg (·, s) (Outcome.map_after_nil result)
      simp only [List.nil_append, each, Option.bind_some, continued, same, Option.map_id, id]
  | cons item items ih =>
      rw [List.cons_append, each_cons, each_cons]
      rcases settle (body item) bound s with _ | ⟨value | value | fault, s⟩
      · rfl
      · simp only [Option.bind_some, ih]
        rcases each body bound items s with _ | ended
        · rfl
        · exact (continued_cons body bound more value ended).symm
      · rfl
      · rfl

theorem each_mono (le : bound ≤ bound') (returned : each body bound items s = some (result, s')) :
    each body bound' items s = some (result, s') := by
  induction items generalizing s s' result with
  | nil => exact returned
  | cons item items ih =>
      rcases each_cons_eq_some_iff.mp returned with
        ⟨value, settled, same⟩ | ⟨fault, settled, same⟩ | ⟨value, s₁, rest, settled, rested, same⟩
      · exact each_cons_eq_some_iff.mpr (.inl ⟨value, settle_mono le settled, same⟩)
      · exact each_cons_eq_some_iff.mpr (.inr (.inl ⟨fault, settle_mono le settled, same⟩))
      · exact each_cons_eq_some_iff.mpr
          (.inr (.inr ⟨value, s₁, rest, settle_mono le settled, ih rested, same⟩))

/-- The items that are visited come first among all items. -/
theorem Visited.items_prefix {visits : List Visit} (visited : Visited items visits result) :
    visits.map Visit.item <+: items := by
  cases visited with
  | completed finish => exact List.prefix_rfl
  | @broken earlier values later last value finish leaves =>
      exact ⟨later, by simp⟩
  | @failed earlier values later last fault finish fails =>
      exact ⟨later, by simp⟩

/-- A loop that completes for some items goes on with the items behind them, from the state it
is left in: if it completes for them as well then with the values of both, and otherwise it
does exactly what it does for them alone, be it that it does not return. A loop that does not
complete for some items does the same whatever items come behind them. It makes the same calls
then, which are visits of the first items. -/
theorem each_append_composes (body : Value → σ → Option (Completion × σ))
    (items more : List Value) (s t : σ) (bound bound' : Nat) (le : bound ≤ bound') :
    (∀ values, each body bound items s = some (.ok (.completed values), t) →
      (∀ values' u, each body bound' more t = some (.ok (.completed values'), u) →
        each body bound' (items ++ more) s = some (.ok (.completed (values ++ values')), u)) ∧
      ((∀ values' u, each body bound' more t ≠ some (.ok (.completed values'), u)) →
        each body bound' (items ++ more) s = each body bound' more t)) ∧
      ∀ result, (∀ values, result ≠ .ok (.completed values)) →
        each body bound items s = some (result, t) →
        each body bound' (items ++ more) s = some (result, t) ∧
          ∃ visits : List Visit, visits.map Visit.item <+: items ∧
            each (fun item => logged (body item) (item, ·)) bound items (s, []) =
              some (result, t, visits.flatMap Visit.calls) ∧
            each (fun item => logged (body item) (item, ·)) bound' (items ++ more) (s, []) =
              some (result, t, visits.flatMap Visit.calls) := by
  constructor
  · intro values returned
    have whole : each body bound' (items ++ more) s =
        (each body bound' more t).map (Prod.map (·.map (Outcome.after values)) id) := by
      rw [each_append, each_mono le returned]
      rfl
    constructor
    · intro values' u rest
      rw [whole, rest]
      rfl
    · intro ends
      rw [whole]
      rcases rest : each body bound' more t with _ | ⟨fault | values' | value, u⟩
      · rfl
      · rfl
      · exact absurd rest (ends values' u)
      · rfl
  · intro result ends returned
    have alone {ρ : Type} {body : Value → ρ → Option (Completion × ρ)} {s t : ρ}
        (returned : each body bound items s = some (result, t)) :
        each body bound' (items ++ more) s = some (result, t) := by
      rw [each_append, each_mono le returned]
      exact continued_of_not_completed body bound' more t ends
    obtain ⟨log, recorded⟩ := each_logged returned
    obtain ⟨visits, visited, chain⟩ := (Visits.of_each recorded).visited
    obtain ⟨-, rfl⟩ := chain.of_logged fun _ _ _ calls => calls_of_logged calls
    exact ⟨alone returned, visits, visited.items_prefix, recorded, alone recorded⟩

/-- A body that asks for another run at the first item and at the third, and leaves the loop at
the fourth. Two items and one more complete, and four items do not, with another one behind
them or without. -/
theorem each_append_composes_five :
    let answers (item : Value) (calls : Nat) : Option (Completion × Nat) :=
      match calls with
      | 0 | 3 => some (.error (.signal .redo), calls + 1)
      | 1 => some (.error (.signal (.next (.int 7))), 2)
      | 2 | 4 => some (.ok item, calls + 1)
      | _ => some (.error (.signal (.leave item)), calls + 1)
    let four : List Value := [.nil, .bool true, .bool false, .nil]
    each answers 2 [.nil, .bool true] 0 = some (.ok (.completed [.int 7, .bool true]), 3) ∧
      each answers 2 [.bool false] 3 = some (.ok (.completed [.bool false]), 5) ∧
      each answers 2 ([.nil, .bool true] ++ [.bool false]) 0 =
        some (.ok (.completed ([.int 7, .bool true] ++ [.bool false])), 5) ∧
      each answers 2 four 0 = some (.ok (.broken .nil), 6) ∧
      each answers 3 (four ++ [.bool true]) 0 = some (.ok (.broken .nil), 6) := by
  intro answers four
  have first : each answers 2 [.nil, .bool true] 0 =
      some (.ok (.completed [.int 7, .bool true]), 3) := rfl
  have second : each answers 2 [.bool false] 3 = some (.ok (.completed [.bool false]), 5) := rfl
  have left : each answers 2 four 0 = some (.ok (.broken .nil), 6) := rfl
  have both := (each_append_composes answers [.nil, .bool true] [.bool false] 0 3 2 2 (by decide)).1
    _ first
  have alone := (each_append_composes answers four [.bool true] 0 6 2 3 (by decide)).2
    (.ok (.broken .nil)) (fun _ same => by cases same) left
  exact ⟨first, second, both.1 _ _ second, left, alone.1⟩

end AdaptiveDispatch.Loop
