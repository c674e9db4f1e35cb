import AdaptiveDispatch.Loop

/-!
# Runs of loops

A loop that returns went through finitely many calls of its condition and its body. `Settles`,
`Whiles` and `Visits` say through which, without a bound. A bound only decides whether a run
returns: there is one with which it does exactly if there are such calls
(`exists_whileDo_iff`, `exists_each_iff`).

From the calls follows what holds of every loop. A relation between states that each call
stays in is one that the loop stays in. And nothing depends on what the states are: a map
between states that the condition and the body respect is respected by the loop.
-/

namespace AdaptiveDispatch.Loop

variable {σ σ' : Type}

/-- How a body that ends in a certain way ends its iteration, unless it asks to be run
again. -/
def Iteration.of? : Completion → Option Iteration
  | .ok value | .error (.signal (.next value)) => some (.finished value)
  | .error (.signal (.leave value)) => some (.left value)
  | .error (.signal .redo) => none
  | .error (.fault fault) => some (.failed fault)

/-- The outcome with a value for one more item in front. -/
def Outcome.cons (value : Value) : Outcome → Outcome
  | .completed values => .completed (value :: values)
  | .broken value => .broken value

/-- An iteration takes the state from `s` to `s'`: calls that ask for another one, and the
last call. -/
inductive Settles (body : σ → Option (Completion × σ)) : σ → Iteration → σ → Prop where
  | last {s s' : σ} {completion : Completion} {iteration : Iteration}
      (called : body s = some (completion, s')) (ends : Iteration.of? completion = some iteration) :
      Settles body s iteration s'
  | again {s s₁ s' : σ} {completion : Completion} {iteration : Iteration}
      (called : body s = some (completion, s₁)) (ends : Iteration.of? completion = none)
      (rest : Settles body s₁ iteration s') : Settles body s iteration s'

/-- A loop with a condition takes the state from `s` to `s'`. -/
inductive Whiles (condition : σ → Option (Except Fault Bool × σ))
    (body : σ → Option (Completion × σ)) : σ → Except Fault Value → σ → Prop where
  | ended {s s' : σ} (tested : condition s = some (.ok false, s')) :
      Whiles condition body s (.ok .nil) s'
  | refused {s s' : σ} {fault : Fault} (tested : condition s = some (.error fault, s')) :
      Whiles condition body s (.error fault) s'
  | left {s s₁ s' : σ} {value : Value} (tested : condition s = some (.ok true, s₁))
      (settles : Settles body s₁ (.left value) s') : Whiles condition body s (.ok value) s'
  | failed {s s₁ s' : σ} {fault : Fault} (tested : condition s = some (.ok true, s₁))
      (settles : Settles body s₁ (.failed fault) s') : Whiles condition body s (.error fault) s'
  | again {s s₁ s₂ s' : σ} {value : Value} {result : Except Fault Value}
      (tested : condition s = some (.ok true, s₁))
      (settles : Settles body s₁ (.finished value) s₂) (rest : Whiles condition body s₂ result s') :
      Whiles condition body s result s'

/-- A loop over items takes the state from `s` to `s'`. -/
inductive Visits (body : Value → σ → Option (Completion × σ)) :
    List Value → σ → Except Fault Outcome → σ → Prop where
  | done {s : σ} : Visits body [] s (.ok (.completed [])) s
  | left {item value : Value} {items : List Value} {s s' : σ}
      (settles : Settles (body item) s (.left value) s') :
      Visits body (item :: items) s (.ok (.broken value)) s'
  | failed {item : Value} {fault : Fault} {items : List Value} {s s' : σ}
      (settles : Settles (body item) s (.failed fault) s') :
      Visits body (item :: items) s (.error fault) s'
  | next {item value : Value} {items : List Value} {s s₁ s' : σ} {result : Except Fault Outcome}
      (settles : Settles (body item) s (.finished value) s₁)
      (rest : Visits body items s₁ result s') :
      Visits body (item :: items) s (result.map (Outcome.cons value)) s'

variable {condition : σ → Option (Except Fault Bool × σ)} {body : σ → Option (Completion × σ)}
  {visit : Value → σ → Option (Completion × σ)} {bound bound' : Nat} {s s' : σ}

section Bound

theorem settle_succ (body : σ → Option (Completion × σ)) (bound : Nat) (s : σ) :
    settle body (bound + 1) s = (body s).bind fun (completion, s) =>
      match Iteration.of? completion with
      | some iteration => some (iteration, s)
      | none => settle body bound s := by
  rw [settle]
  match body s with
  | none => rfl
  | some (.ok value, s) => rfl
  | some (.error (.signal (.next value)), s) => rfl
  | some (.error (.signal (.leave value)), s) => rfl
  | some (.error (.signal .redo), s) => rfl
  | some (.error (.fault fault), s) => rfl

theorem each_cons (visit : Value → σ → Option (Completion × σ)) (bound : Nat) (item : Value)
    (items : List Value) (s : σ) :
    each visit bound (item :: items) s = (settle (visit item) bound s).bind fun (iteration, s) =>
      match iteration with
      | .left value => some (.ok (.broken value), s)
      | .failed fault => some (.error fault, s)
      | .finished value => (each visit bound items s).map fun (result, s) =>
          (result.map (Outcome.cons value), s) := by
  rw [each]
  match settle (visit item) bound s with
  | none => rfl
  | some (.left value, s) => rfl
  | some (.failed fault, s) => rfl
  | some (.finished value, s) =>
      dsimp only [Option.bind_some]
      match each visit bound items s with
      | none => rfl
      | some (.error fault, s) => rfl
      | some (.ok (.completed values), s) => rfl
      | some (.ok (.broken value), s) => rfl

theorem Settles.of_settle {iteration : Iteration}
    (settled : settle body bound s = some (iteration, s')) : Settles body s iteration s' := by
  induction bound generalizing s with
  | zero => cases settled
  | succ bound ih =>
      rw [settle_succ] at settled
      obtain ⟨⟨completion, s₁⟩, called, settled⟩ := Option.bind_eq_some_iff.mp settled
      cases ends : Iteration.of? completion with
      | none =>
          simp only [ends] at settled
          exact .again called ends (ih settled)
      | some last =>
          simp only [ends] at settled
          cases settled
          exact .last called ends

/-- A larger bound changes nothing. -/
theorem settle_mono (le : bound ≤ bound') {iteration : Iteration}
    (settled : settle body bound s = some (iteration, s')) :
    settle body bound' s = some (iteration, s') := by
  induction bound generalizing bound' s with
  | zero => cases settled
  | succ bound ih =>
      obtain ⟨more, rfl⟩ := Nat.exists_eq_add_of_le' le
      rw [← Nat.add_assoc, settle_succ]
      rw [settle_succ] at settled
      obtain ⟨⟨completion, s₁⟩, called, settled⟩ := Option.bind_eq_some_iff.mp settled
      cases ends : Iteration.of? completion with
      | none =>
          simp only [ends] at settled
          simp only [called, Option.bind_some, ends]
          exact ih (Nat.le_add_left bound more) settled
      | some last =>
          simp only [ends] at settled
          simp only [called, Option.bind_some, ends]
          exact settled

theorem Settles.exists_settle {iteration : Iteration} (settles : Settles body s iteration s') :
    ∃ bound, settle body bound s = some (iteration, s') := by
  induction settles with
  | last called ends => exact ⟨1, by simp only [settle_succ, called, Option.bind_some, ends]⟩
  | again called ends rest ih =>
      obtain ⟨bound, settled⟩ := ih
      exact ⟨bound + 1, by simp only [settle_succ, called, Option.bind_some, ends, settled]⟩

theorem Whiles.of_whileDo {result : Except Fault Value}
    (returned : whileDo condition body bound s = some (result, s')) :
    Whiles condition body s result s' := by
  induction bound generalizing s with
  | zero => cases returned
  | succ bound ih =>
      rw [whileDo] at returned
      match tested : condition s with
      | none =>
          rw [tested] at returned
          cases returned
      | some (.error fault, s₁) =>
          rw [tested] at returned
          cases returned
          exact .refused tested
      | some (.ok false, s₁) =>
          rw [tested] at returned
          cases returned
          exact .ended tested
      | some (.ok true, s₁) =>
          simp only [tested] at returned
          match settled : settle body (bound + 1) s₁ with
          | none =>
              rw [settled] at returned
              cases returned
          | some (.finished value, s₂) =>
              rw [settled] at returned
              exact .again tested (.of_settle settled) (ih returned)
          | some (.left value, s₂) =>
              rw [settled] at returned
              cases returned
              exact .left tested (.of_settle settled)
          | some (.failed fault, s₂) =>
              rw [settled] at returned
              cases returned
              exact .failed tested (.of_settle settled)

/-- The converse of `Whiles.of_whileDo`, with every bound from some point on. -/
theorem Whiles.exists_whileDo {result : Except Fault Value}
    (whiles : Whiles condition body s result s') :
    ∃ enough, ∀ bound, enough ≤ bound →
      whileDo condition body bound s = some (result, s') := by
  have settles {s s' : σ} {iteration : Iteration} (settles : Settles body s iteration s') :
      ∃ enough, ∀ bound, enough ≤ bound →
        settle body (bound + 1) s = some (iteration, s') := by
    obtain ⟨enough, settled⟩ := settles.exists_settle
    exact ⟨enough, fun bound le => settle_mono (by omega) settled⟩
  have positive {bound : Nat} (le : 1 ≤ bound) : ∃ before, bound = before + 1 :=
    ⟨bound - 1, by omega⟩
  induction whiles with
  | ended tested | refused tested =>
      refine ⟨1, fun bound le => ?_⟩
      obtain ⟨bound, rfl⟩ := positive le
      simp only [whileDo, tested]
  | left tested last | failed tested last =>
      obtain ⟨enough, settled⟩ := settles last
      refine ⟨enough + 1, fun bound le => ?_⟩
      obtain ⟨bound, rfl⟩ := positive (by omega : 1 ≤ bound)
      simp only [whileDo, tested, settled bound (by omega)]
  | again tested first rest ih =>
      obtain ⟨enough, settled⟩ := settles first
      obtain ⟨more, returned⟩ := ih
      refine ⟨max enough more + 1, fun bound le => ?_⟩
      obtain ⟨bound, rfl⟩ := positive (by omega : 1 ≤ bound)
      simp only [whileDo, tested, settled bound (by omega), returned bound (by omega)]

theorem exists_whileDo_iff {result : Except Fault Value} :
    (∃ bound, whileDo condition body bound s = some (result, s')) ↔
      Whiles condition body s result s' := by
  constructor
  · rintro ⟨_, returned⟩
    exact .of_whileDo returned
  · intro whiles
    obtain ⟨enough, returned⟩ := whiles.exists_whileDo
    exact ⟨enough, returned enough (Nat.le_refl enough)⟩

/-- A loop over items returns with what the first of them comes to, unless that finishes its
iteration and the loop over the others returns. -/
theorem each_cons_eq_some_iff {item : Value} {items : List Value} {result : Except Fault Outcome} :
    each visit bound (item :: items) s = some (result, s') ↔
      (∃ value, settle (visit item) bound s = some (.left value, s') ∧
        .ok (.broken value) = result) ∨
      (∃ fault, settle (visit item) bound s = some (.failed fault, s') ∧ .error fault = result) ∨
      ∃ value s₁ rest, settle (visit item) bound s = some (.finished value, s₁) ∧
        each visit bound items s₁ = some (rest, s') ∧ rest.map (Outcome.cons value) = result := by
  rw [each_cons]
  constructor
  · intro returned
    obtain ⟨⟨iteration, s₁⟩, settled, returned⟩ := Option.bind_eq_some_iff.mp returned
    cases iteration with
    | left value =>
        cases returned
        exact .inl ⟨value, settled, rfl⟩
    | failed fault =>
        cases returned
        exact .inr (.inl ⟨fault, settled, rfl⟩)
    | finished value =>
        obtain ⟨⟨rest, s₂⟩, returned, same⟩ := Option.map_eq_some_iff.mp returned
        cases same
        exact .inr (.inr ⟨value, s₁, rest, settled, returned, rfl⟩)
  · rintro (⟨value, settled, rfl⟩ | ⟨fault, settled, rfl⟩ | ⟨value, s₁, rest, settled, returned, rfl⟩)
    · rw [settled, Option.bind_some]
    · rw [settled, Option.bind_some]
    · rw [settled, Option.bind_some]
      simp only [returned, Option.map_some]

theorem Visits.of_each {items : List Value} {result : Except Fault Outcome}
    (returned : each visit bound items s = some (result, s')) : Visits visit items s result s' := by
  induction items generalizing s result with
  | nil =>
      cases returned
      exact .done
  | cons item items ih =>
      rcases each_cons_eq_some_iff.mp returned with
        ⟨value, settled, rfl⟩ | ⟨fault, settled, rfl⟩ | ⟨value, s₁, rest, settled, rested, rfl⟩
      · exact .left (.of_settle settled)
      · exact .failed (.of_settle settled)
      · exact .next (.of_settle settled) (ih rested)

/-- The converse of `Visits.of_each`, with every bound from some point on. -/
theorem Visits.exists_each {items : List Value} {result : Except Fault Outcome}
    (visits : Visits visit items s result s') :
    ∃ enough, ∀ bound, enough ≤ bound → each visit bound items s = some (result, s') := by
  induction visits with
  | done => exact ⟨0, fun bound _ => rfl⟩
  | left last | failed last =>
      obtain ⟨enough, settled⟩ := last.exists_settle
      refine ⟨enough, fun bound le => ?_⟩
      rw [each_cons, settle_mono le settled, Option.bind_some]
  | next first rest ih =>
      obtain ⟨enough, settled⟩ := first.exists_settle
      obtain ⟨more, returned⟩ := ih
      refine ⟨max enough more, fun bound le => ?_⟩
      simp only [each_cons, settle_mono (by omega : enough ≤ bound) settled, Option.bind_some,
        returned bound (by omega), Option.map_some]

theorem exists_each_iff {items : List Value} {result : Except Fault Outcome} :
    (∃ bound, each visit bound items s = some (result, s')) ↔ Visits visit items s result s' := by
  constructor
  · rintro ⟨_, returned⟩
    exact .of_each returned
  · intro visits
    obtain ⟨enough, returned⟩ := visits.exists_each
    exact ⟨enough, returned enough (Nat.le_refl enough)⟩

end Bound

section Stays

variable {R : σ → σ → Prop}

theorem Settles.stays {iteration : Iteration} (settles : Settles body s iteration s')
    (trans : ∀ a b c, R a b → R b c → R a c)
    (calls : ∀ a completion b, body a = some (completion, b) → R a b) : R s s' := by
  induction settles with
  | last called ends => exact calls _ _ _ called
  | again called ends rest ih => exact trans _ _ _ (calls _ _ _ called) ih

theorem Whiles.stays {result : Except Fault Value} (whiles : Whiles condition body s result s')
    (trans : ∀ a b c, R a b → R b c → R a c)
    (tests : ∀ a answer b, condition a = some (answer, b) → R a b)
    (calls : ∀ a completion b, body a = some (completion, b) → R a b) : R s s' := by
  induction whiles with
  | ended tested | refused tested => exact tests _ _ _ tested
  | left tested settles | failed tested settles =>
      exact trans _ _ _ (tests _ _ _ tested) (settles.stays trans calls)
  | again tested settles rest ih =>
      exact trans _ _ _ (tests _ _ _ tested) (trans _ _ _ (settles.stays trans calls) ih)

theorem Visits.stays {items : List Value} {result : Except Fault Outcome}
    (visits : Visits visit items s result s') (refl : ∀ a, R a a)
    (trans : ∀ a b c, R a b → R b c → R a c)
    (calls : ∀ item a completion b, visit item a = some (completion, b) → R a b) : R s s' := by
  induction visits with
  | done => exact refl _
  | left settles | failed settles => exact settles.stays trans (calls _)
  | next settles rest ih => exact trans _ _ _ (settles.stays trans (calls _)) ih

end Stays

section Map

variable {f : σ → σ'} {condition' : σ' → Option (Except Fault Bool × σ')}
  {body' : σ' → Option (Completion × σ')} {visit' : Value → σ' → Option (Completion × σ')}

theorem settle_map (same : ∀ s, body' (f s) = (body s).map (Prod.map id f)) (bound : Nat) (s : σ) :
    settle body' bound (f s) = (settle body bound s).map (Prod.map id f) := by
  induction bound generalizing s with
  | zero => rfl
  | succ bound ih =>
      rw [settle_succ, settle_succ, same]
      match body s with
      | none => rfl
      | some (completion, s) =>
          simp only [Option.map_some, Prod.map_apply, id, Option.bind_some]
          cases Iteration.of? completion with
          | none => exact ih s
          | some iteration => rfl

theorem whileDo_map (tests : ∀ s, condition' (f s) = (condition s).map (Prod.map id f))
    (same : ∀ s, body' (f s) = (body s).map (Prod.map id f)) (bound : Nat) (s : σ) :
    whileDo condition' body' bound (f s) =
      (whileDo condition body bound s).map (Prod.map id f) := by
  induction bound generalizing s with
  | zero => rfl
  | succ bound ih =>
      rw [whileDo, whileDo, tests]
      match condition s with
      | none => rfl
      | some (.error fault, s) => rfl
      | some (.ok false, s) => rfl
      | some (.ok true, s) =>
          simp only [Option.map_some, Prod.map_apply, id, settle_map same]
          match settle body (bound + 1) s with
          | none => rfl
          | some (.finished value, s) => exact ih s
          | some (.left value, s) => rfl
          | some (.failed fault, s) => rfl

theorem each_map (same : ∀ item s, visit' item (f s) = (visit item s).map (Prod.map id f))
    (bound : Nat) (items : List Value) (s : σ) :
    each visit' bound items (f s) = (each visit bound items s).map (Prod.map id f) := by
  induction items generalizing s with
  | nil => rfl
  | cons item items ih =>
      rw [each_cons, each_cons, settle_map (same item)]
      match settle (visit item) bound s with
      | none => rfl
      | some (.left value, s) => rfl
      | some (.failed fault, s) => rfl
      | some (.finished value, s) =>
          simp only [Option.map_some, Prod.map_apply, id, Option.bind_some, ih, Option.map_map]
          rfl

end Map

end AdaptiveDispatch.Loop
