import AdaptiveDispatch.Proofs.Coercion.Outcome
import AdaptiveDispatch.Proofs.Coercion.Reentrancy
import AdaptiveDispatch.Proofs.Loop.Concatenation

/-!
# Coercing the items of a loop

The body of a loop coerces each item, at one site and with one invoker, and goes on with the
integer. A coercion that fails is a fault of the body, which leaves the loop with it.

So the loop makes the coercions that one would make one after the other (`coerceInTurn`), up to
the first that fails (`Reached`). It is over then: the site and the invoker are as they were left
by that coercion, and no method of a later item is called. Methods may use the site.
-/

namespace AdaptiveDispatch

open Loop

variable {τ : Type}

namespace CoercionSite

/-- Coerce some values one after the other, whether or not this fails. -/
def coerceInTurn (invoke : Invoker (CoercionSite × τ)) (strict : Bool) :
    List Value → CoercionSite × τ → List Coerced × CoercionSite × τ
  | [], state => ([], state)
  | v :: rest, state =>
      let (result, state) := coerceReentrant invoke v strict state
      let (results, state) := coerceInTurn invoke strict rest state
      (result :: results, state)

/-- The body of a loop that coerces an item and goes on with the integer. -/
def coercing (invoke : Invoker (CoercionSite × τ)) (strict : Bool) (item : Value)
    (state : CoercionSite × τ) : Option (Completion × CoercionSite × τ) :=
  let (result, state) := coerceReentrant invoke item strict state
  some (.ofFault ((result.mapError .coercion).map .long), state)

/-- How far a loop gets that coerces its items, which of them it coerces, and what it ends
with. -/
inductive Reached (invoke : Invoker (CoercionSite × τ)) (strict : Bool) (start : CoercionSite × τ) :
    List Value → List Value → Except Fault Outcome → CoercionSite × τ → Prop where
  | all {items : List Value} {numbers : List Int64} {final : CoercionSite × τ}
      (coerced : coerceInTurn invoke strict items start = (numbers.map .ok, final)) :
      Reached invoke strict start items items (.ok (.completed (numbers.map .long))) final
  | failed {earlier later : List Value} {item : Value} {numbers : List Int64}
      {cause : Fault.Coercion} {final : CoercionSite × τ}
      (coerced : coerceInTurn invoke strict (earlier ++ [item]) start =
        (numbers.map .ok ++ [.error cause], final)) :
      Reached invoke strict start (earlier ++ item :: later) (earlier ++ [item])
        (.error (.coercion cause)) final

variable {invoke : Invoker (CoercionSite × τ)} {strict : Bool} {start final : CoercionSite × τ}
  {items done : List Value} {result : Except Fault Outcome} {numbers : List Int64} {bound : Nat}

theorem coerceInTurn_cons_iff {item : Value} {coerced : Coerced} {results : List Coerced} :
    coerceInTurn invoke strict (item :: items) start = (coerced :: results, final) ↔
      ∃ state, coerceReentrant invoke item strict start = (coerced, state) ∧
        coerceInTurn invoke strict items state = (results, final) := by
  rw [coerceInTurn]
  constructor
  · intro same
    injection same with same rest
    injection same with first later
    exact ⟨_, Prod.ext first rfl, Prod.ext later rest⟩
  · rintro ⟨state, first, later⟩
    rw [first]
    dsimp only
    rw [later]

theorem coerceInTurn_append (invoke : Invoker (CoercionSite × τ)) (strict : Bool)
    (items more : List Value) (start : CoercionSite × τ) :
    coerceInTurn invoke strict (items ++ more) start =
      let (results, state) := coerceInTurn invoke strict items start
      let (results', state) := coerceInTurn invoke strict more state
      (results ++ results', state) := by
  induction items generalizing start with
  | nil => rfl
  | cons item items ih => simp only [List.cons_append, coerceInTurn, ih]

theorem coerceInTurn_append_singleton {item : Value} {coerced : Coerced} {results : List Coerced}
    (run : coerceInTurn invoke strict (items ++ [item]) start = (results ++ [coerced], final)) :
    ∃ state, coerceInTurn invoke strict items start = (results, state) ∧
      coerceReentrant invoke item strict state = (coerced, final) := by
  rw [coerceInTurn_append] at run
  obtain ⟨same, rfl⟩ := Prod.mk.inj run
  obtain ⟨before, last⟩ := List.append_inj' same rfl
  exact ⟨_, Prod.ext before rfl, Prod.ext (List.cons.inj last).1 rfl⟩

/-- With methods that leave the site alone these are the coercions that the site is asked for one
after the other. -/
theorem coerceInTurn_apart (invoke : Invoker τ) (strict : Bool) (items : List Value)
    (site : CoercionSite) (t : τ) :
    coerceInTurn invoke.apart strict items (site, t) =
      site.coerceAll (items.map (⟨·, strict, invoke⟩)) t := by
  induction items generalizing site t with
  | nil => rfl
  | cons item items ih =>
      have first : coerceReentrant invoke.apart item strict (site, t) =
          site.coerce invoke item strict t := rfl
      simp only [List.map_cons, coerceInTurn, coerceAll, first, ih]

/-- The next coercion ends the loop if it fails. -/
theorem each_coercing_cons (item : Value) (items : List Value) :
    each (coercing invoke strict) (bound + 1) (item :: items) start =
      match coerceReentrant invoke item strict start with
      | (.ok n, state) =>
          (each (coercing invoke strict) (bound + 1) items state).map
            (Prod.map (·.map (Outcome.cons (.long n))) id)
      | (.error cause, state) => some (.error (.coercion cause), state) := by
  rw [each_cons, settle_succ]
  simp only [coercing]
  obtain ⟨cause | n, state⟩ := coerceReentrant invoke item strict start
  · rfl
  · rfl

theorem each_of_coerced
    (coerced : coerceInTurn invoke strict items start = (numbers.map .ok, final)) :
    each (coercing invoke strict) (bound + 1) items start =
      some (.ok (.completed (numbers.map .long)), final) := by
  induction items generalizing start numbers with
  | nil =>
      obtain ⟨none, rfl⟩ := Prod.mk.inj coerced
      obtain rfl := List.map_eq_nil_iff.mp none.symm
      rfl
  | cons item items ih =>
      cases numbers with
      | nil => cases coerced
      | cons n numbers =>
          obtain ⟨state, first, rest⟩ := coerceInTurn_cons_iff.mp coerced
          rw [each_coercing_cons, first]
          dsimp only
          rw [ih rest]
          rfl

/-- What the loop ends with is what it reaches. -/
theorem Reached.each (reached : Reached invoke strict start items done result final) :
    Loop.each (coercing invoke strict) (bound + 1) items start = some (result, final) := by
  cases reached with
  | all coerced => exact each_of_coerced coerced
  | failed coerced =>
      -- The loop completes for the items before, and then none of the later ones matters.
      obtain ⟨state, before, last⟩ := coerceInTurn_append_singleton coerced
      rw [each_append, each_of_coerced before, Option.bind_some, continued, each_coercing_cons,
        last]
      rfl

theorem Reached.cons {item : Value} {n : Int64} {state : CoercionSite × τ}
    (first : coerceReentrant invoke item strict start = (.ok n, state))
    (rest : Reached invoke strict state items done result final) :
    ∃ result, Reached invoke strict start (item :: items) (item :: done) result final := by
  cases rest with
  | @all _ numbers _ coerced =>
      have coerced : coerceInTurn invoke strict (item :: items) start =
          ((n :: numbers).map .ok, final) :=
        coerceInTurn_cons_iff.mpr ⟨state, first, coerced⟩
      exact ⟨_, .all coerced⟩
  | @failed earlier later last numbers cause _ coerced =>
      have coerced : coerceInTurn invoke strict ((item :: earlier) ++ [last]) start =
          ((n :: numbers).map .ok ++ [.error cause], final) :=
        coerceInTurn_cons_iff.mpr ⟨state, first, coerced⟩
      exact ⟨_, .failed coerced⟩

theorem exists_reached (invoke : Invoker (CoercionSite × τ)) (strict : Bool)
    (items : List Value) (start : CoercionSite × τ) :
    ∃ done result final, Reached invoke strict start items done result final := by
  induction items generalizing start with
  | nil =>
      have coerced : coerceInTurn invoke strict [] start = (List.map .ok [], start) := rfl
      exact ⟨[], _, start, .all coerced⟩
  | cons item items ih =>
      rcases first : coerceReentrant invoke item strict start with ⟨cause | n, state⟩
      · have coerced : coerceInTurn invoke strict ([] ++ [item]) start =
            (List.map .ok [] ++ [.error cause], state) :=
          coerceInTurn_cons_iff.mpr ⟨state, first, rfl⟩
        exact ⟨_, _, state, .failed coerced⟩
      · obtain ⟨done, result, final, rest⟩ := ih state
        obtain ⟨result, reached⟩ := rest.cons first
        exact ⟨_, result, final, reached⟩

/-- A failure is left behind among the results if it is not the end. -/
theorem Reached.completed_iff (reached : Reached invoke strict start items done result final) :
    (∃ values, result = .ok (.completed values)) ↔
      ∀ coerced ∈ (coerceInTurn invoke strict items start).1, ∃ n, coerced = .ok n := by
  cases reached with
  | all coerced =>
      rw [coerced]
      simp
  | @failed earlier later item numbers cause _ coerced =>
      have results := coerceInTurn_append invoke strict (earlier ++ [item]) later start
      rw [List.append_assoc, List.singleton_append, coerced] at results
      refine iff_of_false (fun ⟨values, completed⟩ => by cases completed) fun succeed => ?_
      obtain ⟨n, none⟩ := succeed (.error cause) (by simp [results])
      cases none

/-- A record of the calls makes no difference to a coercion, which makes one at most. -/
theorem coerceReentrant_recordingBeside (invoke : Invoker (CoercionSite × τ)) (v : Value)
    (strict : Bool) (site : CoercionSite) (t : τ) (calls : List MethodCall) :
    let plain := coerceReentrant invoke v strict (site, t)
    ∃ more, coerceReentrant invoke.recordingBeside v strict (site, t, calls) =
        (plain.1, plain.2.1, plain.2.2, calls ++ more) ∧
      (more.map MethodCall.receiver).Sublist [v] := by
  simp only [coerceReentrant_halves]
  obtain ⟨result | name, next⟩ := site.start v strict
  · exact ⟨[], by rw [List.append_nil], List.nil_sublist [v]⟩
  · exact ⟨[⟨v, name, []⟩], rfl, List.Sublist.refl [v]⟩

theorem coerceInTurn_recordingBeside (invoke : Invoker (CoercionSite × τ)) (strict : Bool)
    (items : List Value) (site : CoercionSite) (t : τ) (calls : List MethodCall) :
    let plain := coerceInTurn invoke strict items (site, t)
    ∃ more, coerceInTurn invoke.recordingBeside strict items (site, t, calls) =
        (plain.1, plain.2.1, plain.2.2, calls ++ more) ∧
      (more.map MethodCall.receiver).Sublist items := by
  induction items generalizing site t calls with
  | nil => exact ⟨[], by simp [coerceInTurn], List.Sublist.refl []⟩
  | cons item items ih =>
      obtain ⟨first, same, receiver⟩ :=
        coerceReentrant_recordingBeside invoke item strict site t calls
      obtain ⟨later, same', receivers⟩ := ih (coerceReentrant invoke item strict (site, t)).2.1
        (coerceReentrant invoke item strict (site, t)).2.2 (calls ++ first)
      refine ⟨first ++ later, ?_, ?_⟩
      · rw [coerceInTurn, same]
        dsimp only
        rw [same', List.append_assoc]
        rfl
      · rw [List.map_append]
        exact receiver.append receivers

/-- A loop with a record of the calls gets as far, and has called no methods of other items. -/
theorem Reached.recordingBeside {site site' : CoercionSite} {t t' : τ}
    (reached : Reached invoke strict (site, t) items done result (site', t')) :
    ∃ calls, Reached invoke.recordingBeside strict (site, t, []) items done result
        (site', t', calls) ∧
      (calls.map MethodCall.receiver).Sublist done := by
  obtain ⟨calls, same, receivers⟩ :=
    coerceInTurn_recordingBeside invoke strict done site t []
  rw [List.nil_append] at same
  cases reached with
  | all coerced =>
      rw [coerced] at same
      exact ⟨calls, .all same, receivers⟩
  | failed coerced =>
      rw [coerced] at same
      exact ⟨calls, .failed same, receivers⟩

/-- A loop that coerces its items stops at the first failure. It completes with the integers, in
the order of the items, exactly if coercions of all items one after the other succeed.
Otherwise it fails with what the first of them fails with. The site and the invoker are left as
by the coercions of the items up to and including that one, which are those of the site itself
if methods leave it alone. Only these items have received calls, each one at most and in their
order. -/
theorem coercing_loop_stops_at_failure (site : CoercionSite) (invoke : Invoker (CoercionSite × τ))
    (strict : Bool) (items : List Value) (t : τ) (bound : Nat) :
    (∃ done result site' t' calls,
      Loop.each (coercing invoke strict) (bound + 1) items (site, t) =
        some (result, site', t') ∧
      Reached invoke strict (site, t) items done result (site', t') ∧
      ((∃ values, result = .ok (.completed values)) ↔
        ∀ coerced ∈ (coerceInTurn invoke strict items (site, t)).1, ∃ n, coerced = .ok n) ∧
      Loop.each (coercing invoke.recordingBeside strict) (bound + 1) items (site, t, []) =
        some (result, site', t', calls) ∧
      Reached invoke.recordingBeside strict (site, t, []) items done result (site', t', calls) ∧
      (calls.map MethodCall.receiver).Sublist done) ∧
    ∀ (quiet : Invoker τ) (done : List Value),
      coerceInTurn quiet.apart strict done (site, t) =
        site.coerceAll (done.map (⟨·, strict, quiet⟩)) t := by
  obtain ⟨done, result, ⟨site', t'⟩, reached⟩ := exists_reached invoke strict items (site, t)
  obtain ⟨calls, recorded, receivers⟩ := reached.recordingBeside
  refine ⟨⟨done, result, site', t', calls, reached.each, reached, reached.completed_iff,
    recorded.each, recorded, receivers⟩, ?_⟩
  intro quiet done
  exact coerceInTurn_apart quiet strict done site t

/-- The second box is not reached behind `nil`, which no site converts. -/
theorem coercing_loop_stops_at_failure_nil :
    let table := ⟨Conversion.rules .bits64, RuleTable.indexOf (Conversion.rules .bits64), .chain⟩
    let site := CoercionSite.new ⟨0⟩ .bits64 table 2 "to_int"
    let box := Value.object 0 "Box" []
    let unbox : Invoker Nat := fun _ _ _ count => (.returned (.int 4), count + 1)
    let items : List Value := [.long 5, box, .nil, box]
    let refusal : Fault := .coercion (.noImplicitConversion "nil" "Integer")
    let after := site.advance [.long, .object, .nil] [.int]
    each (coercing unbox.apart false) 1 items (site, 0) = some (.error refusal, after, 1) ∧
      ∃ done, Reached unbox.apart false (site, 0) items done (.error refusal) (after, 1) := by
  intro table site box unbox items refusal after
  have run : each (coercing unbox.apart false) 1 items (site, 0) =
      some (.error refusal, after, 1) := rfl
  obtain ⟨done, result, site', t', calls, ended, reached, _⟩ :=
    (coercing_loop_stops_at_failure site unbox.apart false items 0 0).1
  rw [run] at ended
  cases ended
  exact ⟨run, done, reached⟩

end CoercionSite

end AdaptiveDispatch
