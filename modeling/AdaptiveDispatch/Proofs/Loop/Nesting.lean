import AdaptiveDispatch.Proofs.Loop.Runs

/-!
# Loops inside of loops

The body of an outer loop runs an inner loop, passes its failure on, and goes on with a value
if there is none. The whole body may stand under a handler. `Nest` is such a body, with
whatever an inner loop may be.

The inner loop answers the signals of its own body, so the outer one never meets any. A round
of it is one call of its body, in which the code behind the inner loop runs unless the inner
loop failed, and the handler once if it did (`Took`). To count the calls the parts of a nest
can be let keep a log next to the state (`Nest.recorded`), which changes nothing else.
-/

namespace AdaptiveDispatch.Loop

/-- A loop that is run by the body of another one. -/
inductive Inner (σ : Type) where
  | whileDo (condition : σ → Option (Except Fault Bool × σ)) (body : σ → Option (Completion × σ))
  | each (items : List Value) (body : Value → σ → Option (Completion × σ))

/-- What a loop ends with unless it fails. -/
inductive Ending where
  | value (value : Value)
  | outcome (outcome : Outcome)

variable {ι σ κ : Type}

/-- Run something on the first part of a state. -/
def beside {α : Type} (run : σ → Option (α × σ)) (state : σ × κ) : Option (α × σ × κ) :=
  (run state.1).map (Prod.map id (·, state.2))

namespace Inner

def run (bound : Nat) : Inner σ → σ → Option (Except Fault Ending × σ)
  | .whileDo condition body, s =>
      (Loop.whileDo condition body bound s).map (Prod.map (·.map .value) id)
  | .each items body, s =>
      (Loop.each body bound items s).map (Prod.map (·.map .outcome) id)

/-- The loop on the first part of a state. -/
def beside (κ : Type) : Inner σ → Inner (σ × κ)
  | .whileDo condition body => .whileDo (Loop.beside condition) (Loop.beside body)
  | .each items body => .each items fun item => Loop.beside (body item)

/-- What stands beside the state of a loop stays as it is. -/
theorem run_beside (loop : Inner σ) (bound : Nat) (s : σ) (k : κ) :
    (loop.beside κ).run bound (s, k) = (loop.run bound s).map (Prod.map id (·, k)) := by
  cases loop with
  | whileDo condition body =>
      have same : Loop.whileDo (Loop.beside condition) (Loop.beside body) bound (s, k) =
          (Loop.whileDo condition body bound s).map (Prod.map id (·, k)) :=
        whileDo_map (f := (·, k)) (fun _ => rfl) (fun _ => rfl) bound s
      simp only [run, beside, same, Option.map_map]
      rfl
  | each items body =>
      have same : Loop.each (fun item => Loop.beside (body item)) bound items (s, k) =
          (Loop.each body bound items s).map (Prod.map id (·, k)) :=
        each_map (f := (·, k)) (fun _ _ => rfl) bound items s
      simp only [run, beside, same, Option.map_map]
      rfl

end Inner

/-- A body with an inner loop. -/
structure Nest (ι σ : Type) where
  /-- The inner loop, after whatever comes before it. -/
  inner : ι → σ → Inner σ × σ
  /-- What comes behind the inner loop. -/
  rest : ι → Ending → σ → Value × σ
  /-- What handles the failures of the body, if there is something. -/
  handler? : Option (ι → Fault → σ → Except Fault Value × σ)

namespace Nest

/-- The body without its handler. -/
def plain (nest : Nest ι σ) (bound : Nat) (item : ι) (s : σ) : Option (Completion × σ) :=
  let (loop, s) := nest.inner item s
  (loop.run bound s).map fun
    | (.error fault, s) => (.error (.fault fault), s)
    | (.ok ending, s) =>
        let (value, s) := nest.rest item ending s
        (.ok value, s)

def body (nest : Nest ι σ) (bound : Nat) (item : ι) (s : σ) : Option (Completion × σ) :=
  match nest.handler? with
  | none => nest.plain bound item s
  | some handler =>
      (nest.plain bound item s).map fun ended =>
        rescuing ended fun fault s =>
          let (result, s) := handler item fault s
          (.ofFault result, s)

end Nest

/-- How a call of a body with an inner loop went: through to its end, or the inner loop
failed, and something handled that. -/
inductive Round (ι : Type) where
  | through (item : ι) (ending : Ending) (value : Value)
  | failed (item : ι) (fault : Fault)
  | handled (item : ι) (fault : Fault) (result : Except Fault Value)

/-- What is recorded: tests of the outer condition, calls of the outer body, and in them
whether what comes behind the inner loop was reached and whether a failure was handled. -/
inductive Mark (ι : Type) where
  | tested (answer : Except Fault Bool)
  | called (item : ι)
  | reached (ending : Ending)
  | handled (fault : Fault)

namespace Round

def item : Round ι → ι
  | .through item _ _ | .failed item _ | .handled item _ _ => item

def result : Round ι → Except Fault Value
  | .through _ _ value => .ok value
  | .failed _ fault => .error fault
  | .handled _ _ result => result

def marks : Round ι → List (Mark ι)
  | .through item ending _ => [.called item, .reached ending]
  | .failed item _ => [.called item]
  | .handled item fault _ => [.called item, .handled fault]

end Round

namespace Nest

variable {nest : Nest ι σ} {bound : Nat} {item : ι} {s s' : σ} {round : Round ι}

/-- A call of the body of a nest takes the state from `s` to `s'`. -/
inductive Took (nest : Nest ι σ) (bound : Nat) : σ → Round ι → σ → Prop where
  | through {item : ι} {s s₁ s₂ s' : σ} {loop : Inner σ} {ending : Ending} {value : Value}
      (chosen : nest.inner item s = (loop, s₁))
      (ran : loop.run bound s₁ = some (.ok ending, s₂))
      (reached : nest.rest item ending s₂ = (value, s')) :
      Took nest bound s (.through item ending value) s'
  | failed {item : ι} {s s₁ s' : σ} {loop : Inner σ} {fault : Fault}
      (bare : nest.handler? = none) (chosen : nest.inner item s = (loop, s₁))
      (ran : loop.run bound s₁ = some (.error fault, s')) :
      Took nest bound s (.failed item fault) s'
  | handled {item : ι} {s s₁ s₂ s' : σ} {loop : Inner σ} {fault : Fault}
      {handler : ι → Fault → σ → Except Fault Value × σ} {result : Except Fault Value}
      (handles : nest.handler? = some handler) (chosen : nest.inner item s = (loop, s₁))
      (ran : loop.run bound s₁ = some (.error fault, s₂))
      (answered : handler item fault s₂ = (result, s')) :
      Took nest bound s (.handled item fault result) s'

/-- A call of the body that returns is a round, and ends with a value or a failure. -/
theorem took_of_body {completion : Completion}
    (called : nest.body bound item s = some (completion, s')) :
    ∃ round, nest.Took bound s round s' ∧ round.item = item ∧
      completion = .ofFault round.result := by
  rw [body, plain] at called
  generalize chosen : nest.inner item s = choice at called
  obtain ⟨loop, s₁⟩ := choice
  cases handles : nest.handler? with
  | none =>
      simp only [handles] at called
      obtain ⟨⟨result, s₂⟩, ran, ended⟩ := Option.map_eq_some_iff.mp called
      cases result with
      | ok ending =>
          cases ended
          exact ⟨_, .through chosen ran rfl, rfl, rfl⟩
      | error fault =>
          cases ended
          exact ⟨_, .failed handles chosen ran, rfl, rfl⟩
  | some handler =>
      simp only [handles, Option.map_map] at called
      obtain ⟨⟨result, s₂⟩, ran, ended⟩ := Option.map_eq_some_iff.mp called
      cases result with
      | ok ending =>
          cases ended
          exact ⟨_, .through chosen ran rfl, rfl, rfl⟩
      | error fault =>
          cases ended
          exact ⟨_, .handled handles chosen ran rfl, rfl, rfl⟩

end Nest

/-- How an iteration ends whose body ends with a value or a failure. -/
def Iteration.ofResult : Except Fault Value → Iteration
  | .ok value => .finished value
  | .error fault => .failed fault

theorem Iteration.of?_ofFault (result : Except Fault Value) :
    Iteration.of? (.ofFault result) = some (.ofResult result) := by
  cases result with
  | ok value => rfl
  | error fault => rfl

@[simp] theorem Iteration.ofResult_eq_finished_iff {result : Except Fault Value} {value : Value} :
    ofResult result = .finished value ↔ result = .ok value := by
  cases result with
  | ok value' => simp [ofResult]
  | error fault => simp [ofResult]

@[simp] theorem Iteration.ofResult_eq_failed_iff {result : Except Fault Value} {fault : Fault} :
    ofResult result = .failed fault ↔ result = .error fault := by
  cases result with
  | ok value => simp [ofResult]
  | error fault' => simp [ofResult]

theorem Iteration.ofResult_ne_left {result : Except Fault Value} {value : Value} :
    ofResult result ≠ .left value := by
  cases result with
  | ok value' => simp [ofResult]
  | error fault => simp [ofResult]

/-- Steps in a row, with a label for each of them. -/
inductive Chain {ρ : Type} (step : σ → ρ → σ → Prop) : σ → List ρ → σ → Prop where
  | nil {s : σ} : Chain step s [] s
  | cons {s s₁ s' : σ} {r : ρ} {rs : List ρ} (first : step s r s₁) (rest : Chain step s₁ rs s') :
      Chain step s (r :: rs) s'

namespace Nest

variable {nest : Nest ι σ} {bound : Nat} {item : ι} {s s' : σ} {rounds : List (Round ι)}

/-- All rounds came to a value. -/
def Succeed (rounds : List (Round ι)) (values : List Value) : Prop :=
  rounds.map Round.result = values.map .ok

/-- The last round failed, as the first one that did. -/
def Fail (rounds : List (Round ι)) (fault : Fault) : Prop :=
  ∃ earlier last values, rounds = earlier ++ [last] ∧ Succeed earlier values ∧
    last.result = .error fault

theorem Succeed.cons {round : Round ι} {value : Value} {values : List Value}
    (first : round.result = .ok value) (rest : Succeed rounds values) :
    Succeed (round :: rounds) (value :: values) := by
  rw [Succeed, List.map_cons, List.map_cons, first, rest]

theorem fail_singleton {round : Round ι} {fault : Fault} (failed : round.result = .error fault) :
    Fail [round] fault :=
  ⟨[], round, [], rfl, rfl, failed⟩

theorem Fail.cons {round : Round ι} {value : Value} {fault : Fault}
    (first : round.result = .ok value) (rest : Fail rounds fault) :
    Fail (round :: rounds) fault := by
  obtain ⟨earlier, last, values, rfl, succeed, failed⟩ := rest
  exact ⟨round :: earlier, last, value :: values, rfl, succeed.cons first, failed⟩

/-- An iteration of the outer loop is a single round. -/
theorem took_of_settles {iteration : Iteration}
    (settles : Settles (nest.body bound item) s iteration s') :
    ∃ round, nest.Took bound s round s' ∧ round.item = item ∧
      iteration = .ofResult round.result := by
  cases settles with
  | last called ends =>
      obtain ⟨round, took, same, rfl⟩ := took_of_body called
      rw [Iteration.of?_ofFault] at ends
      cases ends
      exact ⟨round, took, same, rfl⟩
  | again called ends rest =>
      -- Only a signal asks for another call, and here a call ends with a value or a failure.
      obtain ⟨round, took, same, rfl⟩ := took_of_body called
      rw [Iteration.of?_ofFault] at ends
      cases ends

/-- A run of the outer loop over items is a round for each item, up to the first that
fails. -/
theorem rounds_of_visits {nest : Nest Value σ} {items : List Value} {result : Except Fault Outcome}
    (visits : Visits (nest.body bound) items s result s') :
    ∃ rounds, Chain (nest.Took bound) s rounds s' ∧
      ((∃ values, result = .ok (.completed values) ∧ rounds.map Round.item = items ∧
          Succeed rounds values) ∨
        ∃ fault, result = .error fault ∧ rounds.map Round.item <+: items ∧
          Fail rounds fault) := by
  induction visits with
  | done => exact ⟨[], .nil, .inl ⟨[], rfl, rfl, rfl⟩⟩
  | left settles =>
      obtain ⟨round, _, _, ended⟩ := took_of_settles settles
      exact absurd ended.symm Iteration.ofResult_ne_left
  | failed settles =>
      obtain ⟨round, took, rfl, ended⟩ := took_of_settles settles
      have failed := Iteration.ofResult_eq_failed_iff.mp ended.symm
      exact ⟨[round], .cons took .nil, .inr ⟨_, rfl, ⟨_, rfl⟩, fail_singleton failed⟩⟩
  | next settles rest ih =>
      obtain ⟨round, took, rfl, ended⟩ := took_of_settles settles
      have succeeded := Iteration.ofResult_eq_finished_iff.mp ended.symm
      obtain ⟨rounds, chain, finish⟩ := ih
      refine ⟨round :: rounds, .cons took chain, ?_⟩
      rcases finish with ⟨values, rfl, rfl, succeed⟩ | ⟨fault, rfl, ⟨behind, rfl⟩, fail⟩
      · exact .inl ⟨_ :: values, rfl, rfl, succeed.cons succeeded⟩
      · exact .inr ⟨fault, rfl, ⟨behind, rfl⟩, fail.cons succeeded⟩

/-- A round of an outer loop with a condition, after a test of it. -/
def Turn (nest : Nest Unit σ) (bound : Nat) (condition : σ → Option (Except Fault Bool × σ))
    (s : σ) (round : Round Unit) (s' : σ) : Prop :=
  ∃ s₁, condition s = some (.ok true, s₁) ∧ nest.Took bound s₁ round s'

/-- The test of a condition that ends a loop, and what the loop ends with then. -/
inductive Exit (condition : σ → Option (Except Fault Bool × σ)) :
    σ → Except Fault Bool → Except Fault Value → σ → Prop where
  | ended {s s' : σ} (tested : condition s = some (.ok false, s')) :
      Exit condition s (.ok false) (.ok .nil) s'
  | refused {s s' : σ} {fault : Fault} (tested : condition s = some (.error fault, s')) :
      Exit condition s (.error fault) (.error fault) s'

/-- A run of the outer loop with a condition is a round for each test that it passes, up to
a test that it does not pass or to the first round that fails. -/
theorem rounds_of_whiles {nest : Nest Unit σ} {condition : σ → Option (Except Fault Bool × σ)}
    {result : Except Fault Value} (whiles : Whiles condition (nest.body bound ()) s result s') :
    ∃ rounds s₁, Chain (nest.Turn bound condition) s rounds s₁ ∧
      ((∃ values answer, Succeed rounds values ∧ Exit condition s₁ answer result s') ∨
        ∃ fault, result = .error fault ∧ s₁ = s' ∧ Fail rounds fault) := by
  induction whiles with
  | ended tested => exact ⟨[], _, .nil, .inl ⟨[], _, rfl, .ended tested⟩⟩
  | refused tested => exact ⟨[], _, .nil, .inl ⟨[], _, rfl, .refused tested⟩⟩
  | left tested settles =>
      obtain ⟨round, _, _, ended⟩ := took_of_settles settles
      exact absurd ended.symm Iteration.ofResult_ne_left
  | failed tested settles =>
      obtain ⟨round, took, _, ended⟩ := took_of_settles settles
      have failed := Iteration.ofResult_eq_failed_iff.mp ended.symm
      exact ⟨[round], _, .cons ⟨_, tested, took⟩ .nil, .inr ⟨_, rfl, rfl, fail_singleton failed⟩⟩
  | again tested settles rest ih =>
      obtain ⟨round, took, _, ended⟩ := took_of_settles settles
      have succeeded := Iteration.ofResult_eq_finished_iff.mp ended.symm
      obtain ⟨rounds, s₁, chain, finish⟩ := ih
      refine ⟨round :: rounds, s₁, .cons ⟨_, tested, took⟩ chain, ?_⟩
      rcases finish with ⟨values, answer, succeed, exit⟩ | ⟨fault, rfl, rfl, fail⟩
      · exact .inl ⟨_ :: values, answer, succeed.cons succeeded, exit⟩
      · exact .inr ⟨fault, rfl, rfl, fail.cons succeeded⟩

/-- The same handler, with its calls in a log. -/
def recordedHandler (handler : ι → Fault → σ → Except Fault Value × σ) (item : ι) (fault : Fault) :
    σ × List (Mark ι) → Except Fault Value × σ × List (Mark ι) :=
  fun (s, log) =>
    let (result, s) := handler item fault s
    (result, s, log ++ [.handled fault])

/-- The same body, with a log of its calls and of what they do beside the state. -/
def recorded (nest : Nest ι σ) : Nest ι (σ × List (Mark ι)) where
  inner item := fun (s, log) =>
    let (loop, s) := nest.inner item s
    (loop.beside _, s, log ++ [.called item])
  rest item ending := fun (s, log) =>
    let (value, s) := nest.rest item ending s
    (value, s, log ++ [.reached ending])
  handler? := nest.handler?.map recordedHandler

/-- The same condition, with its answers in the log. -/
def recordedTest (condition : σ → Option (Except Fault Bool × σ)) :
    σ × List (Mark ι) → Option (Except Fault Bool × σ × List (Mark ι)) :=
  fun (s, log) => (condition s).map fun (answer, s) => (answer, s, log ++ [.tested answer])

theorem plain_recorded (nest : Nest ι σ) (bound : Nat) (item : ι) (state : σ × List (Mark ι)) :
    nest.plain bound item state.1 =
      (nest.recorded.plain bound item state).map (Prod.map id Prod.fst) := by
  obtain ⟨s, log⟩ := state
  simp only [plain, recorded, Inner.run_beside, Option.map_map]
  congr 1
  funext ended
  match ended with
  | (.ok ending, s) => rfl
  | (.error fault, s) => rfl

/-- To keep a log makes no difference for a body. -/
theorem body_recorded (nest : Nest ι σ) (bound : Nat) (item : ι) (state : σ × List (Mark ι)) :
    nest.body bound item state.1 =
      (nest.recorded.body bound item state).map (Prod.map id Prod.fst) := by
  have plain := nest.plain_recorded bound item state
  have handles : nest.recorded.handler? = nest.handler?.map recordedHandler := rfl
  cases handled : nest.handler? with
  | none => simp only [body, handles, handled, plain, Option.map_none]
  | some handler =>
      simp only [body, handles, handled, plain, Option.map_some, Option.map_map]
      congr 1
      funext ended
      match ended with
      | (.ok value, s) => rfl
      | (.error (.signal signal), s) => rfl
      | (.error (.fault fault), s) => rfl

/-- The log of a round has its marks. -/
theorem took_of_recorded {state state' : σ × List (Mark ι)} {round : Round ι}
    (took : nest.recorded.Took bound state round state') :
    nest.Took bound state.1 round state'.1 ∧ state'.2 = state.2 ++ round.marks := by
  obtain ⟨s, log⟩ := state
  cases took with
  | through chosen ran reached =>
      cases chosen
      rw [Inner.run_beside] at ran
      obtain ⟨⟨result, s₂⟩, ran', same⟩ := Option.map_eq_some_iff.mp ran
      cases same
      cases reached
      exact ⟨.through rfl ran' rfl, List.append_assoc log _ _⟩
  | failed bare chosen ran =>
      cases chosen
      rw [Inner.run_beside] at ran
      obtain ⟨⟨result, s₂⟩, ran', same⟩ := Option.map_eq_some_iff.mp ran
      cases same
      exact ⟨.failed (Option.map_eq_none_iff.mp bare) rfl ran', rfl⟩
  | handled handles chosen ran answered =>
      cases chosen
      rw [Inner.run_beside] at ran
      obtain ⟨⟨result, s₂⟩, ran', same⟩ := Option.map_eq_some_iff.mp ran
      cases same
      obtain ⟨handler, there, same⟩ := Option.map_eq_some_iff.mp handles
      cases same
      cases answered
      exact ⟨.handled there rfl ran' rfl, List.append_assoc log _ _⟩

end Nest

/-- If the steps of a chain write marks into a log, then the log of the chain has all of
them. -/
theorem Chain.of_recorded {ρ μ : Type} {step : σ → ρ → σ → Prop}
    {step' : σ × List μ → ρ → σ × List μ → Prop} {marks : ρ → List μ} {state state' : σ × List μ}
    {rs : List ρ} (chain : Chain step' state rs state')
    (records : ∀ a r b, step' a r b → step a.1 r b.1 ∧ b.2 = a.2 ++ marks r) :
    Chain step state.1 rs state'.1 ∧ state'.2 = state.2 ++ rs.flatMap marks := by
  induction chain with
  | nil => exact ⟨.nil, (List.append_nil _).symm⟩
  | cons first rest ih =>
      obtain ⟨taken, log⟩ := records _ _ _ first
      obtain ⟨chain, log'⟩ := ih
      refine ⟨.cons taken chain, ?_⟩
      rw [log', log, List.flatMap_cons, List.append_assoc]

namespace Nest

variable {bound inner : Nat} {s s' : σ}

/-- The marks of a round after a test that holds. -/
def turnMarks (round : Round Unit) : List (Mark Unit) :=
  .tested (.ok true) :: round.marks

theorem turn_of_recorded {nest : Nest Unit σ} {condition : σ → Option (Except Fault Bool × σ)}
    {state state' : σ × List (Mark Unit)} {round : Round Unit}
    (turn : nest.recorded.Turn inner (recordedTest condition) state round state') :
    nest.Turn inner condition state.1 round state'.1 ∧ state'.2 = state.2 ++ turnMarks round := by
  obtain ⟨state₁, tested, took⟩ := turn
  obtain ⟨⟨answer, s₁⟩, tested', same⟩ := Option.map_eq_some_iff.mp tested
  cases same
  obtain ⟨took, log⟩ := took_of_recorded took
  exact ⟨⟨s₁, tested', took⟩, log.trans (List.append_assoc _ _ _)⟩

theorem exit_of_recorded {condition : σ → Option (Except Fault Bool × σ)}
    {state state' : σ × List (Mark ι)} {answer : Except Fault Bool} {result : Except Fault Value}
    (exit : Exit (recordedTest condition) state answer result state') :
    Exit condition state.1 answer result state'.1 ∧ state'.2 = state.2 ++ [.tested answer] := by
  cases exit with
  | ended tested =>
      obtain ⟨⟨answer, s₁⟩, tested', same⟩ := Option.map_eq_some_iff.mp tested
      cases same
      exact ⟨.ended tested', rfl⟩
  | refused tested =>
      obtain ⟨⟨answer, s₁⟩, tested', same⟩ := Option.map_eq_some_iff.mp tested
      cases same
      exact ⟨.refused tested', rfl⟩

theorem each_recorded {nest : Nest Value σ} {items : List Value} {result : Except Fault Outcome}
    (returned : Loop.each (nest.body inner) bound items s = some (result, s'))
    (log : List (Mark Value)) :
    ∃ log', Loop.each (nest.recorded.body inner) bound items (s, log) = some (result, s', log') := by
  have same := each_map (f := Prod.fst) (nest.body_recorded inner) bound items (s, log)
  rw [returned] at same
  obtain ⟨⟨result', s'', log'⟩, recorded, projected⟩ := Option.map_eq_some_iff.mp same.symm
  cases projected
  exact ⟨log', recorded⟩

theorem whileDo_recorded {nest : Nest Unit σ} {condition : σ → Option (Except Fault Bool × σ)}
    {result : Except Fault Value}
    (returned : Loop.whileDo condition (nest.body inner ()) bound s = some (result, s'))
    (log : List (Mark Unit)) :
    ∃ log', Loop.whileDo (recordedTest condition) (nest.recorded.body inner ()) bound (s, log) =
      some (result, s', log') := by
  have tests (state : σ × List (Mark Unit)) :
      condition state.1 = (recordedTest condition state).map (Prod.map id Prod.fst) := by
    rw [recordedTest, Option.map_map]
    exact Option.map_id'.symm
  have same := whileDo_map (f := Prod.fst) tests (nest.body_recorded inner ()) bound (s, log)
  rw [returned] at same
  obtain ⟨⟨result', s'', log'⟩, recorded, projected⟩ := Option.map_eq_some_iff.mp same.symm
  cases projected
  exact ⟨log', recorded⟩

/-- Signals stop at the innermost loop. A run of an outer loop over a body with an inner loop
is a chain of rounds, in each of which the outer body is called once. Behind the inner loop
the round goes on unless the inner loop failed; if it failed the handler is called once, and
otherwise never. That is what the log of the run shows. A loop over items has a round for
each item, in order, and completes with their values; a loop with a condition has a round for
each test that holds, and ends with nil when one does not. They fail with the failure of the
condition or of the first round that fails, and that is the last one. -/
theorem signals_stop_at_innermost (inner bound : Nat) :
    (∀ (nest : Nest Value σ) (items : List Value) (s s' : σ) (result : Except Fault Outcome),
      Loop.each (nest.body inner) bound items s = some (result, s') →
        ∃ rounds, Chain (nest.Took inner) s rounds s' ∧
          Loop.each (nest.recorded.body inner) bound items (s, []) =
            some (result, s', rounds.flatMap Round.marks) ∧
          ((∃ values, result = .ok (.completed values) ∧ rounds.map Round.item = items ∧
              Succeed rounds values) ∨
            ∃ fault, result = .error fault ∧ rounds.map Round.item <+: items ∧
              Fail rounds fault)) ∧
      ∀ (nest : Nest Unit σ) (condition : σ → Option (Except Fault Bool × σ)) (s s' : σ)
        (result : Except Fault Value),
        Loop.whileDo condition (nest.body inner ()) bound s = some (result, s') →
          ∃ rounds s₁ log, Chain (nest.Turn inner condition) s rounds s₁ ∧
            Loop.whileDo (recordedTest condition) (nest.recorded.body inner ()) bound (s, []) =
              some (result, s', rounds.flatMap turnMarks ++ log) ∧
            ((∃ values answer, Succeed rounds values ∧ Exit condition s₁ answer result s' ∧
                log = [.tested answer]) ∨
              ∃ fault, result = .error fault ∧ Fail rounds fault ∧ s₁ = s' ∧ log = []) := by
  constructor
  · intro nest items s s' result returned
    obtain ⟨log, recorded⟩ := each_recorded returned []
    obtain ⟨rounds, chain, finish⟩ := rounds_of_visits (.of_each recorded)
    obtain ⟨chain, same⟩ := chain.of_recorded fun _ _ _ took => took_of_recorded took
    rw [List.nil_append] at same
    rw [show log = _ from same] at recorded
    exact ⟨rounds, chain, recorded, finish⟩
  · intro nest condition s s' result returned
    obtain ⟨log, recorded⟩ := whileDo_recorded returned []
    obtain ⟨rounds, state₁, chain, finish⟩ := rounds_of_whiles (.of_whileDo recorded)
    obtain ⟨chain, before⟩ := chain.of_recorded fun _ _ _ turn => turn_of_recorded turn
    rw [List.nil_append] at before
    rcases finish with ⟨values, answer, succeed, exit⟩ | ⟨fault, failed, rfl, fail⟩
    · obtain ⟨exit, same⟩ := exit_of_recorded exit
      rw [show log = _ from same, before] at recorded
      exact ⟨rounds, state₁.1, _, chain, recorded, .inl ⟨values, answer, succeed, exit, rfl⟩⟩
    · rw [show log = _ from before, ← List.append_nil (rounds.flatMap turnMarks)] at recorded
      exact ⟨rounds, s', _, chain, recorded, .inr ⟨fault, failed, fail, rfl, rfl⟩⟩

/-- The calls of an inner body ask to be run again, for the next item, to leave the loop, and
fail, by turns. A handler recovers from the failure, or passes it on. -/
theorem signals_stop_at_innermost_turns :
    let turns (calls : Nat) : Option (Completion × Nat) :=
      match calls % 4 with
      | 0 => some (.error (.signal .redo), calls + 1)
      | 1 => some (.error (.signal (.next .nil)), calls + 1)
      | 2 => some (.error (.signal (.leave (.bool true))), calls + 1)
      | _ => some (.error (.fault (.raised "fourth")), calls + 1)
    let visits : Nest Value Nat :=
      ⟨fun _ calls => (.each [.nil, .nil] fun _ => turns, calls),
        fun item _ calls => (item, calls), some fun _ _ calls => (.ok .nil, calls)⟩
    let whiles : Nest Unit Nat :=
      ⟨fun _ calls =>
          (.whileDo (fun calls => some (.ok (decide (calls % 4 ≠ 0)), calls)) turns, calls),
        fun _ _ calls => (.nil, calls), some fun _ fault calls => (.error fault, calls)⟩
    let below (calls : Nat) : Option (Except Fault Bool × Nat) :=
      some (.ok (decide (calls < 5)), calls)
    Loop.each (visits.body 3) 1 [.bool true, .bool false, .bool true] 0 =
        some (.ok (.completed [.bool true, .nil, .bool true]), 7) ∧
      (∃ rounds, Chain (visits.Took 3) 0 rounds 7 ∧
        rounds.map Round.item = [.bool true, .bool false, .bool true]) ∧
      Loop.whileDo below (whiles.body 3 ()) 5 1 = some (.error (.raised "fourth"), 4) ∧
      ∃ rounds s₁, Chain (whiles.Turn 3 below) 1 rounds s₁ := by
  intro turns visits whiles below
  have completed : Loop.each (visits.body 3) 1 [.bool true, .bool false, .bool true] 0 =
      some (.ok (.completed [.bool true, .nil, .bool true]), 7) := rfl
  have failed : Loop.whileDo below (whiles.body 3 ()) 5 1 =
      some (.error (.raised "fourth"), 4) := rfl
  obtain ⟨rounds, chain, _, finish⟩ := (signals_stop_at_innermost 3 1).1 visits _ _ _ _ completed
  obtain ⟨turned, s₁, _, chain', _⟩ :=
    (signals_stop_at_innermost 3 5).2 whiles below _ _ _ failed
  refine ⟨completed, ⟨rounds, chain, ?_⟩, failed, turned, s₁, chain'⟩
  rcases finish with ⟨values, _, items, _⟩ | ⟨fault, error, _⟩
  · exact items
  · cases error

end Nest

end AdaptiveDispatch.Loop
