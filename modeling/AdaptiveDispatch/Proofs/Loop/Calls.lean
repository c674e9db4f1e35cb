import AdaptiveDispatch.Proofs.Loop.Nesting

/-!
# The calls of a loop

The calls that a run of a loop makes, one after the other, with the answers it gets. A body
is called again for as long as it asks for that, so an iteration is a `Pass`: calls that ask to
be run again, and one that does not.

A loop with a condition makes a pass for each test that holds. What it does next depends on
the last answer alone, and a run is over with the first answer that calls for nothing more
(`Obeys`). Which value an iteration finishes with is none of the loop's business.

That a run makes certain calls is said twice. The calls lead from the state at the beginning to
the one at the end (`Chain`), and the same run with a log beside the state (`logged`) has them
in its log and nothing else.
-/

namespace AdaptiveDispatch

/-- The answers of a body that finish its iteration, with the value they finish it with. -/
inductive Completion.Finishes : Completion → Value → Prop where
  | ok (value : Value) : Finishes (.ok value) value
  | next (value : Value) : Finishes (.error (.signal (.next value))) value

/-- The answer without the value that it finishes an iteration with. -/
def Completion.muted : Completion → Completion
  | .ok _ | .error (.signal (.next _)) => .ok .nil
  | .error (.signal (.leave value)) => .error (.signal (.leave value))
  | .error (.signal .redo) => .error (.signal .redo)
  | .error (.fault fault) => .error (.fault fault)

namespace Loop

variable {σ α ε ρ ρ' : Type}

namespace Iteration

variable {answer : Completion} {value : Value} {fault : Fault}

theorem of?_eq_none_iff : Iteration.of? answer = none ↔ answer = .error (.signal .redo) := by
  rcases answer with ((_ | _ | _) | _) | _ <;> simp [Iteration.of?]

theorem of?_eq_finished_iff :
    Iteration.of? answer = some (.finished value) ↔ answer.Finishes value := by
  constructor
  · intro ends
    rcases answer with ((_ | _ | _) | _) | _ <;> cases ends
    · exact .next value
    · exact .ok value
  · rintro (_ | _)
    · rfl
    · rfl

theorem of?_eq_left_iff :
    Iteration.of? answer = some (.left value) ↔ answer = .error (.signal (.leave value)) := by
  rcases answer with ((_ | _ | _) | _) | _ <;> simp [Iteration.of?]

theorem of?_eq_failed_iff :
    Iteration.of? answer = some (.failed fault) ↔ answer = .error (.fault fault) := by
  rcases answer with ((_ | _ | _) | _) | _ <;> simp [Iteration.of?]

end Iteration

namespace Chain

variable {step : σ → ρ → σ → Prop} {s s' : σ} {rs rs' : List ρ}

theorem append_iff :
    Chain step s (rs ++ rs') s' ↔ ∃ s₁, Chain step s rs s₁ ∧ Chain step s₁ rs' s' := by
  constructor
  · intro chain
    induction rs generalizing s with
    | nil => exact ⟨s, .nil, chain⟩
    | cons r rs ih =>
        obtain _ | ⟨first, rest⟩ := chain
        obtain ⟨s₁, front, back⟩ := ih rest
        exact ⟨s₁, .cons first front, back⟩
  · rintro ⟨s₁, front, back⟩
    induction front with
    | nil => exact back
    | cons first rest ih => exact .cons first (ih back)

theorem map_iff {step : σ → ρ' → σ → Prop} (label : ρ → ρ') :
    Chain step s (rs.map label) s' ↔ Chain (fun s r => step s (label r)) s rs s' := by
  constructor
  · intro chain
    induction rs generalizing s with
    | nil =>
        obtain _ | _ := chain
        exact .nil
    | cons r rs ih =>
        obtain _ | ⟨first, rest⟩ := chain
        exact .cons first (ih rest)
  · intro chain
    induction chain with
    | nil => exact .nil
    | cons first rest ih => exact .cons first ih

end Chain

section Logged

variable {run : σ → Option (α × σ)} {event : α → ε} {state state' : σ × List ε} {answer : α}

/-- The same function, with its answers in a log beside the state. -/
def logged (run : σ → Option (α × σ)) (event : α → ε) :
    σ × List ε → Option (α × σ × List ε) :=
  fun (s, log) => (run s).map fun (answer, s) => (answer, s, log ++ [event answer])

theorem map_logged (run : σ → Option (α × σ)) (event : α → ε) (state : σ × List ε) :
    (logged run event state).map (Prod.map id Prod.fst) = run state.1 := by
  rw [logged, Option.map_map]
  exact Option.map_id'

theorem of_logged (called : logged run event state = some (answer, state')) :
    run state.1 = some (answer, state'.1) ∧ state'.2 = state.2 ++ [event answer] := by
  obtain ⟨⟨answer', s'⟩, ran, same⟩ := Option.map_eq_some_iff.mp called
  cases same
  exact ⟨ran, rfl⟩

/-- A run with a log returns if it does so without. -/
theorem exists_log {κ : Type} {ran : Option (α × σ)} {ran' : Option (α × σ × κ)} {s' : σ}
    (same : ran = ran'.map (Prod.map id Prod.fst)) (returned : ran = some (answer, s')) :
    ∃ log, ran' = some (answer, s', log) := by
  rw [returned] at same
  obtain ⟨⟨answer', s'', log⟩, recorded, projected⟩ := Option.map_eq_some_iff.mp same.symm
  cases projected
  exact ⟨log, recorded⟩

/-- Steps that log themselves leave the log of the chain. -/
theorem Chain.of_logged {step : σ → ρ → σ → Prop} {step' : σ × List ρ → ρ → σ × List ρ → Prop}
    {s : σ} {state' : σ × List ρ} {rs : List ρ} (chain : Chain step' (s, []) rs state')
    (records : ∀ a r b, step' a r b → step a.1 r b.1 ∧ b.2 = a.2 ++ [r]) :
    Chain step s rs state'.1 ∧ state'.2 = rs := by
  obtain ⟨chain, log⟩ := chain.of_recorded records
  rw [List.nil_append, List.flatMap_singleton'] at log
  exact ⟨chain, log⟩

end Logged

/-- The answers of a body in one iteration: those that ask for another call, and the last
one. -/
structure Pass where
  redos : Nat
  last : Completion
  settled : last ≠ .error (.signal .redo)

def Pass.answers (pass : Pass) : List Completion :=
  List.replicate pass.redos (.error (.signal .redo)) ++ [pass.last]

/-- A body gives an answer. -/
def Answers (body : σ → Option (Completion × σ)) (s : σ) (answer : Completion) (s' : σ) : Prop :=
  body s = some (answer, s')

variable {condition : σ → Option (Except Fault Bool × σ)}
  {body body' : σ → Option (Completion × σ)} {s s' : σ}

theorem settles_iff_pass {iteration : Iteration} :
    Settles body s iteration s' ↔
      ∃ pass : Pass, Iteration.of? pass.last = some iteration ∧
        Chain (Answers body) s pass.answers s' := by
  constructor
  · intro settles
    induction settles with
    | @last s s' answer iteration called ends =>
        have settled : answer ≠ .error (.signal .redo) := by
          rintro rfl
          cases ends
        exact ⟨⟨0, answer, settled⟩, ends, .cons called .nil⟩
    | again called ends rest ih =>
        -- The call comes in front of a pass, as one more that asks for another.
        obtain ⟨pass, last, chain⟩ := ih
        rw [Iteration.of?_eq_none_iff] at ends
        subst ends
        exact ⟨{ pass with redos := pass.redos + 1 }, last, .cons called chain⟩
  · rintro ⟨⟨redos, last, settled⟩, ends, chain⟩
    change Iteration.of? last = some iteration at ends
    induction redos generalizing s with
    | zero =>
        obtain _ | ⟨called, _ | _⟩ := chain
        exact .last called ends
    | succ redos ih =>
        obtain _ | ⟨called, rest⟩ := chain
        exact .again called rfl (ih rest)

/-- A call of the condition or of the body of a loop, with its answer. -/
inductive Event where
  | tested (answer : Except Fault Bool)
  | called (answer : Completion)

/-- The call takes the state from `s` to `s'`. -/
def Event.Takes (condition : σ → Option (Except Fault Bool × σ))
    (body : σ → Option (Completion × σ)) (s : σ) (event : Event) (s' : σ) : Prop :=
  match event with
  | .tested answer => condition s = some (answer, s')
  | .called answer => body s = some (answer, s')

/-- A test that holds, and the pass that it lets in. -/
def Pass.events (pass : Pass) : List Event :=
  .tested (.ok true) :: pass.answers.map .called

/-- The last calls of a loop with a condition, and what it ends with. -/
inductive WhileEnd : List Event → Except Fault Value → Prop where
  | ended : WhileEnd [.tested (.ok false)] (.ok .nil)
  | refused (fault : Fault) : WhileEnd [.tested (.error fault)] (.error fault)
  | left {pass : Pass} {value : Value} (leaves : pass.last = .error (.signal (.leave value))) :
      WhileEnd pass.events (.ok value)
  | failed {pass : Pass} {fault : Fault} (fails : pass.last = .error (.fault fault)) :
      WhileEnd pass.events (.error fault)

/-- The calls of a loop with a condition: passes that finish, up to the calls that end it. -/
def WhileCalls (log : List Event) (result : Except Fault Value) : Prop :=
  ∃ (passes : List Pass) (ending : List Event),
    (∀ pass ∈ passes, ∃ value, pass.last.Finishes value) ∧ WhileEnd ending result ∧
      log = passes.flatMap Pass.events ++ ending

/-- What a loop with a condition does next. -/
inductive Next where
  | test
  | call
  | stop (result : Except Fault Value)

/-- What a loop with a condition does after a call. -/
def Event.next : Event → Next
  | .tested (.ok true) => .call
  | .tested (.ok false) => .stop (.ok .nil)
  | .tested (.error fault) => .stop (.error fault)
  | .called (.ok _) | .called (.error (.signal (.next _))) => .test
  | .called (.error (.signal .redo)) => .call
  | .called (.error (.signal (.leave value))) => .stop (.ok value)
  | .called (.error (.fault fault)) => .stop (.error fault)

/-- Each call is what its predecessor makes the loop do next, and the calls stop, with a
result, exactly when the last of them says so. -/
inductive Obeys : Next → List Event → Except Fault Value → Prop where
  | stop (result : Except Fault Value) : Obeys (.stop result) [] result
  | test {answer : Except Fault Bool} {log : List Event} {result : Except Fault Value}
      (rest : Obeys (Event.tested answer).next log result) :
      Obeys .test (.tested answer :: log) result
  | call {answer : Completion} {log : List Event} {result : Except Fault Value}
      (rest : Obeys (Event.called answer).next log result) :
      Obeys .call (.called answer :: log) result

theorem Event.next_of_finishes {answer : Completion} {value : Value}
    (finishes : answer.Finishes value) : (Event.called answer).next = .test := by
  cases finishes with
  | ok => rfl
  | next => rfl

section While

variable {result : Except Fault Value} {log : List Event} {pass : Pass}

/-- After a pass the loop does what the last answer of it says. -/
theorem Pass.obeys_append (rest : Obeys (Event.called pass.last).next log result) :
    Obeys .test (pass.events ++ log) result := by
  obtain ⟨redos, last, settled⟩ := pass
  change Obeys (Event.called last).next log result at rest
  apply Obeys.test
  -- Each answer that asks for another call is followed by one, with no test in between.
  induction redos with
  | zero => exact .call rest
  | succ redos ih => exact .call ih

theorem Pass.obeys_of_stop (stops : (Event.called pass.last).next = .stop result) :
    Obeys .test pass.events result := by
  rw [← List.append_nil pass.events]
  apply Pass.obeys_append
  rw [stops]
  exact .stop result

theorem WhileEnd.obeys (ending : WhileEnd log result) : Obeys .test log result := by
  cases ending with
  | ended => exact .test (.stop _)
  | refused fault => exact .test (.stop _)
  | left leaves =>
      apply Pass.obeys_of_stop
      rw [leaves]
      rfl
  | failed fails =>
      apply Pass.obeys_of_stop
      rw [fails]
      rfl

theorem WhileCalls.obeys (calls : WhileCalls log result) : Obeys .test log result := by
  obtain ⟨passes, ending, finish, ends, rfl⟩ := calls
  induction passes with
  | nil => exact ends.obeys
  | cons pass passes ih =>
      obtain ⟨⟨value, finishes⟩, finish⟩ := List.forall_mem_cons.mp finish
      rw [List.flatMap_cons, List.append_assoc]
      apply Pass.obeys_append
      rw [Event.next_of_finishes finishes]
      exact ih finish

theorem WhileEnd.calls (ending : WhileEnd log result) : WhileCalls log result :=
  ⟨[], log, fun _ none => absurd none List.not_mem_nil, ending, rfl⟩

theorem WhileCalls.cons {value : Value} (finishes : pass.last.Finishes value)
    (rest : WhileCalls log result) : WhileCalls (pass.events ++ log) result := by
  obtain ⟨passes, ending, finish, ends, rfl⟩ := rest
  refine ⟨pass :: passes, ending, List.forall_mem_cons.mpr ⟨⟨value, finishes⟩, finish⟩, ends, ?_⟩
  rw [List.flatMap_cons, List.append_assoc]

theorem takes_events_iff :
    Chain (Event.Takes condition body) s pass.events s' ↔
      ∃ s₁, condition s = some (.ok true, s₁) ∧ Chain (Answers body) s₁ pass.answers s' := by
  constructor
  · rintro (_ | ⟨tested, rest⟩)
    exact ⟨_, tested, (Chain.map_iff Event.called).mp rest⟩
  · rintro ⟨s₁, tested, rest⟩
    exact .cons tested ((Chain.map_iff Event.called).mpr rest)

theorem Whiles.calls (whiles : Whiles condition body s result s') :
    ∃ log, WhileCalls log result ∧ Chain (Event.Takes condition body) s log s' := by
  induction whiles with
  | ended tested => exact ⟨_, WhileEnd.ended.calls, .cons tested .nil⟩
  | refused tested => exact ⟨_, (WhileEnd.refused _).calls, .cons tested .nil⟩
  | left tested settles =>
      obtain ⟨pass, last, chain⟩ := settles_iff_pass.mp settles
      rw [Iteration.of?_eq_left_iff] at last
      exact ⟨_, (WhileEnd.left last).calls, takes_events_iff.mpr ⟨_, tested, chain⟩⟩
  | failed tested settles =>
      obtain ⟨pass, last, chain⟩ := settles_iff_pass.mp settles
      rw [Iteration.of?_eq_failed_iff] at last
      exact ⟨_, (WhileEnd.failed last).calls, takes_events_iff.mpr ⟨_, tested, chain⟩⟩
  | again tested settles rest ih =>
      obtain ⟨pass, last, chain⟩ := settles_iff_pass.mp settles
      rw [Iteration.of?_eq_finished_iff] at last
      obtain ⟨log, calls, behind⟩ := ih
      exact ⟨_, calls.cons last,
        Chain.append_iff.mpr ⟨_, takes_events_iff.mpr ⟨_, tested, chain⟩, behind⟩⟩

theorem WhileEnd.whiles (ending : WhileEnd log result)
    (chain : Chain (Event.Takes condition body) s log s') : Whiles condition body s result s' := by
  cases ending with
  | ended =>
      obtain _ | ⟨tested, _ | _⟩ := chain
      exact .ended tested
  | refused fault =>
      obtain _ | ⟨tested, _ | _⟩ := chain
      exact .refused tested
  | left leaves =>
      obtain ⟨s₁, tested, answers⟩ := takes_events_iff.mp chain
      have settles := settles_iff_pass.mpr ⟨_, Iteration.of?_eq_left_iff.mpr leaves, answers⟩
      exact .left tested settles
  | failed fails =>
      obtain ⟨s₁, tested, answers⟩ := takes_events_iff.mp chain
      have settles := settles_iff_pass.mpr ⟨_, Iteration.of?_eq_failed_iff.mpr fails, answers⟩
      exact .failed tested settles

theorem WhileCalls.whiles (calls : WhileCalls log result)
    (chain : Chain (Event.Takes condition body) s log s') : Whiles condition body s result s' := by
  obtain ⟨passes, ending, finish, ends, rfl⟩ := calls
  induction passes generalizing s with
  | nil => exact ends.whiles chain
  | cons pass passes ih =>
      obtain ⟨⟨value, finishes⟩, finish⟩ := List.forall_mem_cons.mp finish
      rw [List.flatMap_cons, List.append_assoc] at chain
      obtain ⟨s₂, front, back⟩ := Chain.append_iff.mp chain
      obtain ⟨s₁, tested, answers⟩ := takes_events_iff.mp front
      have settles := settles_iff_pass.mpr
        ⟨pass, Iteration.of?_eq_finished_iff.mpr finishes, answers⟩
      exact .again tested settles (ih finish back)

theorem Event.takes_of_logged {state state' : σ × List Event} {event : Event}
    (takes : Event.Takes (logged condition .tested) (logged body .called) state event state') :
    Event.Takes condition body state.1 event state'.1 ∧ state'.2 = state.2 ++ [event] := by
  cases event with
  | tested answer => exact of_logged takes
  | called answer => exact of_logged takes

theorem whileDo_eq_map_logged (condition : σ → Option (Except Fault Bool × σ))
    (body : σ → Option (Completion × σ)) (bound : Nat) (s : σ) :
    whileDo condition body bound s =
      (whileDo (logged condition Event.tested) (logged body Event.called) bound (s, [])).map
        (Prod.map id Prod.fst) :=
  whileDo_map (fun state => (map_logged condition Event.tested state).symm)
    (fun state => (map_logged body Event.called state).symm) bound (s, [])

theorem whileDo_logged {bound : Nat}
    (returned : whileDo condition body bound s = some (result, s')) :
    ∃ log, whileDo (logged condition Event.tested) (logged body Event.called) bound (s, []) =
      some (result, s', log) :=
  exists_log (whileDo_eq_map_logged condition body bound s) returned

end While

section Muted

/-- The same body, with the same value for each iteration that it finishes. -/
def muted (body : σ → Option (Completion × σ)) (s : σ) : Option (Completion × σ) :=
  (body s).map (Prod.map Completion.muted id)

/-- The end of the iteration without the value it finishes with. -/
def Iteration.muted : Iteration → Iteration
  | .finished _ => .finished .nil
  | .left value => .left value
  | .failed fault => .failed fault

theorem Iteration.of?_muted (answer : Completion) :
    Iteration.of? answer.muted = (Iteration.of? answer).map Iteration.muted := by
  rcases answer with ((_ | _ | _) | _) | _ <;> rfl

theorem settle_muted (body : σ → Option (Completion × σ)) (bound : Nat) (s : σ) :
    settle (muted body) bound s = (settle body bound s).map (Prod.map Iteration.muted id) := by
  induction bound generalizing s with
  | zero => rfl
  | succ bound ih =>
      rw [settle_succ, settle_succ, muted]
      match body s with
      | none => rfl
      | some (answer, s) =>
          simp only [Option.map_some, Prod.map_apply, id, Option.bind_some, Iteration.of?_muted]
          cases Iteration.of? answer with
          | none => exact ih s
          | some iteration => rfl

theorem whileDo_muted (condition : σ → Option (Except Fault Bool × σ))
    (body : σ → Option (Completion × σ)) (bound : Nat) (s : σ) :
    whileDo condition (muted body) bound s = whileDo condition body bound s := by
  induction bound generalizing s with
  | zero => rfl
  | succ bound ih =>
      rw [whileDo, whileDo]
      rcases condition s with _ | ⟨fault | _ | _, s⟩
      · rfl
      · rfl
      · rfl
      · simp only [settle_muted]
        rcases settle body (bound + 1) s with _ | ⟨value | value | fault, s⟩
        · rfl
        · exact ih s
        · rfl
        · rfl

end Muted

/-- How a loop with a condition calls its condition and its body. A run that returns is a
sequence of passes, each of them behind a test that holds, and all but perhaps the last one
finish. The next test comes right after an answer that finishes a pass and only then. The run
is over with the first test that does not hold or fails, or the first answer that leaves the
loop or fails, and ends with what that says; there are no other calls. Conversely the loop
returns whenever the calls go like that. The values that passes finish with make no
difference. -/
theorem whileDo_call_discipline (condition : σ → Option (Except Fault Bool × σ))
    (body : σ → Option (Completion × σ)) (s s' : σ) (result : Except Fault Value) :
    (∀ bound, whileDo condition body bound s = some (result, s') →
      ∃ log, WhileCalls log result ∧ Obeys .test log result ∧
        Chain (Event.Takes condition body) s log s' ∧
        whileDo (logged condition Event.tested) (logged body Event.called) bound (s, []) =
          some (result, s', log)) ∧
      (∀ log, WhileCalls log result → Chain (Event.Takes condition body) s log s' →
        ∃ bound, whileDo condition body bound s = some (result, s')) ∧
      ∀ body', muted body' = muted body →
        ∀ bound, whileDo condition body' bound s = whileDo condition body bound s := by
  refine ⟨fun bound returned => ?_, fun log calls chain => ?_, fun body' same bound => ?_⟩
  · obtain ⟨log, recorded⟩ := whileDo_logged returned
    obtain ⟨events, calls, chain⟩ := (Whiles.of_whileDo recorded).calls
    obtain ⟨chain, rfl⟩ := chain.of_logged fun _ _ _ takes => Event.takes_of_logged takes
    exact ⟨_, calls, calls.obeys, chain, recorded⟩
  · exact exists_whileDo_iff.mpr (calls.whiles chain)
  · rw [← whileDo_muted condition body', same, whileDo_muted]

/-- A body that is run again, goes on with 7, with nothing, and leaves the loop after another
run, and one that goes on with other values. -/
theorem whileDo_call_discipline_four :
    let tests (calls : Nat) : Option (Except Fault Bool × Nat) := some (.ok true, calls + 1)
    let answers (seven : Value) (calls : Nat) : Option (Completion × Nat) :=
      match calls with
      | 1 | 6 => some (.error (.signal .redo), calls + 1)
      | 2 => some (.error (.signal (.next seven)), calls + 1)
      | 4 => some (.ok .nil, calls + 1)
      | _ => some (.error (.signal (.leave (.bool true))), calls + 1)
    let log : List Event :=
      [.tested (.ok true), .called (.error (.signal .redo)),
        .called (.error (.signal (.next (.int 7)))),
        .tested (.ok true), .called (.ok .nil),
        .tested (.ok true), .called (.error (.signal .redo)),
        .called (.error (.signal (.leave (.bool true))))]
    whileDo tests (answers (.int 7)) 4 0 = some (.ok (.bool true), 8) ∧
      WhileCalls log (.ok (.bool true)) ∧ Chain (Event.Takes tests (answers (.int 7))) 0 log 8 ∧
      (∃ bound, whileDo tests (answers (.int 7)) bound 0 = some (.ok (.bool true), 8)) ∧
      whileDo tests (answers (.bool false)) 4 0 = some (.ok (.bool true), 8) := by
  intro tests answers log
  have returned : whileDo tests (answers (.int 7)) 4 0 = some (.ok (.bool true), 8) := rfl
  have quiet : muted (answers (.bool false)) = muted (answers (.int 7)) := by
    funext calls
    dsimp only [muted, answers]
    split <;> rfl
  obtain ⟨discipline, returns, silent⟩ :=
    whileDo_call_discipline tests (answers (.int 7)) 0 8 (.ok (.bool true))
  obtain ⟨log', calls, _, chain, recorded⟩ := discipline 4 returned
  have same : log' = log := by
    have run : whileDo (logged tests Event.tested) (logged (answers (.int 7)) Event.called) 4
        (0, []) = some (.ok (.bool true), 8, log) := rfl
    rw [run] at recorded
    cases recorded
    rfl
  subst same
  exact ⟨returned, calls, chain, returns log calls chain, (silent _ quiet 4).trans returned⟩

end Loop

end AdaptiveDispatch
