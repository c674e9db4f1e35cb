import AdaptiveDispatch.Proofs.Loop.Visiting

/-!
# Loops that are run from a script

The answers of a condition and of a body may stand in scripts from which each call takes the
next one. In the script of a body it makes no difference whether a value is an answer or comes
with the signal for the next iteration, and a request to be run again can be left out together
with the call that it answers.

A script is `Revised` if this was done to it anywhere. A run with the revised script makes the
same calls, but for those whose answers are left out, and has the same outcome. In lockstep with
it the other run stands still for these calls (`Follows`), which is why the bound on the calls
need not change.
-/

namespace AdaptiveDispatch

/-- The answers are the same, or finish an iteration with the same value in the two ways there
are. -/
inductive Completion.Interchanged : Completion → Completion → Prop where
  | same (answer : Completion) : Interchanged answer answer
  | toNext (value : Value) : Interchanged (.ok value) (.error (.signal (.next value)))
  | fromNext (value : Value) : Interchanged (.error (.signal (.next value))) (.ok value)

/-- The answer asks for another run. -/
def Completion.AsksAgain (answer : Completion) : Prop :=
  answer = .error (.signal .redo)

namespace Loop

variable {σ σ' α β ε : Type}

/-- The second list has entries like those of the first, in the same order, without `n` of
those that may be left out. -/
inductive Revised (alike : α → α → Prop) (spare : α → Prop) : List α → List α → Nat → Prop where
  | nil : Revised alike spare [] [] 0
  | keep {a b : α} {as bs : List α} {n : Nat} (same : alike a b)
      (rest : Revised alike spare as bs n) : Revised alike spare (a :: as) (b :: bs) n
  | drop {a : α} {as bs : List α} {n : Nat} (droppable : spare a)
      (rest : Revised alike spare as bs n) : Revised alike spare (a :: as) bs (n + 1)

namespace Revised

variable {alike : α → α → Prop} {spare : α → Prop} {as bs as' bs' : List α} {m n : Nat}

theorem append (front : Revised alike spare as bs m) (back : Revised alike spare as' bs' n) :
    Revised alike spare (as ++ as') (bs ++ bs') (m + n) := by
  induction front with
  | nil =>
      rw [Nat.zero_add]
      exact back
  | keep same rest ih => exact .keep same ih
  | drop droppable rest ih =>
      rw [Nat.add_right_comm]
      exact .drop droppable ih

/-- With nothing left out, entries that are alike stand at the same places. -/
theorem map_eq {f : α → β} (revised : Revised alike spare as bs 0)
    (same : ∀ a b, alike a b → f a = f b) : bs.map f = as.map f := by
  generalize none : 0 = n at revised
  induction revised with
  | nil => rfl
  | keep like rest ih => rw [List.map_cons, List.map_cons, ih none, same _ _ like]
  | drop droppable rest ih => cases none

/-- What is never told apart, and not there in entries that may be left out, stays. -/
theorem filterMap_eq {f : α → Option β} (revised : Revised alike spare as bs n)
    (same : ∀ a b, alike a b → f a = f b) (unmet : ∀ a, spare a → f a = none) :
    bs.filterMap f = as.filterMap f := by
  induction revised with
  | nil => rfl
  | keep like rest ih => rw [List.filterMap_cons, List.filterMap_cons, ih, same _ _ like]
  | drop droppable rest ih => rw [List.filterMap_cons_none (unmet _ droppable), ih]

theorem countP_add {p : α → Bool} (revised : Revised alike spare as bs n)
    (same : ∀ a b, alike a b → p a = p b) (met : ∀ a, spare a → p a = true) :
    bs.countP p + n = as.countP p := by
  induction revised with
  | nil => rfl
  | keep like rest ih =>
      rw [List.countP_cons, List.countP_cons, ← ih, same _ _ like, Nat.add_right_comm]
  | drop droppable rest ih =>
      rw [List.countP_cons_of_pos (met _ droppable), ← ih, Nat.add_assoc]

theorem length_add (revised : Revised alike spare as bs n) : bs.length + n = as.length := by
  simpa only [List.countP_true] using
    revised.countP_add (p := fun _ => true) (fun _ _ _ => rfl) fun _ _ => rfl

end Revised

section Follows

variable {condition : σ → Option (Except Fault Bool × σ)}
  {condition' : σ' → Option (Except Fault Bool × σ')} {body : σ → Option (Completion × σ)}
  {body' : σ' → Option (Completion × σ')} {visit : Value → σ → Option (Completion × σ)}
  {visit' : Value → σ' → Option (Completion × σ')} {R : σ → σ' → Prop} {bound : Nat} {s t : σ}
  {s' : σ'}

/-- Whatever a body does, a second one keeps up with it: it answers with the same effect, or
stands still while the first is asked again. -/
def Follows (R : σ → σ' → Prop) (body : σ → Option (Completion × σ))
    (body' : σ' → Option (Completion × σ')) : Prop :=
  ∀ s s' answer t, R s s' → body s = some (answer, t) →
    (∃ answer' t', body' s' = some (answer', t') ∧ Iteration.of? answer' = Iteration.of? answer ∧
      R t t') ∨ answer.AsksAgain ∧ R t s'

/-- A condition keeps up with another one if it gives the same answers. -/
def Agrees (R : σ → σ' → Prop) (condition : σ → Option (Except Fault Bool × σ))
    (condition' : σ' → Option (Except Fault Bool × σ')) : Prop :=
  ∀ s s' answer t, R s s' → condition s = some (answer, t) →
    ∃ t', condition' s' = some (answer, t') ∧ R t t'

theorem Follows.settle (follows : Follows R body body') {iteration : Iteration}
    (related : R s s') (settled : settle body bound s = some (iteration, t)) :
    ∃ t', Loop.settle body' bound s' = some (iteration, t') ∧ R t t' := by
  induction bound generalizing s s' with
  | zero => cases settled
  | succ bound ih =>
      rw [settle_succ] at settled
      obtain ⟨⟨answer, s₁⟩, called, settled⟩ := Option.bind_eq_some_iff.mp settled
      rcases follows _ _ _ _ related called with ⟨answer', s₁', called', ends, related⟩ | ⟨rfl, still⟩
      · rw [settle_succ, called', Option.bind_some]
        simp only [ends] at settled ⊢
        cases last : Iteration.of? answer with
        | none =>
            simp only [last] at settled ⊢
            exact ih related settled
        | some iteration' =>
            simp only [last] at settled ⊢
            cases settled
            exact ⟨s₁', rfl, related⟩
      · -- The second body makes no call, and needs one less for the rest.
        obtain ⟨t', settled, related⟩ := ih still settled
        exact ⟨t', settle_mono (Nat.le_succ bound) settled, related⟩

theorem Follows.whileDo (follows : Follows R body body') (agrees : Agrees R condition condition')
    {result : Except Fault Value} (related : R s s')
    (returned : whileDo condition body bound s = some (result, t)) :
    ∃ t', Loop.whileDo condition' body' bound s' = some (result, t') ∧ R t t' := by
  induction bound generalizing s s' with
  | zero => cases returned
  | succ bound ih =>
      rw [Loop.whileDo] at returned ⊢
      rcases tested : condition s with _ | ⟨answer, s₁⟩
      · simp only [tested] at returned
        cases returned
      · obtain ⟨s₁', tested', related⟩ := agrees _ _ _ _ related tested
        simp only [tested] at returned
        simp only [tested']
        rcases answer with fault | _ | _
        · cases returned
          exact ⟨s₁', rfl, related⟩
        · cases returned
          exact ⟨s₁', rfl, related⟩
        · rcases settled : Loop.settle body (bound + 1) s₁ with _ | ⟨iteration, s₂⟩
          · simp only [settled] at returned
            cases returned
          · obtain ⟨s₂', settled', related⟩ := follows.settle related settled
            simp only [settled] at returned
            simp only [settled']
            cases iteration with
            | finished value => exact ih related returned
            | left value =>
                cases returned
                exact ⟨s₂', rfl, related⟩
            | failed fault =>
                cases returned
                exact ⟨s₂', rfl, related⟩

theorem each_follows (follows : ∀ item, Follows R (visit item) (visit' item)) {items : List Value}
    {result : Except Fault Outcome} (related : R s s')
    (returned : each visit bound items s = some (result, t)) :
    ∃ t', each visit' bound items s' = some (result, t') ∧ R t t' := by
  induction items generalizing s s' result t with
  | nil =>
      cases returned
      exact ⟨s', rfl, related⟩
  | cons item items ih =>
      rcases each_cons_eq_some_iff.mp returned with
        ⟨value, settled, same⟩ | ⟨fault, settled, same⟩ | ⟨value, s₁, rest, settled, rested, same⟩
      · obtain ⟨t', settled', related⟩ := (follows item).settle related settled
        exact ⟨t', each_cons_eq_some_iff.mpr (.inl ⟨value, settled', same⟩), related⟩
      · obtain ⟨t', settled', related⟩ := (follows item).settle related settled
        exact ⟨t', each_cons_eq_some_iff.mpr (.inr (.inl ⟨fault, settled', same⟩)), related⟩
      · obtain ⟨s₁', settled', related⟩ := (follows item).settle related settled
        obtain ⟨t', rested', related⟩ := ih related rested
        exact ⟨t', each_cons_eq_some_iff.mpr
          (.inr (.inr ⟨value, s₁', rest, settled', rested', same⟩)), related⟩

end Follows

section Scripted

variable {κ : Type} {script script' rest : List Completion} {m n : Nat}

/-- Answer from a script, which loses its first entry. Without an entry there is no answer. -/
def scripted : List α → Option (α × List α)
  | [] => none
  | answer :: script => some (answer, script)

/-- Run something on the second part of a state. -/
def behind (run : κ → Option (α × κ)) (state : σ × κ) : Option (α × σ × κ) :=
  (run state.2).map (Prod.map id (state.1, ·))

theorem of_scripted {entries left : List α} {answer : α}
    (answered : scripted entries = some (answer, left)) : entries = answer :: left := by
  cases entries with
  | nil => cases answered
  | cons entry entries =>
      cases answered
      rfl

theorem of_logged_scripted {event : Completion → ε} {answer : Completion} {log log' : List ε}
    (answered : logged scripted event (script, log) = some (answer, rest, log')) :
    script = answer :: rest ∧ log' = log ++ [event answer] := by
  obtain ⟨answered, logs⟩ := of_logged answered
  exact ⟨of_scripted answered, logs⟩

/-- A script in which answers are interchanged, and `n` requests for another run left out. -/
abbrev RevisedScript : List Completion → List Completion → Nat → Prop :=
  Revised Completion.Interchanged Completion.AsksAgain

theorem of?_eq_of_interchanged {answer answer' : Completion}
    (interchanged : answer.Interchanged answer') :
    Iteration.of? answer' = Iteration.of? answer := by
  cases interchanged with
  | same => rfl
  | toNext value => rfl
  | fromNext value => rfl

/-- What is left of a script and what is logged, in a run and in the one with the revised
script. Of the `n` answers that are left out some have had their turn. -/
def InStep (alike : ε → ε → Prop) (spare : ε → Prop) (n : Nat)
    (state state' : List Completion × List ε) : Prop :=
  ∃ k m, Revised alike spare state.2 state'.2 k ∧ RevisedScript state.1 state'.1 m ∧ k + m = n

theorem inStep_start {alike : ε → ε → Prop} {spare : ε → Prop}
    (revised : RevisedScript script script' n) :
    InStep alike spare n (script, []) (script', []) :=
  ⟨0, n, .nil, revised, Nat.zero_add n⟩

section Turn

variable {alike : ε → ε → Prop} {spare : ε → Prop} {answer : Completion} {log log' : List ε}

/-- The next answer is one for both runs, or for the first one only. -/
theorem InStep.next (event : Completion → ε)
    (alikes : ∀ answer answer', answer.Interchanged answer' → alike (event answer) (event answer'))
    (spares : ∀ answer, answer.AsksAgain → spare (event answer))
    (inStep : InStep alike spare n (answer :: rest, log) (script', log')) :
    (∃ answer' rest', script' = answer' :: rest' ∧ answer.Interchanged answer' ∧
        InStep alike spare n (rest, log ++ [event answer]) (rest', log' ++ [event answer'])) ∨
      answer.AsksAgain ∧ InStep alike spare n (rest, log ++ [event answer]) (script', log') := by
  obtain ⟨k, m, calls, left, total⟩ := inStep
  dsimp only at calls left
  cases left with
  | keep interchanged left =>
      have logs := calls.append (.keep (alikes _ _ interchanged) .nil)
      exact .inl ⟨_, _, rfl, interchanged, k, _, logs, left, total⟩
  | @drop _ _ _ m asks left =>
      have logs := calls.append (.drop (spares _ asks) .nil)
      rw [List.append_nil] at logs
      exact .inr ⟨asks, k + 1, m, logs, left, by omega⟩

theorem InStep.note {e : ε} (same : alike e e)
    (inStep : InStep alike spare n (script, log) (script', log')) :
    InStep alike spare n (script, log ++ [e]) (script', log' ++ [e]) := by
  obtain ⟨k, m, calls, left, total⟩ := inStep
  exact ⟨k, m, calls.append (.keep same .nil), left, total⟩

end Turn

end Scripted

section Items

variable {script script' rest : List Completion} {n : Nat} {log : List (Value × Completion)}

/-- The calls have the same item, and interchanged answers. -/
def CallInterchanged (call call' : Value × Completion) : Prop :=
  call.1 = call'.1 ∧ call.2.Interchanged call'.2

/-- The calls of a body for items, with answers interchanged, and without `n` calls that are
asked for again. -/
abbrev RevisedCalls : List (Value × Completion) → List (Value × Completion) → Nat → Prop :=
  Revised CallInterchanged (·.2.AsksAgain)

theorem follows_visit (n : Nat) (item : Value) :
    Follows (InStep CallInterchanged (·.2.AsksAgain) n) (logged scripted (item, ·))
      (logged scripted (item, ·)) := by
  rintro ⟨script, log⟩ ⟨script', log'⟩ answer ⟨rest, more⟩ inStep answered
  obtain ⟨rfl, rfl⟩ := of_logged_scripted answered
  rcases inStep.next (item, ·) (fun _ _ interchanged => ⟨rfl, interchanged⟩)
      (fun _ asks => asks) with
    ⟨answer', rest', rfl, interchanged, inStep⟩ | still
  · exact .inl ⟨answer', _, rfl, of?_eq_of_interchanged interchanged, inStep⟩
  · exact .inr still

/-- A run over items takes from its script what it logs. -/
theorem script_of_each {bound : Nat} {items : List Value} {result : Except Fault Outcome}
    (recorded : each (fun item => logged scripted (item, ·)) bound items (script, []) =
      some (result, rest, log)) : script = log.map Prod.snd ++ rest := by
  have kept := (Visits.of_each recorded).stays
    (R := fun a b => a.2.map Prod.snd ++ a.1 = b.2.map Prod.snd ++ b.1) (fun _ => rfl)
    (fun _ _ _ => Eq.trans) ?_
  · exact kept
  · rintro item ⟨script, log⟩ answer ⟨rest, more⟩ answered
    obtain ⟨rfl, rfl⟩ := of_logged_scripted answered
    simp

end Items

section Tests

variable {tests tests' : List (Except Fault Bool)} {script script' rest : List Completion}
  {n : Nat} {log log' : List Event}

/-- The events are tests with the same answer, or calls with interchanged answers. -/
inductive EventInterchanged : Event → Event → Prop where
  | tested (answer : Except Fault Bool) : EventInterchanged (.tested answer) (.tested answer)
  | called {answer answer' : Completion} (interchanged : answer.Interchanged answer') :
      EventInterchanged (.called answer) (.called answer')

namespace Event

def test? : Event → Option (Except Fault Bool)
  | .tested answer => some answer
  | .called _ => none

def call? : Event → Option Completion
  | .tested _ => none
  | .called answer => some answer

def isCall : Event → Bool
  | .tested _ => false
  | .called _ => true

/-- A call of the body whose answer asks for another one. -/
def AsksAgain (event : Event) : Prop :=
  ∃ answer, event = .called answer ∧ answer.AsksAgain

end Event

theorem EventInterchanged.test?_eq {event event' : Event}
    (interchanged : EventInterchanged event event') : event.test? = event'.test? := by
  cases interchanged with
  | tested answer => rfl
  | called interchanged => rfl

theorem EventInterchanged.isCall_eq {event event' : Event}
    (interchanged : EventInterchanged event event') : event.isCall = event'.isCall := by
  cases interchanged with
  | tested answer => rfl
  | called interchanged => rfl

theorem Event.AsksAgain.test?_eq {event : Event} (asks : event.AsksAgain) : event.test? = none := by
  obtain ⟨answer, rfl, -⟩ := asks
  rfl

theorem Event.AsksAgain.isCall {event : Event} (asks : event.AsksAgain) : event.isCall = true := by
  obtain ⟨answer, rfl, -⟩ := asks
  rfl

/-- The events of a loop with a condition, with answers of the body interchanged, and without
`n` calls of it that are asked for again. -/
abbrev RevisedEvents : List Event → List Event → Nat → Prop :=
  Revised EventInterchanged Event.AsksAgain

abbrev Scripts := List (Except Fault Bool) × List Completion

/-- Both runs have made the same tests, and their bodies are in step. -/
def InStepWith (n : Nat) (state state' : Scripts × List Event) : Prop :=
  state.1.1 = state'.1.1 ∧
    InStep EventInterchanged Event.AsksAgain n (state.1.2, state.2) (state'.1.2, state'.2)

theorem inStepWith_start (tests : List (Except Fault Bool))
    (revised : RevisedScript script script' n) :
    InStepWith n ((tests, script), []) ((tests, script'), []) :=
  ⟨rfl, inStep_start revised⟩

theorem of_logged_test {answer : Except Fault Bool}
    (answered : logged (beside scripted) Event.tested ((tests, script), log) =
      some (answer, (tests', script'), log')) :
    tests = answer :: tests' ∧ script' = script ∧ log' = log ++ [.tested answer] := by
  obtain ⟨answered, logs⟩ := of_logged answered
  obtain ⟨⟨_, left⟩, taken, same⟩ := Option.map_eq_some_iff.mp answered
  cases same
  exact ⟨of_scripted taken, rfl, logs⟩

theorem of_logged_call {answer : Completion}
    (answered : logged (behind scripted) Event.called ((tests, script), log) =
      some (answer, (tests', script'), log')) :
    tests' = tests ∧ script = answer :: script' ∧ log' = log ++ [.called answer] := by
  obtain ⟨answered, logs⟩ := of_logged answered
  obtain ⟨⟨_, left⟩, taken, same⟩ := Option.map_eq_some_iff.mp answered
  cases same
  exact ⟨rfl, of_scripted taken, logs⟩

theorem agrees_test (n : Nat) :
    Agrees (InStepWith n) (logged (beside scripted) Event.tested)
      (logged (beside scripted) Event.tested) := by
  rintro ⟨⟨tests, script⟩, log⟩ ⟨⟨tests', script'⟩, log'⟩ answer ⟨⟨left, rest⟩, more⟩
    ⟨same, inStep⟩ answered
  obtain ⟨rfl, rfl, rfl⟩ := of_logged_test answered
  obtain rfl : _ = tests' := same
  exact ⟨((left, script'), log' ++ [.tested answer]), rfl, rfl, inStep.note (.tested answer)⟩

theorem follows_call (n : Nat) :
    Follows (InStepWith n) (logged (behind scripted) Event.called)
      (logged (behind scripted) Event.called) := by
  rintro ⟨⟨tests, script⟩, log⟩ ⟨⟨tests', script'⟩, log'⟩ answer ⟨⟨left, rest⟩, more⟩
    ⟨same, inStep⟩ answered
  obtain ⟨rfl, rfl, rfl⟩ := of_logged_call answered
  obtain rfl : _ = tests' := same
  rcases inStep.next Event.called (fun _ _ interchanged => .called interchanged)
      (fun _ asks => ⟨_, rfl, asks⟩) with
    ⟨answer', rest', rfl, interchanged, inStep⟩ | ⟨asks, inStep⟩
  · exact .inl ⟨answer', ((left, rest'), log' ++ [.called answer']), rfl,
      of?_eq_of_interchanged interchanged, rfl, inStep⟩
  · exact .inr ⟨asks, rfl, inStep⟩

/-- A run of a loop with a condition takes from its scripts what it logs. -/
theorem scripts_of_whileDo {bound : Nat} {result : Except Fault Value}
    (recorded : whileDo (logged (beside scripted) Event.tested)
      (logged (behind scripted) Event.called) bound ((tests, script), []) =
        some (result, (tests', rest), log)) :
    tests = log.filterMap Event.test? ++ tests' ∧ script = log.filterMap Event.call? ++ rest := by
  have kept := (Whiles.of_whileDo recorded).stays
    (R := fun a b =>
      a.2.filterMap Event.test? ++ a.1.1 = b.2.filterMap Event.test? ++ b.1.1 ∧
        a.2.filterMap Event.call? ++ a.1.2 = b.2.filterMap Event.call? ++ b.1.2)
    (fun _ _ _ first second => ⟨first.1.trans second.1, first.2.trans second.2⟩) ?_ ?_
  · exact kept
  · rintro ⟨⟨tests, script⟩, log⟩ answer ⟨⟨left, rest⟩, more⟩ answered
    obtain ⟨rfl, rfl, rfl⟩ := of_logged_test answered
    simp [Event.test?, Event.call?]
  · rintro ⟨⟨tests, script⟩, log⟩ answer ⟨⟨left, rest⟩, more⟩ answered
    obtain ⟨rfl, rfl, rfl⟩ := of_logged_call answered
    simp [Event.test?, Event.call?]

end Tests

/-- Loops do not notice a revision of the script that their bodies answer from. If a loop returns
before its scripts are used up, then it does so with a script in which answers of a value and
signals for the next iteration with it are interchanged, and `n` requests for another run are
left out. Its outcome is the same and so are its calls, in their order, except for the `k` calls
that were answered with a request that is left out. The tests of a condition stay as they are.
Requests that the run did not come to are the others that are left out. -/
theorem revised_scripts_agree {script script' : List Completion} {n : Nat}
    (revised : RevisedScript script script' n) (bound : Nat) :
    (∀ (items : List Value) (result : Except Fault Outcome) (rest : List Completion),
      each (fun _ => scripted) bound items script = some (result, rest) →
        ∃ rest' log log' k m,
          each (fun _ => scripted) bound items script' = some (result, rest') ∧
          each (fun item => logged scripted (item, ·)) bound items (script, []) =
            some (result, rest, log) ∧
          each (fun item => logged scripted (item, ·)) bound items (script', []) =
            some (result, rest', log') ∧
          script = log.map Prod.snd ++ rest ∧
          RevisedCalls log log' k ∧ RevisedScript rest rest' m ∧ k + m = n ∧
          log'.length + k = log.length ∧ (n = 0 → log'.map Prod.fst = log.map Prod.fst)) ∧
      ∀ (tests tests' : List (Except Fault Bool)) (result : Except Fault Value)
        (rest : List Completion),
        whileDo (beside scripted) (behind scripted) bound (tests, script) =
            some (result, tests', rest) →
          ∃ rest' log log' k m,
            whileDo (beside scripted) (behind scripted) bound (tests, script') =
              some (result, tests', rest') ∧
            whileDo (logged (beside scripted) Event.tested) (logged (behind scripted) Event.called)
              bound ((tests, script), []) = some (result, (tests', rest), log) ∧
            whileDo (logged (beside scripted) Event.tested) (logged (behind scripted) Event.called)
              bound ((tests, script'), []) = some (result, (tests', rest'), log') ∧
            script = log.filterMap Event.call? ++ rest ∧
            RevisedEvents log log' k ∧ RevisedScript rest rest' m ∧ k + m = n ∧
            log'.filterMap Event.test? = log.filterMap Event.test? ∧
            log'.countP Event.isCall + k = log.countP Event.isCall ∧
            (n = 0 → log'.map Event.isCall = log.map Event.isCall) := by
  constructor
  · intro items result rest returned
    obtain ⟨log, recorded⟩ := each_logged returned
    obtain ⟨⟨rest', log'⟩, recorded', k, m, calls, left, total⟩ :=
      each_follows (follows_visit n) (inStep_start revised) recorded
    refine ⟨rest', log, log', k, m, ?_, recorded, recorded', script_of_each recorded, calls, left,
      total, calls.length_add, ?_⟩
    · rw [each_eq_map_logged, recorded']
      rfl
    · rintro rfl
      obtain ⟨rfl, rfl⟩ := Nat.add_eq_zero_iff.mp total
      exact calls.map_eq fun _ _ same => same.1
  · intro tests tests' result rest returned
    obtain ⟨log, recorded⟩ := whileDo_logged returned
    obtain ⟨⟨⟨left', rest'⟩, log'⟩, recorded', same, k, m, calls, left, total⟩ :=
      (follows_call n).whileDo (agrees_test n) (inStepWith_start tests revised) recorded
    obtain rfl : tests' = left' := same
    refine ⟨rest', log, log', k, m, ?_, recorded, recorded', (scripts_of_whileDo recorded).2,
      calls, left, total, ?_, ?_, ?_⟩
    · rw [whileDo_eq_map_logged, recorded']
      rfl
    · exact calls.filterMap_eq (fun _ _ same => same.test?_eq) fun _ asks => asks.test?_eq
    · exact calls.countP_add (fun _ _ same => same.isCall_eq) fun _ asks => asks.isCall
    · rintro rfl
      obtain ⟨rfl, rfl⟩ := Nat.add_eq_zero_iff.mp total
      exact calls.map_eq fun _ _ same => same.isCall_eq

/-- The body asks to be run again at first, before it leaves the loop, and once more where the
run does not come to. Without that, and with 7 in the other way, both loops still end with
`true`. -/
theorem revised_scripts_agree_leaving :
    let again : Completion := .error (.signal .redo)
    let leave : Completion := .error (.signal (.leave (.bool true)))
    let script : List Completion := [again, .ok (.int 7), again, leave, again]
    let script' : List Completion := [.error (.signal (.next (.int 7))), leave]
    let tests : List (Except Fault Bool) := [.ok true, .ok true, .ok false]
    RevisedScript script script' 3 ∧
      each (fun _ => scripted) 3 [.nil, .nil, .nil] script =
        some (.ok (.broken (.bool true)), [again]) ∧
      (∃ rest', each (fun _ => scripted) 3 [.nil, .nil, .nil] script' =
        some (.ok (.broken (.bool true)), rest')) ∧
      whileDo (beside scripted) (behind scripted) 3 (tests, script) =
        some (.ok (.bool true), [.ok false], [again]) ∧
      ∃ rest', whileDo (beside scripted) (behind scripted) 3 (tests, script') =
        some (.ok (.bool true), [.ok false], rest') := by
  intro again leave script script' tests
  have revised : RevisedScript script script' 3 :=
    .drop rfl (.keep (.toNext (.int 7)) (.drop rfl (.keep (.same leave) (.drop rfl .nil))))
  have visited : each (fun _ => scripted) 3 [.nil, .nil, .nil] script =
      some (.ok (.broken (.bool true)), [again]) := rfl
  have left : whileDo (beside scripted) (behind scripted) 3 (tests, script) =
      some (.ok (.bool true), [.ok false], [again]) := rfl
  obtain ⟨overItems, overTests⟩ := revised_scripts_agree revised 3
  obtain ⟨rest', _, _, _, _, visited', _⟩ := overItems _ _ _ visited
  obtain ⟨rest'', _, _, _, _, left', _⟩ := overTests _ _ _ _ left
  exact ⟨revised, visited, ⟨rest', visited'⟩, left, rest'', left'⟩

end Loop

end AdaptiveDispatch
