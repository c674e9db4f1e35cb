import AdaptiveDispatch.Proofs.Loop.Calls
import Mathlib.Data.List.Forall2

/-!
# The visits of a loop over items

A loop over items makes a pass for one item after the other, which is a `Visit` of the item. It
goes on to the next item with the value that the visit came to, and is over with the first
answer that stops it, or behind the last item. Only then the values that came together are its
outcome.
-/

namespace AdaptiveDispatch

/-- Whether the answer ends the loop that gets it. -/
def Completion.stops : Completion → Bool
  | .ok _ | .error (.signal (.next _)) | .error (.signal .redo) => false
  | .error (.signal (.leave _)) | .error (.fault _) => true

theorem Completion.Finishes.not_stops {answer : Completion} {value : Value}
    (finishes : answer.Finishes value) : answer.stops = false := by
  cases finishes with
  | ok => rfl
  | next => rfl

namespace Loop

variable {σ : Type} {body : Value → σ → Option (Completion × σ)} {s s' : σ}

/-- The calls of a body for one item. -/
structure Visit where
  item : Value
  pass : Pass

namespace Visit

/-- The visit finishes with the value. -/
def Gives (visit : Visit) (value : Value) : Prop :=
  visit.pass.last.Finishes value

/-- The calls of the visit, with the item that the body gets and its answer. -/
def calls (visit : Visit) : List (Value × Completion) :=
  visit.pass.answers.map (visit.item, ·)

end Visit

/-- The body gives an answer for an item. -/
def Calls (body : Value → σ → Option (Completion × σ)) (s : σ) (call : Value × Completion)
    (s' : σ) : Prop :=
  body call.1 s = some (call.2, s')

/-- How far a loop over items gets, and what it ends with: visits that finish, to all of the
items or up to one that stops the loop. -/
inductive Visited : List Value → List Visit → Except Fault Outcome → Prop where
  | completed {visits : List Visit} {values : List Value}
      (finish : List.Forall₂ Visit.Gives visits values) :
      Visited (visits.map Visit.item) visits (.ok (.completed values))
  | broken {earlier : List Visit} {values later : List Value} {last : Visit} {value : Value}
      (finish : List.Forall₂ Visit.Gives earlier values)
      (leaves : last.pass.last = .error (.signal (.leave value))) :
      Visited (earlier.map Visit.item ++ last.item :: later) (earlier ++ [last])
        (.ok (.broken value))
  | failed {earlier : List Visit} {values later : List Value} {last : Visit} {fault : Fault}
      (finish : List.Forall₂ Visit.Gives earlier values)
      (fails : last.pass.last = .error (.fault fault)) :
      Visited (earlier.map Visit.item ++ last.item :: later) (earlier ++ [last]) (.error fault)

variable {items values : List Value} {visits earlier : List Visit} {visit : Visit} {value : Value}
  {result : Except Fault Outcome}

theorem Visited.cons (gives : visit.Gives value) (rest : Visited items visits result) :
    Visited (visit.item :: items) (visit :: visits) (result.map (Outcome.cons value)) := by
  cases rest with
  | completed finish => exact .completed (.cons gives finish)
  | broken finish leaves => exact .broken (.cons gives finish) leaves
  | failed finish fails => exact .failed (.cons gives finish) fails

theorem settles_iff_visit {item : Value} {iteration : Iteration} :
    Settles (body item) s iteration s' ↔
      ∃ visit : Visit, visit.item = item ∧ Iteration.of? visit.pass.last = some iteration ∧
        Chain (Calls body) s visit.calls s' := by
  constructor
  · intro settles
    obtain ⟨pass, last, chain⟩ := settles_iff_pass.mp settles
    exact ⟨⟨item, pass⟩, rfl, last, (Chain.map_iff (item, ·)).mpr chain⟩
  · rintro ⟨⟨item, pass⟩, rfl, last, chain⟩
    exact settles_iff_pass.mpr ⟨pass, last, (Chain.map_iff (item, ·)).mp chain⟩

theorem Visits.visited (run : Visits body items s result s') :
    ∃ visits, Visited items visits result ∧
      Chain (Calls body) s (visits.flatMap Visit.calls) s' := by
  induction run with
  | done => exact ⟨[], .completed .nil, .nil⟩
  | left settles =>
      obtain ⟨visit, rfl, last, chain⟩ := settles_iff_visit.mp settles
      refine ⟨[visit], .broken .nil (Iteration.of?_eq_left_iff.mp last), ?_⟩
      rw [List.flatMap_singleton]
      exact chain
  | failed settles =>
      obtain ⟨visit, rfl, last, chain⟩ := settles_iff_visit.mp settles
      refine ⟨[visit], .failed .nil (Iteration.of?_eq_failed_iff.mp last), ?_⟩
      rw [List.flatMap_singleton]
      exact chain
  | next settles rest ih =>
      obtain ⟨visit, rfl, last, chain⟩ := settles_iff_visit.mp settles
      obtain ⟨visits, visited, behind⟩ := ih
      exact ⟨visit :: visits, visited.cons (Iteration.of?_eq_finished_iff.mp last),
        Chain.append_iff.mpr ⟨_, chain, behind⟩⟩

/-- The outcome with values for more items in front. -/
def Outcome.after (values : List Value) : Outcome → Outcome
  | .completed more => .completed (values ++ more)
  | .broken value => .broken value

theorem Outcome.map_cons_after (result : Except Fault Outcome) (value : Value)
    (values : List Value) :
    (result.map (Outcome.after values)).map (Outcome.cons value) =
      result.map (Outcome.after (value :: values)) := by
  rcases result with _ | (_ | _) <;> rfl

theorem Outcome.map_after_nil (result : Except Fault Outcome) :
    result.map (Outcome.after []) = result := by
  rcases result with _ | (_ | _) <;> rfl

/-- Visits that finish can be put in front of a run. -/
theorem Visits.prepend {s₁ : σ} (finish : List.Forall₂ Visit.Gives earlier values)
    (chain : Chain (Calls body) s (earlier.flatMap Visit.calls) s₁)
    (rest : Visits body items s₁ result s') :
    Visits body (earlier.map Visit.item ++ items) s (result.map (Outcome.after values)) s' := by
  induction finish generalizing s with
  | nil =>
      obtain _ | _ := chain
      rw [Outcome.map_after_nil]
      exact rest
  | @cons visit value earlier values gives finish ih =>
      rw [List.flatMap_cons] at chain
      obtain ⟨s₂, front, back⟩ := Chain.append_iff.mp chain
      rw [← Outcome.map_cons_after]
      have settles := settles_iff_visit.mpr
        ⟨visit, rfl, Iteration.of?_eq_finished_iff.mpr gives, front⟩
      exact .next settles (ih back)

/-- The last visit of some is an iteration from where the others end. -/
theorem settles_of_last {iteration : Iteration}
    (ends : Iteration.of? visit.pass.last = some iteration)
    (chain : Chain (Calls body) s ((earlier ++ [visit]).flatMap Visit.calls) s') :
    ∃ s₁, Chain (Calls body) s (earlier.flatMap Visit.calls) s₁ ∧
      Settles (body visit.item) s₁ iteration s' := by
  rw [List.flatMap_append, List.flatMap_singleton] at chain
  obtain ⟨s₁, front, back⟩ := Chain.append_iff.mp chain
  exact ⟨s₁, front, settles_iff_visit.mpr ⟨visit, rfl, ends, back⟩⟩

theorem Visited.run (visited : Visited items visits result)
    (chain : Chain (Calls body) s (visits.flatMap Visit.calls) s') :
    Visits body items s result s' := by
  cases visited with
  | @completed visits values finish =>
      -- All visits come in front of the empty run.
      have run := Visits.prepend finish chain .done
      rw [List.append_nil] at run
      rw [← List.append_nil values]
      exact run
  | broken finish leaves =>
      obtain ⟨s₁, front, settles⟩ := settles_of_last (Iteration.of?_eq_left_iff.mpr leaves) chain
      exact .prepend finish front (.left settles)
  | failed finish fails =>
      obtain ⟨s₁, front, settles⟩ := settles_of_last (Iteration.of?_eq_failed_iff.mpr fails) chain
      exact .prepend finish front (.failed settles)

/-- The first answer in a log that stops the loop. -/
def firstStop (log : List (Value × Completion)) : Option Completion :=
  (log.map Prod.snd).find? Completion.stops

/-- Within a visit only the last answer may stop the loop. -/
theorem Visit.firstStop_calls (visit : Visit) :
    firstStop visit.calls = if visit.pass.last.stops then some visit.pass.last else none := by
  have answers : visit.calls.map Prod.snd = visit.pass.answers := by
    rw [Visit.calls, List.map_map]
    exact List.map_id' _
  have redos : (List.replicate visit.pass.redos (.error (.signal .redo))).find? Completion.stops =
      none := by
    rw [List.find?_replicate]
    split
    · rfl
    · rfl
  rw [firstStop, answers, Pass.answers, List.find?_append, redos, Option.none_or,
    List.find?_singleton]

theorem firstStop_append (log log' : List (Value × Completion)) :
    firstStop (log ++ log') = (firstStop log).or (firstStop log') := by
  rw [firstStop, List.map_append, List.find?_append]
  rfl

theorem firstStop_of_finish (finish : List.Forall₂ Visit.Gives visits values) :
    firstStop (visits.flatMap Visit.calls) = none := by
  induction finish with
  | nil => rfl
  | cons gives finish ih =>
      rw [List.flatMap_cons, firstStop_append, Visit.firstStop_calls, ih,
        Completion.Finishes.not_stops gives]
      rfl

theorem firstStop_of_last (finish : List.Forall₂ Visit.Gives earlier values)
    (stops : visit.pass.last.stops) :
    firstStop ((earlier ++ [visit]).flatMap Visit.calls) = some visit.pass.last := by
  rw [List.flatMap_append, List.flatMap_singleton, firstStop_append, firstStop_of_finish finish,
    Visit.firstStop_calls, if_pos stops]
  rfl

/-- What stopped the loop, by what it ends with. -/
def Outcome.stop? : Except Fault Outcome → Option Completion
  | .ok (.completed _) => none
  | .ok (.broken value) => some (.error (.signal (.leave value)))
  | .error fault => some (.error (.fault fault))

theorem Visited.firstStop_eq (visited : Visited items visits result) :
    firstStop (visits.flatMap Visit.calls) = Outcome.stop? result := by
  cases visited with
  | completed finish => exact firstStop_of_finish finish
  | broken finish leaves =>
      rw [firstStop_of_last finish (by rw [leaves]; rfl), leaves]
      rfl
  | failed finish fails =>
      rw [firstStop_of_last finish (by rw [fails]; rfl), fails]
      rfl

theorem Visit.gives_unique : Relator.RightUnique Visit.Gives := by
  intro visit value value' gives gives'
  have same := (Iteration.of?_eq_finished_iff.mpr gives).symm.trans
    (Iteration.of?_eq_finished_iff.mpr gives')
  cases same
  rfl

theorem Visited.completed_iff (visited : Visited items visits result) :
    result = .ok (.completed values) ↔
      visits.map Visit.item = items ∧ List.Forall₂ Visit.Gives visits values := by
  constructor
  · rintro rfl
    obtain ⟨finish⟩ := visited
    exact ⟨rfl, finish⟩
  · rintro ⟨-, finish⟩
    -- With no answer that stops it the loop did not end before the last item.
    have none := visited.firstStop_eq.symm.trans (firstStop_of_finish finish)
    cases visited with
    | completed finish' => rw [Visit.gives_unique.forall₂ finish finish']
    | broken finish' leaves => cases none
    | failed finish' fails => cases none

theorem Visited.broken_iff (visited : Visited items visits result) :
    result = .ok (.broken value) ↔
      firstStop (visits.flatMap Visit.calls) = some (.error (.signal (.leave value))) := by
  rw [visited.firstStop_eq]
  rcases result with _ | (_ | _) <;> simp [Outcome.stop?]

theorem Visited.failed_iff {fault : Fault} (visited : Visited items visits result) :
    result = .error fault ↔
      firstStop (visits.flatMap Visit.calls) = some (.error (.fault fault)) := by
  rw [visited.firstStop_eq]
  rcases result with _ | (_ | _) <;> simp [Outcome.stop?]

theorem calls_of_logged {state state' : σ × List (Value × Completion)}
    {call : Value × Completion}
    (calls : Calls (fun item => logged (body item) (item, ·)) state call state') :
    Calls body state.1 call state'.1 ∧ state'.2 = state.2 ++ [call] :=
  of_logged calls

theorem each_eq_map_logged (body : Value → σ → Option (Completion × σ)) (bound : Nat)
    (items : List Value) (s : σ) :
    each body bound items s =
      (each (fun item => logged (body item) (item, ·)) bound items (s, [])).map
        (Prod.map id Prod.fst) :=
  each_map (fun item state => (map_logged (body item) (item, ·) state).symm) bound items (s, [])

theorem each_logged {bound : Nat} (returned : each body bound items s = some (result, s')) :
    ∃ log, each (fun item => logged (body item) (item, ·)) bound items (s, []) =
      some (result, s', log) :=
  exists_log (each_eq_map_logged body bound items s) returned

/-- How a loop over items calls its body. A run that returns visits the items in order, and each
of them once more for every answer that asks for it and not after another answer; the log of
the run has these calls and no others. It completes exactly if all items were visited and every
visit finished, with the values of the visits. Otherwise one of the answers stops the loop: the
first that does is the last of all, and what it says is what the loop ends with. Conversely the
loop returns whenever the calls go like that. -/
theorem each_visits_in_order (body : Value → σ → Option (Completion × σ)) (items : List Value)
    (s s' : σ) (result : Except Fault Outcome) :
    (∀ bound, each body bound items s = some (result, s') →
      ∃ visits, Visited items visits result ∧
        Chain (Calls body) s (visits.flatMap Visit.calls) s' ∧
        each (fun item => logged (body item) (item, ·)) bound items (s, []) =
          some (result, s', visits.flatMap Visit.calls) ∧
        (∀ values, result = .ok (.completed values) ↔
          visits.map Visit.item = items ∧ List.Forall₂ Visit.Gives visits values) ∧
        (∀ value, result = .ok (.broken value) ↔
          firstStop (visits.flatMap Visit.calls) = some (.error (.signal (.leave value)))) ∧
        ∀ fault, result = .error fault ↔
          firstStop (visits.flatMap Visit.calls) = some (.error (.fault fault))) ∧
      ∀ visits, Visited items visits result →
        Chain (Calls body) s (visits.flatMap Visit.calls) s' →
          ∃ bound, each body bound items s = some (result, s') := by
  constructor
  · intro bound returned
    obtain ⟨log, recorded⟩ := each_logged returned
    obtain ⟨visits, visited, chain⟩ := (Visits.of_each recorded).visited
    obtain ⟨chain, rfl⟩ := chain.of_logged fun _ _ _ calls => calls_of_logged calls
    exact ⟨visits, visited, chain, recorded, fun _ => visited.completed_iff,
      fun _ => visited.broken_iff, fun _ => visited.failed_iff⟩
  · intro visits visited chain
    exact exists_each_iff.mpr (visited.run chain)

/-- The first item is visited twice. The loop completes behind the second one, and is left at
the third if there is one. -/
theorem each_visits_in_order_three :
    let answers (item : Value) (calls : Nat) : Option (Completion × Nat) :=
      match calls with
      | 0 => some (.error (.signal .redo), 1)
      | 1 => some (.error (.signal (.next (.int 7))), 2)
      | 2 => some (.ok item, 3)
      | _ => some (.error (.signal (.leave item)), calls + 1)
    let log : List (Value × Completion) :=
      [(.nil, .error (.signal .redo)), (.nil, .error (.signal (.next (.int 7)))),
        (.bool true, .ok (.bool true)),
        (.bool false, .error (.signal (.leave (.bool false))))]
    each answers 2 [.nil, .bool true] 0 = some (.ok (.completed [.int 7, .bool true]), 3) ∧
      (∃ visits, visits.map Visit.item = [.nil, .bool true] ∧
        List.Forall₂ Visit.Gives visits [.int 7, .bool true]) ∧
      each answers 2 [.nil, .bool true, .bool false, .nil] 0 =
        some (.ok (.broken (.bool false)), 4) ∧
      firstStop log = some (.error (.signal (.leave (.bool false)))) ∧
      ∃ bound, each answers bound [.nil, .bool true, .bool false, .nil] 0 =
        some (.ok (.broken (.bool false)), 4) := by
  intro answers log
  have completed : each answers 2 [.nil, .bool true] 0 =
      some (.ok (.completed [.int 7, .bool true]), 3) := rfl
  have broken : each answers 2 [.nil, .bool true, .bool false, .nil] 0 =
      some (.ok (.broken (.bool false)), 4) := rfl
  obtain ⟨visits, _, _, _, complete, _⟩ :=
    (each_visits_in_order answers [.nil, .bool true] 0 3 _).1 2 completed
  obtain ⟨order, returns⟩ :=
    each_visits_in_order answers [.nil, .bool true, .bool false, .nil] 0 4
      (.ok (.broken (.bool false)))
  obtain ⟨visits', visited, chain, recorded, _, stops, _⟩ := order 2 broken
  have same : visits'.flatMap Visit.calls = log := by
    have run : each (fun item => logged (answers item) (item, ·)) 2
        [.nil, .bool true, .bool false, .nil] (0, []) =
          some (.ok (.broken (.bool false)), 4, log) := rfl
    rw [run] at recorded
    injection recorded with recorded
    injection recorded with _ recorded
    injection recorded with _ logs
    exact logs.symm
  have left := (stops (.bool false)).mp rfl
  rw [same] at left
  exact ⟨completed, ⟨visits, (complete _).mp rfl⟩, broken, left, returns visits' visited chain⟩

end Loop

end AdaptiveDispatch
