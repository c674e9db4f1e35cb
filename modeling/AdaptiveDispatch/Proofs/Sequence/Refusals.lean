import AdaptiveDispatch.Proofs.Dispatch.Run
import AdaptiveDispatch.Proofs.Sequence.Refinement

/-!
# Refused calls leave no trace

A site looks at a store only when the arguments of a call have passed their check. So a call
that is refused leaves the site as it was, and everything else too. A call that is answered
shows the site the kind of one store, that which the sequence has at the time of the call.

From one call follows what any run of requests leaves of a site: its cache has seen the kinds
of the answered calls and nothing else. Between the calls the sequences may be made anew and
shared, and other sites may be called.
-/

namespace AdaptiveDispatch

namespace Request

/-- The site that a request calls, if it calls one. -/
def site? : Request → Option Nat
  | .resolve site _ | .copyRange site _ _ _ | .copyAll site _ | .unsplat site _
  | .read site _ _ => some site
  | .ofValues _ _ | .wrap _ _ _ | .clone _ _ | .share _ _ _ _ _ | .checkRange _ _ _ => none

/-- The sequences that a site is called with. -/
def sources : Request → List Nat
  | .resolve _ source | .copyRange _ source _ _ | .copyAll _ source | .read _ source _ =>
      [source]
  | .unsplat _ sources => sources
  | .ofValues _ _ | .wrap _ _ _ | .clone _ _ | .share _ _ _ _ _ | .checkRange _ _ _ => []

end Request

/-- The fault that a request was refused with. -/
def Answer.fault? : Answer → Option Fault.Storage
  | .refused fault => some fault
  | _ => none

namespace SequenceSite

variable {s : Sequence} {start length index : Nat}

/-- A site that has met one more store of some kind. -/
def meet (site : SequenceSite) (kind : Store.Kind) : SequenceSite :=
  ⟨(site.cache.select kind).2⟩

theorem copyAll_eq_meet (site : SequenceSite) (wf : s.WellFormed) :
    site.copyAll s = (.ok s.toList, site.meet s.store.kind) :=
  Prod.ext (site.copyAll_eq wf) rfl

theorem copyRange_of_inside (site : SequenceSite) (wf : s.WellFormed)
    (inside : start + length ≤ s.size) :
    site.copyRange s start length =
      (.ok ((s.toList.drop start).take length), site.meet s.store.kind) := by
  apply Prod.ext
  · rw [site.copyRange_eq wf, Elements.range, wf.length_toList, if_pos inside]
  · rw [copyRange, Sequence.checkRange_of_inside inside]
    rfl

theorem copyRange_of_outside (site : SequenceSite) (outside : ¬ start + length ≤ s.size) :
    site.copyRange s start length = (.error (.outOfRange start length s.size), site) := by
  rw [copyRange, Sequence.checkRange_of_outside outside]

theorem read_of_inside (site : SequenceSite) (wf : s.WellFormed) (inside : index < s.size) :
    ∃ v, site.read s index = (.ok v, site.meet s.store.kind) := by
  have bound : index < s.toList.length := by rwa [wf.length_toList]
  refine ⟨s.toList[index], Prod.ext ?_ ?_⟩
  · rw [site.read_eq wf, Elements.element, List.getElem?_eq_getElem bound]
  · rw [read, Sequence.checkRange_of_inside inside]
    rfl

theorem read_of_outside (site : SequenceSite) (outside : ¬ index < s.size) :
    site.read s index = (.error (.outOfRange index 1 s.size), site) := by
  rw [read, Sequence.checkRange_of_outside outside]

theorem unsplat_of_ne_one (site : SequenceSite) {arguments : List Sequence}
    (several : arguments.length ≠ 1) :
    site.unsplat arguments = (.error (.arityMismatch arguments.length 1), site) := by
  rw [unsplat]
  rintro s rfl
  exact several rfl

end SequenceSite

namespace Registers

variable {registers : Registers} {site : Nat} {request : Request}

/-- Why a call of a site is refused: a range or an index lies beyond the size, or there is not
exactly one argument. -/
inductive Refusal (registers : Registers) : Request → Fault.Storage → Prop
  | range {site source start length : Nat}
      (beyond : (registers.sequences source).size < start + length) :
      Refusal registers (.copyRange site source start length)
        (.outOfRange start length (registers.sequences source).size)
  | index {site source index : Nat} (beyond : (registers.sequences source).size ≤ index) :
      Refusal registers (.read site source index)
        (.outOfRange index 1 (registers.sequences source).size)
  | arity {site : Nat} {sources : List Nat} (several : sources.length ≠ 1) :
      Refusal registers (.unsplat site sources) (.arityMismatch sources.length 1)

/-- Let a site meet one more store of some kind. -/
def meet (registers : Registers) (site : Nat) (kind : Store.Kind) : Registers :=
  { registers with
    sites := Function.update registers.sites site ((registers.sites site).meet kind) }

/-- What comes of a call of a site: a refusal without an effect, or an answer, for which the
site has met the store of the only sequence that it was called with. -/
inductive CallEffect (registers : Registers) (site : Nat) (request : Request) :
    Answer × Registers → Prop
  | refused {fault : Fault.Storage} (reason : registers.Refusal request fault) :
      CallEffect registers site request (.refused fault, registers)
  | answered {answer : Answer} {source : Nat}
      (flawless : ∀ fault, ¬ registers.Refusal request fault)
      (unrefused : answer.fault? = none) (alone : request.sources = [source]) :
      CallEffect registers site request
        (answer, registers.meet site (registers.sequences source).store.kind)

/-- A call has one fault at most. -/
theorem Refusal.unique {fault fault' : Fault.Storage} (reason : registers.Refusal request fault)
    (reason' : registers.Refusal request fault') : fault = fault' := by
  cases reason <;> cases reason' <;> rfl

namespace CallEffect

variable {result : Answer × Registers} {fault : Fault.Storage}

theorem refused_iff (effect : CallEffect registers site request result) :
    result.1 = .refused fault ↔ registers.Refusal request fault := by
  cases effect with
  | refused reason =>
      constructor
      · rintro ⟨⟩
        exact reason
      · intro reason'
        rw [reason.unique reason']
  | answered flawless unrefused alone =>
      constructor
      · rintro rfl
        cases unrefused
      · intro reason
        exact absurd reason (flawless fault)

theorem unchanged (effect : CallEffect registers site request result)
    (refused : result.1 = .refused fault) : result.2 = registers := by
  cases effect with
  | refused reason => rfl
  | answered flawless unrefused alone =>
      cases refused
      cases unrefused

theorem alone (effect : CallEffect registers site request result)
    (unrefused : result.1.fault? = none) : ∃ source, request.sources = [source] := by
  cases effect with
  | refused reason => cases unrefused
  | answered _ _ alone => exact ⟨_, alone⟩

end CallEffect

section Use

variable {α : Type} {answer : α → Answer}
  {operation : SequenceSite → Except Fault.Storage α × SequenceSite}

theorem use_of_error {fault : Fault.Storage}
    (refused : operation (registers.sites site) = (.error fault, registers.sites site)) :
    registers.use site answer operation = (.refused fault, registers) := by
  rw [use, refused]
  simp only [Function.update_eq_self]
  rfl

theorem use_of_ok {a : α} {kind : Store.Kind}
    (answered : operation (registers.sites site) = (.ok a, (registers.sites site).meet kind)) :
    registers.use site answer operation = (answer a, registers.meet site kind) := by
  rw [use, answered]
  rfl

end Use

theorem step_copyRange (wf : registers.WellFormed) (site source start length : Nat) :
    CallEffect registers site (.copyRange site source start length)
      (registers.step (.copyRange site source start length)) := by
  by_cases inside : start + length ≤ (registers.sequences source).size
  · have copied := (registers.sites site).copyRange_of_inside (wf source) inside
    rw [step, use_of_ok copied]
    refine .answered ?_ rfl rfl
    intro fault reason
    cases reason with
    | range beyond => omega
  · have refused := (registers.sites site).copyRange_of_outside inside
    rw [step, use_of_error refused]
    exact .refused (.range (Nat.lt_of_not_le inside))

theorem step_read (wf : registers.WellFormed) (site source index : Nat) :
    CallEffect registers site (.read site source index)
      (registers.step (.read site source index)) := by
  by_cases inside : index < (registers.sequences source).size
  · obtain ⟨v, found⟩ := (registers.sites site).read_of_inside (wf source) inside
    rw [step, use_of_ok found]
    refine .answered ?_ rfl rfl
    intro fault reason
    cases reason with
    | index beyond => omega
  · have refused := (registers.sites site).read_of_outside inside
    rw [step, use_of_error refused]
    exact .refused (.index (Nat.le_of_not_lt inside))

theorem step_unsplat (wf : registers.WellFormed) (site : Nat) (sources : List Nat) :
    CallEffect registers site (.unsplat site sources)
      (registers.step (.unsplat site sources)) := by
  by_cases single : sources.length = 1
  · obtain ⟨source, rfl⟩ := List.length_eq_one_iff.mp single
    have copied := (registers.sites site).copyAll_eq_meet (wf source)
    rw [step, use_of_ok copied]
    refine .answered ?_ rfl rfl
    intro fault reason
    cases reason with
    | arity several => exact several rfl
  · have several : (sources.map registers.sequences).length ≠ 1 := by rwa [List.length_map]
    have refused := (registers.sites site).unsplat_of_ne_one several
    rw [step, use_of_error refused, List.length_map]
    exact .refused (.arity single)

/-- Every call of a site is refused for a reason or answered, and has no other effect. -/
theorem callEffect (wf : registers.WellFormed) (called : request.site? = some site) :
    CallEffect registers site request (registers.step request) := by
  cases request with
  | resolve other source =>
      cases called
      exact .answered nofun rfl rfl
  | copyRange other source start length =>
      cases called
      exact step_copyRange wf site source start length
  | copyAll other source =>
      cases called
      rw [step, use_of_ok ((registers.sites site).copyAll_eq_meet (wf source))]
      exact .answered nofun rfl rfl
  | unsplat other sources =>
      cases called
      exact step_unsplat wf site sources
  | read other source index =>
      cases called
      exact step_read wf site source index
  | _ => cases called

/-- A request that does not call a site leaves it alone. -/
theorem sites_step_of_uncalled (registers : Registers) (uncalled : request.site? ≠ some site) :
    (registers.step request).2.sites site = registers.sites site := by
  have apart {other : Nat} (called : request.site? = some other) (next : SequenceSite) :
      Function.update registers.sites other next site = registers.sites site := by
    apply Function.update_of_ne
    rintro rfl
    exact uncalled called
  have put (target : Nat) (made : Except Fault.Storage Sequence) :
      (registers.put target made).2.sites = registers.sites := by
    cases made with
    | ok s => rfl
    | error fault => rfl
  cases request with
  | ofValues target values => rfl
  | wrap target store size => exact congrFun (put target _) site
  | clone target source => rfl
  | share target source start length identity =>
      rw [step]
      cases (registers.sequences source).share start length identity with
      | ok made => rfl
      | error fault => rfl
  | checkRange source start length => rfl
  | resolve other source => exact apart rfl _
  | copyRange other source start length => exact apart rfl _
  | copyAll other source => exact apart rfl _
  | unsplat other sources => exact apart rfl _
  | read other source index => exact apart rfl _

/-- A request with its answer, and the registers that it was put to. -/
structure Call where
  before : Registers
  request : Request
  answer : Answer

namespace Call

/-- A call of a site that was not refused. -/
def answeredAt (site : Nat) (call : Call) : Bool :=
  call.request.site? == some site && call.answer.fault?.isNone

/-- The kinds of the stores that a site was called with, as they were then. -/
def kinds (call : Call) : List Store.Kind :=
  call.request.sources.map fun source => (call.before.sequences source).store.kind

/-- The kinds that a request shows to a site. -/
def shown (site : Nat) (call : Call) : List Store.Kind :=
  if call.answeredAt site then call.kinds else []

end Call

/-- Some requests that are made one after the other. -/
def calls (registers : Registers) : List Request → List Call
  | [] => []
  | request :: requests =>
      ⟨registers, request, (registers.step request).1⟩ ::
        (registers.step request).2.calls requests

/-- The kinds that the answered calls of a site have shown it, in order. -/
def kindsMet (registers : Registers) (site : Nat) (requests : List Request) : List Store.Kind :=
  ((registers.calls requests).filter (Call.answeredAt site)).flatMap Call.kinds

theorem answer_calls (registers : Registers) (requests : List Request) :
    (registers.calls requests).map Call.answer = (Request.run step registers requests).1 := by
  induction requests generalizing registers with
  | nil => rfl
  | cons request requests ih =>
      rw [calls, List.map_cons, ih]
      rfl

theorem kindsMet_cons (registers : Registers) (site : Nat) (request : Request)
    (requests : List Request) :
    registers.kindsMet site (request :: requests) =
      Call.shown site ⟨registers, request, (registers.step request).1⟩ ++
        (registers.step request).2.kindsMet site requests := by
  rw [kindsMet, calls, List.filter_cons, Call.shown]
  split_ifs
  · exact List.flatMap_cons
  · rfl

/-- One request shows a site a kind if it calls the site and is answered. -/
theorem cache_step (wf : registers.WellFormed) (site : Nat) (request : Request) :
    ((registers.step request).2.sites site).cache =
      (registers.sites site).cache.after
        (Call.shown site ⟨registers, request, (registers.step request).1⟩) := by
  by_cases called : request.site? = some site
  · have effect := callEffect wf called
    generalize registers.step request = result at effect
    cases effect with
    | refused reason => simp [Call.shown, Call.answeredAt, Answer.fault?]
    | answered _ unrefused alone =>
        simp [Call.shown, Call.answeredAt, Call.kinds, called, unrefused, alone, meet,
          SequenceSite.meet]
  · rw [sites_step_of_uncalled registers called]
    simp [Call.shown, Call.answeredAt, called]

theorem cache_run (wf : registers.WellFormed) (site : Nat) (requests : List Request) :
    ((Request.run step registers requests).2.sites site).cache =
      (registers.sites site).cache.after (registers.kindsMet site requests) := by
  induction requests generalizing registers with
  | nil => rfl
  | cons request requests ih =>
      rw [kindsMet_cons, InlineCache.after_append, ← cache_step wf]
      exact ih (step_refines wf request).wellFormed

/-- The registers before every request of a run are well-formed. -/
theorem wellFormed_calls (wf : registers.WellFormed) {requests : List Request} {call : Call}
    (member : call ∈ registers.calls requests) :
    call.before.WellFormed ∧ call.answer = (call.before.step call.request).1 := by
  induction requests generalizing registers with
  | nil => cases member
  | cons request requests ih =>
      rcases List.mem_cons.mp member with rfl | later
      · exact ⟨wf, rfl⟩
      · exact ih (step_refines wf request).wellFormed later

/-- What a site has met after any run of requests are the kinds of the stores that it was
called with in those calls that were answered, in order and as the stores were at the time.
Refused calls contribute nothing: they are refused exactly for a range beyond the size or for
a wrong number of arguments, and leave all registers as they were. An answered call has a
single sequence. -/
theorem refusals_leave_no_trace (wf : registers.WellFormed) (site : Nat)
    (requests : List Request) :
    let calls := registers.calls requests
    calls.map Call.answer = (Request.run step registers requests).1 ∧
      ((Request.run step registers requests).2.sites site).cache =
        (registers.sites site).cache.after
          ((calls.filter (Call.answeredAt site)).flatMap Call.kinds) ∧
      ∀ call ∈ calls, call.request.site? = some site →
        (∀ fault, call.answer = .refused fault ↔ call.before.Refusal call.request fault) ∧
          (∀ fault, call.answer = .refused fault →
            (call.before.step call.request).2 = call.before) ∧
          (call.answer.fault? = none → ∃ source, call.request.sources = [source]) := by
  refine ⟨answer_calls registers requests, cache_run wf site requests, ?_⟩
  intro call member called
  obtain ⟨wf_before, answer⟩ := wellFormed_calls wf member
  have effect := callEffect wf_before called
  rw [answer]
  exact ⟨fun fault => effect.refused_iff, fun fault => effect.unchanged, effect.alone⟩

/-- A sequence of integers is shared between the calls, of which three are refused. -/
theorem refusals_leave_no_trace_shared :
    let table := ⟨Access.rules, RuleTable.indexOf Access.rules, .generic⟩
    let registers : Registers := ⟨fun _ => .empty, fun limit => .new ⟨0⟩ table limit⟩
    let requests : List Request :=
      [.wrap 0 ⟨.ints [1, 2, 3, 4], trivial⟩ 3, .copyRange 1 0 2 2, .resolve 1 0,
        .unsplat 1 [0, 0], .copyAll 2 5, .share 1 0 0 2 7, .read 1 0 3, .read 1 0 2]
    registers.WellFormed ∧
      ((Request.run step registers requests).2.sites 1).cache =
        (InlineCache.new ⟨0⟩ table 1).after [.ints, .shared] := by
  intro table registers requests
  have wf : registers.WellFormed := fun _ => Sequence.wellFormed_empty
  have kinds : registers.kindsMet 1 requests = [.ints, .shared] := by decide +kernel
  refine ⟨wf, ?_⟩
  rw [← kinds]
  exact (refusals_leave_no_trace wf 1 requests).2.1

end Registers

end AdaptiveDispatch
