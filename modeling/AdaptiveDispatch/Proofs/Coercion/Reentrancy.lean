import AdaptiveDispatch.Proofs.Coercion.History
import AdaptiveDispatch.Proofs.Coercion.Transparency

/-!
# Methods that use the site that called them

While a method runs, the coercion that called it is half done, and the site is free for
others. A `Method` is what such a method may do: coerce values at the site, any number of
them and to any depth, before it replies.

The coercion that waits is not disturbed by any of this. Its conversion is chosen already,
and the strict child that it goes on with coerces as every sound site does, whoever made
it. What the site remembers follows the two orders in which things happen: it sees a value
when a coercion starts, and its child sees one when a method returns.
-/

namespace AdaptiveDispatch

variable {τ : Type}

/-- What a method does when it is called. It may look at the site and at a state of its
own at any time, and may have the site coerce a value, with methods of that coercion's own,
before it goes on with the result. In the end it replies. -/
inductive Method (τ : Type) where
  | answer (reply : Reply) (t : τ)
  | coerce (value : Value) (strict : Bool) (t : τ)
      (methods : Value → String → List Value → CoercionSite × τ → Method τ)
      (next : Coerced → CoercionSite × τ → Method τ)

/-- What each method does, given what an invoker is given. -/
abbrev Methods (τ : Type) :=
  Value → String → List Value → CoercionSite × τ → Method τ

/-- Run a method that was called at a site. -/
def Method.run : Method τ → CoercionSite → Reply × CoercionSite × τ
  | .answer reply t, site => (reply, site, t)
  | .coerce value strict t methods next, site =>
      let (result, site, t) :=
        CoercionSite.coerceReentrant
          (fun receiver name arguments state =>
            (methods receiver name arguments state).run state.1)
          value strict (site, t)
      (next result (site, t)).run site

/-- The invoker that runs methods at the site. -/
def Methods.invoker (methods : Methods τ) : Invoker (CoercionSite × τ) :=
  fun receiver name arguments state => (methods receiver name arguments state).run state.1

theorem Method.run_coerce (value : Value) (strict : Bool) (t : τ) (methods : Methods τ)
    (next : Coerced → CoercionSite × τ → Method τ) (site : CoercionSite) :
    (Method.coerce value strict t methods next).run site =
      let coerced := CoercionSite.coerceReentrant methods.invoker value strict (site, t)
      (next coerced.1 coerced.2).run coerced.2.1 := rfl

/-- What happens at a site while methods use it. -/
inductive Event where
  | given (value : Value)
  | returned (value : Value)

namespace Event

def given? : Event → Option Value.Shape
  | .given value => some value.shape
  | .returned _ => none

def returned? : Event → Option Value.Shape
  | .given _ => none
  | .returned value => some value.shape

/-- The event of a reply, if it returns a value. -/
def ofReply (reply : Reply) : List Event :=
  (reply.value?.map .returned).toList

end Event

/-- The same method, which also keeps a list of the events: a value is given when the
method has it coerced, and returned when a method replies. -/
def Method.logged : Method τ → List Event → Method (τ × List Event)
  | .answer reply t, log => .answer reply (t, log ++ Event.ofReply reply)
  | .coerce value strict t methods next, log =>
      .coerce value strict (t, log ++ [.given value])
        (fun receiver name arguments (site, t, log) =>
          (methods receiver name arguments (site, t)).logged log)
        (fun result (site, t, log) => (next result (site, t)).logged log)

def Methods.logged (methods : Methods τ) : Methods (τ × List Event) :=
  fun receiver name arguments (site, t, log) =>
    (methods receiver name arguments (site, t)).logged log

theorem Method.run_logged_coerce (value : Value) (strict : Bool) (t : τ) (methods : Methods τ)
    (next : Coerced → CoercionSite × τ → Method τ) (log : List Event) (site : CoercionSite) :
    ((Method.coerce value strict t methods next).logged log).run site =
      let coerced :=
        CoercionSite.coerceReentrant methods.logged.invoker value strict
          (site, t, log ++ [.given value])
      ((next coerced.1 (coerced.2.1, coerced.2.2.1)).logged coerced.2.2.2).run coerced.2.1 := rfl

namespace CoercionSite

/-- A site at which some things happened. -/
def live (site : CoercionSite) (events : List Event) : CoercionSite :=
  site.advance (events.filterMap Event.given?) (events.filterMap Event.returned?)

theorem live_nil (site : CoercionSite) : site.live [] = site :=
  site.seeAll_nil

theorem live_append (site : CoercionSite) (events more : List Event) :
    site.live (events ++ more) = (site.live events).live more := by
  unfold live
  rw [advance_advance, List.filterMap_append, List.filterMap_append]

theorem live_given (site : CoercionSite) (v : Value) (strict : Bool) :
    (site.start v strict).2 = site.live [.given v] :=
  site.start_advance v strict

theorem live_reply (site : CoercionSite) (receiver : Value) (reply : Reply) :
    (site.resume receiver reply).2 = site.live (Event.ofReply reply) := by
  rw [resume_advance]
  cases reply with
  | missing => rfl
  | returned value => rfl

/-- The two halves of a coercion, with the method between them. -/
theorem coerceReentrant_halves (invoke : Invoker (CoercionSite × τ)) (site : CoercionSite)
    (v : Value) (strict : Bool) (t : τ) :
    coerceReentrant invoke v strict (site, t) =
      match site.start v strict with
      | (.done result, site) => (result, site, t)
      | (.pending name, site) =>
          let (reply, site, t) := invoke v name [] (site, t)
          ((site.resume v reply).1, (site.resume v reply).2, t) := rfl

/-- The log of a method tells what becomes of the site until the method replies. The reply
itself is in the log already, but not seen by the site. -/
def Tells (method : Method τ) : Prop :=
  ∀ (site : CoercionSite) (log : List Event), ∃ events,
    (method.logged log).run site =
        ((method.run site).1, (method.run site).2.1, (method.run site).2.2,
          log ++ events ++ Event.ofReply (method.run site).1) ∧
      (method.run site).2.1 = site.live events

/-- If the logs of its methods tell what becomes of the site, so does the log of a whole
coercion. -/
theorem coerceReentrant_logged (methods : Methods τ)
    (tells : ∀ receiver name arguments state, Tells (methods receiver name arguments state))
    (site : CoercionSite) (v : Value) (strict : Bool) (t : τ) (log : List Event) :
    let plain := coerceReentrant methods.invoker v strict (site, t)
    ∃ events,
      coerceReentrant methods.logged.invoker v strict (site, t, log) =
          (plain.1, plain.2.1, plain.2.2, log ++ events) ∧
        plain.2.1 = site.live (.given v :: events) := by
  have started := site.live_given v strict
  simp only [coerceReentrant_halves]
  generalize site.start v strict = half at started ⊢
  obtain ⟨progress, next⟩ := half
  cases progress with
  | done result => exact ⟨[], by simp, started⟩
  | pending name =>
      obtain ⟨events, same, state⟩ := tells v name [] (next, t) next log
      have logged : methods.logged.invoker v name [] (next, t, log) = _ := same
      simp only [logged]
      refine ⟨events ++ Event.ofReply (methods.invoker v name [] (next, t)).1, ?_, ?_⟩
      · rw [← List.append_assoc]
        rfl
      · refine ((methods.invoker v name [] (next, t)).2.1.live_reply v _).trans ?_
        rw [show (methods.invoker v name [] (next, t)).2.1 = next.live events from state,
          show next = site.live [.given v] from started, ← live_append, ← live_append]
        rfl

/-- The log of every method tells what becomes of the site. -/
theorem tells (method : Method τ) : Tells method := by
  induction method with
  | answer reply t =>
      intro site log
      refine ⟨[], ?_, site.live_nil.symm⟩
      rw [List.append_nil]
      rfl
  | coerce value strict t methods next told told_next =>
      intro site log
      obtain ⟨events, same, state⟩ :=
        coerceReentrant_logged methods told site value strict t (log ++ [.given value])
      rw [Method.run_coerce, Method.run_logged_coerce]
      generalize coerceReentrant (Methods.invoker methods) value strict (site, t) = coerced at *
      rw [same]
      obtain ⟨result, after, t'⟩ := coerced
      obtain ⟨later, same', state'⟩ :=
        told_next result (after, t') after (log ++ [.given value] ++ events)
      refine ⟨.given value :: events ++ later, ?_, ?_⟩
      · rw [same']
        simp only [List.append_assoc, List.cons_append, List.nil_append]
      · rw [live_append, ← state]
        exact state'

variable {site : CoercionSite} {width : Width} {method : String}

/-- Whatever a method does, it leaves the site in use. -/
theorem InUse.run (used : InUse width method site) (called : Method τ) :
    InUse width method (called.run site).2.1 := by
  induction called generalizing site with
  | answer reply t => exact used
  | coerce value strict t methods next kept kept_next =>
      rw [Method.run_coerce]
      apply kept_next
      apply used.coerceReentrant
      intro name asked in_use
      exact kept value name [] (asked, t) in_use

/-- A coercion does not notice what its method does at the site. It has the result that it
would have with methods that give the same answer and leave the site alone. The site ends
up as if it had been given all values one by one, in the order in which their coercions
start, and its strict child as if it had been given all returned values, in the order in
which the methods return them. -/
theorem reentrant_coercion_undisturbed (used : InUse width method site) (methods : Methods τ)
    (v : Value) (strict : Bool) (t : τ) :
    let answer := methods.invoker v method [] (site.see v.shape, t)
    let outcome := coerceReentrant methods.invoker v strict (site, t)
    let logged := coerceReentrant methods.logged.invoker v strict (site, t, [.given v])
    let given := logged.2.2.2.filterMap Event.given?
    let returned := logged.2.2.2.filterMap Event.returned?
    (∀ quiet : Invoker τ, quiet v method [] t = (answer.1, answer.2.2) →
      (site.coerce quiet v strict t).1 = outcome.1 ∧
        (site.coerce quiet v strict t).2.2 = outcome.2.2) ∧
      (logged.1 = outcome.1 ∧ logged.2.1 = outcome.2.1 ∧ logged.2.2.1 = outcome.2.2) ∧
      outcome.2.1.cache = site.cache.after given ∧
      outcome.2.1.child =
        if returned = [] then site.child
        else some { site.strictChild with cache := site.strictChild.cache.after returned } := by
  intro answer outcome logged given returned
  constructor
  · intro quiet same
    have seen : InUse width method (site.see v.shape) := used.select v.shape
    have kept := seen.run (methods v method [] (site.see v.shape, t))
    obtain ⟨result, state⟩ := used.coerceReentrant_eq id v strict t kept
      (congrArg Prod.fst same).symm (congrArg Prod.snd same).symm
    obtain ⟨result', state'⟩ := used.coerce_eq quiet v strict t
    exact ⟨result'.trans result.symm, state'.trans state.symm⟩
  · obtain ⟨events, same, state⟩ :=
      coerceReentrant_logged methods (fun _ _ _ _ => tells _) site v strict t [.given v]
    have log : logged.2.2.2 = .given v :: events := congrArg (fun run => run.2.2.2) same
    have all_given : given = (Event.given v :: events).filterMap Event.given? :=
      congrArg (List.filterMap Event.given?) log
    have all_returned : returned = (Event.given v :: events).filterMap Event.returned? :=
      congrArg (List.filterMap Event.returned?) log
    refine ⟨⟨congrArg Prod.fst same, congrArg (fun run => run.2.1) same,
      congrArg (fun run => run.2.2.1) same⟩, ?_, ?_⟩
    · rw [all_given]
      exact congrArg cache state
    · rw [all_returned]
      exact congrArg child state

/-- A method that has another object coerced first and returns what comes of it. The outer
object is seen first, but what its method returns is seen last. -/
theorem reentrant_coercion_undisturbed_nested :
    let table := ⟨Conversion.rules .bits64, RuleTable.indexOf (Conversion.rules .bits64), .chain⟩
    let site := CoercionSite.new ⟨0⟩ .bits64 table 1 "to_int"
    let box := Value.object 0 "Box" []
    let methods : Methods Nat := fun _ _ _ (_, calls) =>
      .coerce (.float ⟨0⟩) false (calls + 1)
        (fun _ _ _ (_, calls) => .answer (.returned (.int 3)) (calls + 1))
        fun result (_, calls) =>
          match result with
          | .ok n => .answer (.returned (.long (n + 1))) calls
          | .error _ => .answer .missing calls
    let outcome := coerceReentrant methods.invoker box false (site, 0)
    InUse .bits64 "to_int" site ∧
      (site.coerce (fun _ _ _ _ => (.returned (.long 4), 2)) box false 0).1 = outcome.1 ∧
      outcome.2.1.cache = site.cache.after [.object, .float] ∧
      outcome.2.1.child = some { site with cache := site.cache.after [.int, .long] } := by
  intro table site box methods outcome
  have used : InUse .bits64 "to_int" site := .new ⟨0⟩ 1 (Conversion.table_eq .bits64)
  obtain ⟨alike, _, cache, child⟩ := reentrant_coercion_undisturbed used methods box false 0
  exact ⟨used, (alike _ rfl).1, cache, child⟩

end CoercionSite

end AdaptiveDispatch
