import AdaptiveDispatch.Proofs.Coercion.Site
import AdaptiveDispatch.Proofs.Dispatch.Run

/-!
# The state of a coercion site

What a site remembers is a function of two lists of shapes: those of the values that it
was given, in the order of the coercions, and those of the values that methods returned
to it. The site itself sees the first list and its strict child the second. `advance` is
that function, and each half of a coercion applies it.

None of this depends on the table or on the result of a coercion: a shape is seen before
its conversion can fail. What a method returned is coerced in turn, but strictly, so that
the child asks no method.
-/

namespace AdaptiveDispatch

variable {τ : Type}

/-- The value that a call returned, unless the method was missing. -/
def Reply.value? : Reply → Option Value
  | .returned value => some value
  | .missing => none

/-- The invoker that also keeps a list of the values it returns. -/
def Invoker.remembering (invoke : Invoker τ) : Invoker (τ × List Value) :=
  fun receiver method arguments (t, values) =>
    let (reply, t) := invoke receiver method arguments t
    (reply, t, values ++ reply.value?.toList)

namespace CoercionSite

/-- A site whose cache has seen some more shapes. -/
def seeAll (site : CoercionSite) (shapes : List Value.Shape) : CoercionSite :=
  { site with cache := site.cache.after shapes }

@[simp] theorem seeAll_nil (site : CoercionSite) : site.seeAll [] = site := by
  cases site
  rfl

@[simp] theorem seeAll_strictChild (site : CoercionSite) (shapes : List Value.Shape) :
    (site.seeAll shapes).strictChild = site.strictChild := by
  simp only [strictChild, seeAll, InlineCache.after_site, InlineCache.after_table,
    InlineCache.after_limit]

theorem seeAll_append (site : CoercionSite) (shapes more : List Value.Shape) :
    site.seeAll (shapes ++ more) = (site.seeAll shapes).seeAll more := by
  simp only [seeAll, InlineCache.after_append]

/-- A site that was given values of some shapes, and to which methods returned values of
others. It has a strict child of its own from the first returned value on. -/
def advance (site : CoercionSite) (given returned : List Value.Shape) : CoercionSite :=
  { site.seeAll given with
    child := if returned = [] then site.child else some (site.strictChild.seeAll returned) }

@[simp] theorem advance_nil_right (site : CoercionSite) (given : List Value.Shape) :
    site.advance given [] = site.seeAll given := rfl

theorem advance_of_ne_nil (site : CoercionSite) (given : List Value.Shape)
    {returned : List Value.Shape} (some_returned : returned ≠ []) :
    site.advance given returned =
      { site.seeAll given with child := some (site.strictChild.seeAll returned) } := by
  unfold advance
  rw [if_neg some_returned]

/-- Only what methods returned concerns the strict child. -/
@[simp] theorem advance_strictChild (site : CoercionSite) (given returned : List Value.Shape) :
    (site.advance given returned).strictChild = site.strictChild.seeAll returned := by
  cases returned with
  | nil => rw [advance_nil_right, seeAll_strictChild, seeAll_nil]
  | cons shape returned => rfl

theorem advance_advance (site : CoercionSite)
    (given returned given' returned' : List Value.Shape) :
    (site.advance given returned).advance given' returned' =
      site.advance (given ++ given') (returned ++ returned') := by
  cases returned' with
  | nil =>
      rw [List.append_nil, advance_nil_right]
      simp only [advance, seeAll_append]
      rfl
  | cons shape returned' =>
      have nonempty : returned ++ shape :: returned' ≠ [] := by simp
      rw [advance_of_ne_nil _ _ (List.cons_ne_nil _ _), advance_of_ne_nil _ _ nonempty,
        advance_strictChild, seeAll_append, seeAll_append]
      rfl

/-- The first half of a coercion gives the site the shape of the value. -/
theorem start_advance (site : CoercionSite) (v : Value) (strict : Bool) :
    (site.start v strict).2 = site.advance [v.shape] [] :=
  site.start_state v strict

/-- The second half shows the strict child the shape of the returned value, if there is
one. -/
theorem resume_advance (site : CoercionSite) (receiver : Value) (reply : Reply) :
    (site.resume receiver reply).2 = site.advance [] (reply.value?.toList.map Value.shape) := by
  cases reply with
  | missing => exact (seeAll_nil site).symm
  | returned value =>
      show { site with child := some (site.strictChild.coerceStrictly value).2 } = _
      rw [coerceStrictly_state]
      cases site
      rfl

/-- The two halves of a coercion with methods that leave the site alone. -/
theorem coerce_halves (site : CoercionSite) (invoke : Invoker τ) (v : Value) (strict : Bool)
    (t : τ) :
    site.coerce invoke v strict t =
      match site.start v strict with
      | (.done result, site) => (result, site, t)
      | (.pending method, site) =>
          ((site.resume v (invoke v method [] t).1).1,
            (site.resume v (invoke v method [] t).1).2, (invoke v method [] t).2) := rfl

/-- A coercion, as it recurs in its child. There no value is asked, so the recursion goes
no deeper. -/
theorem coerce_recursion (site : CoercionSite) (invoke : Invoker τ) (v : Value) (strict : Bool)
    (t : τ) :
    site.coerce invoke v strict t =
      match site.judge v with
      | (.settled result, site) => (result, site, t)
      | (.askReceiver, site) =>
          if strict then (.error (.cantConvert v.className Conversion.target), site, t)
          else
            match invoke v site.method [] t with
            | (.missing, t) => (.error (.missingMethod v.className site.method), site, t)
            | (.returned value, t) =>
                let (result, child, t) := site.strictChild.coerce invoke value true t
                (result, { site with child := some child }, t) := by
  rw [coerce_halves]
  unfold start coerceStrictly
  generalize site.judge v = judged
  obtain ⟨judgement, site⟩ := judged
  cases judgement with
  | settled result =>
      cases strict with
      | true => rfl
      | false => rfl
  | askReceiver =>
      cases strict with
      | true => rfl
      | false =>
          simp only [Bool.false_eq_true, if_false]
          generalize invoke v site.method [] t = answer
          obtain ⟨reply, t⟩ := answer
          cases reply with
          | missing => rfl
          | returned value => rfl

/-- A coercion that a site is asked for. Each brings its own methods. -/
structure Request (τ : Type) where
  value : Value
  strict : Bool
  invoke : Invoker τ

/-- The same request with methods that also keep a list of the values they return. -/
def Request.remembering (request : Request τ) : Request (τ × List Value) :=
  ⟨request.value, request.strict, request.invoke.remembering⟩

/-- Coerce some values one after the other, whether or not this fails. -/
def coerceAll (site : CoercionSite) : List (Request τ) → τ → List Coerced × CoercionSite × τ
  | [], t => ([], site, t)
  | request :: rest, t =>
      let (result, site, t) := site.coerce request.invoke request.value request.strict t
      let (results, site, t) := site.coerceAll rest t
      (result :: results, site, t)

/-- One coercion advances the site by the value and by what the method returned, and a
record of the latter makes no difference. -/
theorem coerce_remembering (site : CoercionSite) (request : Request τ) (t : τ)
    (values : List Value) :
    let plain := site.coerce request.invoke request.value request.strict t
    ∃ returned,
      site.coerce request.invoke.remembering request.value request.strict (t, values) =
          (plain.1, plain.2.1, plain.2.2, values ++ returned) ∧
        plain.2.1 = site.advance [request.value.shape] (returned.map Value.shape) := by
  obtain ⟨v, strict, invoke⟩ := request
  have started := site.start_advance v strict
  simp only [coerce_halves]
  generalize site.start v strict = half at started ⊢
  obtain ⟨progress, next⟩ := half
  cases progress with
  | done result => exact ⟨[], by simp, started⟩
  | pending method =>
      refine ⟨(invoke v method [] t).1.value?.toList, rfl, ?_⟩
      refine (next.resume_advance v (invoke v method [] t).1).trans ?_
      rw [show next = site.advance [v.shape] [] from started, advance_advance]
      rfl

theorem coerceAll_remembering (site : CoercionSite) (requests : List (Request τ)) (t : τ)
    (values : List Value) :
    let plain := site.coerceAll requests t
    ∃ returned,
      site.coerceAll (requests.map Request.remembering) (t, values) =
          (plain.1, plain.2.1, plain.2.2, values ++ returned) ∧
        plain.2.1 = site.advance (requests.map (·.value.shape)) (returned.map Value.shape) := by
  induction requests generalizing site t values with
  | nil => exact ⟨[], by simp [coerceAll], (seeAll_nil site).symm⟩
  | cons request rest ih =>
      obtain ⟨first, watched, state⟩ := site.coerce_remembering request t values
      obtain ⟨later, watched', state'⟩ := ih (site.coerce request.invoke request.value
        request.strict t).2.1 (site.coerce request.invoke request.value request.strict t).2.2
        (values ++ first)
      refine ⟨first ++ later, ?_, ?_⟩
      · simp only [List.map_cons, coerceAll, Request.remembering] at watched' ⊢
        rw [watched]
        simp only [watched', List.append_assoc]
      · simp only [coerceAll]
        rw [state', state, advance_advance, List.map_append]
        rfl

/-- After any run of coercions, a site that was new has seen the shapes of the values, in
their order. It has a strict child exactly if a method returned a value in the run. The
child has the site's number, width, table, limit and method, has seen the shapes of what
was returned, in this order, and has no child itself. -/
theorem site_after_requests (id : SiteId) (width : Width)
    (table : RuleTable Value.Shape Conversion) (limit : Nat) (method : String)
    (requests : List (Request τ)) (t : τ) :
    let fresh := new id width table limit method
    let plain := fresh.coerceAll requests t
    let watched := fresh.coerceAll (requests.map Request.remembering) (t, [])
    let returned := watched.2.2.2
    (watched.1 = plain.1 ∧ watched.2.1 = plain.2.1 ∧ watched.2.2.1 = plain.2.2) ∧
      plain.2.1 =
        { width, method
          cache := (InlineCache.new id table limit).after (requests.map (·.value.shape))
          child :=
            if returned = [] then none
            else
              some
                { width, method
                  cache := (InlineCache.new id table limit).after (returned.map Value.shape)
                  child := none } } := by
  intro fresh plain watched returned
  obtain ⟨values, same, state⟩ := fresh.coerceAll_remembering requests t []
  have known : returned = values := congrArg (fun run => run.2.2.2) same
  refine ⟨⟨congrArg Prod.fst same, congrArg (fun run => run.2.1) same,
    congrArg (fun run => run.2.2.1) same⟩, ?_⟩
  rw [known]
  refine state.trans ?_
  cases values with
  | nil => rfl
  | cons value values => rfl

end CoercionSite

end AdaptiveDispatch
