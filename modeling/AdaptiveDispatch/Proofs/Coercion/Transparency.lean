import AdaptiveDispatch.Proofs.Coercion.Site

/-!
# Coercions do not show what a site remembers

Two sites of one width and one method give the same results and make the same calls,
whatever they were used for and however many shapes they may remember: both do what the
chain of all rules does without any site.

Methods may use the site that called them, so they are handed its state. `Blind` methods
are those for which that makes no difference. Methods that leave the site alone are
blind, and so are those that coerce at it: their own coercions are transparent in turn.
-/

namespace AdaptiveDispatch

variable {τ : Type}

/-- A method call as an invoker receives it. -/
structure MethodCall where
  receiver : Value
  method : String
  arguments : List Value

namespace Invoker

/-- The invoker that also keeps a list of the calls it receives. -/
def recording (invoke : Invoker τ) : Invoker (τ × List MethodCall) :=
  fun receiver method arguments (t, calls) =>
    let (reply, t) := invoke receiver method arguments t
    (reply, t, calls ++ [⟨receiver, method, arguments⟩])

/-- An invoker that leaves a site alone, among those that may use it. The same goes for
anything else that invokers are handed. -/
def apart {ρ : Type} (invoke : Invoker τ) : Invoker (ρ × τ) :=
  fun receiver method arguments (site, t) =>
    let (reply, t) := invoke receiver method arguments t
    (reply, site, t)

end Invoker

/-- Coerce a value by the chain of all rules, without any site. -/
def Conversion.coerceByChain (width : Width) (method : String) (invoke : Invoker τ) (v : Value)
    (strict : Bool) (t : τ) : Coerced × τ :=
  match judgeChain width v with
  | .settled result => (result, t)
  | .askReceiver =>
      if strict then (.error (.cantConvert v.className target), t)
      else
        match invoke v method [] t with
        | (.missing, t) => (.error (.missingMethod v.className method), t)
        | (.returned value, t) => (strictly width value, t)

/-- An invoker that behaves on part of its state as another one does on the whole of its
own gives the same result, and leaves that part in the same state. -/
theorem Conversion.coerceByChain_view {ρ : Type} {invoke : Invoker τ} {detailed : Invoker ρ}
    (view : ρ → τ)
    (same : ∀ receiver name arguments s, invoke receiver name arguments (view s) =
      ((detailed receiver name arguments s).1, view (detailed receiver name arguments s).2))
    (width : Width) (method : String) (v : Value) (strict : Bool) (s : ρ) :
    coerceByChain width method invoke v strict (view s) =
      ((coerceByChain width method detailed v strict s).1,
        view (coerceByChain width method detailed v strict s).2) := by
  unfold coerceByChain
  cases judgeChain width v with
  | settled result => rfl
  | askReceiver =>
      cases strict with
      | true => rfl
      | false =>
          simp only [Bool.false_eq_true, if_false, same]
          generalize detailed v method [] s = answer
          obtain ⟨reply, s⟩ := answer
          cases reply with
          | missing => rfl
          | returned value => rfl

/-- A record of the calls makes no difference to a coercion. -/
theorem Conversion.coerceByChain_recording (width : Width) (method : String)
    (invoke : Invoker τ) (v : Value) (strict : Bool) (t : τ) (calls : List MethodCall) :
    coerceByChain width method invoke v strict t =
      ((coerceByChain width method invoke.recording v strict (t, calls)).1,
        (coerceByChain width method invoke.recording v strict (t, calls)).2.1) := by
  refine coerceByChain_view Prod.fst ?_ width method v strict (t, calls)
  intro receiver name arguments s
  rfl

/-- Nor does a site that is only passed on. -/
theorem Conversion.coerceByChain_apart (width : Width) (method : String) (invoke : Invoker τ)
    (v : Value) (strict : Bool) (site : CoercionSite) (t : τ) :
    coerceByChain width method invoke v strict t =
      ((coerceByChain width method invoke.apart v strict (site, t)).1,
        (coerceByChain width method invoke.apart v strict (site, t)).2.2) := by
  refine coerceByChain_view Prod.snd ?_ width method v strict (site, t)
  intro receiver name arguments s
  rfl

namespace CoercionSite

/-- A coercion as it is seen from outside: its result, the state it leaves the invoker
in, and the calls it made. -/
def observe (site : CoercionSite) (invoke : Invoker τ) (v : Value) (strict : Bool) (t : τ) :
    Coerced × τ × List MethodCall :=
  let (result, _, seen) := site.coerce invoke.recording v strict (t, [])
  (result, seen)

/-- Methods that keep a site in use, and whose replies and own state do not depend on
what the site remembers. -/
structure Blind (width : Width) (method : String) (invoke : Invoker (CoercionSite × τ)) :
    Prop where
  kept : ∀ receiver name arguments site t, InUse width method site →
    InUse width method (invoke receiver name arguments (site, t)).2.1
  same : ∀ receiver name arguments site other t, InUse width method site →
    InUse width method other →
      (invoke receiver name arguments (site, t)).1 =
          (invoke receiver name arguments (other, t)).1 ∧
        (invoke receiver name arguments (site, t)).2.2 =
          (invoke receiver name arguments (other, t)).2.2

variable {site other : CoercionSite} {width : Width} {method : String}

/-- Methods that leave the site alone are blind. -/
theorem blind_apart (width : Width) (method : String) (invoke : Invoker τ) :
    Blind width method invoke.apart := by
  constructor
  · intro receiver name arguments site t used
    exact used
  · intro receiver name arguments site other t used used'
    exact ⟨rfl, rfl⟩

/-- A coercion at a site in use has the result of the chain with methods that give the same
answer, when the methods it calls leave the site in use. -/
theorem InUse.coerceReentrant_eq {ρ : Type} {invoke : Invoker (CoercionSite × τ)}
    {answering : Invoker ρ} (view : ρ → τ) (used : InUse width method site) (v : Value)
    (strict : Bool) (s : ρ)
    (kept : InUse width method (invoke v method [] (site.see v.shape, view s)).2.1)
    (same_reply : (invoke v method [] (site.see v.shape, view s)).1 =
      (answering v method [] s).1)
    (same_state : (invoke v method [] (site.see v.shape, view s)).2.2 =
      view (answering v method [] s).2) :
    (CoercionSite.coerceReentrant invoke v strict (site, view s)).1 =
        (Conversion.coerceByChain width method answering v strict s).1 ∧
      (CoercionSite.coerceReentrant invoke v strict (site, view s)).2.2 =
        view (Conversion.coerceByChain width method answering v strict s).2 := by
  unfold CoercionSite.coerceReentrant Conversion.coerceByChain
  simp only [used.sound.1.start v strict]
  cases strict with
  | true =>
      unfold Conversion.strictly
      cases Conversion.judgeChain width v with
      | settled result => exact ⟨rfl, rfl⟩
      | askReceiver => exact ⟨rfl, rfl⟩
  | false =>
      cases Conversion.judgeChain width v with
      | settled result => exact ⟨rfl, rfl⟩
      | askReceiver =>
          -- The method runs at the site that has just seen the shape.
          simp only [Bool.false_eq_true, if_false]
          generalize invoke v method [] (site.see v.shape, view s) = answer at *
          generalize answering v method [] s = answer' at *
          obtain ⟨reply, next, t⟩ := answer
          obtain ⟨reply', s'⟩ := answer'
          cases same_reply
          cases same_state
          obtain ⟨own, child⟩ := InUse.sound kept
          dsimp only at own child
          cases reply with
          | missing => simp only [own.resume_missing v, and_self]
          | returned value => simp only [child.resume_returned v value, and_self]

/-- With blind methods, a coercion at a site in use has the result of the chain, which
may be computed with any other site in use. -/
theorem Blind.coerceReentrant_eq {invoke : Invoker (CoercionSite × τ)}
    (blind : Blind width method invoke) (used : InUse width method site)
    (used' : InUse width method other) (v : Value) (strict : Bool) (t : τ) :
    (coerceReentrant invoke v strict (site, t)).1 =
        (Conversion.coerceByChain width method invoke v strict (other, t)).1 ∧
      (coerceReentrant invoke v strict (site, t)).2.2 =
        (Conversion.coerceByChain width method invoke v strict (other, t)).2.2 := by
  have seen : InUse width method (site.see v.shape) := used.select v.shape
  obtain ⟨same_reply, same_state⟩ := blind.same v method [] _ other t seen used'
  have kept := blind.kept v method [] _ t seen
  exact used.coerceReentrant_eq Prod.snd v strict (other, t) kept same_reply same_state

/-- With blind methods, two sites in use coerce alike. -/
theorem Blind.coerceReentrant_same {invoke : Invoker (CoercionSite × τ)}
    (blind : Blind width method invoke) (used : InUse width method site)
    (used' : InUse width method other) (v : Value) (strict : Bool) (t : τ) :
    (coerceReentrant invoke v strict (site, t)).1 =
        (coerceReentrant invoke v strict (other, t)).1 ∧
      (coerceReentrant invoke v strict (site, t)).2.2 =
        (coerceReentrant invoke v strict (other, t)).2.2 := by
  obtain ⟨result, state⟩ := blind.coerceReentrant_eq used used v strict t
  obtain ⟨result', state'⟩ := blind.coerceReentrant_eq used' used v strict t
  exact ⟨result.trans result'.symm, state.trans state'.symm⟩

/-- Methods stay blind when they first coerce a value at the site and go on with the
result. -/
theorem Blind.coerce_then {invoke : Invoker (CoercionSite × τ)}
    {next : Coerced → Invoker (CoercionSite × τ)} (blind : Blind width method invoke)
    (after : ∀ result, Blind width method (next result)) (choose : Value → τ → Value)
    (strict : Bool) :
    Blind width method fun receiver name arguments state =>
      let coerced := coerceReentrant invoke (choose receiver state.2) strict state
      next coerced.1 receiver name arguments coerced.2 := by
  have kept : ∀ v t site, InUse width method site →
      InUse width method (coerceReentrant invoke v strict (site, t)).2.1 := by
    intro v t site used
    apply used.coerceReentrant
    intro name s
    exact blind.kept v name [] s t
  constructor
  · intro receiver name arguments site t used
    exact (after _).kept _ _ _ _ _ (kept _ t site used)
  · intro receiver name arguments site other t used used'
    have first := kept (choose receiver t) t site used
    have first' := kept (choose receiver t) t other used'
    obtain ⟨result, state⟩ := blind.coerceReentrant_same used used' (choose receiver t) strict t
    dsimp only
    generalize coerceReentrant invoke (choose receiver t) strict (site, t) = coerced at *
    generalize coerceReentrant invoke (choose receiver t) strict (other, t) = coerced' at *
    obtain ⟨_, _, _⟩ := coerced
    obtain ⟨_, _, _⟩ := coerced'
    cases result
    cases state
    exact (after _).same receiver name arguments _ _ _ first first'

/-- A coercion at a site in use is the coercion by the chain. -/
theorem InUse.coerce_eq (used : InUse width method site) (invoke : Invoker τ) (v : Value)
    (strict : Bool) (t : τ) :
    (site.coerce invoke v strict t).1 =
        (Conversion.coerceByChain width method invoke v strict t).1 ∧
      (site.coerce invoke v strict t).2.2 =
        (Conversion.coerceByChain width method invoke v strict t).2 := by
  have uncached := (blind_apart width method invoke).coerceReentrant_eq used used v strict t
  rw [Conversion.coerceByChain_apart width method invoke v strict site t]
  exact uncached

theorem InUse.observe_eq (used : InUse width method site) (invoke : Invoker τ) (v : Value)
    (strict : Bool) (t : τ) :
    site.observe invoke v strict t =
      Conversion.coerceByChain width method invoke.recording v strict (t, []) := by
  obtain ⟨result, seen⟩ := used.coerce_eq invoke.recording v strict (t, [])
  exact Prod.ext result seen

/-- Two sites of one width and one method give the same result for a value and make the
same calls of an invoker that is in the same state, namely those of the chain, whatever
either site was used for. It makes no difference if the methods coerce at the site. -/
theorem coerce_transparent (used : InUse width method site) (used' : InUse width method other)
    (v : Value) (strict : Bool) (t : τ) :
    (∀ invoke : Invoker τ,
      site.observe invoke v strict t = other.observe invoke v strict t ∧
        site.observe invoke v strict t =
          Conversion.coerceByChain width method invoke.recording v strict (t, []) ∧
        (site.coerce invoke v strict t).1 = (site.observe invoke v strict t).1 ∧
        (site.coerce invoke v strict t).2.2 = (site.observe invoke v strict t).2.1) ∧
    ∀ invoke : Invoker (CoercionSite × τ), Blind width method invoke →
      (coerceReentrant invoke v strict (site, t)).1 =
          (coerceReentrant invoke v strict (other, t)).1 ∧
        (coerceReentrant invoke v strict (site, t)).2.2 =
          (coerceReentrant invoke v strict (other, t)).2.2 := by
  constructor
  · intro invoke
    have observed := used.observe_eq invoke v strict t
    have observed' := used'.observe_eq invoke v strict t
    obtain ⟨result, state⟩ := used.coerce_eq invoke v strict t
    have viewed := Conversion.coerceByChain_recording width method invoke v strict t []
    refine ⟨observed.trans observed'.symm, observed, ?_, ?_⟩
    · rw [result, observed, viewed]
    · rw [state, observed, viewed]
  · intro invoke blind
    exact blind.coerceReentrant_same used used' v strict t

theorem coerce_transparent_box :
    let table := ⟨Conversion.rules .bits32, RuleTable.indexOf (Conversion.rules .bits32), .chain⟩
    let box := Value.object 0 "Box" []
    let unbox : Invoker Nat := fun _ _ _ count => (.returned (.long 4294967303), count + 1)
    let forgetful := CoercionSite.new ⟨0⟩ .bits32 table 0 "to_int"
    let seasoned := ((CoercionSite.new ⟨1⟩ .bits32 table 8 "to_int").coerce unbox box false 0).2.1
    seasoned.child.isSome = true ∧ InUse .bits32 "to_int" forgetful ∧
      InUse .bits32 "to_int" seasoned ∧
      seasoned.observe unbox box false 0 = (.ok 7, 1, [⟨box, "to_int", []⟩]) := by
  intro table box unbox forgetful seasoned
  have used : InUse .bits32 "to_int" forgetful := .new ⟨0⟩ 0 (Conversion.table_eq .bits32)
  have fresh : InUse .bits32 "to_int" (.new ⟨1⟩ .bits32 table 8 "to_int") :=
    .new ⟨1⟩ 8 (Conversion.table_eq .bits32)
  have used' : InUse .bits32 "to_int" seasoned := fresh.coerce unbox box false 0
  refine ⟨rfl, used, used', ?_⟩
  have chain := (coerce_transparent used' used box false 0).1 unbox
  rw [chain.2.1]
  rfl

end CoercionSite

end AdaptiveDispatch
