import AdaptiveDispatch.Proofs.Coercion.Integers

/-!
# How a coercion comes out

A value that is not asked to convert itself is `Unasked`: an integer is wrapped to the
width, `nil` and the booleans are refused under their own names, and a float or an object
cannot be converted. Floats and objects are the values that are asked, unless the coercion
is strict. They are asked once, and what they return is not asked in its turn, whatever it
is.

`Outcome` has a rule for each course that a coercion can take. It is given the one reply
that there may be, and tells the result together with all calls that are made for it.
Nothing else that a method does can be seen in the outcome, even if it uses the site that
called it.
-/

namespace AdaptiveDispatch

variable {τ : Type}

/-- The values that a refusal mentions by name. -/
inductive Value.Named : Value → String → Prop
  | nil : Named .nil "nil"
  | true : Named (.bool true) "true"
  | false : Named (.bool false) "false"

/-- The values that only they themselves can convert, each with the name of its class. -/
inductive Value.SelfConverting : Value → String → Prop
  | float (x : Double) : SelfConverting (.float x) "Float"
  | object (identity : Identity) (name : String) (fields : List Value) :
      SelfConverting (.object identity name fields) name

theorem Value.SelfConverting.className_eq {v : Value} {name : String}
    (asked : v.SelfConverting name) : v.className = name := by
  cases asked with
  | float x => rfl
  | object identity name fields => rfl

namespace Conversion

variable {width : Width} {method name : String} {v : Value} {result : Coerced}

/-- What a value comes to that is not asked to convert itself. -/
inductive Unasked (width : Width) (v : Value) : Coerced → Prop
  | integer {z : Int} {n : Int64} (meaning : v.integer? = some z)
      (wraps : width.Wraps z n.toInt) : Unasked width v (.ok n)
  | refused {text : String} (named : v.Named text) :
      Unasked width v (.error (.noImplicitConversion text target))
  | inconvertible {name : String} (asking : v.SelfConverting name) :
      Unasked width v (.error (.cantConvert name target))

/-- What a coercion gives, if `reply` is what the method would reply and `after` is the state
in which it would leave the invoker: a result, the state of the invoker and the calls. -/
inductive Outcome (width : Width) (method : String) (v : Value) (strict : Bool) (before : τ)
    (reply : Reply) (after : τ) : Coerced × τ × List MethodCall → Prop
  | uncalled {result : Coerced} (excused : strict = true ∨ ∀ name, ¬v.SelfConverting name)
      (settled : Unasked width v result) :
      Outcome width method v strict before reply after (result, before, [])
  | missing {name : String} (lenient : strict = false) (asked : v.SelfConverting name)
      (replied : reply = .missing) :
      Outcome width method v strict before reply after
        (.error (.missingMethod name method), after, [⟨v, method, []⟩])
  | returned {name : String} {value : Value} {result : Coerced} (lenient : strict = false)
      (asked : v.SelfConverting name) (replied : reply = .returned value)
      (settled : Unasked width value result) :
      Outcome width method v strict before reply after (result, after, [⟨v, method, []⟩])

theorem judgeChain_of_selfConverting (width : Width) (asked : v.SelfConverting name) :
    judgeChain width v = .askReceiver := by
  cases asked with
  | float x => rfl
  | object identity name fields => rfl

/-- The chain leaves it to no other values to convert themselves. -/
theorem exists_settled (width : Width) (excused : ∀ name, ¬v.SelfConverting name) :
    ∃ result, judgeChain width v = .settled result := by
  cases v with
  | float x => exact absurd (.float x) (excused _)
  | object identity name fields => exact absurd (.object identity name fields) (excused _)
  | nil => exact ⟨_, rfl⟩
  | bool b => exact ⟨_, rfl⟩
  | int n => exact ⟨_, rfl⟩
  | long n => exact ⟨_, rfl⟩
  | big z => exact ⟨_, rfl⟩

theorem strictly_of_integer {z : Int} {n : Int64} (meaning : v.integer? = some z)
    (wraps : width.Wraps z n.toInt) : strictly width v = .ok n := by
  obtain ⟨m, settled, value⟩ := judgeChain_of_integer? width meaning
  have same : m = n := Int64.toInt_inj.mp (value.trans ((width.wraps_bmod z).unique wraps))
  rw [strictly, settled, same]

theorem strictly_of_selfConverting (width : Width) (asked : v.SelfConverting name) :
    strictly width v = .error (.cantConvert name target) := by
  rw [strictly, judgeChain_of_selfConverting width asked, ← asked.className_eq]

/-- One result belongs to each value. -/
theorem strictly_eq_iff : strictly width v = result ↔ Unasked width v result := by
  constructor
  · rintro rfl
    have integer : ∀ z, v.integer? = some z → Unasked width v (strictly width v) := by
      intro z meaning
      obtain ⟨n, settled, value⟩ := judgeChain_of_integer? width meaning
      have wraps : width.Wraps z n.toInt := by
        rw [value]
        exact width.wraps_bmod z
      rw [strictly_of_integer meaning wraps]
      exact .integer meaning wraps
    cases v with
    | nil => exact .refused .nil
    | bool b =>
        cases b with
        | true => exact .refused .true
        | false => exact .refused .false
    | int n => exact integer _ rfl
    | long n => exact integer _ rfl
    | big z => exact integer _ rfl
    | float x => exact .inconvertible (.float x)
    | object identity name fields => exact .inconvertible (.object identity name fields)
  · intro settled
    cases settled with
    | integer meaning wraps => exact strictly_of_integer meaning wraps
    | refused named =>
        cases named with
        | nil => rfl
        | true => rfl
        | false => rfl
    | inconvertible asking => exact strictly_of_selfConverting width asking

/-- A strict coercion makes no call, and neither does one of a value that others convert. -/
theorem coerceByChain_of_excused {strict : Bool}
    (excused : strict = true ∨ ∀ name, ¬v.SelfConverting name) (method : String)
    (invoke : Invoker τ) (t : τ) :
    coerceByChain width method invoke v strict t = (strictly width v, t) := by
  unfold coerceByChain strictly
  rcases excused with rfl | others
  · cases judgeChain width v with
    | settled result => rfl
    | askReceiver => rfl
  · obtain ⟨result, settled⟩ := exists_settled width others
    rw [settled]

theorem coerceByChain_of_selfConverting (asked : v.SelfConverting name) (method : String)
    (invoke : Invoker τ) (t : τ) :
    coerceByChain width method invoke v false t =
      match invoke v method [] t with
      | (.missing, t) => (.error (.missingMethod name method), t)
      | (.returned value, t) => (strictly width value, t) := by
  rw [coerceByChain, judgeChain_of_selfConverting width asked, ← asked.className_eq]
  rfl

/-- The chain, with a record of the calls, comes out as the rules say. -/
theorem coerceByChain_eq_iff {strict : Bool} {invoke : Invoker τ} {t : τ}
    {outcome : Coerced × τ × List MethodCall} :
    coerceByChain width method invoke.recording v strict (t, []) = outcome ↔
      Outcome width method v strict t (invoke v method [] t).1 (invoke v method [] t).2
        outcome := by
  have call : invoke.recording v method [] (t, []) = ((invoke v method [] t).1,
      (invoke v method [] t).2, [⟨v, method, []⟩]) := rfl
  generalize invoke v method [] t = answer at call
  obtain ⟨reply, after⟩ := answer
  constructor
  · rintro rfl
    by_cases excused : strict = true ∨ ∀ name, ¬v.SelfConverting name
    · rw [coerceByChain_of_excused excused]
      exact .uncalled excused (strictly_eq_iff.mp rfl)
    · rw [not_or, not_forall_not] at excused
      obtain ⟨lenient, name, asked⟩ := excused
      obtain rfl : strict = false := Bool.eq_false_iff.mpr lenient
      rw [coerceByChain_of_selfConverting asked, call]
      cases reply with
      | missing => exact .missing rfl asked rfl
      | returned value => exact .returned rfl asked rfl (strictly_eq_iff.mp rfl)
  · intro ends
    cases ends with
    | uncalled excused settled =>
        rw [coerceByChain_of_excused excused, strictly_eq_iff.mpr settled]
    | missing lenient asked replied =>
        subst lenient replied
        rw [coerceByChain_of_selfConverting asked, call]
    | returned lenient asked replied settled =>
        subst lenient replied
        rw [coerceByChain_of_selfConverting asked, call]
        exact congrArg (·, after, _) (strictly_eq_iff.mpr settled)

end Conversion

namespace Invoker

/-- The invoker that also keeps a list of the calls it receives, where it may use a site or
anything else that it is handed. -/
def recordingBeside {ρ : Type} (invoke : Invoker (ρ × τ)) :
    Invoker (ρ × τ × List MethodCall) :=
  fun receiver method arguments (site, t, calls) =>
    let (reply, site, t) := invoke receiver method arguments (site, t)
    (reply, site, t, calls ++ [⟨receiver, method, arguments⟩])

/-- An invoker with one answer to all calls. -/
def answering (reply : Reply) (t : τ) : Invoker τ :=
  fun _ _ _ _ => (reply, t)

end Invoker

namespace CoercionSite

/-- A coercion as it is seen from outside, when its methods may use the site. The calls are
those of this coercion, and not those of others that its methods have made meanwhile. -/
def observeReentrant (site : CoercionSite) (invoke : Invoker (CoercionSite × τ)) (v : Value)
    (strict : Bool) (t : τ) : Coerced × τ × List MethodCall :=
  let (result, _, seen) := coerceReentrant invoke.recordingBeside v strict (site, t, [])
  (result, seen)

variable {site : CoercionSite} {width : Width} {method : String}

/-- Of what a method does at the site, only its answer matters. -/
theorem InUse.observeReentrant_eq (used : InUse width method site)
    (invoke : Invoker (CoercionSite × τ)) (v : Value) (strict : Bool) (t : τ)
    (kept : InUse width method (invoke v method [] (site.see v.shape, t)).2.1) :
    let answer := invoke v method [] (site.see v.shape, t)
    site.observeReentrant invoke v strict t =
      Conversion.coerceByChain width method
        (Invoker.answering answer.1 answer.2.2).recording v strict (t, []) := by
  intro answer
  have same_reply : (invoke.recordingBeside v method [] (site.see v.shape, t, [])).1 =
      ((Invoker.answering answer.1 answer.2.2).recording v method [] (t, [])).1 := rfl
  have same_state : (invoke.recordingBeside v method [] (site.see v.shape, t, [])).2.2 =
      id ((Invoker.answering answer.1 answer.2.2).recording v method [] (t, [])).2 := rfl
  obtain ⟨result, seen⟩ :=
    used.coerceReentrant_eq id v strict (t, []) kept same_reply same_state
  exact Prod.ext result seen

/-- Every coercion comes out by the rules, in all states of the site. `nil`, the booleans and
integers never lead to a call, and floats and objects only if the coercion is not strict.
Then the method of the site is called once, on the value and without arguments. It may be
missing, and what it returns is coerced as a strict coercion at any site of the width would
do it, without another call. Methods may use the site as long as they leave it in use. -/
theorem coercion_outcome (used : InUse width method site) (v : Value) (strict : Bool) (t : τ) :
    (∀ (invoke : Invoker τ) (outcome : Coerced × τ × List MethodCall),
      site.observe invoke v strict t = outcome ↔
        Conversion.Outcome width method v strict t (invoke v method [] t).1
          (invoke v method [] t).2 outcome) ∧
      (∀ invoke : Invoker (CoercionSite × τ),
        let answer := invoke v method [] (site.see v.shape, t)
        InUse width method answer.2.1 → ∀ outcome : Coerced × τ × List MethodCall,
          site.observeReentrant invoke v strict t = outcome ↔
            Conversion.Outcome width method v strict t answer.1 answer.2.2 outcome) ∧
      ∀ {other : CoercionSite} {method' : String}, InUse width method' other →
        ∀ (invoke : Invoker τ) (value : Value) (result : Coerced),
          other.observe invoke value true t = (result, t, []) ↔
            Conversion.Unasked width value result := by
  refine ⟨?_, ?_, ?_⟩
  · intro invoke outcome
    rw [used.observe_eq, Conversion.coerceByChain_eq_iff]
  · intro invoke answer kept outcome
    rw [used.observeReentrant_eq invoke v strict t kept, Conversion.coerceByChain_eq_iff]
    rfl
  · intro other method' used' invoke value result
    rw [used'.observe_eq, Conversion.coerceByChain_of_excused (Or.inl rfl),
      ← Conversion.strictly_eq_iff]
    constructor
    · intro same
      exact congrArg Prod.fst same
    · rintro rfl
      rfl

/-- A box whose method coerces the box strictly, and then returns the box. -/
theorem coercion_outcome_box :
    let table := ⟨Conversion.rules .bits32, RuleTable.indexOf (Conversion.rules .bits32), .chain⟩
    let site := CoercionSite.new ⟨0⟩ .bits32 table 2 "to_int"
    let box := Value.object 0 "Box" []
    let unbox : Invoker (CoercionSite × Nat) := fun receiver _ _ (site, count) =>
      (.returned receiver, (site.coerce Invoker.none receiver true count).2.1, count + 1)
    InUse .bits32 "to_int" site ∧
      InUse .bits32 "to_int" (unbox box "to_int" [] (site.see box.shape, 0)).2.1 ∧
      site.observeReentrant unbox box false 0 =
        (.error (.cantConvert "Box" "Integer"), 1, [⟨box, "to_int", []⟩]) := by
  intro table site box unbox
  have used : InUse .bits32 "to_int" site := .new ⟨0⟩ 2 (Conversion.table_eq .bits32)
  have kept : InUse .bits32 "to_int" (unbox box "to_int" [] (site.see box.shape, 0)).2.1 :=
    (used.select box.shape).coerce Invoker.none box true 0
  have boxed : box.SelfConverting "Box" := .object 0 "Box" []
  refine ⟨used, kept, ?_⟩
  apply ((coercion_outcome used box false 0).2.1 unbox kept _).mpr
  exact .returned rfl boxed rfl (.inconvertible boxed)

end CoercionSite

end AdaptiveDispatch
