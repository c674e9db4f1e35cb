import AdaptiveDispatch.Proofs.Coercion.Outcome
import AdaptiveDispatch.Proofs.Value.Paths

/-!
# Coercing literals

A literal that evaluates to an integer of a fixed width is coerced without its value being
boxed: the site only lends its width. The result is that of a coercion of the boxed value,
and no method would be called for it either, but the site does not get to see the shape.
Any other literal is boxed and coerced in the ordinary way.

Thus a site that coerces one literal over and over either learns nothing at all or exactly
what the boxed values would teach it, and the results do not tell which.
-/

namespace AdaptiveDispatch

variable {τ : Type}

/-- All typed paths to a 64-bit integer agree with the boxed value. -/
theorem Literal.asLong_eq (literal : Literal) :
    literal.asLong =
      match literal.value.fixnum? with
      | some n => .ok n
      | none => .error literal.value := by
  change literal.along .long = _
  cases fixed : literal.value.fixnum? with
  | some n => exact along_of_unbox?_eq_some fixed
  | none => exact along_of_unbox?_eq_none fixed

theorem Conversion.judgeChain_of_fixnum? (width : Width) {v : Value} {n : Int64}
    (fixed : v.fixnum? = some n) :
    judgeChain width v = .settled (.ok (width.truncate n)) := by
  cases v with
  | int m =>
      cases fixed
      rfl
  | long m =>
      cases fixed
      rfl
  | nil => cases fixed
  | bool b => cases fixed
  | big z => cases fixed
  | float x => cases fixed
  | object identity name fields => cases fixed

namespace CoercionSite

/-- Coerce what a literal evaluates to, with methods that may use the site themselves. -/
def coerceLiteralReentrant (invoke : Invoker (CoercionSite × τ)) (literal : Literal)
    (strict : Bool) (state : CoercionSite × τ) : Coerced × CoercionSite × τ :=
  match literal.asLong with
  | .ok n => (.ok (state.1.width.truncate n), state)
  | .error v => coerceReentrant invoke v strict state

theorem coerceLiteral_eq (site : CoercionSite) (invoke : Invoker τ) (literal : Literal)
    (strict : Bool) (t : τ) :
    site.coerceLiteral invoke literal strict t =
      coerceLiteralReentrant invoke.apart literal strict (site, t) := by
  unfold coerceLiteral coerceLiteralReentrant
  cases literal.asLong with
  | ok n => rfl
  | error v => rfl

/-- Make one coercion after the other, each with an invoker of its own. -/
def inTurn (coerce : Invoker (CoercionSite × τ) → CoercionSite × τ → Coerced × CoercionSite × τ) :
    List (Invoker (CoercionSite × τ)) → CoercionSite × τ → List Coerced × CoercionSite × τ
  | [], state => ([], state)
  | invoke :: rest, state =>
      let (result, state) := coerce invoke state
      let (results, state) := inTurn coerce rest state
      (result :: results, state)

variable {site : CoercionSite} {width : Width} {method : String} {literal : Literal}
  {n : Int64} {strict : Bool}

theorem coerceLiteralReentrant_of_boxed (boxed : literal.value.fixnum? = none)
    (invoke : Invoker (CoercionSite × τ)) (state : CoercionSite × τ) :
    coerceLiteralReentrant invoke literal strict state =
      coerceReentrant invoke literal.value strict state := by
  rw [coerceLiteralReentrant, literal.asLong_eq, boxed]

theorem InUse.coerceLiteralReentrant_of_fixed (used : InUse width method site)
    (fixed : literal.value.fixnum? = some n) (invoke : Invoker (CoercionSite × τ)) (t : τ) :
    coerceLiteralReentrant invoke literal strict (site, t) =
      (.ok (width.truncate n), site, t) := by
  rw [coerceLiteralReentrant, literal.asLong_eq, fixed, ← used.sound.1.width_eq]

/-- The boxed value of such a literal has the same result, and the site sees its shape. -/
theorem InUse.coerceReentrant_of_fixed (used : InUse width method site) {v : Value}
    (fixed : v.fixnum? = some n) (invoke : Invoker (CoercionSite × τ)) (t : τ) :
    CoercionSite.coerceReentrant invoke v strict (site, t) =
      (.ok (width.truncate n), site.see v.shape, t) :=
  used.sound.1.coerceReentrant_of_settled (Conversion.judgeChain_of_fixnum? width fixed) strict
    invoke t

/-- Along the typed path, a site is left alone by any number of coercions. -/
theorem InUse.inTurn_literal_of_fixed (used : InUse width method site)
    (fixed : literal.value.fixnum? = some n) (invokers : List (Invoker (CoercionSite × τ)))
    (t : τ) :
    inTurn (coerceLiteralReentrant · literal strict) invokers (site, t) =
      (invokers.map fun _ => .ok (width.truncate n), site, t) := by
  induction invokers with
  | nil => rfl
  | cons invoke rest ih =>
      simp only [inTurn, used.coerceLiteralReentrant_of_fixed fixed, ih, List.map_cons]

theorem InUse.inTurn_of_fixed (used : InUse width method site) {v : Value}
    (fixed : v.fixnum? = some n) (strict : Bool) (invokers : List (Invoker (CoercionSite × τ)))
    (t : τ) :
    ∃ after, inTurn (CoercionSite.coerceReentrant · v strict) invokers (site, t) =
      (invokers.map fun _ => .ok (width.truncate n), after, t) := by
  induction invokers generalizing site with
  | nil => exact ⟨site, rfl⟩
  | cons invoke rest ih =>
      obtain ⟨after, later⟩ := ih (used.select v.shape)
      refine ⟨after, ?_⟩
      simp only [inTurn, used.coerceReentrant_of_fixed fixed]
      rw [show inTurn _ rest (site.see v.shape, t) = _ from later]
      rfl

theorem InUse.coerceLiteralReentrant_eq (used : InUse width method site) (literal : Literal)
    (strict : Bool) (invoke : Invoker (CoercionSite × τ)) (t : τ) :
    let direct := CoercionSite.coerceReentrant invoke literal.value strict (site, t)
    coerceLiteralReentrant invoke literal strict (site, t) =
      (direct.1, if literal.value.shape.isFixnum then site else direct.2.1, direct.2.2) := by
  intro direct
  rw [← Value.isSome_fixnum?]
  cases fixed : literal.value.fixnum? with
  | some n =>
      rw [used.coerceLiteralReentrant_of_fixed fixed,
        show direct = _ from used.coerceReentrant_of_fixed fixed invoke t]
      rfl
  | none => exact coerceLiteralReentrant_of_boxed fixed invoke (site, t)

/-- Coercions of a literal, compared with coercions of its boxed value. -/
theorem InUse.inTurn_literal (used : InUse width method site) (literal : Literal)
    (strict : Bool) (invokers : List (Invoker (CoercionSite × τ))) (t : τ) :
    let direct := inTurn (CoercionSite.coerceReentrant · literal.value strict) invokers (site, t)
    inTurn (coerceLiteralReentrant · literal strict) invokers (site, t) =
      (direct.1, if literal.value.shape.isFixnum then site else direct.2.1, direct.2.2) := by
  intro direct
  rw [← Value.isSome_fixnum?]
  cases fixed : literal.value.fixnum? with
  | some n =>
      obtain ⟨after, same⟩ := used.inTurn_of_fixed fixed strict invokers t
      rw [used.inTurn_literal_of_fixed fixed, show direct = _ from same]
      rfl
  | none =>
      have alike : (fun invoke : Invoker (CoercionSite × τ) =>
          coerceLiteralReentrant invoke literal strict) =
          fun invoke => CoercionSite.coerceReentrant invoke literal.value strict := by
        funext invoke state
        exact coerceLiteralReentrant_of_boxed fixed invoke state
      rw [alike]
      rfl

/-- A coercion of a literal has the result of a coercion of its boxed value, and the same
calls are made for it. It leaves the site and the strict child as they are if the value is
an integer of a fixed width, and otherwise as the other coercion leaves them. The same goes
for any number of coercions of the literal one after the other, with any methods, also
with ones that use the site. -/
theorem literal_coercion_unboxed (used : InUse width method site) (literal : Literal)
    (strict : Bool) (t : τ) :
    (∀ invoke : Invoker τ,
      let direct := site.coerce invoke.recording literal.value strict (t, [])
      site.coerceLiteral invoke.recording literal strict (t, []) =
        (direct.1, if literal.value.shape.isFixnum then site else direct.2.1, direct.2.2)) ∧
      ∀ invokers : List (Invoker (CoercionSite × τ)),
        let recording := invokers.map Invoker.recordingBeside
        let direct := inTurn (coerceReentrant · literal.value strict) recording (site, t, [])
        inTurn (coerceLiteralReentrant · literal strict) recording (site, t, []) =
          (direct.1, if literal.value.shape.isFixnum then site else direct.2.1, direct.2.2) := by
  constructor
  · intro invoke direct
    rw [coerceLiteral_eq]
    exact used.coerceLiteralReentrant_eq literal strict invoke.recording.apart (t, [])
  · intro invokers recording
    exact used.inTurn_literal literal strict recording (t, [])

/-- A site that knows objects coerces a 64-bit integer to 32 bits twice. -/
theorem literal_coercion_unboxed_twice :
    let table := ⟨Conversion.rules .bits32, RuleTable.indexOf (Conversion.rules .bits32), .chain⟩
    let site := (CoercionSite.new ⟨0⟩ .bits32 table 2 "to_int").see .object
    let long := Literal.boxed (.long 4294967299)
    let idle : Invoker (CoercionSite × Nat) := Invoker.none
    InUse .bits32 "to_int" site ∧
      inTurn (coerceLiteralReentrant · long false) ([idle, idle].map Invoker.recordingBeside)
        (site, 0, []) = ([.ok 3, .ok 3], site, 0, []) := by
  intro table site long idle
  have used : InUse .bits32 "to_int" site :=
    InUse.select (.new ⟨0⟩ 2 (Conversion.table_eq .bits32)) .object
  refine ⟨used, ?_⟩
  rw [(literal_coercion_unboxed used long false 0).2 [idle, idle]]
  rfl

end CoercionSite

end AdaptiveDispatch
