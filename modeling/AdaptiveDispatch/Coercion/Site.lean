import AdaptiveDispatch.Coercion.Conversion
import AdaptiveDispatch.Coercion.Invoker
import AdaptiveDispatch.Dispatch.Cache
import AdaptiveDispatch.Value.Literal

/-!
# Coercion sites

A coercion site turns values into integers of one width and remembers the shapes it has
seen. A value that has to convert itself is sent the conversion method, once: what the
method returns is coerced strictly, by a child of the site that is made when it is first
needed and shares its number.

A coercion comes in two halves around the call. `start` looks at the value and may end
with a pending call; `resume` takes the reply. Between them the site is an ordinary
value, so the method may use the very site that called it. `coerceReentrant` composes
the halves for such methods, and `coerce` for those that leave the site alone.
-/

namespace AdaptiveDispatch

/-- Why a coercion failed, or the integer it produced. -/
abbrev Coerced := Except Fault.Coercion Int64

structure CoercionSite where
  width : Width
  method : String
  cache : InlineCache Value.Shape Conversion
  child : Option CoercionSite

namespace CoercionSite

/-- What the first half of a coercion ends with: a result, or a method that the value is
still to be sent. -/
inductive Progress where
  | done (result : Coerced)
  | pending (method : String)

/-- A site that has coerced nothing yet. The table is the one for the width. -/
def new (id : SiteId) (width : Width) (table : RuleTable Value.Shape Conversion)
    (limit : Nat) (method : String) : CoercionSite :=
  ⟨width, method, .new id table limit, none⟩

/-- Choose a conversion by the shape of the value, and apply it. -/
def judge (site : CoercionSite) (v : Value) : Judgement × CoercionSite :=
  let (selection, cache) := site.cache.select v.shape
  (selection.implementation.judge site.width v, { site with cache })

/-- Coerce a value that may not be asked to convert itself. -/
def coerceStrictly (site : CoercionSite) (v : Value) : Coerced × CoercionSite :=
  match site.judge v with
  | (.settled result, site) => (result, site)
  | (.askReceiver, site) =>
      (.error (.cantConvert v.className Conversion.target), site)

/-- The child, new if there is none yet. -/
def strictChild (site : CoercionSite) : CoercionSite :=
  site.child.getD
    (.new site.cache.site site.width site.cache.table site.cache.limit site.method)

/-- Everything that happens before the receiver is asked. -/
def start (site : CoercionSite) (v : Value) (strict : Bool) : Progress × CoercionSite :=
  if strict then
    let (result, site) := site.coerceStrictly v
    (.done result, site)
  else
    match site.judge v with
    | (.settled result, site) => (.done result, site)
    | (.askReceiver, site) => (.pending site.method, site)

/-- Everything that happens after the receiver has replied. -/
def resume (site : CoercionSite) (receiver : Value) : Reply → Coerced × CoercionSite
  | .missing => (.error (.missingMethod receiver.className site.method), site)
  | .returned value =>
      let (result, child) := site.strictChild.coerceStrictly value
      (result, { site with child := some child })

/-- Coerce a value with methods that may use the site themselves. -/
def coerceReentrant (invoke : Invoker (CoercionSite × τ)) (v : Value) (strict : Bool)
    (state : CoercionSite × τ) : Coerced × CoercionSite × τ :=
  match state.1.start v strict with
  | (.done result, site) => (result, site, state.2)
  | (.pending method, site) =>
      let (reply, site, t) := invoke v method [] (site, state.2)
      let (result, site) := site.resume v reply
      (result, site, t)

/-- Coerce a value with methods that leave the site alone. -/
def coerce (site : CoercionSite) (invoke : Invoker τ) (v : Value) (strict : Bool) (t : τ) :
    Coerced × CoercionSite × τ :=
  coerceReentrant
    (fun receiver method arguments (site, t) =>
      let (reply, t) := invoke receiver method arguments t
      (reply, site, t))
    v strict (site, t)

/-- Coerce what a literal evaluates to. An integer is taken along the literal's typed
path, past the site. -/
def coerceLiteral (site : CoercionSite) (invoke : Invoker τ) (literal : Literal)
    (strict : Bool) (t : τ) : Coerced × CoercionSite × τ :=
  match literal.asLong with
  | .ok n => (.ok (site.width.truncate n), site, t)
  | .error v => site.coerce invoke v strict t

end CoercionSite

end AdaptiveDispatch
