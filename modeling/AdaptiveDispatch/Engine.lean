import AdaptiveDispatch.Coercion.Site
import AdaptiveDispatch.Sequence.Site
import AdaptiveDispatch.Settings

/-!
# Engines

An engine holds settings that have been validated, the rule tables built from them, and
the registry of all sites made so far. A site is used through its number: its part of
the registry is replaced by what it becomes, and the rest stays as it is.

Asking for a site of one sort under the number of another gives nothing.
-/

namespace AdaptiveDispatch

inductive Site where
  | coercion (site : CoercionSite)
  | sequence (site : SequenceSite)

/-- A coercion site is profiled without its child. -/
def Site.profile : Site → Profile
  | .coercion site => site.cache.profile
  | .sequence site => site.cache.profile

structure Engine where
  settings : Settings
  narrowTable : RuleTable Value.Shape Conversion
  wideTable : RuleTable Value.Shape Conversion
  accessTable : RuleTable Store.Kind Access
  sites : Registry Site

namespace Engine

/-- An engine without sites, if the settings are valid. -/
def new (settings : Settings) : Except Fault.Setup Engine := do
  settings.validate
  let narrowTable ← Conversion.table .bits32
  let wideTable ← Conversion.table .bits64
  let accessTable ← Access.table
  return { settings, narrowTable, wideTable, accessTable, sites := .empty }

def conversionTable (engine : Engine) : Width → RuleTable Value.Shape Conversion
  | .bits32 => engine.narrowTable
  | .bits64 => engine.wideTable

/-- Make a site for coercions to a width. -/
def newCoercion (engine : Engine) (width : Width) : Except Fault.Setup (SiteId × Engine) := do
  let (id, sites) ← engine.sites.allocate fun id =>
    .coercion (.new id width (engine.conversionTable width) engine.settings.coercionLimit
      engine.settings.conversionMethod)
  return (id, { engine with sites })

/-- Make a site for reading sequences. -/
def newSequence (engine : Engine) : Except Fault.Setup (SiteId × Engine) := do
  let (id, sites) ← engine.sites.allocate fun id =>
    .sequence (.new id engine.accessTable engine.settings.sequenceLimit)
  return (id, { engine with sites })

def site? (engine : Engine) (id : SiteId) : Option Site :=
  engine.sites.get? id

/-- The number of sites of each profile that some site has. -/
def census (engine : Engine) : List (Profile × Nat) :=
  engine.sites.census Site.profile Profile.all

/-- What is raised by the use of a site that is of another sort. -/
def wrongSort (id : SiteId) : Fault :=
  .raised s!"{id.display} is of another sort"

/-- Use a coercion site. -/
def useCoercion (engine : Engine) (id : SiteId) (use : CoercionSite → α × CoercionSite) :
    Option (α × Engine) :=
  match engine.site? id with
  | some (.coercion site) =>
      let (a, site) := use site
      some (a, { engine with sites := engine.sites.set id (.coercion site) })
  | _ => none

/-- Use a site that reads sequences. -/
def useSequence (engine : Engine) (id : SiteId) (use : SequenceSite → α × SequenceSite) :
    Option (α × Engine) :=
  match engine.site? id with
  | some (.sequence site) =>
      let (a, site) := use site
      some (a, { engine with sites := engine.sites.set id (.sequence site) })
  | _ => none

/-- Coerce a value at a site, with methods that may use any site of the engine. -/
def coerceAt (invoke : Invoker (Engine × τ)) (id : SiteId) (v : Value) (strict : Bool)
    (state : Engine × τ) : Option (Coerced × Engine × τ) := do
  let (progress, engine) ← state.1.useCoercion id (·.start v strict)
  match progress with
  | .done result => return (result, engine, state.2)
  | .pending method =>
      let (reply, engine, t) := invoke v method [] (engine, state.2)
      let (result, engine) ← engine.useCoercion id (·.resume v reply)
      return (result, engine, t)

/-- Coerce what a literal evaluates to at a site. An integer is taken along the
literal's typed path, past the site. -/
def coerceLiteralAt (invoke : Invoker (Engine × τ)) (id : SiteId) (literal : Literal)
    (strict : Bool) (state : Engine × τ) : Option (Coerced × Engine × τ) :=
  match literal.asLong with
  | .error v => coerceAt invoke id v strict state
  | .ok n => do
      let (result, engine) ← state.1.useCoercion id fun site => (site.width.truncate n, site)
      return (.ok result, engine, state.2)

end Engine

end AdaptiveDispatch
