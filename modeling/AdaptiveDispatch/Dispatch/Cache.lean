import AdaptiveDispatch.Dispatch.Registry
import AdaptiveDispatch.Dispatch.Table
import AdaptiveDispatch.Double.Basic

/-!
# Inline caches

An inline cache belongs to one site. It starts out empty, and the first time it sees a
shape that a rule accepts it installs an entry for the shape, until it holds as many as
its limit. From then on it is megamorphic: the installed shapes are still found, and a
new one takes the fallback without being remembered.

`select` is the whole behaviour. It returns the implementation for a shape together with
the route by which it was found, and the cache as it is afterwards.
-/

namespace AdaptiveDispatch

/-- An installed shape with the rule it came from and its place in the order of
installation. -/
structure CacheEntry (σ ι : Type) where
  shape : σ
  rule : String
  order : Nat
  implementation : ι

/-- How a call found its implementation. -/
inductive Route where
  | cached (order : Nat)
  | installed (order : Nat)
  | generic
  deriving DecidableEq

structure Selection (ι : Type) where
  implementation : ι
  route : Route

/-- How many calls took each kind of route. -/
structure RouteCounts where
  hits : Nat := 0
  installs : Nat := 0
  generic : Nat := 0
  deriving DecidableEq

namespace RouteCounts

/-- The counts as 64-bit counters show them. -/
def snapshot (counts : RouteCounts) : RouteCounts where
  hits := counts.hits % UInt64.size
  installs := counts.installs % UInt64.size
  generic := counts.generic % UInt64.size

/-- The percentage of calls that were hits, as far as the counters show it, in double
precision. -/
def hitRate (counts : RouteCounts) : Double :=
  let shown := counts.snapshot
  let total := shown.hits + shown.installs + shown.generic
  if total = 0 then .ofFloat 0.0
  else .ofFloat (Float.ofNat shown.hits / Float.ofNat total * 100.0)

end RouteCounts

/-- How many shapes a cache has seen: none, one, some, or more than it can hold. -/
inductive Profile where
  | uninitialized
  | monomorphic
  | polymorphic
  | megamorphic
  deriving DecidableEq

namespace Profile

def all : List Profile :=
  [.uninitialized, .monomorphic, .polymorphic, .megamorphic]

theorem mem_all (profile : Profile) : profile ∈ all := by
  cases profile <;> decide

def label : Profile → String
  | .uninitialized => "uninitialized"
  | .monomorphic => "monomorphic"
  | .polymorphic => "polymorphic"
  | .megamorphic => "megamorphic"

end Profile

structure InlineCache (σ ι : Type) where
  site : SiteId
  table : RuleTable σ ι
  limit : Nat
  entries : List (CacheEntry σ ι) := []
  saturated : Bool := false
  counts : RouteCounts := {}

namespace InlineCache

variable {σ ι : Type} [DecidableEq σ]

/-- A cache that has seen no shape yet. -/
def new (site : SiteId) (table : RuleTable σ ι) (limit : Nat) : InlineCache σ ι :=
  { site, table, limit }

/-- The installed entry for a shape. -/
def find? (cache : InlineCache σ ι) (shape : σ) : Option (CacheEntry σ ι) :=
  cache.entries.find? fun entry => decide (entry.shape = shape)

/-- Answer with an installed entry. -/
def hit (cache : InlineCache σ ι) (entry : CacheEntry σ ι) :
    Selection ι × InlineCache σ ι :=
  (⟨entry.implementation, .cached entry.order⟩,
    { cache with counts.hits := cache.counts.hits + 1 })

/-- Answer with the fallback. -/
def fallBack (cache : InlineCache σ ι) : Selection ι × InlineCache σ ι :=
  (⟨cache.table.fallback, .generic⟩,
    { cache with counts.generic := cache.counts.generic + 1 })

/-- Answer with a rule, and install it for the shape behind the other entries. -/
def install (cache : InlineCache σ ι) (shape : σ) (rule : Rule σ ι) :
    Selection ι × InlineCache σ ι :=
  let order := cache.entries.length
  (⟨rule.implementation, .installed order⟩,
    { cache with
      entries := cache.entries ++ [⟨shape, rule.name, order, rule.implementation⟩]
      counts.installs := cache.counts.installs + 1 })

/-- Choose the implementation for a call with a shape. -/
def select (cache : InlineCache σ ι) (shape : σ) : Selection ι × InlineCache σ ι :=
  match cache.find? shape with
  | some entry => cache.hit entry
  | none =>
      match cache.table.ruleFor? shape with
      | none => cache.fallBack
      | some (_, rule) =>
          if cache.limit ≤ cache.entries.length then
            { cache with saturated := true }.fallBack
          else
            cache.install shape rule

theorem select_of_find?_eq_some {cache : InlineCache σ ι} {shape : σ}
    {entry : CacheEntry σ ι} (found : cache.find? shape = some entry) :
    cache.select shape = cache.hit entry := by
  simp only [select, found]

/-- A shape that no rule accepts takes the fallback and changes only a counter. -/
theorem select_of_ruleFor?_eq_none {cache : InlineCache σ ι} {shape : σ}
    (unseen : cache.find? shape = none) (unruled : cache.table.ruleFor? shape = none) :
    cache.select shape = cache.fallBack := by
  simp only [select, unseen, unruled]

theorem select_of_full {cache : InlineCache σ ι} {shape : σ} {position : Nat}
    {rule : Rule σ ι} (unseen : cache.find? shape = none)
    (ruled : cache.table.ruleFor? shape = some (position, rule))
    (full : cache.limit ≤ cache.entries.length) :
    cache.select shape = { cache with saturated := true }.fallBack := by
  simp only [select, unseen, ruled, if_pos full]

theorem select_of_room {cache : InlineCache σ ι} {shape : σ} {position : Nat}
    {rule : Rule σ ι} (unseen : cache.find? shape = none)
    (ruled : cache.table.ruleFor? shape = some (position, rule))
    (room : cache.entries.length < cache.limit) :
    cache.select shape = cache.install shape rule := by
  simp only [select, unseen, ruled, if_neg (Nat.not_le_of_lt room)]

omit [DecidableEq σ]

/-- A cache becomes megamorphic when it turns away a shape for want of room. -/
def profile (cache : InlineCache σ ι) : Profile :=
  if cache.saturated then .megamorphic
  else
    match cache.entries with
    | [] => .uninitialized
    | [_] => .monomorphic
    | _ :: _ :: _ => .polymorphic

/-- One line about a cache, for logs. -/
def summary (cache : InlineCache σ ι) : String :=
  "SpecializingNode \x7b site: CallSiteId(" ++ toString cache.site.index ++
    "), installed: " ++ toString cache.entries.length ++
    ", limit: " ++ toString cache.limit ++ " \x7d"

end InlineCache

end AdaptiveDispatch
