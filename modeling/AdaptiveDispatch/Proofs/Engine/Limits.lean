import AdaptiveDispatch.Proofs.Coercion.Judgement
import AdaptiveDispatch.Proofs.Engine.Bookkeeping
import AdaptiveDispatch.Proofs.Session.Moves
import Mathlib.Data.List.Perm.Subperm

/-!
# The settings of an engine hold for ever

Settings pass if both limits are in range, and the first one out of range is reported. The
engine that is made then hands each site its own limit, and a coercion site hands its limit
and its method on to its child, which may do the same. A cache never holds more shapes than
its limit allows, nor more than there are. So the bounds hold at any moment of any use of the
engine.
-/

namespace AdaptiveDispatch

/-- No run of calls has more newcomers than there are shapes. -/
theorem RuleTable.length_newcomers_le_domain {σ ι : Type} [DecidableEq σ] [ShapeDomain σ]
    (all : ∀ shape : σ, shape ∈ ShapeDomain.domain) (table : RuleTable σ ι) (run : List σ) :
    (table.newcomers run).length ≤ (ShapeDomain.domain (σ := σ)).length := by
  have sub := List.subperm_of_subset (table.nodup_newcomers run) fun shape _ => all shape
  exact sub.length_le

/-- A new cache that has seen some shapes is bounded by its limit and by the number of
shapes. -/
theorem InlineCache.length_entries_after_le {σ ι : Type} [DecidableEq σ] [ShapeDomain σ]
    (all : ∀ shape : σ, shape ∈ ShapeDomain.domain) {table : RuleTable σ ι} (valid : table.Valid)
    (site : SiteId) (limit : Nat) (run : List σ) :
    ((new site table limit).after run).entries.length ≤
      min limit (ShapeDomain.domain (σ := σ)).length := by
  have bound := table.length_newcomers_le_domain all run
  rw [(holds_after valid site limit run).length_eq, after_limit]
  show min limit (table.newcomers run).length ≤ _
  omega

namespace Settings

variable {settings : Settings}

/-- The first limit is checked first. -/
theorem validate_eq (settings : Settings) :
    settings.validate =
      if settings.coercionLimit ≤ 64 then
        if settings.sequenceLimit ≤ 64 then .ok ()
        else .error (.invalidLimit "storage_strategy_limit" settings.sequenceLimit 64)
      else .error (.invalidLimit "specialization_limit" settings.coercionLimit 64) := by
  rw [validate, checkLimit, checkLimit, greatestLimit]
  split
  · rfl
  · rfl

theorem validate_eq_ok_iff :
    settings.validate = .ok () ↔ settings.coercionLimit ≤ 64 ∧ settings.sequenceLimit ≤ 64 := by
  rw [validate_eq]
  by_cases first : settings.coercionLimit ≤ 64
  · by_cases second : settings.sequenceLimit ≤ 64
    · simp [first, second]
    · simp [first, second]
  · simp [first]

end Settings

/-- A coercion site as the settings want it. -/
structure CoercionSite.Within (site : CoercionSite) (settings : Settings) : Prop where
  method : site.method = settings.conversionMethod
  limit : site.cache.limit = settings.coercionLimit
  entries : site.cache.entries.length ≤ min settings.coercionLimit 7

/-- A site that reads sequences, as the settings want it. -/
structure SequenceSite.Within (site : SequenceSite) (settings : Settings) : Prop where
  limit : site.cache.limit = settings.sequenceLimit
  entries : site.cache.entries.length ≤ min settings.sequenceLimit 6

/-- A site as the settings want it. A coercion site is so with its child and all sites below. -/
def Site.Within (settings : Settings) : Site → Prop
  | .coercion site => ∀ node, site.Node node → node.Within settings
  | .sequence site => site.Within settings

theorem Conversion.valid_table (width : Width) :
    (⟨rules width, RuleTable.indexOf (rules width), .chain⟩ :
      RuleTable Value.Shape Conversion).Valid :=
  .of_build (table_eq width)

namespace CoercionSite

/-- What the settings want of a new coercion site stays so. -/
theorem within_taken_new {settings : Settings} {table : RuleTable Value.Shape Conversion}
    (valid : table.Valid) (id : SiteId) (width : Width) (steps : List Step) :
    ((new id width table settings.coercionLimit settings.conversionMethod).taken steps).Within
      settings := by
  obtain ⟨shapes, child, state⟩ := taken_own
    (new id width table settings.coercionLimit settings.conversionMethod) steps
  rw [state]
  exact ⟨rfl, InlineCache.after_limit _ shapes,
    InlineCache.length_entries_after_le Value.Shape.mem_domain valid id _ shapes⟩

end CoercionSite

namespace Engine

variable {τ : Type} {settings : Settings} {engine : Engine} {id : SiteId} {site : Site}

/-- Every site is as the settings want it, after any moves of a new engine. -/
theorem within_moved (built : Engine.new settings = .ok engine) {moves : List (Move τ)}
    (there : (engine.moved moves).site? id = some site) : site.Within settings := by
  have absent := site?_new built id
  obtain ⟨_, rfl⟩ := new_eq_ok_iff.mp built
  cases site with
  | coercion site =>
      obtain ⟨width, steps, reached⟩ := eq_taken_new absent there
      have valid : ((blank settings).conversionTable width).Valid := by
        cases width with
        | bits32 => exact Conversion.valid_table .bits32
        | bits64 => exact Conversion.valid_table .bits64
      intro node at_site
      obtain ⟨own, rfl⟩ := at_site.exists_steps reached
      exact CoercionSite.within_taken_new valid id width own
  | sequence site =>
      obtain ⟨kinds, cache⟩ := eq_after_new absent there
      have valid : (blank settings).accessTable.Valid := .of_build accessTable_eq
      constructor
      · rw [cache]
        exact InlineCache.after_limit _ kinds
      · rw [cache]
        exact InlineCache.length_entries_after_le Store.Kind.mem_domain valid id _ kinds

/-- An engine is made exactly for settings with both limits in range. The first limit is
checked first, and an error has its name and its value. Each site of an engine that is made
has its own limit and method from the settings, and so have the child of a coercion site and
all sites below. No cache exceeds its limit or the number of shapes there are. This holds after
any moves, which is what clients and sessions come down to. -/
theorem limits_hold (settings : Settings) :
    ((∃ engine, Engine.new settings = .ok engine) ↔
        settings.coercionLimit ≤ 64 ∧ settings.sequenceLimit ≤ 64) ∧
      (64 < settings.coercionLimit → Engine.new settings =
        .error (.invalidLimit "specialization_limit" settings.coercionLimit 64)) ∧
      (settings.coercionLimit ≤ 64 → 64 < settings.sequenceLimit → Engine.new settings =
        .error (.invalidLimit "storage_strategy_limit" settings.sequenceLimit 64)) ∧
      ∀ engine, Engine.new settings = .ok engine →
        (∀ (moves : List (Move τ)) (id : SiteId) (site : Site),
          (engine.moved moves).site? id = some site → site.Within settings) ∧
        (∀ (client : Client τ) (id : SiteId) (site : Site),
          (client.run engine).2.1.site? id = some site → site.Within settings) ∧
        ∀ (session : Session) (requests : List Session.Request) (id : SiteId) (site : Site),
          session.engine = engine →
            (session.answerAll requests).engine.site? id = some site → site.Within settings := by
  refine ⟨?_, ?_, ?_, ?_⟩
  · rw [← Settings.validate_eq_ok_iff]
    constructor
    · rintro ⟨engine, built⟩
      exact (new_eq_ok_iff.mp built).1
    · intro valid
      exact ⟨_, new_eq_ok_iff.mpr ⟨valid, rfl⟩⟩
  · intro large
    rw [new_eq, Settings.validate_eq, if_neg (Nat.not_le_of_lt large)]
    rfl
  · intro fits large
    rw [new_eq, Settings.validate_eq, if_pos fits, if_neg (Nat.not_le_of_lt large)]
    rfl
  · intro engine built
    refine ⟨fun moves id site there => within_moved built there, ?_, ?_⟩
    · intro client id site there
      obtain ⟨moves, state⟩ := client.run_moves engine
      rw [state] at there
      exact within_moved built there
    · rintro session requests id site rfl there
      obtain ⟨moves, state⟩ := session.reaches_answerAll requests
      rw [state] at there
      exact within_moved built there

/-- With a limit of one, a site that is asked for two shapes and its child. -/
theorem limits_hold_monomorphic :
    let box : Value := .object 0 "Box" []
    let moves : List (Move Unit) :=
      [.create (.coercion .bits32), .touch ⟨0⟩ (.start box false),
        .touch ⟨0⟩ (.resume box (.returned (.long 7))), .touch ⟨0⟩ (.start .nil false)]
    let engine := blank .monomorphic
    Engine.new .monomorphic = .ok engine ∧
      (∃ site child, (engine.moved moves).site? ⟨0⟩ = some (.coercion site) ∧
        site.child = some child ∧ site.Within .monomorphic ∧ child.Within .monomorphic) ∧
      Engine.new { sequenceLimit := 65 } = .error (.invalidLimit "storage_strategy_limit" 65 64) ∧
      Engine.new { coercionLimit := 66, sequenceLimit := 65 } =
        .error (.invalidLimit "specialization_limit" 66 64) := by
  intro box moves engine
  obtain ⟨_, _, _, holds⟩ := limits_hold (τ := Unit) .monomorphic
  have built : Engine.new .monomorphic = .ok engine := new_eq_ok_iff.mpr ⟨rfl, rfl⟩
  refine ⟨built, ⟨_, _, rfl, rfl, ?_⟩, ?_, ?_⟩
  · have within := (holds engine built).1 moves ⟨0⟩ _ rfl
    exact ⟨within _ (.self _), within _ (.child rfl (.self _))⟩
  · exact (limits_hold (τ := Unit) { sequenceLimit := 65 }).2.2.1 (by decide) (by decide)
  · exact (limits_hold (τ := Unit) { coercionLimit := 66, sequenceLimit := 65 }).2.1 (by decide)

end Engine

end AdaptiveDispatch
