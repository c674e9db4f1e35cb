import AdaptiveDispatch.Proofs.Coercion.Transparency
import AdaptiveDispatch.Proofs.Engine.Uses

/-!
# The sites of an engine

All sites of an engine are in one registry. A use of the engine under a number is a use of the
site that is registered there, put back in its place, and every other site stays as it is. A
site that is made is registered behind the others, and apart from its number it depends on the
settings and on what it is made for.
-/

namespace AdaptiveDispatch

variable {τ : Type}

theorem SiteId.index_inj {id other : SiteId} : id.index = other.index ↔ id = other := by
  constructor
  · intro same
    cases id
    cases other
    exact congrArg SiteId.mk (UInt32.toNat_inj.mp same)
  · rintro rfl
    rfl

namespace Engine

variable {engine next : Engine} {id other : SiteId} {site : Site}

/-- Replace the site that is registered under a number. -/
def put (engine : Engine) (id : SiteId) (site : Site) : Engine :=
  { engine with sites := engine.sites.set id site }

theorem site?_put (engine : Engine) (id other : SiteId) (site : Site) :
    (engine.put id site).site? other =
      if id = other then (engine.site? other).map fun _ => site else engine.site? other := by
  have set := Registry.get?_set engine.sites id other site
  simp only [SiteId.index_inj] at set
  exact set

theorem site?_put_self (there : engine.site? id = some site) (site' : Site) :
    (engine.put id site').site? id = some site' := by
  rw [site?_put, if_pos rfl, there]
  rfl

theorem site?_put_of_ne (different : id ≠ other) (engine : Engine) (site : Site) :
    (engine.put id site).site? other = engine.site? other := by
  rw [site?_put, if_neg different]

theorem put_put (engine : Engine) (id : SiteId) (site site' : Site) :
    (engine.put id site).put id site' = engine.put id site' := by
  simp only [put, Registry.set, List.set_set]

/-- Nothing changes when a site is put where it is. -/
theorem put_of_site? (there : engine.site? id = some site) : engine.put id site = engine := by
  obtain ⟨bound, rfl⟩ := List.getElem?_eq_some_iff.mp there
  simp only [put, Registry.set, List.set_getElem_self]

theorem useCoercion_of_site? {α : Type} {site : CoercionSite}
    (there : engine.site? id = some (.coercion site)) (use : CoercionSite → α × CoercionSite) :
    engine.useCoercion id use = some ((use site).1, engine.put id (.coercion (use site).2)) := by
  unfold useCoercion
  rw [there]
  rfl

/-- Only a coercion site can be used as one, and it is put back as the use leaves it. -/
theorem useCoercion_eq_some {α : Type} {use : CoercionSite → α × CoercionSite} {a : α}
    (used : engine.useCoercion id use = some (a, next)) :
    ∃ site, engine.site? id = some (.coercion site) ∧
      next = engine.put id (.coercion (use site).2) := by
  rw [useCoercion] at used
  split at used
  · rename_i site there
    cases used
    exact ⟨site, there, rfl⟩
  · cases used

/-- A coercion at a number is a coercion at the site, if its methods leave the engine
alone. -/
theorem coerceAt_of_site? {site : CoercionSite} (there : engine.site? id = some (.coercion site))
    (invoke : Invoker τ) (v : Value) (strict : Bool) (t : τ) :
    coerceAt invoke.apart id v strict (engine, t) =
      some ((site.coerce invoke v strict t).1,
        engine.put id (.coercion (site.coerce invoke v strict t).2.1),
        (site.coerce invoke v strict t).2.2) := by
  unfold coerceAt CoercionSite.coerce CoercionSite.coerceReentrant
  simp only [useCoercion_of_site? there]
  generalize site.start v strict = half
  obtain ⟨progress, started⟩ := half
  cases progress with
  | done result => rfl
  | pending method =>
      have there' := site?_put_self there (.coercion started)
      simp only [Option.pure_def, Option.bind_eq_bind, Option.bind_some, Invoker.apart,
        useCoercion_of_site? there', put_put]

theorem coerceLiteralAt_of_site? {site : CoercionSite}
    (there : engine.site? id = some (.coercion site)) (invoke : Invoker τ) (literal : Literal)
    (strict : Bool) (t : τ) :
    coerceLiteralAt invoke.apart id literal strict (engine, t) =
      some ((site.coerceLiteral invoke literal strict t).1,
        engine.put id (.coercion (site.coerceLiteral invoke literal strict t).2.1),
        (site.coerceLiteral invoke literal strict t).2.2) := by
  simp only [coerceLiteralAt, CoercionSite.coerceLiteral]
  cases literal.asLong with
  | ok n =>
      simp only [useCoercion_of_site? there]
      rfl
  | error v => exact coerceAt_of_site? there invoke v strict t

/-- Use a coercion site of an engine, with methods that leave the engine alone. -/
def performCoercion (engine : Engine) (id : SiteId) :
    CoercionSite.Use τ → Option (CoercionSite.Answer τ × Engine)
  | .coerce invoke v strict t => do
      let (result, engine, t) ← coerceAt invoke.apart id v strict (engine, t)
      return (.coerced result t, engine)
  | .coerceLiteral invoke literal strict t => do
      let (result, engine, t) ← coerceLiteralAt invoke.apart id literal strict (engine, t)
      return (.coerced result t, engine)
  | .select shape => engine.useCoercion id (·.perform (.select shape))
  | .child use => engine.useCoercion id (·.perform (.child use))

/-- Use a site of an engine. A number without a site of the sort has no answer. -/
def perform (engine : Engine) (id : SiteId) : Site.Use τ → Option (Site.Answer τ) × Engine
  | .coercion use =>
      match engine.performCoercion id use with
      | some (answer, engine) => (some (.coercion answer), engine)
      | none => (none, engine)
  | .sequence use =>
      match engine.useSequence id (·.perform use) with
      | some (answer, engine) => (some (.sequence answer), engine)
      | none => (none, engine)

theorem performCoercion_of_site? {site : CoercionSite}
    (there : engine.site? id = some (.coercion site)) (use : CoercionSite.Use τ) :
    engine.performCoercion id use =
      some ((site.perform use).1, engine.put id (.coercion (site.perform use).2)) := by
  cases use with
  | coerce invoke v strict t =>
      simp only [performCoercion, coerceAt_of_site? there]
      rfl
  | coerceLiteral invoke literal strict t =>
      simp only [performCoercion, coerceLiteralAt_of_site? there]
      rfl
  | select shape => exact useCoercion_of_site? there (·.perform (.select shape))
  | child use => exact useCoercion_of_site? there (·.perform (.child use))

theorem useCoercion_eq_none {α : Type}
    (elsewhere : ∀ site, engine.site? id ≠ some (.coercion site))
    (use : CoercionSite → α × CoercionSite) : engine.useCoercion id use = none := by
  unfold useCoercion
  split
  · rename_i site there
    exact absurd there (elsewhere site)
  · rfl

theorem performCoercion_eq_none (elsewhere : ∀ site, engine.site? id ≠ some (.coercion site))
    (use : CoercionSite.Use τ) : engine.performCoercion id use = none := by
  have nothing : ∀ {α : Type} (use : CoercionSite → α × CoercionSite),
      engine.useCoercion id use = none := useCoercion_eq_none elsewhere
  cases use with
  | coerce invoke v strict t =>
      simp only [performCoercion, coerceAt, nothing]
      rfl
  | coerceLiteral invoke literal strict t =>
      simp only [performCoercion, coerceLiteralAt, coerceAt, nothing]
      cases literal.asLong with
      | ok n => rfl
      | error v => rfl
  | select shape => exact nothing (·.perform (.select shape))
  | child use => exact nothing (·.perform (.child use))

/-- A use under a number is a use of the site that is registered there, and of no other. -/
theorem perform_eq (engine : Engine) (id : SiteId) (use : Site.Use τ) :
    engine.perform id use =
      match engine.site? id with
      | some site => ((site.perform use).1, engine.put id (site.perform use).2)
      | none => (none, engine) := by
  cases there : engine.site? id with
  | none =>
      cases use with
      | coercion use =>
          have nothing : engine.performCoercion id use = none :=
            performCoercion_eq_none (by simp [there]) use
          simp only [perform, nothing]
      | sequence use => simp only [perform, useSequence, there]
  | some site =>
      cases site with
      | coercion site =>
          cases use with
          | coercion use =>
              simp only [perform, performCoercion_of_site? there]
              rfl
          | sequence use =>
              simp only [perform, useSequence, there]
              exact congrArg (Prod.mk none) (put_of_site? there).symm
      | sequence site =>
          cases use with
          | coercion use =>
              have nothing : engine.performCoercion id use = none :=
                performCoercion_eq_none (by simp [there]) use
              simp only [perform, nothing]
              exact congrArg (Prod.mk none) (put_of_site? there).symm
          | sequence use =>
              simp only [perform, useSequence, there]
              rfl

theorem perform_of_site? (there : engine.site? id = some site) (use : Site.Use τ) :
    engine.perform id use = ((site.perform use).1, engine.put id (site.perform use).2) := by
  rw [perform_eq, there]

/-- A new site of an engine. Apart from its number it depends on nothing that changes. -/
def newSite (engine : Engine) (kind : Site.Kind) (id : SiteId) : Site :=
  match kind with
  | .coercion width =>
      .coercion (.new id width (engine.conversionTable width) engine.settings.coercionLimit
        engine.settings.conversionMethod)
  | .sequence => .sequence (.new id engine.accessTable engine.settings.sequenceLimit)

theorem newSite_renumber (engine : Engine) (kind : Site.Kind) (id id' : SiteId) :
    (engine.newSite kind id).renumber id' = engine.newSite kind id' := by
  cases kind with
  | coercion width => rfl
  | sequence => rfl

/-- Make a site. -/
def create (engine : Engine) : Site.Kind → Except Fault.Setup (SiteId × Engine)
  | .coercion width => engine.newCoercion width
  | .sequence => engine.newSequence

theorem create_eq (engine : Engine) (kind : Site.Kind) :
    engine.create kind =
      (engine.sites.allocate (engine.newSite kind)).map fun (id, sites) =>
        (id, { engine with sites }) := by
  cases kind with
  | coercion width =>
      show (engine.sites.allocate (engine.newSite (.coercion width))).bind _ = _
      cases engine.sites.allocate (engine.newSite (.coercion width)) with
      | ok made => rfl
      | error fault => rfl
  | sequence =>
      show (engine.sites.allocate (engine.newSite .sequence)).bind _ = _
      cases engine.sites.allocate (engine.newSite .sequence) with
      | ok made => rfl
      | error fault => rfl

/-- A site that is made gets the next number and is registered behind the others. -/
theorem create_eq_ok_iff {kind : Site.Kind} :
    engine.create kind = .ok (id, next) ↔
      id.index = engine.sites.size ∧
        next = { engine with sites := ⟨engine.sites.entries ++ [engine.newSite kind id]⟩ } := by
  rw [create_eq, Registry.allocate]
  cases free : SiteId.ofIndex? engine.sites.size with
  | none =>
      constructor
      · rintro ⟨⟩
      · rintro ⟨number, _⟩
        rw [SiteId.ofIndex?_eq_some_iff.mpr number] at free
        cases free
  | some first =>
      have number := SiteId.ofIndex?_eq_some_iff.mp free
      constructor
      · intro made
        cases made
        exact ⟨number, rfl⟩
      · rintro ⟨number', rfl⟩
        have same : first = id := SiteId.index_inj.mp (number.trans number'.symm)
        rw [same]
        rfl

/-- Where a site is registered, it stays when another is made. -/
theorem site?_create {kind : Site.Kind} (made : engine.create kind = .ok (id, next))
    (there : engine.site? other = some site) : next.site? other = some site := by
  obtain ⟨_, rfl⟩ := create_eq_ok_iff.mp made
  obtain ⟨bound, _⟩ := List.getElem?_eq_some_iff.mp there
  exact (List.getElem?_append_left bound).trans there

theorem site?_create_self {kind : Site.Kind} (made : engine.create kind = .ok (id, next)) :
    next.site? id = some (engine.newSite kind id) := by
  obtain ⟨number, rfl⟩ := create_eq_ok_iff.mp made
  show (engine.sites.entries ++ [_])[id.index]? = _
  rw [number]
  exact List.getElem?_concat_length

/-- Only the site that is made appears. -/
theorem site?_create_of_ne {kind : Site.Kind} (made : engine.create kind = .ok (id, next))
    (there : next.site? other = some site) (different : id ≠ other) :
    engine.site? other = some site := by
  obtain ⟨number, rfl⟩ := create_eq_ok_iff.mp made
  obtain ⟨bound, _⟩ := List.getElem?_eq_some_iff.mp there
  have before : other.index < engine.sites.entries.length := by
    have beyond : other.index ≠ engine.sites.size := by
      intro same
      exact different (SiteId.index_inj.mp (number.trans same.symm))
    rw [List.length_append, List.length_singleton] at bound
    have size : engine.sites.size = engine.sites.entries.length := rfl
    omega
  exact (List.getElem?_append_left before).symm.trans there

theorem accessTable_eq :
    Access.table = .ok ⟨Access.rules, RuleTable.indexOf Access.rules, .generic⟩ :=
  RuleTable.build_eq_ok_iff.mpr ⟨by decide, by decide, by decide, rfl⟩

/-- The engine without sites for some settings. -/
def blank (settings : Settings) : Engine where
  settings
  narrowTable := ⟨Conversion.rules .bits32, RuleTable.indexOf (Conversion.rules .bits32), .chain⟩
  wideTable := ⟨Conversion.rules .bits64, RuleTable.indexOf (Conversion.rules .bits64), .chain⟩
  accessTable := ⟨Access.rules, RuleTable.indexOf Access.rules, .generic⟩
  sites := .empty

/-- Nothing but the settings can be at fault when an engine is made. -/
theorem new_eq (settings : Settings) :
    Engine.new settings = settings.validate.map fun _ => blank settings := by
  rw [Engine.new, Conversion.table_eq, Conversion.table_eq, accessTable_eq]
  cases settings.validate with
  | error fault => rfl
  | ok _ => rfl

theorem new_eq_ok_iff {settings : Settings} :
    Engine.new settings = .ok engine ↔ settings.validate = .ok () ∧ engine = blank settings := by
  rw [new_eq]
  cases settings.validate with
  | error fault => simp [Except.map]
  | ok _ => simp [Except.map, eq_comm]

/-- An engine starts without sites. -/
theorem site?_new {settings : Settings} (built : Engine.new settings = .ok engine) (id : SiteId) :
    engine.site? id = none := by
  obtain ⟨_, rfl⟩ := new_eq_ok_iff.mp built
  rfl

end Engine

end AdaptiveDispatch
