import AdaptiveDispatch.Proofs.Engine.Clients
import Mathlib.Algebra.GroupWithZero.Nat

/-!
# What the registry of an engine records

The registry gives out numbers, finds sites by them and counts sites by profile. Whatever
clients do to the engine, these stay in step. A site gets the number of sites made before
it, is found under it ever after in the state that its own moves lead to, and is counted
once, with its present profile.

A strict child carries the number of its parent, and so does every site below it, but only
the parent is registered. The count does not look at children.
-/

namespace AdaptiveDispatch

variable {τ : Type}

namespace Registry

variable {α κ : Type} [DecidableEq κ]

/-- The number of entries in a class. -/
def population (registry : Registry α) (classify : α → κ) (kind : κ) : Nat :=
  registry.entries.countP fun entry => decide (classify entry = kind)

theorem census_cons (registry : Registry α) (classify : α → κ) (kind : κ) (rest : List κ) :
    registry.census classify (kind :: rest) =
      if registry.population classify kind = 0 then registry.census classify rest
      else (kind, registry.population classify kind) :: registry.census classify rest := by
  by_cases vacant : registry.population classify kind = 0
  · rw [if_pos vacant]
    exact List.filterMap_cons_none (if_pos vacant)
  · rw [if_neg vacant]
    exact List.filterMap_cons_some (if_neg vacant)

/-- A census shows the classes that occur, with their populations. -/
theorem lookup_census (registry : Registry α) (classify : α → κ) (classes : List κ) (kind : κ) :
    (registry.census classify classes).lookup kind =
      if kind ∈ classes ∧ registry.population classify kind ≠ 0 then
        some (registry.population classify kind)
      else none := by
  induction classes with
  | nil => simp [census]
  | cons first rest ih =>
      rw [census_cons]
      by_cases same : kind = first
      · subst same
        by_cases vacant : registry.population classify kind = 0
        · simp [ih, vacant]
        · simp [vacant]
      · have differs : (kind == first) = false := beq_eq_false_iff_ne.mpr same
        by_cases vacant : registry.population classify first = 0
        · simp [ih, vacant, same]
        · simp [ih, vacant, same, List.lookup_cons, differs]

/-- Classes that do not overlap share out the entries that they cover. -/
theorem sum_population (registry : Registry α) (classify : α → κ) {classes : List κ}
    (distinct : classes.Nodup) :
    (classes.map (registry.population classify)).sum =
      registry.entries.countP fun entry => decide (classify entry ∈ classes) := by
  induction classes with
  | nil => simp
  | cons first rest ih =>
      obtain ⟨new, distinct⟩ := List.nodup_cons.mp distinct
      rw [List.map_cons, List.sum_cons, ih distinct, population,
        List.countP_eq_countP_filter_add registry.entries
          (fun entry => decide (classify entry ∈ first :: rest))
          (fun entry => decide (classify entry = first)),
        List.countP_filter, List.countP_filter]
      congr 1
      · apply List.countP_congr
        intro entry _
        simp +contextual
      · apply List.countP_congr
        intro entry _
        have apart : classify entry ∈ rest → classify entry ≠ first :=
          fun member same => new (same ▸ member)
        grind

theorem sum_census (registry : Registry α) (classify : α → κ) (classes : List κ) :
    ((registry.census classify classes).map (·.2)).sum =
      (classes.map (registry.population classify)).sum := by
  induction classes with
  | nil => rfl
  | cons first rest ih =>
      rw [census_cons, List.map_cons, List.sum_cons, ← ih]
      by_cases vacant : registry.population classify first = 0
      · rw [if_pos vacant, vacant, Nat.zero_add]
      · rw [if_neg vacant, List.map_cons, List.sum_cons]

/-- No class is counted twice. -/
theorem nodup_census (registry : Registry α) (classify : α → κ) {classes : List κ}
    (distinct : classes.Nodup) : ((registry.census classify classes).map (·.1)).Nodup := by
  refine distinct.sublist ?_
  induction classes with
  | nil => exact List.Sublist.slnil
  | cons first rest ih =>
      rw [census_cons]
      split
      · exact (ih distinct.of_cons).cons first
      · exact (ih distinct.of_cons).cons_cons first

end Registry

namespace SiteId

/-- The first site numbers. -/
def first (count : Nat) : List SiteId :=
  (List.range count).map fun index => ⟨UInt32.ofNat index⟩

end SiteId

namespace Site

/-- The number that a site reports. -/
def id : Site → SiteId
  | .coercion site => site.cache.site
  | .sequence site => site.cache.site

/-- What a site was made for. -/
def kind : Site → Kind
  | .coercion site => .coercion site.width
  | .sequence _ => .sequence

/-- The same site with another child, or with none. -/
def withChild (child : Option CoercionSite) : Site → Site
  | .coercion site => .coercion { site with child }
  | .sequence site => .sequence site

@[simp] theorem profile_withChild (child : Option CoercionSite) (site : Site) :
    (site.withChild child).profile = site.profile := by
  cases site with
  | coercion site => rfl
  | sequence site => rfl

theorem id_kind_moved (site : Site) (moves : List (Move τ)) :
    (site.moved moves).id = site.id ∧ (site.moved moves).kind = site.kind := by
  cases site with
  | coercion site =>
      obtain ⟨steps, state⟩ := moved_coercion site moves
      obtain ⟨shapes, child, own⟩ := site.taken_own steps
      rw [state, own]
      exact ⟨site.cache.after_site shapes, rfl⟩
  | sequence site =>
      obtain ⟨kinds, state⟩ := moved_sequence site moves
      rw [state]
      exact ⟨site.cache.after_site kinds, rfl⟩

end Site

namespace Engine

variable {engine next : Engine} {id other : SiteId} {site : Site} {kind : Site.Kind}

theorem id_newSite (engine : Engine) (kind : Site.Kind) (id : SiteId) :
    (engine.newSite kind id).id = id := by
  cases kind with
  | coercion width => rfl
  | sequence => rfl

theorem kind_newSite (engine : Engine) (kind : Site.Kind) (id : SiteId) :
    (engine.newSite kind id).kind = kind := by
  cases kind with
  | coercion width => rfl
  | sequence => rfl

/-- The registered sites, as they are found by number. -/
theorem map_site?_first (fits : engine.sites.size ≤ UInt32.size) :
    (SiteId.first engine.sites.size).map engine.site? = engine.sites.entries.map some := by
  apply List.ext_getElem
  · simp only [SiteId.first, List.length_map, List.length_range]
    rfl
  · intro index bound bound'
    rw [List.length_map] at bound'
    have number : UInt32.toNat (.ofNat index) = index :=
      UInt32.toNat_ofNat_of_lt' (Nat.lt_of_lt_of_le bound' fits)
    simp only [SiteId.first, List.getElem_map, List.getElem_range, site?, Registry.get?,
      SiteId.index, number]
    exact List.getElem?_eq_getElem bound'

/-- The number of the first sites that have a profile. -/
def countProfile (engine : Engine) (profile : Profile) (count : Nat) : Nat :=
  (SiteId.first count).countP fun id => decide ((engine.site? id).map Site.profile = some profile)

theorem population_eq_countProfile (fits : engine.sites.size ≤ UInt32.size) (profile : Profile) :
    engine.sites.population Site.profile profile =
      engine.countProfile profile engine.sites.size := by
  have found := congrArg
    (List.countP fun found => decide (Option.map Site.profile found = some profile))
    (map_site?_first fits)
  rw [List.countP_map, List.countP_map] at found
  rw [countProfile, Registry.population]
  refine Eq.trans ?_ found.symm
  apply List.countP_congr
  intro site _
  simp

/-- The census shows the profiles that some site has, each with the number of its sites. -/
theorem lookup_census (fits : engine.sites.size ≤ UInt32.size) (profile : Profile) :
    engine.census.lookup profile =
      let count := engine.countProfile profile engine.sites.size
      if count = 0 then none else some count := by
  rw [census, Registry.lookup_census, population_eq_countProfile fits]
  by_cases vacant : engine.countProfile profile engine.sites.size = 0
  · simp [vacant]
  · simp [vacant, Profile.mem_all profile]

/-- The counts of a census sum up to the number of sites. -/
theorem sum_census (engine : Engine) : (engine.census.map (·.2)).sum = engine.sites.size := by
  rw [census, Registry.sum_census, Registry.sum_population _ _ (by decide)]
  apply List.countP_eq_length.mpr
  intro site _
  exact decide_eq_true (Profile.mem_all site.profile)

/-- Give every site another child, or none. -/
def rearrange (engine : Engine) (child : Site → Option CoercionSite) : Engine :=
  { engine with sites := ⟨engine.sites.entries.map fun site => site.withChild (child site)⟩ }

theorem size_rearrange (engine : Engine) (child : Site → Option CoercionSite) :
    (engine.rearrange child).sites.size = engine.sites.size :=
  List.length_map _

theorem census_rearrange (engine : Engine) (child : Site → Option CoercionSite) :
    (engine.rearrange child).census = engine.census := by
  simp only [census, Registry.census, rearrange, List.countP_map, Function.comp_def,
    Site.profile_withChild]

/-- All nodes of a site have its number. -/
theorem node_site {site node : CoercionSite} {moves : List (Move τ)}
    (absent : engine.site? id = none)
    (there : (engine.moved moves).site? id = some (.coercion site))
    (at_site : site.Node node) : node.cache.site = id := by
  obtain ⟨width, steps, reached⟩ := eq_taken_new absent there
  obtain ⟨own, rfl⟩ := at_site.exists_steps reached
  obtain ⟨shapes, child, state⟩ := CoercionSite.taken_own _ own
  rw [state]
  exact InlineCache.after_site _ shapes

/-- What the registry says of the sites that some moves made, of their numbers and of their
profiles. -/
structure InStep (engine : Engine) (moves : List (Move τ)) : Prop where
  /-- Only what was asked for is registered. -/
  size : (engine.moved moves).sites.size = creations moves
  /-- A site gets the number of sites made before it. Under this number it is found from
  then on, in the state that the moves at it lead to, with its number and its kind. -/
  found : ∀ (before later : List (Move τ)) (kind : Site.Kind),
    moves = before ++ .create kind :: later →
      ∃ id next site, (engine.moved before).create kind = .ok (id, next) ∧
        id.index = creations before ∧ (engine.moved moves).site? id = some site ∧
        site = (engine.newSite kind id).moved (movesAt id later) ∧
        site.id = id ∧ site.kind = kind
  /-- Whatever is found was made. -/
  origin : ∀ (id : SiteId) (site : Site), (engine.moved moves).site? id = some site →
    ∃ before kind later next, moves = before ++ .create kind :: later ∧
      (engine.moved before).create kind = .ok (id, next)
  /-- The numbers from the number of sites on are free. -/
  free : ∀ id : SiteId, (engine.moved moves).site? id = none ↔ creations moves ≤ id.index
  /-- The census has the profiles that some site has, each with the number of its sites. -/
  census : ∀ profile, (engine.moved moves).census.lookup profile =
    let count := (engine.moved moves).countProfile profile (creations moves)
    if count = 0 then none else some count
  profiles : ((engine.moved moves).census.map (·.1)).Nodup
  sum : ((engine.moved moves).census.map (·.2)).sum = (engine.moved moves).sites.size
  /-- A strict child, and every site below it, reports the number of its parent. -/
  node : ∀ (id : SiteId) (site node : CoercionSite),
    (engine.moved moves).site? id = some (.coercion site) → site.Node node →
      node.cache.site = id
  /-- Children are not counted. -/
  uncounted : ∀ child : Site → Option CoercionSite,
    ((engine.moved moves).rearrange child).sites.size = (engine.moved moves).sites.size ∧
      ((engine.moved moves).rearrange child).census = (engine.moved moves).census

/-- Clients only make moves. After any moves of a new engine, among which fewer sites are
asked for than there are numbers, its registry is in step with them. -/
theorem registry_in_step {settings : Settings} (built : Engine.new settings = .ok engine) :
    (∀ client : Client τ, ∃ moves : List (Move τ), (client.run engine).2.1 = engine.moved moves) ∧
      ∀ moves : List (Move τ), creations moves < UInt32.size → engine.InStep moves := by
  refine ⟨fun client => client.run_moves engine, fun moves few => ?_⟩
  have absent := site?_new built
  have empty : engine.sites.size = 0 := Nat.le_zero.mp (site?_eq_none_iff.mp (absent ⟨0⟩))
  have size (moves : List (Move τ)) (few : creations moves < UInt32.size) :
      (engine.moved moves).sites.size = creations moves := by
    rw [size_moved (by omega), empty, Nat.zero_add]
  have all := size moves few
  constructor
  case size => exact all
  case found =>
    rintro before later kind rfl
    rw [creations_append, creations_create] at few
    have earlier := size before (by omega)
    obtain ⟨id, next, made, number⟩ := (engine.moved before).create_of_room kind (by omega)
    obtain ⟨same_id, same_kind⟩ := (engine.newSite kind id).id_kind_moved (movesAt id later)
    exact ⟨id, next, _, made, number.trans earlier, site?_moved_create made later, rfl,
      same_id.trans (engine.id_newSite kind id), same_kind.trans (engine.kind_newSite kind id)⟩
  case origin =>
    intro id site there
    exact exists_creation (absent id) there
  case free =>
    intro id
    rw [site?_eq_none_iff, all]
  case census =>
    intro profile
    rw [← all]
    exact lookup_census (by omega) profile
  case profiles => exact Registry.nodup_census _ _ (by decide)
  case sum => exact sum_census _
  case node =>
    intro id site node there at_site
    exact node_site (absent id) there at_site
  case uncounted =>
    intro child
    exact ⟨size_rearrange _ child, census_rearrange _ child⟩

/-- A site for sequences is made while a coercion is pending. -/
theorem registry_in_step_pending :
    let box : Value := .object 0 "Box" []
    let moves : List (Move Unit) :=
      [.create (.coercion .bits32), .touch ⟨0⟩ (.start box false), .create .sequence,
        .touch ⟨0⟩ (.resume box (.returned (.long 7)))]
    let engine := blank {}
    Engine.new {} = .ok engine ∧ creations moves < UInt32.size ∧
      (engine.moved moves).site? ⟨2⟩ = none ∧
      (engine.moved moves).census.lookup .monomorphic = some 1 ∧
      (engine.moved moves).census.lookup .uninitialized = some 1 ∧
      ((engine.moved moves).census.map (·.2)).sum = 2 := by
  intro box moves engine
  have built : Engine.new {} = .ok engine := new_eq_ok_iff.mpr ⟨rfl, rfl⟩
  have few : creations moves < UInt32.size := by decide
  have inStep := (registry_in_step built).2 moves few
  refine ⟨built, few, (inStep.free ⟨2⟩).mpr (by decide), ?_, ?_, inStep.sum.trans inStep.size⟩
  · exact (inStep.census .monomorphic).trans (by decide +kernel)
  · exact (inStep.census .uninitialized).trans (by decide +kernel)

end Engine

end AdaptiveDispatch
