import AdaptiveDispatch.Proofs.Coercion.Steps
import AdaptiveDispatch.Proofs.Engine.Sites

/-!
# What happens to an engine

Everything that happens to an engine is a sequence of `Move`s. A site is made, or something
happens at a single site, its strict child included. A coercion whose value is asked is two
moves with others between them, so what holds after any moves holds at any moment of anything
that is done with an engine.

A site gets its number from the move that makes it. From then on it is found under this number,
in the state that the moves at it lead to. That state has a closed form: the caches of a site and
of the sites below it are new ones after a run.
-/

namespace AdaptiveDispatch

variable {τ : Type}

namespace SequenceSite

/-- Any use shows the cache some kinds of stores. -/
theorem perform_state (site : SequenceSite) (use : Use) :
    ∃ kinds, (site.perform use).2 = ⟨site.cache.after kinds⟩ := by
  cases use with
  | select kind => exact ⟨[kind], rfl⟩
  | resolve s => exact ⟨[s.store.kind], rfl⟩
  | copyRange s start length =>
      simp only [perform, copyRange]
      cases s.checkRange start length with
      | error fault => exact ⟨[], rfl⟩
      | ok _ => exact ⟨[s.store.kind], rfl⟩
  | copyAll s => exact ⟨[s.store.kind], rfl⟩
  | unsplat arguments =>
      cases arguments with
      | nil => exact ⟨[], rfl⟩
      | cons s rest =>
          cases rest with
          | nil => exact ⟨[s.store.kind], rfl⟩
          | cons _ _ => exact ⟨[], rfl⟩
  | read s index =>
      simp only [perform, read]
      cases s.checkRange index 1 with
      | error fault => exact ⟨[], rfl⟩
      | ok _ => exact ⟨[s.store.kind], rfl⟩

end SequenceSite

namespace CoercionSite

/-- A coercion with methods that leave the site alone is its two halves, or the first one. -/
theorem coerce_taken (site : CoercionSite) (invoke : Invoker τ) (v : Value) (strict : Bool)
    (t : τ) : ∃ steps, (site.coerce invoke v strict t).2.1 = site.taken steps := by
  rw [coerce_halves]
  cases started : site.start v strict with
  | mk progress next =>
      have first : next = site.take (.start v strict) := (congrArg Prod.snd started).symm
      cases progress with
      | done result => exact ⟨[.start v strict], first⟩
      | pending method =>
          refine ⟨[.start v strict, .resume v (invoke v method [] t).1], ?_⟩
          rw [first]
          rfl

/-- So every use is a number of steps. -/
theorem perform_taken (site : CoercionSite) (use : Use τ) :
    ∃ steps, (site.perform use).2 = site.taken steps := by
  induction use generalizing site with
  | coerce invoke v strict t => exact site.coerce_taken invoke v strict t
  | coerceLiteral invoke literal strict t =>
      simp only [perform, coerceLiteral]
      cases literal.asLong with
      | ok n => exact ⟨[], rfl⟩
      | error v => exact site.coerce_taken invoke v strict t
  | select shape => exact ⟨[.select shape], rfl⟩
  | child use ih =>
      rw [perform]
      cases there : site.child with
      | none => exact ⟨[], rfl⟩
      | some child =>
          obtain ⟨steps, same⟩ := ih child
          refine ⟨steps.map .child, ?_⟩
          rw [taken_child there, ← same]

end CoercionSite

namespace Site

/-- Something that happens at a site: a whole use of it, half of a coercion, or a step of its
strict child. -/
inductive Move (τ : Type) where
  | perform (use : Use τ)
  | start (v : Value) (strict : Bool)
  | resume (receiver : Value) (reply : Reply)
  | child (step : CoercionSite.Step)

/-- A site after a move. Sites that read sequences have no part in coercions. -/
def move : Site → Move τ → Site
  | site, .perform use => (site.perform use).2
  | .coercion site, .start v strict => .coercion (site.start v strict).2
  | .coercion site, .resume receiver reply => .coercion (site.resume receiver reply).2
  | .coercion site, .child step => .coercion (site.take (.child step))
  | .sequence site, .start .. | .sequence site, .resume .. | .sequence site, .child _ =>
      .sequence site

/-- A site after some moves. -/
def moved (site : Site) (moves : List (Move τ)) : Site :=
  moves.foldl move site

@[simp] theorem moved_nil (site : Site) : site.moved ([] : List (Move τ)) = site := rfl

@[simp] theorem moved_cons (site : Site) (move : Move τ) (moves : List (Move τ)) :
    site.moved (move :: moves) = (site.move move).moved moves := rfl

theorem move_coercion (site : CoercionSite) (move : Move τ) :
    ∃ steps, (Site.coercion site).move move = .coercion (site.taken steps) := by
  cases move with
  | perform use =>
      cases use with
      | coercion use =>
          obtain ⟨steps, state⟩ := site.perform_taken use
          exact ⟨steps, congrArg Site.coercion state⟩
      | sequence use => exact ⟨[], rfl⟩
  | start v strict => exact ⟨[.start v strict], rfl⟩
  | resume receiver reply => exact ⟨[.resume receiver reply], rfl⟩
  | child step => exact ⟨[.child step], rfl⟩

theorem moved_coercion (site : CoercionSite) (moves : List (Move τ)) :
    ∃ steps, (Site.coercion site).moved moves = .coercion (site.taken steps) := by
  induction moves generalizing site with
  | nil => exact ⟨[], rfl⟩
  | cons move moves ih =>
      obtain ⟨steps, first⟩ := move_coercion site move
      obtain ⟨more, rest⟩ := ih (site.taken steps)
      rw [moved_cons, first, rest, ← CoercionSite.taken_append]
      exact ⟨steps ++ more, rfl⟩

theorem move_sequence (site : SequenceSite) (move : Move τ) :
    ∃ kinds, (Site.sequence site).move move = .sequence ⟨site.cache.after kinds⟩ := by
  cases move with
  | perform use =>
      cases use with
      | coercion use => exact ⟨[], rfl⟩
      | sequence use =>
          obtain ⟨kinds, state⟩ := site.perform_state use
          exact ⟨kinds, congrArg Site.sequence state⟩
  | start v strict => exact ⟨[], rfl⟩
  | resume receiver reply => exact ⟨[], rfl⟩
  | child step => exact ⟨[], rfl⟩

theorem moved_sequence (site : SequenceSite) (moves : List (Move τ)) :
    ∃ kinds, (Site.sequence site).moved moves = .sequence ⟨site.cache.after kinds⟩ := by
  induction moves generalizing site with
  | nil => exact ⟨[], rfl⟩
  | cons move moves ih =>
      obtain ⟨kinds, first⟩ := move_sequence site move
      obtain ⟨more, rest⟩ := ih ⟨site.cache.after kinds⟩
      rw [moved_cons, first, rest, ← InlineCache.after_append]
      exact ⟨kinds ++ more, rfl⟩

end Site

namespace Engine

/-- Something that happens to an engine: a site is asked for, or there is a move at one. -/
inductive Move (τ : Type) where
  | create (kind : Site.Kind)
  | touch (id : SiteId) (move : Site.Move τ)

/-- The engine after a move. -/
def move (engine : Engine) : Move τ → Engine
  | .create kind =>
      match engine.create kind with
      | .ok (_, engine) => engine
      | .error _ => engine
  | .touch id move =>
      match engine.site? id with
      | some site => engine.put id (site.move move)
      | none => engine

/-- The engine after some moves. -/
def moved (engine : Engine) (moves : List (Move τ)) : Engine :=
  moves.foldl move engine

variable {engine next : Engine} {id other : SiteId} {site : Site} {kind : Site.Kind}

@[simp] theorem moved_nil (engine : Engine) : engine.moved ([] : List (Move τ)) = engine := rfl

@[simp] theorem moved_cons (engine : Engine) (move : Move τ) (moves : List (Move τ)) :
    engine.moved (move :: moves) = (engine.move move).moved moves := rfl

theorem moved_append (engine : Engine) (moves more : List (Move τ)) :
    engine.moved (moves ++ more) = (engine.moved moves).moved more :=
  List.foldl_append

theorem move_create {kind : Site.Kind} (made : engine.create kind = .ok (id, next)) :
    engine.move (.create kind : Move τ) = next := by
  simp only [move, made]

theorem move_touch {site : Site} (there : engine.site? id = some site) (m : Site.Move τ) :
    engine.move (.touch id m) = engine.put id (site.move m) := by
  simp only [move, there]

theorem perform_move (engine : Engine) (id : SiteId) (use : Site.Use τ) :
    (engine.perform id use).2 = engine.move (.touch id (.perform use)) := by
  rw [perform_eq, move]
  cases engine.site? id with
  | none => rfl
  | some site => rfl

theorem site?_eq_none_iff : engine.site? id = none ↔ engine.sites.size ≤ id.index :=
  List.getElem?_eq_none_iff

/-- The number of sites that some moves ask for. -/
def creations (moves : List (Move τ)) : Nat :=
  moves.countP fun
    | .create _ => true
    | .touch _ _ => false

@[simp] theorem creations_create (kind : Site.Kind) (moves : List (Move τ)) :
    creations (.create kind :: moves) = creations moves + 1 :=
  List.countP_cons_of_pos rfl

@[simp] theorem creations_touch (id : SiteId) (move : Site.Move τ) (moves : List (Move τ)) :
    creations (.touch id move :: moves) = creations moves :=
  List.countP_cons_of_neg Bool.false_ne_true

theorem creations_append (moves more : List (Move τ)) :
    creations (moves ++ more) = creations moves + creations more :=
  List.countP_append

/-- What a move of the engine does at a number, if it is a move there. -/
def Move.at? (id : SiteId) : Move τ → Option (Site.Move τ)
  | .create _ => none
  | .touch other move => if other = id then some move else none

/-- The moves at a number among some moves. -/
def movesAt (id : SiteId) (moves : List (Move τ)) : List (Site.Move τ) :=
  moves.filterMap (Move.at? id)

theorem movesAt_touch (id : SiteId) (move : Site.Move τ) (moves : List (Move τ)) :
    movesAt id (.touch id move :: moves) = move :: movesAt id moves :=
  List.filterMap_cons_some (if_pos rfl)

theorem movesAt_of_other {move : Move τ} (elsewhere : move.at? id = none)
    (moves : List (Move τ)) : movesAt id (move :: moves) = movesAt id moves :=
  List.filterMap_cons_none elsewhere

theorem Move.eq_touch_of_at? {move : Move τ} {m : Site.Move τ} (here : move.at? id = some m) :
    move = .touch id m := by
  cases move with
  | create kind => cases here
  | touch other m' =>
      obtain ⟨rfl, same⟩ := Option.ite_none_right_eq_some.mp here
      cases same
      rfl

/-- As long as there are numbers left, a site can be made, and gets the next of them. -/
theorem create_of_room (engine : Engine) (kind : Site.Kind)
    (room : engine.sites.size < UInt32.size) :
    ∃ id next, engine.create kind = .ok (id, next) ∧ id.index = engine.sites.size := by
  have number := UInt32.toNat_ofNat_of_lt' room
  exact ⟨⟨UInt32.ofNat engine.sites.size⟩, _, create_eq_ok_iff.mpr ⟨number, rfl⟩, number⟩

theorem size_create (made : engine.create kind = .ok (id, next)) :
    next.sites.size = engine.sites.size + 1 := by
  obtain ⟨_, rfl⟩ := create_eq_ok_iff.mp made
  exact List.length_append

/-- A move at a number replaces the site there, or does nothing. -/
theorem move_touch_cases (engine : Engine) (id : SiteId) (move : Site.Move τ) :
    (∃ site, engine.site? id = some site ∧
      engine.move (.touch id move) = engine.put id (site.move move)) ∨
      engine.site? id = none ∧ engine.move (.touch id move) = engine := by
  cases there : engine.site? id with
  | some site => exact .inl ⟨site, rfl, move_touch there move⟩
  | none => exact .inr ⟨rfl, by simp only [Engine.move, there]⟩

theorem size_move_touch (engine : Engine) (id : SiteId) (move : Site.Move τ) :
    (engine.move (.touch id move)).sites.size = engine.sites.size := by
  rcases engine.move_touch_cases id move with ⟨site, _, moved⟩ | ⟨_, moved⟩
  · rw [moved]
    exact engine.sites.size_set id _
  · rw [moved]

/-- Every site that is asked for is registered, if there are numbers enough. -/
theorem size_moved {moves : List (Move τ)}
    (room : engine.sites.size + creations moves ≤ UInt32.size) :
    (engine.moved moves).sites.size = engine.sites.size + creations moves := by
  induction moves generalizing engine with
  | nil => rfl
  | cons move moves ih =>
      cases move with
      | create kind =>
          rw [creations_create] at room ⊢
          obtain ⟨id, next, made, _⟩ := engine.create_of_room kind (by omega)
          have size := size_create made
          rw [moved_cons, move_create made, ih (by omega)]
          omega
      | touch id move =>
          have size := engine.size_move_touch id move
          rw [creations_touch] at room ⊢
          rw [moved_cons, ih (by omega), size]

/-- A new site is the same at any time. -/
theorem newSite_move (engine : Engine) (move : Move τ) :
    (engine.move move).newSite = engine.newSite := by
  cases move with
  | create kind =>
      simp only [Engine.move]
      split
      · rename_i made
        obtain ⟨_, rfl⟩ := create_eq_ok_iff.mp made
        rfl
      · rfl
  | touch id move =>
      rcases engine.move_touch_cases id move with ⟨site, _, moved⟩ | ⟨_, moved⟩
      · rw [moved]
        rfl
      · rw [moved]

theorem newSite_moved (engine : Engine) (moves : List (Move τ)) :
    (engine.moved moves).newSite = engine.newSite := by
  induction moves generalizing engine with
  | nil => rfl
  | cons move moves ih => rw [moved_cons, ih, newSite_move]

/-- A move elsewhere leaves a site alone. -/
theorem site?_move_of_other {move : Move τ} (there : engine.site? id = some site)
    (elsewhere : move.at? id = none) : (engine.move move).site? id = some site := by
  cases move with
  | create kind =>
      simp only [Engine.move]
      split
      · rename_i made
        exact site?_create made there
      · exact there
  | touch other move =>
      have different : other ≠ id := fun same => by
        rw [Move.at?, if_pos same] at elsewhere
        cases elsewhere
      rcases engine.move_touch_cases other move with ⟨site', _, moved⟩ | ⟨_, moved⟩
      · rw [moved, site?_put_of_ne different]
        exact there
      · rw [moved]
        exact there

/-- A registered site stays registered, in the state that the moves at it lead to. -/
theorem site?_moved (there : engine.site? id = some site) (moves : List (Move τ)) :
    (engine.moved moves).site? id = some (site.moved (movesAt id moves)) := by
  induction moves generalizing engine site with
  | nil => exact there
  | cons move moves ih =>
      cases here : move.at? id with
      | none =>
          rw [movesAt_of_other here]
          exact ih (site?_move_of_other there here)
      | some m =>
          obtain rfl := Move.eq_touch_of_at? here
          rw [movesAt_touch, moved_cons, move_touch there]
          exact ih (site?_put_self there (site.move m))

/-- A site that is made among other moves is, after all of them, a new one that has made
its own moves. -/
theorem site?_moved_create {before : List (Move τ)}
    (made : (engine.moved before).create kind = .ok (id, next)) (later : List (Move τ)) :
    (engine.moved (before ++ .create kind :: later)).site? id =
      some ((engine.newSite kind id).moved (movesAt id later)) := by
  rw [moved_append, moved_cons, move_create made, ← newSite_moved engine before]
  exact site?_moved (site?_create_self made) later

/-- A site only appears where it is made. -/
theorem exists_create_of_move {move : Move τ} (absent : engine.site? id = none)
    (there : (engine.move move).site? id = some site) :
    ∃ kind next, move = .create kind ∧ engine.create kind = .ok (id, next) := by
  cases move with
  | create kind =>
      cases made : engine.create kind with
      | error fault =>
          simp only [Engine.move, made, absent] at there
          cases there
      | ok result =>
          obtain ⟨number, next⟩ := result
          rw [move_create made] at there
          by_cases same : number = id
          · subst same
            exact ⟨kind, next, rfl, made⟩
          · rw [site?_create_of_ne made there same] at absent
            cases absent
  | touch other move =>
      -- Replacing adds no numbers, so the number would still be free.
      have free := site?_eq_none_iff.mp absent
      rw [← engine.size_move_touch other move] at free
      rw [site?_eq_none_iff.mpr free] at there
      cases there

/-- Every site of an engine that had none was made by some move, and got its number
there. -/
theorem exists_creation {moves : List (Move τ)} (absent : engine.site? id = none)
    (there : (engine.moved moves).site? id = some site) :
    ∃ before kind later next, moves = before ++ .create kind :: later ∧
      (engine.moved before).create kind = .ok (id, next) := by
  induction moves generalizing engine with
  | nil =>
      rw [show engine.site? id = some site from there] at absent
      cases absent
  | cons move moves ih =>
      cases found : (engine.move move).site? id with
      | none =>
          obtain ⟨before, kind, later, next, rfl, made⟩ := ih found there
          exact ⟨move :: before, kind, later, next, rfl, made⟩
      | some first =>
          obtain ⟨kind, next, rfl, made⟩ := exists_create_of_move absent found
          exact ⟨[], kind, moves, next, rfl, made⟩

/-- So every such site is a new one that has made some moves. -/
theorem eq_moved_newSite {moves : List (Move τ)} (absent : engine.site? id = none)
    (there : (engine.moved moves).site? id = some site) :
    ∃ (kind : Site.Kind) (made : List (Site.Move τ)),
      site = (engine.newSite kind id).moved made := by
  obtain ⟨before, kind, later, next, rfl, made⟩ := exists_creation absent there
  rw [site?_moved_create made later] at there
  cases there
  exact ⟨kind, movesAt id later, rfl⟩

/-- A coercion site is a new one that has taken some steps. -/
theorem eq_taken_new {site : CoercionSite} {moves : List (Move τ)}
    (absent : engine.site? id = none)
    (there : (engine.moved moves).site? id = some (.coercion site)) :
    ∃ width steps,
      site = (CoercionSite.new id width (engine.conversionTable width)
        engine.settings.coercionLimit engine.settings.conversionMethod).taken steps := by
  obtain ⟨kind, made, same⟩ := eq_moved_newSite absent there
  cases kind with
  | coercion width =>
      obtain ⟨steps, state⟩ := Site.moved_coercion _ made
      exact ⟨width, steps, Site.coercion.inj (same.trans state)⟩
  | sequence =>
      obtain ⟨kinds, state⟩ := Site.moved_sequence _ made
      cases same.trans state

/-- A site that reads sequences is a new one that has met some stores. -/
theorem eq_after_new {site : SequenceSite} {moves : List (Move τ)}
    (absent : engine.site? id = none)
    (there : (engine.moved moves).site? id = some (.sequence site)) :
    ∃ kinds, site.cache =
      (InlineCache.new id engine.accessTable engine.settings.sequenceLimit).after kinds := by
  obtain ⟨kind, made, same⟩ := eq_moved_newSite absent there
  cases kind with
  | coercion width =>
      obtain ⟨steps, state⟩ := Site.moved_coercion _ made
      cases same.trans state
  | sequence =>
      obtain ⟨kinds, state⟩ := Site.moved_sequence _ made
      cases same.trans state
      exact ⟨kinds, rfl⟩

end Engine

end AdaptiveDispatch
