import AdaptiveDispatch.Engine
import AdaptiveDispatch.Proofs.Dispatch.Order

/-!
# What a site can be used for

Sites of both sorts are used in several ways, and every use answers and leaves the site in
a new state. `Site.perform` is all uses together, of a site on its own. The strict child of a
coercion site is used like any other site once it is there.

Two sites that differ in nothing but their numbers are used alike. A number is written
down where a site is made, and no use reads it. `renumber` changes it, in the strict child
of a coercion site too, and every use commutes with that.
-/

namespace AdaptiveDispatch

variable {τ : Type}

namespace InlineCache

variable {σ ι : Type}

/-- The same cache at another site. -/
def renumber (cache : InlineCache σ ι) (id : SiteId) : InlineCache σ ι :=
  { cache with site := id }

theorem select_renumber [DecidableEq σ] (cache : InlineCache σ ι) (id : SiteId) (shape : σ) :
    (cache.renumber id).select shape =
      ((cache.select shape).1, (cache.select shape).2.renumber id) := by
  have alike : cache.table.Alike cache.table := ⟨fun _ => rfl, rfl⟩
  have renumbered : (cache.select shape).2.transplant id cache.table =
      (cache.select shape).2.renumber id := by
    rw [← select_table cache shape]
    rfl
  rw [← renumbered]
  exact select_transplant alike id shape

end InlineCache

namespace CoercionSite

/-- The same site under another number, which it shares with its child. -/
def renumber (id : SiteId) : CoercionSite → CoercionSite
  | ⟨width, method, cache, none⟩ => ⟨width, method, cache.renumber id, none⟩
  | ⟨width, method, cache, some child⟩ =>
      ⟨width, method, cache.renumber id, some (child.renumber id)⟩

/-- Only the caches change, of the site and of the sites below it. -/
theorem renumber_eq (site : CoercionSite) (id : SiteId) :
    site.renumber id =
      { site with cache := site.cache.renumber id, child := site.child.map (renumber id) } := by
  obtain ⟨width, method, cache, child⟩ := site
  cases child with
  | none => rfl
  | some child => rfl

@[simp] theorem renumber_width (site : CoercionSite) (id : SiteId) :
    (site.renumber id).width = site.width := by
  rw [renumber_eq]

@[simp] theorem renumber_method (site : CoercionSite) (id : SiteId) :
    (site.renumber id).method = site.method := by
  rw [renumber_eq]

@[simp] theorem renumber_cache (site : CoercionSite) (id : SiteId) :
    (site.renumber id).cache = site.cache.renumber id := by
  rw [renumber_eq]

theorem renumber_child (site : CoercionSite) (id : SiteId) :
    (site.renumber id).child = site.child.map (renumber id) := by
  rw [renumber_eq]

theorem renumber_withCache (site : CoercionSite) (id : SiteId)
    (cache : InlineCache Value.Shape Conversion) :
    ({ site with cache } : CoercionSite).renumber id =
      { site.renumber id with cache := cache.renumber id } := by
  rw [renumber_eq, renumber_eq]

theorem renumber_withChild (site child : CoercionSite) (id : SiteId) :
    ({ site with child := some child } : CoercionSite).renumber id =
      { site.renumber id with child := some (child.renumber id) } := by
  rw [renumber_eq, renumber_eq]
  rfl

theorem strictChild_renumber (site : CoercionSite) (id : SiteId) :
    (site.renumber id).strictChild = site.strictChild.renumber id := by
  rw [strictChild, strictChild, renumber_child]
  cases site.child with
  | none =>
      rw [renumber_width, renumber_method, renumber_cache]
      rfl
  | some child => rfl

theorem judge_renumber (site : CoercionSite) (id : SiteId) (v : Value) :
    (site.renumber id).judge v = ((site.judge v).1, (site.judge v).2.renumber id) := by
  simp only [judge, renumber_width, renumber_cache, InlineCache.select_renumber,
    renumber_withCache]

theorem coerceStrictly_renumber (site : CoercionSite) (id : SiteId) (v : Value) :
    (site.renumber id).coerceStrictly v =
      ((site.coerceStrictly v).1, (site.coerceStrictly v).2.renumber id) := by
  unfold coerceStrictly
  rw [judge_renumber]
  generalize site.judge v = judged
  obtain ⟨judgement, next⟩ := judged
  cases judgement with
  | settled result => rfl
  | askReceiver => rfl

theorem start_renumber (site : CoercionSite) (id : SiteId) (v : Value) (strict : Bool) :
    (site.renumber id).start v strict =
      ((site.start v strict).1, (site.start v strict).2.renumber id) := by
  unfold start
  cases strict with
  | true => simp only [if_true, coerceStrictly_renumber]
  | false =>
      simp only [Bool.false_eq_true, if_false, judge_renumber]
      generalize site.judge v = judged
      obtain ⟨judgement, next⟩ := judged
      cases judgement with
      | settled result => rfl
      | askReceiver => simp only [renumber_method]

theorem resume_renumber (site : CoercionSite) (id : SiteId) (receiver : Value) (reply : Reply) :
    (site.renumber id).resume receiver reply =
      ((site.resume receiver reply).1, (site.resume receiver reply).2.renumber id) := by
  cases reply with
  | missing => simp only [resume, renumber_method]
  | returned value =>
      simp only [resume, strictChild_renumber, coerceStrictly_renumber, renumber_withChild]

theorem coerce_renumber (site : CoercionSite) (id : SiteId) (invoke : Invoker τ) (v : Value)
    (strict : Bool) (t : τ) :
    (site.renumber id).coerce invoke v strict t =
      ((site.coerce invoke v strict t).1, (site.coerce invoke v strict t).2.1.renumber id,
        (site.coerce invoke v strict t).2.2) := by
  unfold coerce coerceReentrant
  rw [start_renumber]
  generalize site.start v strict = half
  obtain ⟨progress, next⟩ := half
  cases progress with
  | done result => rfl
  | pending method => simp only [resume_renumber]

theorem coerceLiteral_renumber (site : CoercionSite) (id : SiteId) (invoke : Invoker τ)
    (literal : Literal) (strict : Bool) (t : τ) :
    (site.renumber id).coerceLiteral invoke literal strict t =
      ((site.coerceLiteral invoke literal strict t).1,
        (site.coerceLiteral invoke literal strict t).2.1.renumber id,
        (site.coerceLiteral invoke literal strict t).2.2) := by
  unfold coerceLiteral
  cases literal.asLong with
  | ok n => simp only [renumber_width]
  | error v => exact site.coerce_renumber id invoke v strict t

/-- A use of a coercion site. Its methods leave the site alone and have a state of their
own. The strict child has the same uses. -/
inductive Use (τ : Type) where
  | coerce (invoke : Invoker τ) (v : Value) (strict : Bool) (t : τ)
  | coerceLiteral (invoke : Invoker τ) (literal : Literal) (strict : Bool) (t : τ)
  | select (shape : Value.Shape)
  | child (use : Use τ)

/-- What comes of a use: a result and the state in which it leaves its methods, or the
conversion for a shape, or that there is no child to be used. -/
inductive Answer (τ : Type) where
  | coerced (result : Coerced) (t : τ)
  | selected (selection : Selection Conversion)
  | childless

def perform : CoercionSite → Use τ → Answer τ × CoercionSite
  | site, .coerce invoke v strict t =>
      let (result, site, t) := site.coerce invoke v strict t
      (.coerced result t, site)
  | site, .coerceLiteral invoke literal strict t =>
      let (result, site, t) := site.coerceLiteral invoke literal strict t
      (.coerced result t, site)
  | site, .select shape =>
      let (selection, cache) := site.cache.select shape
      (.selected selection, { site with cache })
  | site, .child use =>
      match site.child with
      | some child =>
          let (answer, child) := child.perform use
          (answer, { site with child := some child })
      | none => (.childless, site)

theorem perform_renumber (site : CoercionSite) (id : SiteId) (use : Use τ) :
    (site.renumber id).perform use = ((site.perform use).1, (site.perform use).2.renumber id) := by
  induction use generalizing site with
  | coerce invoke v strict t => simp only [perform, coerce_renumber]
  | coerceLiteral invoke literal strict t => simp only [perform, coerceLiteral_renumber]
  | select shape =>
      simp only [perform, renumber_cache, InlineCache.select_renumber, renumber_withCache]
  | child use ih =>
      rw [perform, perform, renumber_child]
      cases site.child with
      | none => rfl
      | some child => simp only [Option.map_some, ih, renumber_withChild]

end CoercionSite

namespace SequenceSite

/-- The same site under another number. -/
def renumber (site : SequenceSite) (id : SiteId) : SequenceSite :=
  ⟨site.cache.renumber id⟩

theorem resolve_renumber (site : SequenceSite) (id : SiteId) (s : Sequence) :
    (site.renumber id).resolve s = ((site.resolve s).1, (site.resolve s).2.renumber id) := by
  have same : (site.renumber id).cache.select s.store.kind = _ :=
    site.cache.select_renumber id s.store.kind
  unfold resolve
  rw [same]
  rfl

theorem copyAll_renumber (site : SequenceSite) (id : SiteId) (s : Sequence) :
    (site.renumber id).copyAll s = ((site.copyAll s).1, (site.copyAll s).2.renumber id) := by
  unfold copyAll
  rw [resolve_renumber]

/-- A use of a site that reads sequences. -/
inductive Use where
  | select (kind : Store.Kind)
  | resolve (s : Sequence)
  | copyRange (s : Sequence) (start length : Nat)
  | copyAll (s : Sequence)
  | unsplat (arguments : List Sequence)
  | read (s : Sequence) (index : Nat)

inductive Answer where
  | selected (selection : Selection Access)
  | resolved (access : Access)
  | elements (result : Except Fault.Storage (List Value))
  | element (result : Except Fault.Storage Value)

def perform (site : SequenceSite) : Use → Answer × SequenceSite
  | .select kind =>
      let (selection, cache) := site.cache.select kind
      (.selected selection, ⟨cache⟩)
  | .resolve s =>
      let (access, site) := site.resolve s
      (.resolved access, site)
  | .copyRange s start length =>
      let (result, site) := site.copyRange s start length
      (.elements result, site)
  | .copyAll s =>
      let (result, site) := site.copyAll s
      (.elements result, site)
  | .unsplat arguments =>
      let (result, site) := site.unsplat arguments
      (.elements result, site)
  | .read s index =>
      let (result, site) := site.read s index
      (.element result, site)

theorem perform_renumber (site : SequenceSite) (id : SiteId) (use : Use) :
    (site.renumber id).perform use = ((site.perform use).1, (site.perform use).2.renumber id) := by
  cases use with
  | select kind =>
      have same : (site.renumber id).cache.select kind = _ := site.cache.select_renumber id kind
      simp only [perform, same]
      rfl
  | resolve s => simp only [perform, resolve_renumber]
  | copyRange s start length =>
      simp only [perform, copyRange]
      cases s.checkRange start length with
      | error fault => rfl
      | ok _ => simp only [resolve_renumber]
  | copyAll s => simp only [perform, copyAll_renumber]
  | unsplat arguments =>
      simp only [perform, unsplat]
      split
      · simp only [copyAll_renumber]
      · rfl
  | read s index =>
      simp only [perform, read]
      cases s.checkRange index 1 with
      | error fault => rfl
      | ok _ => simp only [resolve_renumber]

end SequenceSite

namespace Site

/-- What a site is made for. -/
inductive Kind where
  | coercion (width : Width)
  | sequence

/-- A use of a site of either sort. -/
inductive Use (τ : Type) where
  | coercion (use : CoercionSite.Use τ)
  | sequence (use : SequenceSite.Use)

inductive Answer (τ : Type) where
  | coercion (answer : CoercionSite.Answer τ)
  | sequence (answer : SequenceSite.Answer)

/-- Use a site. A use for sites of the other sort has no answer and no effect. -/
def perform : Site → Use τ → Option (Answer τ) × Site
  | .coercion site, .coercion use =>
      let (answer, site) := site.perform use
      (some (.coercion answer), .coercion site)
  | .sequence site, .sequence use =>
      let (answer, site) := site.perform use
      (some (.sequence answer), .sequence site)
  | site, _ => (none, site)

/-- The same site under another number. -/
def renumber (id : SiteId) : Site → Site
  | .coercion site => .coercion (site.renumber id)
  | .sequence site => .sequence (site.renumber id)

theorem perform_renumber (id : SiteId) (site : Site) (use : Use τ) :
    (site.renumber id).perform use = ((site.perform use).1, (site.perform use).2.renumber id) := by
  cases site with
  | coercion site =>
      cases use with
      | coercion use => simp only [renumber, perform, CoercionSite.perform_renumber]
      | sequence use => rfl
  | sequence site =>
      cases use with
      | coercion use => rfl
      | sequence use => simp only [renumber, perform, SequenceSite.perform_renumber]

/-- A site after some uses. -/
def after (site : Site) (uses : List (Use τ)) : Site :=
  uses.foldl (fun site use => (site.perform use).2) site

/-- The answers to some uses, in order. -/
def answers (site : Site) : List (Use τ) → List (Option (Answer τ))
  | [] => []
  | use :: uses => (site.perform use).1 :: (site.perform use).2.answers uses

@[simp] theorem after_cons (site : Site) (use : Use τ) (uses : List (Use τ)) :
    site.after (use :: uses) = (site.perform use).2.after uses := rfl

/-- The number of a site has no influence on its answers or on anything else of it. -/
theorem run_renumber (id : SiteId) (site : Site) (uses : List (Use τ)) :
    (site.renumber id).answers uses = site.answers uses ∧
      (site.renumber id).after uses = (site.after uses).renumber id := by
  induction uses generalizing site with
  | nil => exact ⟨rfl, rfl⟩
  | cons use uses ih =>
      obtain ⟨answers_eq, after_eq⟩ := ih (site.perform use).2
      rw [answers, answers, after_cons, after_cons, perform_renumber]
      exact ⟨congrArg _ answers_eq, after_eq⟩

end Site

end AdaptiveDispatch
