import AdaptiveDispatch.Coercion.Site
import AdaptiveDispatch.Proofs.Coercion.Judgement
import AdaptiveDispatch.Proofs.Dispatch.Select

/-!
# Coercion sites in use

`InUse` describes the states that a site can be in, whatever it has been used for. A use is a
number of steps. The two halves of coercions may come in any order, as they do when methods use
the site that called them. The strict child can be got at once it is there, so every step may
also be one of the child, and the child may come to have a child of its own.

In all these states a site and its strict child are `Sound`: the table belongs to the
width and the cache carries the rules of the table. Soundness is all that the results of
a coercion depend on. Both halves are specified here by the chain of all rules, without
the cache.
-/

namespace AdaptiveDispatch

/-- The result for a value that may not be asked to convert itself. -/
def Conversion.strictly (width : Width) (v : Value) : Coerced :=
  match judgeChain width v with
  | .settled result => result
  | .askReceiver => .error (.cantConvert v.className target)

namespace CoercionSite

/-- A site whose cache has seen one more shape. -/
def see (site : CoercionSite) (shape : Value.Shape) : CoercionSite :=
  { site with cache := (site.cache.select shape).2 }

/-- The strict child depends on nothing that a call of the cache changes. -/
@[simp] theorem see_strictChild (site : CoercionSite) (shape : Value.Shape) :
    (site.see shape).strictChild = site.strictChild := by
  simp only [strictChild, see, InlineCache.select_site, InlineCache.select_table,
    InlineCache.select_limit]

/-- A coercion without leave to ask only shows the site a shape. -/
theorem coerceStrictly_state (site : CoercionSite) (v : Value) :
    (site.coerceStrictly v).2 = site.see v.shape := by
  unfold coerceStrictly
  split
  · rename_i judged
    exact (congrArg Prod.snd judged).symm
  · rename_i judged
    exact (congrArg Prod.snd judged).symm

/-- The first half of a coercion shows the site the shape of the value, whatever it ends
with. -/
theorem start_state (site : CoercionSite) (v : Value) (strict : Bool) :
    (site.start v strict).2 = site.see v.shape := by
  unfold start
  split
  · exact site.coerceStrictly_state v
  · split
    · rename_i judged
      exact (congrArg Prod.snd judged).symm
    · rename_i judged
      exact (congrArg Prod.snd judged).symm

/-- Something that happens at a site: a half of a coercion, the look-up of a shape, or any of
these at its strict child. -/
inductive Step where
  | start (v : Value) (strict : Bool)
  | resume (receiver : Value) (reply : Reply)
  | select (shape : Value.Shape)
  | child (step : Step)

/-- A site after a step. Nothing happens at a child that is not there yet. -/
def take : CoercionSite → Step → CoercionSite
  | site, .start v strict => (site.start v strict).2
  | site, .resume receiver reply => (site.resume receiver reply).2
  | site, .select shape => site.see shape
  | site, .child step =>
      match site.child with
      | some child => { site with child := some (child.take step) }
      | none => site

/-- A step of a site is for its strict child a step of its own, or nothing. -/
theorem strictChild_take (site : CoercionSite) (step : Step) :
    (site.take step).strictChild = site.strictChild ∨
      ∃ own, (site.take step).strictChild = site.strictChild.take own := by
  cases step with
  | start v strict =>
      rw [take, start_state, see_strictChild]
      exact .inl rfl
  | resume receiver reply =>
      cases reply with
      | missing => exact .inl rfl
      | returned value =>
          refine .inr ⟨.select value.shape, ?_⟩
          exact site.strictChild.coerceStrictly_state value
  | select shape => exact .inl (site.see_strictChild shape)
  | child step =>
      rw [take]
      cases present : site.child with
      | none => exact .inl rfl
      | some child =>
          refine .inr ⟨step, ?_⟩
          rw [show site.strictChild = child by rw [strictChild, present, Option.getD_some]]
          rfl

/-- The table of a site belongs to its width, and its cache carries the table's rules. -/
structure Sound (width : Width) (method : String) (site : CoercionSite) : Prop where
  width_eq : site.width = width
  method_eq : site.method = method
  built : Conversion.table width = .ok site.cache.table
  ruled : site.cache.Ruled

variable {site : CoercionSite} {width : Width} {method : String}

theorem sound_new {table : RuleTable Value.Shape Conversion} (id : SiteId) (limit : Nat)
    (built : Conversion.table width = .ok table) :
    Sound width method (.new id width table limit method) :=
  ⟨rfl, rfl, built, InlineCache.ruled_new id table limit⟩

namespace Sound

theorem valid (sound : Sound width method site) : site.cache.table.Valid :=
  RuleTable.Valid.of_build sound.built

theorem see (sound : Sound width method site) (shape : Value.Shape) :
    Sound width method (site.see shape) where
  width_eq := sound.width_eq
  method_eq := sound.method_eq
  built := by
    have same := site.cache.select_table shape
    exact sound.built.trans (congrArg Except.ok same.symm)
  ruled := sound.ruled.select sound.valid shape

theorem take (sound : Sound width method site) (step : Step) :
    Sound width method (site.take step) := by
  have other (child : Option CoercionSite) : Sound width method { site with child } :=
    ⟨sound.width_eq, sound.method_eq, sound.built, sound.ruled⟩
  cases step with
  | start v strict =>
      rw [CoercionSite.take, start_state]
      exact sound.see v.shape
  | resume receiver reply =>
      cases reply with
      | missing => exact sound
      | returned value => exact other _
  | select shape => exact sound.see shape
  | child step =>
      rw [CoercionSite.take]
      cases site.child with
      | none => exact sound
      | some child => exact other _

/-- Whichever conversion the cache picks, it finds what the chain finds. -/
theorem judge (sound : Sound width method site) (v : Value) :
    site.judge v = (Conversion.judgeChain width v, site.see v.shape) := by
  have answer := sound.ruled.implementation_select sound.valid v.shape
  have found := Conversion.judge_of_answer sound.built answer
  rw [← found, ← sound.width_eq]
  rfl

theorem coerceStrictly (sound : Sound width method site) (v : Value) :
    site.coerceStrictly v = (Conversion.strictly width v, site.see v.shape) := by
  unfold CoercionSite.coerceStrictly Conversion.strictly
  rw [sound.judge v]
  cases Conversion.judgeChain width v with
  | settled result => rfl
  | askReceiver => rfl

/-- The first half ends with the result of the chain, or with a pending call of the
site's method. -/
theorem start (sound : Sound width method site) (v : Value) (strict : Bool) :
    site.start v strict =
      (if strict then .done (Conversion.strictly width v)
        else match Conversion.judgeChain width v with
          | .settled result => .done result
          | .askReceiver => .pending method,
        site.see v.shape) := by
  unfold CoercionSite.start
  cases strict with
  | true =>
      rw [if_pos rfl, if_pos rfl, sound.coerceStrictly v]
  | false =>
      rw [if_neg Bool.false_ne_true, if_neg Bool.false_ne_true, sound.judge v]
      cases Conversion.judgeChain width v with
      | settled result => rfl
      | askReceiver =>
          have same : (site.see v.shape).method = method := sound.method_eq
          simp only [same]

theorem resume_missing (sound : Sound width method site) (receiver : Value) :
    site.resume receiver .missing =
      (.error (.missingMethod receiver.className method), site) := by
  rw [← sound.method_eq]
  rfl

/-- The second half coerces what the method returned as the chain does, and the strict
child sees its shape. -/
theorem resume_returned (child : Sound width method site.strictChild) (receiver value : Value) :
    site.resume receiver (.returned value) =
      (Conversion.strictly width value,
        { site with child := some (site.strictChild.see value.shape) }) := by
  simp only [CoercionSite.resume, child.coerceStrictly value]

end Sound

/-- A site for a width and a method, at any point of any use. -/
inductive InUse (width : Width) (method : String) : CoercionSite → Prop
  | new {table : RuleTable Value.Shape Conversion} (id : SiteId) (limit : Nat)
      (built : Conversion.table width = .ok table) :
      InUse width method (.new id width table limit method)
  | take {site : CoercionSite} (used : InUse width method site) (step : Step) :
      InUse width method (site.take step)

namespace InUse

theorem start (used : InUse width method site) (v : Value) (strict : Bool) :
    InUse width method (site.start v strict).2 :=
  used.take (.start v strict)

theorem resume (used : InUse width method site) (receiver : Value) (reply : Reply) :
    InUse width method (site.resume receiver reply).2 :=
  used.take (.resume receiver reply)

theorem select (used : InUse width method site) (shape : Value.Shape) :
    InUse width method (site.see shape) :=
  used.take (.select shape)

/-- The strict child is a site for the same width and method, at some point of its own
use. -/
theorem strictChild (used : InUse width method site) : InUse width method site.strictChild := by
  induction used with
  | new id limit built => exact .new id limit built
  | @take site _ step ih =>
      rcases site.strictChild_take step with same | ⟨own, same⟩
      · rw [same]
        exact ih
      · rw [same]
        exact ih.take own

/-- No use makes a site unsound. -/
theorem own (used : InUse width method site) : Sound width method site := by
  induction used with
  | new id limit built => exact sound_new id limit built
  | take _ step ih => exact ih.take step

theorem sound (used : InUse width method site) :
    Sound width method site ∧ Sound width method site.strictChild :=
  ⟨used.own, used.strictChild.own⟩

/-- A coercion leaves a site in use when the methods it calls do, which may use the site
themselves. -/
theorem coerceReentrant {τ : Type} (used : InUse width method site)
    (invoke : Invoker (CoercionSite × τ)) (v : Value) (strict : Bool) (t : τ)
    (kept : ∀ name s, InUse width method s →
      InUse width method (invoke v name [] (s, t)).2.1) :
    InUse width method (CoercionSite.coerceReentrant invoke v strict (site, t)).2.1 := by
  have started := used.start v strict
  unfold CoercionSite.coerceReentrant
  generalize site.start v strict = half at started ⊢
  obtain ⟨progress, next⟩ := half
  cases progress with
  | done result => exact started
  | pending name => exact (kept name next started).resume v _

theorem coerce {τ : Type} (used : InUse width method site) (invoke : Invoker τ) (v : Value)
    (strict : Bool) (t : τ) : InUse width method (site.coerce invoke v strict t).2.1 :=
  used.coerceReentrant _ v strict t fun _ _ kept => kept

end InUse

end CoercionSite

end AdaptiveDispatch
