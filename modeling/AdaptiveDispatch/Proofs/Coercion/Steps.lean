import AdaptiveDispatch.Proofs.Coercion.History

/-!
# A site and the sites below it

Steps show the cache of a site some shapes and may give it another child. Nothing else of the
site changes. What they are for the strict child are steps of its own, whether they happen at the
site or at the child.

The `Node`s of a site are the site, its strict child, the child of that and so on. They all start
out alike, so after any steps each of them is the new site again, after some steps.
-/

namespace AdaptiveDispatch.CoercionSite

/-- A site after some steps. -/
def taken (site : CoercionSite) (steps : List Step) : CoercionSite :=
  steps.foldl take site

@[simp] theorem taken_nil (site : CoercionSite) : site.taken [] = site := rfl

@[simp] theorem taken_cons (site : CoercionSite) (step : Step) (steps : List Step) :
    site.taken (step :: steps) = (site.take step).taken steps := rfl

theorem taken_append (site : CoercionSite) (steps more : List Step) :
    site.taken (steps ++ more) = (site.taken steps).taken more :=
  List.foldl_append

/-- Steps at a child that is there change nothing but the child. -/
theorem taken_child {site child : CoercionSite} (there : site.child = some child)
    (steps : List Step) :
    site.taken (steps.map .child) = { site with child := some (child.taken steps) } := by
  induction steps generalizing site child with
  | nil =>
      rw [List.map_nil, taken_nil, taken_nil, ← there]
      exact site.seeAll_nil.symm
  | cons step steps ih =>
      have first : site.take (.child step) = { site with child := some (child.take step) } := by
        simp only [take, there]
      rw [List.map_cons, taken_cons, first, ih rfl, taken_cons]

theorem take_own (site : CoercionSite) (step : Step) :
    ∃ shapes child, site.take step = { site.seeAll shapes with child } := by
  cases step with
  | start v strict => exact ⟨[v.shape], site.child, site.start_state v strict⟩
  | resume receiver reply =>
      cases reply with
      | missing => exact ⟨[], site.child, site.seeAll_nil.symm⟩
      | returned value => exact ⟨[], some _, rfl⟩
  | select shape => exact ⟨[shape], site.child, rfl⟩
  | child step =>
      rw [take]
      cases site.child with
      | none => exact ⟨[], site.child, site.seeAll_nil.symm⟩
      | some child => exact ⟨[], some _, rfl⟩

/-- Apart from its child, a site has only seen some shapes. -/
theorem taken_own (site : CoercionSite) (steps : List Step) :
    ∃ shapes child, site.taken steps = { site.seeAll shapes with child } := by
  induction steps generalizing site with
  | nil => exact ⟨[], site.child, site.seeAll_nil.symm⟩
  | cons step steps ih =>
      obtain ⟨shapes, child, first⟩ := site.take_own step
      obtain ⟨more, child', rest⟩ := ih (site.take step)
      refine ⟨shapes ++ more, child', ?_⟩
      rw [taken_cons, rest, first, seeAll_append]
      rfl

theorem strictChild_taken (site : CoercionSite) (steps : List Step) :
    ∃ own, (site.taken steps).strictChild = site.strictChild.taken own := by
  induction steps generalizing site with
  | nil => exact ⟨[], rfl⟩
  | cons step steps ih =>
      obtain ⟨own, rest⟩ := ih (site.take step)
      rw [taken_cons, rest]
      rcases site.strictChild_take step with same | ⟨first, same⟩
      · rw [same]
        exact ⟨own, rfl⟩
      · rw [same]
        exact ⟨first :: own, rfl⟩

/-- A site has itself as a node, and the nodes of its strict child. -/
inductive Node : CoercionSite → CoercionSite → Prop
  | self (site : CoercionSite) : Node site site
  | child {site child node : CoercionSite} (there : site.child = some child)
      (at_child : Node child node) : Node site node

/-- All nodes of a site that was new are such sites themselves. -/
theorem Node.exists_steps {id : SiteId} {width : Width}
    {table : RuleTable Value.Shape Conversion} {limit : Nat} {method : String}
    {site node : CoercionSite} (at_site : site.Node node) {steps : List Step}
    (reached : site = (new id width table limit method).taken steps) :
    ∃ own, node = (new id width table limit method).taken own := by
  induction at_site generalizing steps with
  | self site => exact ⟨steps, reached⟩
  | @child site child node there _ ih =>
      obtain ⟨own, same⟩ := (new id width table limit method).strictChild_taken steps
      rw [← reached, strictChild, there, Option.getD_some] at same
      exact ih same

end AdaptiveDispatch.CoercionSite
