import AdaptiveDispatch.Proofs.Coercion.Literals
import AdaptiveDispatch.Proofs.Sequence.Safety
import Mathlib.Data.List.Forall2

/-!
# Values through a sequence and back

A sequence of some values unboxes them where it can, and what is read from it is boxed again.
The shapes of the values alone decide how they are stored (`Store.kind_ofValues`). All values
come back as they were, with one exception: where integers of both widths are stored together
they come back with 64 bits.

That is a loss of shape only. A second sequence of what came back is the same as the first
one, and no coercion tells a value from what it came back as.
-/

namespace AdaptiveDispatch

namespace Value

/-- What a value comes back as from a store of some kind. -/
def ReadsAs (kind : Store.Kind) (v w : Value) : Prop :=
  if kind = .longs then v.fixnum?.map .long = some w else w = v

theorem isSome_int? (v : Value) : v.int?.isSome = (v.shape == .int) := by
  cases v <;> rfl

theorem isSome_float? (v : Value) : v.float?.isSome = (v.shape == .float) := by
  cases v <;> rfl

end Value

namespace Elements

variable {v : Value} {n : Int64}

theorem widen_of_fixnum? (fixed : v.fixnum? = some n) : widen v = .long n := by
  rw [widen, fixed]

@[simp] theorem fixnum?_widen (v : Value) : (widen v).fixnum? = v.fixnum? := by
  cases fixed : v.fixnum? with
  | some n =>
      rw [widen_of_fixnum? fixed]
      rfl
  | none => rw [widen, fixed, fixed]

end Elements

namespace Store

/-- The kind of the most compact store for values of some shapes. -/
def Kind.ofShapes (shapes : List Value.Shape) : Kind :=
  if shapes = [] then .empty
  else if ∀ shape ∈ shapes, shape = .int then .ints
  else if ∀ shape ∈ shapes, shape.isFixnum then .longs
  else if ∀ shape ∈ shapes, shape = .float then .doubles
  else .boxed

/-- The most compact store, chosen by tests that come before any value is unboxed. The
unboxing passes over values that do not belong. -/
def ofTests (values : List Value) : Store :=
  if values.isEmpty then .empty
  else if values.all (·.shape == .int) then .ints (values.filterMap Value.int?)
  else if values.all (·.fixnum?.isSome) then .longs (values.filterMap Value.fixnum?)
  else if values.all (·.shape == .float) then .doubles (values.filterMap Value.float?)
  else .boxed values

theorem mapM_eq_filterMap {α β : Type} (f : α → Option β) (l : List α) :
    l.mapM f = if l.all fun a => (f a).isSome then some (l.filterMap f) else none := by
  induction l with
  | nil => rfl
  | cons a l ih =>
      rw [List.mapM_cons, ih, List.all_cons, List.filterMap_cons]
      cases f a with
      | none => rfl
      | some b =>
          by_cases all : l.all fun a => (f a).isSome
          · simp [all]
          · simp [all]

/-- A value is passed over only where a test has failed, so that none is lost. -/
theorem ofValues_eq_ofTests (values : List Value) : ofValues values = ofTests values := by
  rw [ofValues, ofTests]
  simp only [mapM_eq_filterMap, Value.isSome_int?, Value.isSome_float?]
  by_cases empty : values.isEmpty
  · rw [if_pos empty, if_pos empty]
  · rw [if_neg empty, if_neg empty]
    by_cases ints : values.all (·.shape == .int)
    · simp only [if_pos ints]
    · by_cases fixnums : values.all (·.fixnum?.isSome)
      · simp only [if_neg ints, if_pos fixnums]
      · by_cases floats : values.all (·.shape == .float)
        · simp only [if_neg ints, if_neg fixnums, if_pos floats]
        · simp only [if_neg ints, if_neg fixnums, if_neg floats]

/-- How values are stored depends on nothing but their shapes. -/
theorem kind_ofValues (values : List Value) :
    (ofValues values).kind = Kind.ofShapes (values.map Value.shape) := by
  rw [ofValues_eq_ofTests, ofTests, Kind.ofShapes]
  simp only [List.isEmpty_iff, List.map_eq_nil_iff, List.all_eq_true, List.forall_mem_map,
    beq_iff_eq, Value.isSome_fixnum?]
  split_ifs <;> rfl

/-- Integers are stored with 64 bits if all values are integers of a fixed width, but not all
of the smaller one. -/
theorem kind_ofValues_eq_longs_iff {values : List Value} :
    (ofValues values).kind = .longs ↔
      values ≠ [] ∧ (∃ v ∈ values, v.shape ≠ .int) ∧ ∀ v ∈ values, v.fixnum?.isSome := by
  rw [kind_ofValues, Kind.ofShapes]
  simp only [List.map_eq_nil_iff, List.forall_mem_map, Value.isSome_fixnum?]
  by_cases empty : values = []
  · simp [empty]
  · by_cases ints : ∀ v ∈ values, v.shape = .int
    · rw [if_neg empty, if_pos ints]
      simp only [reduceCtorEq, false_iff]
      rintro ⟨_, ⟨v, member, other⟩, _⟩
      exact other (ints v member)
    · have other : ∃ v ∈ values, v.shape ≠ .int := by simpa using ints
      rw [if_neg empty, if_neg ints]
      split_ifs with fixnums floats
      · exact ⟨fun _ => ⟨empty, other, fixnums⟩, fun _ => rfl⟩
      · simp [fixnums]
      · simp [fixnums]

/-- Then none of the integers is passed over. -/
theorem ofValues_of_longs {values : List Value} (longs : (ofValues values).kind = .longs) :
    ofValues values = .longs (values.filterMap Value.fixnum?) := by
  obtain ⟨nonempty, ⟨v, member, other⟩, fixnums⟩ := kind_ofValues_eq_longs_iff.mp longs
  have some_value : ¬ values.isEmpty := by simpa using nonempty
  have mixed : ¬ values.all (·.shape == .int) := by
    intro ints
    exact other (beq_iff_eq.mp (List.all_eq_true.mp ints v member))
  rw [ofValues_eq_ofTests, ofTests, if_neg some_value, if_neg mixed,
    if_pos (List.all_eq_true.mpr fixnums)]

end Store

namespace Elements

variable {values : List Value}

theorem ofValues_of_longs (longs : (Store.ofValues values).kind = .longs) :
    ofValues values = values.map widen := by
  obtain ⟨_, ⟨v, member, other⟩, fixnums⟩ := Store.kind_ofValues_eq_longs_iff.mp longs
  have mixed : ¬ values.all (·.int?.isSome) := by
    intro ints
    have int := List.all_eq_true.mp ints v member
    rw [Value.isSome_int?, beq_iff_eq] at int
    exact other int
  rw [ofValues, if_neg mixed, if_pos (List.all_eq_true.mpr fixnums)]

/-- Nothing is widened in a store of any other kind. -/
theorem ofValues_of_ne_longs (others : (Store.ofValues values).kind ≠ .longs) :
    ofValues values = values := by
  rw [ofValues]
  split_ifs with ints fixnums
  · rfl
  · exfalso
    apply others
    rw [List.all_eq_true] at ints fixnums
    simp only [Value.isSome_int?, beq_iff_eq, not_forall] at ints
    obtain ⟨v, member, other⟩ := ints
    exact Store.kind_ofValues_eq_longs_iff.mpr
      ⟨List.ne_nil_of_mem member, ⟨v, member, other⟩, fixnums⟩
  · rfl

/-- Every value comes back as its kind of store lets it. -/
theorem readsAs_ofValues (values : List Value) :
    List.Forall₂ (Value.ReadsAs (Store.ofValues values).kind) values (ofValues values) := by
  by_cases longs : (Store.ofValues values).kind = .longs
  · obtain ⟨_, _, fixnums⟩ := Store.kind_ofValues_eq_longs_iff.mp longs
    rw [ofValues_of_longs longs, List.forall₂_map_right_iff, List.forall₂_same]
    intro v member
    obtain ⟨n, fixed⟩ := Option.isSome_iff_exists.mp (fixnums v member)
    rw [Value.ReadsAs, if_pos longs, widen_of_fixnum? fixed, fixed, Option.map_some]
  · rw [ofValues_of_ne_longs longs, List.forall₂_same]
    intro v member
    rw [Value.ReadsAs, if_neg longs]

end Elements

/-- What comes back from a store is stored in the same way. -/
theorem Store.ofValues_ofValues (values : List Value) :
    ofValues (Elements.ofValues values) = ofValues values := by
  by_cases longs : (ofValues values).kind = .longs
  · obtain ⟨nonempty, ⟨v, member, _⟩, fixnums⟩ := kind_ofValues_eq_longs_iff.mp longs
    obtain ⟨n, fixed⟩ := Option.isSome_iff_exists.mp (fixnums v member)
    have longs' : (ofValues (values.map Elements.widen)).kind = .longs := by
      apply kind_ofValues_eq_longs_iff.mpr
      refine ⟨by simpa using nonempty, ⟨_, List.mem_map_of_mem member, ?_⟩, ?_⟩
      · rw [Elements.widen_of_fixnum? fixed]
        nofun
      · simpa only [List.forall_mem_map, Elements.fixnum?_widen] using fixnums
    rw [Elements.ofValues_of_longs longs, ofValues_of_longs longs', ofValues_of_longs longs,
      List.filterMap_map]
    congr 2
    funext v
    exact Elements.fixnum?_widen v
  · rw [Elements.ofValues_of_ne_longs longs]

namespace Conversion

/-- The chain settles a fixnum, and no method is called. -/
theorem coerceByChain_of_fixnum? {τ : Type} {v : Value} {n : Int64} (fixed : v.fixnum? = some n)
    (width : Width) (method : String) (invoke : Invoker τ) (strict : Bool) (t : τ) :
    coerceByChain width method invoke v strict t = (.ok (width.truncate n), t) := by
  rw [coerceByChain, judgeChain_of_fixnum? width fixed]

end Conversion

/-- No coercion tells two values from each other: neither at sites of one width with pasts of
their own, nor at one site with methods that may use it. -/
structure Value.CoercesAs (v w : Value) : Prop where
  observe : ∀ {width : Width} {method : String} {site other : CoercionSite},
    CoercionSite.InUse width method site → CoercionSite.InUse width method other →
      ∀ (strict : Bool) {τ : Type} (invoke : Invoker τ) (t : τ),
        site.observe invoke v strict t = other.observe invoke w strict t
  reentrant : ∀ {width : Width} {method : String} {site : CoercionSite},
    CoercionSite.InUse width method site →
      ∀ (strict : Bool) {τ : Type} (invoke : Invoker (CoercionSite × τ)) (t : τ),
        (CoercionSite.coerceReentrant invoke v strict (site, t)).1 =
            (CoercionSite.coerceReentrant invoke w strict (site, t)).1 ∧
          (CoercionSite.coerceReentrant invoke v strict (site, t)).2.2 =
            (CoercionSite.coerceReentrant invoke w strict (site, t)).2.2

namespace Value

variable {v w : Value}

theorem CoercesAs.refl (v : Value) : v.CoercesAs v where
  observe used used' strict τ invoke t := by
    rw [used.observe_eq, used'.observe_eq]
  reentrant _ _ _ _ _ := ⟨rfl, rfl⟩

/-- The shape in which a site sees a fixnum makes no difference to the result. -/
theorem CoercesAs.of_fixnum? {n : Int64} (fixed : v.fixnum? = some n)
    (fixed' : w.fixnum? = some n) : v.CoercesAs w where
  observe used used' strict τ invoke t := by
    rw [used.observe_eq, used'.observe_eq, Conversion.coerceByChain_of_fixnum? fixed,
      Conversion.coerceByChain_of_fixnum? fixed']
  reentrant used strict τ invoke t := by
    rw [used.coerceReentrant_of_fixed fixed, used.coerceReentrant_of_fixed fixed']
    exact ⟨rfl, rfl⟩

theorem ReadsAs.coercesAs {kind : Store.Kind} (reads : ReadsAs kind v w) : w.CoercesAs v := by
  rw [ReadsAs] at reads
  split_ifs at reads with longs
  · obtain ⟨n, fixed, rfl⟩ := Option.map_eq_some_iff.mp reads
    exact .of_fixnum? rfl fixed
  · rw [reads]
    exact .refl v

end Value

namespace Sequence

/-- A sequence of some values has as many elements, and no spare slots. It is stored by the
shapes of the values, as the tests have it. Every site, whatever its past, reads the same
values from it by all of its operations: the values that it was made of, in order, but fixnums
with 64 bits if they are stored so. Of these the same sequence is made again, and they coerce
as the first values do. -/
theorem values_round_trip (values : List Value) :
    let s := ofValues values
    (s.size = values.length ∧ s.store.capacity = values.length) ∧
      (s.store = .ofTests values ∧ s.store.kind = .ofShapes (values.map Value.shape)) ∧
      ∃ back : List Value, List.Forall₂ (Value.ReadsAs s.store.kind) values back ∧
        (∀ site : SequenceSite,
          (site.copyAll s).1 = .ok back ∧ (site.unsplat [s]).1 = .ok back ∧
            (∀ start length,
              (site.copyRange s start length).1 = Elements.range back start length) ∧
            ∀ index, (site.read s index).1 = Elements.element back index) ∧
        ofValues back = s ∧
        List.Forall₂ (fun v w => w.CoercesAs v) values back := by
  intro s
  have wf : s.WellFormed := wellFormed_ofValues values
  have elements : s.toList = Elements.ofValues values := toList_ofValues values
  have reads := Elements.readsAs_ofValues values
  refine ⟨⟨rfl, Store.capacity_ofValues values⟩,
    ⟨Store.ofValues_eq_ofTests values, Store.kind_ofValues values⟩,
    Elements.ofValues values, reads, ?_, ?_, ?_⟩
  · intro site
    rw [← elements]
    exact ⟨site.copyAll_eq wf, site.copyAll_eq wf, site.copyRange_eq wf, site.read_eq wf⟩
  · show (⟨.ofValues (Elements.ofValues values), _⟩ : Sequence) = ⟨.ofValues values, _⟩
    rw [Store.ofValues_ofValues, Elements.length_ofValues]
  · exact reads.imp fun _ _ reads => reads.coercesAs

/-- Integers of both widths are stored together. The smaller one comes back with 64 bits, and
is still coerced as before, by sites of other pasts. -/
theorem values_round_trip_mixed :
    let narrow := ⟨Conversion.rules .bits32, RuleTable.indexOf (Conversion.rules .bits32), .chain⟩
    let fresh := CoercionSite.new ⟨0⟩ .bits32 narrow 0 "to_int"
    let reader := SequenceSite.new ⟨1⟩ ⟨Access.rules, RuleTable.indexOf Access.rules, .generic⟩ 1
    let s := ofValues [.int 7, .long 4294967303]
    CoercionSite.InUse .bits32 "to_int" fresh ∧
      CoercionSite.InUse .bits32 "to_int" (fresh.see .object) ∧ s.store.kind = .longs ∧
      (reader.copyAll s).1 = .ok [.long 7, .long 4294967303] ∧
      fresh.observe Invoker.none (.long 7) true (0 : Nat) =
        (fresh.see .object).observe Invoker.none (.int 7) true 0 := by
  intro narrow fresh reader s
  have used : CoercionSite.InUse .bits32 "to_int" fresh :=
    .new ⟨0⟩ 0 (Conversion.table_eq .bits32)
  obtain ⟨_, ⟨_, kind⟩, back, _, reads, _, alike⟩ :=
    values_round_trip [.int 7, .long 4294967303]
  have copied : (reader.copyAll s).1 = .ok [.long 7, .long 4294967303] := rfl
  have same : back = [.long 7, .long 4294967303] :=
    Except.ok.inj ((reads reader).1.symm.trans copied)
  subst same
  refine ⟨used, used.select .object, kind, copied, ?_⟩
  exact (List.forall₂_cons.mp alike).1.observe used (used.select .object) true Invoker.none 0

end Sequence

end AdaptiveDispatch
